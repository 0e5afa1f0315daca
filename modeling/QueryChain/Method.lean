import QueryChain.Decimal.Whole
import QueryChain.Text.Blank
import QueryChain.Text.Casing
import QueryChain.Value.Literal

/-!
# Methods of values

Methods of texts and moments, and their results on known values. Where a value is not known before the query
runs, the same methods become SQL.

* `isInfixOf_iff`: a text contains another exactly when it is the other with something on either side.
* `Value.invoke`: a method of a known value with known arguments.
-/

namespace QueryChain

open Calendar

/-! ## Names -/

/-- Where a text is looked for in another. -/
inductive Affix where
  | anywhere
  | atStart
  | atEnd
deriving DecidableEq, Repr

/-- The method that looks for a text. -/
def Affix.ofName (name : String) : Option Affix :=
  [("Contains", anywhere), ("StartsWith", atStart), ("EndsWith", atEnd)].lookup name

/-- A part of a moment that an amount can be added to. -/
inductive DatePart where
  | day
  | hour
  | minute
  | second
  | month
  | year
deriving DecidableEq, Repr

/-- `date_part`: the name of a part in SQL. -/
def DatePart.sql : DatePart → String
  | .day => "day"
  | .hour => "hour"
  | .minute => "minute"
  | .second => "second"
  | .month => "month"
  | .year => "year"

/-- `DATE_PARTS`: the part that a method adds to. -/
def DatePart.ofName (name : String) : Option DatePart :=
  [("AddDays", day), ("AddHours", hour), ("AddMinutes", minute), ("AddSeconds", second),
    ("AddMonths", month), ("AddYears", year)].lookup name

/-- A conversion of a text into another. -/
inductive TextChange where
  | upper
  | lower
  | trimmed
deriving DecidableEq, Repr

/-- The conversion that a method makes. -/
def TextChange.ofName (name : String) : Option TextChange :=
  [("ToUpper", upper), ("ToLower", lower), ("Trim", trimmed)].lookup name

/-- A method with a meaning. -/
inductive Method where
  | toText
  | change (c : TextChange)
  | test (a : Affix)
  | add (part : DatePart)
deriving DecidableEq, Repr

/-- The method with a name. -/
def Method.ofName (name : String) : Option Method :=
  if name = "ToString" then some .toText
  else (TextChange.ofName name).map .change <|> (Affix.ofName name).map .test <|>
    (DatePart.ofName name).map .add

/-! ## Texts -/

/-- Whether a list of characters stands somewhere in another. -/
def isInfixOf (needle : List Char) : List Char → Bool
  | [] => needle.isEmpty
  | c :: rest => needle.isPrefixOf (c :: rest) || isInfixOf needle rest

/-- A text contains another exactly when it is the other with something on either side. -/
theorem isInfixOf_iff {needle cs : List Char} :
    isInfixOf needle cs = true ↔ ∃ before after, cs = before ++ needle ++ after := by
  induction cs with
  | nil => simp [isInfixOf]
  | cons c rest ih =>
    simp only [isInfixOf, Bool.or_eq_true, List.isPrefixOf_iff_prefix, ih]
    constructor
    · rintro (⟨after, h⟩ | ⟨before, after, h⟩)
      · exact ⟨[], after, by simpa using h.symm⟩
      · exact ⟨c :: before, after, by simp [h]⟩
    · rintro ⟨before, after, h⟩
      cases before with
      | nil => exact Or.inl ⟨after, by simpa using h.symm⟩
      | cons d before =>
        simp only [List.cons_append, List.cons.injEq] at h
        exact Or.inr ⟨before, after, h.2⟩

/-- Whether a text holds another where the test looks for it. -/
def Affix.holds (a : Affix) (needle text : String) : Bool :=
  match a with
  | .anywhere => isInfixOf needle.toList text.toList
  | .atStart => needle.toList.isPrefixOf text.toList
  | .atEnd => needle.toList.isSuffixOf text.toList

/-- The text after a conversion. -/
def TextChange.apply (c : TextChange) (text : String) : String :=
  match c with
  | .upper => Text.upperCase text
  | .lower => Text.lowerCase text
  | .trimmed => String.ofList (Text.trim text.toList)

/-- `text`: the text of an operand of a method. -/
def Value.textOperand (v : Value) (method : String) : Except Fault String :=
  match v with
  | .text s => .ok s
  | v => .error (.typeMismatch .text (.textOperand v.scalarType method))

/-! ## Moments -/

/-- Milliseconds of the parts that have a fixed length. -/
def DatePart.millis : DatePart → Option Float
  | .day => some 86400000.0
  | .hour => some 3600000.0
  | .minute => some 60000.0
  | .second => some 1000.0
  | .month | .year => none

/-- Months are counted in 32 bits. A count is taken without its higher bits, and one that does not fit with
a sign is beyond the calendar. -/
def monthsWithin32 (n : Nat) : Option Nat :=
  let m := n % 4294967296
  if m ≤ 2147483647 then some m else none

/-- The moment a number of months later, or earlier. -/
def shiftMonths (t : Moment) (months : Int) : Option Moment := do
  let m ← monthsWithin32 months.natAbs
  if m = 0 then some t
  else t.addMonths (if 0 ≤ months then (m : Int) else -(m : Int))

/-- The months that whole months or years make, in 64 bits: beyond these the count of the months of years wraps
around. -/
def DatePart.monthsWithin64 (part : DatePart) (whole : Int64) : Int64 :=
  if part = .year then whole * 12 else whole

/-- `shift`: the moment an amount of a part later. Months and years count whole ones, other parts whole
milliseconds. -/
def Calendar.Moment.shift (t : Moment) (part : DatePart) (amount : Float) : Option Moment :=
  match part.millis with
  | some millis => t.addMillis (Decimal.truncate (amount * millis)).toInt
  | none => shiftMonths t (part.monthsWithin64 (Decimal.truncate amount)).toInt

/-- The amount that a value stands for. -/
def Value.amount : Value → Except Fault Float
  | .int n => .ok (Decimal.ofInt64 n)
  | .float x => .ok x
  | v => .error (.typeMismatch .float (.operand v.scalarType))

/-! ## Calls -/

/-- `invoke_host`: a method of a known value with known arguments. -/
def Value.invoke (receiver : Value) (name : String) (args : List Value) : Except Fault Value :=
  match Method.ofName name, args with
  | some .toText, [] => .ok (.text receiver.display)
  | some (.change c), [] => do
    let s ← receiver.textOperand name
    pure (.text (c.apply s))
  | some (.test a), [needle] => do
    let s ← receiver.textOperand name
    let n ← needle.textOperand name
    pure (.bool (a.holds n s))
  | some (.add part), [amount] =>
    match receiver with
    | .dateTime t => do
      let x ← amount.amount
      match t.shift part x with
      | some moved => pure (.dateTime moved)
      | none => .error (.value (.overflow name x))
    | v => .error (.typeMismatch .dateTime (.operand v.scalarType))
  | _, _ => .error (.use (.methodArity name args.length))

end QueryChain
