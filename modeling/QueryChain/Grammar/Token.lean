import QueryChain.Calendar.Text
import QueryChain.Decimal.Reading
import QueryChain.Grammar.Syntax
import QueryChain.Reader
import QueryChain.Text.Letters

/-!
# Tokens of query texts

Names, numbers and quoted texts.

* A name is a letter or `_`, then letters, numerals and `_`.
* A number is an optional minus, digits, and optionally a point with digits. An integer outside 64 bits is
  read as zero.
* A text stands between single quotes, with a quote inside written twice, or between double quotes.
-/

namespace QueryChain.Grammar

open Text Decimal Calendar

/-! ## Names -/

/-- A character that may begin a name. -/
def startsName (c : Char) : Bool :=
  isLetter c || c = '_'

/-- A character that may go on in a name. -/
def continuesName (c : Char) : Bool :=
  isLetterOrNumeral c || c = '_'

/-- `parse_identifier`: a name. -/
def identifier : Reader String := do
  let c ← Reader.satisfy startsName
  let more ← Reader.takeWhile continuesName
  pure (String.ofList (c :: more))

/-- Whether a text is a name. -/
def IsName (s : String) : Prop :=
  ∃ c more, s.toList = c :: more ∧ startsName c = true ∧ ∀ d ∈ more, continuesName d = true

/-! ## Numbers -/

/-- One digit or more. -/
def digitRun : Reader (List Char) := fun s =>
  match s.takeWhile Char.isDigit with
  | [] => .miss s .digit
  | ds => .read ds (s.dropWhile Char.isDigit)

/-- The integer of a sign and digits, zero where 64 bits do not hold it. -/
def integerOf (negative : Bool) (ds : List Char) : Int64 :=
  let n : Int := if negative then -(natOfDigits ds : Int) else natOfDigits ds
  if -9223372036854775808 ≤ n ∧ n ≤ 9223372036854775807 then Int64.ofInt n else 0

/-- The double of a sign, digits and decimals. -/
def doubleOf (negative : Bool) (ds places : List Char) : Float :=
  let x := ofDecimal (natOfDigits (ds ++ places)) (-(places.length : Int))
  if negative then -x else x

/-- `parse_number`: a number. -/
def number : Reader Value := do
  let minus ← (Reader.char '-').optional
  let ds ← digitRun
  let places ← Reader.optional (do Reader.char '.'; digitRun)
  match places with
  | some places => pure (.float (doubleOf minus.isSome ds places))
  | none => pure (.int (integerOf minus.isSome ds))

/-! ## Texts -/

/-- A character between single quotes: two quotes are one. -/
def singleQuotedChar : Reader Char :=
  Reader.orElse (do Reader.word "''"; pure '\'') fun s =>
    match s with
    | c :: rest => if c = '\'' then .miss s .noneOf else .read c rest
    | [] => .miss s .noneOf

/-- A text between single quotes. -/
def singleQuoted : Reader String := do
  Reader.char '\''
  let cs ← singleQuotedChar.many
  Reader.char '\''
  pure (String.ofList cs)

/-- A text between double quotes. -/
def doubleQuoted : Reader String := do
  Reader.char '\"'
  let cs ← Reader.takeWhile (· ≠ '\"')
  Reader.char '\"'
  pure (String.ofList cs)

/-- `parse_quoted_string`: a quoted text. -/
def quoted : Reader String :=
  singleQuoted.orElse doubleQuoted

end QueryChain.Grammar
