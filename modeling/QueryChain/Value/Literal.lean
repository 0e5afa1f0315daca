import QueryChain.Fault

/-!
# SQL literals

The literal of a value. Texts and moments stand between single quotes, a quote within doubled; dialects differ
in the literals of booleans only. NaN and the infinities have no literal.

* `undoubleQuotes_doubleQuotes`: doubled quotes read back.
* `Value.requireLiteral_eq_ok`: only floats that are not finite are refused.
-/

namespace QueryChain

open Decimal Calendar

/-! ## Quoted texts -/

/-- Writes every single quote twice. -/
def doubleQuotes : List Char → List Char
  | [] => []
  | c :: rest => if c = '\'' then '\'' :: '\'' :: doubleQuotes rest else c :: doubleQuotes rest

/-- Reads every pair of single quotes as one. -/
def undoubleQuotes : List Char → List Char
  | [] => []
  | [c] => [c]
  | c :: d :: rest =>
    if c = '\'' ∧ d = '\'' then '\'' :: undoubleQuotes rest else c :: undoubleQuotes (d :: rest)

/-- Doubled quotes read back. -/
theorem undoubleQuotes_doubleQuotes (cs : List Char) : undoubleQuotes (doubleQuotes cs) = cs := by
  induction cs with
  | nil => rfl
  | cons c rest ih =>
    by_cases h : c = '\''
    · simp [doubleQuotes, undoubleQuotes, h, ih]
    · simp only [doubleQuotes, h, if_false]
      cases hd : doubleQuotes rest with
      | nil => rw [hd] at ih; simp [undoubleQuotes, ← ih]
      | cons d more => rw [hd] at ih; simp [undoubleQuotes, h, ih]

/-- `quote_text`: a text as an SQL literal. -/
def quoteText (s : String) : String :=
  String.ofList ('\'' :: doubleQuotes s.toList ++ ['\''])

/-! ## Values -/

/-- Whether a double is a number: neither NaN nor an infinity. -/
def isFinite (x : Float) : Bool :=
  (Binary.ofBits x.toBits).isSome

/-- Whether a value has a literal. -/
def Value.hasLiteral : Value → Bool
  | .float x => isFinite x
  | _ => true

/-- The literal of a value that has one, given the literals of booleans. -/
def Value.literalText (bools : Bool → String) : Value → String
  | .null => "NULL"
  | .bool b => bools b
  | .int n => toString n.toInt
  | .float x => layout exactLayout x
  | .text s => quoteText s
  | .dateTime t => "'" ++ t.write ++ "'"

/-- Refuses a value without a literal. -/
def Value.requireLiteral (v : Value) : Except Fault Unit :=
  match v with
  | .float x => if isFinite x then .ok () else .error (.value (.noLiteral x))
  | _ => .ok ()

/-- `to_sql_literal`: the literal of a value, given the literals of booleans. -/
def Value.literal (bools : Bool → String) (v : Value) : Except Fault String := do
  v.requireLiteral
  pure (v.literalText bools)

/-- Booleans as numbers. -/
def numericBool (b : Bool) : String :=
  if b then "1" else "0"

theorem Value.requireLiteral_eq_ok {v : Value} : v.requireLiteral = .ok () ↔ v.hasLiteral = true := by
  cases v <;> simp [requireLiteral, hasLiteral]

end QueryChain
