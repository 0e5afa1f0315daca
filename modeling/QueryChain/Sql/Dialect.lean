import QueryChain.Method
import QueryChain.Value.Literal

/-!
# SQL dialects

Three dialects and the spellings in which they differ: identifiers, select items, booleans, joined texts, row
limits, lengths, conversions to text and sums of dates.

* `Dialect.ofExactName_name`: a dialect is read back from its name.
-/

namespace QueryChain

/-- `Dialect`: an SQL dialect. -/
inductive Dialect where
  | sqlServer
  | sqlite
  | postgres
deriving DecidableEq, Repr, Inhabited

namespace Dialect

/-! ## Names -/

/-- `fmt`: the name of a dialect. -/
def name : Dialect → String
  | .sqlServer => "sqlserver"
  | .sqlite => "sqlite"
  | .postgres => "postgres"

/-- All dialects. -/
def all : List Dialect := [sqlServer, sqlite, postgres]

/-- The text with the letters of ASCII in lower case. -/
def asciiLower (s : String) : String :=
  String.ofList (s.toList.map Char.toLower)

/-- `from_str`: the dialect that a word stands for, in either case. -/
def ofName (s : String) : Except Fault Dialect :=
  let word := asciiLower s
  if word = "sqlserver" ∨ word = "mssql" ∨ word = "tsql" then .ok .sqlServer
  else if word = "sqlite" then .ok .sqlite
  else if word = "postgres" ∨ word = "postgresql" then .ok .postgres
  else .error (.settings (.unknownDialect word))

/-- `from_url`: the dialect that the scheme of a connection address stands for. -/
def ofUrl (url : String) : Option Dialect :=
  let scheme := String.ofList (url.toList.takeWhile (· ≠ ':'))
  if scheme = "sqlite" then some .sqlite
  else if scheme = "postgres" ∨ scheme = "postgresql" then some .postgres
  else if scheme = "mssql" ∨ scheme = "sqlserver" then some .sqlServer
  else none

/-- The dialect with exactly this name. -/
def ofExactName (s : String) : Option Dialect :=
  all.find? (·.name = s)

@[simp] theorem ofExactName_name (d : Dialect) : ofExactName d.name = some d := by
  cases d <;> decide

/-! ## Spellings -/

/-- Writes a character twice wherever it occurs. -/
def doubled (c : Char) (s : String) : String :=
  String.ofList (s.toList.flatMap fun d => if d = c then [d, d] else [d])

/-- `quote_ansi`: an identifier between double quotes. -/
def ansiIdentifier (s : String) : String :=
  "\"" ++ doubled '\"' s ++ "\""

/-- `quote_identifier`: a quoted identifier. -/
def quoteIdentifier : Dialect → String → String
  | .sqlServer, s => "[" ++ doubled ']' s ++ "]"
  | .sqlite, s | .postgres, s => ansiIdentifier s

/-- `column_item`: a column in a select list; `joined` once the query has joins. -/
def columnItem (d : Dialect) (label column : String) (joined : Bool) : String :=
  match d with
  | .sqlServer => if joined then "[" ++ label ++ "." ++ column ++ "]" else "[" ++ column ++ "]"
  | .sqlite | .postgres => label ++ "." ++ column

/-- `entity_item`: a column of a whole row, so named that it is read back by its name. -/
def entityItem (d : Dialect) (label column : String) : String :=
  match d with
  | .sqlServer => "[" ++ label ++ "." ++ column ++ "]"
  | .sqlite | .postgres => label ++ "." ++ column ++ " AS " ++ ansiIdentifier column

/-- `bool_literal`: the literal of a truth value. -/
def boolLiteral : Dialect → Bool → String
  | .sqlServer, b | .sqlite, b => numericBool b
  | .postgres, b => if b then "TRUE" else "FALSE"

/-- `string_concat`: texts joined into one. -/
def concat (d : Dialect) (parts : List String) : String :=
  match d with
  | .sqlServer => " + ".intercalate parts
  | .sqlite | .postgres => " || ".intercalate parts

/-- `top`: a row limit after `SELECT`. -/
def top (d : Dialect) (n : Int) : String :=
  match d with
  | .sqlServer => "TOP " ++ toString n ++ " "
  | .sqlite | .postgres => ""

/-- `limit`: a row limit at the end of a statement. -/
def limit (d : Dialect) (n : Int) : String :=
  match d with
  | .sqlServer => ""
  | .sqlite | .postgres => " LIMIT " ++ toString n

/-- `length`: the length of a text. -/
def length : Dialect → String → String
  | .sqlServer, t => "LEN(" ++ t ++ ")"
  | .sqlite, t | .postgres, t => "LENGTH(" ++ t ++ ")"

/-- `to_text`: a conversion to text. -/
def toText : Dialect → String → String
  | .sqlServer, t => "CAST(" ++ t ++ " AS NVARCHAR(MAX))"
  | .sqlite, t | .postgres, t => "CAST(" ++ t ++ " AS TEXT)"

/-- `date_add`: a moment with an amount of a part added. -/
def dateAdd (d : Dialect) (part amount t : String) : String :=
  match d with
  | .sqlServer => "DATEADD(" ++ part ++ ", " ++ amount ++ ", " ++ t ++ ")"
  | .sqlite => "datetime(" ++ t ++ ", (" ++ amount ++ ") || ' " ++ part ++ "s')"
  | .postgres => "(" ++ t ++ " + (" ++ amount ++ ") * INTERVAL '1 " ++ part ++ "')"

/-- `literal`: the literal of a value. -/
def literal (d : Dialect) (v : Value) : Except Fault String :=
  v.literal d.boolLiteral

end Dialect

end QueryChain
