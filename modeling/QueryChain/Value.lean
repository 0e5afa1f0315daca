import QueryChain.Calendar.Text
import QueryChain.Decimal.Layout

/-!
# Scalar values

The scalars that expression trees, SQL texts and result rows exchange. Equality of values compares floats as
numbers: a NaN differs from itself, and the two zeros are equal.

* `Value.scalarType_eq_none`: only the null value has no type.
-/

namespace QueryChain

open Calendar Decimal

/-- `ValueType`: the type of a field, a column or a scalar expression. -/
inductive ScalarType where
  | bool
  | int
  | float
  | text
  | dateTime
deriving DecidableEq, Repr, Inhabited

/-- `fmt`: the name of a type in messages. -/
def ScalarType.name : ScalarType → String
  | .bool => "Bool"
  | .int => "Int"
  | .float => "Float"
  | .text => "Text"
  | .dateTime => "DateTime"

/-- The name of a type in schema files. -/
def ScalarType.keyword : ScalarType → String
  | .bool => "bool"
  | .int => "int"
  | .float => "float"
  | .text => "text"
  | .dateTime => "datetime"

/-- All types. -/
def ScalarType.all : List ScalarType :=
  [.bool, .int, .float, .text, .dateTime]

/-- The type that a schema file names. -/
def ScalarType.ofKeyword (s : String) : Option ScalarType :=
  ScalarType.all.find? (·.keyword = s)

@[simp] theorem ScalarType.ofKeyword_keyword (t : ScalarType) :
    ScalarType.ofKeyword t.keyword = some t := by
  cases t <;> decide

/-- `Value`: a scalar. -/
inductive Value where
  | null
  | bool (b : Bool)
  | int (n : Int64)
  | float (x : Float)
  | text (s : String)
  | dateTime (t : Moment)
deriving BEq, Inhabited

namespace Value

/-- `value_type`: the type of a value; null has none. -/
def scalarType : Value → Option ScalarType
  | .null => none
  | .bool _ => some .bool
  | .int _ => some .int
  | .float _ => some .float
  | .text _ => some .text
  | .dateTime _ => some .dateTime

/-- `is_null`: whether this is the null value. -/
def isNull : Value → Bool
  | .null => true
  | _ => false

theorem scalarType_eq_none {v : Value} : v.scalarType = none ↔ v = .null := by
  cases v <;> simp [scalarType]

theorem isNull_eq_true {v : Value} : v.isNull = true ↔ v = .null := by
  cases v <;> simp [isNull]

/-- `fmt`: the text of a value, in messages and where a text is wanted. -/
def display : Value → String
  | .null => "NULL"
  | .bool b => if b then "true" else "false"
  | .int n => toString n.toInt
  | .float x => layout plainLayout x
  | .text s => s
  | .dateTime t => t.write

end Value

/-- The name of an optional type, for messages about values: null has the type `Null`. -/
def typeNameOrNull (t : Option ScalarType) : String :=
  (t.map ScalarType.name).getD "Null"

end QueryChain
