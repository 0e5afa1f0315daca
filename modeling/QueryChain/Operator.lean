/-!
# Binary operators

The operators that stand between two expressions, in query texts and in SQL.
-/

namespace QueryChain

/-- `BinaryOp`: a binary operator. -/
inductive BinaryOp where
  | and
  | or
  | add
  | sub
  | mul
  | div
  | eq
  | ne
  | lt
  | le
  | gt
  | ge
deriving DecidableEq, Repr, Inhabited

namespace BinaryOp

/-- `is_logical`: joins two truth values. -/
def isLogical : BinaryOp → Bool
  | .and | .or => true
  | _ => false

/-- `is_comparison`: compares two scalars. -/
def isComparison : BinaryOp → Bool
  | .eq | .ne | .lt | .le | .gt | .ge => true
  | _ => false

/-- Whether the result is a truth value. -/
def isTest (op : BinaryOp) : Bool :=
  op.isLogical || op.isComparison

/-- `fmt`: the operator in SQL. -/
def sql : BinaryOp → String
  | .and => "AND"
  | .or => "OR"
  | .add => "+"
  | .sub => "-"
  | .mul => "*"
  | .div => "/"
  | .eq => "="
  | .ne => "<>"
  | .lt => "<"
  | .le => "<="
  | .gt => ">"
  | .ge => ">="

/-- The operator in a query text. -/
def token : BinaryOp → String
  | .and => "&&"
  | .or => "||"
  | .add => "+"
  | .sub => "-"
  | .mul => "*"
  | .div => "/"
  | .eq => "=="
  | .ne => "!="
  | .lt => "<"
  | .le => "<="
  | .gt => ">"
  | .ge => ">="

/-- The name of the operator. -/
def name : BinaryOp → String
  | .and => "And"
  | .or => "Or"
  | .add => "Add"
  | .sub => "Sub"
  | .mul => "Mul"
  | .div => "Div"
  | .eq => "Eq"
  | .ne => "Ne"
  | .lt => "Lt"
  | .le => "Le"
  | .gt => "Gt"
  | .ge => "Ge"

/-- All operators. -/
def all : List BinaryOp :=
  [.and, .or, .add, .sub, .mul, .div, .eq, .ne, .lt, .le, .gt, .ge]

/-- The operator with a name. -/
def ofName (s : String) : Option BinaryOp :=
  all.find? (·.name = s)

@[simp] theorem ofName_name (op : BinaryOp) : ofName op.name = some op := by
  cases op <;> decide

end BinaryOp

end QueryChain
