import QueryChain.Tree.Basic

/-!
# Building expression trees

One function per kind of node. Each computes the static type of the node from its parts.

* `Expr.ty_applyOp`: tests are truth values, and any other operator has the type of its left side.
-/

namespace QueryChain

namespace Expr

/-- `value`: a scalar literal. -/
def ofValue (v : Value) : Expr :=
  .value v (.ofScalar v.scalarType)

/-- `host`: a captured value. -/
def ofCaptured (c : Captured) : Expr :=
  .captured c (match c with
    | .scalar v => .ofScalar v.scalarType
    | .object typeName _ => .host typeName)

/-- `table`: the rows of the table of a model. -/
def ofTable (m : Model) : Expr :=
  .table m (.sequence (.model m))

/-- `field`: member access. -/
def member (e : Expr) (name : String) : Expr :=
  .field e name (e.ty.member name)

/-- `binary`: two expressions joined by an operator. -/
def applyOp (op : BinaryOp) (l r : Expr) : Expr :=
  .binary op l r (if op.isTest then .scalar .bool else l.ty)

/-- The static type of what a method returns. -/
def methodType (name : String) : StaticType :=
  if name = "ToString" ∨ name = "ToUpper" ∨ name = "ToLower" ∨ name = "Trim" then .scalar .text
  else if name = "Contains" ∨ name = "StartsWith" ∨ name = "EndsWith" then .scalar .bool
  else if name = "AddDays" ∨ name = "AddHours" ∨ name = "AddMinutes" ∨ name = "AddSeconds" ∨
      name = "AddMonths" ∨ name = "AddYears" then .scalar .dateTime
  else .unknown

/-- `method`: a method call. -/
def callMethod (e : Expr) (name : String) (args : List Expr) : Expr :=
  .method e name args (methodType name)

/-- `lambda`: a function. -/
def function (params : List String) (body : Expr) : Expr :=
  .lambda params body body.ty

/-- `quote`: an expression passed as data. -/
def quoted (e : Expr) : Expr :=
  .quote e e.ty

/-- `new_object`: a new object of a model. -/
def newObject (m : Model) (shape : ShapeKind) (members : List (String × Expr)) : Expr :=
  .object shape members (.model m)

/-- The members of a new object with their scalar types. -/
def memberTypes (members : List (String × Expr)) : List (String × Option ScalarType) :=
  members.map fun (name, e) => (name, e.ty.asScalar)

/-- `group_count`: the number of rows of a group. -/
def groupCount (group : Expr) : Expr :=
  .operator "Count" [group] (.scalar .int)

/-- The type of the rows of a group. -/
def groupElement (group : Expr) : StaticType :=
  match group.ty with
  | .grouping _ element => element
  | _ => .unknown

/-- `group_aggregate`: an aggregate of the rows of a group; `selector` is given the row. -/
def groupAggregate (group : Expr) (name : String) (selector : Expr → Expr) : Expr :=
  let body := selector (.param "e" group.groupElement)
  let ty := if name = "Average" then .scalar .float else body.ty
  .operator name [group, function ["e"] body] ty

/-- Tests are truth values, and any other operator has the type of its left side. -/
theorem ty_applyOp (op : BinaryOp) (l r : Expr) :
    (applyOp op l r).ty = if op.isTest then .scalar .bool else l.ty := rfl

end Expr

end QueryChain
