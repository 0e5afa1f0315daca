import QueryChain.Captured
import QueryChain.Operator
import QueryChain.Tree.StaticType

/-!
# Expression trees

A query as a tree of typed nodes. Every node carries its static type; the constructors in
`QueryChain.Tree.Build` compute it from the parts.

* `Expr.isRowDerived`: whether an expression reads from a row.
* `Expr.unquote_unquote`: stripping quotes twice is stripping them once.
-/

namespace QueryChain

/-- `ShapeKind`: how a new object is filled. -/
inductive ShapeKind where
  /-- Member by member. -/
  | named
  /-- By the constructor of its model. -/
  | positional
deriving DecidableEq

/-- `Expr`: an expression tree. -/
inductive Expr where
  /-- A scalar literal. -/
  | value (v : Value) (ty : StaticType)
  /-- A captured value of the calling program. -/
  | captured (c : Captured) (ty : StaticType)
  /-- The rows of a table. -/
  | table (m : Model) (ty : StaticType)
  /-- A parameter of an enclosing function. -/
  | param (name : String) (ty : StaticType)
  | field (target : Expr) (name : String) (ty : StaticType)
  | binary (op : BinaryOp) (left right : Expr) (ty : StaticType)
  /-- A method of a value. -/
  | method (target : Expr) (name : String) (args : List Expr) (ty : StaticType)
  /-- A query operator; its source is the first argument. -/
  | operator (name : String) (args : List Expr) (ty : StaticType)
  | lambda (params : List String) (body : Expr) (ty : StaticType)
  /-- A function passed as data. -/
  | quote (inner : Expr) (ty : StaticType)
  /-- A new object. -/
  | object (shape : ShapeKind) (members : List (String × Expr)) (ty : StaticType)
deriving Inhabited

namespace Expr

/-- `ty`: the static type of a node. -/
def ty : Expr → StaticType
  | .value _ t | .captured _ t | .table _ t | .param _ t | .field _ _ t | .binary _ _ _ t
  | .method _ _ _ t | .operator _ _ t | .lambda _ _ t | .quote _ t | .object _ _ t => t

/-- The same node with another static type. -/
def withType (e : Expr) (t : StaticType) : Expr :=
  match e with
  | .value v _ => .value v t
  | .captured c _ => .captured c t
  | .table m _ => .table m t
  | .param n _ => .param n t
  | .field e n _ => .field e n t
  | .binary op l r _ => .binary op l r t
  | .method e n args _ => .method e n args t
  | .operator n args _ => .operator n args t
  | .lambda ps b _ => .lambda ps b t
  | .quote e _ => .quote e t
  | .object s ms _ => .object s ms t

@[simp] theorem ty_withType (e : Expr) (t : StaticType) : (e.withType t).ty = t := by
  cases e <;> rfl

/-- `kind_name`: the name of the kind of a node, in messages. -/
def kindName : Expr → String
  | .value .. | .captured .. | .table .. => "Constant"
  | .param .. => "Parameter"
  | .field .. => "FieldAccess"
  | .binary .. => "BinaryOp"
  | .method .. | .operator .. => "MethodCall"
  | .lambda .. => "Lambda"
  | .quote .. => "QuotedLambda"
  | .object .. => "NewObject"

/-- `is_row_derived`: whether an expression reads from a row: it goes back to a parameter. -/
def isRowDerived : Expr → Bool
  | .param .. => true
  | .field target _ _ => isRowDerived target
  | .method target _ _ _ => isRowDerived target
  | .operator _ args _ =>
    match args with
    | [] => false
    | source :: _ => isRowDerived source
  | .binary _ left right _ => isRowDerived left || isRowDerived right
  | _ => false

/-- `unquote`: what is left when all quotes around an expression are stripped. -/
def unquote : Expr → Expr
  | .quote inner _ => unquote inner
  | e => e

/-- Stripping quotes twice is stripping them once. -/
theorem unquote_unquote (e : Expr) : e.unquote.unquote = e.unquote := by
  fun_induction unquote e with
  | case1 inner _ ih => exact ih
  | case2 e h => simp [unquote]

mutual

/-- Equality of trees, static types included; floats compare as numbers and models by identity. -/
def beq : Expr → Expr → Bool
  | .value v t, .value w u => v == w && t == u
  | .captured c t, .captured d u => c == d && t == u
  | .table m t, .table n u => m.same n && t == u
  | .param n t, .param m u => n == m && t == u
  | .field e n t, .field f m u => beq e f && n == m && t == u
  | .binary o l r t, .binary p l' r' u => o == p && beq l l' && beq r r' && t == u
  | .method e n as t, .method f m bs u => beq e f && n == m && beqAll as bs && t == u
  | .operator n as t, .operator m bs u => n == m && beqAll as bs && t == u
  | .lambda ps b t, .lambda qs c u => ps == qs && beq b c && t == u
  | .quote e t, .quote f u => beq e f && t == u
  | .object s ms t, .object s' ns u => s == s' && beqMembers ms ns && t == u
  | _, _ => false

/-- Equality of lists of trees. -/
def beqAll : List Expr → List Expr → Bool
  | [], [] => true
  | e :: es, f :: fs => beq e f && beqAll es fs
  | _, _ => false

/-- Equality of members. -/
def beqMembers : List (String × Expr) → List (String × Expr) → Bool
  | [], [] => true
  | m :: ms, n :: ns => beqMember m n && beqMembers ms ns
  | _, _ => false

/-- Equality of one member. -/
def beqMember : String × Expr → String × Expr → Bool
  | (n, e), (m, f) => n == m && beq e f

end

instance : BEq Expr := ⟨beq⟩

end Expr

end QueryChain
