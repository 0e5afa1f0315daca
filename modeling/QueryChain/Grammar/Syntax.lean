import QueryChain.Operator
import QueryChain.Value

/-!
# Syntax trees

What a query text says, before its names are looked up in a schema.
-/

namespace QueryChain

/-- `Syntax`: a query text as a tree. -/
inductive Syntax where
  | literal (v : Value)
  | name (s : String)
  /-- Member access, `target.field`. -/
  | member (target : Syntax) (field : String)
  /-- A call on a target, `target.method(args)`. -/
  | call (target : Syntax) (method : String) (args : List Syntax)
  /-- A call without a target, `method(args)`. -/
  | freeCall (method : String) (args : List Syntax)
  | binary (op : BinaryOp) (left right : Syntax)
  /-- A function of one or more parameters, `x => body`. -/
  | lambda (params : List String) (body : Syntax)
  /-- A new object with named members. -/
  | object (members : List (String × Syntax))
deriving Inhabited

/-- `implied_name`: the name that an expression gives to a member of a new object: that of its last member. -/
def Syntax.impliedName : Syntax → Option String
  | .member _ field => some field
  | .name s => some s
  | _ => none

/-- `fold_chain`: joins operands from the left. -/
def Syntax.chain (first : Syntax) (rest : List (BinaryOp × Syntax)) : Syntax :=
  rest.foldl (fun left (op, right) => .binary op left right) first

@[simp] theorem Syntax.chain_nil (first : Syntax) : first.chain [] = first := rfl

@[simp] theorem Syntax.chain_cons (first right : Syntax) (op : BinaryOp)
    (rest : List (BinaryOp × Syntax)) :
    first.chain ((op, right) :: rest) = (Syntax.binary op first right).chain rest := rfl

end QueryChain
