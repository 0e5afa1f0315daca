import QueryChain.Lowering.Evaluate

/-!
# Compiled queries

When a tree has been lowered, its clauses are put together into one statement, and the shape of its rows is
settled: whole rows of the table, objects filled member by member or by a constructor, or single scalars.

A tree is compiled with text in place of terms, so every part of its statement is spelled under the options as soon as
it is met.

* `Expr.lower`: the statement, shape and mode of a tree; with terms, if nothing else is asked for.
* `Expr.compile`: the text of the statement of a tree, its shape and its mode.
-/

namespace QueryChain

/-- `RowShape`: what a row of the result is turned into. -/
inductive RowShape where
  /-- A whole row of a table. -/
  | entity (m : Model)
  /-- An object whose listed members are assigned. -/
  | named (m : Model) (members : List String)
  /-- An object made by its constructor. -/
  | positional (m : Model)
  /-- A single scalar. -/
  | scalar (type : Option ScalarType)

/-- `ResultMode`: what a query returns. -/
inductive ResultMode where
  | rows
  | first
  | count
  | aggregate
deriving DecidableEq, Repr

/-- A lowered query. -/
structure Lowered (τ : Type := Term) (ν : Type := Nat) where
  statement : Statement τ ν
  shape : RowShape
  mode : ResultMode
  top : Option Nat
  distinct : Bool

/-- `Compiled`: a lowered query with the text of its statement. -/
structure Compiled where
  sql : String
  shape : RowShape
  mode : ResultMode
  top : Option Nat
  distinct : Bool

variable {τ ν : Type}

/-- Writes the statement. -/
def Lowered.compiled [SqlText τ] [SqlAlias ν] (o : Options) (t : Lowered τ ν) : Compiled :=
  ⟨t.statement.render o, t.shape, t.mode, t.top, t.distinct⟩

variable [SqlAlgebra τ ν]

namespace Clauses

/-! ## Select lists and shapes -/

/-- `select_expr`: the term of a value that is selected. -/
def selectedTerm (r : Row τ ν) : Except Fault τ :=
  match r with
  | .term t => .ok t
  | .scalar v => SqlAlgebra.literal v
  | .host c => .error (.value (.hostSelected c.typeName))
  | r => .error (.use (.memberSelection r.kind))

/-- `member_list`: the select items of the members of an object. -/
def memberItems : List (String × Row τ ν) → Except Fault (List (SelectItem τ ν))
  | [] => .ok []
  | (name, r) :: rest => do
    let t ← selectedTerm r
    let items ← memberItems rest
    pure (.named t name :: items)

/-- `settable_members`: every member must be a field that can be assigned. -/
def requireSettable (m : Model) : List String → Except Fault Unit
  | [] => .ok ()
  | name :: rest =>
    match m.field name with
    | some f => if f.settable then requireSettable m rest else .error (.noMember name m.typeName)
    | none => .error (.noMember name m.typeName)

/-- `check_constructor`: every parameter must be among the members. -/
def requireSupplied (m : Model) (names : List String) : List String → Except Fault Unit
  | [] => .ok ()
  | param :: rest =>
    if names.contains param then requireSupplied m names rest
    else .error (.noMember param m.typeName)

/-- The shape of objects that are filled member by member. -/
def namedShape (m : Model) (fields : Entries τ ν) : Except Fault RowShape := do
  requireSettable m fields.names
  pure (.named m fields.names)

/-- The shape of objects that a constructor makes. -/
def positionalShape (m : Model) (fields : Entries τ ν) : Except Fault RowShape :=
  match m.constructorParams with
  | some params => do
    requireSupplied m fields.names params
    pure (.positional m)
  | none => .error (.use (.noConstructor m.typeName))

/-- `select_list`: the select items of a statement and the shape of its rows: those of the projection, else of the
last join, else of the last group key, else of whole rows of the root table. -/
def selection (c : Clauses τ ν) (root : TableRef ν) : Except Fault (List (SelectItem τ ν) × RowShape) :=
  match c.projection, c.joins.getLast?, c.groupKeys.getLast? with
  | some (.scalar type value), _, _ => do
    let t ← selectedTerm value
    pure ([.bare t], .scalar type)
  | some (.object positional m fields), _, _ => do
    let items ← memberItems fields.list
    let shape ← if positional then positionalShape m fields else namedShape m fields
    pure (items, shape)
  | none, some j, _ => do
    let items ← memberItems j.fields.list
    let shape ← if j.model.constructorParams.isSome then positionalShape j.model j.fields
      else namedShape j.model j.fields
    pure (items, shape)
  | none, none, some key => .ok ([.bare key], .scalar none)
  | none, none, none =>
    .ok (root.model.fields.map fun f => .entity root.label f.column, .entity root.model)

/-! ## Statements -/

/-- What a query returns: a count, else a fold, else the first row, else all. -/
def mode (c : Clauses τ ν) : ResultMode :=
  if c.count then .count
  else if c.fold.isSome then .aggregate
  else if c.first then .first
  else .rows

/-- Whether rows are dropped or merged before they are counted or folded. -/
def isWrapped (c : Clauses τ ν) : Bool :=
  c.distinct || c.top.isSome || !c.groupKeys.isEmpty

/-- `statement`: a block with a select list, with or without the row limits, and sorted or not. -/
def block (c : Clauses τ ν) (root : TableRef ν) (list : SelectList τ ν) (limited ordered : Bool) : Select τ ν where
  distinct := limited && c.distinct
  top := if limited then c.top else none
  list
  root
  joins := c.joins.map (·.clause)
  filters := c.filters
  groupKeys := c.groupKeys
  order := if ordered then c.order else []

/-- Whether the projection is onto an object. -/
def projectsObject (c : Clauses τ ν) : Bool :=
  match c.projection with
  | some (.object _ _ _) => true
  | _ => false

/-- The select list under a fold: the argument, after all members of a projected object whose duplicates are
dropped. -/
def foldedList (c : Clauses τ ν) (items : List (SelectItem τ ν)) (argument : τ) : SelectList τ ν :=
  if c.projectsObject && c.distinct then .withFolded items argument else .items [.folded argument]

/-- The statement of a root table and select items. -/
def statement (c : Clauses τ ν) (root : TableRef ν) (items : List (SelectItem τ ν)) : Statement τ ν :=
  match c.mode, c.fold with
  | .count, _ =>
    if c.isWrapped then .countOf (c.block root (.items items) true false)
    else .plain (c.block root (.items [.plain SqlAlgebra.countAll]) false false)
  | .aggregate, some (f, argument) =>
    if c.isWrapped then .foldOf f (c.block root (c.foldedList items argument) true c.top.isSome)
    else .plain (c.block root (.items [.plain (SqlAlgebra.fold f argument)]) false false)
  | _, _ => .plain (c.block root (.items items) true true)

/-- `generate`: the query that the clauses make up. -/
def assemble (c : Clauses τ ν) : Except Fault (Lowered τ ν) :=
  match c.root with
  | none => .error (.form .noTable)
  | some root => do
    let (items, shape) ← c.selection root
    pure ⟨c.statement root items, shape, c.mode, c.top, c.distinct⟩

end Clauses

namespace Expr

/-- Lowers a tree: what it stands for or why it fails, and the clauses. -/
def clausesOf (e : Expr) (h : Host := .standard) : Except Fault (Row τ ν) × Clauses τ ν :=
  (e.rowOf [] h).run Clauses.empty

/-- The statement of a tree. -/
def lower (e : Expr) (h : Host := .standard) : Except Fault (Lowered τ ν) :=
  match (e.clausesOf h : Except Fault (Row τ ν) × Clauses τ ν) with
  | (.ok _, c) => c.assemble
  | (.error f, _) => .error f

/-- `translate`: compiles a tree to a statement. -/
def compile (o : Options) (e : Expr) : Except Fault Compiled := do
  let t : Lowered (Fragment o) String ← e.lower
  pure (t.compiled o)

end Expr

end QueryChain
