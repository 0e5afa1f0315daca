import QueryChain.Lowering.Row

/-!
# The clauses of a statement in the making

Operators leave their mark here, in the order in which they are met: tables and joins, filters, sort keys,
group keys, limits, and what becomes of the rows.

* `Lower`: a step of lowering. It changes the clauses and may fail; the clauses at a failure are
  kept.
* `Clauses.limit_top`: limits combine to the smallest.
-/

namespace QueryChain

/-- `Projection`: what each row is turned into. -/
inductive Projection (τ : Type := Term) (ν : Type := Nat) where
  /-- An object of a model, filled by its constructor if `positional`. -/
  | object (positional : Bool) (model : Model) (fields : Entries τ ν)
  /-- A scalar, with its type if that is known. -/
  | scalar (type : Option ScalarType) (value : Row τ ν)

/-- `JoinDescriptor`: a join, and the rows that it yields. -/
structure Join (τ : Type := Term) (ν : Type := Nat) where
  clause : JoinClause τ ν
  fields : Entries τ ν
  model : Model
deriving Inhabited

/-- `Clauses`: the clauses gathered so far. -/
structure Clauses (τ : Type := Term) (ν : Type := Nat) where
  projection : Option (Projection τ ν)
  filters : List τ
  order : List (OrderKey τ)
  groupKeys : List τ
  top : Option Nat
  distinct : Bool
  first : Bool
  count : Bool
  fold : Option (Aggregate × τ)
  /-- The number of the next alias is the number of joins entered. -/
  aliases : Nat
  root : Option (TableRef ν)
  joins : List (Join τ ν)

variable {τ ν : Type}

namespace Clauses

/-- No clauses. -/
def empty : Clauses τ ν where
  projection := none
  filters := []
  order := []
  groupKeys := []
  top := none
  distinct := false
  first := false
  count := false
  fold := none
  aliases := 0
  root := none
  joins := []

instance : Inhabited (Clauses τ ν) := ⟨empty⟩

/-- Adds a condition on rows. -/
def filter (c : Clauses τ ν) (condition : τ) : Clauses τ ν :=
  { c with filters := c.filters ++ [condition] }

/-- Adds sort keys, after forgetting the earlier ones on a restart. -/
def sort (c : Clauses τ ν) (keys : List τ) (descending restart : Bool) : Clauses τ ν :=
  { c with order := (if restart then [] else c.order) ++ keys.map fun t => ⟨t, descending⟩ }

/-- Adds a group key. -/
def group (c : Clauses τ ν) (key : τ) : Clauses τ ν :=
  { c with groupKeys := c.groupKeys ++ [key] }

/-- `limit`: limits the number of rows. -/
def limit (c : Clauses τ ν) (n : Nat) : Clauses τ ν :=
  { c with top := some (match c.top with
    | some m => min m n
    | none => n) }

/-- Replaces the projection. -/
def project (c : Clauses τ ν) (p : Projection τ ν) : Clauses τ ν :=
  { c with projection := some p }

/-- Adds a join; it forgets an earlier projection. -/
def join (c : Clauses τ ν) (j : Join τ ν) : Clauses τ ν :=
  { c with projection := none, joins := c.joins ++ [j] }

/-- Limits combine to the smallest. -/
theorem limit_top (c : Clauses τ ν) (m n : Nat) : ((c.limit m).limit n).top = (c.limit (min m n)).top := by
  cases h : c.top <;> simp [limit, h, Nat.min_assoc]

end Clauses

/-! ## Steps -/

/-- A step of lowering to given expressions and aliases. -/
abbrev LowerTo (τ ν α : Type) := ExceptT Fault (StateM (Clauses τ ν)) α

/-- A step of lowering to terms. -/
abbrev Lower (α : Type) := LowerTo Term Nat α

namespace Lower

/-- A step that fails or yields, and leaves the clauses alone. -/
def require {α : Type} (r : Except Fault α) : LowerTo τ ν α :=
  match r with
  | .ok a => pure a
  | .error e => throw e

/-- A step that changes the clauses. -/
def update (f : Clauses τ ν → Clauses τ ν) : LowerTo τ ν Unit :=
  modify f

/-- `bind_table`: binds the rows of a table. The first table that is bound is the root of the statement. -/
def bindTable [SqlAlgebra τ ν] (m : Model) : LowerTo τ ν (TableRef ν) := do
  let c ← get
  let t : TableRef ν := ⟨m, SqlAlgebra.label τ c.aliases⟩
  if c.root.isNone then set { c with root := some t }
  pure t

/-- Takes the next alias. -/
def nextAlias : LowerTo τ ν Unit :=
  update fun c => { c with aliases := c.aliases + 1 }

/-- The join with a number. -/
def joinAt (index : Nat) : LowerTo τ ν (Join τ ν) := do
  let c ← get
  match c.joins[index]? with
  | some j => pure j
  | none => throw (.use (.missingJoin index))

end Lower

end QueryChain
