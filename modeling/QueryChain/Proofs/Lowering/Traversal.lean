import QueryChain.Proofs.Lowering.Operate

/-!
# Going through a tree

What is said of the steps that evaluate a tree is said for each kind of node, for pure results and for steps one after
another. The rest is one induction over trees, functions and operands, which stands here.

* `Expr.Every`: conditions on the tables and operators of a tree.
* `Lower.Judgement`: what can be said of pure results, of faults, and of steps one after another.
* `Expr.Nodes`: what has to be said of each kind of node.
* `Expr.Nodes.rowOf`, `Expr.Nodes.applyTo`: what can then be said of trees and of functions.
-/

namespace QueryChain

open Lowering Lower

namespace Expr

/-! ## Conditions on trees -/

mutual

/-- All tables of a tree meet a condition, and so do all its operators with their arguments. -/
def Every (table : Model → Prop) (operator : String → List Expr → Prop) : Expr → Prop
  | .value _ _ | .captured _ _ | .param _ _ => True
  | .table m _ => table m
  | .field target _ _ => Every table operator target
  | .binary _ l r _ => Every table operator l ∧ Every table operator r
  | .method target _ args _ => Every table operator target ∧ EveryArgument table operator args
  | .operator name args _ => operator name args ∧ EveryArgument table operator args
  | .lambda _ body _ => Every table operator body
  | .quote inner _ => Every table operator inner
  | .object _ members _ => EveryMember table operator members

/-- The same for all of several trees. -/
def EveryArgument (table : Model → Prop) (operator : String → List Expr → Prop) : List Expr → Prop
  | [] => True
  | e :: rest => Every table operator e ∧ EveryArgument table operator rest

/-- The same for all members of a new object. -/
def EveryMember (table : Model → Prop) (operator : String → List Expr → Prop) : List (String × Expr) → Prop
  | [] => True
  | member :: rest => EveryIn table operator member ∧ EveryMember table operator rest

/-- The same for a member of a new object. -/
def EveryIn (table : Model → Prop) (operator : String → List Expr → Prop) : String × Expr → Prop
  | (_, e) => Every table operator e

end

section

variable {table table' : Model → Prop} {operator operator' : String → List Expr → Prop}

mutual

/-- Conditions can be weakened. -/
theorem Every.mono (htable : ∀ m, table m → table' m) (hop : ∀ name args, operator name args → operator' name args)
    (e : Expr) (h : e.Every table operator) : e.Every table' operator' := by
  cases e with
  | value _ _ | captured _ _ | param _ _ => exact trivial
  | table m _ => exact htable m h
  | field target _ _ => exact Every.mono htable hop target h
  | binary _ l r _ => exact ⟨Every.mono htable hop l h.1, Every.mono htable hop r h.2⟩
  | method target _ args _ => exact ⟨Every.mono htable hop target h.1, EveryArgument.mono htable hop args h.2⟩
  | operator name args _ => exact ⟨hop name args h.1, EveryArgument.mono htable hop args h.2⟩
  | lambda _ body _ => exact Every.mono htable hop body h
  | quote inner _ => exact Every.mono htable hop inner h
  | object _ members _ => exact EveryMember.mono htable hop members h

theorem EveryArgument.mono (htable : ∀ m, table m → table' m)
    (hop : ∀ name args, operator name args → operator' name args) (es : List Expr)
    (h : EveryArgument table operator es) : EveryArgument table' operator' es := by
  cases es with
  | nil => exact trivial
  | cons e rest => exact ⟨Every.mono htable hop e h.1, EveryArgument.mono htable hop rest h.2⟩

theorem EveryMember.mono (htable : ∀ m, table m → table' m)
    (hop : ∀ name args, operator name args → operator' name args) (members : List (String × Expr))
    (h : EveryMember table operator members) : EveryMember table' operator' members := by
  cases members with
  | nil => exact trivial
  | cons member rest => exact ⟨EveryIn.mono htable hop member h.1, EveryMember.mono htable hop rest h.2⟩

theorem EveryIn.mono (htable : ∀ m, table m → table' m)
    (hop : ∀ name args, operator name args → operator' name args) (member : String × Expr)
    (h : EveryIn table operator member) : EveryIn table' operator' member := by
  cases member with
  | mk name e => exact Every.mono htable hop e h

end

end

section

variable {table : Model → Prop} {operator : String → List Expr → Prop} [DecidablePred table]
  [∀ name args, Decidable (operator name args)]

mutual

/-- Conditions that can be decided for tables and operators can be decided for trees. -/
def decidableEvery : (e : Expr) → Decidable (e.Every table operator)
  | .value _ _ | .captured _ _ | .param _ _ => inferInstanceAs (Decidable True)
  | .table m _ => inferInstanceAs (Decidable (table m))
  | .field target _ _ => decidableEvery target
  | .binary _ l r _ =>
    have := decidableEvery l
    have := decidableEvery r
    inferInstanceAs (Decidable (_ ∧ _))
  | .method target _ args _ =>
    have := decidableEvery target
    have := decidableEveryArgument args
    inferInstanceAs (Decidable (_ ∧ _))
  | .operator name args _ =>
    have := decidableEveryArgument args
    inferInstanceAs (Decidable (operator name args ∧ EveryArgument table operator args))
  | .lambda _ body _ => decidableEvery body
  | .quote inner _ => decidableEvery inner
  | .object _ members _ => decidableEveryMember members

/-- The same for all of several trees. -/
def decidableEveryArgument : (es : List Expr) → Decidable (EveryArgument table operator es)
  | [] => inferInstanceAs (Decidable True)
  | e :: rest =>
    have := decidableEvery e
    have := decidableEveryArgument rest
    inferInstanceAs (Decidable (_ ∧ _))

/-- The same for all members of a new object. -/
def decidableEveryMember : (members : List (String × Expr)) → Decidable (EveryMember table operator members)
  | [] => inferInstanceAs (Decidable True)
  | member :: rest =>
    have := decidableEveryIn member
    have := decidableEveryMember rest
    inferInstanceAs (Decidable (_ ∧ _))

/-- The same for a member of a new object. -/
def decidableEveryIn : (member : String × Expr) → Decidable (EveryIn table operator member)
  | (_, e) => decidableEvery e

end

instance (e : Expr) : Decidable (e.Every table operator) := decidableEvery e

end

/-- The name of an operator is not that of a join. -/
def IsNoJoin (name : String) (_ : List Expr) : Prop :=
  QueryOperator.ofName name ≠ some .join

/-- The name of an operator is that of a group aggregate, and its source reads from a row. -/
def IsGroupFold (name : String) : List Expr → Prop
  | [] => False
  | source :: _ => (GroupFold.ofName name).isSome ∧ source.isRowDerived

instance (name : String) (args : List Expr) : Decidable (IsGroupFold name args) :=
  match args with
  | [] => inferInstanceAs (Decidable False)
  | source :: _ => inferInstanceAs (Decidable ((GroupFold.ofName name).isSome ∧ source.isRowDerived))

end Expr

/-! ## Judgements -/

/-- What is said of a step and of what it yields, in a way that goes from steps to sequences of steps. -/
structure Lower.Judgement (K : ∀ α : Type, (α → Prop) → Lower α → Prop) : Prop where
  pure : ∀ {α : Type} {S : α → Prop} {a : α}, S a → K α S (Pure.pure a)
  throw : ∀ {α : Type} {S : α → Prop} (f : Fault), K α S (MonadExcept.throw f)
  bind : ∀ {α β : Type} {S : α → Prop} {U : β → Prop} {m : Lower α} {k : α → Lower β}, K α S m →
    (∀ a, S a → K β U (k a)) → K β U (m >>= k)

/-- What is said of an operand, evaluated or applied to rows of which something is said. -/
structure Lowering.Operand.Judged (K : ∀ α : Type, (α → Prop) → Lower α → Prop) (R : Row → Prop) (operand : Operand) :
    Prop where
  row : K Row R operand.row
  apply : ∀ rows, (∀ r ∈ rows, R r) → K Row R (operand.apply rows)

namespace Expr

/-- What is said of each kind of node: of what it yields, if something is said of what its parts yield. -/
structure Nodes (K : ∀ α : Type, (α → Prop) → Lower α → Prop) (R : Row → Prop) (table : Model → Prop)
    (operator : String → List Expr → Prop) : Prop extends Lower.Judgement K where
  scalar : ∀ v, R (.scalar v)
  captured : ∀ c, R (.ofCaptured c)
  projected : ∀ typeName list, (∀ p ∈ list, R p.2) → R (.projected typeName list)
  table : ∀ m, table m → K Row R (do
    let t ← bindTable m
    Pure.pure (.table t))
  memberOf : ∀ r name, R r → K Row R (memberOf r name)
  combine : ∀ op concat l r, R l → R r → K Row R (combine op concat l r)
  callMethod : ∀ name receiver args, R receiver → (∀ r ∈ args, R r) → K Row R (Lowering.callMethod name receiver args)
  operator : ∀ name args env, operator name args → (∀ operand ∈ operandsOf env args, operand.Judged K R) →
    K Row R (callOperator name (operandsOf env args))

section

variable {K : ∀ α : Type, (α → Prop) → Lower α → Prop} {R : Row → Prop} {table : Model → Prop}
  {operator : String → List Expr → Prop}

theorem Nodes.lookup (h : Nodes K R table operator) {env : Env} (henv : ∀ p ∈ env, R p.2) (name : String) :
    K Row R (Lowering.lookup env name) := by
  rw [Lowering.lookup]
  split
  · rename_i r hr
    obtain ⟨before, after, rfl, -⟩ := List.lookup_eq_some_iff.mp hr
    exact h.pure (henv (name, r) (by simp))
  · exact h.throw _

mutual

/-- What is said of nodes can be said of trees, whose tables and operators meet the conditions. -/
theorem Nodes.rowOf (h : Nodes K R table operator) (e : Expr) (he : e.Every table operator) (env : Env)
    (henv : ∀ p ∈ env, R p.2) : K Row R (rowOf env e) := by
  cases e with
  | value v ty => exact h.pure (h.scalar v)
  | captured c ty => exact h.pure (h.captured c)
  | table m ty => exact h.table m he
  | param name ty => exact h.lookup henv name
  | field target name ty => exact h.bind (h.rowOf target he env henv) fun r hr => h.memberOf r name hr
  | binary op l r ty =>
    exact h.bind (h.rowOf l he.1 env henv) fun left hleft =>
      h.bind (h.rowOf r he.2 env henv) fun right hright => h.combine op _ left right hleft hright
  | method target name args ty =>
    exact h.bind (h.rowOf target he.1 env henv) fun receiver hreceiver =>
      h.bind (h.rowsOf args he.2 env henv) fun rows hrows => h.callMethod name receiver rows hreceiver hrows
  | operator name args ty => exact h.operator name args env he.1 (h.operandsOf args he.2 env henv)
  | lambda params body ty => exact h.rowOf body he env henv
  | quote inner ty => exact h.rowOf inner he env henv
  | object shape members ty =>
    exact h.bind (h.membersOf members he env henv) fun list hlist => h.pure (h.projected _ list hlist)

/-- And of functions, applied to rows of which it can be said. -/
theorem Nodes.applyTo (h : Nodes K R table operator) (e : Expr) (he : e.Every table operator) (env : Env)
    (henv : ∀ p ∈ env, R p.2) (rows : List Row) (hrows : ∀ r ∈ rows, R r) : K Row R (applyTo env rows e) := by
  cases e with
  | quote inner ty => exact h.applyTo inner he env henv rows hrows
  | lambda params body ty =>
    rw [Expr.applyTo]
    split
    · refine h.rowOf body he _ (List.forall_mem_append.mpr ⟨fun p hp => ?_, henv⟩)
      exact hrows p.2 (List.of_mem_zip (List.mem_reverse.mp hp)).2
    · exact h.throw _
  | _ => exact h.throw _

theorem Nodes.rowsOf (h : Nodes K R table operator) (es : List Expr) (hes : EveryArgument table operator es)
    (env : Env) (henv : ∀ p ∈ env, R p.2) : K (List Row) (fun rows => ∀ r ∈ rows, R r) (rowsOf env es) := by
  cases es with
  | nil => exact h.pure (List.forall_mem_nil _)
  | cons e rest =>
    exact h.bind (h.rowOf e hes.1 env henv) fun r hr =>
      h.bind (h.rowsOf rest hes.2 env henv) fun rs hrs => h.pure (List.forall_mem_cons.mpr ⟨hr, hrs⟩)

theorem Nodes.operandsOf (h : Nodes K R table operator) (es : List Expr) (hes : EveryArgument table operator es)
    (env : Env) (henv : ∀ p ∈ env, R p.2) : ∀ operand ∈ operandsOf env es, operand.Judged K R := by
  cases es with
  | nil => exact List.forall_mem_nil _
  | cons e rest =>
    rw [Expr.operandsOf]
    exact List.forall_mem_cons.mpr ⟨⟨h.rowOf e hes.1 env henv, h.applyTo e hes.1 env henv⟩,
      h.operandsOf rest hes.2 env henv⟩

theorem Nodes.membersOf (h : Nodes K R table operator) (members : List (String × Expr))
    (hmembers : EveryMember table operator members) (env : Env) (henv : ∀ p ∈ env, R p.2) :
    K (List (String × Row)) (fun list => ∀ p ∈ list, R p.2) (membersOf env members) := by
  cases members with
  | nil => exact h.pure (List.forall_mem_nil _)
  | cons member rest =>
    exact h.bind (h.memberRow member hmembers.1 env henv) fun p hp =>
      h.bind (h.membersOf rest hmembers.2 env henv) fun ps hps => h.pure (List.forall_mem_cons.mpr ⟨hp, hps⟩)

theorem Nodes.memberRow (h : Nodes K R table operator) (member : String × Expr)
    (hmember : EveryIn table operator member) (env : Env) (henv : ∀ p ∈ env, R p.2) :
    K (String × Row) (fun p => R p.2) (memberRow env member) := by
  cases member with
  | mk name e => exact h.bind (h.rowOf e hmember env henv) fun r hr => h.pure hr

end

end

end Expr

end QueryChain
