import QueryChain.Proofs.Lowering.Run

/-!
# What each operator does

Every operator that succeeds is a sequence of steps that succeed: its source, its functions for the rows of the
source, and one change of the clauses. What one operator did is read off here once; the rest goes by these lemmas.

* `run_filter`, `run_order`, `run_take`, `run_distinct`, `run_source_of_handsOn`: operators that hand on the rows of
  their source.
* `run_select`, `Selects`: a projection, and what becomes of the rows.
* `run_groupBy`, `run_fold`: groups by a key, and a fold of rows.
* `run_join`: a join.
-/

namespace QueryChain

open Lowering Lower

section

variable {name : String} {source : Operand} {operands : List Operand} {c c' : Clauses} {r : Row}

/-! ## Operators by name -/

theorem GroupFold.ofName_eq_none {d restart : Bool}
    (h : QueryOperator.ofName name = some (.order d restart)) : GroupFold.ofName name = none := by
  rw [GroupFold.ofName]
  split
  · rename_i hcount
    subst hcount
    have hop : QueryOperator.ofName "Count" = some .count := by decide
    rw [hop] at h
    cases h
  · cases hf : Aggregate.ofName name with
    | none => rfl
    | some f =>
      have hname : f.name = name := by simpa using List.find?_some hf
      subst hname
      cases f <;> simp [Aggregate.name, QueryOperator.ofName, QueryOperator.named, List.lookup_cons] at h

/-- A name stands for a group aggregate if the source reads from a row, and else for a query operator. -/
theorem callOperator_eq {τ ν : Type} [SqlAlgebra τ ν] (name : String) (source : Operand τ ν)
    (rest : List (Operand τ ν)) :
    callOperator name (source :: rest) =
      match if source.expr.isRowDerived then GroupFold.ofName name else none, QueryOperator.ofName name with
      | some f, _ => foldGroup name f source rest[0]?
      | none, some op => operate name source (source :: rest) op
      | none, none => throw (.form (.unknownOperator name)) := by
  show (pure source >>= fun source => _ : LowerTo τ ν (Row τ ν)) = _
  rw [pure_bind]
  rfl

/-- A name that stands for a query operator only stands for it over all rows. -/
theorem callOperator_cons {op : QueryOperator} (hop : QueryOperator.ofName name = some op)
    (hgroup : GroupFold.ofName name = none) :
    callOperator name (source :: operands) = operate name source (source :: operands) op := by
  have hnone : (if source.expr.isRowDerived then GroupFold.ofName name else none) = none := by
    rw [hgroup, ite_self]
  show (pure source >>= fun source => _ : Lower Row) = _
  rw [pure_bind, hnone, hop]

/-! ## Operators that hand on rows -/

/-- A filter adds the term of its condition. -/
theorem run_filter {predicate : Operand} {rest : List Operand}
    (h : ExceptT.run (operate name source (source :: predicate :: rest) .filter) c = (.ok r, c')) :
    ∃ x t c₁ c₂ c₃, ExceptT.run source.row c = (.ok r, c₁) ∧
      ExceptT.run (predicate.apply [r]) c₁ = (.ok x, c₂) ∧ ExceptT.run (scalarTerm x) c₂ = (.ok t, c₃) ∧
      r.isGroup = false ∧ c' = c₃.filter t := by
  obtain ⟨_, _, ⟨⟩, hrest⟩ := run_bind_eq_ok.mp h
  obtain ⟨rows, c₁, hsource, hrest⟩ := run_bind_eq_ok.mp hrest
  obtain ⟨_, c₄, hrestrict, ⟨⟩⟩ := run_bind_eq_ok.mp hrest
  rw [restrict] at hrestrict
  cases hgroup : r.isGroup with
  | true =>
    rw [hgroup] at hrestrict
    cases hrestrict
  | false =>
    rw [hgroup] at hrestrict
    obtain ⟨x, c₂, hx, hrest⟩ := run_bind_eq_ok.mp hrestrict
    obtain ⟨t, c₃, ht, ⟨⟩⟩ := run_bind_eq_ok.mp hrest
    exact ⟨x, t, c₁, c₂, c₃, hsource, hx, ht, rfl, rfl⟩

/-- A sort adds the terms of its key. -/
theorem run_order {key : Operand} {rest : List Operand} {descending restart : Bool}
    (h : ExceptT.run (operate name source (source :: key :: rest) (.order descending restart)) c = (.ok r, c')) :
    ∃ x ts c₁ c₂ c₃, ExceptT.run source.row c = (.ok r, c₁) ∧ ExceptT.run (key.apply [r]) c₁ = (.ok x, c₂) ∧
      ExceptT.run (keyTerms x) c₂ = (.ok ts, c₃) ∧ c' = c₃.sort ts descending restart := by
  obtain ⟨_, _, ⟨⟩, hrest⟩ := run_bind_eq_ok.mp h
  obtain ⟨rows, c₁, hsource, hrest⟩ := run_bind_eq_ok.mp hrest
  obtain ⟨x, c₂, hx, hrest⟩ := run_bind_eq_ok.mp hrest
  obtain ⟨ts, c₃, hts, ⟨⟩⟩ := run_bind_eq_ok.mp hrest
  exact ⟨x, ts, c₁, c₂, c₃, hsource, hx, hts, rfl⟩

/-- A limit needs a number that is known before the query runs. -/
theorem run_take {count : Operand} {rest : List Operand}
    (h : ExceptT.run (operate name source (source :: count :: rest) .take) c = (.ok r, c')) :
    ∃ n c₁ c₂, ExceptT.run source.row c = (.ok r, c₁) ∧
      ExceptT.run count.row c₁ = (.ok (.scalar (.int n)), c₂) ∧ c' = c₂.limit n.toInt.toNat := by
  obtain ⟨_, _, ⟨⟩, hrest⟩ := run_bind_eq_ok.mp h
  obtain ⟨rows, c₁, hsource, hrest⟩ := run_bind_eq_ok.mp hrest
  obtain ⟨x, c₂, hx, hrest⟩ := run_bind_eq_ok.mp hrest
  split at hrest
  · cases hrest
    exact ⟨_, c₁, c₂, hsource, hx, rfl⟩
  · cases hrest

theorem run_distinct {rest : List Operand}
    (h : ExceptT.run (operate name source (source :: rest) .distinct) c = (.ok r, c')) :
    ∃ c₁, ExceptT.run source.row c = (.ok r, c₁) ∧ c' = { c₁ with distinct := true } := by
  obtain ⟨rows, c₁, hsource, ⟨⟩⟩ := run_bind_eq_ok.mp h
  exact ⟨c₁, hsource, rfl⟩

/-- An operator hands on the rows of its source. -/
def QueryOperator.handsOn : QueryOperator → Bool
  | .filter | .order _ _ | .take | .distinct | .first | .count => true
  | .select | .groupBy | .join | .fold _ => false

theorem run_source_of_handsOn {op : QueryOperator} (hop : op.handsOn = true) {rest : List Operand}
    (h : ExceptT.run (operate name source (source :: rest) op) c = (.ok r, c')) :
    ∃ c₁, ExceptT.run source.row c = (.ok r, c₁) := by
  cases op with
  | filter =>
    cases rest with
    | nil => cases h
    | cons predicate rest =>
      obtain ⟨x, t, c₁, c₂, c₃, hsource, -⟩ := run_filter h
      exact ⟨c₁, hsource⟩
  | order descending restart =>
    cases rest with
    | nil => cases h
    | cons key rest =>
      obtain ⟨x, ts, c₁, c₂, c₃, hsource, -⟩ := run_order h
      exact ⟨c₁, hsource⟩
  | take =>
    cases rest with
    | nil => cases h
    | cons count rest =>
      obtain ⟨n, c₁, c₂, hsource, -⟩ := run_take h
      exact ⟨c₁, hsource⟩
  | distinct =>
    obtain ⟨c₁, hsource, -⟩ := run_distinct h
    exact ⟨c₁, hsource⟩
  | first =>
    obtain ⟨rows, c₁, hsource, hrest⟩ := run_bind_eq_ok.mp h
    obtain ⟨_, c₂, -, hrest⟩ := run_bind_eq_ok.mp hrest
    cases hrest
    exact ⟨c₁, hsource⟩
  | count =>
    obtain ⟨rows, c₁, hsource, hrest⟩ := run_bind_eq_ok.mp h
    obtain ⟨_, c₂, -, hrest⟩ := run_bind_eq_ok.mp hrest
    cases hrest
    exact ⟨c₁, hsource⟩
  | select | groupBy | join | fold _ => cases hop

/-! ## Projections -/

/-- The body of a function is found without a change. -/
theorem run_functionBody_eq_ok {e body : Expr} :
    ExceptT.run (functionBody e) c = (.ok body, c') ↔ functionBody? e = some body ∧ c' = c := by
  rw [functionBody]
  cases functionBody? e with
  | none => exact ⟨fun h => (by cases h), fun h => (by cases h.1)⟩
  | some b =>
    constructor
    · intro h
      cases h
      exact ⟨rfl, rfl⟩
    · rintro ⟨⟨⟩, rfl⟩
      rfl

/-- What becomes of the rows and clauses if a function with a body yields a value: an object that the body makes becomes
the projection, and so does a scalar; whole rows stay what they are. -/
inductive Selects (body : Expr) (value : Row) (c : Clauses) : Row → Clauses → Prop
  | object {typeName : String} {list : List (String × Row)} (positional : Bool) (m : Model)
      (hbody : isObject body = true) (hvalue : value = .projected typeName list) :
      Selects body value c (.projected m.typeName list) (c.project (.object positional m ⟨m.typeName, list⟩))
  | scalar (hbody : isObject body = false) (hvalue : (∃ t, value = .term t) ∨ ∃ v, value = .scalar v) :
      Selects body value c value (c.project (.scalar body.ty.asScalar value))
  | row (hbody : isObject body = false)
      (hvalue : (∃ t, value = .table t) ∨ (∃ typeName list, value = .projected typeName list) ∨
        ∃ i, value = .joined i) :
      Selects body value c value c

theorem run_select {projection : Operand} {rest : List Operand}
    (hobject : ∀ rows c₁ c₂ value body, functionBody? projection.expr = some body → isObject body = true →
      ExceptT.run (projection.apply rows) c₁ = (.ok value, c₂) → ∃ typeName list, value = .projected typeName list)
    (h : ExceptT.run (operate name source (source :: projection :: rest) .select) c = (.ok r, c')) :
    ∃ rows body value c₁ c₂, ExceptT.run source.row c = (.ok rows, c₁) ∧
      functionBody? projection.expr = some body ∧
      ExceptT.run (projection.apply [rows]) c₁ = (.ok value, c₂) ∧ Selects body value c₂ r c' := by
  obtain ⟨_, _, ⟨⟩, hselect⟩ := run_bind_eq_ok.mp h
  obtain ⟨rows, c₁, hsource, hrest⟩ := run_bind_eq_ok.mp hselect
  obtain ⟨body, _, hbody, hprojects⟩ := run_bind_eq_ok.mp hrest
  obtain ⟨hb, rfl⟩ := run_functionBody_eq_ok.mp hbody
  split at hprojects
  · rename_i shape members ty
    cases hty : ty.asModel with
    | none =>
      simp only [hty] at hprojects
      cases hprojects
    | some m =>
      simp only [hty] at hprojects
      obtain ⟨value, c₂, hvalue, hprojects⟩ := run_bind_eq_ok.mp hprojects
      obtain ⟨typeName, list, rfl⟩ := hobject _ _ _ _ _ hb rfl hvalue
      cases hprojects
      exact ⟨rows, _, _, _, c₂, hsource, hb, hvalue, .object _ m rfl rfl⟩
  · rename_i hother
    have hbody : isObject body = false := by
      cases body with
      | object shape members ty => exact absurd rfl (hother shape members ty)
      | _ => rfl
    obtain ⟨value, c₂, hvalue, hprojects⟩ := run_bind_eq_ok.mp hprojects
    refine ⟨rows, body, value, _, c₂, hsource, hb, hvalue, ?_⟩
    cases value with
    | term t =>
      cases hprojects
      exact .scalar hbody (Or.inl ⟨t, rfl⟩)
    | scalar v =>
      cases hprojects
      exact .scalar hbody (Or.inr ⟨v, rfl⟩)
    | table t =>
      cases hprojects
      exact .row hbody (Or.inl ⟨t, rfl⟩)
    | projected typeName list =>
      cases hprojects
      exact .row hbody (Or.inr (Or.inl ⟨typeName, list, rfl⟩))
    | joined i =>
      cases hprojects
      exact .row hbody (Or.inr (Or.inr ⟨i, rfl⟩))
    | host captured => cases hprojects
    | group key element => cases hprojects

/-! ## Groupings and folds -/

/-- A grouping makes groups of rows that are no groups, and adds the term of its key. -/
theorem run_groupBy {key : Operand} {rest : List Operand}
    (h : ExceptT.run (operate name source (source :: key :: rest) .groupBy) c = (.ok r, c')) :
    ∃ rows x t c₁ c₂ c₃, ExceptT.run source.row c = (.ok rows, c₁) ∧ rows.isGroup = false ∧
      ExceptT.run (key.apply [rows]) c₁ = (.ok x, c₂) ∧ ExceptT.run (groupKey x) c₂ = (.ok t, c₃) ∧
      r = .group t rows ∧ c' = c₃.group t := by
  obtain ⟨_, _, ⟨⟩, hrest⟩ := run_bind_eq_ok.mp h
  obtain ⟨rows, c₁, hsource, hrest⟩ := run_bind_eq_ok.mp hrest
  cases hgroup : rows.isGroup with
  | true =>
    rw [hgroup] at hrest
    cases hrest
  | false =>
    rw [hgroup] at hrest
    obtain ⟨body, _, hbody, hgroups⟩ := run_bind_eq_ok.mp hrest
    obtain ⟨-, rfl⟩ := run_functionBody_eq_ok.mp hbody
    cases hobject : isObject body with
    | true =>
      rw [hobject] at hgroups
      cases hgroups
    | false =>
      rw [hobject] at hgroups
      obtain ⟨x, c₂, hx, hkey⟩ := run_bind_eq_ok.mp hgroups
      obtain ⟨t, c₃, ht, ⟨⟩⟩ := run_bind_eq_ok.mp hkey
      exact ⟨rows, x, t, _, c₂, c₃, hsource, hgroup, hx, ht, rfl, rfl⟩

/-- A fold by a selector sets the term of what it yields. -/
theorem run_fold {f : Aggregate} {selector : Operand} {rest : List Operand}
    (h : ExceptT.run (operate name source (source :: selector :: rest) (.fold f)) c = (.ok r, c')) :
    ∃ rows x t c₁ c₂ c₃, ExceptT.run source.row c = (.ok rows, c₁) ∧
      ExceptT.run (selector.apply [rows]) c₁ = (.ok x, c₂) ∧ ExceptT.run (scalarTerm x) c₂ = (.ok t, c₃) ∧
      r = .term (.fold f t) ∧ c' = { c₃ with fold := some (f, t) } := by
  obtain ⟨rows, c₁, hsource, hrest⟩ := run_bind_eq_ok.mp h
  obtain ⟨x, c₂, hx, hrest⟩ := run_bind_eq_ok.mp hrest
  obtain ⟨t, c₃, ht, ⟨⟩⟩ := run_bind_eq_ok.mp hrest
  exact ⟨rows, x, t, c₁, c₂, c₃, hsource, hx, ht, rfl, rfl⟩

/-! ## Joins -/

/-- A join enters its inner table, pairs as many keys on either side, and yields what its result is made of. -/
theorem run_join {outer inner outerKey innerKey result : Operand}
    (h : ExceptT.run (operate name source [outer, inner, outerKey, innerKey, result] .join) c = (.ok r, c')) :
    ∃ outerRows table outerValue outerKeys innerValue innerKeys selected fields passedOn m c₁ c₂ c₃ c₄ c₅ c₆ c₇ c₈,
      ExceptT.run outer.row c = (.ok outerRows, c₁) ∧ outerRows.isGroup = false ∧
      ExceptT.run inner.row { c₁ with aliases := c₁.aliases + 1 } = (.ok (.table table), c₂) ∧
      ExceptT.run (outerKey.apply [outerRows]) c₂ = (.ok outerValue, c₃) ∧
      ExceptT.run (keyTerms outerValue) c₃ = (.ok outerKeys, c₄) ∧
      ExceptT.run (innerKey.apply [.table table]) c₄ = (.ok innerValue, c₅) ∧
      ExceptT.run (keyTerms innerValue) c₅ = (.ok innerKeys, c₆) ∧ outerKeys.length = innerKeys.length ∧
      ExceptT.run (result.apply [outerRows, .table table]) c₆ = (.ok selected, c₇) ∧
      ExceptT.run (joinFields selected) c₇ = (.ok (fields, passedOn), c₈) ∧
      c' = c₈.join ⟨⟨table, outerKeys, innerKeys⟩, fields, m⟩ ∧ r = .joined c₈.joins.length := by
  obtain ⟨outerRows, c₁, houter, hrest⟩ := run_bind_eq_ok.mp h
  cases hgroup : outerRows.isGroup with
  | true =>
    rw [hgroup] at hrest
    cases hrest
  | false =>
    rw [hgroup] at hrest
    obtain ⟨_, _, ⟨⟩, hrest⟩ := run_bind_eq_ok.mp hrest
    obtain ⟨innerRows, c₂, hinner, hrest⟩ := run_bind_eq_ok.mp hrest
    split at hrest
    · rename_i table
      obtain ⟨outerValue, c₃, houterValue, hrest⟩ := run_bind_eq_ok.mp hrest
      obtain ⟨outerKeys, c₄, houterKeys, hrest⟩ := run_bind_eq_ok.mp hrest
      obtain ⟨innerValue, c₅, hinnerValue, hrest⟩ := run_bind_eq_ok.mp hrest
      obtain ⟨innerKeys, c₆, hinnerKeys, hrest⟩ := run_bind_eq_ok.mp hrest
      by_cases hlength : outerKeys.length = innerKeys.length
      · simp only [hlength, ne_eq, not_true_eq_false, if_false] at hrest
        obtain ⟨selected, c₇, hselected, hrest⟩ := run_bind_eq_ok.mp hrest
        obtain ⟨⟨fields, passedOn⟩, c₈, hfields, hrest⟩ := run_bind_eq_ok.mp hrest
        obtain ⟨_, _, ⟨⟩, ⟨⟩⟩ := run_bind_eq_ok.mp hrest
        exact ⟨outerRows, table, outerValue, outerKeys, innerValue, innerKeys, selected, fields, passedOn, _, c₁,
          c₂, c₃, c₄, c₅, c₆, c₇, c₈, houter, hgroup, hinner, houterValue, houterKeys, hinnerValue, hinnerKeys,
          hlength, hselected, hfields, rfl, by simp [Clauses.join]⟩
      · simp only [hlength, ne_eq, not_false_eq_true, if_true] at hrest
        cases hrest
    · cases hrest

end

end QueryChain
