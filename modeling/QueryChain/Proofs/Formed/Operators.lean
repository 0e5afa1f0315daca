import Mathlib.Data.List.Forall2
import QueryChain.Proofs.Formed.Steps

/-!
# Operators over formed clauses

Every query operator keeps step where its operands do, leaves formed clauses behind and yields formed rows. All joins
that its rows refer to are there when their members are asked for, also those of rows that an earlier operator made.

* `Lowering.Operand.InStep`: operands that keep step.
* `inStep_select`, `inStep_join`, `inStep_foldGroup`: operators.
* `inStep_callOperator`: every operator by its name.
-/

namespace QueryChain

open Lowering Lower

/-- Operands with one tree that keep step, evaluated or applied to rows that are formed by then. -/
structure Lowering.Operand.InStep (filled : Prop) (n : Nat) (o o' : Operand) : Prop where
  expr : o'.expr = o.expr
  row : Lower.InStep filled n (Row.Formed filled) o.row o'.row
  apply : ∀ n' rows, n ≤ n' → (∀ r ∈ rows, r.Formed filled n') →
    Lower.InStep filled n' (Row.Formed filled) (o.apply rows) (o'.apply rows)

section Operands

variable {filled : Prop} {n n' : Nat} {o o' : Operand}

theorem Lowering.Operand.InStep.later (h : o.InStep filled n o') (hn : n ≤ n') : o.InStep filled n' o' where
  expr := h.expr
  row := h.row.later hn
  apply k rows hk hrows := h.apply k rows (Nat.le_trans hn hk) hrows

theorem Lowering.Operand.InStep.apply_one (h : o.InStep filled n o') {r : Row} (hr : r.Formed filled n) :
    Lower.InStep filled n (Row.Formed filled) (o.apply [r]) (o'.apply [r]) :=
  h.apply n [r] (Nat.le_refl n) (List.forall_mem_singleton.mpr hr)

end Operands

/-! ## Changes of the clauses -/

section Updates

variable {filled : Prop} {n : Nat}

/-- What is projected is handed on. -/
theorem inStep_project_row {p : Projection} {r : Row} (hp : p.Formed filled n) (hr : r.Formed filled n) :
    InStep filled n (Row.Formed filled) (update (·.project p) >>= fun _ => pure r)
      (update (·.project p) >>= fun _ => pure r) := by
  refine (inStep_update fun c hjoins hc => ?_).bind fun _ _ hn _ => inStep_row (hr.mono hn)
  exact ⟨Nat.le_refl _, hc.project (hp.mono hjoins)⟩

/-- After a join there is one. -/
theorem inStep_addJoin {j : Join} (hj : j.Formed filled n) :
    InStep filled n (fun n' _ => 0 < n') (update (·.join j)) (update (·.join j)) := by
  intro c hjoins hc
  have hlength : (c.join j).joins.length = c.joins.length + 1 := by simp [Clauses.join]
  exact ⟨rfl, ends_ok (by omega) (hc.join (hj.mono hjoins)) (by omega)⟩

theorem inStep_functionBody (e : Expr) : InStep filled n (fun _ _ => True) (functionBody e) (functionBody e) := by
  rw [functionBody]
  split
  · exact inStep_pure fun _ _ => trivial
  · exact inStep_throw rfl

end Updates

/-! ## Query operators -/

section Operators

variable {filled : Prop} {n : Nat} {source source' : Operand} (hsource : source.InStep filled n source')

section Conditions

variable {rows : Row} (hrows : rows.Formed filled n)
include hrows

theorem inStep_restrict {predicate predicate' : Operand} (h : predicate.InStep filled n predicate') :
    InStep filled n (fun _ _ => True) (restrict rows predicate) (restrict rows predicate') := by
  rw [restrict, restrict]
  cases rows.isGroup with
  | true => exact inStep_throw_bind _ _ rfl
  | false =>
    exact (h.apply_one hrows).bind fun _ condition _ _ => (inStep_scalarTerm condition).bind fun _ _ _ _ =>
      inStep_mark fun _ => by rfl

theorem inStep_restrict? {predicate predicate' : Option Operand}
    (h : Option.Rel (Operand.InStep filled n) predicate predicate') :
    InStep filled n (fun _ _ => True) (restrict? rows predicate) (restrict? rows predicate') := by
  cases h with
  | none => exact inStep_pure fun _ _ => trivial
  | some h => exact inStep_restrict hrows h

end Conditions

include hsource

/-- What is projected is formed. -/
theorem inStep_select {projection projection' : Operand} (h : projection.InStep filled n projection') :
    InStep filled n (Row.Formed filled) (select source projection) (select source' projection') := by
  rw [select, select, h.expr]
  refine hsource.row.bind fun n₁ rows h₁ hrows => (inStep_functionBody projection.expr).bind fun n₂ body h₂ _ => ?_
  have happly := (h.later (Nat.le_trans h₁ h₂)).apply_one (hrows.mono h₂)
  split
  · split
    · exact inStep_throw rfl
    · refine happly.bind fun n₃ value _ hvalue => ?_
      cases hvalue with
      | projected typeName hne hlist =>
        exact inStep_project_row ⟨hne, hlist⟩ (.projected _ hne hlist)
      | scalar v => exact inStep_row (.scalar v)
      | host c => exact inStep_row (.host c)
      | term t => exact inStep_row (.term t)
      | table hfields => exact inStep_row (.table hfields)
      | joined hindex => exact inStep_row (.joined hindex)
      | group key helement => exact inStep_row (.group key helement)
  · refine happly.bind fun n₃ value _ hvalue => ?_
    cases hvalue with
    | term t => exact inStep_project_row (Row.Formed.term t) (.term t)
    | scalar v => exact inStep_project_row (Row.Formed.scalar v) (.scalar v)
    | projected typeName hne hlist => exact inStep_row (.projected typeName hne hlist)
    | table hfields => exact inStep_row (.table hfields)
    | joined hindex => exact inStep_row (.joined hindex)
    | host c => exact inStep_throw rfl
    | group key _ => exact inStep_throw rfl

theorem inStep_order {key key' : Operand} (h : key.InStep filled n key') (descending restart : Bool) :
    InStep filled n (Row.Formed filled) (order source key descending restart)
      (order source' key' descending restart) := by
  refine hsource.row.bind fun n₁ rows h₁ hrows => ?_
  refine ((h.later h₁).apply_one hrows).bind fun n₂ value h₂ hvalue => ?_
  refine (inStep_keyTerms hvalue).bind fun n₃ ts h₃ _ => ?_
  exact inStep_mark_then (fun _ => by rfl) (inStep_row (hrows.mono (Nat.le_trans h₂ h₃)))

theorem inStep_groupBy {key key' : Operand} (h : key.InStep filled n key') :
    InStep filled n (Row.Formed filled) (groupBy source key) (groupBy source' key') := by
  rw [groupBy, groupBy, h.expr]
  refine hsource.row.bind fun n₁ rows h₁ hrows => ?_
  cases rows.isGroup with
  | true => exact inStep_throw_bind _ _ rfl
  | false =>
    refine (inStep_functionBody key.expr).bind fun n₂ body h₂ _ => ?_
    cases isObject body with
    | true => exact inStep_throw_bind _ _ rfl
    | false =>
      refine ((h.later (Nat.le_trans h₁ h₂)).apply_one (hrows.mono h₂)).bind fun n₃ value h₃ hvalue => ?_
      refine (inStep_groupKey hvalue).bind fun n₄ t h₄ _ => ?_
      exact inStep_mark_then (fun _ => by rfl) (inStep_row (.group t (hrows.mono (by omega))))

theorem inStep_take {count count' : Operand} (h : count.InStep filled n count') :
    InStep filled n (Row.Formed filled) (take source count) (take source' count') := by
  rw [take, take]
  refine hsource.row.bind fun n₁ rows h₁ hrows => (h.later h₁).row.bind fun n₂ value h₂ _ => ?_
  split
  · exact inStep_mark_then (fun _ => by rfl) (inStep_row (hrows.mono h₂))
  · exact inStep_throw rfl

theorem inStep_distinct :
    InStep filled n (Row.Formed filled) (do
      let rows ← source.row
      update fun c => { c with distinct := true }
      pure rows) (do
      let rows ← source'.row
      update fun c => { c with distinct := true }
      pure rows) := by
  refine hsource.row.bind fun n₁ rows _ hrows => ?_
  exact inStep_mark_then (fun _ => by rfl) (inStep_row hrows)

section Optional

variable {operand operand' : Option Operand} (h : Option.Rel (Operand.InStep filled n) operand operand')
include h

omit hsource in
theorem rel_later {n' : Nat} (hn : n ≤ n') : Option.Rel (Operand.InStep filled n') operand operand' := by
  cases h with
  | none => exact .none
  | some h => exact .some (h.later hn)

theorem inStep_first : InStep filled n (Row.Formed filled) (first source operand) (first source' operand') := by
  refine hsource.row.bind fun n₁ rows h₁ hrows => (inStep_restrict? hrows (rel_later h h₁)).bind fun n₂ _ h₂ _ => ?_
  refine inStep_mark_then (fun _ => by rfl) ?_
  exact inStep_mark_then (fun _ => by rfl) (inStep_row (hrows.mono h₂))

theorem inStep_count : InStep filled n (Row.Formed filled) (count source operand) (count source' operand') := by
  refine hsource.row.bind fun n₁ rows h₁ hrows => (inStep_restrict? hrows (rel_later h h₁)).bind fun n₂ _ h₂ _ => ?_
  exact inStep_mark_then (fun _ => by rfl) (inStep_row (hrows.mono h₂))

omit hsource h in
/-- The projected scalar is formed, for the clauses are. -/
theorem inStep_projectedScalar (f : Aggregate) :
    InStep filled n (Row.Formed filled) (projectedScalar f) (projectedScalar f) := by
  refine inStep_get.bind fun n' c _ hc => ?_
  obtain ⟨rfl, hformed⟩ := hc
  split
  · rename_i type value hprojection
    exact inStep_row (hformed.projection _ hprojection)
  · exact inStep_throw rfl

theorem inStep_fold (f : Aggregate) :
    InStep filled n (Row.Formed filled) (fold f source operand) (fold f source' operand') := by
  have hvalue {n' : Nat} (value : Row) : InStep filled n' (Row.Formed filled) (do
      let argument ← scalarTerm value
      update fun c => { c with fold := some (f, argument) }
      pure (.term (.fold f argument))) (do
      let argument ← scalarTerm value
      update fun c => { c with fold := some (f, argument) }
      pure (.term (.fold f argument))) := by
    refine (inStep_scalarTerm value).bind fun _ argument _ _ => ?_
    exact inStep_mark_then (fun _ => by rfl) (inStep_term _)
  refine hsource.row.bind fun n₁ rows h₁ hrows => ?_
  cases h with
  | none => exact (inStep_projectedScalar f).bind fun _ value _ _ => hvalue value
  | some h => exact ((h.later h₁).apply_one hrows).bind fun _ value _ _ => hvalue value

/-- The rows of a group are those that were grouped. -/
theorem inStep_foldGroup (name : String) (f : GroupFold) :
    InStep filled n (Row.Formed filled) (foldGroup name f source operand) (foldGroup name f source' operand') := by
  rw [foldGroup, foldGroup]
  refine hsource.row.bind fun n₁ rows h₁ hrows => ?_
  cases hrows with
  | group key helement =>
    cases h with
    | none =>
      cases f with
      | count => exact inStep_term _
      | fold f => exact inStep_throw rfl
    | some h =>
      have happly := (h.later h₁).apply_one helement
      cases f with
      | count =>
        exact happly.bind fun _ value _ _ => (inStep_scalarTerm value).bind fun _ _ _ _ => inStep_term _
      | fold f =>
        exact happly.bind fun _ value _ _ => (inStep_scalarTerm value).bind fun _ _ _ _ => inStep_term _
  | _ => exact inStep_throw rfl

end Optional

/-- The rows of a join are those of the join that is added last. What its result is made of refers to earlier joins. -/
theorem inStep_join {inner inner' outerKey outerKey' innerKey innerKey' result result' : Operand}
    (hinner : inner.InStep filled n inner') (houterKey : outerKey.InStep filled n outerKey')
    (hinnerKey : innerKey.InStep filled n innerKey') (hresult : result.InStep filled n result') :
    InStep filled n (Row.Formed filled) (join source inner outerKey innerKey result)
      (join source' inner' outerKey' innerKey' result') := by
  rw [join, join, hresult.expr]
  refine hsource.row.bind fun n₁ outerRows h₁ houterRows => ?_
  cases outerRows.isGroup with
  | true => exact inStep_throw_bind _ _ rfl
  | false =>
    refine inStep_nextAlias.bind fun n₂ _ h₂ _ => ?_
    -- the inner side may add joins of its own before it yields a table; the outer rows stay formed
    refine (hinner.row.later (by omega)).bind fun n₃ innerRows h₃ hinnerRows => ?_
    cases hinnerRows with
    | @table table hfields =>
      have htable {k : Nat} : (Row.table table).Formed filled k := .table hfields
      refine ((houterKey.later (by omega)).apply_one (houterRows.mono (by omega))).bind fun n₄ outerValue h₄ hov => ?_
      refine (inStep_keyTerms hov).bind fun n₅ outerKeys h₅ houterKeys => ?_
      refine ((hinnerKey.later (by omega)).apply_one htable).bind fun n₆ innerValue h₆ hiv => ?_
      refine (inStep_keyTerms hiv).bind fun n₇ innerKeys h₇ _ => ?_
      by_cases hlength : outerKeys.length = innerKeys.length
      · simp only [hlength, ne_eq, not_true_eq_false, if_false]
        have hrows : ∀ r ∈ [outerRows, .table table], r.Formed filled n₇ :=
          List.forall_mem_cons.mpr ⟨houterRows.mono (by omega), List.forall_mem_singleton.mpr htable⟩
        refine (hresult.apply n₇ _ (by omega) hrows).bind fun n₈ selected h₈ hselected => ?_
        refine (inStep_joinFields hselected).bind fun n₉ made h₉ hmade => ?_
        have hpairs (h : filled) : (JoinClause.mk table outerKeys innerKeys).pairs ≠ [] :=
          JoinClause.pairs_ne_nil (houterKeys h) hlength
        refine (inStep_addJoin ⟨hmade, hpairs⟩).bind fun n₁₀ _ _ hpos => inStep_get.bind fun n₁₁ c h₁₁ hc => ?_
        exact inStep_row (.joined (by omega))
      · simp only [hlength, ne_eq, not_false_eq_true, if_true]
        exact inStep_throw_bind _ _ rfl
    | _ => exact inStep_throw rfl

/-! ### Operators by name -/

section Named

variable {rest rest' : List Operand} (h : List.Forall₂ (Operand.InStep filled n) rest rest')
include h

omit hsource in
/-- Operators that look at their second operand. -/
theorem inStep_second {name : String} {k k' : Operand → Lower Row}
    (hk : ∀ o o', o.InStep filled n o' → InStep filled n (Row.Formed filled) (k o) (k' o')) :
    InStep filled n (Row.Formed filled) (operandAt name (source :: rest) 1 >>= k)
      (operandAt name (source' :: rest') 1 >>= k') := by
  cases h with
  | nil => exact inStep_throw_bind _ _ rfl
  | cons hoperand _ => exact hk _ _ hoperand

omit hsource in
theorem rel_head_inStep : Option.Rel (Operand.InStep filled n) rest[0]? rest'[0]? := by
  cases h with
  | nil => exact .none
  | cons hoperand _ => exact .some hoperand

theorem inStep_operate (name : String) (op : QueryOperator) :
    InStep filled n (Row.Formed filled) (operate name source (source :: rest) op)
      (operate name source' (source' :: rest') op) := by
  cases op with
  | filter =>
    exact inStep_second h fun _ _ hpredicate => hsource.row.bind fun _ _ h₁ hrows =>
      (inStep_restrict hrows (hpredicate.later h₁)).bind fun _ _ h₂ _ => inStep_row (hrows.mono h₂)
  | select => exact inStep_second h fun _ _ hprojection => inStep_select hsource hprojection
  | order descending restart => exact inStep_second h fun _ _ hkey => inStep_order hsource hkey descending restart
  | groupBy => exact inStep_second h fun _ _ hkey => inStep_groupBy hsource hkey
  | join =>
    cases h with
    | nil => exact inStep_throw rfl
    | cons hinner h => cases h with
      | nil => exact inStep_throw rfl
      | cons houterKey h => cases h with
        | nil => exact inStep_throw rfl
        | cons hinnerKey h => cases h with
          | nil => exact inStep_throw rfl
          | cons hresult h => cases h with
            | nil => exact inStep_join hsource hinner houterKey hinnerKey hresult
            | @cons _ _ more more' _ h =>
              show InStep filled n _ (throw (.form (.joinArity (more.length + 6))))
                (throw (.form (.joinArity (more'.length + 6))))
              rw [h.length_eq]
              exact inStep_throw rfl
  | take => exact inStep_second h fun _ _ hcount => inStep_take hsource hcount
  | distinct => exact inStep_distinct hsource
  | first => exact inStep_first hsource (rel_head_inStep h)
  | count => exact inStep_count hsource (rel_head_inStep h)
  | fold f => exact inStep_fold hsource (rel_head_inStep h) f

end Named

end Operators

/-- Operators keep step where their operands do. -/
theorem inStep_callOperator {filled : Prop} {n : Nat} (name : String) {operands operands' : List Operand}
    (h : List.Forall₂ (Operand.InStep filled n) operands operands') :
    InStep filled n (Row.Formed filled) (callOperator name operands) (callOperator name operands') := by
  cases h with
  | nil => exact inStep_throw_bind _ _ rfl
  | cons hsource hrest =>
    rw [callOperator_eq, callOperator_eq, hsource.expr]
    split
    · exact inStep_foldGroup hsource (rel_head_inStep hrest) name _
    · exact inStep_operate hsource hrest name _
    · exact inStep_throw rfl

end QueryChain
