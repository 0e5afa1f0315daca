import QueryChain.Proofs.Lowering.Looking

/-!
# What is said of query operators

A query operator evaluates its source, applies its functions to the rows of the source, looks at what they yield, and
changes the clauses. So a judgement of steps extends to an operator if it holds of its operands and of the change that
the operator makes. Each operator is gone through here once, whatever the judgement.

* `Lower.Rules.judged_restrict`, `judged_select`, `judged_groupBy`, ...: operators over all rows.
* `Lower.FoldsGroups`, `Lower.Rules.judged_foldGroup`: aggregates of a group.
* `Lower.Looks.judged_order`, `judged_join`: operators that look at keys.
-/

namespace QueryChain

open Lowering Lower

/-- What is said of a group is said of its element, and of its aggregates of such terms. -/
structure Lower.FoldsGroups (R : Row → Prop) (T : Term → Prop) : Prop where
  element : ∀ {key element}, R (.group key element) → R element
  countAll : ∀ {key element}, R (.group key element) → R (.term .countAll)
  countWhere : ∀ {key element t}, R (.group key element) → T t → R (.term (.countWhere t))
  fold : ∀ {key element t} (f : Aggregate), R (.group key element) → T t → R (.term (.fold f t))

theorem Lower.FoldsGroups.nothing : FoldsGroups (fun _ => True) (fun _ => True) := by
  constructor <;> intros <;> trivial

/-! ## Operators over all rows -/

namespace Lower.Rules

variable {K : ∀ α : Type, (α → Prop) → Lower α → Prop} {R : Row → Prop} {T : Term → Prop} (h : Rules K)
  {source : Operand}
include h

/-- What is projected becomes the projection if it is a new object or a scalar. -/
theorem judged_select {projection : Operand} (hsource : K Row R source.row)
    (hbody : K Expr (fun _ => True) (functionBody projection.expr))
    (happly : ∀ rows, R rows → K Row R (projection.apply [rows]))
    (hobject : ∀ (positional : Bool) (m : Model) {typeName : String} {list : List (String × Row)},
      R (.projected typeName list) → R (.projected m.typeName list) ∧
        K Unit (fun _ => True) (update (·.project (.object positional m ⟨m.typeName, list⟩))))
    (hterm : ∀ (type : Option ScalarType) {t : Term}, R (.term t) →
      K Unit (fun _ => True) (update (·.project (.scalar type (.term t)))))
    (hknown : ∀ (type : Option ScalarType) (v : Value),
      K Unit (fun _ => True) (update (·.project (.scalar type (.scalar v))))) :
    K Row R (select source projection) := by
  rw [select]
  refine h.bind hsource fun rows hrows => h.bind hbody fun body _ => ?_
  split
  · split
    · exact h.throw rfl
    · refine h.bind (happly rows hrows) fun value hvalue => ?_
      split
      · obtain ⟨hprojected, hproject⟩ := hobject _ _ hvalue
        exact h.bind hproject fun _ _ => h.pure hprojected
      · exact h.pure hvalue
  · refine h.bind (happly rows hrows) fun value hvalue => ?_
    split
    · exact h.bind (hterm _ hvalue) fun _ _ => h.pure hvalue
    · exact h.bind (hknown _ _) fun _ _ => h.pure hvalue
    · exact h.pure hvalue
    · exact h.pure hvalue
    · exact h.pure hvalue
    · exact h.throw rfl

theorem judged_take {S : Row → Prop} {count : Operand} (hsource : K Row R source.row) (hcount : K Row S count.row)
    (hlimit : ∀ n : Nat, K Unit (fun _ => True) (update (·.limit n))) : K Row R (take source count) := by
  rw [take]
  refine h.bind hsource fun rows hrows => h.bind hcount fun value _ => ?_
  split
  · exact h.bind (hlimit _) fun _ _ => h.pure hrows
  · exact h.throw rfl

section Optional

variable {predicate : Option Operand} (hsource : K Row R source.row)
  (hrestrict : ∀ rows, R rows → K Unit (fun _ => True) (restrict? rows predicate))
include hsource hrestrict

theorem judged_first (hlimit : K Unit (fun _ => True) (update (·.limit 1)))
    (hfirst : K Unit (fun _ => True) (update fun c => { c with first := true })) : K Row R (first source predicate) :=
  h.bind hsource fun rows hrows => h.bind (hrestrict rows hrows) fun _ _ =>
    h.bind hlimit fun _ _ => h.bind hfirst fun _ _ => h.pure hrows

theorem judged_count (hcount : K Unit (fun _ => True) (update fun c => { c with count := true })) :
    K Row R (count source predicate) :=
  h.bind hsource fun rows hrows => h.bind (hrestrict rows hrows) fun _ _ => h.bind hcount fun _ _ => h.pure hrows

end Optional

section Terms

variable (hclosed : Lower.Closed R T)
include hclosed

theorem judged_restrict {rows : Row} {predicate : Operand} (happly : K Row R (predicate.apply [rows]))
    (hfilter : ∀ t, T t → K Unit (fun _ => True) (update (·.filter t))) :
    K Unit (fun _ => True) (restrict rows predicate) := by
  rw [restrict]
  cases rows.isGroup with
  | true => exact h.judged_throw_bind rfl _
  | false =>
    exact h.bind happly fun condition hcondition =>
      h.bind (h.judged_scalarTerm hclosed hcondition) fun t ht => hfilter t ht

theorem judged_restrict? {rows : Row} {predicate : Option Operand}
    (happly : ∀ operand, predicate = some operand → K Row R (operand.apply [rows]))
    (hfilter : ∀ t, T t → K Unit (fun _ => True) (update (·.filter t))) :
    K Unit (fun _ => True) (restrict? rows predicate) := by
  cases predicate with
  | none => exact h.pure trivial
  | some operand => exact h.judged_restrict hclosed (happly operand rfl) hfilter

theorem judged_groupBy {key : Operand} (hsource : K Row R source.row)
    (hbody : K Expr (fun _ => True) (functionBody key.expr)) (happly : ∀ rows, R rows → K Row R (key.apply [rows]))
    (hgroup : ∀ {t : Term} {rows : Row}, T t → R rows →
      R (.group t rows) ∧ K Unit (fun _ => True) (update (·.group t))) : K Row R (groupBy source key) := by
  rw [groupBy]
  refine h.bind hsource fun rows hrows => ?_
  cases rows.isGroup with
  | true => exact h.judged_throw_bind rfl _
  | false =>
    refine h.bind hbody fun body _ => ?_
    cases isObject body with
    | true => exact h.judged_throw_bind rfl _
    | false =>
      refine h.bind (happly rows hrows) fun value hvalue => h.bind (h.judged_groupKey hclosed hvalue) fun t ht => ?_
      obtain ⟨hgrouped, hchange⟩ := hgroup ht hrows
      exact h.bind hchange fun _ _ => h.pure hgrouped

/-- A fold makes an aggregate of what its selector yields, or else of the projected scalar. -/
theorem judged_fold {f : Aggregate} {S : Row → Prop} {selector : Option Operand} (hsource : K Row S source.row)
    (hprojected : K Row R (projectedScalar f))
    (happly : ∀ operand, selector = some operand → ∀ rows, S rows → K Row R (operand.apply [rows]))
    {U : Row → Prop} (hfold : ∀ t, T t → U (.term (.fold f t)) ∧
      K Unit (fun _ => True) (update fun c => { c with fold := some (f, t) })) : K Row U (fold f source selector) := by
  have hvalue (value : Row) (hvalue : R value) : K Row U (do
      let argument ← scalarTerm value
      update fun c => { c with fold := some (f, argument) }
      return .term (.fold f argument)) := by
    refine h.bind (h.judged_scalarTerm hclosed hvalue) fun t ht => ?_
    obtain ⟨hfolded, hchange⟩ := hfold t ht
    exact h.bind hchange fun _ _ => h.pure hfolded
  refine h.bind hsource fun rows hrows => ?_
  cases selector with
  | none => exact h.bind hprojected hvalue
  | some operand => exact h.bind (happly operand rfl rows hrows) hvalue

/-! ## Aggregates of a group -/

theorem judged_foldGroup (hgroups : FoldsGroups R T) (name : String) (f : GroupFold) {selector : Option Operand}
    (hsource : K Row R source.row)
    (happly : ∀ operand, selector = some operand → ∀ rows, R rows → K Row R (operand.apply [rows])) :
    K Row R (foldGroup name f source selector) := by
  rw [foldGroup]
  refine h.bind hsource fun rows hrows => ?_
  cases rows with
  | group key element =>
    cases selector with
    | none =>
      cases f with
      | count => exact h.pure (hgroups.countAll hrows)
      | fold f => exact h.throw rfl
    | some operand =>
      have hvalue := happly operand rfl element (hgroups.element hrows)
      cases f with
      | count =>
        exact h.bind hvalue fun value hvalue => h.bind (h.judged_scalarTerm hclosed hvalue) fun t ht =>
          h.pure (hgroups.countWhere hrows ht)
      | fold f =>
        exact h.bind hvalue fun value hvalue => h.bind (h.judged_scalarTerm hclosed hvalue) fun t ht =>
          h.pure (hgroups.fold f hrows ht)
  | _ => exact h.throw rfl

end Terms

end Lower.Rules

/-! ## Operators that look at keys -/

namespace Lower.Looks

variable {K : ∀ α : Type, (α → Prop) → Lower α → Prop} {R : Row → Prop} {T : Term → Prop} (h : Looks K R)
  (hclosed : Lower.Closed R T)
include h hclosed

theorem judged_order {source key : Operand} {descending restart : Bool} (hsource : K Row R source.row)
    (happly : ∀ rows, R rows → K Row R (key.apply [rows]))
    (hsort : ∀ ts, (∀ t ∈ ts, T t) → K Unit (fun _ => True) (update (·.sort ts descending restart))) :
    K Row R (order source key descending restart) :=
  h.bind hsource fun rows hrows => h.bind (happly rows hrows) fun _ hvalue =>
    h.bind (h.judged_keyTerms hclosed hvalue) fun ts hts => h.bind (hsort ts hts) fun _ _ => h.pure hrows

theorem judged_join {outer inner outerKey innerKey result : Operand} (houter : K Row R outer.row)
    (halias : K Unit (fun _ => True) nextAlias) (hinner : K Row R inner.row)
    (houterKey : ∀ rows, R rows → K Row R (outerKey.apply [rows]))
    (hinnerKey : ∀ rows, R rows → K Row R (innerKey.apply [rows]))
    (hresult : ∀ rows rows', R rows → R rows' → K Row R (result.apply [rows, rows']))
    (hfields : ∀ selected, R selected →
      K (Entries × Option Model) (fun p => ∀ q ∈ p.1.list, R q.2) (joinFields selected))
    (hjoin : ∀ (table : TableRef) (outerKeys innerKeys : List Term) (fields : Entries) (model : Model),
      (∀ t ∈ outerKeys ++ innerKeys, T t) → (∀ q ∈ fields.list, R q.2) →
        K Unit (fun _ => True) (update (·.join ⟨⟨table, outerKeys, innerKeys⟩, fields, model⟩)))
    (hget : K Clauses (fun c => R (.joined (c.joins.length - 1))) get) :
    K Row R (join outer inner outerKey innerKey result) := by
  rw [join]
  refine h.bind houter fun outerRows houterRows => ?_
  cases outerRows.isGroup with
  | true => exact h.judged_throw_bind rfl _
  | false =>
    refine h.bind halias fun _ _ => h.bind hinner fun innerRows hinnerRows => ?_
    split
    · rename_i table
      refine h.bind (houterKey _ houterRows) fun _ houterValue =>
        h.bind (h.judged_keyTerms hclosed houterValue) fun outerKeys houterKeys => ?_
      refine h.bind (hinnerKey _ hinnerRows) fun _ hinnerValue =>
        h.bind (h.judged_keyTerms hclosed hinnerValue) fun innerKeys hinnerKeys => ?_
      split
      · exact h.judged_throw_bind rfl _
      · refine h.bind (hresult _ _ houterRows hinnerRows) fun selected hselected =>
          h.bind (hfields selected hselected) fun made hmade => ?_
        have hkeys := List.forall_mem_append.mpr ⟨houterKeys, hinnerKeys⟩
        exact h.bind (hjoin table outerKeys innerKeys made.1 _ hkeys hmade) fun _ _ =>
          h.bind hget fun c hc => h.pure hc
    · exact h.throw rfl

end Lower.Looks

end QueryChain
