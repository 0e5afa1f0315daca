import QueryChain.Proofs.Formed.Clauses
import QueryChain.Proofs.Lowering.Looking

/-!
# Steps over formed clauses

A step of lowering that starts from formed clauses leaves formed clauses behind, whether it yields or fails, and takes
no join away. So the rows that were formed before are formed after it, and a join that a row refers to is there. Here
this is said of a step together with a second one that keeps step with it, so that an evaluation and the same
evaluation under a watch are dealt with at once.

* `Lower.Ends`: where a step may end.
* `Lower.InStep`: two steps that do the same and end there.
* `Lower.InStep.bind`: steps one after another.
* `inStep_joinAt`: a join that a row refers to is there.
* `inStep_memberOf`, `inStep_keyTerms`, `inStep_callMethod`: members, keys and methods.
-/

namespace QueryChain

open Lowering Lower

/-! ## Steps -/

section Steps

variable {α β : Type} {filled : Prop} {n n' : Nat}

/-- Where a step may end that started from `n` joins: in formed clauses with no fewer joins, with what it is said to
yield for so many joins or with a fault, but not for want of a join. -/
structure Lower.Ends (filled : Prop) (n : Nat) (S : Nat → α → Prop) (r : Except Fault α) (c : Clauses) : Prop where
  joins : n ≤ c.joins.length
  formed : c.Formed filled
  yields : ∀ a, r = .ok a → S c.joins.length a
  found : ∀ f, r = .error f → f.isMissingJoin = false

section Ends

variable {S : Nat → α → Prop} {c : Clauses} (hjoins : n ≤ c.joins.length) (hc : c.Formed filled)
include hjoins hc

theorem ends_ok {a : α} (ha : S c.joins.length a) : Ends filled n S (.ok a) c := by
  refine ⟨hjoins, hc, fun a' ha' => ?_, fun f hf => ?_⟩
  · cases ha'
    exact ha
  · cases hf

theorem ends_error {f : Fault} (hf : f.isMissingJoin = false) : Ends filled n S (.error f) c := by
  refine ⟨hjoins, hc, fun a ha => ?_, fun f' hf' => ?_⟩
  · cases ha
  · cases hf'
    exact hf

end Ends

/-- Started from formed clauses with at least `n` joins, the second step does what the first does, and ends where it
may. -/
def Lower.InStep (filled : Prop) (n : Nat) (S : Nat → α → Prop) (m m' : Lower α) : Prop :=
  ∀ c, n ≤ c.joins.length → c.Formed filled →
    ExceptT.run m' c = ExceptT.run m c ∧
      Ends filled c.joins.length S (ExceptT.run m c).1 (ExceptT.run m c).2

variable {S : Nat → α → Prop} {U : Nat → β → Prop} {m m' : Lower α}

theorem Lower.InStep.later (h : InStep filled n S m m') (hn : n ≤ n') : InStep filled n' S m m' :=
  fun c hjoins hc => h c (Nat.le_trans hn hjoins) hc

theorem inStep_pure {a : α} (h : ∀ n', n ≤ n' → S n' a) : InStep filled n S (pure a) (pure a) := by
  intro c hjoins hc
  exact ⟨rfl, ends_ok (Nat.le_refl _) hc (h _ hjoins)⟩

theorem inStep_throw {f : Fault} (hf : f.isMissingJoin = false) : InStep filled n S (throw f) (throw f) := by
  intro c _ hc
  exact ⟨rfl, ends_error (Nat.le_refl _) hc hf⟩

/-- Nothing comes after a failure. -/
theorem inStep_throw_bind {f : Fault} (k k' : α → Lower β) (hf : f.isMissingJoin = false) :
    InStep filled n U (throw f >>= k) (throw f >>= k') := by
  intro c _ hc
  exact ⟨rfl, ends_error (Nat.le_refl _) hc hf⟩

/-- Steps one after another. The second starts from the joins that the first leaves. -/
theorem Lower.InStep.bind {k k' : α → Lower β} (hm : InStep filled n S m m')
    (hk : ∀ n' a, n ≤ n' → S n' a → InStep filled n' U (k a) (k' a)) : InStep filled n U (m >>= k) (m' >>= k') := by
  intro c hjoins hc
  obtain ⟨hrun, hends⟩ := hm c hjoins hc
  rcases hfirst : ExceptT.run m c with ⟨r, c₁⟩
  rw [hfirst] at hrun hends
  cases r with
  | error f =>
    rw [run_bind_of_error hfirst, run_bind_of_error hrun]
    exact ⟨rfl, ends_error hends.joins hends.formed (hends.found f rfl)⟩
  | ok a =>
    rw [run_bind_of_ok hfirst, run_bind_of_ok hrun]
    -- the second step starts from the clauses that the first one left, and there may be more joins by now
    have hlater : n ≤ c₁.joins.length := Nat.le_trans hjoins hends.joins
    obtain ⟨hrest, hend⟩ := hk _ a hlater (hends.yields a rfl) c₁ (Nat.le_refl _) hends.formed
    exact ⟨hrest, Nat.le_trans hends.joins hend.joins, hend.formed, hend.yields, hend.found⟩

theorem Lower.InStep.weaken {S' : Nat → α → Prop} (h : InStep filled n S m m')
    (hS : ∀ n' a, n ≤ n' → S n' a → S' n' a) : InStep filled n S' m m' := by
  intro c hjoins hc
  obtain ⟨hrun, hends⟩ := h c hjoins hc
  refine ⟨hrun, hends.joins, hends.formed, fun a ha => ?_, hends.found⟩
  exact hS _ a (Nat.le_trans hjoins hends.joins) (hends.yields a ha)

theorem inStep_require {r : Except Fault α} (hr : FindsAll r) (h : ∀ a, r = .ok a → ∀ n', n ≤ n' → S n' a) :
    InStep filled n S (require r) (require r) := by
  cases r with
  | ok a => exact inStep_pure (h a rfl)
  | error f => exact inStep_throw (Fault.isMissingJoin_of_isOfLookup (hr f rfl))

theorem inStep_get :
    InStep filled n (fun n' c => c.joins.length = n' ∧ c.Formed filled) (get : Lower Clauses) get := by
  intro c _ hc
  exact ⟨rfl, ends_ok (Nat.le_refl _) hc ⟨rfl, hc⟩⟩

theorem inStep_update {g : Clauses → Clauses} (h : ∀ c, n ≤ c.joins.length → c.Formed filled →
    c.joins.length ≤ (g c).joins.length ∧ (g c).Formed filled) :
    InStep filled n (fun _ _ => True) (update g) (update g) := by
  intro c hjoins hc
  obtain ⟨hlength, hformed⟩ := h c hjoins hc
  exact ⟨rfl, ends_ok hlength hformed trivial⟩

/-- Terms, limits and marks are no matter for what is formed. -/
theorem inStep_mark {g : Clauses → Clauses} (hg : ∀ c, (g c).rows = c.rows) :
    InStep filled n (fun _ _ => True) (update g) (update g) := by
  refine inStep_update fun c _ hc => ?_
  obtain ⟨hprojection, hjoins, hroot⟩ := Clauses.rows_eq_iff.mp (hg c)
  rw [hjoins]
  refine ⟨Nat.le_refl _, ?_, ?_, ?_⟩
  · rw [hprojection, hjoins]
    exact hc.projection
  · rw [hjoins]
    exact hc.joins
  · rw [hroot]
    exact hc.root

theorem inStep_mark_then {g : Clauses → Clauses} (hg : ∀ c, (g c).rows = c.rows) {m m' : Lower β}
    (h : InStep filled n U m m') : InStep filled n U (update g >>= fun _ => m) (update g >>= fun _ => m') :=
  (inStep_mark hg).bind fun _ _ hn _ => h.later hn

theorem inStep_nextAlias : InStep filled n (fun _ _ => True) nextAlias nextAlias :=
  inStep_mark fun _ => rfl

theorem inStep_row {r : Row} (hr : r.Formed filled n) : InStep filled n (Row.Formed filled) (pure r) (pure r) :=
  inStep_pure fun _ hn => hr.mono hn

theorem inStep_term (t : Term) : InStep filled n (Row.Formed filled) (pure (.term t)) (pure (.term t)) :=
  inStep_row (.term t)

end Steps

/-! ## Tables and joins -/

section Rows

variable {filled : Prop} {n : Nat}

theorem inStep_bindTable {m : Model} (hm : filled → m.fields ≠ []) :
    InStep filled n (fun _ t => filled → t.model.fields ≠ []) (bindTable m) (bindTable m) := by
  intro c _ hc
  rw [run_bindTable]
  have hformed : Clauses.Formed filled { c with root := some (c.root.getD ⟨m, c.aliases⟩) } := by
    refine ⟨hc.projection, hc.joins, fun h t ht => ?_⟩
    cases hroot : c.root with
    | none =>
      rw [hroot] at ht
      cases ht
      exact hm h
    | some root =>
      rw [hroot] at ht
      cases ht
      exact hc.root h root hroot
  exact ⟨rfl, ends_ok (Nat.le_refl _) hformed hm⟩

/-- A join that a formed row refers to is there. -/
theorem inStep_joinAt {index : Nat} (hindex : index < n) :
    InStep filled n (fun n' j => j.Formed filled n') (joinAt index) (joinAt index) := by
  intro c hjoins hc
  have hlt : index < c.joins.length := by omega
  have hrun : ExceptT.run (joinAt index) c = (.ok c.joins[index], c) :=
    run_joinAt_eq_ok.mpr ⟨List.getElem?_eq_getElem hlt, rfl⟩
  rw [hrun]
  exact ⟨rfl, ends_ok (Nat.le_refl _) hc (hc.joins _ (List.getElem_mem hlt))⟩

/-! ## Members and scalars -/

theorem inStep_find {e : Entries} (he : e.Formed filled n) (name : String) :
    InStep filled n (Row.Formed filled) (require (e.find name)) (require (e.find name)) := by
  refine inStep_require (e.findsAll_find name) fun r hr n' hn => ?_
  rw [Entries.find] at hr
  cases hlookup : e.list.lookup name with
  | none =>
    rw [hlookup] at hr
    cases hr
  | some found =>
    rw [hlookup] at hr
    cases hr
    exact (forall_lookup he.members hlookup).mono hn

theorem inStep_memberOf {target : Row} (ht : target.Formed filled n) (field : String) :
    InStep filled n (Row.Formed filled) (memberOf target field) (memberOf target field) := by
  cases ht with
  | scalar v =>
    cases v with
    | text s =>
      rw [memberOf]
      split
      · exact inStep_row (.scalar _)
      · exact inStep_throw rfl
    | _ => exact inStep_throw rfl
  | host c =>
    exact (inStep_require (S := fun _ _ => True) (c.findsAll_member field) fun _ _ _ _ => trivial).bind
      fun _ member _ _ => inStep_row (Row.formed_ofCaptured member)
  | term t =>
    rw [memberOf]
    split
    · exact inStep_term _
    · exact inStep_throw rfl
  | @table t _ =>
    exact (inStep_require (S := fun _ _ => True) (findsAll_columnOf t.model field) fun _ _ _ _ => trivial).bind
      fun _ _ _ _ => inStep_term _
  | projected typeName hne hlist => exact inStep_find ⟨hne, hlist⟩ field
  | joined hindex => exact (inStep_joinAt hindex).bind fun _ _ _ hj => inStep_find hj.fields field
  | group key _ =>
    rw [memberOf]
    split
    · exact inStep_term key
    · exact inStep_throw rfl

theorem inStep_scalarTerm (r : Row) : InStep filled n (fun _ _ => True) (scalarTerm r) (scalarTerm r) :=
  inStep_require r.findsAll_toTerm fun _ _ _ _ => trivial

theorem inStep_scalarTerms (list : List (String × Row)) :
    InStep filled n (fun _ ts => ts.length = list.length) (scalarTerms list) (scalarTerms list) := by
  induction list generalizing n with
  | nil => exact inStep_pure fun _ _ => rfl
  | cons p rest ih =>
    refine (inStep_scalarTerm p.2).bind fun _ t _ _ => ih.bind fun _ ts _ hts => inStep_pure fun _ _ => ?_
    simp [hts]

/-- There is a key for every member. -/
theorem inStep_entryTerms {e : Entries} (he : e.Formed filled n) :
    InStep filled n (fun _ ts => filled → ts ≠ []) (scalarTerms e.list) (scalarTerms e.list) := by
  refine (inStep_scalarTerms e.list).weaken fun _ ts _ hts h => ?_
  have := List.length_pos_iff.mpr (he.ne_nil h)
  exact List.length_pos_iff.mp (by omega)

theorem inStep_keyTerms {key : Row} (hkey : key.Formed filled n) :
    InStep filled n (fun _ ts => filled → ts ≠ []) (keyTerms key) (keyTerms key) := by
  cases hkey with
  | projected typeName hne hlist => exact inStep_entryTerms (e := ⟨typeName, _⟩) ⟨hne, hlist⟩
  | table hfields => exact inStep_entryTerms (Entries.formed_ofTable hfields)
  | joined hindex => exact (inStep_joinAt hindex).bind fun _ _ _ hj => inStep_entryTerms hj.fields
  | _ => exact (inStep_scalarTerm _).bind fun _ t _ _ => inStep_pure fun _ _ _ => List.cons_ne_nil t []

/-! ## Operators and methods -/

/-- Of terms nothing is said. -/
theorem Row.closed_formed : Lower.Closed (Row.Formed filled n) fun _ => True := by
  constructor
  case scalar => exact .scalar
  case captured => exact Row.formed_ofCaptured
  case term => exact fun {t} _ => .term t
  case ofProjected =>
    intro typeName list hr
    cases hr with
    | projected _ _ hlist => exact hlist
  all_goals intros; trivial

/-- A step beside itself, where what it yields is said of no number of joins in particular. -/
theorem rules_inStep : Rules fun _ S m => InStep filled n (fun _ => S) m m where
  pure ha := inStep_pure fun _ _ => ha
  throw hf := inStep_throw (Fault.isMissingJoin_of_isOfLookup hf)
  bind hm hk := hm.bind fun _ a hn ha => (hk a ha).later hn

theorem inStep_groupKey {key : Row} (hkey : key.Formed filled n) :
    InStep filled n (fun _ _ => True) (groupKey key) (groupKey key) :=
  rules_inStep.judged_groupKey Row.closed_formed hkey

theorem inStep_combine (op : BinaryOp) (concat : Bool) {l r : Row} (hl : l.Formed filled n) (hr : r.Formed filled n) :
    InStep filled n (Row.Formed filled) (combine op concat l r) (combine op concat l r) :=
  (rules_inStep.judged_combine Row.closed_formed op concat hl hr).weaken fun _ _ hn h => h.mono hn

theorem inStep_callMethod (name : String) {receiver : Row} (hreceiver : receiver.Formed filled n) {args : List Row}
    (hargs : ∀ r ∈ args, r.Formed filled n) :
    InStep filled n (Row.Formed filled) (Lowering.callMethod name receiver args)
      (Lowering.callMethod name receiver args) :=
  (rules_inStep.judged_callMethod Row.closed_formed name hreceiver hargs).weaken fun _ _ hn h => h.mono hn

/-- The members of the rows of a join are those of a projected row, of a table or of an earlier join. -/
theorem inStep_joinFields {selected : Row} (h : selected.Formed filled n) :
    InStep filled n (fun n' p => p.1.Formed filled n') (joinFields selected) (joinFields selected) := by
  cases h with
  | projected typeName hne hlist => exact inStep_pure fun _ hn => Entries.Formed.mono ⟨hne, hlist⟩ hn
  | table hfields => exact inStep_pure fun _ _ => Entries.formed_ofTable hfields
  | joined hindex =>
    exact (inStep_joinAt hindex).bind fun _ _ _ hj => inStep_pure fun _ hn => hj.fields.mono hn
  | _ => exact inStep_throw rfl

end Rows

end QueryChain
