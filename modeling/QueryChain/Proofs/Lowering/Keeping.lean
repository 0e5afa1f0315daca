import QueryChain.Proofs.Lowering.Operate

/-!
# What steps keep

A step of lowering keeps an invariant of the clauses if it leaves clauses of this kind behind whenever it succeeds, and
says something about what it yields. Something is said of rows and something of terms, and the two fit together if
members, scalars, keys and methods of such rows are such rows and terms again.

* `Lower.Keeps`: steps that keep an invariant, and steps one after another.
* `Lower.Closed`: what is said of rows and terms fits together.
* `Lower.JoinsAre`: what is said of the row of a join is said of its members.
-/

namespace QueryChain

open Lowering Lower

/-! ## Steps -/

/-- A step that keeps an invariant when it succeeds, and yields what it is said to yield. -/
def Lower.Keeps {α : Type} (I : Clauses → Prop) (R : α → Prop) (m : Lower α) : Prop :=
  ∀ c a c', I c → ExceptT.run m c = (.ok a, c') → R a ∧ I c'

section Steps

variable {α β : Type} {I : Clauses → Prop} {R : α → Prop} {S : β → Prop} {m : Lower α}

theorem keeps_pure {a : α} (h : R a) : Keeps I R (pure a) := by
  intro c a' c' hc hrun
  cases hrun
  exact ⟨h, hc⟩

theorem keeps_throw (f : Fault) : Keeps I R (throw f) := by
  intro c a c' _ hrun
  cases hrun

/-- Nothing is said of the clauses, and nothing of what is yielded. -/
theorem keeps_trivial : Keeps (fun _ => True) (fun _ => True) m :=
  fun _ _ _ _ _ => ⟨trivial, trivial⟩

theorem Lower.Keeps.bind {k : α → Lower β} (hm : Keeps I R m) (hk : ∀ a, R a → Keeps I S (k a)) :
    Keeps I S (m >>= k) := by
  intro c b c' hc hrun
  obtain ⟨a, c₁, hfirst, hrest⟩ := run_bind_eq_ok.mp hrun
  obtain ⟨ha, hc₁⟩ := hm c a c₁ hc hfirst
  exact hk a ha c₁ b c' hc₁ hrest

theorem Lower.Keeps.weaken {R' : α → Prop} (h : Keeps I R m) (hR : ∀ a, R a → R' a) : Keeps I R' m := by
  intro c a c' hc hrun
  obtain ⟨ha, hc'⟩ := h c a c' hc hrun
  exact ⟨hR a ha, hc'⟩

theorem keeps_update {g : Clauses → Clauses} (h : ∀ c, I c → I (g c)) : Keeps I (fun _ => True) (update g) := by
  intro c _ c' hc hrun
  cases hrun
  exact ⟨trivial, h c hc⟩

theorem keeps_get : Keeps I I get := by
  intro c _ c' hc hrun
  cases hrun
  exact ⟨hc, hc⟩

theorem keeps_operandAt {S : Operand → Prop} {name : String} {operands : List Operand} {position : Nat}
    (h : ∀ operand, operands[position]? = some operand → S operand) : Keeps I S (operandAt name operands position) := by
  rw [operandAt]
  split
  · rename_i operand hoperand
    exact keeps_pure (h operand hoperand)
  · exact keeps_throw _

theorem keeps_functionBody (e : Expr) : Keeps I (fun _ => True) (functionBody e) := by
  rw [functionBody]
  split
  · exact keeps_pure trivial
  · exact keeps_throw _

end Steps

/-! ## Rows and terms -/

/-- What is said of rows and what is said of terms fit together: of scalars and of what was captured it can be said, and
so it can of terms that are made of such terms, without aggregates. -/
structure Lower.Closed (R : Row → Prop) (T : Term → Prop) : Prop where
  scalar : ∀ v, R (.scalar v)
  captured : ∀ c, R (.ofCaptured c)
  term : ∀ {t}, T t → R (.term t)
  ofTerm : ∀ {t}, R (.term t) → T t
  ofTable : ∀ {t}, R (.table t) → ∀ f ∈ t.model.fields, T (.column t.label f.column)
  ofProjected : ∀ {typeName list}, R (.projected typeName list) → ∀ p ∈ list, R p.2
  ofGroup : ∀ {key element}, R (.group key element) → T key
  literal : ∀ v, T (.literal v)
  nullTest : ∀ negated {t}, T t → T (.nullTest negated t)
  binary : ∀ op {l r}, T l → T r → T (.binary op l r)
  concat : ∀ {l r}, T l → T r → T (.concat l r)
  length : ∀ {t}, T t → T (.length t)
  toText : ∀ {t}, T t → T (.toText t)
  change : ∀ c {t}, T t → T (.change c t)
  likeText : ∀ affix needle {t}, T t → T (.likeText t affix needle)
  likeTerm : ∀ affix {t needle}, T t → T needle → T (.likeTerm t affix needle)
  dateAdd : ∀ part {amount t}, T amount → T t → T (.dateAdd part amount t)

/-- Under an invariant, whatever is said of the row of a join can be said of its members. -/
def Lower.JoinsAre (I : Clauses → Prop) (R : Row → Prop) : Prop :=
  ∀ c, I c → ∀ i j, R (.joined i) → c.joins[i]? = some j → ∀ p ∈ j.fields.list, R p.2

theorem Lower.JoinsAre.nothing {I : Clauses → Prop} : JoinsAre I fun _ => True :=
  fun _ _ _ _ _ _ _ _ => trivial

/-- What is said of all values of a list can be said of what is looked up in it. -/
theorem forall_lookup {α : Type} {R : α → Prop} {list : List (String × α)} (h : ∀ p ∈ list, R p.2) {name : String}
    {a : α} (ha : list.lookup name = some a) : R a := by
  obtain ⟨before, after, rfl, -⟩ := List.lookup_eq_some_iff.mp ha
  exact h (name, a) (by simp)

theorem Lower.JoinsAre.keeps_joinAt {I : Clauses → Prop} {R : Row → Prop} (h : JoinsAre I R) {index : Nat}
    (hr : R (.joined index)) : Keeps I (fun j => ∀ p ∈ j.fields.list, R p.2) (joinAt index) := by
  intro c j c' hc hrun
  obtain ⟨hj, rfl⟩ := run_joinAt_eq_ok.mp hrun
  exact ⟨h c' hc index j hr hj, hc⟩

/-- The row of a table, member by member. -/
theorem Lower.Closed.entries_ofTable {R : Row → Prop} {T : Term → Prop} (h : Closed R T) {t : TableRef}
    (ht : R (.table t)) : ∀ p ∈ (Entries.ofTable t).list, R p.2 :=
  List.forall_mem_map.mpr fun f hf => h.term (h.ofTable ht f hf)

/-- Nothing in particular is said of rows and terms. -/
theorem Lower.Closed.nothing : Closed (fun _ => True) (fun _ => True) := by
  constructor <;> intros <;> trivial

end QueryChain
