import QueryChain.Lowering.Compiled
import QueryChain.Proofs.Results

/-!
# Running steps of lowering

A step takes clauses to what it yields, or to why it fails, and to new clauses. The lemmas here say this for each way
of building steps, so that nothing else has to look inside the monad.

* `Lower.run_bind_eq_ok`: a sequence of steps yields where each step does.
* `Lowering.run_combine_eq_ok`: an operator other than the tests of equality yields where its sides are scalars.
-/

namespace QueryChain

namespace Lower

section

variable {τ ν α β : Type} {m : LowerTo τ ν α} {f : α → LowerTo τ ν β} {c c' : Clauses τ ν} {a : α} {b : β} {e : Fault}

@[simp] theorem run_pure (a : α) (c : Clauses τ ν) : ExceptT.run (pure a : LowerTo τ ν α) c = (.ok a, c) := rfl

@[simp] theorem run_throw (e : Fault) (c : Clauses τ ν) :
    ExceptT.run (throw e : LowerTo τ ν α) c = (.error e, c) := rfl

@[simp] theorem run_require (r : Except Fault α) (c : Clauses τ ν) : ExceptT.run (require r) c = (r, c) := by
  cases r <;> rfl

@[simp] theorem run_update (g : Clauses τ ν → Clauses τ ν) (c : Clauses τ ν) :
    ExceptT.run (update g) c = (.ok (), g c) := rfl

@[simp] theorem run_get (c : Clauses τ ν) : ExceptT.run (get : LowerTo τ ν (Clauses τ ν)) c = (.ok c, c) := rfl

theorem run_bind (m : LowerTo τ ν α) (f : α → LowerTo τ ν β) (c : Clauses τ ν) :
    ExceptT.run (m >>= f) c =
      match (ExceptT.run m c).1 with
      | .ok a => ExceptT.run (f a) (ExceptT.run m c).2
      | .error e => (.error e, (ExceptT.run m c).2) := by
  simp only [bind, ExceptT.bind, ExceptT.mk, ExceptT.run, StateT.bind, ExceptT.bindCont]
  rcases m c with ⟨r, c'⟩
  cases r <;> rfl

theorem run_bind_of_ok (h : ExceptT.run m c = (.ok a, c')) :
    ExceptT.run (m >>= f) c = ExceptT.run (f a) c' := by
  rw [run_bind, h]

theorem run_bind_of_error (h : ExceptT.run m c = (.error e, c')) :
    ExceptT.run (m >>= f) c = (.error e, c') := by
  rw [run_bind, h]

/-- A sequence of steps yields where each step does. -/
theorem run_bind_eq_ok :
    ExceptT.run (m >>= f) c = (.ok b, c') ↔
      ∃ a c₁, ExceptT.run m c = (.ok a, c₁) ∧ ExceptT.run (f a) c₁ = (.ok b, c') := by
  constructor
  · intro h
    rcases hm : ExceptT.run m c with ⟨r, c₁⟩
    cases r with
    | error e =>
      rw [run_bind_of_error hm] at h
      cases h
    | ok a =>
      rw [run_bind_of_ok hm] at h
      exact ⟨a, c₁, rfl, h⟩
  · rintro ⟨a, c₁, hm, h⟩
    rw [run_bind_of_ok hm, h]

/-- A result that is required leaves the clauses alone. -/
theorem run_require_eq_ok {r : Except Fault α} :
    ExceptT.run (require r) c = (.ok a, c') ↔ r = .ok a ∧ c' = c := by
  rw [run_require, Prod.mk.injEq, eq_comm (a := c)]

end

theorem run_joinAt_eq_ok {i : Nat} {j : Join} {c c' : Clauses} :
    ExceptT.run (joinAt i) c = (.ok j, c') ↔ c.joins[i]? = some j ∧ c' = c := by
  rw [joinAt, run_bind_of_ok (run_get c)]
  cases hj : c.joins[i]? with
  | none => exact ⟨fun h => (by cases h), fun h => (by cases h.1)⟩
  | some k =>
    constructor
    · intro h
      cases h
      exact ⟨rfl, rfl⟩
    · rintro ⟨⟨⟩, rfl⟩
      rfl

/-- The first table that is bound is the root, and the next alias stands for it. -/
theorem run_bindTable (m : Model) (c : Clauses) :
    ExceptT.run (bindTable m) c =
      (.ok ⟨m, c.aliases⟩, { c with root := some (c.root.getD ⟨m, c.aliases⟩) }) := by
  cases hr : c.root with
  | none =>
    rw [bindTable, run_bind_of_ok (run_get c), hr]
    rfl
  | some root =>
    have hroot : { c with root := some root } = c := by rw [← hr]
    rw [Option.getD_some, hroot, bindTable, run_bind_of_ok (run_get c), hr]
    rfl

end Lower

/-- An operator that tests no equality yields where both of its sides are scalars. -/
theorem Lowering.run_combine_eq_ok {op : BinaryOp} (hop : ¬ (op = .eq ∨ op = .ne)) {concat : Bool} {l r v : Row}
    {c c' : Clauses} :
    ExceptT.run (combine op concat l r) c = (.ok v, c') ↔
      ∃ s t, l.toTerm = .ok s ∧ r.toTerm = .ok t ∧
        v = .term (if concat then .concat s t else .binary op s t) ∧ c' = c := by
  simp only [combine, hop, false_and, if_false]
  constructor
  · intro h
    obtain ⟨s, c₁, hs, hrest⟩ := Lower.run_bind_eq_ok.mp h
    obtain ⟨t, c₂, ht, ⟨⟩⟩ := Lower.run_bind_eq_ok.mp hrest
    obtain ⟨hleft, rfl⟩ := Lower.run_require_eq_ok.mp hs
    obtain ⟨hright, rfl⟩ := Lower.run_require_eq_ok.mp ht
    exact ⟨s, t, hleft, hright, rfl, rfl⟩
  · rintro ⟨s, t, hs, ht, rfl, rfl⟩
    refine Lower.run_bind_eq_ok.mpr ⟨s, c', Lower.run_require_eq_ok.mpr ⟨hs, rfl⟩, ?_⟩
    exact Lower.run_bind_eq_ok.mpr ⟨t, c', Lower.run_require_eq_ok.mpr ⟨ht, rfl⟩, rfl⟩

end QueryChain
