import QueryChain.Proofs.Formed.Trees
import QueryChain.Proofs.Lowering.Compiled

/-!
# Join numbers are valid

A row of a join is the number of the join. Such numbers end up in the scope of functions, in the members of projected
rows, in groups, in the projection and in the rows that later joins yield, and stay there when the operator that made
them is done. At every point of an evaluation each of them is the number of a join that is there, also where a node
fails. So no join is ever missing.

* `Row.joinIndices`, `Point.joinIndices`: the joins that a row, and a point of an evaluation, refer to.
* `Expr.joins_always_valid`: at every point they are there.
-/

namespace QueryChain

open Lowering Lower

namespace Row

mutual

/-- The numbers of the joins that a row refers to, at any depth. -/
def joinIndices : Row → List Nat
  | .scalar _ | .host _ | .term _ | .table _ => []
  | .projected _ list => joinIndicesOf list
  | .joined index => [index]
  | .group _ element => joinIndices element

/-- Those that the members of a row refer to. -/
def joinIndicesOf : List (String × Row) → List Nat
  | [] => []
  | p :: rest => memberJoinIndices p ++ joinIndicesOf rest

/-- Those that a member refers to. -/
def memberJoinIndices : String × Row → List Nat
  | (_, r) => joinIndices r

end

theorem mem_joinIndicesOf {list : List (String × Row)} {i : Nat} :
    i ∈ joinIndicesOf list ↔ ∃ p ∈ list, i ∈ p.2.joinIndices := by
  induction list with
  | nil => simp [joinIndicesOf]
  | cons p rest ih =>
    obtain ⟨name, r⟩ := p
    simp [joinIndicesOf, memberJoinIndices, ih]

/-- The joins that a formed row refers to are there. -/
theorem Formed.joinIndices_lt {filled : Prop} {n : Nat} {r : Row} (hr : r.Formed filled n) :
    ∀ i ∈ r.joinIndices, i < n := by
  induction hr with
  | projected typeName _ _ ih =>
    intro i hi
    rw [joinIndices, mem_joinIndicesOf] at hi
    obtain ⟨p, hp, hmem⟩ := hi
    exact ih p hp i hmem
  | joined hindex => simpa [joinIndices] using hindex
  | group key _ ih => simpa [joinIndices] using ih
  | _ => simp [joinIndices]

end Row

/-! ## Clauses and points -/

/-- The joins that the members of a projected row refer to. -/
def Entries.joinIndices (e : Entries) : List Nat :=
  Row.joinIndicesOf e.list

/-- The joins that a projection refers to. -/
def Projection.joinIndices : Projection → List Nat
  | .object _ _ fields => fields.joinIndices
  | .scalar _ value => value.joinIndices

/-- The joins that the projection refers to, and those that the rows of joins refer to. -/
def Clauses.joinIndices (c : Clauses) : List Nat :=
  c.projection.toList.flatMap Projection.joinIndices ++ c.joins.flatMap fun j => j.fields.joinIndices

/-- The joins that are referred to in the scope, in what is yielded, and in the clauses. -/
def Point.joinIndices (p : Point) : List Nat :=
  p.scope.flatMap (fun entry => entry.2.joinIndices) ++ p.value.toList.flatMap Row.joinIndices ++ p.clauses.joinIndices

/-- All joins that are referred to are there. -/
def Point.IsValid (p : Point) : Prop :=
  ∀ i ∈ p.joinIndices, i < p.clauses.joins.length

instance : DecidablePred Point.IsValid := fun p =>
  inferInstanceAs (Decidable (∀ i ∈ p.joinIndices, i < p.clauses.joins.length))

section

variable {filled : Prop} {n : Nat}

theorem Entries.Formed.joinIndices_lt {e : Entries} (he : e.Formed filled n) : ∀ i ∈ e.joinIndices, i < n := by
  intro i hi
  obtain ⟨p, hp, hmem⟩ := Row.mem_joinIndicesOf.mp hi
  exact (he.members p hp).joinIndices_lt i hmem

theorem Projection.Formed.joinIndices_lt {p : Projection} (hp : p.Formed filled n) : ∀ i ∈ p.joinIndices, i < n := by
  cases p with
  | object positional m fields => exact Entries.Formed.joinIndices_lt hp
  | scalar type value => exact Row.Formed.joinIndices_lt hp

theorem Clauses.Formed.joinIndices_lt {c : Clauses} (hc : c.Formed filled) :
    ∀ i ∈ c.joinIndices, i < c.joins.length := by
  intro i hi
  rw [joinIndices, List.mem_append, List.mem_flatMap, List.mem_flatMap] at hi
  rcases hi with ⟨p, hp, hmem⟩ | ⟨j, hj, hmem⟩
  · exact (hc.projection p (Option.mem_toList.mp hp)).joinIndices_lt i hmem
  · exact (hc.joins j hj).fields.joinIndices_lt i hmem

/-- A point is valid where the scope, the clauses and what is yielded are formed. -/
theorem Point.isValid_of_formed {p : Point} (hscope : ∀ entry ∈ p.scope, entry.2.Formed filled p.clauses.joins.length)
    (hvalue : ∀ r, p.value = some r → r.Formed filled p.clauses.joins.length) (hc : p.clauses.Formed filled) :
    p.IsValid := by
  intro i hi
  rw [joinIndices, List.mem_append, List.mem_append, List.mem_flatMap, List.mem_flatMap] at hi
  rcases hi with (⟨entry, hentry, hmem⟩ | ⟨r, hr, hmem⟩) | hmem
  · exact (hscope entry hentry).joinIndices_lt i hmem
  · exact (hvalue r (Option.mem_toList.mp hr)).joinIndices_lt i hmem
  · exact hc.joinIndices_lt i hmem

/-- Asserting that all joins are there goes unnoticed. -/
theorem silent_asserting_isValid (alarm : Fault) : (Watch.asserting Point.IsValid alarm).Silent filled := by
  intro n env m m' henv h c hjoins hc
  obtain ⟨hrun, hends⟩ := h c hjoins hc
  have hbefore : Point.IsValid ⟨env, none, c⟩ :=
    Point.isValid_of_formed (Expr.later_env henv hjoins) nofun hc
  have hafter : Point.IsValid ⟨env, (ExceptT.run m' c).1.toOption, (ExceptT.run m' c).2⟩ := by
    rw [hrun]
    refine Point.isValid_of_formed (Expr.later_env henv (Nat.le_trans hjoins hends.joins)) (fun r hr => ?_) hends.formed
    cases hresult : (ExceptT.run m c).1 with
    | error f =>
      rw [hresult] at hr
      cases hr
    | ok a =>
      rw [hresult] at hr
      cases hr
      exact hends.yields _ hresult
  rw [Watch.run_asserting_of_holds alarm hbefore hafter, hrun]
  exact ⟨rfl, hends⟩

end

/-! ## Trees -/

namespace Expr

theorem compile_ne_missingJoin (e : Expr) (o : Options) (index : Nat) :
    e.compile o ≠ .error (.use (.missingJoin index)) := by
  have hends : Ends False 0 (Row.Formed False) e.clausesOf.1 e.clausesOf.2 := e.ends_clausesOf False.elim
  intro h
  cases hlower : e.lower with
  | ok t =>
    rw [compile_eq_ok hlower] at h
    cases h
  | error f =>
    rw [compile_eq_error hlower] at h
    cases h
    rw [lower] at hlower
    split at hlower
    · cases Clauses.findsAll_assemble _ _ hlower
    · rename_i f c hrun
      cases hlower
      cases hends.found _ (by rw [hrun])

/-- At every point of the evaluation of a tree, the joins that are referred to in the scope, in what is yielded, in the
projection and in the rows of joins are there. So no tree fails for want of a join, whatever the options are. -/
theorem joins_always_valid (e : Expr) :
    e.Always Point.IsValid [] Clauses.empty ∧ ∀ o index, e.compile o ≠ .error (.use (.missingJoin index)) := by
  refine ⟨fun alarm => ?_, e.compile_ne_missingJoin⟩
  exact (inStep_rowOf (silent_asserting_isValid alarm) e False.elim (List.forall_mem_nil _) Clauses.empty
    (Nat.le_refl 0) (Clauses.formed_empty False)).1

end Expr

end QueryChain
