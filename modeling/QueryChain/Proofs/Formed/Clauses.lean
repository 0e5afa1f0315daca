import QueryChain.Proofs.Lowering.Run

/-!
# Formed rows and clauses

A row refers to joins by their numbers. It is formed, relative to a number of joins, if the joins that it refers to are
among them, at any depth: in the members of a projected row and in the element of a group. Joins are only added, so a
row that is formed stays formed. Clauses are formed if the rows that they hold are, relative to the joins that they
hold themselves.

Where it is asked for, formed also means that there are members wherever there may be some: in the rows of tables, in
projected rows, and among the keys of joins.

* `Row.Formed`, `Clauses.Formed`: formed rows and clauses.
* `Row.Formed.mono`: a row stays formed when joins are added.
* `Clauses.Formed.join`: a join is added.
-/

namespace QueryChain

/-! ## Rows -/

/-- The joins that a row refers to are among the first `n`. If `filled` is asked for, all its tables and projected rows
have members. -/
inductive Row.Formed (filled : Prop) (n : Nat) : Row → Prop
  | scalar (v : Value) : Formed filled n (.scalar v)
  | host (c : Captured) : Formed filled n (.host c)
  | term (t : Term) : Formed filled n (.term t)
  | table {t : TableRef} (hfields : filled → t.model.fields ≠ []) : Formed filled n (.table t)
  | projected (typeName : String) {list : List (String × Row)} (hne : filled → list ≠ [])
      (hlist : ∀ p ∈ list, Formed filled n p.2) : Formed filled n (.projected typeName list)
  | joined {index : Nat} (hindex : index < n) : Formed filled n (.joined index)
  | group (key : Term) {element : Row} (helement : Formed filled n element) : Formed filled n (.group key element)

/-- The members of a projected row are formed. -/
structure Entries.Formed (filled : Prop) (n : Nat) (e : Entries) : Prop where
  ne_nil : filled → e.list ≠ []
  members : ∀ p ∈ e.list, p.2.Formed filled n

section

variable {filled : Prop} {n n' : Nat}

theorem Row.formed_ofCaptured (c : Captured) : (Row.ofCaptured c).Formed filled n := by
  cases c with
  | scalar v => exact .scalar v
  | object typeName fields => exact .host _

/-- A row stays formed when joins are added. -/
theorem Row.Formed.mono {r : Row} (hr : r.Formed filled n) (hn : n ≤ n') : r.Formed filled n' := by
  induction hr with
  | scalar v => exact .scalar v
  | host c => exact .host c
  | term t => exact .term t
  | table hfields => exact .table hfields
  | projected typeName hne _ ih => exact .projected typeName hne ih
  | joined hindex => exact .joined (by omega)
  | group key _ ih => exact .group key ih

theorem Entries.Formed.mono {e : Entries} (he : e.Formed filled n) (hn : n ≤ n') : e.Formed filled n' :=
  ⟨he.ne_nil, fun p hp => (he.members p hp).mono hn⟩

/-- The row of a table, member by member. -/
theorem Entries.formed_ofTable {t : TableRef} (ht : filled → t.model.fields ≠ []) :
    (Entries.ofTable t).Formed filled n := by
  refine ⟨fun h => ?_, List.forall_mem_map.mpr fun f _ => .term _⟩
  rw [Entries.ofTable, ne_eq, List.map_eq_nil_iff]
  exact ht h

end

/-! ## Clauses -/

/-- What each row is turned into is formed. -/
def Projection.Formed (filled : Prop) (n : Nat) : Projection → Prop
  | .object _ _ fields => fields.Formed filled n
  | .scalar _ value => value.Formed filled n

/-- The rows that a join yields are formed. If `filled` is asked for, the join compares some keys. -/
structure Join.Formed (filled : Prop) (n : Nat) (j : Join) : Prop where
  fields : j.fields.Formed filled n
  pairs : filled → j.clause.pairs ≠ []

/-- All rows in the clauses are formed, relative to the joins there are. -/
structure Clauses.Formed (filled : Prop) (c : Clauses) : Prop where
  projection : ∀ p, c.projection = some p → p.Formed filled c.joins.length
  joins : ∀ j ∈ c.joins, j.Formed filled c.joins.length
  root : filled → ∀ t, c.root = some t → t.model.fields ≠ []

/-- The part of the clauses that holds rows. -/
def Clauses.rows (c : Clauses) : Option Projection × List Join × Option TableRef :=
  (c.projection, c.joins, c.root)

theorem Clauses.rows_eq_iff {c c' : Clauses} :
    c'.rows = c.rows ↔ c'.projection = c.projection ∧ c'.joins = c.joins ∧ c'.root = c.root := by
  rw [rows, rows, Prod.mk.injEq, Prod.mk.injEq]

section

variable {filled : Prop} {n n' : Nat} {c : Clauses}

theorem Join.Formed.mono {j : Join} (hj : j.Formed filled n) (hn : n ≤ n') : j.Formed filled n' :=
  ⟨hj.fields.mono hn, hj.pairs⟩

theorem Projection.Formed.mono {p : Projection} (hp : p.Formed filled n) (hn : n ≤ n') : p.Formed filled n' := by
  cases p with
  | object positional m fields => exact Entries.Formed.mono hp hn
  | scalar type value => exact Row.Formed.mono hp hn

/-- Keys on either side are pairs of keys. -/
theorem JoinClause.pairs_ne_nil {j : JoinClause} (houter : j.outerKeys ≠ [])
    (hlength : j.outerKeys.length = j.innerKeys.length) : j.pairs ≠ [] := by
  have := List.length_pos_iff.mpr houter
  rw [JoinClause.pairs, ← List.length_pos_iff, List.length_zip]
  omega

theorem Clauses.formed_empty (filled : Prop) : Clauses.empty.Formed filled := by
  refine ⟨fun p hp => ?_, List.forall_mem_nil _, fun _ t ht => ?_⟩
  · cases hp
  · cases ht

theorem Clauses.Formed.project (hc : c.Formed filled) {p : Projection} (hp : p.Formed filled c.joins.length) :
    (c.project p).Formed filled := by
  refine ⟨fun q hq => ?_, hc.joins, hc.root⟩
  cases hq
  exact hp

/-- A join is added. What it yields refers to earlier joins, and it takes the projection away. -/
theorem Clauses.Formed.join (hc : c.Formed filled) {j : Join} (hj : j.Formed filled c.joins.length) :
    (c.join j).Formed filled := by
  have hlength : (c.join j).joins.length = c.joins.length + 1 := by simp [Clauses.join]
  refine ⟨fun p hp => ?_, ?_, hc.root⟩
  · cases hp
  · rw [hlength]
    refine List.forall_mem_append.mpr ⟨fun i hi => (hc.joins i hi).mono (by omega), ?_⟩
    exact List.forall_mem_singleton.mpr (hj.mono (by omega))

end

end QueryChain
