import QueryChain.Chain
import QueryChain.Proofs.Lowering.Compiled
import QueryChain.Proofs.Meaning.Lowered

/-!
# What a compiled pipeline returns

A statement has one place for each kind of clause, so a compiled pipeline drops duplicates once and applies one
limit, both at the end, wherever in the pipeline they stand. For pipelines in order that is what the operators do one
after another; a filter after a limit shows the difference.

* `Expr.IsChain.compile_returns_iff`: a compiled pipeline returns its rows with duplicates and limits last, and what its
  operators return one after another if it is in order.
-/

namespace QueryChain

open Lowering Lower

theorem Clauses.below_empty (n : Nat) : Clauses.empty.Below n :=
  ⟨List.forall_mem_nil _, List.forall_mem_nil _, fun _ _ hj => absurd hj (by simp [Clauses.empty])⟩

/-- Clauses of a query for all rows are put together to one block. -/
theorem Clauses.assemble_eq_ok {c : Clauses} {t : Lowered} {base : TableRef} (hroot : c.root = some base)
    (hmode : c.mode = .rows) (h : c.assemble = .ok t) :
    ∃ items shape, c.selection base = .ok (items, shape) ∧
      t.statement = .plain (c.block base (.items items) true true) := by
  obtain ⟨root, items, shape, hroot', hselection, rfl⟩ := assemble_eq_ok_iff.mp h
  obtain rfl : root = base := Option.some.inj (hroot'.symm.trans hroot)
  exact ⟨items, shape, hselection, statement_of_mode (Or.inl hmode) root items⟩

/-- A pipeline that has been lowered by itself returns its rows with duplicates and limits last. -/
theorem Leaves.returns_iff {E : Engine} {db : E.Database} {p : Pipeline} {c : Clauses} {r : Row} {base : TableRef}
    {js : List Join} {conditions : List Term} (h : Leaves E db p Clauses.empty c r base js conditions)
    {items : List SelectItem} (hitems : ∀ s, E.selection s (.items items) = E.cells (r.itemIn E c s))
    {result : List (List E.Datum)} :
    (c.block base (.items items) true true).Returns E db result ↔ p.ReturnsLate E db result := by
  have hrows : p.rows E db [] = _ := h.rows E.blank
  have hjoins : c.joins = js := h.joins
  have hfilters : c.filters = conditions := h.filters
  have hdistinct : c.distinct = p.isDistinct := h.distinct
  have htop : c.top = p.limit E := h.top.trans (by cases p.limit E <;> rfl)
  have hgroup : c.groupKeys = [] := h.groupKeys
  rw [Pipeline.ReturnsLate, hrows, Settles.map_iff, Select.Returns]
  simp only [Clauses.block, hgroup, hjoins, hfilters, hdistinct, htop, hitems, Bool.true_and, true_and, if_true]

/-- A compiled pipeline is one block. It returns the rows of the pipeline with duplicates dropped and the least limit
applied last; if no operator comes after one that is carried out later, that is what the operators return one after
another. -/
theorem Expr.IsChain.compile_returns_iff {e : Expr} {p : Pipeline} (h : e.IsChain p) (hnests : p.NestsNoJoin)
    (hkeeps : p.KeepsRows) {o : Options} {compiled : Compiled} (hcompiled : e.compile o = .ok compiled) :
    ∃ q : Select, (∃ t, e.lower = .ok t ∧ t.statement = .plain q) ∧
      compiled.sql = (Statement.plain q).render o ∧
      ∀ (E : Engine) (db : E.Database) (result : List (List E.Datum)),
        (q.Returns E db result ↔ p.ReturnsLate E db result) ∧
          (p.InOrder → (q.Returns E db result ↔ p.Returns E db result)) := by
  cases ht : e.lower with
  | error f =>
    rw [compile_eq_error ht] at hcompiled
    cases hcompiled
  | ok t =>
    rw [compile_eq_ok ht] at hcompiled
    cases hcompiled
    obtain ⟨r, c, hrun, hassemble⟩ := lower_eq_ok ht
    have hlowered : ∀ (E : Engine) (db : E.Database), ∃ base js conditions,
        Leaves E db p Clauses.empty c r base js conditions ∧ (Clauses.empty = Clauses.empty → Stands E db p c r base) :=
      fun _ _ => h.lowered hnests (Clauses.below_empty _) hrun
    -- which table is the root, and that all rows are wanted, does not depend on the engine
    obtain ⟨base, _, _, hleaves, -⟩ := hlowered default fun _ => []
    have hroot : c.root = some base := hleaves.root
    have hmode : c.mode = .rows := hleaves.mode
    obtain ⟨items, shape, hselection, hstatement⟩ := Clauses.assemble_eq_ok hroot hmode hassemble
    refine ⟨_, ⟨t, rfl, hstatement⟩, congrArg (Statement.render o) hstatement, fun E db result => ?_⟩
    obtain ⟨base', js, conditions, hleaves', hstands⟩ := hlowered E db
    have hroot' : c.root = some base' := hleaves'.root
    obtain rfl : base' = base := Option.some.inj (hroot'.symm.trans hroot)
    obtain ⟨hflat, hvalues⟩ :=
      Clauses.selection_values (E := E) hleaves'.below.joins hleaves'.groupKeys hselection
    have hshown : r = c.shown base' := ((hstands rfl).shows hkeeps).resolve_right fun hnot => hnot hflat
    have hlate : (c.block base' (.items items) true true).Returns E db result ↔ p.ReturnsLate E db result :=
      hleaves'.returns_iff fun s => by rw [hvalues, ← hshown]
    refine ⟨hlate, fun hp => hlate.trans (hp.returns_iff ?_).symm⟩
    exact (hstands rfl).tellsApart (by rw [hshown]; exact hflat)

/-! ## A limit before a filter -/

namespace People

/-- People, of whom only the age is known. -/
def model : Model := .dynamic (.schema "Person") "Person" "People" [("Age", "Age", some .int)] none

/-- Two people, of twenty and of forty. -/
def twenties : Engine.numbers.Database := fun _ => [fun _ => (20 : Int), fun _ => (40 : Int)]

def age (x : Expr) : Expr := x.member "Age"

def isOver30 (x : Expr) : Expr := .applyOp .gt (age x) (.ofValue (.int 30))

/-- A function of a person. -/
def function (body : Expr → Expr) : Expr := (Chain.ofModel model).rowFunction body

/-- The youngest of those who are over thirty. -/
def filteredFirst : Chain := (((Chain.ofModel model).filter isOver30).orderBy age).take 1

def filteredFirstPipeline : Pipeline :=
  .take (.order (.filter (.table model) (function isOver30)) (function age) false true) (.ofValue (.int 1))

/-- The youngest, if over thirty. -/
def limitedFirst : Chain := (((Chain.ofModel model).orderBy age).take 1).filter isOver30

def limitedFirstPipeline : Pipeline :=
  .filter (.take (.order (.table model) (function age) false true) (.ofValue (.int 1))) (function isOver30)

theorem returns_iff_filteredFirst :
    filteredFirst.expr.IsChain filteredFirstPipeline ∧ filteredFirstPipeline.InOrder ∧
      ∃ compiled q, filteredFirst.expr.compile .standard = .ok compiled ∧
        compiled.sql = (Statement.plain q).render .standard ∧
        ∀ (E : Engine) (db : E.Database) (result : List (List E.Datum)),
          q.Returns E db result ↔ filteredFirstPipeline.Returns E db result := by
  have hchain : filteredFirst.expr.IsChain filteredFirstPipeline :=
    .take (.order rfl (.filter (.table _ _) rfl) rfl) rfl
  have horder : filteredFirstPipeline.InOrder := ⟨⟨trivial, rfl⟩, rfl⟩
  obtain ⟨q, -, hsql, hreturns⟩ := Expr.IsChain.compile_returns_iff hchain trivial trivial
    (show filteredFirst.expr.compile .standard = .ok _ from rfl)
  exact ⟨hchain, horder, _, q, rfl, hsql, fun E db result => (hreturns E db result).2 horder⟩

/-- A person of an age, sorted by it. -/
def person (years : Int) : Ranked .numbers :=
  ⟨Engine.numbers.ofRecord model fun _ => years, [(years, false)]⟩

theorem limitedFirst_yields {rows : List (Ranked .numbers)}
    (h : limitedFirstPipeline.Yields .numbers twenties rows) : rows = [] := by
  obtain ⟨_, ⟨_, arranged, ⟨_, rfl, rfl⟩, harranged, rfl⟩, rfl⟩ := h
  cases arranged with
  | nil => rfl
  | cons a rest =>
    have hperm : (a :: rest).Perm [person 20, person 40] := harranged.perm
    have ha : a = person 20 ∨ a = person 40 := by simpa using hperm.subset (List.mem_cons_self ..)
    rcases ha with rfl | rfl
    · rfl
    · -- the one of forty cannot come first: the other would come after it
      have hrest : person 20 ∈ rest := by
        have hmem := hperm.symm.subset (List.mem_cons_self ..)
        rcases List.mem_cons.mp hmem with heq | hmem
        · have hkeys := congrArg Ranked.keys heq
          cases hkeys
        · exact hmem
      have hbefore : Engine.Before .numbers (person 20).keys (person 40).keys :=
        Or.inl (show (20 : Int) < 40 by decide)
      exact absurd hbefore ((List.pairwise_cons.mp harranged.sorted).1 _ hrest)

/-- The filter comes first in the statement, so it returns somebody though the youngest is not over thirty. -/
theorem not_returns_limitedFirst :
    limitedFirst.expr.IsChain limitedFirstPipeline ∧
      ∃ compiled t q, limitedFirst.expr.compile .standard = .ok compiled ∧ limitedFirst.expr.lower = .ok t ∧
        t.statement = .plain q ∧ q.Returns .numbers twenties [[(40 : Int)]] ∧
        ¬ limitedFirstPipeline.Returns .numbers twenties [[(40 : Int)]] := by
  refine ⟨.filter (.take (.order rfl (.table _ _) rfl) rfl) rfl, _, _, _, rfl, rfl, rfl, ?_, ?_⟩
  · exact ⟨rfl, _, _, rfl, ⟨List.Perm.refl _, List.pairwise_singleton _ _⟩, rfl⟩
  · rintro ⟨rows, hrows, _, arranged, rfl, harranged, hresult⟩
    rw [limitedFirst_yields hrows] at harranged
    rw [List.perm_nil.mp harranged.perm] at hresult
    cases hresult

end People

end QueryChain
