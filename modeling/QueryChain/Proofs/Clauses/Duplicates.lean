import QueryChain.Proofs.Clauses.Inlining
import QueryChain.Proofs.Meaning.Statement

/-!
# Folds of distinct rows

A fold of distinct rows is a fold of a column of a block that drops duplicates. Rows that differ have to stay apart
there, so the block needs everything that the rows are told apart by, and the folded value besides. It has that where
rows have been projected onto an object, and where the folded value is the scalar that they have been projected onto.
Everywhere else it has the folded value alone, and rows that differ are merged if this is the same.

* `SelectList.Determines`: rows that are equal by one select list are equal by another.
* `Expr.compile_fold_distinct`: the statement of a fold of distinct rows, by that of the rows.
* `Expr.Shop.merges_rows`: whole rows, and rows of a join, that are merged.
-/

namespace QueryChain

open Lowering Lower

/-! ## Select lists -/

/-- Rows that are equal by one select list are equal by the other. -/
def SelectList.Determines (list other : SelectList) : Prop :=
  ∀ (E : Engine) (s s' : E.Scope), E.selection s list = E.selection s' list → E.selection s other = E.selection s' other

/-- With all items in it, a list determines them. -/
theorem SelectList.withFolded_determines (items : List SelectItem) (a : Term) :
    (SelectList.withFolded items a).Determines (.items items) := by
  intro E s s' h
  have hlength (s : E.Scope) : (E.selection s (.items items)).length = items.length := List.length_map _
  exact List.append_inj_left h ((hlength s).trans (hlength s').symm)

/-- A single value determines itself, under whatever name. -/
theorem SelectList.folded_determines (a : Term) : (SelectList.items [.folded a]).Determines (.items [.bare a]) :=
  fun _ _ _ h => h

/-! ## Clauses of a fold -/

/-- What distinct rows are put together to if they are folded. -/
theorem Clauses.assemble_fold {c : Clauses} (hmode : c.mode = .rows ∨ c.mode = .first) (hdistinct : c.distinct = true)
    (f : Aggregate) (a : Term) {t : Lowered} (ht : c.assemble = .ok t) :
    ∃ b root items, t.statement = .plain b ∧ b.distinct = true ∧ b.list = .items items ∧
      c.selection root = .ok (items, t.shape) ∧ { c with fold := some (f, a) }.assemble =
        .ok ⟨.foldOf f { b with
            list := if c.projectsObject then .withFolded items a else .items [.folded a]
            order := if b.top.isSome then b.order else [] }, t.shape, .aggregate, t.top, t.distinct⟩ := by
  obtain ⟨root, items, shape, hroot, hselection, rfl⟩ := assemble_eq_ok_iff.mp ht
  have hlimited : (c.block root (.items items) true true).distinct = true := hdistinct
  refine ⟨_, root, items, statement_of_mode hmode root items, hlimited, rfl, hselection, ?_⟩
  refine assemble_eq_ok_iff.mpr ⟨root, items, shape, hroot, hselection, ?_⟩
  have hfolded : { c with fold := some (f, a) }.mode = .aggregate := by
    rw [mode, (count_fold_of_mode hmode).1]
    rfl
  have hwrapped : { c with fold := some (f, a) }.isWrapped = true := by
    rw [isWrapped, hdistinct]
    rfl
  have hlist : { c with fold := some (f, a) }.foldedList items a =
      if c.projectsObject then .withFolded items a else .items [.folded a] := by
    rw [foldedList, hdistinct, Bool.and_true]
    rfl
  have hstatement : { c with fold := some (f, a) }.statement root items =
      .foldOf f ({ c with fold := some (f, a) }.block root
        (if c.projectsObject then .withFolded items a else .items [.folded a]) true c.top.isSome) := by
    rw [← hlist, statement, hfolded, hwrapped]
    rfl
  rw [hstatement, hfolded]
  rfl

namespace Expr

/-- A fold looks at the rows of its source and at what its selector yields for them, and leaves it behind. -/
theorem run_folding {q s : Expr} (hq : q.isRowDerived = false) {f : Aggregate} {ty : StaticType} {r : Row}
    {c c' : Clauses} (h : ExceptT.run (rowOf [] (.operator f.name [q, s] ty)) c = (.ok r, c')) :
    ∃ rows a c₀ c₁, ExceptT.run (rowOf [] q) c = (.ok rows, c₀) ∧
      ExceptT.run (applyTo [] [rows] s >>= scalarTerm) c₀ = (.ok a, c₁) ∧ c' = { c₁ with fold := some (f, a) } := by
  have hop : QueryOperator.ofName f.name = some (.fold f) := by cases f <;> rfl
  rw [rowOf_operator hop hq] at h
  obtain ⟨rows, x, a, c₀, c₁, c₂, hrows, hx, ha, -, rfl⟩ := run_fold h
  exact ⟨rows, a, c₀, c₂, hrows, run_bind_eq_ok.mpr ⟨x, c₁, hx, ha⟩, rfl⟩

/-- The scalar that rows have been projected onto is selected as it is folded. -/
theorem items_of_identity {x : String} {s : Expr} {pty : StaticType} (hs : IsFunction x (.param x pty) s) {rows : Row}
    {type : Option ScalarType} {c d : Clauses} (hprojection : d.projection = some (.scalar type rows)) {a : Term}
    (ha : ExceptT.run (applyTo [] [rows] s >>= scalarTerm) c = (.ok a, c)) {root : TableRef} {items : List SelectItem}
    {shape : RowShape} (hselection : d.selection root = .ok (items, shape)) : items = [.bare a] := by
  have happly : applyTo [] [rows] s = pure rows := by
    rw [hs.applyTo, rowOf, Lowering.lookup, List.lookup_cons, beq_self_eq_true]
  rw [happly, pure_bind] at ha
  obtain ⟨hterm, -⟩ := run_require_eq_ok.mp ha
  rw [Clauses.selection, hprojection] at hselection
  have hselected : Clauses.selectedTerm rows = .ok a := by
    cases rows with
    | term t => exact hterm
    | scalar v => exact hterm
    | _ => cases hterm
  obtain ⟨t, ht, ⟨⟩⟩ := bind_eq_ok.mp hselection
  rw [hselected] at ht
  cases ht
  rfl

/-- A fold of distinct rows folds a column of the block of the rows, with the folded value after all items if the rows
have been projected onto an object, and with the folded value alone if not. Rows that differ stay apart in the first
case, and if the selector hands on the scalar that the rows have been projected onto. -/
theorem compile_fold_distinct {q s : Expr} (hq : q.isRowDerived = false) (hs : s.Every (fun _ => True) IsGroupFold)
    (f : Aggregate) {ty u : StaticType} {t : Lowered} (ht : (operator "Distinct" [q] ty).lower = .ok t)
    (hmode : t.mode = .rows ∨ t.mode = .first) {o : Options} {compiled : Compiled}
    (h : (operator f.name [.operator "Distinct" [q] ty, s] u).compile o = .ok compiled) :
    ∃ rows c b items a list, q.clausesOf = (.ok rows, c) ∧
      ExceptT.run (applyTo [] [rows] s >>= scalarTerm) c = (.ok a, c) ∧
      t.statement = .plain b ∧ b.distinct = true ∧ b.list = .items items ∧
      compiled = Lowered.compiled o ⟨.foldOf f { b with list, order := if b.top.isSome then b.order else [] }, t.shape,
        .aggregate, t.top, t.distinct⟩ ∧
      list = (if c.projectsObject then .withFolded items a else .items [.folded a]) ∧
      (c.projectsObject = true ∨
        (∃ x pty type, IsFunction x (.param x pty) s ∧ c.projection = some (.scalar type rows)) →
          list.Determines (.items items)) := by
  have hop : QueryOperator.ofName "Distinct" = some .distinct := rfl
  obtain ⟨rows, d, hrun, hassemble⟩ := lower_eq_ok ht
  have hflagged := hrun
  rw [rowOf_operator hop hq] at hflagged
  obtain ⟨c, hrows, rfl⟩ := run_distinct hflagged
  obtain ⟨t', ht', rfl⟩ := lower_of_compile_eq_ok h
  obtain ⟨r, c', hrun', hassemble'⟩ := lower_eq_ok ht'
  have hsource : (operator "Distinct" [q] ty).isRowDerived = false := hq
  obtain ⟨rows', a, c₀, c₁, hrows', ha, rfl⟩ := run_folding hsource hrun'
  obtain ⟨⟨⟩, rfl⟩ := Prod.mk.inj (hrun.symm.trans hrows')
  -- no table can become the root of what is a query already, so the selector only reads
  have hread : Reads c.aliases c.joins (fun _ => True) (applyTo [] [rows] s >>= scalarTerm) :=
    (reads_applyTo s hs [] [rows]).bind reads_scalarTerm
  have hdistinct := Clauses.readFrom_of_assemble hassemble fun _ => True
  obtain ⟨rfl, hsame⟩ := hread.run_readFrom ha hdistinct
  have hvalue := hsame c ⟨rfl, rfl, hdistinct.settled⟩
  obtain ⟨_, _, _, -, -, hlowered⟩ := Clauses.assemble_eq_ok_iff.mp hassemble
  have hcmode : { c with distinct := true }.mode = .rows ∨ { c with distinct := true }.mode = .first := by
    rwa [hlowered] at hmode
  obtain ⟨b, root, items, hb, hdistinct, hlist, hselection, hfolded⟩ :=
    Clauses.assemble_fold hcmode rfl f a hassemble
  rw [hassemble', Except.ok.injEq] at hfolded
  refine ⟨rows, c, b, items, a, if c.projectsObject then .withFolded items a else .items [.folded a], hrows, hvalue, hb,
    hdistinct, hlist, congrArg _ hfolded, rfl, ?_⟩
  rintro (hobject | ⟨x, pty, type, hidentity, hprojection⟩)
  · rw [if_pos hobject]
    exact SelectList.withFolded_determines items a
  · have hscalar : c.projectsObject = false := by
      rw [Clauses.projectsObject, hprojection]
    rw [items_of_identity hidentity hprojection hvalue hselection, hscalar]
    exact SelectList.folded_determines a

/-! ### Totals of orders -/

namespace Shop

/-- `q.Distinct()`, and `q.Distinct().Sum(x => x.Total)` for rows with a total. -/
def distinct (q : Expr) : Expr :=
  .operator "Distinct" [q] .unknown

def sumOfTotals (q : Expr) : Expr :=
  .operator "Sum" [distinct q, memberOf order "Total"] .unknown

/-- `Orders.Select(x => new { T = x.Total })`. -/
def onlyTotals : Expr :=
  .operator "Select" [ofTable order, onlyTotal] .unknown

/-- `Orders.Select(x => new { T = x.Total }).Distinct().Sum(r => r.T)`. -/
theorem compile_fold_distinct_onlyTotals :
    onlyTotals.isRowDerived = false ∧ (function ["r"] total).Every (fun _ => True) IsGroupFold ∧
      ∃ t compiled b items list, (distinct onlyTotals).lower = .ok t ∧ t.mode = .rows ∧
        (operator "Sum" [distinct onlyTotals, function ["r"] total] .unknown).compile .standard = .ok compiled ∧
        t.statement = .plain b ∧ b.distinct = true ∧ b.list = .items items ∧
        compiled.sql = (Statement.foldOf .sum
          { b with list, order := if b.top.isSome then b.order else [] }).render .standard ∧
        list.Determines (.items items) := by
  have hreads : (function ["r"] total).Every (fun _ => True) IsGroupFold := trivial
  have hrows : (distinct onlyTotals).lower = .ok _ := rfl
  have hfold : (operator Aggregate.sum.name [distinct onlyTotals, function ["r"] total] .unknown).compile .standard =
    .ok _ := rfl
  obtain ⟨rows, c, b, items, a, list, hrun, -, hb, hdistinct, hitems, hcompiled, -, hdetermines⟩ :=
    compile_fold_distinct rfl hreads .sum hrows (Or.inl rfl) hfold
  have hclauses : onlyTotals.clausesOf.2 = c := congrArg Prod.snd hrun
  have hobject : c.projectsObject = true := by
    rw [← hclauses]
    rfl
  exact ⟨rfl, hreads, _, _, b, items, list, hrows, rfl, hfold, hb, hdistinct, hitems,
    congrArg Compiled.sql hcompiled, hdetermines (Or.inl hobject)⟩

/-- The scopes of two orders that differ in their number. -/
def firstOrder : Engine.numbers.Scope := fun _ column => if column = "Id" then (1 : Int) else (0 : Int)

def otherOrder : Engine.numbers.Scope := fun _ _ => (0 : Int)

/-- Whole rows and rows of a join are told apart by all their columns, but a fold of distinct ones drops duplicates
among the folded values alone. -/
theorem merges_rows :
    (∃ t t' b items a, (distinct (ofTable order)).lower = .ok t ∧ t.statement.block.list = .items items ∧
      (sumOfTotals (ofTable order)).lower = .ok t' ∧ t'.statement = .foldOf .sum b ∧ b.distinct = true ∧
      b.list = .items [.folded a] ∧ ¬ b.list.Determines (.items items)) ∧
    ∃ t t' b items a,
      (distinct (rightOf (ofTable customer) (ofTable order) customer order "Id" "CustomerId")).lower = .ok t ∧
      t.statement.block.list = .items items ∧
      (sumOfTotals (rightOf (ofTable customer) (ofTable order) customer order "Id" "CustomerId")).lower = .ok t' ∧
      t'.statement = .foldOf .sum b ∧ b.distinct = true ∧
      b.list = .items [.folded a] ∧ ¬ b.list.Determines (.items items) := by
  refine ⟨⟨_, _, _, _, _, rfl, rfl, rfl, rfl, rfl, rfl, fun h => ?_⟩,
    _, _, _, _, _, rfl, rfl, rfl, rfl, rfl, rfl, fun h => ?_⟩
  · have hitems := h .numbers firstOrder otherOrder rfl
    exact absurd (List.cons.inj hitems).1 (show ¬ (1 : Int) = 0 by decide)
  · have hitems := h .numbers firstOrder otherOrder rfl
    exact absurd (List.cons.inj hitems).1 (show ¬ (1 : Int) = 0 by decide)

end Shop

end Expr

end QueryChain
