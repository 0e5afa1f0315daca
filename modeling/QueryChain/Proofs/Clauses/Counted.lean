import QueryChain.Proofs.Chain.Operator
import QueryChain.Proofs.Clauses.Interleaving
import QueryChain.Proofs.Columns.From

/-!
# Counted queries

The number of rows of a query is the number of rows that its own statement returns. Where that statement has `DISTINCT`,
a limit or a grouping, it is wrapped as it stands, but for the sort keys, which decide no number. Else no row is dropped
or merged after the conditions, and a count takes the place of its select list.

* `Expr.run_ne_ok_of_isRowDerived`: what goes back to a parameter does not run where no parameter is in scope.
* `Expr.run_count`: a count runs as its source does, and leaves a mark.
* `Select.render_parts`: the text of a block, part by part.
* `Expr.compile_count`: what a count compiles to, by what its source compiles to.
-/

namespace QueryChain

open Lowering Lower

/-! ## Sources that go back to a parameter -/

/-- An operator runs its source first. -/
theorem exists_run_source {name : String} {source : Operand} {rest : List Operand} {c c' : Clauses} {r : Row}
    (h : ExceptT.run (callOperator name (source :: rest)) c = (.ok r, c')) :
    ∃ rows c₁, ExceptT.run source.row c = (.ok rows, c₁) := by
  by_cases hjoin : QueryOperator.ofName name = some .join
  · rw [callOperator_eq, hjoin] at h
    split at h
    · obtain ⟨rows, c₁, hrows, -⟩ := run_bind_eq_ok.mp h
      exact ⟨rows, c₁, hrows⟩
    · rename_i hop
      cases hop
      unfold operate at h
      dsimp only at h
      split at h
      · rename_i hoperands
        cases hoperands
        obtain ⟨rows, c₁, hrows, -⟩ := run_bind_eq_ok.mp h
        exact ⟨rows, c₁, hrows⟩
      · cases h
    · rename_i hop
      cases hop
  · obtain ⟨rows, c₁, hrows, -⟩ := run_callOperator_source hjoin h
    exact ⟨rows, c₁, hrows⟩

namespace Expr

/-- What goes back to a parameter does not run where no parameter is in scope. -/
theorem run_ne_ok_of_isRowDerived {e : Expr} (he : e.isRowDerived = true) {c c' : Clauses} {r : Row} :
    ExceptT.run (rowOf [] e) c ≠ (.ok r, c') := by
  intro h
  fun_induction isRowDerived e generalizing c c' r with
  | case1 name ty => cases h
  | case2 target name ty ih =>
    obtain ⟨rows, c₁, htarget, -⟩ := run_bind_eq_ok.mp h
    exact ih he htarget
  | case3 target name args ty ih =>
    obtain ⟨rows, c₁, htarget, -⟩ := run_bind_eq_ok.mp h
    exact ih he htarget
  | case4 name ty => cases he
  | case5 name ty source rest ih =>
    rw [rowOf, operandsOf] at h
    obtain ⟨rows, c₁, hsource⟩ := exists_run_source h
    exact ih he hsource
  | case6 op left right ty ihl ihr =>
    obtain ⟨l, c₁, hleft, hrest⟩ := run_bind_eq_ok.mp h
    obtain ⟨r, c₂, hright, -⟩ := run_bind_eq_ok.mp hrest
    rcases Bool.or_eq_true_iff.mp he with hl | hr
    · exact ihl hl hleft
    · exact ihr hr hright
  | case7 e => cases he

/-- A count runs as its source does, and leaves its mark. Over a source that goes back to a parameter it would be a
count of the rows of a group, but such a source does not run. -/
theorem run_count (q : Expr) (ty : StaticType) (c : Clauses) :
    ExceptT.run (rowOf [] (.operator "Count" [q] ty)) c =
      ((ExceptT.run (rowOf [] q) c).1,
        match ExceptT.run (rowOf [] q) c with
        | (.ok _, c') => { c' with count := true }
        | (.error _, c') => c') := by
  have hop : QueryOperator.ofName "Count" = some .count := rfl
  rcases hrun : ExceptT.run (rowOf [] q) c with ⟨r, c'⟩
  cases hq : q.isRowDerived with
  | true =>
    cases r with
    | ok rows => exact absurd hrun (run_ne_ok_of_isRowDerived hq)
    | error f =>
      have hfold : rowOf [] (.operator "Count" [q] ty) = foldGroup "Count" .count (.ofExpr q) none := by
        rw [rowOf, operandsOf_eq_map, List.map_cons, callOperator_eq]
        simp only [Operand.ofExpr, hq, if_true]
        rfl
      rw [hfold]
      exact run_bind_of_error hrun
  | false =>
    rw [rowOf_operator hop hq]
    cases r with
    | ok rows => exact run_bind_of_ok (m := rowOf [] q) hrun
    | error f => exact run_bind_of_error (m := rowOf [] q) hrun

end Expr

/-! ## Blocks and their counts -/

/-- Whether a block drops or merges rows after its conditions. -/
def Select.dropsRows (s : Select) : Bool :=
  s.distinct || s.top.isSome || !s.groupKeys.isEmpty

/-- The number of rows of a block: of the block as it stands, without sort keys, if it drops rows, else in place of its
select list. -/
def Select.counted (s : Select) : Statement :=
  if s.dropsRows then .countOf { s with order := [] }
  else .plain { s with list := .items [.plain .countAll], order := [] }

namespace Clauses

/-- What the rows are made into does not go by whether they are counted, nor does whether there is a statement. -/
theorem assemble_count (c : Clauses) {t : Lowered} (h : c.assemble = .ok t) :
    ∃ statement, { c with count := true }.assemble = .ok ⟨statement, t.shape, .count, t.top, t.distinct⟩ := by
  obtain ⟨root, items, shape, hroot, hselection, rfl⟩ := assemble_eq_ok_iff.mp h
  exact ⟨_, assemble_eq_ok_iff.mpr ⟨root, items, shape, hroot, hselection, rfl⟩⟩

/-- Clauses cannot be put together if there is no root, or if it cannot be settled what is selected. -/
theorem assemble_eq_error_iff {c : Clauses} {f : Fault} :
    c.assemble = .error f ↔ (c.root = none ∧ f = .form .noTable) ∨
      ∃ root, c.root = some root ∧ c.selection root = .error f := by
  cases hroot : c.root with
  | none =>
    have hassemble : c.assemble = .error (.form .noTable) := by rw [assemble, hroot]
    rw [hassemble]
    constructor
    · rintro ⟨⟩
      exact Or.inl ⟨rfl, rfl⟩
    · rintro (⟨-, rfl⟩ | ⟨_, ⟨⟩, -⟩)
      rfl
  | some root =>
    have hassemble : c.assemble = c.selection root >>= fun selected =>
        pure ⟨c.statement root selected.1, selected.2, c.mode, c.top, c.distinct⟩ := by
      rw [assemble, hroot]
    rw [hassemble]
    constructor
    · intro h
      cases hselection : c.selection root with
      | ok selection =>
        rw [hselection] at h
        cases h
      | error f' =>
        rw [hselection] at h
        cases h
        exact Or.inr ⟨root, rfl, hselection⟩
    · rintro (⟨⟨⟩, -⟩ | ⟨_, ⟨⟩, hselection⟩)
      rw [hselection]
      rfl

theorem assemble_count_eq_error {c : Clauses} {f : Fault} (h : c.assemble = .error f) :
    { c with count := true }.assemble = .error f := by
  rcases assemble_eq_error_iff.mp h with hroot | hselection
  · exact assemble_eq_error_iff.mpr (Or.inl hroot)
  · exact assemble_eq_error_iff.mpr (Or.inr hselection)

/-- A count of rows is put together from the block that returns the rows. -/
theorem assemble_count_of_mode {c : Clauses} (hmode : c.mode = .rows ∨ c.mode = .first) {t : Lowered}
    (h : c.assemble = .ok t) :
    ∃ s, t.statement = .plain s ∧
      { c with count := true }.assemble = .ok ⟨s.counted, t.shape, .count, t.top, t.distinct⟩ := by
  obtain ⟨root, items, shape, hroot, hselection, rfl⟩ := assemble_eq_ok_iff.mp h
  refine ⟨_, statement_of_mode hmode root items, ?_⟩
  refine assemble_eq_ok_iff.mpr ⟨root, items, shape, hroot, hselection, ?_⟩
  have hdrops : (c.block root (.items items) true true).dropsRows = c.isWrapped := rfl
  have hstatement : { c with count := true }.statement root items =
      (c.block root (.items items) true true).counted := by
    rw [Select.counted, hdrops]
    cases hwrapped : c.isWrapped with
    | true =>
      show (if c.isWrapped then _ else _) = _
      rw [hwrapped]
      rfl
    | false =>
      -- nothing is dropped, so there is no limit and no `DISTINCT` that the count could leave out
      have hdistinct : c.distinct = false := by simp_all [isWrapped]
      have htop : c.top = none := by simp_all [isWrapped]
      show (if c.isWrapped then _ else _) = _
      rw [hwrapped]
      simp only [block, hdistinct, htop, if_true, Bool.false_eq_true, if_false]
      rfl
  rw [hstatement]
  rfl

end Clauses

namespace Select

variable (o : Options) (s : Select)

/-- The text of a block before its select list. -/
def headText : String :=
  "SELECT " ++ (if s.distinct then "DISTINCT " else "") ++
    (match s.top with
      | some n => o.dialect.top n
      | none => "")

/-- The text of a select list. -/
def listText : String :=
  s.list.render o (!s.joins.isEmpty)

/-- The text of a block from its tables to its group keys. -/
def bodyText : String :=
  " FROM " ++ renderFrom o s.root s.joins ++ clause " WHERE " " AND " (s.filters.map (·.render o)) ++
    clause " GROUP BY " ", " (s.groupKeys.map (·.render o))

/-- The text of the sort keys. -/
def orderText : String :=
  clause " ORDER BY " ", " (s.order.map (·.render o))

/-- The text of a block, part by part. -/
theorem render_parts :
    s.render o = s.headText o ++ s.listText o ++ s.bodyText o ++ s.orderText o ++ s.limitText o := by
  show s.headText o ++ s.listText o ++ " FROM " ++ renderFrom o s.root s.joins ++ _ ++ _ ++ s.orderText o ++
    s.limitText o = _
  rw [bodyText]
  simp only [String.append_assoc, SqlText.text]

/-- The text of the number of rows of a block is that of the block, without the sort keys: in a `FROM`, or with a count
in place of the select list. -/
theorem render_counted :
    s.counted.render o =
      if s.dropsRows then
        "SELECT COUNT(*) FROM (" ++ (s.headText o ++ s.listText o ++ s.bodyText o ++ s.limitText o) ++ ") AS q"
      else s.headText o ++ "COUNT(*)" ++ s.bodyText o ++ s.limitText o := by
  have hunsorted (list : SelectList) : Select.render o { s with list, order := [] } =
      s.headText o ++ list.render o (!s.joins.isEmpty) ++ s.bodyText o ++ s.limitText o := by
    have hnone : ({ s with list, order := [] } : Select).orderText o = "" := rfl
    rw [render_parts, hnone, String.append_empty]
    rfl
  rw [counted]
  split
  · exact congrArg (fun text => "SELECT COUNT(*) FROM (" ++ text ++ ") AS q") (hunsorted s.list)
  · have hlist : (.items [.plain .countAll] : SelectList).render o (!s.joins.isEmpty) = "COUNT(*)" := by
      show ", ".intercalate [_] = _
      rw [String.intercalate_singleton]
      rfl
    rw [← hlist]
    exact hunsorted (.items [.plain .countAll])

end Select

/-! ## Compiled counts -/

namespace Expr

/-- A count compiles where its source does, and fails with the same fault where it does not. It keeps the limit, the
distinctness and the shape of its source. If the source returns rows, all of them or the first, their statement without
its sort keys is what is counted. -/
theorem compile_count (q : Expr) (ty : StaticType) (o : Options) :
    (∀ f, (operator "Count" [q] ty).compile o = .error f ↔ q.compile o = .error f) ∧
    ∀ t, q.lower = .ok t → ∃ counted, q.compile o = .ok (t.compiled o) ∧
      (operator "Count" [q] ty).compile o = .ok counted ∧ counted.mode = .count ∧ counted.top = t.top ∧
      counted.distinct = t.distinct ∧ counted.shape = t.shape ∧
      (t.mode = .rows ∨ t.mode = .first → ∃ s, t.statement = .plain s ∧
        (t.compiled o).sql = s.headText o ++ s.listText o ++ s.bodyText o ++ s.orderText o ++ s.limitText o ∧
        counted.sql =
          if s.distinct || s.top.isSome || !s.groupKeys.isEmpty then
            "SELECT COUNT(*) FROM (" ++ (s.headText o ++ s.listText o ++ s.bodyText o ++ s.limitText o) ++ ") AS q"
          else s.headText o ++ "COUNT(*)" ++ s.bodyText o ++ s.limitText o) := by
  rcases hq : q.clausesOf with ⟨r, c⟩
  have hcount := run_count q ty Clauses.empty
  rw [show ExceptT.run (rowOf [] q) Clauses.empty = (r, c) from hq] at hcount
  cases r with
  | error f =>
    have herror : q.lower = .error f := lower_of_clausesOf_error hq
    have hcounted : (operator "Count" [q] ty).lower = .error f := lower_of_clausesOf_error hcount
    refine ⟨fun f' => by rw [compile_eq_error herror, compile_eq_error hcounted], fun t ht => ?_⟩
    rw [herror] at ht
    cases ht
  | ok rows =>
    have hlower : q.lower = c.assemble := lower_of_clausesOf_ok hq
    have hlowered : (operator "Count" [q] ty).lower = { c with count := true }.assemble :=
      lower_of_clausesOf_ok hcount
    cases hassemble : c.assemble with
    | error f =>
      rw [hassemble] at hlower
      rw [Clauses.assemble_count_eq_error hassemble] at hlowered
      refine ⟨fun f' => by rw [compile_eq_error hlower, compile_eq_error hlowered], fun t ht => ?_⟩
      rw [hlower] at ht
      cases ht
    | ok t =>
      rw [hassemble] at hlower
      obtain ⟨statement, hcounts⟩ := Clauses.assemble_count c hassemble
      rw [hcounts] at hlowered
      refine ⟨fun f' => by simp only [compile_eq_ok hlower, compile_eq_ok hlowered, reduceCtorEq], fun t' ht' => ?_⟩
      obtain rfl := Except.ok.inj (hlower.symm.trans ht')
      refine ⟨_, compile_eq_ok hlower, compile_eq_ok hlowered, rfl, rfl, rfl, rfl, fun hmode => ?_⟩
      obtain ⟨root, items, shape, -, -, rfl⟩ := Clauses.assemble_eq_ok_iff.mp hassemble
      obtain ⟨s, hs, hcounted⟩ := Clauses.assemble_count_of_mode hmode hassemble
      rw [hcounts] at hcounted
      cases hcounted
      refine ⟨s, hs, ?_, s.render_counted o⟩
      rw [Lowered.compiled, hs]
      exact s.render_parts o

/-! ### The number of orders -/

namespace Shop

/-- `Orders.Where(o => o.Total > 1).Take(5)`. -/
def fiveBig : Expr := Stacked.stack (ofTable order) [Stacked.isBig, Stacked.five]

/-- `Orders.Where(o => o.Total > 1).Take(5).Count()` and `Orders.Count()`. -/
theorem compile_count_fiveBig :
    (∃ t s counted, fiveBig.lower = .ok t ∧ t.mode = .rows ∧ t.statement = .plain s ∧
      (operator "Count" [fiveBig] .unknown).compile .standard = .ok counted ∧ counted.mode = .count ∧
      counted.top = some 5 ∧ counted.sql = "SELECT COUNT(*) FROM (" ++
        (s.headText .standard ++ s.listText .standard ++ s.bodyText .standard ++ s.limitText .standard) ++ ") AS q") ∧
    ∃ t s counted, (ofTable order).lower = .ok t ∧ t.mode = .rows ∧ t.statement = .plain s ∧
      (operator "Count" [ofTable order] .unknown).compile .standard = .ok counted ∧
      counted.sql = s.headText .standard ++ "COUNT(*)" ++ s.bodyText .standard ++ s.limitText .standard := by
  have hfive : fiveBig.lower = .ok _ := rfl
  have hall : (ofTable order).lower = .ok _ := rfl
  constructor
  · obtain ⟨counted, -, hcounted, hmode, htop, -, -, htext⟩ := (compile_count fiveBig .unknown .standard).2 _ hfive
    obtain ⟨s, hs, -, hsql⟩ := htext (Or.inl rfl)
    cases hs
    exact ⟨_, _, counted, hfive, rfl, rfl, hcounted, hmode, htop, hsql⟩
  · obtain ⟨counted, -, hcounted, -, -, -, -, htext⟩ := (compile_count (ofTable order) .unknown .standard).2 _ hall
    obtain ⟨s, hs, -, hsql⟩ := htext (Or.inl rfl)
    cases hs
    exact ⟨_, _, counted, hall, rfl, rfl, hcounted, hsql⟩

end Shop

end Expr

end QueryChain
