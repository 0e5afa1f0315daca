import QueryChain.Proofs.Clauses.Inlining
import QueryChain.Proofs.Columns.From

/-!
# Conditions, here or there

The first row or the number of rows that meet a predicate is the first row or the number of the rows that a filter by
the predicate leaves. And two filters, one after another, leave the rows that one filter by both predicates leaves: a
statement has the two conditions side by side, or in parentheses.

* `Expr.rowOf_predicate`: a predicate of `First` or `Count` is a filter below.
* `Expr.Meet`: what two predicates come to for the rows of a source.
* `Statement.render_withFilters`: the last conditions of a statement in its text.
* `Expr.compile_conditions`: both, for compiled queries.
-/

namespace QueryChain

open Lowering Lower

/-! ## Statements with other conditions -/

/-- A block with these conditions. -/
def Select.withFilters (q : Select) (filters : List Term) : Select :=
  { q with filters }

/-- A statement whose block has these conditions. -/
def Statement.withFilters (filters : List Term) : Statement → Statement
  | .plain q => .plain (q.withFilters filters)
  | .countOf q => .countOf (q.withFilters filters)
  | .foldOf f q => .foldOf f (q.withFilters filters)

/-- A lowered query whose statement has these conditions. -/
def Lowered.withFilters (filters : List Term) (t : Lowered) : Lowered :=
  { t with statement := t.statement.withFilters filters }

theorem Clauses.statement_withFilters (c : Clauses) (filters : List Term) (root : TableRef) (items : List SelectItem) :
    { c with filters }.statement root items = (c.statement root items).withFilters filters := by
  have hmode : { c with filters }.mode = c.mode := rfl
  have hwrapped : { c with filters }.isWrapped = c.isWrapped := rfl
  rw [statement, statement, hmode, hwrapped]
  cases c.isWrapped <;> cases c.mode <;> cases c.fold <;> rfl

/-- Conditions decide neither whether clauses can be put together nor what a row is turned into. -/
theorem Clauses.assemble_withFilters {c : Clauses} {t : Lowered} (h : c.assemble = .ok t) (filters : List Term) :
    { c with filters }.assemble = .ok (t.withFilters filters) := by
  obtain ⟨root, items, shape, hroot, hselection, rfl⟩ := assemble_eq_ok_iff.mp h
  have hstatement := c.statement_withFilters filters root items
  exact assemble_eq_ok_iff.mpr ⟨root, items, shape, hroot, hselection,
    congrArg (Lowered.mk · shape c.mode c.top c.distinct) hstatement.symm⟩

/-- A list that is continued, after its keyword. -/
theorem clause_append (keyword separator : String) (parts : List String) {more : List String} (h : more ≠ []) :
    clause keyword separator (parts ++ more) =
      clause keyword separator parts ++ (if parts.isEmpty then keyword else separator) ++
        separator.intercalate more := by
  cases parts with
  | nil =>
    rw [List.nil_append, clause, if_neg (by simpa using h)]
    simp [clause]
  | cons part rest =>
    have hlists : separator.intercalate (part :: rest ++ more) = _ :=
      String.intercalate_append_of_ne_nil (List.cons_ne_nil part rest) h
    rw [clause, clause, hlists]
    simp [String.append_assoc]

/-- The last conditions of a statement stand side by side in its text, and nothing else goes by them. -/
theorem Statement.render_withFilters (o : Options) (t : Statement) (earlier : List Term) :
    ∃ before after, ∀ last, last ≠ [] →
      (t.withFilters (earlier ++ last)).render o = before ++ " AND ".intercalate (last.map (·.render o)) ++ after := by
  have hblock (filters : List Term) : (t.withFilters filters).block = t.block.withFilters filters := by
    cases t <;> rfl
  have hopening (filters : List Term) : (t.withFilters filters).opening = t.opening := by
    cases t <;> rfl
  have hclosing (filters : List Term) : (t.withFilters filters).closing = t.closing := by
    cases t <;> rfl
  refine ⟨t.opening ++ (t.block.beforeFrom o ++ " FROM " ++ renderFrom o t.block.root t.block.joins) ++
      clause " WHERE " " AND " (earlier.map (·.render o)) ++
      (if (earlier.map (·.render o)).isEmpty then " WHERE " else " AND "),
    clause " GROUP BY " ", " (t.block.groupKeys.map (·.render o)) ++
      (clause " ORDER BY " ", " (t.block.order.map (·.render o)) ++ t.block.limitText o) ++ t.closing, ?_⟩
  intro last hlast
  have hbefore : (t.block.withFilters (earlier ++ last)).beforeFrom o = t.block.beforeFrom o := rfl
  have hafter : (t.block.withFilters (earlier ++ last)).afterFrom o =
      clause " WHERE " " AND " ((earlier ++ last).map (·.render o)) ++
        (clause " GROUP BY " ", " (t.block.groupKeys.map (·.render o)) ++
          (clause " ORDER BY " ", " (t.block.order.map (·.render o)) ++ t.block.limitText o)) := rfl
  rw [Statement.render_eq, hblock, hopening, hclosing, Select.render_eq, hbefore, hafter, List.map_append,
    clause_append _ _ _ (by simpa using hlast)]
  show t.opening ++ (t.block.beforeFrom o ++ " FROM " ++ renderFrom o t.block.root t.block.joins ++ _) ++ t.closing = _
  simp only [String.append_assoc]

namespace Expr

/-! ## A predicate of the first row or of a number -/

/-- The first row or the number of rows that meet a predicate is that of the rows that a filter leaves. -/
theorem rowOf_predicate {name : String} {op : QueryOperator} (hname : QueryOperator.ofName name = some op)
    (hop : op = .first ∨ op = .count) {q : Expr} (hq : q.isRowDerived = false) (p : Expr) (ty u v : StaticType) :
    rowOf [] (.operator name [q, p] ty) = rowOf [] (.operator name [.operator "Where" [q, p] u] v) := by
  have hwhere : QueryOperator.ofName "Where" = some .filter := rfl
  have hfiltered : (Expr.operator "Where" [q, p] u).isRowDerived = false := hq
  have hrow : rowOf [] (.operator "Where" [q, p] u) = (do
      let rows ← rowOf [] q
      restrict rows (.ofExpr p)
      pure rows) := rowOf_operator hwhere hq [p] u
  rw [rowOf_operator hname hq, rowOf_operator hname hfiltered]
  rcases hop with rfl | rfl
  · show first (.ofExpr q) (some (.ofExpr p)) = first (.ofExpr (.operator "Where" [q, p] u)) none
    simp only [first, restrict?, Operand.ofExpr, hrow, bind_assoc, pure_bind]
  · show count (.ofExpr q) (some (.ofExpr p)) = count (.ofExpr (.operator "Where" [q, p] u)) none
    simp only [count, restrict?, Operand.ofExpr, hrow, bind_assoc, pure_bind]

/-! ## Two filters, or one by both predicates -/

section

variable {x : String} {q a b f g h : Expr}

/-- A filter by a predicate runs if its source and the body of the predicate do, the latter to a scalar. -/
theorem IsFunction.run_where (hf : IsFunction x a f) {ty : StaticType} {r : Row} {c c' : Clauses} :
    ExceptT.run (rowOf [] (.operator "Where" [q, f] ty)) c = (.ok r, c') ↔
      ∃ c₀ v t c₁, ExceptT.run (rowOf [] q) c = (.ok r, c₀) ∧ r.isGroup = false ∧
        ExceptT.run (rowOf [(x, r)] a) c₀ = (.ok v, c₁) ∧ v.toTerm = .ok t ∧ c' = c₁.filter t := by
  have hrow : rowOf [] (.operator "Where" [q, f] ty) = _ := RowStep.filter.rowOf_expr q f ty
  rw [hrow]
  constructor
  · intro hrun
    obtain ⟨rows, c₀, hrows, hrun⟩ := run_bind_eq_ok.mp hrun
    obtain ⟨mark, c₁, hmark, ⟨⟩⟩ := run_bind_eq_ok.mp hrun
    cases hgroup : r.isGroup with
    | true =>
      rw [RowStep.step, ClauseStep.mark, hgroup] at hmark
      cases hmark
    | false =>
      rw [RowStep.filter.mark_step f hgroup, hf.applyTo] at hmark
      obtain ⟨v, c₂, hv, hmark⟩ := run_bind_eq_ok.mp hmark
      obtain ⟨t, c₃, ht, ⟨⟩⟩ := run_bind_eq_ok.mp hmark
      obtain ⟨hterm, rfl⟩ := run_require_eq_ok.mp ht
      exact ⟨c₀, v, t, _, hrows, rfl, hv, hterm, rfl⟩
  · rintro ⟨c₀, v, t, c₁, hrows, hgroup, hv, ht, rfl⟩
    refine run_bind_eq_ok.mpr ⟨r, c₀, hrows, run_bind_eq_ok.mpr ⟨.condition t, c₁, ?_, rfl⟩⟩
    rw [RowStep.filter.mark_step f hgroup, hf.applyTo]
    exact run_bind_eq_ok.mpr ⟨v, c₁, hv, run_bind_eq_ok.mpr ⟨t, c₁, run_require_eq_ok.mpr ⟨ht, rfl⟩, rfl⟩⟩

/-- The terms that two predicates yield, one after another, for the rows of a source that are no groups. -/
def Meet (x : String) (q a b : Expr) (r : Row) (c : Clauses) (s t : Term) : Prop :=
  ∃ c₀ c₁ v w, ExceptT.run (rowOf [] q) Clauses.empty = (.ok r, c₀) ∧ r.isGroup = false ∧
    ExceptT.run (rowOf [(x, r)] a) c₀ = (.ok v, c₁) ∧ ExceptT.run (rowOf [(x, r)] b) c₁ = (.ok w, c) ∧
    v.toTerm = .ok s ∧ w.toTerm = .ok t

/-- A step that only reads does not look at conditions. -/
theorem run_filter_of_reads {table : Model → Prop} (hb : b.Every table IsGroupFold) (env : Env) (c : Clauses)
    (t : Term) :
    ExceptT.run (rowOf env b) (c.filter t) =
      ((ExceptT.run (rowOf env b) c).1, (ExceptT.run (rowOf env b) c).2.filter t) := by
  have hreads : Reads c.aliases c.joins table (rowOf env b) := reads_rowOf b hb env
  obtain ⟨r, root, -, hrun⟩ := hreads
  rw [hrun c rfl rfl, hrun (c.filter t) rfl rfl]
  rfl

/-- Two filters leave both conditions behind. -/
theorem run_where_where (hf : IsFunction x a f) (hg : IsFunction x b g)
    (hb : b.Every (fun _ => True) IsGroupFold) {ty u : StaticType} {r : Row} {c : Clauses} :
    ExceptT.run (rowOf [] (.operator "Where" [.operator "Where" [q, f] ty, g] u)) Clauses.empty = (.ok r, c) ↔
      ∃ d s t, Meet x q a b r d s t ∧ c = (d.filter s).filter t := by
  rw [hg.run_where]
  constructor
  · rintro ⟨c₂, w, t, c₃, hfiltered, hgroup, hw, ht, rfl⟩
    obtain ⟨c₀, v, s, c₁, hrows, -, hv, hs, rfl⟩ := hf.run_where.mp hfiltered
    rw [run_filter_of_reads hb, Prod.mk.injEq] at hw
    obtain ⟨hw, rfl⟩ := hw
    exact ⟨_, s, t, ⟨c₀, c₁, v, w, hrows, hgroup, hv, Prod.ext hw rfl, hs, ht⟩, rfl⟩
  · rintro ⟨d, s, t, ⟨c₀, c₁, v, w, hrows, hgroup, hv, hw, hs, ht⟩, rfl⟩
    refine ⟨c₁.filter s, w, t, d.filter s, hf.run_where.mpr ⟨c₀, v, s, c₁, hrows, hgroup, hv, hs, rfl⟩, hgroup, ?_, ht,
      rfl⟩
    rw [run_filter_of_reads hb, hw]

/-- One filter by both predicates leaves their conjunction behind. -/
theorem run_where_and {boolean : StaticType} (hh : IsFunction x (.binary .and a b boolean) h) {ty : StaticType}
    {r : Row} {c : Clauses} :
    ExceptT.run (rowOf [] (.operator "Where" [q, h] ty)) Clauses.empty = (.ok r, c) ↔
      ∃ d s t, Meet x q a b r d s t ∧ c = d.filter (.binary .and s t) := by
  rw [hh.run_where]
  constructor
  · rintro ⟨c₀, v, t, c₁, hrows, hgroup, hv, ht, rfl⟩
    obtain ⟨l, c₂, hl, hv⟩ := run_bind_eq_ok.mp hv
    obtain ⟨w, c₃, hw, hv⟩ := run_bind_eq_ok.mp hv
    obtain ⟨s, u, hs, hu, rfl, rfl⟩ := (run_combine_eq_ok (by decide)).mp hv
    cases ht
    exact ⟨_, s, u, ⟨c₀, c₂, l, w, hrows, hgroup, hl, hw, hs, hu⟩, rfl⟩
  · rintro ⟨d, s, t, ⟨c₀, c₁, v, w, hrows, hgroup, hv, hw, hs, ht⟩, rfl⟩
    refine ⟨c₀, .term (.binary .and s t), .binary .and s t, d, hrows, hgroup, ?_, rfl, rfl⟩
    refine run_bind_eq_ok.mpr ⟨v, c₁, hv, run_bind_eq_ok.mpr ⟨w, d, hw, ?_⟩⟩
    exact (run_combine_eq_ok (by decide)).mpr ⟨s, t, hs, ht, rfl, rfl⟩

end

end Expr

/-! ## Compiled queries -/

/-- A lowered query has two conditions side by side at the end where another one, of the same shape and mode and with
the same limit, has their conjunction. So do their texts, where the conjunction stands in parentheses. -/
structure Lowered.ConjoinedAs (t u : Lowered) (l r : Term) : Prop where
  shape : u.shape = t.shape
  mode : u.mode = t.mode
  top : u.top = t.top
  distinct : u.distinct = t.distinct
  filters : ∃ earlier, t.statement.block.filters = earlier ++ [l, r] ∧
    u.statement = t.statement.withFilters (earlier ++ [.binary .and l r])
  text : ∀ o, ∃ before after,
    t.statement.render o = before ++ (l.render o ++ " AND " ++ r.render o) ++ after ∧
      u.statement.render o = before ++ ("(" ++ (l.render o ++ " AND " ++ r.render o) ++ ")") ++ after

theorem Lowered.conjoinedAs_withFilters {t : Lowered} {earlier : List Term} {l r : Term}
    (h : t.statement.block.filters = earlier ++ [l, r]) :
    t.ConjoinedAs (t.withFilters (earlier ++ [.binary .and l r])) l r := by
  refine ⟨rfl, rfl, rfl, rfl, ⟨earlier, h, rfl⟩, fun o => ?_⟩
  have hself : t.statement.withFilters (earlier ++ [l, r]) = t.statement := by
    rw [← h]
    cases t.statement <;> rfl
  obtain ⟨before, after, htext⟩ := t.statement.render_withFilters o earlier
  have hsplit := htext [l, r] (List.cons_ne_nil _ _)
  have hboth := htext [.binary .and l r] (List.cons_ne_nil _ _)
  rw [hself] at hsplit
  refine ⟨before, after, hsplit.trans ?_, hboth.trans ?_⟩
  · rw [List.map_cons, List.map_cons, List.map_nil, String.intercalate_cons_cons, String.intercalate_singleton]
  · have hand : (Term.binary .and l r).render o = "(" ++ (l.render o ++ " AND " ++ r.render o) ++ ")" := by
      rw [Term.render]
      simp only [BinaryOp.sql, String.append_assoc]
      rfl
    rw [List.map_singleton, String.intercalate_singleton, hand]

namespace Expr

/-- Two predicates, and one that is met where both are. The second one has no operators but aggregates of groups. -/
structure Conjoins (x : String) (a b f g h : Expr) : Prop where
  left : IsFunction x a f
  right : IsFunction x b g
  both : ∃ boolean, IsFunction x (.binary .and a b boolean) h
  reads : b.Every (fun _ => True) IsGroupFold

section

variable {x : String} {q a b f g h : Expr} {t : Lowered}

/-- Where two filters are lowered, so is one by both predicates. -/
theorem Conjoins.lower_both (hc : Conjoins x a b f g h) {ty u : StaticType} (w : StaticType)
    (ht : (operator "Where" [.operator "Where" [q, f] ty, g] u).lower = .ok t) :
    ∃ earlier l r, t.statement.block.filters = earlier ++ [l, r] ∧
      (operator "Where" [q, h] w).lower = .ok (t.withFilters (earlier ++ [.binary .and l r])) := by
  obtain ⟨boolean, hboth⟩ := hc.both
  obtain ⟨rows, c, hrun, hassemble⟩ := lower_eq_ok ht
  obtain ⟨d, l, r, hmeet, rfl⟩ := (run_where_where hc.left hc.right hc.reads).mp hrun
  have hfilters : ((d.filter l).filter r).filters = d.filters ++ [l, r] := List.append_assoc ..
  obtain ⟨root, list, limited, ordered, hblock, -⟩ := Clauses.block_of_assemble hassemble
  refine ⟨d.filters, l, r, by rw [hblock]; exact hfilters, ?_⟩
  rw [lower_of_clausesOf_ok ((run_where_and hboth).mpr ⟨d, l, r, hmeet, rfl⟩)]
  exact Clauses.assemble_withFilters hassemble _

/-- Where one filter by both predicates is lowered, so are two filters. -/
theorem Conjoins.lower_each (hc : Conjoins x a b f g h) (ty u : StaticType) {w : StaticType}
    (ht : (operator "Where" [q, h] w).lower = .ok t) :
    ∃ t', (operator "Where" [.operator "Where" [q, f] ty, g] u).lower = .ok t' := by
  obtain ⟨boolean, hboth⟩ := hc.both
  obtain ⟨rows, c, hrun, hassemble⟩ := lower_eq_ok ht
  obtain ⟨d, l, r, hmeet, rfl⟩ := (run_where_and hboth).mp hrun
  refine ⟨t.withFilters (d.filters ++ [l] ++ [r]), ?_⟩
  rw [lower_of_clausesOf_ok ((run_where_where hc.left hc.right hc.reads).mpr ⟨d, l, r, hmeet, rfl⟩)]
  exact Clauses.assemble_withFilters hassemble _

end

/-- A predicate of `First`, `FirstOrDefault`, `Count` or `LongCount` over rows that are not those of a group does what a
filter below does. Two filters fail where one filter by both predicates does; else the two conditions of the one stand
in parentheses in the other, and nothing else is different. -/
theorem compile_conditions (q : Expr) :
    (q.isRowDerived = false → ∀ (name : String) (op : QueryOperator), QueryOperator.ofName name = some op →
      op = .first ∨ op = .count → ∀ (p : Expr) (ty u v : StaticType) (o : Options),
        (operator name [q, p] ty).compile o = (operator name [.operator "Where" [q, p] u] v).compile o) ∧
    ∀ (x : String) (a b f g h : Expr), Conjoins x a b f g h → ∀ ty u w : StaticType,
      (∃ e e', ∀ o, (operator "Where" [.operator "Where" [q, f] ty, g] u).compile o = .error e ∧
        (operator "Where" [q, h] w).compile o = .error e') ∨
      ∃ t t' l r, Lowered.ConjoinedAs t t' l r ∧
        ∀ o, (operator "Where" [.operator "Where" [q, f] ty, g] u).compile o = .ok (t.compiled o) ∧
          (operator "Where" [q, h] w).compile o = .ok (t'.compiled o) := by
  constructor
  · intro hq name op hname hop p ty u v o
    rw [compile_eq_lower, compile_eq_lower, lower, lower, clausesOf, clausesOf, rowOf_predicate hname hop hq p ty u v]
  · intro x a b f g h hc ty u w
    cases ht : (operator "Where" [.operator "Where" [q, f] ty, g] u).lower with
    | ok t =>
      obtain ⟨earlier, l, r, hfilters, hboth⟩ := hc.lower_both w ht
      exact Or.inr ⟨t, _, l, r, Lowered.conjoinedAs_withFilters hfilters,
        fun o => ⟨compile_eq_ok ht, compile_eq_ok hboth⟩⟩
    | error e =>
      cases ht' : (operator "Where" [q, h] w).lower with
      | ok t' =>
        obtain ⟨t, heach⟩ := hc.lower_each ty u ht'
        rw [ht] at heach
        cases heach
      | error e' => exact Or.inl ⟨e, e', fun o => ⟨compile_eq_error ht, compile_eq_error ht'⟩⟩

/-! ### Orders over one -/

namespace Shop

/-- `o.Total > 1`, and `o.Id < 5`. -/
def over1 : Expr := .applyOp .gt ((param "o" (.model order)).member "Total") (.ofValue (.int 1))

def under5 : Expr := .applyOp .lt ((param "o" (.model order)).member "Id") (.ofValue (.int 5))

/-- The number of orders over one, and orders over one among the first. -/
theorem compile_conditions_over1 :
    (∃ compiled, (operator "Count" [ofTable order, function ["o"] over1] .unknown).compile .standard = .ok compiled ∧
      (operator "Count" [.operator "Where" [ofTable order, function ["o"] over1] .unknown] .unknown).compile
        .standard = .ok compiled) ∧
    Conjoins "o" over1 under5 (function ["o"] over1) (function ["o"] under5)
        (function ["o"] (.applyOp .and over1 under5)) ∧
      ∃ t t' l r, Lowered.ConjoinedAs t t' l r ∧
        (operator "Where" [.operator "Where" [ofTable order, function ["o"] over1] .unknown, function ["o"] under5]
          .unknown).compile .standard = .ok (t.compiled .standard) ∧
        (operator "Where" [ofTable order, function ["o"] (.applyOp .and over1 under5)] .unknown).compile
          .standard = .ok (t'.compiled .standard) := by
  obtain ⟨hpredicate, hfilters⟩ := compile_conditions (ofTable order)
  have hconjoins : Conjoins "o" over1 under5 (function ["o"] over1) (function ["o"] under5)
      (function ["o"] (.applyOp .and over1 under5)) :=
    ⟨⟨_, rfl⟩, ⟨_, rfl⟩, ⟨_, _, rfl⟩, trivial, trivial⟩
  refine ⟨⟨_, rfl, ?_⟩, hconjoins, ?_⟩
  · rw [← hpredicate rfl "Count" .count rfl (Or.inr rfl) (function ["o"] over1) .unknown]
    rfl
  · rcases hfilters _ _ _ _ _ _ hconjoins .unknown .unknown .unknown with
      ⟨e, e', hfails⟩ | ⟨t, t', l, r, ht, hcompile⟩
    · cases (hfails .standard).1
    · exact ⟨t, t', l, r, ht, hcompile .standard⟩

end Shop

end Expr

end QueryChain
