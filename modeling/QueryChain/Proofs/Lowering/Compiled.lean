import QueryChain.Proofs.Lowering.Mapped

/-!
# Options change the spelling only

Compiling a tree spells every alias, literal, text, length and date under the options as soon as it is met. All the same
a tree has one statement, and the options say how it is written: what is spelled is at every step what is written for
the terms that are lowered.

* `SqlAlgebra.writing`: what is written for a term is made of what is written for its parts.
* `Expr.compile_eq_lower`: what is compiled is what is lowered, written.
* `Clauses.assemble_eq_ok_iff`: what clauses are put together to.
* `Expr.compile_options`: two options give the same fault, or two texts of one statement.
-/

namespace QueryChain

/-! ## What is written for terms -/

/-- What is written for a term, with the column that the term is, if it is a bare one. -/
def Term.written (o : Options) (t : Term) : Fragment o where
  sql := t.render o
  column :=
    match t with
    | .column label name => some (o.label label, name)
    | _ => none

/-- Writing goes with every operation that makes a term. -/
def SqlAlgebra.writing (o : Options) : SqlAlgebra.Hom Term Nat (Fragment o) String where
  term := Term.written o
  label := o.label
  label_eq _ := rfl
  column_eq _ _ := rfl
  literal_eq v := by
    simp only [literal, Dialect.literal, Value.literal]
    cases v.requireLiteral <;> rfl
  nullTest_eq _ _ := rfl
  binary_eq _ _ _ := rfl
  concat_eq _ _ := rfl
  length_eq _ := rfl
  toText_eq _ := rfl
  change_eq _ _ := rfl
  likeText_eq _ _ _ := rfl
  likeTerm_eq _ _ _ := rfl
  dateAdd_eq _ _ _ := rfl
  countAll_eq := rfl
  countWhere_eq _ := rfl
  fold_eq _ _ := rfl

section

variable (o : Options)

theorem Term.selected_written (joined : Bool) (t : Term) :
    SqlText.selected o joined (t.written o) = t.renderSelected o joined := by
  cases t <;> rfl

open SqlAlgebra

theorem JoinClause.render_writing (j : JoinClause) : (j.map (writing o)).render o = j.render o := by
  have hpairs : (j.map (writing o)).pairs = j.pairs.map (Prod.map (Term.written o) (Term.written o)) := List.zip_map
  have hcondition : (j.map (writing o)).condition o = j.condition o := by
    rw [condition, condition, hpairs, List.map_map]
    rfl
  rw [render, render, hcondition]
  rfl

theorem renderJoins_writing (nested : Bool) (joins : List JoinClause) :
    renderJoins o nested (joins.map (JoinClause.map (writing o))) = renderJoins o nested joins := by
  induction joins with
  | nil => rfl
  | cons j rest ih =>
    cases rest with
    | nil => exact j.render_writing o
    | cons k rest => exact congrArg₂ (· ++ (if nested then ")" else "") ++ ·) (j.render_writing o) ih

theorem SelectItem.render_writing (joined : Bool) (item : SelectItem) :
    (item.map (writing o)).render o joined = item.render o joined := by
  cases item with
  | bare t => exact t.selected_written o joined
  | named t name => exact congrArg (· ++ " AS " ++ o.dialect.quoteIdentifier name) (t.selected_written o joined)
  | _ => rfl

theorem SelectList.render_writing (joined : Bool) (list : SelectList) :
    (list.map (writing o)).render o joined = list.render o joined := by
  cases list with
  | items list => simp only [map, render, List.map_map, Function.comp_def, SelectItem.render_writing]
  | withFolded list t =>
    have hfolded := (SelectItem.folded t : SelectItem).render_writing o joined
    rw [SelectItem.map] at hfolded
    simp only [map, render, List.map_map, Function.comp_def, SelectItem.render_writing, hfolded]

theorem Select.render_writing (s : Select) : (s.map (writing o)).render o = s.render o := by
  have hlist : (s.map (writing o)).list = s.list.map (writing o) := rfl
  have hjoins : (s.map (writing o)).joins.isEmpty = s.joins.isEmpty := List.isEmpty_map
  have hfrom : renderFrom o (s.map (writing o)).root (s.map (writing o)).joins = renderFrom o s.root s.joins := by
    simp only [renderFrom, map, renderJoins_writing, List.length_map]
    rfl
  have hterms (ts : List Term) : (ts.map (writing o).term).map (SqlText.text o) = ts.map (SqlText.text o) := by
    rw [List.map_map]
    rfl
  have horder : (s.map (writing o)).order.map (·.render o) = s.order.map (·.render o) := by
    rw [map, List.map_map]
    rfl
  have hfilters : (s.map (writing o)).filters.map (SqlText.text o) = s.filters.map (SqlText.text o) := hterms s.filters
  have hkeys : (s.map (writing o)).groupKeys.map (SqlText.text o) = s.groupKeys.map (SqlText.text o) :=
    hterms s.groupKeys
  rw [render, render, hlist, SelectList.render_writing, hjoins, hfrom, hfilters, hkeys, horder]
  rfl

theorem Statement.render_writing (t : Statement) : (t.map (writing o)).render o = t.render o := by
  cases t with
  | plain s => exact s.render_writing o
  | countOf s => exact congrArg ("SELECT COUNT(*) FROM (" ++ · ++ ") AS q") (s.render_writing o)
  | foldOf f s =>
    exact congrArg ("SELECT " ++ f.sql ++ "(q." ++ foldedName ++ ") FROM (" ++ · ++ ") AS q") (s.render_writing o)

end

/-- What is compiled is what is lowered, written. -/
theorem Expr.compile_eq_lower (e : Expr) (o : Options) :
    e.compile o = (do
      let t : Lowered ← e.lower
      pure (t.compiled o)) := by
  rw [compile, lower_map (SqlAlgebra.writing o)]
  cases (e.lower : Except Fault Lowered) with
  | error f => rfl
  | ok t =>
    show Except.ok (Lowered.compiled o (t.map (SqlAlgebra.writing o))) = Except.ok (t.compiled o)
    rw [Lowered.compiled, Lowered.map, Statement.render_writing]
    rfl

/-! ## Clauses put together -/

/-- Clauses with a root are put together if it is settled what is selected. -/
theorem Clauses.assemble_eq_ok_iff {c : Clauses} {t : Lowered} :
    c.assemble = .ok t ↔ ∃ root items shape, c.root = some root ∧ c.selection root = .ok (items, shape) ∧
      t = ⟨c.statement root items, shape, c.mode, c.top, c.distinct⟩ := by
  rw [assemble]
  cases c.root with
  | none =>
    constructor
    · rintro ⟨⟩
    · rintro ⟨_, _, _, ⟨⟩, -⟩
  | some root =>
    constructor
    · intro h
      obtain ⟨⟨items, shape⟩, hselection, ⟨⟩⟩ := bind_eq_ok.mp h
      exact ⟨root, items, shape, rfl, hselection, rfl⟩
    · rintro ⟨_, items, shape, ⟨⟩, hselection, rfl⟩
      exact bind_eq_ok.mpr ⟨(items, shape), hselection, rfl⟩

/-- A query for rows, all of them or the first, is neither a count nor a fold. -/
theorem Clauses.count_fold_of_mode {c : Clauses} (h : c.mode = .rows ∨ c.mode = .first) :
    c.count = false ∧ c.fold = none := by
  rw [mode] at h
  cases hcount : c.count <;> cases hfold : c.fold <;> simp_all

/-- It is a block with the select list, limited and sorted. -/
theorem Clauses.statement_of_mode {c : Clauses} (h : c.mode = .rows ∨ c.mode = .first) (root : TableRef)
    (items : List SelectItem) : c.statement root items = .plain (c.block root (.items items) true true) := by
  rw [statement]
  rcases h with hmode | hmode <;> rw [hmode]

namespace Expr

variable {e : Expr} {o : Options}

theorem compile_eq_error {f : Fault} (h : e.lower = .error f) : e.compile o = .error f := by
  rw [compile_eq_lower, h]
  rfl

theorem compile_eq_ok {t : Lowered} (h : e.lower = .ok t) : e.compile o = .ok (t.compiled o) := by
  rw [compile_eq_lower, h]
  rfl

/-- What compiles has been lowered, and its statement has been written. -/
theorem lower_of_compile_eq_ok {compiled : Compiled} (h : e.compile o = .ok compiled) :
    ∃ t, e.lower = .ok t ∧ compiled = t.compiled o := by
  cases ht : e.lower with
  | error f =>
    rw [compile_eq_error ht] at h
    cases h
  | ok t =>
    rw [compile_eq_ok ht] at h
    cases h
    exact ⟨t, rfl, rfl⟩

/-- A tree that is lowered has been run, and its clauses have been put together. -/
theorem lower_eq_ok {t : Lowered} (h : e.lower = .ok t) :
    ∃ r c, ExceptT.run (e.rowOf []) Clauses.empty = (.ok r, c) ∧ c.assemble = .ok t := by
  rw [lower, clausesOf] at h
  rcases hrun : ExceptT.run (e.rowOf []) Clauses.empty with ⟨r, c⟩
  cases r with
  | ok r =>
    rw [show (e.rowOf []).run Clauses.empty = (.ok r, c) from hrun] at h
    exact ⟨r, c, rfl, h⟩
  | error f =>
    rw [show (e.rowOf []).run Clauses.empty = (.error f, c) from hrun] at h
    cases h

/-- Under any two options a tree fails with the same fault, or compiles to the same mode, limit, distinctness and
shape, and the two texts are one statement written in two ways. -/
theorem compile_options (e : Expr) (o o' : Options) :
    (∃ f, e.compile o = .error f ∧ e.compile o' = .error f) ∨
      ∃ (a b : Compiled) (s : Statement), e.compile o = .ok a ∧ e.compile o' = .ok b ∧
        a.mode = b.mode ∧ a.top = b.top ∧ a.distinct = b.distinct ∧ a.shape = b.shape ∧
        a.sql = s.render o ∧ b.sql = s.render o' := by
  cases h : e.lower with
  | error f => exact Or.inl ⟨f, compile_eq_error h, compile_eq_error h⟩
  | ok t =>
    exact Or.inr ⟨t.compiled o, t.compiled o', t.statement, compile_eq_ok h, compile_eq_ok h, rfl, rfl, rfl, rfl,
      rfl, rfl⟩

end Expr

end QueryChain
