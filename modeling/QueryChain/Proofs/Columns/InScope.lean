import QueryChain.Proofs.Columns.Joinless
import QueryChain.Proofs.Lowering.Compiled
import QueryChain.Tree.Build

/-!
# Every column is in scope

A table is bound under the alias that is next when it is met, and only a join takes an alias; the tables of the
statement are the first one that is bound and the inner tables of the joins. So a column is in scope if joins are met
on the path of sources only, and any other table that is met is the one that has been bound last.

* `Select.InScope`: every column is one of a table of the block, and the keys of a join look to its left only.
* `Expr.Spine`: trees whose joins are on the path of sources.
* `Expr.Spine.inScope`: in the statement of such a tree every column is in scope.
-/

namespace QueryChain

open Lowering Lower

/-! ## Statements -/

/-- The columns that an item refers to. -/
def SelectItem.columns : SelectItem → List (Nat × String)
  | .entity label column => [(label, column)]
  | .bare t | .named t _ | .folded t | .plain t => t.columns

/-- The columns that a select list refers to. -/
def SelectList.columns : SelectList → List (Nat × String)
  | .items list => list.flatMap SelectItem.columns
  | .withFolded list t => list.flatMap SelectItem.columns ++ t.columns

/-- The columns that the condition of a join refers to. -/
def JoinClause.columns (j : JoinClause) : List (Nat × String) :=
  (j.outerKeys ++ j.innerKeys).flatMap Term.columns

namespace Select

/-- The columns that a block refers to outside the conditions of its joins. -/
def columns (q : Select) : List (Nat × String) :=
  q.list.columns ++ (q.filters ++ q.groupKeys ++ q.order.map (·.term)).flatMap Term.columns

/-- The tables of a block from left to right. -/
def tables (q : Select) : List TableRef :=
  q.root :: q.joins.map (·.table)

/-- Every column is one of a table of the block, and in the condition of a join of its own table or one to its left.
-/
structure InScope (q : Select) : Prop where
  columns : ∀ x ∈ q.columns, ∃ t ∈ q.tables, t.Provides x
  conditions : ∀ (i : Nat) (j : JoinClause), q.joins[i]? = some j →
    ∀ x ∈ j.columns, ∃ t ∈ q.tables.take (i + 2), t.Provides x

end Select

/-- The block of a statement; a count or fold around it refers to no table. -/
def Statement.block : Statement → Select
  | .plain q | .countOf q | .foldOf _ q => q

/-! ## Clauses that are settled -/

/-- The columns of some tables, and all joins. -/
def Visible.ofTables (ts : List TableRef) : Visible where
  table := (· ∈ ts)
  column x := ∃ t ∈ ts, t.Provides x
  joined _ := True
  column_of_table t _ ht hx := ⟨t, ht, hx⟩

theorem Visible.ofTables_column {ts ts' : List TableRef} (h : ∀ t ∈ ts, t ∈ ts') (x : Nat × String)
    (hx : (Visible.ofTables ts).column x) : (Visible.ofTables ts').column x := by
  obtain ⟨t, ht, hx⟩ := hx
  exact ⟨t, h t ht, hx⟩

theorem Row.Within.mono_tables {ts ts' : List TableRef} (h : ∀ t ∈ ts, t ∈ ts') {r : Row}
    (hr : r.Within (.ofTables ts)) : r.Within (.ofTables ts') :=
  hr.mono h (Visible.ofTables_column h) fun _ _ => trivial

/-- Trees without joins leave root, aliases and joins alone after the root has been bound. -/
theorem Expr.nodesKeep_frame {V : Visible} {frame : Frame} {table : Model → Prop} (hroot : ∃ t, frame.root = some t)
    (hI : V.Sees (V.Holds (· = frame))) (htable : ∀ m, table m → V.table ⟨m, frame.aliases⟩) :
    NodesKeep V (V.Holds (· = frame)) table IsNoJoin := by
  refine nodesKeep_isNoJoin hI fun m hm => keeps_bindTable ?_
  rintro _ rfl
  obtain ⟨t, ht⟩ := hroot
  refine ⟨htable m hm, ?_⟩
  rw [ht, Option.getD_some, ← ht]

namespace Clauses

/-- The tables of the statement in the making. -/
def tables (c : Clauses) : List TableRef :=
  c.root.toList ++ c.joins.map (·.clause.table)

/-- The root has been bound, the table that has been bound last is a table of the statement and the next alias is
still its own, and all that has been gathered refers to tables of the statement. -/
structure Settled (m : Model) (c : Clauses) : Prop where
  root : ∃ t, c.root = some t
  current : ⟨m, c.aliases⟩ ∈ c.tables
  within : c.Within (Visible.ofTables c.tables).column
  fields : ∀ j ∈ c.joins, ∀ p ∈ j.fields.list, p.2.Within (.ofTables c.tables)
  keys : ∀ (i : Nat) (j : Join), c.joins[i]? = some j → ∀ t ∈ j.clause.outerKeys ++ j.clause.innerKeys,
    t.Within (Visible.ofTables (c.tables.take (i + 2))).column

section

variable {m : Model} {c c' : Clauses}

theorem Settled.length_tables (h : c.Settled m) : c.tables.length = c.joins.length + 1 := by
  obtain ⟨t, ht⟩ := h.root
  rw [tables, ht, List.length_append, List.length_map, Nat.add_comm]
  rfl

theorem Settled.sees (h : c.Settled m) :
    (Visible.ofTables c.tables).Sees ((Visible.ofTables c.tables).Holds (· = c.frame)) := by
  intro c' hc' i j _ hj
  have hjoins : c'.joins = c.joins := congrArg Frame.joins hc'.2
  rw [hjoins] at hj
  exact h.fields j (List.mem_of_getElem? hj)

/-- Trees without joins keep settled clauses settled if they have no table but the one that has been bound last. -/
theorem Settled.nodesKeep (h : c.Settled m) :
    Expr.NodesKeep (.ofTables c.tables) ((Visible.ofTables c.tables).Holds (· = c.frame)) (· = m) Expr.IsNoJoin :=
  Expr.nodesKeep_frame h.root h.sees fun _ hm => hm ▸ h.current

theorem Settled.holds (h : c.Settled m) : (Visible.ofTables c.tables).Holds (· = c.frame) c :=
  ⟨h.within, rfl⟩

theorem Settled.of_holds (h : c.Settled m) (hc' : (Visible.ofTables c.tables).Holds (· = c.frame) c') :
    c'.Settled m ∧ c'.tables = c.tables := by
  obtain ⟨hwithin, hframe⟩ := hc'
  have hroot : c'.root = c.root := congrArg Frame.root hframe
  have haliases : c'.aliases = c.aliases := congrArg Frame.aliases hframe
  have hjoins : c'.joins = c.joins := congrArg Frame.joins hframe
  have htables : c'.tables = c.tables := by rw [tables, tables, hroot, hjoins]
  refine ⟨⟨?_, ?_, ?_, ?_, ?_⟩, htables⟩
  · rw [hroot]
    exact h.root
  · rw [htables, haliases]
    exact h.current
  · rw [htables]
    exact hwithin
  · rw [htables, hjoins]
    exact h.fields
  · rw [htables, hjoins]
    exact h.keys

end

end Clauses

/-! ## Joins on the path of sources -/

namespace Expr

/-- Joins are met only on the path that leads from the root of the tree to a table, through sources of operators,
targets of members and methods, sides of binary operators, functions and quotes. Any other table that is met after a
table is the one that has been bound last, which is of this model at the end. -/
inductive Spine : Model → Expr → Prop
  | table (m : Model) (ty : StaticType) : Spine m (.table m ty)
  | operator {m : Model} {name : String} {source : Expr} {rest : List Expr} (h : Spine m source)
      (hname : QueryOperator.ofName name ≠ some .join) (hrest : EveryArgument (· = m) IsNoJoin rest)
      (ty : StaticType) : Spine m (.operator name (source :: rest) ty)
  | join {m inside : Model} {outer inner outerKey innerKey result : Expr} (h : Spine m outer)
      (hrest : EveryArgument (· = inside) IsNoJoin [inner, outerKey, innerKey, result]) (ty : StaticType) :
      Spine inside (.operator "Join" [outer, inner, outerKey, innerKey, result] ty)
  | field {m : Model} {target : Expr} (h : Spine m target) (name : String) (ty : StaticType) :
      Spine m (.field target name ty)
  | method {m : Model} {target : Expr} {args : List Expr} (h : Spine m target) (name : String)
      (hargs : EveryArgument (· = m) IsNoJoin args) (ty : StaticType) : Spine m (.method target name args ty)
  | left {m : Model} (op : BinaryOp) {l r : Expr} (h : Spine m l) (hr : r.Every (· = m) IsNoJoin) (ty : StaticType) :
      Spine m (.binary op l r ty)
  | right {m : Model} (op : BinaryOp) {l r : Expr} (hl : l.Every (fun _ => False) IsNoJoin) (h : Spine m r)
      (ty : StaticType) : Spine m (.binary op l r ty)
  | lambda {m : Model} (params : List String) {body : Expr} (h : Spine m body) (ty : StaticType) :
      Spine m (.lambda params body ty)
  | quote {m : Model} {inner : Expr} (h : Spine m inner) (ty : StaticType) : Spine m (.quote inner ty)

end Expr

/-- Clauses before the first table is bound. -/
structure Clauses.Fresh (c : Clauses) : Prop where
  frame : c.frame = ⟨none, 0, []⟩
  within : c.Within (Visible.ofTables []).column

section

variable {m : Model} {c c' : Clauses} {r : Row}

/-- After a part of a tree without joins, settled clauses are settled still, and its row is of their tables. -/
theorem Clauses.Settled.run {step : Lower Row} (h : c.Settled m)
    (hstep : Keeps ((Visible.ofTables c.tables).Holds (· = c.frame)) (Row.Within (.ofTables c.tables)) step)
    (hrun : ExceptT.run step c = (.ok r, c')) : c'.Settled m ∧ r.Within (.ofTables c'.tables) := by
  obtain ⟨hr, hc'⟩ := hstep c r c' h.holds hrun
  obtain ⟨hsettled, htables⟩ := h.of_holds hc'
  rw [htables]
  exact ⟨hsettled, hr⟩

/-- Clauses of one table and no join. -/
theorem Clauses.settled_root (hframe : c.frame = ⟨some ⟨m, 0⟩, 0, []⟩)
    (hwithin : c.Within (Visible.ofTables [⟨m, 0⟩]).column) : c.Settled m := by
  have hroot : c.root = some ⟨m, 0⟩ := congrArg Frame.root hframe
  have haliases : c.aliases = 0 := congrArg Frame.aliases hframe
  have hjoins : c.joins = [] := congrArg Frame.joins hframe
  have htables : c.tables = [⟨m, 0⟩] := by
    rw [tables, hroot, hjoins]
    rfl
  refine ⟨⟨_, hroot⟩, ?_, ?_, ?_, ?_⟩
  · rw [htables, haliases]
    exact List.mem_singleton.mpr rfl
  · rw [htables]
    exact hwithin
  · rw [hjoins]
    exact List.forall_mem_nil _
  · rw [hjoins]
    exact fun _ _ hj => absurd hj (by simp)

theorem Clauses.Fresh.within_tables (h : c.Fresh) (ts : List TableRef) : c.Within (Visible.ofTables ts).column :=
  h.within.mono (Visible.ofTables_column fun _ ht => absurd ht List.not_mem_nil)

/-- The first table becomes the root. -/
theorem Clauses.Fresh.run_table (h : c.Fresh) (m : Model) (ty : StaticType) :
    ExceptT.run (Expr.rowOf [] (.table m ty)) c = (.ok (.table ⟨m, 0⟩), { c with root := some ⟨m, 0⟩ }) := by
  have haliases : c.aliases = 0 := congrArg Frame.aliases h.frame
  have hroot : c.root = none := congrArg Frame.root h.frame
  rw [Expr.rowOf, run_bind_of_ok (run_bindTable m c), hroot, haliases]
  rfl

theorem Clauses.Fresh.settled (h : c.Fresh) (m : Model) : { c with root := some ⟨m, 0⟩ }.Settled m := by
  have hwithin := h.within_tables [⟨m, 0⟩]
  refine settled_root ?_ ⟨hwithin.projection, hwithin.filters, hwithin.order, hwithin.groupKeys, hwithin.fold⟩
  exact congrArg (fun f : Frame => { f with root := some ⟨m, 0⟩ }) h.frame

/-- A tree without tables and joins before the first table is bound. -/
theorem Clauses.Fresh.run {e : Expr} (he : e.Every (fun _ => False) Expr.IsNoJoin) (h : c.Fresh)
    (hrun : ExceptT.run (e.rowOf []) c = (.ok r, c')) : c'.Fresh ∧ r.Within (.ofTables []) := by
  have hsees : (Visible.ofTables []).Sees ((Visible.ofTables []).Holds (· = ⟨none, 0, []⟩)) := by
    intro d hd i j _ hj
    have hjoins : d.joins = [] := congrArg Frame.joins hd.2
    rw [hjoins] at hj
    cases hj
  have hnodes : Expr.NodesKeep _ _ (fun _ => False) Expr.IsNoJoin :=
    Expr.nodesKeep_isNoJoin hsees fun _ hm => hm.elim
  obtain ⟨hr, hwithin, hframe⟩ :=
    Expr.keeps_rowOf hnodes e he [] (List.forall_mem_nil _) c r c' ⟨h.within, h.frame⟩ hrun
  exact ⟨⟨hframe, hwithin⟩, hr⟩

/-! ### Joins -/

/-- The operands of a join after its outer side keep an invariant: what the inner side yields, the keys of either side
and the rows of the join are within what is visible to each of them. -/
structure Lower.JoinKeeps (I : Clauses → Prop) (inside left right joined : Visible) (outerRows : Row)
    (inner outerKey innerKey result : Operand) : Prop where
  inner : Keeps I (Row.Within inside) inner.row
  outerKey : Keeps I (Row.Within left) (outerKey.apply [outerRows])
  innerKey : ∀ t, inside.table t → Keeps I (Row.Within right) (innerKey.apply [.table t])
  result : ∀ t, inside.table t → Keeps I (Row.Within joined) (result.apply [outerRows, .table t])
  sees_left : left.Sees I
  sees_right : right.Sees I
  sees_joined : joined.Sees I

/-- Clauses after a join has taken the next alias. -/
def Clauses.entered (c : Clauses) : Clauses := { c with aliases := c.aliases + 1 }

/-- What a join adds, if its operands keep an invariant. -/
theorem run_join_keeps {name : String} {source outer inner outerKey innerKey result : Operand}
    (hrun : ExceptT.run (operate name source [outer, inner, outerKey, innerKey, result] .join) c = (.ok r, c')) :
    ∃ outerRows c₁, ExceptT.run outer.row c = (.ok outerRows, c₁) ∧
      ∀ I inside left right joined, I c₁.entered →
        JoinKeeps I inside left right joined outerRows inner outerKey innerKey result →
        ∃ clause fields model c₂, c' = c₂.join ⟨clause, fields, model⟩ ∧ r = .joined c₂.joins.length ∧ I c₂ ∧
          inside.table clause.table ∧ clause.outerKeys.length = clause.innerKeys.length ∧
          (∀ t ∈ clause.outerKeys, t.Within left.column) ∧ (∀ t ∈ clause.innerKeys, t.Within right.column) ∧
          ∀ p ∈ fields.list, p.2.Within joined := by
  obtain ⟨outerRows, table, outerValue, outerKeys, innerValue, innerKeys, selected, fields, passedOn, model, c₁,
    c₂, c₃, c₄, c₅, c₆, c₇, c₈, houter, -, hinner, houterValue, houterKeys, hinnerValue, hinnerKeys, hlength,
    hselected, hfields, hc', hr⟩ := run_join hrun
  refine ⟨outerRows, c₁, houter, fun I inside left right joined hc₁ h => ?_⟩
  obtain ⟨hrow, hc₂⟩ := h.inner _ _ _ hc₁ hinner
  have htable : inside.table table := by
    cases hrow with
    | table ht => exact ht
  obtain ⟨houterRow, hc₃⟩ := h.outerKey c₂ _ c₃ hc₂ houterValue
  obtain ⟨houterTerms, hc₄⟩ := h.sees_left.joinsAre.looks.judged_keyTerms left.closed houterRow c₃ _ c₄ hc₃ houterKeys
  obtain ⟨hinnerRow, hc₅⟩ := h.innerKey table htable c₄ _ c₅ hc₄ hinnerValue
  obtain ⟨hinnerTerms, hc₆⟩ := h.sees_right.joinsAre.looks.judged_keyTerms right.closed hinnerRow c₅ _ c₆ hc₅ hinnerKeys
  obtain ⟨hselectedRow, hc₇⟩ := h.result table htable c₆ _ c₇ hc₆ hselected
  obtain ⟨hfieldRows, hc₈⟩ := h.sees_joined.joinsAre.keeps_joinFields joined.closed hselectedRow c₇ _ c₈ hc₇ hfields
  exact ⟨⟨table, outerKeys, innerKeys⟩, fields, model, c₈, hc', hr, hc₈, htable, hlength, houterTerms, hinnerTerms,
    hfieldRows⟩

/-- The operand that an expression is outside all functions. -/
def Expr.operand (e : Expr) : Operand := ⟨e, e.rowOf [], fun rows => e.applyTo [] rows⟩

/-- The operands of a join keep an invariant if their tables and operators do. -/
theorem Expr.joinKeeps {I : Clauses → Prop} {inside left right joined : Visible} {table keyTable : Model → Prop}
    {operator keyOperator : String → List Expr → Prop} {inner outerKey innerKey result : Expr}
    (hinside : NodesKeep inside I table operator) (hleft : NodesKeep left I keyTable keyOperator)
    (hright : NodesKeep right I keyTable keyOperator) (hjoined : NodesKeep joined I table operator)
    (hrows : r.Within left ∧ r.Within joined) (htable : ∀ t, inside.table t → right.table t ∧ joined.table t)
    (hinner : inner.Every table operator) (houterKey : outerKey.Every keyTable keyOperator)
    (hinnerKey : innerKey.Every keyTable keyOperator) (hresult : result.Every table operator) :
    JoinKeeps I inside left right joined r inner.operand outerKey.operand innerKey.operand result.operand where
  inner := keeps_rowOf hinside inner hinner [] (List.forall_mem_nil _)
  outerKey := keeps_applyTo hleft outerKey houterKey [] (List.forall_mem_nil _) [r]
    (List.forall_mem_singleton.mpr hrows.1)
  innerKey t ht := keeps_applyTo hright innerKey hinnerKey [] (List.forall_mem_nil _) [.table t]
    (List.forall_mem_singleton.mpr (.table (htable t ht).1))
  result t ht := keeps_applyTo hjoined result hresult [] (List.forall_mem_nil _) [r, .table t]
    (List.forall_mem_cons.mpr ⟨hrows.2, List.forall_mem_singleton.mpr (.table (htable t ht).2)⟩)
  sees_left := hleft.sees
  sees_right := hright.sees
  sees_joined := hjoined.sees

/-- Of the tables, only the inner table of a join; it may be one of several whose columns are visible. -/
def Visible.innerTable (ts : List TableRef) (t : TableRef) (ht : t ∈ ts) : Visible where
  table := (· = t)
  column := (Visible.ofTables ts).column
  joined _ := False
  column_of_table _ _ hu hx := ⟨t, ht, hu ▸ hx⟩

variable {inside : Model} {t : TableRef}

/-- After a join has taken the next alias, more columns are visible. -/
theorem Clauses.Within.entered {column column' : Nat × String → Prop} (h : ∀ x, column x → column' x)
    (hc : c.Within column) : c.entered.Within column' :=
  let hmono := hc.mono h
  ⟨hmono.projection, hmono.filters, hmono.order, hmono.groupKeys, hmono.fold⟩

/-- The operands of a join on the path of sources keep to the tables before it and to its own. -/
theorem Clauses.Settled.joinKeeps (h : c.Settled m) {inner outerKey innerKey result : Expr}
    (hr : r.Within (.ofTables c.tables)) (ht : t = ⟨inside, c.aliases + 1⟩) (hmem : t ∈ c.tables ++ [t])
    (hrest : Expr.EveryArgument (· = inside) Expr.IsNoJoin [inner, outerKey, innerKey, result]) :
    JoinKeeps ((Visible.ofTables (c.tables ++ [t])).Holds (· = c.entered.frame)) (.innerTable (c.tables ++ [t]) t hmem)
      (.ofTables (c.tables ++ [t])) (.ofTables (c.tables ++ [t])) (.ofTables (c.tables ++ [t])) r inner.operand
      outerKey.operand innerKey.operand result.operand := by
  obtain ⟨hinner, houterKey, hinnerKey, hresult, -⟩ := hrest
  have hrows : r.Within (.ofTables (c.tables ++ [t])) := hr.mono_tables fun u hu => List.mem_append_left _ hu
  have hsees : (Visible.ofTables (c.tables ++ [t])).Sees
      ((Visible.ofTables (c.tables ++ [t])).Holds (· = c.entered.frame)) := by
    intro d hd i j _ hj p hp
    have hjoins : d.joins = c.joins := congrArg Frame.joins hd.2
    rw [hjoins] at hj
    exact (h.fields j (List.mem_of_getElem? hj) p hp).mono_tables fun u hu => List.mem_append_left _ hu
  have hnodes : Expr.NodesKeep _ _ (· = inside) Expr.IsNoJoin :=
    Expr.nodesKeep_frame h.root hsees fun _ hm => hm ▸ ht ▸ hmem
  have hinside : Expr.NodesKeep (.innerTable (c.tables ++ [t]) t hmem)
      (Visible.Holds (.innerTable (c.tables ++ [t]) t hmem) (· = c.entered.frame)) (· = inside) Expr.IsNoJoin :=
    Expr.nodesKeep_frame h.root (fun _ _ _ _ hj => hj.elim) fun _ hm => hm ▸ ht.symm
  exact Expr.joinKeeps hinside hnodes hnodes hnodes ⟨hrows, hrows⟩ (fun u hu => ⟨hu ▸ hmem, hu ▸ hmem⟩) hinner
    houterKey hinnerKey hresult

/-- A join of a list with one more is one of the list or the last one. -/
theorem getElem?_concat_cases {α : Type} {list : List α} {last a : α} {i : Nat} (h : (list ++ [last])[i]? = some a) :
    list[i]? = some a ∨ i = list.length ∧ a = last := by
  rcases Nat.lt_trichotomy i list.length with hi | rfl | hi
  · rw [List.getElem?_append_left hi] at h
    exact Or.inl h
  · rw [List.getElem?_concat_length] at h
    exact Or.inr ⟨rfl, (Option.some.inj h).symm⟩
  · have hlast := (List.getElem?_eq_some_iff.mp h).1
    rw [List.length_append, List.length_singleton] at hlast
    omega

/-- Clauses that have been joined to a table after settled ones are settled. -/
theorem Clauses.Settled.join (h : c.Settled m) (ht : t = ⟨inside, c.aliases + 1⟩) {clause : JoinClause}
    {fields : Entries} {model : Model} (hc' : (Visible.ofTables (c.tables ++ [t])).Holds (· = c.entered.frame) c')
    (hclause : clause.table = t)
    (hkeys : ∀ u ∈ clause.outerKeys ++ clause.innerKeys, u.Within (Visible.ofTables (c.tables ++ [t])).column)
    (hfields : ∀ p ∈ fields.list, p.2.Within (.ofTables (c.tables ++ [t]))) :
    (c'.join ⟨clause, fields, model⟩).Settled inside := by
  have hroot : c'.root = c.root := congrArg Frame.root hc'.2
  have haliases : c'.aliases = c.aliases + 1 := congrArg Frame.aliases hc'.2
  have hjoins : c'.joins = c.joins := congrArg Frame.joins hc'.2
  have htables : (c'.join ⟨clause, fields, model⟩).tables = c.tables ++ [t] := by
    rw [tables, tables, Clauses.join, hroot, hjoins, List.map_append, ← List.append_assoc, ← hclause]
    rfl
  refine ⟨?_, ?_, ?_, ?_, ?_⟩
  · rw [Clauses.join, hroot]
    exact h.root
  · rw [htables, Clauses.join, haliases, ← ht]
    exact List.mem_append_right _ (List.mem_singleton.mpr rfl)
  · rw [htables]
    exact hc'.1.join _
  · rw [htables, Clauses.join, hjoins]
    refine List.forall_mem_append.mpr ⟨fun j hj p hp => ?_, List.forall_mem_singleton.mpr hfields⟩
    exact (h.fields j hj p hp).mono_tables fun u hu => List.mem_append_left _ hu
  · intro i j hj
    rw [Clauses.join, hjoins] at hj
    have hlength := h.length_tables
    rw [htables]
    rcases getElem?_concat_cases hj with hj | ⟨rfl, rfl⟩
    · have hi := (List.getElem?_eq_some_iff.mp hj).1
      rw [List.take_append_of_le_length (by omega)]
      exact h.keys i j hj
    · rw [List.take_of_length_le (by rw [List.length_append, List.length_singleton]; omega)]
      exact hkeys

/-- Where joins are on the path of sources, lowering leaves settled clauses and a row of their tables. -/
theorem Expr.Spine.settled {e : Expr} (h : e.Spine m) (hc : c.Fresh)
    (hrun : ExceptT.run (e.rowOf []) c = (.ok r, c')) : c'.Settled m ∧ r.Within (.ofTables c'.tables) := by
  induction h generalizing c r c' with
  | table m ty =>
    rw [hc.run_table] at hrun
    cases hrun
    exact ⟨hc.settled m, .table (List.mem_append_left _ (List.mem_singleton.mpr rfl))⟩
  | @operator m name source rest h hname hrest ty ih =>
    obtain ⟨rows, c₁, hsource, hcall⟩ := run_callOperator_source hname hrun
    obtain ⟨hsettled, hrows⟩ := ih hc hsource
    have hoperands := keeps_operandsOf hsettled.nodesKeep rest hrest [] (List.forall_mem_nil _)
    exact hsettled.run (keeps_callOperator hsettled.sees hname (keeps_pure hrows) hoperands) hcall
  | @join m inside outer inner outerKey innerKey result h hrest ty ih =>
    rw [rowOf, operandsOf, callOperator_cons (show QueryOperator.ofName "Join" = some .join from rfl) rfl] at hrun
    obtain ⟨outerRows, c₁, houter, hkeeps⟩ := run_join_keeps hrun
    obtain ⟨hsettled, houterRows⟩ := ih hc houter
    let t : TableRef := ⟨inside, c₁.aliases + 1⟩
    have hmem : t ∈ c₁.tables ++ [t] := List.mem_append_right _ (List.mem_singleton.mpr rfl)
    have hentered : (Visible.ofTables (c₁.tables ++ [t])).Holds (· = c₁.entered.frame) c₁.entered :=
      ⟨hsettled.within.entered (Visible.ofTables_column fun _ hu => List.mem_append_left _ hu), rfl⟩
    obtain ⟨clause, fields, model, c₂, rfl, rfl, hc₂, htable, -, houterKeys, hinnerKeys, hfields⟩ :=
      hkeeps _ _ _ _ _ hentered (hsettled.joinKeeps houterRows rfl hmem hrest)
    exact ⟨hsettled.join rfl hc₂ htable (List.forall_mem_append.mpr ⟨houterKeys, hinnerKeys⟩) hfields, .joined trivial⟩
  | @field m target h name ty ih =>
    obtain ⟨r₁, c₁, htarget, hmember⟩ := run_bind_eq_ok.mp hrun
    obtain ⟨hsettled, hr₁⟩ := ih hc htarget
    exact hsettled.run (hsettled.sees.joinsAre.looks.judged_memberOf (Visible.closed _) hr₁ name) hmember
  | @method m target args h name hargs ty ih =>
    obtain ⟨r₁, c₁, htarget, hrest⟩ := run_bind_eq_ok.mp hrun
    obtain ⟨hsettled, hr₁⟩ := ih hc htarget
    have hkeeps := keeps_rowsOf hsettled.nodesKeep args hargs [] (List.forall_mem_nil _)
    exact hsettled.run
      (hkeeps.bind fun rows hrows => keeps_rules.judged_callMethod (Visible.closed _) name hr₁ hrows) hrest
  | @left m op left right h hright ty ih =>
    obtain ⟨r₁, c₁, hleft, hrest⟩ := run_bind_eq_ok.mp hrun
    obtain ⟨hsettled, hr₁⟩ := ih hc hleft
    have hkeeps := keeps_rowOf hsettled.nodesKeep right hright [] (List.forall_mem_nil _)
    exact hsettled.run (hkeeps.bind fun r₂ hr₂ => keeps_rules.judged_combine (Visible.closed _) op _ hr₁ hr₂) hrest
  | @right m op left right hleft h ty ih =>
    obtain ⟨r₁, c₁, hrun₁, hrest⟩ := run_bind_eq_ok.mp hrun
    obtain ⟨hfresh, hr₁⟩ := hc.run hleft hrun₁
    obtain ⟨r₂, c₂, hrun₂, hcombine⟩ := run_bind_eq_ok.mp hrest
    obtain ⟨hsettled, hr₂⟩ := ih hfresh hrun₂
    have hrow₁ : r₁.Within (.ofTables c₂.tables) := hr₁.mono_tables fun t ht => absurd ht List.not_mem_nil
    exact hsettled.run (keeps_rules.judged_combine (Visible.closed _) op _ hrow₁ hr₂) hcombine
  | lambda params h ty ih => exact ih hc hrun
  | quote h ty ih => exact ih hc hrun

/-- A tree without joins that has one table only, though it may be met several times. -/
theorem Expr.Every.settled {e : Expr} (h : e.Every (· = m) IsNoJoin) (hc : c.Fresh)
    (hrun : ExceptT.run (e.rowOf []) c = (.ok r, c')) (hroot : ∃ t, c'.root = some t) : c'.Settled m := by
  let V : Visible := .ofTables [⟨m, 0⟩]
  let F : Frame → Prop := fun f => f.aliases = 0 ∧ f.joins = [] ∧ (f.root = none ∨ f.root = some ⟨m, 0⟩)
  have hsees : V.Sees (V.Holds F) := by
    rintro d ⟨-, -, hjoins, -⟩ i j _ hj
    have hnone : d.joins = [] := hjoins
    rw [hnone] at hj
    cases hj
  have hnodes : NodesKeep V (V.Holds F) (· = m) IsNoJoin := by
    refine nodesKeep_isNoJoin hsees ?_
    rintro _ rfl
    refine keeps_bindTable ?_
    rintro f ⟨haliases, hjoins, hbound⟩
    rw [haliases]
    refine ⟨List.mem_singleton.mpr rfl, rfl, hjoins, Or.inr ?_⟩
    rcases hbound with hnone | hsome
    · rw [hnone, Option.getD_none]
    · rw [hsome, Option.getD_some]
  have hfresh : V.Holds F c :=
    ⟨hc.within_tables _, congrArg Frame.aliases hc.frame, congrArg Frame.joins hc.frame,
      Or.inl (congrArg Frame.root hc.frame)⟩
  obtain ⟨-, hwithin, haliases, hjoins, hbound⟩ :=
    keeps_rowOf hnodes e h [] (List.forall_mem_nil _) c r c' hfresh hrun
  obtain ⟨t, ht⟩ := hroot
  have hsome : c'.frame.root = some ⟨m, 0⟩ := hbound.resolve_left fun hnone => by
    rw [show c'.frame.root = some t from ht] at hnone
    cases hnone
  refine Clauses.settled_root ?_ hwithin
  rw [← hsome, ← haliases, ← hjoins]

end

/-! ## Statements of settled clauses -/

namespace Clauses

variable {P : Nat × String → Prop}

theorem columns_selectedTerm {r : Row} {t : Term} (h : selectedTerm r = .ok t)
    (hr : ∀ u, r = .term u → u.Within P) : ∀ x ∈ t.columns, P x := by
  cases r with
  | term u =>
    cases h
    exact hr t rfl
  | scalar v =>
    obtain ⟨_, -, ⟨⟩⟩ := bind_eq_ok.mp h
    exact List.forall_mem_nil _
  | _ => cases h

theorem columns_memberItems {list : List (String × Row)} {items : List SelectItem} (h : memberItems list = .ok items)
    (hlist : ∀ name t, (name, .term t) ∈ list → t.Within P) : ∀ x ∈ items.flatMap SelectItem.columns, P x := by
  induction list generalizing items with
  | nil =>
    cases h
    exact List.forall_mem_nil _
  | cons p rest ih =>
    obtain ⟨name, r⟩ := p
    obtain ⟨t, ht, h⟩ := bind_eq_ok.mp h
    obtain ⟨items, hitems, ⟨⟩⟩ := bind_eq_ok.mp h
    rw [List.flatMap_cons]
    refine List.forall_mem_append.mpr ⟨columns_selectedTerm ht fun u hu => hlist name u ?_, ih hitems ?_⟩
    · rw [hu]
      exact List.mem_cons_self
    · exact fun name u hu => hlist name u (List.mem_cons_of_mem _ hu)

theorem Settled.columns_selection {m : Model} {c : Clauses} (h : c.Settled m) {root : TableRef}
    (hroot : c.root = some root) {items : List SelectItem} {shape : RowShape}
    (hselection : c.selection root = .ok (items, shape)) :
    ∀ x ∈ items.flatMap SelectItem.columns, (Visible.ofTables c.tables).column x := by
  rw [selection] at hselection
  split at hselection
  · rename_i type value hprojection
    obtain ⟨t, ht, ⟨⟩⟩ := bind_eq_ok.mp hselection
    rw [List.flatMap_singleton]
    refine columns_selectedTerm ht fun u hu => ?_
    rcases h.within.projection _ hprojection with ⟨u', rfl, hu'⟩ | ⟨v, rfl⟩
    · cases hu
      exact hu'
    · cases hu
  · rename_i positional model fields hprojection
    obtain ⟨items', hitems, hrest⟩ := bind_eq_ok.mp hselection
    have hcolumns := columns_memberItems hitems (h.within.projection _ hprojection)
    split at hrest
    · obtain ⟨_, -, ⟨⟩⟩ := bind_eq_ok.mp hrest
      exact hcolumns
    · obtain ⟨_, -, ⟨⟩⟩ := bind_eq_ok.mp hrest
      exact hcolumns
  · rename_i j _ hj
    obtain ⟨items', hitems, hrest⟩ := bind_eq_ok.mp hselection
    have hcolumns := columns_memberItems hitems fun name t ht => by
      cases h.fields j (List.mem_of_getLast? hj) _ ht with
      | term hterm => exact hterm
    split at hrest
    · obtain ⟨_, -, ⟨⟩⟩ := bind_eq_ok.mp hrest
      exact hcolumns
    · obtain ⟨_, -, ⟨⟩⟩ := bind_eq_ok.mp hrest
      exact hcolumns
  · rename_i key _ _ hkey
    cases hselection
    rw [List.flatMap_singleton]
    exact h.within.groupKeys key (List.mem_of_getLast? hkey)
  · cases hselection
    intro x hx
    obtain ⟨item, hitem, hx⟩ := List.mem_flatMap.mp hx
    obtain ⟨f, hf, rfl⟩ := List.mem_map.mp hitem
    rw [List.mem_singleton.mp hx]
    refine ⟨root, ?_, rfl, f, hf, rfl⟩
    rw [tables, hroot]
    exact List.mem_cons_self

/-- The block of a statement has the tables and conditions of the clauses, and a select list that refers to what the
items and the fold refer to. -/
theorem block_statement {c : Clauses} (root : TableRef) {items : List SelectItem}
    (hitems : ∀ x ∈ items.flatMap SelectItem.columns, P x) (hfold : ∀ f t, c.fold = some (f, t) → t.Within P) :
    ∃ list limited ordered, (c.statement root items).block = c.block root list limited ordered ∧
      ∀ x ∈ list.columns, P x := by
  have hone (f : Aggregate) (t : Term) (ht : t.Within P) : ∀ x ∈ (c.foldedList items t).columns, P x := by
    rw [foldedList]
    split
    · exact List.forall_mem_append.mpr ⟨hitems, ht⟩
    · rw [SelectList.columns, List.flatMap_singleton]
      exact ht
  rw [statement]
  split
  · split
    · exact ⟨_, _, _, rfl, hitems⟩
    · exact ⟨_, _, _, rfl, List.forall_mem_nil _⟩
  · rename_i f argument _ hargument
    split
    · exact ⟨_, _, _, rfl, hone f argument (hfold f argument hargument)⟩
    · refine ⟨_, _, _, rfl, ?_⟩
      rw [SelectList.columns, List.flatMap_singleton]
      exact hfold f argument hargument
  · exact ⟨_, _, _, rfl, hitems⟩

/-- Settled clauses make up a statement in which every column is in scope. -/
theorem Settled.inScope_statement {m : Model} {c : Clauses} (h : c.Settled m) {t : Lowered} (ht : c.assemble = .ok t) :
    t.statement.block.InScope := by
  obtain ⟨root, items, shape, hroot, hselection, rfl⟩ := assemble_eq_ok_iff.mp ht
  obtain ⟨list, limited, ordered, hblock, hlist⟩ :=
    block_statement root (h.columns_selection hroot hselection) h.within.fold
  have htables : (c.block root list limited ordered).tables = c.tables := by
    rw [Select.tables, tables, hroot, block, List.map_map]
    rfl
  show (c.statement root items).block.InScope
  rw [hblock]
  constructor
  · rw [htables, Select.columns, block]
    refine List.forall_mem_append.mpr ⟨hlist, fun x hx => ?_⟩
    obtain ⟨u, hu, hxu⟩ := List.mem_flatMap.mp hx
    rcases List.mem_append.mp hu with hu | hu
    · exact List.forall_mem_append.mpr ⟨h.within.filters, h.within.groupKeys⟩ u hu x hxu
    · obtain ⟨k, hk, rfl⟩ := List.mem_map.mp hu
      cases ordered with
      | true => exact h.within.order k hk x hxu
      | false => cases hk
  · rw [htables]
    intro i clause hclause x hx
    obtain ⟨j, hj, rfl⟩ : ∃ j, c.joins[i]? = some j ∧ j.clause = clause := by
      rw [block, List.getElem?_map] at hclause
      exact Option.map_eq_some_iff.mp hclause
    obtain ⟨u, hu, hx⟩ := List.mem_flatMap.mp hx
    exact h.keys i j hj u hu x hx

end Clauses

namespace Expr

/-- In the statement of a tree with its joins on the path of sources, or of one without joins that has one table only,
every column is one of a table of the block, and the condition of a join looks at its own table and those to its left.
-/
theorem Spine.inScope {e : Expr} {m : Model} (h : e.Spine m ∨ e.Every (· = m) IsNoJoin) {o : Options}
    {compiled : Compiled} (hcompiled : e.compile o = .ok compiled) :
    ∃ t, e.lower = .ok t ∧ compiled.sql = t.statement.render o ∧ t.statement.block.InScope := by
  obtain ⟨t, ht, rfl⟩ := lower_of_compile_eq_ok hcompiled
  obtain ⟨r, c, hrun, hassemble⟩ := lower_eq_ok ht
  have hfresh : Clauses.empty.Fresh := ⟨rfl, Clauses.within_empty _⟩
  refine ⟨t, ht, rfl, ?_⟩
  rcases h with hspine | hevery
  · exact (hspine.settled hfresh hrun).1.inScope_statement hassemble
  · refine (hevery.settled hfresh hrun ?_).inScope_statement hassemble
    obtain ⟨root, _, _, hroot, -⟩ := Clauses.assemble_eq_ok_iff.mp hassemble
    exact ⟨root, hroot⟩

/-! ### Customers and orders -/

namespace Shop

def customer : Model := .dynamic (.schema "Customer") "Customer" "Customers" [("Id", "Id", some .int)] none

def order : Model :=
  .dynamic (.schema "Order") "Order" "Orders"
    [("Id", "Id", some .int), ("CustomerId", "CustomerId", some .int), ("Total", "Total", some .float)] none

def shipment : Model :=
  .dynamic (.schema "Shipment") "Shipment" "Shipment" [("Id", "Id", some .int), ("OrderId", "OrderId", some .int)] none

/-- A member of a row of a model, as a function. -/
def memberOf (m : Model) (name : String) : Expr := function ["x"] ((param "x" (.model m)).member name)

/-- The pairs of rows of two sources with these members equal, as the rows of the right side. -/
def rightOf (outer inner : Expr) (m n : Model) (outerKey innerKey : String) : Expr :=
  .operator "Join" [outer, inner, memberOf m outerKey, memberOf n innerKey, function ["x", "y"] (param "y" (.model n))]
    (.sequence (.model n))

/-- `Customers.Join(Orders, …).Where(o => o.Total > 1)`. -/
def bigOrders : Expr :=
  .operator "Where" [rightOf (ofTable customer) (ofTable order) customer order "Id" "CustomerId",
    function ["o"] (.applyOp .gt ((param "o" (.model order)).member "Total") (.ofValue (.int 1)))]
    (.sequence (.model order))

theorem inScope_bigOrders :
    bigOrders.Spine order ∧ ∃ t compiled, bigOrders.compile .standard = .ok compiled ∧ bigOrders.lower = .ok t ∧
      compiled.sql = t.statement.render .standard ∧ t.statement.block.InScope := by
  have hspine : bigOrders.Spine order := by
    refine .operator (.join (.table customer _) ?_ _) (by decide) ?_ _
    · exact ⟨rfl, trivial, trivial, trivial, trivial⟩
    · exact ⟨⟨trivial, trivial⟩, trivial⟩
  obtain ⟨t, ht, hsql, hscope⟩ := Spine.inScope (Or.inl hspine)
    (show bigOrders.compile .standard = .ok _ from rfl)
  exact ⟨hspine, t, _, rfl, ht, hsql, hscope⟩

/-- Customers, if the greatest total of all orders is over one: `Customers.Where(c => Orders.Max(o => o.Total) > 1)`.
-/
def foldedInside : Expr :=
  .operator "Where" [ofTable customer, function ["c"] (.applyOp .gt
    (.operator "Max" [ofTable order, memberOf order "Total"] (.scalar .float)) (.ofValue (.int 1)))]
    (.sequence (.model customer))

/-- Orders of customers, of those orders that have a shipment: the inner side of the join is a join. -/
def joinedInside : Expr :=
  .operator "Join" [ofTable customer,
    .operator "Select" [
      .operator "Join" [ofTable order, ofTable shipment, memberOf order "Id", memberOf shipment "OrderId",
        function ["o", "s"]
          (.newObject (.anonymous .projection [("O", none)]) .named [("O", param "o" (.model order))])] .unknown,
      function ["x"] ((param "x" .unknown).member "O")] .unknown,
    memberOf customer "Id", memberOf order "CustomerId", function ["c", "o"] (param "o" (.model order))] .unknown

/-- The table of an aggregate inside a condition is no table of the statement, and the join on an inner side comes
before the table that its condition looks at. -/
theorem not_inScope :
    (∃ t, foldedInside.lower = .ok t ∧ ¬ t.statement.block.InScope) ∧
      ∃ t, joinedInside.lower = .ok t ∧ ¬ t.statement.block.InScope := by
  constructor
  · refine ⟨_, rfl, fun h => ?_⟩
    obtain ⟨t, ht, -, f, hf, hcolumn⟩ := h.columns (0, "Total") (by decide)
    obtain rfl := List.mem_singleton.mp ht
    have hnone : ∀ f ∈ customer.fields, f.column ≠ "Total" := by decide
    exact hnone f hf hcolumn
  · refine ⟨_, rfl, fun h => ?_⟩
    obtain ⟨t, ht, hlabel, -⟩ := h.conditions 0 _ rfl (1, "Id") (by decide)
    have hnone : ∀ u ∈ [(⟨customer, 0⟩ : TableRef), ⟨shipment, 2⟩], u.label ≠ 1 := by decide
    exact hnone t ht hlabel.symm

end Shop

end Expr

end QueryChain
