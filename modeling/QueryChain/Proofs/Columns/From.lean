import Mathlib.Data.List.Nodup
import QueryChain.Proofs.Columns.InScope

/-!
# The tables of a chain of operators

Along a chain of operators each join takes the next alias, so tables are numbered from left to right. The outer keys
of a join look at the tables before it, its inner keys at its own, and the conditions compare them pair by pair.
Whether joins are nested decides on parentheses in the text after `FROM` and on nothing else.

* `Select.JoinsInOrder`: a block of numbered tables whose joins compare what is on their left with their own table.
* `Expr.JoinChain`: chains of operators with a number of joins.
* `Statement.render_nestJoins`: a statement with and without nested joins.
* `Expr.JoinChain.writtenInOrder`: the tables, conditions and text of a chain.
-/

namespace QueryChain

open Lowering Lower

/-! ## Numbered tables -/

/-- The condition of a join compares outer keys that look at tables before its own with inner keys that look at its
own, pair by pair. -/
structure JoinClause.ComparesLeft (n : Nat) (j : JoinClause) : Prop where
  outerKeys : ∀ t ∈ j.outerKeys, t.Within (·.1 < n)
  innerKeys : ∀ t ∈ j.innerKeys, t.Within (·.1 = n)
  outer_of_pairs : j.pairs.map Prod.fst = j.outerKeys
  inner_of_pairs : j.pairs.map Prod.snd = j.innerKeys

theorem JoinClause.ComparesLeft.of_length {n : Nat} {j : JoinClause} (houter : ∀ t ∈ j.outerKeys, t.Within (·.1 < n))
    (hinner : ∀ t ∈ j.innerKeys, t.Within (·.1 = n)) (hlength : j.outerKeys.length = j.innerKeys.length) :
    j.ComparesLeft n where
  outerKeys := houter
  innerKeys := hinner
  outer_of_pairs := List.map_fst_zip (Nat.le_of_eq hlength)
  inner_of_pairs := List.map_snd_zip (Nat.le_of_eq hlength.symm)

/-- The tables of a block are numbered from left to right, the last one by this number, and each join compares what is
on its left with its own table. -/
structure Select.JoinsInOrder (n : Nat) (q : Select) : Prop where
  labels : q.tables.map (·.label) = List.range (n + 1)
  conditions : ∀ (i : Nat) (j : JoinClause), q.joins[i]? = some j → j.ComparesLeft (i + 1)

/-- Aliases with the same text have the same number. -/
theorem Options.label_injective (o : Options) : Function.Injective o.label := by
  intro i j h
  have hlist := congrArg String.toList h
  rw [label, label, String.toList_append, String.toList_append] at hlist
  have hdigits := congrArg (fun ds => Nat.ofDigitChars 10 ds 0) (List.append_cancel_left hlist)
  simpa [Nat.toString_eq_ofList_toDigits] using hdigits

theorem Select.JoinsInOrder.length_joins {n : Nat} {q : Select} (h : q.JoinsInOrder n) : q.joins.length = n := by
  have hlength := congrArg List.length h.labels
  rw [Select.tables, List.length_map, List.length_cons, List.length_map, List.length_range] at hlength
  exact Nat.succ.inj hlength

theorem Select.JoinsInOrder.aliases {n : Nat} {q : Select} (h : q.JoinsInOrder n) (o : Options) :
    q.tables.map (fun t => o.label t.label) = (List.range (n + 1)).map o.label := by
  rw [← h.labels, List.map_map]
  rfl

/-! ## Text -/

section

variable (o : Options) (nested : Bool)

/-- Only the text after `FROM` goes by whether joins are nested. -/
theorem Term.render_nestJoins (t : Term) : t.render { o with nestJoins := nested } = t.render o := by
  induction t with
  | column label name => rfl
  | literal v => rfl
  | countAll => rfl
  | _ => simp only [render, *]

theorem SelectList.render_nestJoins (joined : Bool) (list : SelectList) :
    list.render { o with nestJoins := nested } joined = list.render o joined := by
  have hselected (t : Term) : t.renderSelected { o with nestJoins := nested } joined = t.renderSelected o joined := by
    cases t with
    | column label name => rfl
    | _ => exact Term.render_nestJoins o nested _
  have hitem (item : SelectItem) : item.render { o with nestJoins := nested } joined = item.render o joined := by
    cases item with
    | entity label column => rfl
    | bare t => exact hselected t
    | named t name => simp only [SelectItem.render, SqlText.selected, hselected]
    | folded t => simp only [SelectItem.render, SqlText.text, Term.render_nestJoins]
    | plain t => exact Term.render_nestJoins o nested t
  cases list with
  | items list => simp only [render, hitem]
  | withFolded list t => simp only [render, hitem]

theorem JoinClause.render_nestJoins (j : JoinClause) : j.render { o with nestJoins := nested } = j.render o := by
  have hcondition : j.condition { o with nestJoins := nested } = j.condition o := by
    simp only [condition, SqlText.text, Term.render_nestJoins]
  show " INNER JOIN " ++ j.table.render o ++ " ON " ++ j.condition { o with nestJoins := nested } = _
  rw [hcondition]
  rfl

theorem renderJoins_cons_cons (j k : JoinClause) (rest : List JoinClause) :
    renderJoins o nested (j :: k :: rest) =
      j.render o ++ (if nested then ")" else "") ++ renderJoins o nested (k :: rest) :=
  rfl

theorem renderJoins_nestJoins (parens : Bool) (joins : List JoinClause) :
    renderJoins { o with nestJoins := nested } parens joins = renderJoins o parens joins := by
  induction joins with
  | nil => rfl
  | cons j rest ih =>
    cases rest with
    | nil => exact JoinClause.render_nestJoins o nested j
    | cons k rest => rw [renderJoins_cons_cons, renderJoins_cons_cons, ih, JoinClause.render_nestJoins]

theorem renderJoins_true (joins : List JoinClause) :
    renderJoins o true joins = ")".intercalate (joins.map (·.render o)) := by
  induction joins with
  | nil => rfl
  | cons j rest ih =>
    cases rest with
    | nil => exact String.intercalate_singleton.symm
    | cons k rest =>
      rw [renderJoins_cons_cons, ih, if_pos rfl]
      exact String.intercalate_cons_cons.symm

theorem renderJoins_false (joins : List JoinClause) :
    renderJoins o false joins = String.join (joins.map (·.render o)) := by
  induction joins with
  | nil => rfl
  | cons j rest ih =>
    rw [List.map_cons, String.join_cons, ← ih]
    cases rest with
    | nil => exact String.append_empty.symm
    | cons k rest => rw [renderJoins_cons_cons, if_neg Bool.false_ne_true, String.append_empty]

/-- Nested joins: as many parentheses before the first table as there are joins but one, and one after each join but
the last. -/
theorem renderFrom_nested (root : TableRef) (joins : List JoinClause) :
    renderFrom { o with nestJoins := true } root joins =
      String.ofList (List.replicate (joins.length - 1) '(') ++ root.render o ++
        ")".intercalate (joins.map (·.render o)) := by
  rw [renderFrom, renderJoins_nestJoins]
  rcases Nat.lt_or_ge 1 joins.length with h | h
  · simp only [h, decide_true, Bool.and_self, if_true, renderJoins_true]
    rfl
  · -- with one join at most there is nothing between joins
    have hparens : joins.length - 1 = 0 := by omega
    have hjoins : renderJoins o false joins = renderJoins o true joins := by
      rcases joins with _ | ⟨j, _ | ⟨k, rest⟩⟩
      · rfl
      · rfl
      · rw [List.length_cons, List.length_cons] at h
        omega
    simp only [Nat.not_lt.mpr h, decide_false, Bool.and_false, Bool.false_eq_true, if_false, hparens, hjoins,
      renderJoins_true]
    rfl

/-- Joins that are not nested follow one another. -/
theorem renderFrom_flat (root : TableRef) (joins : List JoinClause) :
    renderFrom { o with nestJoins := false } root joins = root.render o ++ String.join (joins.map (·.render o)) := by
  show "" ++ root.render o ++ renderJoins _ false joins = _
  rw [String.empty_append, renderJoins_nestJoins, renderJoins_false]

/-- The text of a block before `FROM`. -/
def Select.beforeFrom (q : Select) : String :=
  "SELECT " ++ (if q.distinct then "DISTINCT " else "") ++
    (match q.top with
      | some n => o.dialect.top n
      | none => "") ++
    q.list.render o (!q.joins.isEmpty)

/-- The text of a row limit at the end of a block. -/
def Select.limitText (q : Select) : String :=
  match q.top with
  | some n => o.dialect.limit n
  | none => ""

/-- The text of a block after its joins. -/
def Select.afterFrom (q : Select) : String :=
  clause " WHERE " " AND " (q.filters.map (·.render o)) ++
    (clause " GROUP BY " ", " (q.groupKeys.map (·.render o)) ++
      (clause " ORDER BY " ", " (q.order.map (·.render o)) ++ q.limitText o))

theorem Select.render_eq (q : Select) :
    q.render o = q.beforeFrom o ++ " FROM " ++ renderFrom o q.root q.joins ++ q.afterFrom o := by
  show q.beforeFrom o ++ " FROM " ++ renderFrom o q.root q.joins ++
    clause " WHERE " " AND " (q.filters.map (·.render o)) ++
    clause " GROUP BY " ", " (q.groupKeys.map (·.render o)) ++
    clause " ORDER BY " ", " (q.order.map (·.render o)) ++ q.limitText o = _
  simp only [afterFrom, String.append_assoc]

theorem Select.beforeFrom_nestJoins (q : Select) : q.beforeFrom { o with nestJoins := nested } = q.beforeFrom o := by
  rw [beforeFrom, SelectList.render_nestJoins]
  rfl

theorem Select.afterFrom_nestJoins (q : Select) : q.afterFrom { o with nestJoins := nested } = q.afterFrom o := by
  simp only [afterFrom, OrderKey.render, SqlText.text, Term.render_nestJoins]
  rfl

/-- What a count or fold writes before its block. -/
def Statement.opening : Statement → String
  | .plain _ => ""
  | .countOf _ => "SELECT COUNT(*) FROM ("
  | .foldOf f _ => "SELECT " ++ f.sql ++ "(q." ++ foldedName ++ ") FROM ("

/-- What a count or fold writes after its block. -/
def Statement.closing : Statement → String
  | .plain _ => ""
  | .countOf _ | .foldOf _ _ => ") AS q"

theorem Statement.render_eq (t : Statement) : t.render o = t.opening ++ t.block.render o ++ t.closing := by
  cases t with
  | plain q => exact (String.append_empty.trans String.empty_append).symm
  | countOf q => rfl
  | foldOf f q => rfl

/-- Whether joins are nested changes the text after `FROM` and nothing else. -/
theorem Statement.render_nestJoins (t : Statement) :
    t.render { o with nestJoins := nested } =
      t.opening ++ t.block.beforeFrom o ++ " FROM " ++
        renderFrom { o with nestJoins := nested } t.block.root t.block.joins ++ (t.block.afterFrom o ++ t.closing) := by
  rw [render_eq, Select.render_eq, Select.beforeFrom_nestJoins, Select.afterFrom_nestJoins]
  simp only [String.append_assoc]

end

/-! ## Chains of operators -/

namespace Expr

/-- Chains of operators over a table with so many joins along them. There is no join anywhere else, and the keys of
joins have no tables and no operators but aggregates of groups. -/
inductive JoinChain : Nat → Expr → Prop
  | table (m : Model) (ty : StaticType) : JoinChain 0 (.table m ty)
  | quote {n : Nat} {inner : Expr} (h : JoinChain n inner) (ty : StaticType) : JoinChain n (.quote inner ty)
  | operator {n : Nat} {name : String} {source : Expr} {rest : List Expr} (h : JoinChain n source)
      (hname : QueryOperator.ofName name ≠ some .join) (hrest : EveryArgument (fun _ => True) IsNoJoin rest)
      (ty : StaticType) : JoinChain n (.operator name (source :: rest) ty)
  | join {n : Nat} {outer inner outerKey innerKey result : Expr} (h : JoinChain n outer)
      (hinner : inner.Every (fun _ => True) IsNoJoin) (houterKey : outerKey.Every (fun _ => False) IsGroupFold)
      (hinnerKey : innerKey.Every (fun _ => False) IsGroupFold) (hresult : result.Every (fun _ => True) IsNoJoin)
      (ty : StaticType) : JoinChain (n + 1) (.operator "Join" [outer, inner, outerKey, innerKey, result] ty)

end Expr

namespace Visible

/-- Tables and columns by the numbers of their aliases, and all joins or none. -/
def numbered (table column : Nat → Prop) (joined : Prop) (h : ∀ i, table i → column i) : Visible where
  table t := table t.label
  column x := column x.1
  joined _ := joined
  column_of_table _ _ ht hx := hx.1 ▸ h _ ht

/-- The tables up to a number, with their columns and all joins. -/
def upTo (n : Nat) : Visible := numbered (· ≤ n) (· ≤ n) True fun _ h => h

/-- The table with a number, with its columns. -/
def only (n : Nat) : Visible := numbered (· = n) (· = n) False fun _ h => h

/-- The table with a number, where columns up to that number are visible. -/
def inside (n : Nat) : Visible := numbered (· = n) (· ≤ n) False fun _ h => Nat.le_of_eq h

end Visible

theorem Row.Within.succ {n : Nat} {r : Row} (h : r.Within (.upTo n)) : r.Within (.upTo (n + 1)) :=
  h.mono (fun _ ht => Nat.le_succ_of_le ht) (fun _ hx => Nat.le_succ_of_le hx) fun _ _ => trivial

/-- The tables are numbered from left to right and the last one has the last alias that was taken, joins look to their
left, and all that has been gathered refers to these tables. -/
structure Clauses.Chained (n : Nat) (c : Clauses) : Prop where
  root : ∃ t, c.root = some t
  aliases : c.aliases = n
  labels : c.tables.map (·.label) = List.range (n + 1)
  within : c.Within (Visible.upTo n).column
  fields : ∀ j ∈ c.joins, ∀ p ∈ j.fields.list, p.2.Within (.upTo n)
  conditions : ∀ (i : Nat) (j : Join), c.joins[i]? = some j → j.clause.ComparesLeft (i + 1)

section

variable {n : Nat} {c c' : Clauses} {r : Row}

theorem Clauses.Fresh.chained (h : c.Fresh) (m : Model) : { c with root := some ⟨m, 0⟩ }.Chained 0 := by
  have hjoins : c.joins = [] := congrArg Frame.joins h.frame
  have hwithin : c.Within (Visible.upTo 0).column :=
    h.within.mono fun _ hx => by
      obtain ⟨_, ht, -⟩ := hx
      cases ht
  refine ⟨⟨_, rfl⟩, congrArg Frame.aliases h.frame, ?_,
    ⟨hwithin.projection, hwithin.filters, hwithin.order, hwithin.groupKeys, hwithin.fold⟩, ?_, ?_⟩
  · rw [Clauses.tables, hjoins]
    rfl
  · rw [hjoins]
    exact List.forall_mem_nil _
  · rw [hjoins]
    exact fun _ _ hj => absurd hj (by simp)

theorem Clauses.Chained.length_joins (h : c.Chained n) : c.joins.length = n := by
  have hlength := congrArg List.length h.labels
  obtain ⟨t, ht⟩ := h.root
  rw [List.length_map, List.length_range, Clauses.tables, ht, List.length_append, List.length_map] at hlength
  exact Nat.succ.inj ((Nat.add_comm _ _).trans hlength)

theorem Clauses.Chained.holds (h : c.Chained n) : (Visible.upTo n).Holds (· = c.frame) c :=
  ⟨h.within, rfl⟩

theorem Clauses.Chained.of_holds (h : c.Chained n) (hc' : (Visible.upTo n).Holds (· = c.frame) c') : c'.Chained n := by
  obtain ⟨hwithin, hframe⟩ := hc'
  have hroot : c'.root = c.root := congrArg Frame.root hframe
  have haliases : c'.aliases = c.aliases := congrArg Frame.aliases hframe
  have hjoins : c'.joins = c.joins := congrArg Frame.joins hframe
  refine ⟨hroot ▸ h.root, haliases ▸ h.aliases, ?_, hwithin, hjoins ▸ h.fields, hjoins ▸ h.conditions⟩
  rw [Clauses.tables, hroot, hjoins]
  exact h.labels

/-- The rows of the joins stay visible as long as no join is added. -/
theorem Clauses.Chained.sees {V V' : Visible} {frame : Frame} (h : c.Chained n) (hframe : frame.joins = c.joins)
    (hrows : ∀ r : Row, r.Within (.upTo n) → r.Within V) : V.Sees (V'.Holds (· = frame)) := by
  intro d hd i j _ hj p hp
  have hjoins : d.joins = c.joins := (congrArg Frame.joins hd.2).trans hframe
  rw [hjoins] at hj
  exact hrows _ (h.fields j (List.mem_of_getElem? hj) p hp)

/-- The operands of a join of a chain keep to the tables of the chain and the one that it binds: its outer keys to the
former, its inner keys to the latter. -/
theorem Clauses.Chained.joinKeeps (h : c.Chained n) (hr : r.Within (.upTo n)) {inner outerKey innerKey result : Expr}
    (hinner : inner.Every (fun _ => True) Expr.IsNoJoin)
    (houterKey : outerKey.Every (fun _ => False) Expr.IsGroupFold)
    (hinnerKey : innerKey.Every (fun _ => False) Expr.IsGroupFold)
    (hresult : result.Every (fun _ => True) Expr.IsNoJoin) :
    JoinKeeps ((Visible.upTo (n + 1)).Holds (· = c.entered.frame)) (.inside (n + 1)) (.upTo n) (.only (n + 1))
      (.upTo (n + 1)) r inner.operand outerKey.operand innerKey.operand result.operand := by
  have haliases : c.entered.frame.aliases = n + 1 := congrArg (· + 1) h.aliases
  -- the inner side may bind tables and add clauses of its own, but only under the alias that the join has taken
  have hinside : Expr.NodesKeep (.inside (n + 1)) ((Visible.inside (n + 1)).Holds (· = c.entered.frame))
      (fun _ => True) Expr.IsNoJoin :=
    Expr.nodesKeep_frame h.root (fun _ _ _ _ hj => hj.elim) fun _ _ => haliases
  have hjoined : Expr.NodesKeep (.upTo (n + 1)) ((Visible.upTo (n + 1)).Holds (· = c.entered.frame))
      (fun _ => True) Expr.IsNoJoin :=
    Expr.nodesKeep_frame h.root (h.sees rfl fun _ => Row.Within.succ) fun _ _ => Nat.le_of_eq haliases
  exact Expr.joinKeeps hinside (Expr.nodesKeep_isGroupFold (h.sees rfl fun _ hrow => hrow))
    (Expr.nodesKeep_isGroupFold fun _ _ _ _ hj => hj.elim) hjoined ⟨hr, hr.succ⟩
    (fun _ ht => ⟨ht, Nat.le_of_eq ht⟩) hinner houterKey hinnerKey hresult

/-- A join makes a chain longer by one. -/
theorem Clauses.Chained.join (h : c.Chained n) {clause : JoinClause} {fields : Entries} {model : Model}
    (hc' : (Visible.upTo (n + 1)).Holds (· = c.entered.frame) c') (hclause : clause.table.label = n + 1)
    (hcompares : clause.ComparesLeft (n + 1)) (hfields : ∀ p ∈ fields.list, p.2.Within (.upTo (n + 1))) :
    (c'.join ⟨clause, fields, model⟩).Chained (n + 1) := by
  have hroot : c'.root = c.root := congrArg Frame.root hc'.2
  have haliases : c'.aliases = c.aliases + 1 := congrArg Frame.aliases hc'.2
  have hjoins : c'.joins = c.joins := congrArg Frame.joins hc'.2
  have htables : (c'.join ⟨clause, fields, model⟩).tables = c.tables ++ [clause.table] := by
    rw [tables, tables, Clauses.join, hroot, hjoins, List.map_append, ← List.append_assoc]
    rfl
  refine ⟨hroot ▸ h.root, haliases.trans (congrArg (· + 1) h.aliases), ?_, hc'.1.join _, ?_, ?_⟩
  · rw [htables, List.map_append, h.labels, List.map_singleton, hclause, List.range_succ (n := n + 1)]
  · rw [Clauses.join, hjoins]
    exact List.forall_mem_append.mpr ⟨fun j hj p hp => (h.fields j hj p hp).succ,
      List.forall_mem_singleton.mpr hfields⟩
  · intro i j hj
    rw [Clauses.join, hjoins] at hj
    rcases getElem?_concat_cases hj with hj | ⟨rfl, rfl⟩
    · exact h.conditions i j hj
    · rw [h.length_joins]
      exact hcompares

/-- Lowering a chain of operators numbers its tables. -/
theorem Expr.JoinChain.chained {e : Expr} (h : e.JoinChain n) (hc : c.Fresh)
    (hrun : ExceptT.run (e.rowOf []) c = (.ok r, c')) : c'.Chained n ∧ r.Within (.upTo n) := by
  -- along the chain; what the source yields is carried along, since the keys of the next join are read from it
  induction h generalizing c r c' with
  | table m ty =>
    rw [hc.run_table] at hrun
    cases hrun
    exact ⟨hc.chained m, .table (Nat.le_refl 0)⟩
  | quote h ty ih => exact ih hc hrun
  | @operator n name source rest h hname hrest ty ih =>
    obtain ⟨rows, c₁, hsource, hcall⟩ := run_callOperator_source hname hrun
    obtain ⟨hchained, hrows⟩ := ih hc hsource
    have hsees : (Visible.upTo n).Sees ((Visible.upTo n).Holds (· = c₁.frame)) :=
      hchained.sees rfl fun _ hrow => hrow
    have hnodes : NodesKeep _ _ (fun _ => True) IsNoJoin :=
      nodesKeep_frame hchained.root hsees fun _ _ => Nat.le_of_eq hchained.aliases
    obtain ⟨hr, hc'⟩ := keeps_callOperator hsees hname (keeps_pure hrows)
      (keeps_operandsOf hnodes rest hrest [] (List.forall_mem_nil _)) c₁ r c' hchained.holds hcall
    exact ⟨hchained.of_holds hc', hr⟩
  | @join n outer inner outerKey innerKey result h hinner houterKey hinnerKey hresult ty ih =>
    rw [rowOf, operandsOf, callOperator_cons (show QueryOperator.ofName "Join" = some .join from rfl) rfl] at hrun
    obtain ⟨outerRows, c₁, houter, hkeeps⟩ := run_join_keeps hrun
    obtain ⟨hchained, houterRows⟩ := ih hc houter
    have hentered : (Visible.upTo (n + 1)).Holds (· = c₁.entered.frame) c₁.entered :=
      ⟨hchained.within.entered fun _ hx => Nat.le_succ_of_le hx, rfl⟩
    obtain ⟨clause, fields, model, c₂, rfl, rfl, hc₂, htable, hlength, houterTerms, hinnerTerms, hfields⟩ :=
      hkeeps _ _ _ _ _ hentered (hchained.joinKeeps houterRows hinner houterKey hinnerKey hresult)
    have hcompares : clause.ComparesLeft (n + 1) :=
      .of_length (fun t ht x hx => Nat.lt_succ_of_le (houterTerms t ht x hx)) hinnerTerms hlength
    exact ⟨hchained.join hc₂ htable hcompares hfields, .joined trivial⟩

/-- The block of a chain. -/
theorem Clauses.Chained.joinsInOrder (h : c.Chained n) {t : Lowered} (ht : c.assemble = .ok t) :
    t.statement.block.JoinsInOrder n := by
  obtain ⟨root, items, shape, hroot, -, rfl⟩ := assemble_eq_ok_iff.mp ht
  obtain ⟨list, limited, ordered, hblock, -⟩ :=
    block_statement (P := fun _ => True) (c := c) root (fun _ _ => trivial) fun _ _ _ _ _ => trivial
  show (c.statement root items).block.JoinsInOrder n
  rw [hblock]
  constructor
  · rw [Select.tables, block, List.map_map]
    have hlabels := h.labels
    rw [tables, hroot] at hlabels
    exact hlabels
  · intro i clause hclause
    rw [block, List.getElem?_map] at hclause
    obtain ⟨j, hj, rfl⟩ := Option.map_eq_some_iff.mp hclause
    exact h.conditions i j hj

end

/-- The tables of a block have the aliases with the numbers from zero on, no two the same, and each join compares what
is on its left with its own table. Of two texts of it one has parentheses around all joins but the last, the other has
none, and nothing else is different. -/
structure Select.WrittenInOrder (o : Options) (n : Nat) (q : Select) (nested flat : String) : Prop where
  joinsInOrder : q.JoinsInOrder n
  aliases : q.tables.map (fun t => o.label t.label) = (List.range (n + 1)).map fun i => o.aliasPrefix ++ toString i
  nodup : (q.tables.map fun t => o.label t.label).Nodup
  text : ∃ before after,
    nested = before ++ " FROM " ++ (String.ofList (List.replicate (n - 1) '(') ++ q.root.render o ++
      ")".intercalate (q.joins.map (·.render o))) ++ after ∧
    flat = before ++ " FROM " ++ (q.root.render o ++ String.join (q.joins.map (·.render o))) ++ after

/-- Joins in order are written in order. -/
theorem Select.JoinsInOrder.written {n : Nat} {t : Statement} (h : t.block.JoinsInOrder n) (o : Options) :
    t.block.WrittenInOrder o n (t.render { o with nestJoins := true }) (t.render { o with nestJoins := false }) where
  joinsInOrder := h
  aliases := h.aliases o
  nodup := h.aliases o ▸ List.nodup_range.map o.label_injective
  text := by
    refine ⟨t.opening ++ t.block.beforeFrom o, t.block.afterFrom o ++ t.closing, ?_, ?_⟩
    · rw [Statement.render_nestJoins, renderFrom_nested, h.length_joins]
    · rw [Statement.render_nestJoins, renderFrom_flat]

namespace Expr

/-- A chain of operators that compiles is written with its tables and joins in order. -/
theorem JoinChain.writtenInOrder {e : Expr} {n : Nat} (h : e.JoinChain n) {o : Options} {compiled : Compiled}
    (hcompiled : e.compile o = .ok compiled) :
    ∃ t nested flat, e.lower = .ok t ∧ e.compile { o with nestJoins := true } = .ok nested ∧
      e.compile { o with nestJoins := false } = .ok flat ∧
      t.statement.block.WrittenInOrder o n nested.sql flat.sql := by
  obtain ⟨t, ht, -⟩ := lower_of_compile_eq_ok hcompiled
  obtain ⟨r, c, hrun, hassemble⟩ := lower_eq_ok ht
  have hchained := (h.chained ⟨rfl, Clauses.within_empty _⟩ hrun).1
  exact ⟨t, _, _, ht, compile_eq_ok ht, compile_eq_ok ht, (hchained.joinsInOrder hassemble).written o⟩

/-! ### Customers, orders and shipments -/

namespace Shop

/-- `Customers.Join(Orders, …).Join(Shipment, …)`. -/
def shipped : Expr :=
  rightOf (rightOf (ofTable customer) (ofTable order) customer order "Id" "CustomerId") (ofTable shipment)
    order shipment "Id" "OrderId"

theorem writtenInOrder_shipped :
    shipped.JoinChain 2 ∧ ∃ t nested flat, shipped.lower = .ok t ∧
      shipped.compile { Options.standard with nestJoins := true } = .ok nested ∧
      shipped.compile { Options.standard with nestJoins := false } = .ok flat ∧
      t.statement.block.WrittenInOrder .standard 2 nested.sql flat.sql := by
  have hchain : shipped.JoinChain 2 := by
    refine .join (.join (.table customer _) ?_ ?_ ?_ ?_ _) ?_ ?_ ?_ ?_ _
    all_goals trivial
  exact ⟨hchain, hchain.writtenInOrder (o := .standard) (show shipped.compile .standard = .ok _ from rfl)⟩

/-- So many customers as a query says, with their orders. The query is a join of its own:
`Customers.Take(Orders.Join(Shipment, …).Select(x => 3)).Join(Orders, …)`. -/
def limitedByJoin : Expr :=
  rightOf
    (.operator "Take" [ofTable customer, .operator "Select"
      [rightOf (ofTable order) (ofTable shipment) order shipment "Id" "OrderId", function ["x"] (.ofValue (.int 3))]
      .unknown] (.sequence (.model customer)))
    (ofTable order) customer order "Id" "CustomerId"

/-- The orders of one captured customer: the outer side of the join has no table. -/
def ordersOf : Expr :=
  rightOf (ofCaptured (.object "Customer" [("Id", .scalar (.int 1))])) (ofTable order) customer order "Id" "CustomerId"

/-- A join that is met in a limit is a join of the statement and takes an alias before those along the chain, and
where a chain begins with a captured object the inner table of its first join is the root as well. -/
theorem not_joinsInOrder :
    (∃ t, limitedByJoin.lower = .ok t ∧ ¬ t.statement.block.JoinsInOrder 1) ∧
      ∃ t, ordersOf.lower = .ok t ∧ ¬ t.statement.block.JoinsInOrder 1 := by
  constructor
  · refine ⟨_, rfl, fun h => ?_⟩
    exact absurd h.labels (by decide)
  · refine ⟨_, rfl, fun h => ?_⟩
    exact absurd h.labels (by decide)

end Shop

end Expr

end QueryChain
