import QueryChain.Proofs.Columns.InScope
import QueryChain.Proofs.Formed.Trees

/-!
# No empty lists in a statement

A statement whose tree makes no object without members, and reads no table without columns, has no empty list where SQL
does not allow one: each `SELECT` has an item, and each join compares a pair of keys. An object without members is
lowered all the same, to a `SELECT` of nothing or a join on nothing.

* `SelectList.render_eq`: a select list that lists an item is its items with commas between them.
* `Expr.compile_filled`: the lists of the statement of a tree.
* `Expr.Shop.lists_nothing`: objects without members.
-/

namespace QueryChain

/-! ## Items of statements -/

/-- The texts of the items of a select list. -/
def SelectList.itemTexts (o : Options) (joined : Bool) : SelectList → List String
  | .items list => list.map (·.render o joined)
  | .withFolded list t => list.map (·.render o joined) ++ [(.folded t : SelectItem).render o joined]

/-- The texts of the items of a block. -/
def Select.itemTexts (o : Options) (s : Select) : List String :=
  s.list.itemTexts o (!s.joins.isEmpty)

/-- The texts of the items of each `SELECT` of a statement, the outermost first. -/
def Statement.itemTexts (o : Options) : Statement → List (List String)
  | .plain s => [s.itemTexts o]
  | .countOf s => [["COUNT(*)"], s.itemTexts o]
  | .foldOf f s => [[f.sql ++ "(q." ++ foldedName ++ ")"], s.itemTexts o]

/-- A select list lists an item, what is folded besides them aside. -/
def SelectList.IsFilled : SelectList → Prop
  | .items list | .withFolded list _ => list ≠ []

section

variable {o : Options} {list : SelectList}

theorem SelectList.IsFilled.itemTexts_ne_nil {joined : Bool} (h : list.IsFilled) : list.itemTexts o joined ≠ [] := by
  cases list with
  | items list => exact fun hnil => h (List.map_eq_nil_iff.mp hnil)
  | withFolded list t => simp [itemTexts]

/-- A select list that lists an item is its items with commas between them. -/
theorem SelectList.render_eq {joined : Bool} (h : list.IsFilled) :
    list.render o joined = ", ".intercalate (list.itemTexts o joined) := by
  cases list with
  | items list => rfl
  | withFolded list t =>
    have hne : list.map (·.render o joined) ≠ [] := fun hnil => h (List.map_eq_nil_iff.mp hnil)
    rw [itemTexts, String.intercalate_append_of_ne_nil hne (List.cons_ne_nil _ _), String.intercalate_singleton]
    rfl

theorem Statement.itemTexts_ne_nil {t : Statement} (h : t.block.list.IsFilled) :
    ∀ items ∈ t.itemTexts o, items ≠ [] := by
  cases t with
  | plain s => exact List.forall_mem_singleton.mpr h.itemTexts_ne_nil
  | countOf s | foldOf f s =>
    exact List.forall_mem_cons.mpr ⟨List.cons_ne_nil _ _, List.forall_mem_singleton.mpr h.itemTexts_ne_nil⟩

end

/-! ## Statements of clauses -/

namespace Clauses

theorem memberItems_ne_nil {list : List (String × Row)} {items : List SelectItem} (h : memberItems list = .ok items)
    (hne : list ≠ []) : items ≠ [] := by
  cases list with
  | nil => exact absurd rfl hne
  | cons p rest =>
    obtain ⟨t, -, hrest⟩ := bind_eq_ok.mp h
    obtain ⟨more, -, ⟨⟩⟩ := bind_eq_ok.mp hrest
    exact List.cons_ne_nil _ _

/-- What is selected lists an item: a scalar, a key, or members that formed rows and tables have. -/
theorem Formed.selection_ne_nil {c : Clauses} (hc : c.Formed True) {root : TableRef} (hroot : c.root = some root)
    {items : List SelectItem} {shape : RowShape} (h : c.selection root = .ok (items, shape)) : items ≠ [] := by
  rw [selection] at h
  split at h
  · obtain ⟨t, -, ⟨⟩⟩ := bind_eq_ok.mp h
    exact List.cons_ne_nil _ _
  · rename_i hprojection
    obtain ⟨found, hfound, hrest⟩ := bind_eq_ok.mp h
    have hfields : Entries.Formed True c.joins.length _ := hc.projection _ hprojection
    split at hrest
    all_goals
      obtain ⟨_, -, ⟨⟩⟩ := bind_eq_ok.mp hrest
      exact memberItems_ne_nil hfound (hfields.ne_nil trivial)
  · rename_i j _ hlast
    obtain ⟨found, hfound, hrest⟩ := bind_eq_ok.mp h
    have hj : j.Formed True c.joins.length := hc.joins j (List.mem_of_getLast? hlast)
    split at hrest
    all_goals
      obtain ⟨_, -, ⟨⟩⟩ := bind_eq_ok.mp hrest
      exact memberItems_ne_nil hfound (hj.fields.ne_nil trivial)
  · cases h
    exact List.cons_ne_nil _ _
  · cases h
    exact fun hnil => hc.root trivial root hroot (List.map_eq_nil_iff.mp hnil)

theorem isFilled_statement {c : Clauses} {root : TableRef} {items : List SelectItem} (h : items ≠ []) :
    (c.statement root items).block.list.IsFilled := by
  rw [statement]
  split
  · split
    · exact h
    · exact List.cons_ne_nil _ _
  · split
    · show (c.foldedList items _).IsFilled
      rw [foldedList]
      split
      · exact h
      · exact List.cons_ne_nil _ _
    · exact List.cons_ne_nil _ _
  · exact h

theorem joins_statement (c : Clauses) (root : TableRef) (items : List SelectItem) :
    (c.statement root items).block.joins = c.joins.map (·.clause) := by
  rw [statement]
  split
  · split <;> rfl
  · split <;> rfl
  · rfl

end Clauses

/-! ## Trees -/

namespace Expr

/-- If each new object of a tree has a member and each table a column, then wherever the tree compiles, under any
options, each `SELECT` of the statement has an item, the text of the list is that of its items, and each join compares a
pair of keys. -/
theorem compile_filled {e : Expr} (he : e.isFilled) {o : Options} {compiled : Compiled}
    (h : e.compile o = .ok compiled) :
    ∃ t : Statement, compiled.sql = t.render o ∧ (∀ items ∈ t.itemTexts o, items ≠ []) ∧
      t.block.list.render o (!t.block.joins.isEmpty) = ", ".intercalate (t.block.itemTexts o) ∧
      ∀ j ∈ t.block.joins, j.pairs ≠ [] := by
  obtain ⟨lowered, hlower, rfl⟩ := lower_of_compile_eq_ok h
  obtain ⟨r, c, hrun, hassemble⟩ := lower_eq_ok hlower
  have hends : Lower.Ends True 0 (Row.Formed True) e.clausesOf.1 e.clausesOf.2 := e.ends_clausesOf fun _ => he
  have hformed : c.Formed True := by
    rw [clausesOf, show (e.rowOf []).run Clauses.empty = (.ok r, c) from hrun] at hends
    exact hends.formed
  obtain ⟨root, items, shape, hroot, hselection, rfl⟩ := Clauses.assemble_eq_ok_iff.mp hassemble
  have hfilled : (c.statement root items).block.list.IsFilled :=
    Clauses.isFilled_statement (hformed.selection_ne_nil hroot hselection)
  refine ⟨c.statement root items, rfl, Statement.itemTexts_ne_nil hfilled, SelectList.render_eq hfilled, ?_⟩
  rw [Clauses.joins_statement]
  exact List.forall_mem_map.mpr fun j hj => (hformed.joins j hj).pairs trivial

/-! ### Customers and orders -/

namespace Shop

/-- `Customers.Join(Orders, …).Where(o => o.Total > 1)` selects columns and compares keys. -/
theorem compile_filled_bigOrders :
    bigOrders.isFilled = true ∧ ∃ compiled, bigOrders.compile .standard = .ok compiled ∧
      ∃ t : Statement, compiled.sql = t.render .standard ∧ (∀ items ∈ t.itemTexts .standard, items ≠ []) ∧
        t.block.list.render .standard (!t.block.joins.isEmpty) = ", ".intercalate (t.block.itemTexts .standard) ∧
        ∀ j ∈ t.block.joins, j.pairs ≠ [] := by
  have hfilled : bigOrders.isFilled = true := rfl
  have hcompile : bigOrders.compile .standard = .ok _ := rfl
  exact ⟨hfilled, _, hcompile, compile_filled hfilled hcompile⟩

/-- A function that yields an object without members. -/
def nothing : Expr := function ["x"] (.newObject (.anonymous .projection []) .named [])

/-- `Customers.Select(x => new { })`. -/
def selectsNothing : Expr :=
  .operator "Select" [ofTable customer, nothing] .unknown

/-- `Customers.Join(Orders, x => new { }, x => new { }, (x, y) => y)`. -/
def joinsOnNothing : Expr :=
  .operator "Join" [ofTable customer, ofTable order, nothing, nothing,
    function ["x", "y"] (param "y" (.model order))] .unknown

/-- Objects without members are lowered to a `SELECT` without items, and to a join without keys. -/
theorem lists_nothing :
    (∃ t, selectsNothing.lower = .ok t ∧ t.statement.itemTexts .standard = [[]] ∧
      t.statement.render .standard = "SELECT  FROM Customers t0") ∧
    ∃ t j, joinsOnNothing.lower = .ok t ∧ t.statement.block.joins = [j] ∧ j.pairs = [] ∧
      j.render .standard = " INNER JOIN Orders t1 ON ()" :=
  ⟨⟨_, rfl, rfl, by decide⟩, _, _, rfl, rfl, rfl, by decide⟩

end Shop

end Expr

end QueryChain
