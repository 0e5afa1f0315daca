import QueryChain.Proofs.Clauses.Inlining

/-!
# What a grouping selects

What is selected is settled when all operators have been met: a projection comes first, then a join, then a group key,
and the columns of a whole row last. So a grouping selects its key where whole rows would be selected without it. Where
the rows have been projected or joined before, what they were made into stays selected.

* `Expr.run_grouping`: what a grouping looks at, and what it leaves behind.
* `Clauses.selection_group`: the select list with one group key.
* `Expr.compile_groupBy`: a grouped query, by what it is without the grouping.
* `Expr.Shop.selects_projected`: a grouping of projected rows, and one of joined rows.
-/

namespace QueryChain

open Lowering Lower

/-! ## Select lists -/

/-- Whether rows are whole rows of a table. -/
def RowShape.isEntity : RowShape → Bool
  | .entity _ => true
  | _ => false

/-- The lowered query of a block with one group key, which is selected instead of whole rows. -/
def Lowered.groupedBy (t : Lowered) (s : Select) (key : Term) : Lowered :=
  { t with
    statement := .plain { s with
      list := if t.shape.isEntity then .items [.bare key] else s.list
      groupKeys := [key] }
    shape := if t.shape.isEntity then .scalar none else t.shape }

namespace Clauses

section

variable {c : Clauses} {root : TableRef} {items : List SelectItem} {shape : RowShape}

/-- Objects that are filled member by member or by a constructor are no whole rows. -/
theorem isEntity_of_objectSelection {m : Model} {fields : Entries} {positional : Bool}
    (h : (do
      let items ← memberItems fields.list
      let shape ← if positional then positionalShape m fields else namedShape m fields
      pure (items, shape)) = .ok (items, shape)) : shape.isEntity = false := by
  obtain ⟨_, -, h⟩ := bind_eq_ok.mp h
  cases positional with
  | true =>
    obtain ⟨_, hshape, ⟨⟩⟩ := bind_eq_ok.mp h
    rw [positionalShape] at hshape
    split at hshape
    · obtain ⟨_, -, ⟨⟩⟩ := bind_eq_ok.mp hshape
      rfl
    · cases hshape
  | false =>
    obtain ⟨_, hshape, ⟨⟩⟩ := bind_eq_ok.mp h
    obtain ⟨_, -, ⟨⟩⟩ := bind_eq_ok.mp hshape
    rfl

/-- Without a grouping, whole rows are selected where nothing has been projected or joined. -/
theorem isEntity_of_selection (h : c.groupKeys = []) (hselection : c.selection root = .ok (items, shape)) :
    shape.isEntity = (c.projection.isNone && c.joins.getLast?.isNone) := by
  rw [selection, h] at hselection
  cases hprojection : c.projection with
  | some p =>
    rw [hprojection] at hselection
    cases p with
    | scalar type value =>
      obtain ⟨t, -, ⟨⟩⟩ := bind_eq_ok.mp hselection
      rfl
    | object positional m fields => exact isEntity_of_objectSelection hselection
  | none =>
    rw [hprojection] at hselection
    cases hjoin : c.joins.getLast? with
    | some j =>
      rw [hjoin] at hselection
      exact isEntity_of_objectSelection hselection
    | none =>
      rw [hjoin] at hselection
      cases hselection
      rfl

/-- A group key is selected instead of whole rows, and changes nothing about other rows. -/
theorem selection_group (h : c.groupKeys = []) (key : Term)
    (hselection : c.selection root = .ok (items, shape)) :
    (c.group key).selection root =
      .ok (if shape.isEntity then ([.bare key], .scalar none) else (items, shape)) := by
  have hkey : (c.group key).groupKeys.getLast? = some key := List.getLast?_concat
  have hp : (c.group key).projection = c.projection := rfl
  have hj : (c.group key).joins = c.joins := rfl
  rw [isEntity_of_selection h hselection]
  rw [selection, h] at hselection
  rw [selection, hkey, hp, hj]
  cases hprojection : c.projection with
  | some p =>
    rw [hprojection] at hselection
    cases p <;> exact hselection
  | none =>
    rw [hprojection] at hselection
    cases hjoin : c.joins.getLast? with
    | some j =>
      rw [hjoin] at hselection
      exact hselection
    | none => rfl

/-- What clauses are put together to with one group key. -/
theorem assemble_group (hmode : c.mode = .rows ∨ c.mode = .first) (h : c.groupKeys = []) (key : Term) {t : Lowered}
    (ht : c.assemble = .ok t) :
    ∃ s, t.statement = .plain s ∧ (c.group key).assemble = .ok (t.groupedBy s key) := by
  obtain ⟨root, items, shape, hroot, hselection, rfl⟩ := assemble_eq_ok_iff.mp ht
  have hselection' := selection_group h key hselection
  have hmode' : (c.group key).mode = .rows ∨ (c.group key).mode = .first := hmode
  have hblock (list : SelectList) :
      (c.group key).block root list true true = { c.block root list true true with groupKeys := [key] } := by
    simp [block, group, h]
  refine ⟨c.block root (.items items) true true, statement_of_mode hmode root items, ?_⟩
  rw [Lowered.groupedBy]
  cases hentity : shape.isEntity with
  | true =>
    rw [hentity] at hselection'
    refine assemble_eq_ok_iff.mpr ⟨root, _, _, hroot, hselection', ?_⟩
    rw [statement_of_mode hmode', hblock]
    rfl
  | false =>
    rw [hentity] at hselection'
    refine assemble_eq_ok_iff.mpr ⟨root, _, _, hroot, hselection', ?_⟩
    rw [statement_of_mode hmode', hblock]
    rfl

end

end Clauses

/-! ## Grouped queries -/

theorem reads_groupKey {n : Nat} {js : List Join} {table : Model → Prop} (key : Row) :
    Reads n js table (groupKey key) := by
  cases key with
  | term t => exact reads_pure t
  | scalar v => exact reads_scalarTerm (.scalar v)
  | _ => exact reads_throw _

namespace Expr

/-- A grouping looks at the rows of its source and at what its key yields for them, and leaves the key behind. -/
theorem run_grouping {q k : Expr} {ty : StaticType} {r : Row} {c c' : Clauses}
    (h : ExceptT.run (rowOf [] (.operator "GroupBy" [q, k] ty)) c = (.ok r, c')) :
    ∃ rows key c₀ c₁, ExceptT.run (rowOf [] q) c = (.ok rows, c₀) ∧
      ExceptT.run (applyTo [] [rows] k >>= groupKey) c₀ = (.ok key, c₁) ∧ r = .group key rows ∧
      c' = c₁.group key := by
  have hop : QueryOperator.ofName "GroupBy" = some .groupBy := rfl
  rw [rowOf, operandsOf, operandsOf, callOperator_cons hop (by decide)] at h
  obtain ⟨rows, x, key, c₀, c₁, c₂, hrows, -, hx, hkey, rfl, rfl⟩ := run_groupBy h
  exact ⟨rows, key, c₀, c₂, hrows, run_bind_eq_ok.mpr ⟨x, c₁, hx, hkey⟩, rfl, rfl⟩

end Expr

/-- Filters, sorts, limits, `Distinct` and `First` on top of a table hand on whole rows of it. -/
theorem Stacked.lower_table {m : Model} {u : StaticType} {steps : List ClauseStep} {q : Expr}
    (h : Stacked (.table m u) steps q) (hreads : ∀ s ∈ steps, s.OnlyReads fun _ => True) {rows : Row} {c : Clauses}
    (hrun : ExceptT.run (q.rowOf []) Clauses.empty = (.ok rows, c)) :
    ∃ t, q.lower = .ok t ∧ (t.mode = .rows ∨ t.mode = .first) ∧ t.statement.block.groupKeys = [] ∧
      t.shape = .entity m := by
  have htable : ExceptT.run ((Expr.table m u).rowOf []) Clauses.empty =
      (.ok (.table ⟨m, 0⟩), Clauses.empty.rooted (some ⟨m, 0⟩)) := rfl
  have hmark (s : ClauseStep) (hs : s ∈ steps) :=
    ClauseStep.run_mark (hreads s hs) (.table ⟨m, 0⟩) (Clauses.empty.rooted (some ⟨m, 0⟩))
  choose! root hroot hreached using hmark
  obtain ⟨c', he, hmarked⟩ := h.run_eq htable hreached
  generalize (fun s : ClauseStep =>
    (ExceptT.run (s.mark (.table ⟨m, 0⟩)) (Clauses.empty.rooted (some ⟨m, 0⟩))).1) = mark? at he hmarked
  rw [hrun] at he
  cases hmarks : steps.mapM mark? with
  | error f =>
    rw [hmarks] at he
    cases he
  | ok marks =>
    obtain rfl : c = c' := congrArg Prod.snd he
    have hc := hmarked marks hmarks
    rw [Clauses.marked_eq] at hc
    have hmode : c.mode = .rows ∨ c.mode = .first := by
      have hcount : c.count = false := by rw [hc]; rfl
      have hfold : c.fold = none := by rw [hc]; rfl
      rw [Clauses.mode, hcount, hfold]
      cases c.first <;> simp
    have hassemble : c.assemble = .ok ⟨_, .entity m, _, _, _⟩ :=
      Clauses.assemble_eq_ok_iff.mpr ⟨⟨m, 0⟩, _, _, by rw [hc]; rfl, by rw [hc]; rfl, rfl⟩
    refine ⟨_, (Expr.lower_of_clausesOf_ok hrun).trans hassemble, hmode, ?_, rfl⟩
    rw [Clauses.statement_of_mode hmode, hc]
    rfl

namespace Expr

/-- A grouped query is the query without the grouping, with the key among its clauses. -/
theorem compile_grouping {q k : Expr} (hk : k.Every (fun _ => True) IsGroupFold) {ty : StaticType} {o : Options}
    {compiled : Compiled} (h : (operator "GroupBy" [q, k] ty).compile o = .ok compiled) {t : Lowered}
    (hq : q.lower = .ok t) (hmode : t.mode = .rows ∨ t.mode = .first)
    (hungrouped : t.statement.block.groupKeys = []) :
    ∃ rows c key s, q.clausesOf = (.ok rows, c) ∧
      ExceptT.run (applyTo [] [rows] k >>= groupKey) c = (.ok key, c) ∧ t.statement = .plain s ∧
      compiled = (t.groupedBy s key).compiled o := by
  obtain ⟨rows, c, hrun, hassemble⟩ := lower_eq_ok hq
  obtain ⟨t', ht', rfl⟩ := lower_of_compile_eq_ok h
  obtain ⟨r, c', hrun', hassemble'⟩ := lower_eq_ok ht'
  obtain ⟨rows', key, c₀, c₁, hrows, hkey, rfl, rfl⟩ := run_grouping hrun'
  obtain ⟨⟨⟩, rfl⟩ := Prod.mk.inj (hrun.symm.trans hrows)
  -- no table can become the root of what is a query already, so the key only reads
  have hread : Reads c.aliases c.joins (fun _ => True) (applyTo [] [rows] k >>= groupKey) :=
    (reads_applyTo k hk [] [rows]).bind reads_groupKey
  obtain ⟨rfl, -⟩ := hread.run_readFrom hkey (Clauses.readFrom_of_assemble hassemble _)
  obtain ⟨root, items, shape, -, -, ht⟩ := Clauses.assemble_eq_ok_iff.mp hassemble
  have hcmode : c.mode = .rows ∨ c.mode = .first := by rwa [ht] at hmode
  have hkeys : c.groupKeys = [] := by
    rw [ht, Clauses.statement_of_mode hcmode] at hungrouped
    exact hungrouped
  obtain ⟨s, hs, hgrouped⟩ := Clauses.assemble_group hcmode hkeys key hassemble
  refine ⟨rows, c, key, s, hrun, hkey, hs, ?_⟩
  rw [hassemble', Except.ok.injEq] at hgrouped
  rw [hgrouped]

/-- A grouped query is the query without the grouping, with the key among its clauses. If that one has whole rows of a
table, the key takes their place in the select list; else what is selected stays. Over a table with filters, sorts,
limits, `Distinct` and `First` it is the key alone that is selected, and a single scalar. -/
theorem compile_groupBy {q k : Expr} (hk : k.Every (fun _ => True) IsGroupFold) {ty : StaticType} {o : Options}
    {compiled : Compiled} (h : (operator "GroupBy" [q, k] ty).compile o = .ok compiled) :
    (∀ t, q.lower = .ok t → t.mode = .rows ∨ t.mode = .first → t.statement.block.groupKeys = [] →
      ∃ rows c key s, q.clausesOf = (.ok rows, c) ∧
        ExceptT.run (applyTo [] [rows] k >>= groupKey) c = (.ok key, c) ∧ t.statement = .plain s ∧
        compiled = (t.groupedBy s key).compiled o) ∧
    ∀ m u steps, Stacked (.table m u) steps q → (∀ s ∈ steps, s.OnlyReads fun _ => True) →
      compiled.shape = .scalar none ∧ ∃ (s : Select) (key : Term), compiled.sql = (Statement.plain s).render o ∧
        s.list = .items [.bare key] ∧ s.groupKeys = [key] := by
  refine ⟨fun t hq hmode hungrouped => compile_grouping hk h hq hmode hungrouped, fun m u steps hsteps hreads => ?_⟩
  obtain ⟨t', ht', -⟩ := lower_of_compile_eq_ok h
  obtain ⟨r, c', hrun, -⟩ := lower_eq_ok ht'
  obtain ⟨rows, key, c₀, c₁, hrows, -⟩ := run_grouping hrun
  obtain ⟨t, hq, hmode, hungrouped, hshape⟩ := hsteps.lower_table hreads hrows
  obtain ⟨_, _, key, s, -, -, -, rfl⟩ := compile_grouping hk h hq hmode hungrouped
  rw [Lowered.groupedBy, hshape]
  exact ⟨rfl, _, key, rfl, rfl, rfl⟩

/-! ### Orders of customers -/

namespace Shop

/-- `Orders.Where(o => o.Total > 1).Take(5).GroupBy(o => o.CustomerId)`. -/
def bigByCustomer : Expr :=
  .operator "GroupBy" [Stacked.stack (ofTable order) [Stacked.isBig, Stacked.five], memberOf order "CustomerId"]
    .unknown

theorem compile_groupBy_bigByCustomer :
    (memberOf order "CustomerId").Every (fun _ => True) IsGroupFold ∧
      Stacked (ofTable order) [Stacked.isBig, Stacked.five]
        (Stacked.stack (ofTable order) [Stacked.isBig, Stacked.five]) ∧
      ∃ compiled, bigByCustomer.compile .standard = .ok compiled ∧ compiled.shape = .scalar none ∧
        ∃ (s : Select) (key : Term), compiled.sql = (Statement.plain s).render .standard ∧ s.list = .items [.bare key] ∧
          s.groupKeys = [key] := by
  have hstacked := Stacked.stacked_stack (ofTable order) [Stacked.isBig, Stacked.five]
  have hreads : ∀ s ∈ [Stacked.isBig, Stacked.five], s.OnlyReads fun _ => True := by
    simp only [List.forall_mem_cons]
    exact ⟨⟨⟨trivial, trivial⟩, trivial⟩, ⟨trivial, trivial⟩, nofun⟩
  have hkey : (memberOf order "CustomerId").Every (fun _ => True) IsGroupFold := trivial
  have hcompile : bigByCustomer.compile .standard = .ok _ := rfl
  exact ⟨hkey, hstacked, _, hcompile, (compile_groupBy hkey hcompile).2 _ _ _ hstacked hreads⟩

/-- `Orders.Select(o => new { C = o.CustomerId, T = o.Total }).GroupBy(x => x.C)`. -/
def projectedByCustomer : Expr :=
  .operator "GroupBy" [.operator "Select" [ofTable order,
      function ["o"] (.newObject (.anonymous .projection [("C", some .int), ("T", some .float)]) .named
        [("C", (param "o" (.model order)).member "CustomerId"), ("T", (param "o" (.model order)).member "Total")])]
      .unknown,
    function ["x"] ((param "x" .unknown).member "C")] .unknown

/-- `Customers.Join(Orders, …).GroupBy(o => o.CustomerId)`. -/
def joinedByCustomer : Expr :=
  .operator "GroupBy" [rightOf (ofTable customer) (ofTable order) customer order "Id" "CustomerId",
    memberOf order "CustomerId"] .unknown

/-- Rows that have been projected or joined before a grouping stay selected, and they are no scalars. -/
theorem selects_projected :
    (∃ t s, projectedByCustomer.lower = .ok t ∧ t.statement = .plain s ∧ t.shape.isScalar = false ∧
      s.groupKeys = [.column 0 "CustomerId"] ∧
      s.list = .items [.named (.column 0 "CustomerId") "C", .named (.column 0 "Total") "T"]) ∧
    ∃ t s, joinedByCustomer.lower = .ok t ∧ t.statement = .plain s ∧ t.shape.isScalar = false ∧
      s.groupKeys = [.column 1 "CustomerId"] ∧
      s.list = .items [.named (.column 1 "Id") "Id", .named (.column 1 "CustomerId") "CustomerId",
        .named (.column 1 "Total") "Total"] :=
  ⟨⟨_, _, rfl, rfl, rfl, rfl, rfl⟩, _, _, rfl, rfl, rfl, rfl, rfl⟩

end Shop

end Expr

end QueryChain
