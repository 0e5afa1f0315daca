import QueryChain.Proofs.Lowering.Operate
import QueryChain.Proofs.Meaning.InOrder
import QueryChain.Proofs.Meaning.Shown

/-!
# What lowering a pipeline leaves

Lowering a pipeline adds one table and some joins to `FROM`, and some conditions to `WHERE`. Read from left to
right and filtered, these are the rows of the pipeline, in its own order: what the pipeline stands for comes to
the row, and the sort keys come to its keys. The inner side of a join is lowered in the midst of the outer one,
so all of this is said of what is added to clauses that are there already.

* `Leaves`: what a pipeline leaves in the clauses.
* `Leaves.filter`, `Leaves.order`, `Leaves.select`, `Leaves.join`: one operator more.
* `Expr.IsChain.lowered`: every pipeline whose inner sides hold no join.
-/

namespace QueryChain

open Lowering Lower

/-- All that is kept for later refers to aliases below a number. -/
structure Clauses.Below (n : Nat) (c : Clauses) : Prop where
  filters : ∀ t ∈ c.filters, t.Over (·.label < n)
  order : ∀ k ∈ c.order, k.term.Over (·.label < n)
  joins : JoinsOver (·.label < n) c.joins

/-- A table, and those that are joined to it. -/
def Uses (base : TableRef) (js : List Join) (t : TableRef) : Prop :=
  t = base ∨ ∃ j ∈ js, t = j.clause.table

/-- The joins that were added to others. -/
def Added (c₀ c : Clauses) (i : Nat) : Prop :=
  c₀.joins.length ≤ i ∧ i < c.joins.length

/-- What lowering a pipeline leaves in the clauses: a table, joins and conditions, whose rows are those of the
pipeline. -/
structure Leaves (E : Engine) (db : E.Database) (p : Pipeline) (c₀ c : Clauses) (r : Row) (base : TableRef)
    (js : List Join) (conditions : List Term) : Prop where
  label : base.label = c₀.aliases
  root : c.root = some (c₀.root.getD base)
  joins : c.joins = c₀.joins ++ js
  filters : c.filters = c₀.filters ++ conditions
  aliases : c.aliases = c₀.aliases + js.length
  distinct : c.distinct = (c₀.distinct || p.isDistinct)
  top : c.top = Pipeline.leastLimit c₀.top (p.limit E)
  groupKeys : c.groupKeys = c₀.groupKeys
  mode : c.mode = c₀.mode
  below : c.Below (c.aliases + 1)
  labels : ∀ t, Uses base js t → t.label < c.aliases + 1
  rowOver : r.Over (Uses base js) (Added c₀ c)
  inside : ∀ i, Added c₀ c i →
    ∃ j, c.joins[i]? = some j ∧ Row.MembersOver (Uses base js) (Added c₀ c) j.fields.list
  joinFree : p.isJoinFree = true → js = []
  rows : ∀ s, p.rows E db (E.keys c₀.order s) =
    ((E.scopes db s base (js.map (·.clause))).filter (E.meets conditions)).map fun s' =>
      ⟨r.itemIn E c s', E.keys c.order s'⟩

section

variable {E : Engine} {db : E.Database} {p : Pipeline} {c₀ c : Clauses} {r : Row} {base : TableRef}
  {js : List Join} {conditions : List Term}

theorem Leaves.closed (h : Leaves E db p c₀ c r base js conditions) :
    Closed (Uses base js) (Added c₀ c) c :=
  ⟨⟨_, h.below.joins⟩, h.inside⟩

/-! ## A table -/

/-- Terms over older aliases do not see a new one. -/
theorem keys_update {order : List OrderKey} {s : E.Scope} {n : Nat} {row : E.Record}
    (h : ∀ k ∈ order, k.term.Over (·.label < n)) :
    E.keys order (Function.update s n row) = E.keys order s := by
  refine List.map_congr_left fun k hk => ?_
  rw [(h k hk).value_congr fun t ht => Function.update_of_ne (Nat.ne_of_lt ht) row s]

theorem meets_update {terms : List Term} {s : E.Scope} {n : Nat} {row : E.Record}
    (h : ∀ t ∈ terms, t.Over (·.label < n)) : E.meets terms (Function.update s n row) = E.meets terms s := by
  rw [Bool.eq_iff_iff, Engine.meets, Engine.meets, List.all_eq_true, List.all_eq_true]
  refine forall₂_congr fun t ht => ?_
  rw [(h t ht).value_congr fun table hlabel => Function.update_of_ne (Nat.ne_of_lt hlabel) row s]

theorem Clauses.Below.mono {n m : Nat} (h : c.Below n) (hnm : n ≤ m) : c.Below m where
  filters t ht := (h.filters t ht).mono fun _ hl => Nat.lt_of_lt_of_le hl hnm
  order k hk := (h.order k hk).mono fun _ hl => Nat.lt_of_lt_of_le hl hnm
  joins := h.joins.mono fun _ hl => Nat.lt_of_lt_of_le hl hnm

theorem leaves_table {m : Model} (h : c₀.Below c₀.aliases) :
    Leaves E db (.table m) c₀ { c₀ with root := some (c₀.root.getD ⟨m, c₀.aliases⟩) } (.table ⟨m, c₀.aliases⟩)
      ⟨m, c₀.aliases⟩ [] [] where
  label := rfl
  root := rfl
  joins := (List.append_nil _).symm
  filters := (List.append_nil _).symm
  aliases := rfl
  distinct := (Bool.or_false _).symm
  top := by simp [Pipeline.limit]
  groupKeys := rfl
  mode := rfl
  below := ⟨(h.mono (Nat.le_succ _)).filters, (h.mono (Nat.le_succ _)).order, (h.mono (Nat.le_succ _)).joins⟩
  labels := by
    rintro t (rfl | ⟨j, hj, -⟩)
    · exact Nat.lt_succ_self _
    · cases hj
  rowOver := Or.inl rfl
  inside := fun i hi => absurd hi.2 (Nat.not_lt.mpr hi.1)
  joinFree := fun _ => rfl
  rows := fun s => by
    have hall : ∀ s' : E.Scope, E.meets [] s' = true := fun _ => rfl
    rw [Pipeline.rows, List.map_nil, Engine.scopes_nil, List.filter_eq_self.mpr fun s' _ => hall s', Engine.bind,
      List.map_map]
    refine List.map_congr_left fun row _ => ?_
    show _ = Ranked.mk (E.ofRecord m (Function.update s c₀.aliases row c₀.aliases))
      (E.keys c₀.order (Function.update s c₀.aliases row))
    rw [Function.update_self, keys_update h.order]

/-! ## Operators that hand on rows -/

/-- Clauses with the same tables. -/
structure SameTables (c c' : Clauses) : Prop where
  root : c'.root = c.root
  joins : c'.joins = c.joins
  aliases : c'.aliases = c.aliases
  groupKeys : c'.groupKeys = c.groupKeys
  mode : c'.mode = c.mode

theorem Term.Over.below {t : Term} (h : Leaves E db p c₀ c r base js conditions)
    (ht : t.Over (Uses base js)) : t.Over (·.label < c.aliases + 1) :=
  ht.mono h.labels

theorem added_congr {c' : Clauses} (h : c'.joins = c.joins) : Added c₀ c' = Added c₀ c := by
  funext i
  rw [Added, Added, h]

theorem Row.itemIn_congr {c' : Clauses} (h : c'.joins = c.joins) (r : Row) (s : E.Scope) :
    r.itemIn E c' s = r.itemIn E c s := by
  rw [Row.itemIn, Row.itemIn, h]

/-- One operator more that leaves the tables alone. -/
theorem Leaves.step (h : Leaves E db p c₀ c r base js conditions) {q : Pipeline} {c' : Clauses} {r' : Row}
    {conditions' : List Term} (hsame : SameTables c c') (hfree : q.isJoinFree = p.isJoinFree)
    (hconditions : c'.filters = c₀.filters ++ conditions')
    (hdistinct : c'.distinct = (c₀.distinct || q.isDistinct))
    (htop : c'.top = Pipeline.leastLimit c₀.top (q.limit E))
    (hfilters : ∀ t ∈ c'.filters, t.Over (·.label < c.aliases + 1))
    (horder : ∀ k ∈ c'.order, k.term.Over (·.label < c.aliases + 1))
    (hover : r'.Over (Uses base js) (Added c₀ c))
    (hrows : ∀ s, q.rows E db (E.keys c₀.order s) =
      ((E.scopes db s base (js.map (·.clause))).filter (E.meets conditions')).map fun s' =>
        ⟨r'.itemIn E c s', E.keys c'.order s'⟩) :
    Leaves E db q c₀ c' r' base js conditions' where
  label := h.label
  root := hsame.root.trans h.root
  joins := hsame.joins.trans h.joins
  filters := hconditions
  aliases := hsame.aliases.trans h.aliases
  distinct := hdistinct
  top := htop
  groupKeys := hsame.groupKeys.trans h.groupKeys
  mode := hsame.mode.trans h.mode
  below := by
    rw [hsame.aliases]
    exact ⟨hfilters, horder, hsame.joins ▸ h.below.joins⟩
  labels := by
    rw [hsame.aliases]
    exact h.labels
  rowOver := by
    rw [added_congr hsame.joins]
    exact hover
  inside := by
    rw [added_congr hsame.joins, hsame.joins]
    exact h.inside
  joinFree := fun hq => h.joinFree (hfree.symm.trans hq)
  rows := fun s => by
    rw [hrows]
    simp only [Row.itemIn_congr hsame.joins]

theorem Leaves.filter (h : Leaves E db p c₀ c r base js conditions) {predicate : Expr} {t : Term}
    (ht : t.Over (Uses base js))
    (hvalue : ∀ s, t.value E s = E.scalar (E.apply [r.itemIn E c s] predicate)) :
    Leaves E db (p.filter predicate) c₀ (c.filter t) r base js (conditions ++ [t]) := by
  refine h.step ⟨rfl, rfl, rfl, rfl, rfl⟩ rfl ?_ h.distinct h.top ?_ h.below.order h.rowOver fun s => ?_
  · rw [Clauses.filter, h.filters, List.append_assoc]
  · intro u hu
    rcases List.mem_append.mp hu with hu | hu
    · exact h.below.filters u hu
    · rw [List.mem_singleton.mp hu]
      exact ht.below h
  · have hmeets : E.meets (conditions ++ [t]) =
        fun s' => E.keeps predicate (r.itemIn E c s') && E.meets conditions s' := by
      funext s'
      rw [Engine.meets_append, Engine.keeps, ← hvalue, Bool.and_comm]
      simp [Engine.meets]
    rw [Pipeline.rows, h.rows, List.filter_map, List.filter_filter, hmeets]
    rfl

theorem Leaves.order (h : Leaves E db p c₀ c r base js conditions) {key : Expr} {ts : List Term}
    {descending restart : Bool} (hts : ∀ t ∈ ts, t.Over (Uses base js))
    (hvalues : ∀ s : E.Scope, ts.map (·.value E s) = E.cells (E.apply [r.itemIn E c s] key)) :
    Leaves E db (p.order key descending restart) c₀ (c.sort ts descending restart) r base js conditions := by
  refine h.step ⟨rfl, rfl, rfl, rfl, rfl⟩ rfl h.filters h.distinct h.top h.below.filters ?_ h.rowOver fun s => ?_
  · intro k hk
    rcases List.mem_append.mp hk with hk | hk
    · cases restart with
      | true => cases hk
      | false => exact h.below.order k hk
    · obtain ⟨t, ht, rfl⟩ := List.mem_map.mp hk
      exact (hts t ht).below h
  · have hkeys : ∀ s', E.keys (c.sort ts descending restart).order s' =
        (if restart then [] else E.keys c.order s') ++
          (E.cells (E.apply [r.itemIn E c s'] key)).map fun d => (d, descending) := fun s' => by
      rw [← hvalues, Clauses.sort, Engine.keys, List.map_append, List.map_map, List.map_map]
      cases restart <;> rfl
    rw [Pipeline.rows, h.rows, List.map_map]
    simp only [hkeys]
    rfl

theorem Leaves.dedup (h : Leaves E db p c₀ c r base js conditions) :
    Leaves E db p.distinct c₀ { c with distinct := true } r base js conditions :=
  h.step ⟨rfl, rfl, rfl, rfl, rfl⟩ rfl h.filters (Bool.or_true _).symm h.top h.below.filters h.below.order h.rowOver
    h.rows

theorem Leaves.limit (h : Leaves E db p c₀ c r base js conditions) {count : Expr} {n : Nat}
    (hn : E.number count = n) : Leaves E db (p.take count) c₀ (c.limit n) r base js conditions := by
  refine h.step ⟨rfl, rfl, rfl, rfl, rfl⟩ rfl h.filters h.distinct ?_ h.below.filters h.below.order h.rowOver h.rows
  rw [Pipeline.limit, hn, ← Pipeline.leastLimit_assoc, ← h.top, Clauses.limit]
  cases c.top <;> rfl

/-- A projection may change what the rows are, but not how many there are. -/
theorem Leaves.project (h : Leaves E db p c₀ c r base js conditions) {projection : Expr} {r' : Row}
    {c' : Clauses} (hsame : SameTables c c') (hfilters : c'.filters = c.filters) (horder : c'.order = c.order)
    (hdistinct : c'.distinct = c.distinct) (htop : c'.top = c.top)
    (hover : r'.Over (Uses base js) (Added c₀ c))
    (hitem : ∀ s, r'.itemIn E c s = E.apply [r.itemIn E c s] projection) :
    Leaves E db (p.select projection) c₀ c' r' base js conditions := by
  refine h.step hsame rfl (hfilters.trans h.filters) (hdistinct.trans h.distinct) (htop.trans h.top) ?_ ?_ hover
    fun s => ?_
  · rw [hfilters]
    exact h.below.filters
  · rw [horder]
    exact h.below.order
  · rw [Pipeline.rows, h.rows, List.map_map, horder]
    simp only [hitem]
    rfl

/-- Whatever a projection selects, it leaves the tables alone. -/
theorem Leaves.select (h : Leaves E db p c₀ c r base js conditions) {projection body : Expr} {value r' : Row}
    {c' : Clauses} (hselects : Selects body value c r' c') (hover : value.Over (Uses base js) (Added c₀ c))
    (hitem : ∀ s, value.itemIn E c s = E.apply [r.itemIn E c s] projection) :
    Leaves E db (p.select projection) c₀ c' r' base js conditions := by
  cases hselects with
  | object positional m hobject hprojected =>
    subst hprojected
    exact h.project ⟨rfl, rfl, rfl, rfl, rfl⟩ rfl rfl rfl rfl hover hitem
  | scalar hobject hscalar => exact h.project ⟨rfl, rfl, rfl, rfl, rfl⟩ rfl rfl rfl rfl hover hitem
  | row hobject hrow => exact h.project ⟨rfl, rfl, rfl, rfl, rfl⟩ rfl rfl rfl rfl hover hitem

/-! ## Joins -/

theorem uses_append {j : Join} {t : TableRef} :
    Uses base (js ++ [j]) t ↔ Uses base js t ∨ t = j.clause.table := by
  simp [Uses, or_and_right, exists_or, or_assoc]

/-- The rows so far do not see the next table. -/
theorem Leaves.itemIn_update (h : Leaves E db p c₀ c r base js conditions) (s : E.Scope) (row : E.Record) :
    r.itemIn E c (Function.update s (c.aliases + 1) row) = r.itemIn E c s := by
  have hjoins : E.joinItems (Function.update s (c.aliases + 1) row) c.joins = E.joinItems s c.joins :=
    Engine.joinItems_congr h.below.joins fun t ht => Function.update_of_ne (Nat.ne_of_lt ht) row s
  rw [Row.itemIn, Row.itemIn, hjoins]
  exact Row.item_congr (fun t ht => Function.update_of_ne (Nat.ne_of_lt (h.labels t ht)) row s) (fun _ _ => rfl)
    h.rowOver

theorem run_joinFields {T : TableRef → Prop} {I : Nat → Prop} (hI : Closed T I c) {selected : Row}
    {fields : Entries} {passedOn : Option Model} {c' : Clauses} (hselected : selected.Over T I)
    (h : ExceptT.run (joinFields selected) c = (.ok (fields, passedOn), c')) :
    c' = c ∧ Row.MembersOver T I fields.list ∧ ∀ s : E.Scope,
      .record (Row.items E s (E.joinItems s c.joins) fields.list) = selected.itemIn E c s := by
  cases selected with
  | projected typeName list =>
    cases h
    exact ⟨rfl, hselected, fun _ => rfl⟩
  | table t =>
    cases h
    exact ⟨rfl, Row.membersOver_ofTable hselected, fun s => Row.items_ofTable t _⟩
  | joined i =>
    obtain ⟨j, hj, hmembers⟩ := hI.inside i hselected
    obtain ⟨j', c₁, hj', hpure⟩ := run_bind_eq_ok.mp h
    obtain ⟨hj'', rfl⟩ := run_joinAt_eq_ok.mp hj'
    cases hj.symm.trans hj''
    cases hpure
    exact ⟨rfl, hmembers, fun s => (Row.itemIn_joined hI hj).symm⟩
  | scalar v => cases h
  | host captured => cases h
  | term t => cases h
  | group key element => cases h

/-- Conditions can be tested before another table is joined, if they do not see it. -/
theorem filter_joinScopes {scopes : List E.Scope} {j : JoinClause} {before after : List Term}
    (hbefore : ∀ t ∈ before, t.Over (·.label < j.table.label)) :
    (E.joinScopes db scopes j).filter (E.meets (before ++ after)) =
      (scopes.filter (E.meets before)).flatMap fun s =>
        ((E.bind db s j.table).filter fun s' => E.joins s' j).filter (E.meets after) := by
  rw [Engine.joinScopes, List.filter_flatMap]
  induction scopes with
  | nil => rfl
  | cons s scopes ih =>
    have hmeets : ∀ s' ∈ (E.bind db s j.table).filter fun s' => E.joins s' j,
        E.meets (before ++ after) s' = (E.meets before s && E.meets after s') := by
      intro s' hs'
      obtain ⟨row, rfl⟩ := Engine.mem_bind (List.mem_filter.mp hs').1
      rw [Engine.meets_append, meets_update hbefore]
    rw [List.flatMap_cons, ih, List.filter_congr hmeets]
    cases hs : E.meets before s with
    | true => simp [hs]
    | false => simp [hs]

/-- The condition of a join compares the scalars of its keys. -/
theorem joins_eq_agree {s : E.Scope} {j : JoinClause} {l r : Item E.Datum}
    (hl : j.outerKeys.map (·.value E s) = E.cells l) (hr : j.innerKeys.map (·.value E s) = E.cells r) :
    E.joins s j = E.agree l r := by
  rw [Engine.joins, JoinClause.pairs, Engine.agree, ← hl, ← hr, List.zip_map, List.all_map]
  rfl

/-- The row of a new join comes to its members. -/
theorem itemIn_join {T : TableRef → Prop} {I : Nat → Prop} {j : Join} (hjoins : JoinsOver T (c.joins ++ [j]))
    (hj : Row.MembersOver T I j.fields.list) (hI : ∀ i, I i → i < c.joins.length) (s : E.Scope) :
    (Row.joined c.joins.length).itemIn E (c.join j) s =
      .record (Row.items E s (E.joinItems s c.joins) j.fields.list) := by
  have hclosed : Closed T (fun _ => False) (c.join j) := ⟨⟨_, hjoins⟩, fun _ hi => hi.elim⟩
  have hlast : (c.join j).joins[c.joins.length]? = some j := List.getElem?_concat_length
  rw [Row.itemIn_joined hclosed hlast, Item.record.injEq]
  exact Row.items_congr (fun _ _ => rfl) (fun i hi => Engine.joinItems_getElem?_append (hI i hi) _) hj

section

variable {q : Pipeline} {c₁ c₂ : Clauses} {r₁ : Row} {base₂ : TableRef} {conditions₂ : List Term} {j : Join}
  (h₁ : Leaves E db p c₀ c₁ r₁ base js conditions)
  (h₂ : Leaves E db q { c₁ with aliases := c₁.aliases + 1 } c₂ (.table j.clause.table) base₂ [] conditions₂)

include h₂ in
/-- The inner side of a join comes to its own table. -/
theorem Leaves.base_eq : base₂ = j.clause.table := by
  rcases h₂.rowOver with htable | ⟨k, hk, -⟩
  · exact htable.symm
  · cases hk

include h₂ in
theorem Leaves.joins_inner : c₂.joins = c₁.joins :=
  h₂.joins.trans (List.append_nil _)

include h₁ h₂ in
/-- Tables are numbered up to that of the inner side. -/
theorem Leaves.labels_join : ∀ t, Uses base (js ++ [j]) t → t.label < c₂.aliases + 1 := by
  have haliases : c₂.aliases = c₁.aliases + 1 := h₂.aliases
  have hlabel : j.clause.table.label = c₁.aliases + 1 := h₂.base_eq ▸ h₂.label
  intro t ht
  rcases uses_append.mp ht with ht | rfl
  · have := h₁.labels t ht
    omega
  · omega

/-- With a new join the earlier ones stay where they are. -/
theorem added_join {i : Nat} (hjoins : c₂.joins = c₁.joins) (hi : Added c₀ c₁ i) : Added c₀ (c₂.join j) i := by
  have hlt := hi.2
  refine ⟨hi.1, ?_⟩
  rw [Clauses.join, List.length_append, List.length_singleton, hjoins]
  omega

include h₁ in
/-- The members of the new join look at the tables that there are, and those of the earlier joins did already. -/
theorem Leaves.inside_join (hjoins : c₂.joins = c₁.joins)
    (hfields : Row.MembersOver (Uses base (js ++ [j])) (Added c₀ c₁) j.fields.list) {i : Nat}
    (hi : Added c₀ (c₂.join j) i) : ∃ k, (c₂.join j).joins[i]? = some k ∧
      Row.MembersOver (Uses base (js ++ [j])) (Added c₀ (c₂.join j)) k.fields.list := by
  have hi₂ : i < c₂.joins.length + 1 := by simpa [Clauses.join] using hi.2
  by_cases hlast : i < c₂.joins.length
  · obtain ⟨k, hk, hmembers⟩ := h₁.inside i ⟨hi.1, hjoins ▸ hlast⟩
    refine ⟨k, ?_, hmembers.mono (fun t ht => uses_append.mpr (Or.inl ht)) fun _ hk => added_join hjoins hk⟩
    rw [Clauses.join, List.getElem?_append_left hlast, hjoins, hk]
  · refine ⟨j, ?_, hfields.mono (fun _ ht => ht) fun _ hk => added_join hjoins hk⟩
    have hieq : i = c₂.joins.length := by omega
    rw [hieq, Clauses.join, List.getElem?_concat_length]

variable {outerKey innerKey result : Expr}
  (houter : ∀ s : E.Scope, j.clause.outerKeys.map (·.value E s) = E.cells (E.apply [r₁.itemIn E c₂ s] outerKey))
  (hinner : ∀ s : E.Scope, j.clause.innerKeys.map (·.value E s) =
    E.cells (E.apply [(Row.table j.clause.table).itemIn E c₂ s] innerKey))
  (hfields : Row.MembersOver (Uses base (js ++ [j])) (Added c₀ c₁) j.fields.list)
  (hitem : ∀ s : E.Scope, .record (Row.items E s (E.joinItems s c₂.joins) j.fields.list) =
    E.apply [r₁.itemIn E c₂ s, (Row.table j.clause.table).itemIn E c₂ s] result)

include h₁ h₂ houter hinner hfields hitem in
/-- The rows of a join are those of its outer side, each with the inner ones that it agrees with. -/
theorem Leaves.rows_join (s : E.Scope) : (p.join q outerKey innerKey result).rows E db (E.keys c₀.order s) =
    ((E.scopes db s base ((js ++ [j]).map (·.clause))).filter (E.meets (conditions ++ conditions₂))).map fun s' =>
      ⟨(Row.joined c₂.joins.length).itemIn E (c₂.join j) s', E.keys c₂.order s'⟩ := by
  have hjoins := h₂.joins_inner
  have hlabel : j.clause.table.label = c₁.aliases + 1 := h₂.base_eq ▸ h₂.label
  have hlabels := h₁.labels_join h₂
  have hadded : ∀ i, Added c₀ c₁ i → i < c₂.joins.length := fun i hi => hjoins ▸ hi.2
  have hconditions : ∀ t ∈ conditions, t.Over (·.label < j.clause.table.label) := by
    rw [hlabel]
    exact fun t ht => h₁.below.filters t (h₁.filters ▸ List.mem_append_right _ ht)
  have hrows : ∀ s', q.rows E db (E.keys c₁.order s') =
      ((E.bind db s' j.clause.table).filter (E.meets conditions₂)).map fun s'' =>
        ⟨(Row.table j.clause.table).itemIn E c₂ s'', E.keys c₂.order s''⟩ := h₂.base_eq ▸ h₂.rows
  rw [Pipeline.rows, h₁.rows, List.flatMap_map, List.map_append, List.map_singleton, Engine.scopes_append,
    filter_joinScopes hconditions, List.map_flatMap]
  refine List.flatMap_congr fun s' _ => ?_
  rw [hrows, List.filter_map, List.map_map, List.filter_filter, List.filter_filter]
  -- the outer row does not see the inner table
  have houterItem : ∀ s'' ∈ E.bind db s' j.clause.table, r₁.itemIn E c₂ s'' = r₁.itemIn E c₁ s' := by
    intro s'' hs''
    obtain ⟨row, rfl⟩ := Engine.mem_bind hs''
    rw [Row.itemIn_congr hjoins, hlabel, h₁.itemIn_update]
  have hpairs : ∀ s'' ∈ E.bind db s' j.clause.table,
      (Ranked.pairs outerKey innerKey ⟨r₁.itemIn E c₁ s', E.keys c₁.order s'⟩
          ⟨(Row.table j.clause.table).itemIn E c₂ s'', E.keys c₂.order s''⟩ && E.meets conditions₂ s'') =
        (E.meets conditions₂ s'' && E.joins s'' j.clause) := by
    intro s'' hs''
    rw [Ranked.pairs, ← houterItem s'' hs'', ← joins_eq_agree (houter s'') (hinner s''), Bool.and_comm]
  refine (congrArg (List.map _) (List.filter_congr hpairs)).trans ?_
  refine List.map_congr_left fun s'' hs'' => ?_
  rw [itemIn_join (h₂.below.joins.append (hfields.mono hlabels hadded)) (hfields.mono hlabels fun _ hi => hi) hadded,
    hitem, houterItem s'' (List.mem_filter.mp hs'').1]
  rfl

include h₁ h₂ houter hinner hfields hitem in
/-- A table is joined to the rows so far. -/
theorem Leaves.join :
    Leaves E db (.join p q outerKey innerKey result) c₀ (c₂.join j) (.joined c₂.joins.length) base (js ++ [j])
      (conditions ++ conditions₂) := by
  have hjoins := h₂.joins_inner
  have haliases : c₂.aliases = c₁.aliases + 1 := h₂.aliases
  have hlabels := h₁.labels_join h₂
  have hlength : c₀.joins.length ≤ c₂.joins.length := by
    rw [hjoins, h₁.joins, List.length_append]
    omega
  exact
    { label := h₁.label
      root := by
        rw [Clauses.join, h₂.root]
        simp [h₁.root]
      joins := by rw [Clauses.join, hjoins, h₁.joins, List.append_assoc]
      filters := by rw [Clauses.join, h₂.filters, h₁.filters, List.append_assoc]
      aliases := by rw [Clauses.join, haliases, h₁.aliases, List.length_append, List.length_singleton]; rfl
      distinct := by rw [Clauses.join, h₂.distinct, h₁.distinct, Bool.or_assoc, Pipeline.isDistinct]
      top := by rw [Clauses.join, h₂.top, h₁.top, Pipeline.leastLimit_assoc, Pipeline.limit]
      groupKeys := h₂.groupKeys.trans h₁.groupKeys
      mode := h₂.mode.trans h₁.mode
      below := ⟨h₂.below.filters, h₂.below.order,
        h₂.below.joins.append (hfields.mono hlabels fun i hi => hjoins ▸ hi.2)⟩
      labels := hlabels
      rowOver := ⟨hlength, by simp [Clauses.join]⟩
      inside := fun _ hi => h₁.inside_join hjoins hfields hi
      joinFree := fun h => absurd h Bool.false_ne_true
      rows := h₁.rows_join h₂ houter hinner hfields hitem }

end

end

/-! ## Pipelines -/

section

variable {E : Engine} {db : E.Database}

/-- What is closed stays so when the inner side of a join has been lowered. -/
theorem Leaves.closed_inner {p q : Pipeline} {c₀ c₁ c₂ : Clauses} {r₁ : Row} {base base₂ t : TableRef}
    {js : List Join} {conditions conditions₂ : List Term} (h₁ : Leaves E db p c₀ c₁ r₁ base js conditions)
    (h₂ : Leaves E db q { c₁ with aliases := c₁.aliases + 1 } c₂ (.table t) base₂ [] conditions₂) :
    Closed (fun u => Uses base js u ∨ u = t) (Added c₀ c₁) c₂ := by
  refine ⟨⟨_, h₂.below.joins⟩, fun i hi => ?_⟩
  obtain ⟨j, hj, hmembers⟩ := h₁.inside i hi
  have hjoins : c₂.joins = c₁.joins := h₂.joins.trans (List.append_nil _)
  exact ⟨j, hjoins ▸ hj, hmembers.mono (fun _ hu => Or.inl hu) fun _ hk => hk⟩

/-- The terms of the key that a function over rows makes of a row have the scalars of the key for values. -/
theorem run_applyTo_keyTerms {T : TableRef → Prop} {I : Nat → Prop} {c c₁ c₂ : Clauses} (hI : Closed T I c)
    {row key : Row} {ts : List Term} {f : Expr} (hrow : row.Over T I) (hf : f.isRowFunction = true)
    (hkey : ExceptT.run (f.applyTo [] [row]) c = (.ok key, c₁))
    (hts : ExceptT.run (keyTerms key) c₁ = (.ok ts, c₂)) :
    c₁ = c ∧ c₂ = c ∧ (∀ t ∈ ts, t.Over T) ∧
      ∀ s : E.Scope, ts.map (·.value E s) = E.cells (E.apply [row.itemIn E c s] f) := by
  obtain ⟨rfl, hover, hitem⟩ := Expr.run_applyTo (E := E) hI (List.forall_mem_singleton.mpr hrow) hf hkey
  obtain ⟨rfl, hterms, hvalues⟩ := run_keyTerms (E := E) hI hover hts
  exact ⟨rfl, rfl, hterms, fun s => by rw [hvalues, hitem, List.map_singleton]⟩

/-- An object that a function makes is a projected row. -/
theorem Expr.projected_of_isObject {f body : Expr} (hbody : functionBody? f = some body)
    (hobject : isObject body = true) {rows : List Row} {c c' : Clauses} {value : Row}
    (h : ExceptT.run (f.applyTo [] rows) c = (.ok value, c')) :
    ∃ typeName list, value = .projected typeName list := by
  rw [functionBody?] at hbody
  fun_induction unquote f with
  | case1 inner ty ih => exact ih hbody h
  | case2 f hquote =>
    split at hbody
    · rename_i params body' ty
      cases hbody
      rw [applyTo] at h
      split at h
      · cases body with
        | object shape members ty =>
          obtain ⟨list, c₁, -, hpure⟩ := run_bind_eq_ok.mp h
          cases hpure
          exact ⟨_, list, rfl⟩
        | _ => exact absurd hobject Bool.false_ne_true
      · cases h
    · cases hbody

/-- The row that is shown is the row of the pipeline, or it has members that are rows. -/
def Shows (c : Clauses) (r : Row) (base : TableRef) : Prop :=
  r = c.shown base ∨ ¬ (c.shown base).IsFlat c.joins

include E in
/-- A projection that makes no object of its own shows what it yields. -/
theorem Selects.shows {T : TableRef → Prop} {I : Nat → Prop} {c c' : Clauses} {rows value r : Row} {f body : Expr}
    {base : TableRef} (hI : Closed T I c) (hover : rows.Over T I) (hf : f.isRowFunction = true)
    (hbody : functionBody? f = some body) (hnew : f.readsNewObject = false)
    (hvalue : ExceptT.run (f.applyTo [] [rows]) c = (.ok value, c)) (h : Selects body value c r c')
    (hshows : Shows c rows base) : Shows c' r base := by
  cases h with
  | object positional m hobject hprojected => exact Or.inl rfl
  | scalar hobject hscalar => exact Or.inl rfl
  | row hobject hrow =>
    by_cases hflat : (c.shown base).IsFlat c.joins
    · rcases hshows with rfl | hnot
      · refine Or.inl ?_
        rcases Expr.apply_eq_or_isSmall (E := E) hI hover hflat hf hbody hobject hnew hvalue with heq | hsmall
        · exact heq
        · rcases hrow with ⟨t, rfl⟩ | ⟨typeName, list, rfl⟩ | ⟨i, rfl⟩ <;> cases hsmall
      · exact absurd hflat hnot
    · exact Or.inr hflat

/-- Rows of a pipeline that comes to a flat row are known from their cells. -/
theorem Leaves.item_eq {p : Pipeline} {c : Clauses} {r : Row} {base : TableRef} {js : List Join}
    {conditions : List Term} (h : Leaves E db p Clauses.empty c r base js conditions) (hflat : r.IsFlat c.joins)
    {a b : Ranked E} (ha : a ∈ p.rows E db []) (hb : b ∈ p.rows E db [])
    (hcells : E.cells a.item = E.cells b.item) : a.item = b.item := by
  rw [show p.rows E db [] = _ from h.rows E.blank] at ha hb
  obtain ⟨s, -, rfl⟩ := List.mem_map.mp ha
  obtain ⟨s', -, rfl⟩ := List.mem_map.mp hb
  exact hflat.itemIn_eq h.below.joins hcells

/-- What holds of a pipeline that is lowered by itself: it shows its rows, and if they are flat, they are known from
their cells wherever rows are dropped. -/
structure Stands (E : Engine) (db : E.Database) (p : Pipeline) (c : Clauses) (r : Row) (base : TableRef) : Prop where
  shows : p.KeepsRows → Shows c r base
  tellsApart : r.IsFlat c.joins → p.TellsApart E db

/-- Lowering a pipeline leaves its rows. -/
theorem Expr.IsChain.lowered {e : Expr} {p : Pipeline} (h : e.IsChain p) (hp : p.NestsNoJoin) {c₀ c : Clauses}
    {r : Row} (hbelow : c₀.Below c₀.aliases) (hrun : ExceptT.run (e.rowOf []) c₀ = (.ok r, c)) :
    ∃ base js conditions, Leaves E db p c₀ c r base js conditions ∧
      (c₀ = Clauses.empty → Stands E db p c r base) := by
  induction h generalizing c₀ c r with
  | table m ty =>
    obtain ⟨t, c₁, ht, hpure⟩ := run_bind_eq_ok.mp hrun
    rw [run_bindTable] at ht
    cases ht
    cases hpure
    refine ⟨_, _, _, leaves_table hbelow, ?_⟩
    rintro rfl
    exact ⟨fun _ => Or.inl rfl, fun _ => trivial⟩
  | filter hsource hpredicate ih =>
    simp only [Expr.rowOf, Expr.operandsOf] at hrun
    rw [callOperator_cons (show QueryOperator.ofName "Where" = some .filter from rfl) rfl] at hrun
    obtain ⟨x, t, c₁, c₂, c₃, hrow, hx, ht, -, rfl⟩ := run_filter hrun
    obtain ⟨base, js, conditions, hleaves, hstands⟩ := ih hp hbelow hrow
    obtain ⟨rfl, hxover, hxitem⟩ :=
      Expr.run_applyTo (E := E) hleaves.closed (List.forall_mem_singleton.mpr hleaves.rowOver) hpredicate hx
    obtain ⟨rfl, htover, htvalue⟩ := run_scalarTerm (E := E) hxover ht
    refine ⟨base, js, _, hleaves.filter htover fun s => by rw [htvalue, hxitem]; rfl, ?_⟩
    rintro rfl
    exact ⟨(hstands rfl).shows, fun hflat =>
      ⟨(hstands rfl).tellsApart hflat, fun _ a ha b hb => hleaves.item_eq hflat ha hb⟩⟩
  | select hsource hprojection ih =>
    simp only [Expr.rowOf, Expr.operandsOf] at hrun
    rw [callOperator_cons (show QueryOperator.ofName "Select" = some .select from rfl) rfl] at hrun
    obtain ⟨rows, body, value, c₁, c₂, hrow, hbody, hvalue, hselects⟩ :=
      run_select (fun _ _ _ _ _ hbody hobject h => Expr.projected_of_isObject hbody hobject h) hrun
    obtain ⟨base, js, conditions, hleaves, hstands⟩ := ih hp hbelow hrow
    obtain ⟨rfl, hover, hitem⟩ :=
      Expr.run_applyTo (E := E) hleaves.closed (List.forall_mem_singleton.mpr hleaves.rowOver) hprojection hvalue
    refine ⟨base, js, conditions, hleaves.select hselects hover hitem,
      fun hempty => ⟨fun hkeeps => ?_, fun _ => trivial⟩⟩
    exact hselects.shows (E := E) hleaves.closed hleaves.rowOver hprojection hbody hkeeps.2 hvalue
      ((hstands hempty).shows hkeeps.1)
  | order hname hsource hkey ih =>
    simp only [Expr.rowOf, Expr.operandsOf] at hrun
    rw [callOperator_cons hname (GroupFold.ofName_eq_none hname)] at hrun
    obtain ⟨x, ts, c₁, c₂, c₃, hrow, hx, hts, rfl⟩ := run_order hrun
    obtain ⟨base, js, conditions, hleaves, hstands⟩ := ih hp hbelow hrow
    obtain ⟨rfl, rfl, hover, hvalues⟩ := run_applyTo_keyTerms (E := E) hleaves.closed hleaves.rowOver hkey hx hts
    exact ⟨base, js, _, hleaves.order hover hvalues,
      fun hempty => ⟨(hstands hempty).shows, (hstands hempty).tellsApart⟩⟩
  | distinct hsource ih =>
    simp only [Expr.rowOf, Expr.operandsOf] at hrun
    rw [callOperator_cons (show QueryOperator.ofName "Distinct" = some .distinct from rfl) rfl] at hrun
    obtain ⟨c₁, hrow, rfl⟩ := run_distinct hrun
    obtain ⟨base, js, conditions, hleaves, hstands⟩ := ih hp hbelow hrow
    exact ⟨base, js, _, hleaves.dedup, fun hempty => ⟨(hstands hempty).shows, (hstands hempty).tellsApart⟩⟩
  | take hsource hcount ih =>
    simp only [Expr.rowOf, Expr.operandsOf] at hrun
    rw [callOperator_cons (show QueryOperator.ofName "Take" = some .take from rfl) rfl] at hrun
    obtain ⟨n, c₁, c₂, hrow, hn, rfl⟩ := run_take hrun
    obtain ⟨base, js, conditions, hleaves, hstands⟩ := ih hp hbelow hrow
    obtain ⟨rfl, -, hitem⟩ :=
      Expr.run_rowOf (E := E) hleaves.closed (show Row.MembersOver _ _ [] from trivial) _ hcount hn
    refine ⟨base, js, _, hleaves.limit ?_, fun hempty => ⟨(hstands hempty).shows, (hstands hempty).tellsApart⟩⟩
    have hknown : E.item [] _ = .known (.int n) := (hitem E.blank).symm
    rw [Engine.number, hknown]
  | join houter hinner houterKey hinnerKey hresult ihp ihq =>
    simp only [Expr.rowOf, Expr.operandsOf] at hrun
    rw [callOperator_cons (show QueryOperator.ofName "Join" = some .join from rfl) rfl] at hrun
    obtain ⟨outerRows, table, outerValue, outerKeys, innerValue, innerKeys, selected, fields, passedOn, m, c₁, c₂, c₃,
      c₄, c₅, c₆, c₇, c₈, hrow, -, hinnerRow, houterValue, houterKeys, hinnerValue, hinnerKeys, -, hselected,
      hfields, rfl, rfl⟩ := run_join hrun
    obtain ⟨base, js, conditions, h₁, -⟩ := ihp hp.1 hbelow hrow
    have hbelow₁ : Clauses.Below (c₁.aliases + 1) { c₁ with aliases := c₁.aliases + 1 } :=
      ⟨h₁.below.filters, h₁.below.order, h₁.below.joins⟩
    obtain ⟨base₂, js₂, conditions₂, h₂, -⟩ := ihq (Pipeline.nestsNoJoin_of_isJoinFree hp.2) hbelow₁ hinnerRow
    obtain rfl := h₂.joinFree hp.2
    have hclosed := h₁.closed_inner h₂
    have houterOver : outerRows.Over (fun u => Uses base js u ∨ u = table) (Added c₀ c₁) :=
      h₁.rowOver.mono (fun _ hu => Or.inl hu) fun _ hi => hi
    have htableOver : (Row.table table).Over (fun u => Uses base js u ∨ u = table) (Added c₀ c₁) := Or.inr rfl
    obtain ⟨rfl, rfl, -, houterValues⟩ :=
      run_applyTo_keyTerms (E := E) hclosed houterOver houterKey houterValue houterKeys
    obtain ⟨rfl, rfl, -, hinnerValues⟩ :=
      run_applyTo_keyTerms (E := E) hclosed htableOver hinnerKey hinnerValue hinnerKeys
    obtain ⟨rfl, hover, hselectedItem⟩ := Expr.run_applyTo (E := E) hclosed
      (List.forall_mem_cons.mpr ⟨houterOver, List.forall_mem_singleton.mpr htableOver⟩) hresult hselected
    obtain ⟨rfl, hfieldsOver, hfieldsItem⟩ := run_joinFields (E := E) hclosed hover hfields
    refine ⟨base, _, _, h₁.join (j := ⟨⟨table, outerKeys, innerKeys⟩, fields, m⟩) h₂ houterValues hinnerValues
      (hfieldsOver.mono (fun u hu => uses_append.mpr hu) fun _ hi => hi) (fun s => ?_),
      fun _ => ⟨fun _ => Or.inl ?_, fun _ => trivial⟩⟩
    · rw [hfieldsItem, hselectedItem]
      rfl
    · simp [Clauses.shown, Clauses.join]

end

end QueryChain
