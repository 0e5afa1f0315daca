import QueryChain.Proofs.Meaning.Pipeline

/-!
# Pipelines in order

If no operator of a pipeline comes after one that is carried out later, then it makes no difference whether
duplicates and limits are passed over and dealt with last.

* `Pipeline.yields_iff`, `Pipeline.yields_iff_of_limit`: the rows that are left before and after a limit.
* `Pipeline.InOrder.returns_iff`: both readings return the same.
-/

namespace QueryChain

namespace Pipeline

section

variable {E : Engine} {db : E.Database}

/-! ## Sort keys -/

/-- The keys that a pipeline starts with stand before its own, unless it forgets them. -/
theorem rows_keys (p : Pipeline) (keys : List E.Key) :
    p.rows E db keys =
      (p.rows E db []).map fun a => ⟨a.item, if p.restarts then a.keys else keys ++ a.keys⟩ := by
  induction p generalizing keys with
  | table m => simp [rows, restarts]
  | filter p predicate ih =>
    rw [rows, ih, rows, restarts, List.filter_map]
    rfl
  | select p projection ih =>
    rw [rows, ih, rows, restarts, List.map_map, List.map_map]
    rfl
  | order p key descending restart ih =>
    rw [rows, ih, rows, List.map_map, List.map_map]
    refine List.map_congr_left fun a _ => ?_
    cases restart with
    | true => simp [Ranked.sort, restarts]
    | false => cases h : p.restarts <;> simp [Ranked.sort, restarts, h]
  | distinct p ih => exact ih keys
  | take p count ih => exact ih keys
  | join p q outerKey innerKey result ihp ihq =>
    rw [rows, ihp, List.flatMap_map, rows, List.map_flatMap]
    refine List.flatMap_congr fun a _ => ?_
    rw [ihq, ihq a.keys, List.filter_map, List.filter_map, List.map_map, List.map_map, List.map_map]
    refine List.map_congr_left fun b _ => ?_
    cases hp : p.restarts <;> cases hq : q.restarts <;> simp [restarts, hp, hq]

/-- Rows that are never sorted have no keys. -/
theorem keys_eq_nil {p : Pipeline} (h : p.isSorted = false) {a : Ranked E} (ha : a ∈ p.rows E db []) :
    a.keys = [] := by
  induction p generalizing a with
  | table m =>
    obtain ⟨row, -, rfl⟩ := List.mem_map.mp ha
    rfl
  | filter p predicate ih => exact ih h (List.mem_filter.mp ha).1
  | select p projection ih =>
    obtain ⟨b, hb, rfl⟩ := List.mem_map.mp ha
    show b.keys = []
    exact ih h hb
  | order p key descending restart => exact absurd h (by simp [isSorted])
  | distinct p ih => exact ih h ha
  | take p count ih => exact ih h ha
  | join p q outerKey innerKey result ihp ihq =>
    simp only [isSorted, Bool.or_eq_false_iff] at h
    obtain ⟨b, hb, ha⟩ := List.mem_flatMap.mp ha
    obtain ⟨c, hc, rfl⟩ := List.mem_map.mp ha
    rw [ihp h.1 hb] at hc
    show c.keys = []
    exact ihq h.2 (List.mem_filter.mp hc).1

/-- The keys of joined rows are those of the outer row and then those of the inner one, unless the inner side
makes the outer keys forgotten. -/
theorem rows_join {p q : Pipeline} {outerKey innerKey result : Expr}
    (h : p.isSorted = false ∨ q.restarts = false) :
    (Pipeline.join p q outerKey innerKey result).rows E db [] =
      (p.rows E db []).flatMap fun a =>
        ((q.rows E db []).filter (Ranked.pairs outerKey innerKey a)).map fun b =>
          ⟨E.apply [a.item, b.item] result, a.keys ++ b.keys⟩ := by
  rw [rows]
  refine List.flatMap_congr fun a ha => ?_
  rw [rows_keys q a.keys, List.filter_map, List.map_map]
  refine List.map_congr_left fun b _ => ?_
  rcases h with hp | hq
  · simp [keys_eq_nil hp ha]
  · simp [hq]

/-! ## Rows before a limit -/

variable (E db) in
/-- The rows that are left after duplicates are dropped, if they are. -/
def Kept (p : Pipeline) (rows : List (Ranked E)) : Prop :=
  if p.isDistinct then Picks (E.cells ·.item) (p.rows E db []) rows else rows = p.rows E db []

variable (E db) in
/-- Conditions after duplicates are dropped see all that a row is: rows with equal cells are the same. -/
def TellsApart : Pipeline → Prop
  | .table _ | .select _ _ | .join _ _ _ _ _ => True
  | .filter p _ =>
    TellsApart p ∧ (p.isDistinct = true → ∀ a ∈ p.rows E db [], ∀ b ∈ p.rows E db [],
      E.cells a.item = E.cells b.item → a.item = b.item)
  | .order p _ _ _ | .distinct p | .take p _ => TellsApart p

theorem kept_of_not_distinct {p : Pipeline} (h : p.isDistinct = false) {rows : List (Ranked E)} :
    p.Kept E db rows ↔ rows = p.rows E db [] := by
  simp [Kept, h]

theorem kept_of_distinct {p : Pipeline} (h : p.isDistinct = true) {rows : List (Ranked E)} :
    p.Kept E db rows ↔ Picks (E.cells ·.item) (p.rows E db []) rows := by
  simp [Kept, h]

theorem tellsApart_of_not_distinct {p : Pipeline} (h : p.isDistinct = false) : p.TellsApart E db := by
  induction p with
  | table m => trivial
  | filter p predicate ih => exact ⟨ih h, fun hd => absurd (h.symm.trans hd) Bool.false_ne_true⟩
  | select p projection => trivial
  | order p key descending restart ih => exact ih h
  | distinct p => exact absurd h (by simp [isDistinct])
  | take p count ih => exact ih h
  | join p q outerKey innerKey result => trivial

/-- Before a limit, the rows that are left are the rows of the pipeline, without duplicates if they are dropped. -/
theorem yields_iff {p : Pipeline} (hp : p.InOrder) (hl : p.isLimited = false) (ht : p.TellsApart E db)
    {rows : List (Ranked E)} : p.Yields E db rows ↔ p.Kept E db rows := by
  induction p generalizing rows with
  | table m => rw [kept_of_not_distinct rfl, Yields, Pipeline.rows]
  | filter p predicate ih =>
    have hbefore : ∀ before, p.Yields E db before ↔ p.Kept E db before := fun _ => ih hp.1 hl ht.1
    simp only [Yields, hbefore]
    cases hd : p.isDistinct with
    | false =>
      rw [kept_of_not_distinct (p := p.filter predicate) hd]
      simp only [kept_of_not_distinct hd, exists_eq_left, Pipeline.rows]
    | true =>
      rw [kept_of_distinct (p := p.filter predicate) hd, Pipeline.rows, ← Picks.filter_iff]
      · simp only [kept_of_distinct hd, eq_comm]
      · intro a ha b hb hcells
        rw [ht.2 hd a ha b hb hcells]
  | select p projection ih =>
    have hbefore : ∀ before, p.Yields E db before ↔ before = p.rows E db [] := fun _ => by
      rw [ih hp.1 hl (tellsApart_of_not_distinct hp.2), kept_of_not_distinct hp.2]
    rw [kept_of_not_distinct (p := p.select projection) hp.2]
    simp only [Yields, hbefore, exists_eq_left, Pipeline.rows]
  | order p key descending restart ih =>
    have hbefore : ∀ before, p.Yields E db before ↔ p.Kept E db before := fun _ => ih hp.1 hl ht
    simp only [Yields, hbefore]
    cases hd : p.isDistinct with
    | false =>
      rw [kept_of_not_distinct (p := p.order key descending restart) hd]
      simp only [kept_of_not_distinct hd, exists_eq_left, Pipeline.rows]
    | true =>
      rw [kept_of_distinct (p := p.order key descending restart) hd, Pipeline.rows, Picks.map_iff]
      simp only [kept_of_distinct hd, Ranked.sort, and_comm, eq_comm]
  | distinct p ih =>
    have hbefore : ∀ before, p.Yields E db before ↔ p.Kept E db before := fun _ => ih hp.1 hl ht
    rw [kept_of_distinct (p := p.distinct) rfl]
    simp only [Yields, hbefore, Pipeline.rows]
    cases hd : p.isDistinct with
    | false => simp only [kept_of_not_distinct hd, exists_eq_left]
    | true =>
      simp only [kept_of_distinct hd]
      exact Picks.picks_iff
  | take p count => exact absurd hl (by simp [isLimited])
  | join p q outerKey innerKey result ihp ihq =>
    obtain ⟨⟨hpOrder, hpl, hpd⟩, ⟨hqOrder, hql, hqd⟩, hkeys⟩ := hp
    have houter : ∀ outer, p.Yields E db outer ↔ outer = p.rows E db [] := fun _ => by
      rw [ihp hpOrder hpl (tellsApart_of_not_distinct hpd), kept_of_not_distinct hpd]
    have hinner : ∀ inner, q.Yields E db inner ↔ inner = q.rows E db [] := fun _ => by
      rw [ihq hqOrder hql (tellsApart_of_not_distinct hqd), kept_of_not_distinct hqd]
    have hd : (Pipeline.join p q outerKey innerKey result).isDistinct = false := by
      simp [isDistinct, hpd, hqd]
    rw [kept_of_not_distinct hd, rows_join hkeys]
    simp only [Yields, houter, hinner, exists_and_left, exists_eq_left]

/-! ## Limits -/

theorem limit_eq_none_iff {p : Pipeline} : p.limit E = none ↔ p.isLimited = false := by
  induction p with
  | table m => simp [limit, isLimited]
  | filter p predicate ih => exact ih
  | select p projection ih => exact ih
  | order p key descending restart ih => exact ih
  | distinct p ih => exact ih
  | take p count => cases h : p.limit E <;> simp [limit, isLimited, leastLimit, h]
  | join p q outerKey innerKey result ihp ihq =>
    rw [isLimited, Bool.or_eq_false_iff, ← ihp, ← ihq, limit]
    cases p.limit E <;> cases q.limit E <;> simp [leastLimit]

theorem limit_ne_some {p : Pipeline} (h : p.isLimited = false) {n : Nat} : p.limit E ≠ some n := by
  rw [limit_eq_none_iff.mpr h]
  exact nofun

/-- After a limit, the rows that are left are the first ones in some arrangement. -/
theorem yields_iff_of_limit {p : Pipeline} (hp : p.InOrder) {n : Nat} (hn : p.limit E = some n)
    (ht : p.TellsApart E db) {rows : List (Ranked E)} :
    p.Yields E db rows ↔
      ∃ kept, p.Kept E db kept ∧
        ∃ arranged, Arranges Ranked.keys kept arranged ∧ rows = arranged.take n := by
  induction p generalizing n rows with
  | table m => exact absurd hn (by simp [limit])
  | filter p predicate => exact absurd hn (limit_ne_some hp.2)
  | order p key descending restart => exact absurd hn (limit_ne_some hp.2)
  | distinct p => exact absurd hn (limit_ne_some hp.2)
  | join p q outerKey innerKey result =>
    have hl : (Pipeline.join p q outerKey innerKey result).isLimited = false := by
      simp [isLimited, hp.1.2.1, hp.2.1.2.1]
    exact absurd hn (limit_ne_some hl)
  | select p projection ih =>
    have hbefore : ∀ before, p.Yields E db before ↔
        ∃ arranged, Arranges Ranked.keys (p.rows E db []) arranged ∧ before = arranged.take n := fun _ => by
      rw [ih hp.1 hn (tellsApart_of_not_distinct hp.2)]
      simp only [kept_of_not_distinct hp.2, exists_eq_left]
    simp only [kept_of_not_distinct (p := p.select projection) hp.2, exists_eq_left, Yields, hbefore,
      Pipeline.rows, Arranges.map_iff]
    -- a projected row keeps its place
    constructor
    · rintro ⟨_, ⟨arranged, harranged, rfl⟩, rfl⟩
      exact ⟨arranged.map (Ranked.project projection), ⟨arranged, rfl, harranged⟩, List.map_take ..⟩
    · rintro ⟨_, ⟨arranged, rfl, harranged⟩, rfl⟩
      exact ⟨arranged.take n, ⟨arranged, harranged, rfl⟩, (List.map_take ..).symm⟩
  | take p count ih =>
    cases hm : p.limit E with
    | none =>
      have hlimit : E.number count = n := by simpa [limit, leastLimit, hm] using hn
      have hbefore : ∀ before, p.Yields E db before ↔ p.Kept E db before := fun _ =>
        yields_iff (show p.InOrder from hp) (limit_eq_none_iff.mp hm) ht
      simp only [Yields, hbefore, hlimit]
      constructor
      · rintro ⟨kept, arranged, h, h'⟩
        exact ⟨kept, h, arranged, h'⟩
      · rintro ⟨kept, h, arranged, h'⟩
        exact ⟨kept, arranged, h, h'⟩
    | some m =>
      have hlimit : min m (E.number count) = n := by simpa [limit, leastLimit, hm] using hn
      have hbefore : ∀ before, p.Yields E db before ↔
          ∃ kept, p.Kept E db kept ∧ ∃ arranged, Arranges Ranked.keys kept arranged ∧ before = arranged.take m :=
        fun _ => ih hp hm ht
      simp only [Yields, hbefore]
      constructor
      · rintro ⟨_, again, ⟨kept, hkept, arranged, harranged, rfl⟩, hagain, rfl⟩
        refine ⟨kept, hkept, ?_⟩
        rw [← hlimit]
        exact Arranges.take_take.mp ⟨arranged, again, harranged, hagain, rfl⟩
      · rintro ⟨kept, hkept, hrows⟩
        rw [← hlimit] at hrows
        obtain ⟨arranged, again, harranged, hagain, rfl⟩ := Arranges.take_take.mpr hrows
        exact ⟨_, again, ⟨kept, hkept, arranged, harranged, rfl⟩, hagain, rfl⟩

/-! ## Both readings -/

/-- If no operator comes after one that is carried out later, both readings return the same. -/
theorem InOrder.returns_iff {p : Pipeline} (hp : p.InOrder) (ht : p.TellsApart E db)
    {result : List (List E.Datum)} : p.Returns E db result ↔ p.ReturnsLate E db result := by
  cases hn : p.limit E with
  | none =>
    have hrows : ∀ rows, p.Yields E db rows ↔ p.Kept E db rows := fun _ =>
      yields_iff hp (limit_eq_none_iff.mp hn) ht
    simp only [Returns, ReturnsLate, Settles, hrows, hn]
    constructor
    · rintro ⟨rows, hkept, _, arranged, rfl, harranged⟩
      exact ⟨_, arranged, hkept, harranged⟩
    · rintro ⟨kept, arranged, hkept, harranged⟩
      exact ⟨kept, hkept, kept, arranged, rfl, harranged⟩
  | some n =>
    have hrows : ∀ rows, p.Yields E db rows ↔
        ∃ kept, p.Kept E db kept ∧ ∃ arranged, Arranges Ranked.keys kept arranged ∧ rows = arranged.take n :=
      fun _ => yields_iff_of_limit hp hn ht
    simp only [Returns, ReturnsLate, Settles, hrows, hn]
    constructor
    · rintro ⟨_, ⟨kept, hkept, arranged, harranged, rfl⟩, _, again, rfl, hagain, rfl⟩
      refine ⟨kept, again ++ arranged.drop n, hkept, harranged.rearrange hagain, ?_⟩
      -- the second arrangement is of at most `n` rows, so it is what the limit keeps
      have hlength : again.length = min n arranged.length := by
        rw [hagain.perm.length_eq, List.length_take]
      by_cases hlong : n ≤ arranged.length
      · rw [limited, limited, List.take_left' (by omega)]
      · rw [limited, limited, List.drop_eq_nil_of_le (by omega), List.append_nil,
          List.take_of_length_le (by omega)]
    · rintro ⟨kept, arranged, hkept, harranged, rfl⟩
      have hagain : Arranges Ranked.keys (arranged.take n) (arranged.take n) :=
        ⟨List.Perm.refl _, harranged.sorted.sublist (List.take_sublist ..)⟩
      exact ⟨_, ⟨kept, hkept, arranged, harranged, rfl⟩, _, _, rfl, hagain, rfl⟩

end

end Pipeline

end QueryChain
