import Mathlib.Data.List.Basic
import Mathlib.Data.List.Perm.Basic
import QueryChain.Proofs.Meaning.Engine

/-!
# Which rows are returned, and in which order

Rows carry keys, and an order is only settled where one is looked at: by a limit, and in the end. Any order that the
keys leave open may come out, and any of several equal rows may stand for all of them.

* `Settles`: duplicates are dropped, the rest is put in order, and a limit cuts off what comes after.
* `Settles.map_iff`: settling looks at the cells and keys of rows only.
* `Picks.filter_iff`: dropping rows and dropping duplicates commute if equal rows are alike.
* `Arranges.take_take`: two limits one after another are the smaller one.
-/

namespace QueryChain

/-- A scalar to sort by, and whether the greatest comes first. -/
abbrev Engine.Key (E : Engine) : Type := E.Datum × Bool

namespace Engine

variable (E : Engine)

/-- Whether a scalar comes before another in a direction. -/
def Ahead (descending : Bool) (a b : E.Datum) : Prop :=
  if descending then E.less b a else E.less a b

/-- Whether keys come before others: the first that tells them apart decides. -/
def Before : List E.Key → List E.Key → Prop
  | (a, descending) :: keys, (b, _) :: keys' =>
    E.Ahead descending a b ∨ (¬ E.Ahead descending b a ∧ Before keys keys')
  | _, _ => False

end Engine

section

variable {ρ σ γ : Type} {E : Engine}

/-- One row is picked of those with equal cells. -/
structure Picks (cells : ρ → γ) (rows picked : List ρ) : Prop where
  subset : picked ⊆ rows
  nodup : (picked.map cells).Nodup
  covers : ∀ a ∈ rows, ∃ b ∈ picked, cells b = cells a

/-- The rows in an order that the keys leave open. -/
structure Arranges (keys : ρ → List E.Key) (rows arranged : List ρ) : Prop where
  perm : arranged.Perm rows
  sorted : arranged.Pairwise fun a b => ¬ E.Before (keys b) (keys a)

/-- The first rows, if there is a limit. -/
def limited (top : Option Nat) (rows : List ρ) : List ρ :=
  match top with
  | some n => rows.take n
  | none => rows

/-- Duplicates are dropped if so wanted, the rest is put in order, and a limit cuts off what comes after. -/
def Settles (cells : ρ → List E.Datum) (keys : ρ → List E.Key) (distinct : Bool) (top : Option Nat)
    (rows : List ρ) (result : List (List E.Datum)) : Prop :=
  ∃ picked arranged, (if distinct then Picks cells rows picked else picked = rows) ∧
    Arranges keys picked arranged ∧ result = (limited top arranged).map cells

/-! ## Rows and what they are made of -/

theorem limited_map (top : Option Nat) (f : ρ → σ) (rows : List ρ) :
    limited top (rows.map f) = (limited top rows).map f := by
  cases top with
  | none => rfl
  | some n => exact (List.map_take ..).symm

/-- Rows that are some of the images are images of some rows. -/
theorem exists_map_eq_of_subset {f : ρ → σ} {rows : List ρ} {picked : List σ} (h : picked ⊆ rows.map f) :
    ∃ picked' : List ρ, picked' ⊆ rows ∧ picked'.map f = picked := by
  induction picked with
  | nil => exact ⟨[], List.nil_subset _, rfl⟩
  | cons b picked ih =>
    obtain ⟨a, ha, hb⟩ := List.mem_map.mp (h (List.mem_cons_self ..))
    obtain ⟨picked', hpicked, hmap⟩ := ih fun x hx => h (List.mem_cons_of_mem _ hx)
    exact ⟨a :: picked', List.cons_subset.mpr ⟨ha, hpicked⟩, by rw [List.map_cons, hb, hmap]⟩

/-- Images in another order are images of rows in another order. -/
theorem exists_map_eq_of_perm {f : ρ → σ} {rows : List ρ} {arranged : List σ}
    (h : arranged.Perm (rows.map f)) : ∃ arranged' : List ρ, arranged'.Perm rows ∧ arranged'.map f = arranged := by
  induction rows generalizing arranged with
  | nil =>
    have hnil : arranged = [] := List.perm_nil.mp (by simpa using h)
    exact ⟨[], List.Perm.nil, hnil.symm⟩
  | cons a rows ih =>
    obtain ⟨before, after, rfl⟩ := List.append_of_mem (h.symm.subset (List.mem_cons_self ..))
    have hrest : (before ++ after).Perm (rows.map f) :=
      (List.perm_cons (f a)).mp (List.perm_middle.symm.trans h)
    obtain ⟨others, hothers, hmap⟩ := ih hrest
    obtain ⟨before', after', rfl, rfl, rfl⟩ := List.map_eq_append_iff.mp hmap
    exact ⟨before' ++ a :: after', List.perm_middle.trans (hothers.cons a), by simp⟩

theorem Picks.map_iff {cells : σ → γ} {f : ρ → σ} {rows : List ρ} {picked : List σ} :
    Picks cells (rows.map f) picked ↔
      ∃ picked', picked'.map f = picked ∧ Picks (fun a => cells (f a)) rows picked' := by
  constructor
  · intro h
    obtain ⟨picked', hsubset, rfl⟩ := exists_map_eq_of_subset h.subset
    refine ⟨picked', rfl, hsubset, by simpa [Function.comp_def] using h.nodup, fun a ha => ?_⟩
    obtain ⟨b, hb, hcells⟩ := h.covers (f a) (List.mem_map_of_mem ha)
    obtain ⟨b', hb', rfl⟩ := List.mem_map.mp hb
    exact ⟨b', hb', hcells⟩
  · rintro ⟨picked', rfl, h⟩
    refine ⟨List.map_subset f h.subset, by simpa [Function.comp_def] using h.nodup, fun b hb => ?_⟩
    obtain ⟨a, ha, rfl⟩ := List.mem_map.mp hb
    obtain ⟨a', ha', hcells⟩ := h.covers a ha
    exact ⟨f a', List.mem_map_of_mem ha', hcells⟩

theorem Arranges.map_iff {keys : σ → List E.Key} {f : ρ → σ} {rows : List ρ} {arranged : List σ} :
    Arranges keys (rows.map f) arranged ↔
      ∃ arranged', arranged'.map f = arranged ∧ Arranges (fun a => keys (f a)) rows arranged' := by
  constructor
  · intro h
    obtain ⟨arranged', hperm, rfl⟩ := exists_map_eq_of_perm h.perm
    exact ⟨arranged', rfl, hperm, List.pairwise_map.mp h.sorted⟩
  · rintro ⟨arranged', rfl, h⟩
    exact ⟨h.perm.map f, List.pairwise_map.mpr h.sorted⟩

/-- Settling looks at the cells and keys of rows only. -/
theorem Settles.map_iff {cells : σ → List E.Datum} {keys : σ → List E.Key} {f : ρ → σ} {distinct : Bool}
    {top : Option Nat} {rows : List ρ} {result : List (List E.Datum)} :
    Settles cells keys distinct top (rows.map f) result ↔
      Settles (fun a => cells (f a)) (fun a => keys (f a)) distinct top rows result := by
  constructor
  · rintro ⟨picked, arranged, hpicked, harranged, rfl⟩
    have hlift : ∃ picked', picked'.map f = picked ∧
        if distinct then Picks (fun a => cells (f a)) rows picked' else picked' = rows := by
      cases distinct with
      | false => exact ⟨rows, hpicked.symm, rfl⟩
      | true => exact Picks.map_iff.mp hpicked
    obtain ⟨picked', rfl, hpicked'⟩ := hlift
    obtain ⟨arranged', rfl, harranged'⟩ := Arranges.map_iff.mp harranged
    exact ⟨picked', arranged', hpicked', harranged', by rw [limited_map, List.map_map]; rfl⟩
  · rintro ⟨picked, arranged, hpicked, harranged, rfl⟩
    refine ⟨picked.map f, arranged.map f, ?_, Arranges.map_iff.mpr ⟨arranged, rfl, harranged⟩, ?_⟩
    · cases distinct with
      | false => exact congrArg (List.map f) hpicked
      | true => exact Picks.map_iff.mpr ⟨picked, rfl, hpicked⟩
    · rw [limited_map, List.map_map]
      rfl

/-! ## Duplicates -/

open Classical in
/-- One row can be picked of those with equal cells. -/
theorem exists_picks (cells : ρ → γ) (rows : List ρ) : ∃ picked, Picks cells rows picked := by
  induction rows with
  | nil => exact ⟨[], List.nil_subset _, List.nodup_nil, by simp⟩
  | cons a rows ih =>
    obtain ⟨picked, hsubset, hnodup, hcovers⟩ := ih
    by_cases ha : ∃ b ∈ picked, cells b = cells a
    · refine ⟨picked, List.subset_cons_of_subset a hsubset, hnodup, fun b hb => ?_⟩
      rcases List.mem_cons.mp hb with rfl | hb
      · exact ha
      · exact hcovers b hb
    · refine ⟨a :: picked, List.cons_subset_cons a hsubset, ?_, fun b hb => ?_⟩
      · refine List.nodup_cons.mpr ⟨fun hmem => ha ?_, hnodup⟩
        obtain ⟨b, hb, hcells⟩ := List.mem_map.mp hmem
        exact ⟨b, hb, hcells⟩
      · rcases List.mem_cons.mp hb with rfl | hb
        · exact ⟨b, List.mem_cons_self .., rfl⟩
        · obtain ⟨b', hb', hcells⟩ := hcovers b hb
          exact ⟨b', List.mem_cons_of_mem _ hb', hcells⟩

/-- Duplicates can be dropped once only. -/
theorem Picks.picks_iff {cells : ρ → γ} {rows picked : List ρ} :
    (∃ first, Picks cells rows first ∧ Picks cells first picked) ↔ Picks cells rows picked := by
  constructor
  · rintro ⟨first, h, h'⟩
    refine ⟨List.Subset.trans h'.subset h.subset, h'.nodup, fun a ha => ?_⟩
    obtain ⟨b, hb, hba⟩ := h.covers a ha
    obtain ⟨c, hc, hcb⟩ := h'.covers b hb
    exact ⟨c, hc, hcb.trans hba⟩
  · intro h
    exact ⟨picked, h, List.Subset.refl _, h.nodup, fun a ha => ⟨a, ha, rfl⟩⟩

/-- Dropping rows and dropping duplicates commute if rows with equal cells are kept or dropped alike. -/
theorem Picks.filter_iff {cells : ρ → γ} {keep : ρ → Bool} {rows picked : List ρ}
    (halike : ∀ a ∈ rows, ∀ b ∈ rows, cells a = cells b → keep a = keep b) :
    (∃ first, Picks cells rows first ∧ first.filter keep = picked) ↔
      Picks cells (rows.filter keep) picked := by
  constructor
  · rintro ⟨first, h, rfl⟩
    refine ⟨fun a ha => ?_, h.nodup.sublist (List.filter_sublist.map cells), fun a ha => ?_⟩
    · have ha' := List.mem_filter.mp ha
      exact List.mem_filter.mpr ⟨h.subset ha'.1, ha'.2⟩
    · have ha' := List.mem_filter.mp ha
      obtain ⟨b, hb, hcells⟩ := h.covers a ha'.1
      have hkeep : keep b = true := (halike b (h.subset hb) a ha'.1 hcells).trans ha'.2
      exact ⟨b, List.mem_filter.mpr ⟨hb, hkeep⟩, hcells⟩
  · intro h
    -- what is picked of the rows that are kept, and beside it some of each that is dropped
    obtain ⟨dropped, hdropped⟩ := exists_picks cells (rows.filter fun a => !keep a)
    have hpicked : ∀ a ∈ picked, a ∈ rows ∧ keep a = true := fun a ha => List.mem_filter.mp (h.subset ha)
    have hother : ∀ a ∈ dropped, a ∈ rows ∧ keep a = false := fun a ha => by
      simpa using List.mem_filter.mp (hdropped.subset ha)
    refine ⟨picked ++ dropped, ⟨fun a ha => ?_, ?_, fun a ha => ?_⟩, ?_⟩
    · rcases List.mem_append.mp ha with ha | ha
      · exact (hpicked a ha).1
      · exact (hother a ha).1
    · rw [List.map_append, List.nodup_append]
      refine ⟨h.nodup, hdropped.nodup, fun c hc c' hc' hne => ?_⟩
      obtain ⟨a, ha, rfl⟩ := List.mem_map.mp hc
      obtain ⟨b, hb, rfl⟩ := List.mem_map.mp hc'
      have hkeep := halike a (hpicked a ha).1 b (hother b hb).1 hne
      rw [(hpicked a ha).2, (hother b hb).2] at hkeep
      exact Bool.noConfusion hkeep
    · cases hkeep : keep a with
      | true =>
        obtain ⟨b, hb, hcells⟩ := h.covers a (List.mem_filter.mpr ⟨ha, hkeep⟩)
        exact ⟨b, List.mem_append_left _ hb, hcells⟩
      | false =>
        obtain ⟨b, hb, hcells⟩ := hdropped.covers a (List.mem_filter.mpr ⟨ha, by simp [hkeep]⟩)
        exact ⟨b, List.mem_append_right _ hb, hcells⟩
    · rw [List.filter_append, List.filter_eq_self.mpr fun a ha => (hpicked a ha).2,
        List.filter_eq_nil_iff.mpr fun a ha => by simp [(hother a ha).2], List.append_nil]

/-! ## Limits -/

/-- The first rows of an arrangement, arranged anew, begin another arrangement of all rows. -/
theorem Arranges.rearrange {keys : ρ → List E.Key} {rows arranged again : List ρ} {n : Nat}
    (h : Arranges keys rows arranged) (h' : Arranges keys (arranged.take n) again) :
    Arranges keys rows (again ++ arranged.drop n) := by
  refine ⟨?_, ?_⟩
  · calc (again ++ arranged.drop n).Perm (arranged.take n ++ arranged.drop n) := h'.perm.append_right _
      _ = arranged := List.take_append_drop n arranged
      List.Perm _ rows := h.perm
  · have hall := h.sorted
    rw [← List.take_append_drop n arranged, List.pairwise_append] at hall
    refine List.pairwise_append.mpr ⟨h'.sorted, hall.2.1, fun a ha b hb => ?_⟩
    exact hall.2.2 a (h'.perm.subset ha) b hb

/-- Two limits one after another are the smaller one, though the rows are arranged anew in between. -/
theorem Arranges.take_take {keys : ρ → List E.Key} {rows result : List ρ} {m n : Nat} :
    (∃ arranged again, Arranges keys rows arranged ∧ Arranges keys (arranged.take m) again ∧
        result = again.take n) ↔
      ∃ arranged, Arranges keys rows arranged ∧ result = arranged.take (min m n) := by
  constructor
  · rintro ⟨arranged, again, h, h', rfl⟩
    refine ⟨again ++ arranged.drop m, h.rearrange h', ?_⟩
    have hlength : again.length = min m arranged.length := by
      rw [h'.perm.length_eq, List.length_take]
    by_cases hm : m ≤ arranged.length
    · rw [List.take_append_of_le_length (by omega)]
      exact List.take_eq_take_iff.mpr (by omega)
    · rw [List.drop_eq_nil_of_le (by omega), List.append_nil]
      exact List.take_eq_take_iff.mpr (by omega)
  · rintro ⟨arranged, h, rfl⟩
    refine ⟨arranged, arranged.take m, h, ⟨List.Perm.refl _, h.sorted.sublist (List.take_sublist ..)⟩, ?_⟩
    rw [List.take_take, Nat.min_comm]

end

end QueryChain
