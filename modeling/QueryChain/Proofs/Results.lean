import Mathlib.Data.List.Forall2
import QueryChain.Fault

/-!
# Results one after another

Where one result needs another, both have to be there; where a list is gone through in order, the first fault ends it.

* `bind_eq_ok`: a result that needs another one.
* `mapM_eq_ok_iff`: a list is gone through to its end exactly if every element has its result.
* `mapM_append_eq_error`: the first element without a result decides on the fault.
* `lookup_map`: what is looked up in a list whose values have been changed.
-/

namespace QueryChain

/-- A sequence of results is there where each result is. -/
theorem bind_eq_ok {α β : Type} {x : Except Fault α} {f : α → Except Fault β} {b : β} :
    (x >>= f) = .ok b ↔ ∃ a, x = .ok a ∧ f a = .ok b := by
  cases x with
  | error e => exact ⟨nofun, nofun⟩
  | ok a => exact ⟨fun h => ⟨a, rfl, h⟩, fun ⟨_, ha, h⟩ => by cases ha; exact h⟩

section

variable {α β : Type} {f : α → Except Fault β} {as : List α}

theorem mapM_eq_ok_iff {bs : List β} : as.mapM f = .ok bs ↔ List.Forall₂ (fun a b => f a = .ok b) as bs := by
  induction as generalizing bs with
  | nil =>
    rw [List.mapM_nil, List.forall₂_nil_left_iff]
    exact ⟨fun h => (Except.ok.inj h).symm, fun h => h ▸ rfl⟩
  | cons a rest ih =>
    rw [List.mapM_cons, bind_eq_ok, List.forall₂_cons_left_iff]
    constructor
    · rintro ⟨b, hb, h⟩
      obtain ⟨more, hmore, ⟨⟩⟩ := bind_eq_ok.mp h
      exact ⟨b, more, hb, ih.mp hmore, rfl⟩
    · rintro ⟨b, more, hb, hmore, rfl⟩
      exact ⟨b, hb, bind_eq_ok.mpr ⟨more, ih.mpr hmore, rfl⟩⟩

theorem exists_mapM_eq_ok_iff : (∃ bs, as.mapM f = .ok bs) ↔ ∀ a ∈ as, ∃ b, f a = .ok b := by
  simp only [mapM_eq_ok_iff]
  induction as with
  | nil => exact ⟨fun _ => List.forall_mem_nil _, fun _ => ⟨[], .nil⟩⟩
  | cons a rest ih =>
    rw [List.forall_mem_cons, ← ih]
    simp only [List.forall₂_cons_left_iff]
    constructor
    · rintro ⟨_, b, more, hb, hmore, rfl⟩
      exact ⟨⟨b, hb⟩, more, hmore⟩
    · rintro ⟨⟨b, hb⟩, more, hmore⟩
      exact ⟨_, b, more, hb, hmore, rfl⟩

theorem mapM_append_eq_error {before after : List α} {a : α} {fault : Fault} (hbefore : ∀ x ∈ before, ∃ b, f x = .ok b)
    (ha : f a = .error fault) : (before ++ a :: after).mapM f = .error fault := by
  obtain ⟨bs, hbs⟩ := exists_mapM_eq_ok_iff.mpr hbefore
  rw [List.mapM_append, hbs, List.mapM_cons, ha]
  rfl

end

theorem lookup_map {α β : Type} (f : α → β) (name : String) (l : List (String × α)) :
    (l.map fun p => (p.1, f p.2)).lookup name = (l.lookup name).map f := by
  induction l with
  | nil => rfl
  | cons p l ih =>
    rw [List.map_cons, List.lookup_cons, List.lookup_cons, ih]
    cases name == p.1 <;> rfl

end QueryChain
