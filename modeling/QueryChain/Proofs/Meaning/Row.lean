import Mathlib.Data.List.Induction
import QueryChain.Proofs.Meaning.Statement
import QueryChain.Proofs.Results

/-!
# What rows come to

What an expression stands for while it is lowered comes to an item, once the aliases of the statement stand for
records. A row of a join comes to its members; they may be rows of earlier joins.

* `Row.item`: what a row comes to.
* `Row.item_congr`: a row looks at its own tables and joins only.
* `Engine.joinItems_append`: another join leaves the rows of earlier ones alone.
-/

namespace QueryChain

mutual

/-- What a row comes to, given the records that aliases stand for and the rows of the joins. -/
def Row.item (E : Engine) (s : E.Scope) (joined : List (Item E.Datum)) : Row → Item E.Datum
  | .scalar v => .known v
  | .host c => .host c
  | .term t => .datum (t.value E s)
  | .table t => E.ofRecord t.model (s t.label)
  | .projected _ list => .record (Row.items E s joined list)
  | .joined index => (joined[index]?).getD (.datum E.null)
  | .group _ _ => .datum E.null

/-- What members come to. -/
def Row.items (E : Engine) (s : E.Scope) (joined : List (Item E.Datum)) :
    List (String × Row) → List (String × Item E.Datum)
  | [] => []
  | member :: rest => Row.memberItem E s joined member :: Row.items E s joined rest

/-- What a member comes to. -/
def Row.memberItem (E : Engine) (s : E.Scope) (joined : List (Item E.Datum)) :
    String × Row → String × Item E.Datum
  | (name, r) => (name, r.item E s joined)

end

/-- A term refers to the aliases of some tables only. -/
def Term.Over (T : TableRef → Prop) (t : Term) : Prop :=
  ∀ p ∈ t.columns, ∃ table, T table ∧ p.1 = table.label

mutual

/-- A row is made of some tables and joins only, and of no group. -/
def Row.Over (T : TableRef → Prop) (I : Nat → Prop) : Row → Prop
  | .scalar _ | .host _ => True
  | .term t => t.Over T
  | .table t => T t
  | .projected _ list => Row.MembersOver T I list
  | .joined index => I index
  | .group _ _ => False

/-- Members are made of some tables and joins only. -/
def Row.MembersOver (T : TableRef → Prop) (I : Nat → Prop) : List (String × Row) → Prop
  | [] => True
  | member :: rest => Row.MemberOver T I member ∧ Row.MembersOver T I rest

/-- A member is made of some tables and joins only. -/
def Row.MemberOver (T : TableRef → Prop) (I : Nat → Prop) : String × Row → Prop
  | (_, r) => r.Over T I

end

namespace Engine

variable (E : Engine)

/-- The rows of joins, from left to right. -/
def joinItems (s : E.Scope) (js : List Join) : List (Item E.Datum) :=
  js.foldl (fun joined j => joined ++ [.record (Row.items E s joined j.fields.list)]) []

end Engine

/-- The rows of joins are made of some tables and of earlier joins. -/
def JoinsOver (T : TableRef → Prop) (js : List Join) : Prop :=
  ∀ i j, js[i]? = some j → Row.MembersOver T (· < i) j.fields.list

section

variable {E : Engine} {T T' : TableRef → Prop} {I I' : Nat → Prop} {s s' : E.Scope}
  {joined joined' : List (Item E.Datum)} {js : List Join}

/-! ## Members -/

theorem Row.items_eq_map (list : List (String × Row)) :
    Row.items E s joined list = list.map fun p => (p.1, p.2.item E s joined) := by
  induction list with
  | nil => rfl
  | cons p list ih => rw [Row.items, ih, Row.memberItem, List.map_cons]

theorem Row.membersOver_iff {list : List (String × Row)} :
    Row.MembersOver T I list ↔ ∀ p ∈ list, p.2.Over T I := by
  induction list with
  | nil => simp [Row.MembersOver]
  | cons p list ih => rw [Row.MembersOver, Row.MemberOver, ih, List.forall_mem_cons]

theorem Row.MembersOver.lookup {list : List (String × Row)} (h : Row.MembersOver T I list) {name : String}
    {r : Row} (hr : list.lookup name = some r) : r.Over T I := by
  induction list with
  | nil => cases hr
  | cons p list ih =>
    rw [List.lookup_cons] at hr
    cases hname : name == p.1 with
    | true =>
      rw [hname] at hr
      cases hr
      obtain ⟨name, r⟩ := p
      exact h.1
    | false =>
      rw [hname] at hr
      exact ih h.2 hr

theorem Row.lookup_items (name : String) (list : List (String × Row)) :
    (Row.items E s joined list).lookup name = (list.lookup name).map (·.item E s joined) := by
  rw [Row.items_eq_map, lookup_map]

/-! ## What a row looks at -/

theorem Term.Over.mono {t : Term} (h : t.Over T) (hT : ∀ table, T table → T' table) : t.Over T' := by
  intro p hp
  obtain ⟨table, htable, hlabel⟩ := h p hp
  exact ⟨table, hT table htable, hlabel⟩

/-- A term has one value in scopes that agree on its tables. -/
theorem Term.Over.value_congr {t : Term} (h : t.Over T) (hs : ∀ table, T table → s table.label = s' table.label) :
    t.value E s = t.value E s' := by
  refine Term.value_congr fun p hp => ?_
  obtain ⟨table, htable, hlabel⟩ := h p hp
  rw [hlabel]
  exact hs table htable

mutual

theorem Row.Over.mono (hT : ∀ table, T table → T' table) (hI : ∀ i, I i → I' i) :
    {r : Row} → r.Over T I → r.Over T' I'
  | .scalar _, _ | .host _, _ => trivial
  | .term _, h => Term.Over.mono h hT
  | .table t, h => hT t h
  | .projected _ _, h => Row.MembersOver.mono hT hI h
  | .joined index, h => hI index h

theorem Row.MembersOver.mono (hT : ∀ table, T table → T' table) (hI : ∀ i, I i → I' i) :
    {list : List (String × Row)} → Row.MembersOver T I list → Row.MembersOver T' I' list
  | [], _ => trivial
  | _ :: _, h => ⟨Row.MemberOver.mono hT hI h.1, Row.MembersOver.mono hT hI h.2⟩

theorem Row.MemberOver.mono (hT : ∀ table, T table → T' table) (hI : ∀ i, I i → I' i) :
    {member : String × Row} → Row.MemberOver T I member → Row.MemberOver T' I' member
  | (_, _), h => Row.Over.mono hT hI h

end

mutual

/-- A row looks at its own tables and joins only. -/
theorem Row.item_congr (hs : ∀ table, T table → s table.label = s' table.label)
    (hjoined : ∀ i, I i → joined[i]? = joined'[i]?) :
    {r : Row} → r.Over T I → r.item E s joined = r.item E s' joined'
  | .scalar _, _ | .host _, _ => rfl
  | .term t, h => by rw [Row.item, Row.item, Term.Over.value_congr h hs]
  | .table t, h => by rw [Row.item, Row.item, hs t h]
  | .projected _ list, h => by rw [Row.item, Row.item, Row.items_congr hs hjoined h]
  | .joined index, h => by rw [Row.item, Row.item, hjoined index h]

theorem Row.items_congr (hs : ∀ table, T table → s table.label = s' table.label)
    (hjoined : ∀ i, I i → joined[i]? = joined'[i]?) :
    {list : List (String × Row)} → Row.MembersOver T I list →
      Row.items E s joined list = Row.items E s' joined' list
  | [], _ => rfl
  | _ :: _, h => by
    rw [Row.items, Row.items, Row.memberItem_congr hs hjoined h.1, Row.items_congr hs hjoined h.2]

theorem Row.memberItem_congr (hs : ∀ table, T table → s table.label = s' table.label)
    (hjoined : ∀ i, I i → joined[i]? = joined'[i]?) :
    {member : String × Row} → Row.MemberOver T I member →
      Row.memberItem E s joined member = Row.memberItem E s' joined' member
  | (_, _), h => by rw [Row.memberItem, Row.memberItem, Row.item_congr hs hjoined h]

end

/-! ## Rows of joins -/

namespace Engine

@[simp] theorem joinItems_nil : E.joinItems s [] = [] := rfl

theorem joinItems_append (j : Join) :
    E.joinItems s (js ++ [j]) =
      E.joinItems s js ++ [.record (Row.items E s (E.joinItems s js) j.fields.list)] := by
  simp [joinItems]

@[simp] theorem length_joinItems : (E.joinItems s js).length = js.length := by
  induction js using List.reverseRecOn with
  | nil => rfl
  | append_singleton js j ih => rw [joinItems_append, List.length_append, ih, List.length_append]; rfl

/-- More joins leave the rows of earlier ones alone. -/
theorem joinItems_getElem?_append {i : Nat} (hi : i < js.length) (more : List Join) :
    (E.joinItems s (js ++ more))[i]? = (E.joinItems s js)[i]? := by
  induction more using List.reverseRecOn with
  | nil => rw [List.append_nil]
  | append_singleton more j ih =>
    rw [← List.append_assoc, joinItems_append, List.getElem?_append_left, ih]
    rw [length_joinItems, List.length_append]
    omega

/-- A row of a join comes to its members. -/
theorem joinItems_getElem? {i : Nat} {j : Join} (hj : js[i]? = some j) (h : JoinsOver T js) :
    (E.joinItems s js)[i]? = some (.record (Row.items E s (E.joinItems s js) j.fields.list)) := by
  have hi : i < js.length := (List.getElem?_eq_some_iff.mp hj).1
  have htake : (js.take i).length = i := by rw [List.length_take]; omega
  have hsplit : js = js.take i ++ [j] ++ js.drop (i + 1) := by
    rw [List.append_assoc, List.singleton_append, ← (List.getElem?_eq_some_iff.mp hj).2,
      List.getElem_cons_drop, List.take_append_drop]
  have hbefore : ∀ k, k < i → (E.joinItems s (js.take i))[k]? = (E.joinItems s js)[k]? := by
    intro k hk
    conv_rhs => rw [hsplit, List.append_assoc]
    rw [joinItems_getElem?_append (by omega)]
  calc (E.joinItems s js)[i]?
      = (E.joinItems s (js.take i ++ [j]))[i]? := by
        conv_lhs => rw [hsplit]
        exact joinItems_getElem?_append (by rw [List.length_append, htake, List.length_singleton]; omega) _
    _ = some (.record (Row.items E s (E.joinItems s (js.take i)) j.fields.list)) := by
        rw [joinItems_append, List.getElem?_append_right (Nat.le_of_eq (by rw [length_joinItems, htake])),
          length_joinItems, htake, Nat.sub_self]
        rfl
    _ = some (.record (Row.items E s (E.joinItems s js) j.fields.list)) := by
        rw [Row.items_congr (fun _ _ => rfl) hbefore (h i j hj)]

/-- The rows of joins look at their own tables only. -/
theorem joinItems_congr (h : JoinsOver T js) (hs : ∀ table, T table → s table.label = s' table.label) :
    E.joinItems s js = E.joinItems s' js := by
  induction js using List.reverseRecOn with
  | nil => rfl
  | append_singleton js j ih =>
    have hjs : JoinsOver T js := fun i k hk => h i k <| by
      rw [List.getElem?_append_left (List.getElem?_eq_some_iff.mp hk).1, hk]
    have hj : Row.MembersOver T (· < js.length) j.fields.list := h js.length j (by simp)
    rw [joinItems_append, joinItems_append, ih hjs, Row.items_congr hs (fun _ _ => rfl) hj]

end Engine

theorem JoinsOver.mono (h : JoinsOver T js) (hT : ∀ table, T table → T' table) : JoinsOver T' js :=
  fun i j hj => (h i j hj).mono hT fun _ hk => hk

theorem JoinsOver.append (h : JoinsOver T js) {j : Join} (hj : Row.MembersOver T (· < js.length) j.fields.list) :
    JoinsOver T (js ++ [j]) := by
  intro i k hk
  by_cases hi : i < js.length
  · rw [List.getElem?_append_left hi] at hk
    exact h i k hk
  · rw [List.getElem?_append_right (by omega)] at hk
    obtain ⟨hlt, rfl⟩ := List.getElem?_eq_some_iff.mp hk
    have hieq : i = js.length := by simp at hlt; omega
    subst hieq
    simpa using hj

end

end QueryChain
