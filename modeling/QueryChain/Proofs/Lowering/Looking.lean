import QueryChain.Proofs.Lowering.Keeping
import QueryChain.Proofs.Lowering.Traversal
import QueryChain.Proofs.Scope.Lookup

/-!
# Steps that look at rows

Members, scalars, keys, operators between two expressions and methods come of looking at rows. A step that looks at
rows changes nothing, and of the clauses it looks at the rows of joins only. So a judgement of steps extends to these
if it has rules for what is yielded, for faults, for the rows of joins, and for steps one after another.

* `Lower.Rules`, `Lower.Looks`: what a judgement has to say, and what it has to say of joins besides.
* `Lower.Rules.judged_combine`, `Lower.Rules.judged_callMethod`: operators between two expressions, and methods.
* `Lower.Looks.judged_memberOf`, `Lower.Looks.judged_keyTerms`: members and keys.
* `looks_of_yields`: judgements that do not go by what is yielded.
* `Lower.JoinsAre.looks`: an invariant of the clauses is kept.
-/

namespace QueryChain

open Lowering Lower

/-! ## Judgements -/

/-- What a judgement of steps says of what is yielded at once, of faults that do not come of looking something up, and
of steps one after another. -/
structure Lower.Rules (K : ∀ α : Type, (α → Prop) → Lower α → Prop) : Prop where
  pure : ∀ {α : Type} {S : α → Prop} {a : α}, S a → K α S (Pure.pure a)
  throw : ∀ {α : Type} {S : α → Prop} {f : Fault}, f.isOfLookup = false → K α S (MonadExcept.throw f)
  bind : ∀ {α β : Type} {S : α → Prop} {U : β → Prop} {m : Lower α} {k : α → Lower β}, K α S m →
    (∀ a, S a → K β U (k a)) → K β U (m >>= k)

/-- And of the members of a join that a row refers to. -/
structure Lower.Looks (K : ∀ α : Type, (α → Prop) → Lower α → Prop) (R : Row → Prop) : Prop extends Rules K where
  joinAt : ∀ {α : Type} {S : α → Prop} {index : Nat} {k : Entries → Lower α}, R (.joined index) →
    (∀ fields : Entries, (∀ p ∈ fields.list, R p.2) → K α S (k fields)) →
    K α S (Lower.joinAt index >>= fun j => k j.fields)

/-- A judgement that holds of every fault has the rules. -/
theorem Lower.Judgement.rules {K : ∀ α : Type, (α → Prop) → Lower α → Prop} (h : Judgement K) : Rules K :=
  ⟨h.pure, fun _ => h.throw _, h.bind⟩

/-! ## Scalars and methods -/

namespace Lower.Rules

variable {K : ∀ α : Type, (α → Prop) → Lower α → Prop} {R : Row → Prop} {T : Term → Prop} (h : Rules K)
include h

/-- Nothing comes after a failure. -/
theorem judged_throw_bind {α β : Type} {U : β → Prop} {f : Fault} (hf : f.isOfLookup = false) (k : α → Lower β) :
    K β U (MonadExcept.throw f >>= k) :=
  h.bind (S := fun _ => False) (h.throw hf) fun _ ha => ha.elim

theorem judged_require {α : Type} {S : α → Prop} {r : Except Fault α} (hr : FindsAll r) (hS : ∀ a, r = .ok a → S a) :
    K α S (require r) := by
  cases r with
  | error f => exact h.throw (hr f rfl)
  | ok a => exact h.pure (hS a rfl)

theorem judged_find {e : Entries} (he : ∀ p ∈ e.list, R p.2) (name : String) : K Row R (require (e.find name)) := by
  refine h.judged_require (e.findsAll_find name) fun r hr => ?_
  rw [Entries.find] at hr
  split at hr
  · rename_i found hfound
    cases hr
    exact forall_lookup he hfound
  · cases hr

section Terms

variable (hclosed : Lower.Closed R T)
include hclosed

theorem judged_columnOf {t : TableRef} (ht : R (.table t)) (field : String) :
    K String (fun column => T (.column t.label column)) (require (t.model.columnOf field)) := by
  refine h.judged_require (findsAll_columnOf t.model field) fun column hcolumn => ?_
  rw [Model.columnOf] at hcolumn
  split at hcolumn
  · rename_i f hf
    cases hcolumn
    exact hclosed.ofTable ht f (List.mem_of_find?_eq_some hf)
  · cases hcolumn

theorem judged_scalarTerm {r : Row} (hr : R r) : K Term T (scalarTerm r) := by
  refine h.judged_require r.findsAll_toTerm fun t ht => ?_
  cases r with
  | term u =>
    cases ht
    exact hclosed.ofTerm hr
  | scalar v =>
    obtain ⟨_, -, ⟨⟩⟩ := bind_eq_ok.mp ht
    exact hclosed.literal v
  | _ => cases ht

theorem judged_scalarTerms {list : List (String × Row)} (hlist : ∀ p ∈ list, R p.2) :
    K (List Term) (fun ts => ∀ t ∈ ts, T t) (scalarTerms list) := by
  induction list with
  | nil => exact h.pure (List.forall_mem_nil _)
  | cons p rest ih =>
    obtain ⟨hp, hrest⟩ := List.forall_mem_cons.mp hlist
    exact h.bind (h.judged_scalarTerm hclosed hp) fun t ht => h.bind (ih hrest) fun ts hts =>
      h.pure (List.forall_mem_cons.mpr ⟨ht, hts⟩)

theorem judged_groupKey {key : Row} (hkey : R key) : K Term T (groupKey key) := by
  cases key with
  | term t => exact h.pure (hclosed.ofTerm hkey)
  | scalar v => exact h.judged_scalarTerm hclosed hkey
  | _ => exact h.throw rfl

theorem judged_combine (op : BinaryOp) (concat : Bool) {l r : Row} (hl : R l) (hr : R r) :
    K Row R (combine op concat l r) := by
  have hleft := h.judged_scalarTerm hclosed hl
  have hright := h.judged_scalarTerm hclosed hr
  rw [combine]
  split
  · exact h.bind hleft fun t ht => h.pure (hclosed.term (hclosed.nullTest _ ht))
  · split
    · exact h.bind hright fun t ht => h.pure (hclosed.term (hclosed.nullTest _ ht))
    · refine h.bind hleft fun t ht => h.bind hright fun u hu => h.pure (hclosed.term ?_)
      cases concat with
      | true => exact hclosed.concat ht hu
      | false => exact hclosed.binary op ht hu

omit hclosed in
theorem judged_single (method : String) {args : List Row} (hargs : ∀ r ∈ args, R r) :
    K Row R (single method args) := by
  unfold single
  split
  · exact h.pure (hargs _ List.mem_cons_self)
  · exact h.throw rfl

theorem judged_methodTerm (name : String) {t : Term} (ht : T t) {args : List Row} (hargs : ∀ r ∈ args, R r) :
    K Term T (methodTerm name t args) := by
  rw [methodTerm]
  split
  · exact h.pure (hclosed.toText ht)
  · exact h.pure (hclosed.change _ ht)
  · refine h.bind (h.judged_single name hargs) fun needle hneedle => ?_
    split
    · exact h.pure (hclosed.likeText _ _ ht)
    · exact h.bind (h.judged_scalarTerm hclosed hneedle) fun u hu => h.pure (hclosed.likeTerm _ ht hu)
  · exact h.bind (h.judged_single name hargs) fun amount hamount =>
      h.bind (h.judged_scalarTerm hclosed hamount) fun u hu => h.pure (hclosed.dateAdd _ hu ht)
  · exact h.throw rfl

theorem judged_callMethod (name : String) {receiver : Row} (hreceiver : R receiver) {args : List Row}
    (hargs : ∀ r ∈ args, R r) : K Row R (Lowering.callMethod name receiver args) := by
  rw [Lowering.callMethod]
  split
  · exact h.bind (h.judged_require (S := fun _ => True) (Value.findsAll_invoke _ name _) fun _ _ => trivial)
      fun v _ => h.pure (hclosed.scalar v)
  · exact h.bind (h.judged_scalarTerm hclosed hreceiver) fun t ht =>
      h.bind (h.judged_methodTerm hclosed name ht hargs) fun u hu => h.pure (hclosed.term hu)

end Terms

end Lower.Rules

/-! ## Members and keys -/

namespace Lower.Looks

variable {K : ∀ α : Type, (α → Prop) → Lower α → Prop} {R : Row → Prop} {T : Term → Prop} (h : Looks K R)
  (hclosed : Lower.Closed R T)
include h hclosed

theorem judged_memberOf {target : Row} (ht : R target) (field : String) : K Row R (memberOf target field) := by
  cases target with
  | scalar v =>
    cases v with
    | text s =>
      rw [memberOf]
      split
      · exact h.pure (hclosed.scalar _)
      · exact h.throw rfl
    | _ => exact h.throw rfl
  | host c =>
    exact h.bind (h.judged_require (S := fun _ => True) (c.findsAll_member field) fun _ _ => trivial)
      fun _ _ => h.pure (hclosed.captured _)
  | term t =>
    rw [memberOf]
    split
    · exact h.pure (hclosed.term (hclosed.length (hclosed.ofTerm ht)))
    · exact h.throw rfl
  | table t => exact h.bind (h.judged_columnOf hclosed ht field) fun column hcolumn => h.pure (hclosed.term hcolumn)
  | projected typeName list => exact h.judged_find (hclosed.ofProjected ht) field
  | joined index => exact h.joinAt ht fun fields hfields => h.judged_find hfields field
  | group key element =>
    rw [memberOf]
    split
    · exact h.pure (hclosed.term (hclosed.ofGroup ht))
    · exact h.throw rfl

theorem judged_keyTerms {key : Row} (hkey : R key) : K (List Term) (fun ts => ∀ t ∈ ts, T t) (keyTerms key) := by
  cases key with
  | projected typeName list => exact h.judged_scalarTerms hclosed (hclosed.ofProjected hkey)
  | table t => exact h.judged_scalarTerms hclosed (hclosed.entries_ofTable hkey)
  | joined index => exact h.joinAt hkey fun fields hfields => h.judged_scalarTerms hclosed hfields
  | _ =>
    exact h.bind (h.judged_scalarTerm hclosed hkey) fun t ht => h.pure (List.forall_mem_singleton.mpr ht)

end Lower.Looks

/-! ## Judgements that do not go by what is yielded -/

/-- A judgement that does not go by what is yielded extends to steps that look at rows together with what they yield. -/
theorem looks_of_yields {Q : ∀ α : Type, Lower α → Prop} (hpure : ∀ {α : Type} (a : α), Q α (pure a))
    (hthrow : ∀ {α : Type} {f : Fault}, f.isOfLookup = false → Q α (throw f))
    (hbind : ∀ {α β : Type} {S : α → Prop} {m : Lower α} {k : α → Lower β}, Q α m → Keeps (fun _ => True) S m →
      (∀ a, S a → Q β (k a)) → Q β (m >>= k))
    (hjoinAt : ∀ {α : Type} {index : Nat} {k : Entries → Lower α}, (∀ fields, Q α (k fields)) →
      Q α (joinAt index >>= fun j => k j.fields)) :
    Looks (fun α S m => Q α m ∧ Keeps (fun _ => True) S m) fun _ => True where
  pure ha := ⟨hpure _, keeps_pure ha⟩
  throw hf := ⟨hthrow hf, keeps_throw _⟩
  bind hm hk := ⟨hbind hm.1 hm.2 fun a ha => (hk a ha).1, hm.2.bind fun a ha => (hk a ha).2⟩
  joinAt _ hk :=
    have hmembers (fields : Entries) := hk fields fun _ _ => trivial
    ⟨hjoinAt fun fields => (hmembers fields).1, keeps_trivial.bind fun j _ => (hmembers j.fields).2⟩

/-! ## Invariants of the clauses -/

section

variable {I : Clauses → Prop} {R : Row → Prop} {T : Term → Prop}

theorem keeps_judgement : Judgement fun _ => Keeps I :=
  ⟨keeps_pure, keeps_throw, Keeps.bind⟩

theorem keeps_rules : Rules fun _ => Keeps I :=
  keeps_judgement.rules

namespace Lower.JoinsAre

variable (hjoins : JoinsAre I R)
include hjoins

/-- Steps that look at rows keep any invariant. -/
theorem looks : Looks (fun _ => Keeps I) R where
  toRules := keeps_rules
  joinAt hr hk := (hjoins.keeps_joinAt hr).bind fun j hj => hk j.fields hj

theorem keeps_joinFields (hclosed : Lower.Closed R T) {selected : Row} (hr : R selected) :
    Keeps I (fun p => ∀ q ∈ p.1.list, R q.2) (joinFields selected) := by
  cases selected with
  | projected typeName list => exact keeps_pure (hclosed.ofProjected hr)
  | table t => exact keeps_pure (hclosed.entries_ofTable hr)
  | joined index => exact (hjoins.keeps_joinAt hr).bind fun j hj => keeps_pure hj
  | _ => exact keeps_throw _

end Lower.JoinsAre

end

end QueryChain
