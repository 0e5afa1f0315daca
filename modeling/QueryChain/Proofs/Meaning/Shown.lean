import QueryChain.Proofs.Meaning.Pipeline
import QueryChain.Proofs.Meaning.Scalars

/-!
# What a select list shows

The select list of a statement shows one row: that of the last projection, else that of the last join, else that of
the root table. A statement is only made if the row is flat: its members are scalars.

* `Clauses.selection_values`: the values of a select list are the scalars of the row that is shown.
* `Row.IsFlat.itemIn_eq`: a flat row is known from its scalars.
* `Expr.apply_eq_or_isSmall`: a function of a flat row, which makes no object, yields the row or none.
-/

namespace QueryChain

open Lowering Lower

namespace Row

/-- A scalar, known or in SQL. -/
def isScalar : Row → Bool
  | .scalar _ | .term _ => true
  | _ => false

/-- Whether this is no row and holds none. -/
def isSmall : Row → Bool
  | .scalar _ | .term _ | .host _ => true
  | _ => false

/-- A scalar, or a row whose members are scalars. -/
def IsFlat (js : List Join) : Row → Prop
  | .scalar _ | .term _ | .table _ => True
  | .projected _ list => ∀ p ∈ list, p.2.isScalar = true
  | .joined i => ∀ j, js[i]? = some j → ∀ p ∈ j.fields.list, p.2.isScalar = true
  | .host _ | .group _ _ => False

end Row

/-- The row that a select list shows. -/
def Clauses.shown (c : Clauses) (root : TableRef) : Row :=
  match c.projection, c.joins.length with
  | some (.scalar _ value), _ => value
  | some (.object _ _ fields), _ => .projected fields.typeName fields.list
  | none, 0 => .table root
  | none, n + 1 => .joined n

section

variable {E : Engine} {c c' : Clauses} {root : TableRef}

/-! ## Select lists -/

theorem Clauses.selectedTerm_eq_ok {r : Row} {t : Term} (h : Clauses.selectedTerm r = .ok t) :
    r.isScalar = true ∧ ∀ (s : E.Scope) (joined : List (Item E.Datum)),
      t.value E s = E.scalar (r.item E s joined) := by
  cases r with
  | term u =>
    cases h
    exact ⟨rfl, fun _ _ => rfl⟩
  | scalar v =>
    obtain ⟨_, -, ⟨⟩⟩ := bind_eq_ok.mp h
    exact ⟨rfl, fun _ _ => rfl⟩
  | host captured => cases h
  | table t => cases h
  | projected typeName list => cases h
  | joined i => cases h
  | group key element => cases h

theorem Clauses.memberItems_eq_ok {list : List (String × Row)} {items : List SelectItem}
    (h : Clauses.memberItems list = .ok items) :
    (∀ p ∈ list, p.2.isScalar = true) ∧ ∀ (s : E.Scope) (joined : List (Item E.Datum)),
      items.map (E.selected s) = E.cells (.record (Row.items E s joined list)) := by
  induction list generalizing items with
  | nil =>
    cases h
    exact ⟨nofun, fun _ _ => rfl⟩
  | cons p list ih =>
    obtain ⟨name, r⟩ := p
    obtain ⟨t, ht, hmore⟩ := bind_eq_ok.mp h
    obtain ⟨rest, hrest, ⟨⟩⟩ := bind_eq_ok.mp hmore
    obtain ⟨hscalar, hvalue⟩ := selectedTerm_eq_ok (E := E) ht
    obtain ⟨hscalars, hvalues⟩ := ih hrest
    refine ⟨List.forall_mem_cons.mpr ⟨hscalar, hscalars⟩, fun s joined => ?_⟩
    rw [List.map_cons, hvalues s joined, Engine.selected, hvalue s joined]
    rfl

/-- The values of a select list are the scalars of the row that is shown, which is flat. -/
theorem Clauses.selection_values {T : TableRef → Prop} (hjoins : JoinsOver T c.joins) (hgroup : c.groupKeys = [])
    {items : List SelectItem} {shape : RowShape} (h : c.selection root = .ok (items, shape)) :
    (c.shown root).IsFlat c.joins ∧ ∀ s, E.selection s (.items items) = E.cells ((c.shown root).itemIn E c s) := by
  rw [Clauses.selection] at h
  cases hp : c.projection with
  | some projection =>
    rw [hp] at h
    cases projection with
    | scalar type value =>
      obtain ⟨t, ht, ⟨⟩⟩ := bind_eq_ok.mp h
      obtain ⟨hscalar, hvalue⟩ := selectedTerm_eq_ok (E := E) ht
      rw [show c.shown root = value by simp [Clauses.shown, hp]]
      cases value with
      | term u => exact ⟨trivial, fun s => congrArg (fun d => [d]) (hvalue s [])⟩
      | scalar v => exact ⟨trivial, fun s => congrArg (fun d => [d]) (hvalue s [])⟩
      | _ => cases hscalar
    | object positional m fields =>
      obtain ⟨list, hlist, hrest⟩ := bind_eq_ok.mp h
      have hitems : items = list := by
        cases positional with
        | true => obtain ⟨_, -, ⟨⟩⟩ := bind_eq_ok.mp hrest; rfl
        | false => obtain ⟨_, -, ⟨⟩⟩ := bind_eq_ok.mp hrest; rfl
      obtain ⟨hscalars, hvalues⟩ := memberItems_eq_ok (E := E) hlist
      rw [show c.shown root = .projected fields.typeName fields.list by simp [Clauses.shown, hp], hitems]
      exact ⟨hscalars, fun s => hvalues s _⟩
  | none =>
    rw [hp] at h
    cases hlength : c.joins.length with
    | zero =>
      have hnil : c.joins = [] := List.eq_nil_of_length_eq_zero hlength
      rw [hnil, hgroup] at h
      cases h
      rw [show c.shown root = .table root by simp [Clauses.shown, hp, hlength]]
      refine ⟨trivial, fun s => ?_⟩
      rw [Engine.selection, Row.itemIn, Row.item, Engine.ofRecord, Engine.cells, List.map_map, List.map_map]
      rfl
    | succ n =>
      obtain ⟨j, hj⟩ : ∃ j, c.joins[n]? = some j := ⟨_, List.getElem?_eq_getElem (by omega)⟩
      have hlast : c.joins.getLast? = some j := by
        rw [List.getLast?_eq_getElem?, hlength]
        exact hj
      rw [hlast] at h
      obtain ⟨list, hlist, hrest⟩ := bind_eq_ok.mp h
      have hitems : items = list := by
        cases hc : j.model.constructorParams.isSome with
        | true => rw [hc] at hrest; obtain ⟨_, -, ⟨⟩⟩ := bind_eq_ok.mp hrest; rfl
        | false => rw [hc] at hrest; obtain ⟨_, -, ⟨⟩⟩ := bind_eq_ok.mp hrest; rfl
      obtain ⟨hscalars, hvalues⟩ := memberItems_eq_ok (E := E) hlist
      have hclosed : Closed T (fun _ => False) c := ⟨⟨_, hjoins⟩, fun _ hi => hi.elim⟩
      rw [show c.shown root = .joined n by simp [Clauses.shown, hp, hlength], hitems]
      refine ⟨fun k hk => ?_, fun s => ?_⟩
      · cases hj.symm.trans hk
        exact hscalars
      · rw [Row.itemIn_joined hclosed hj]
        exact hvalues s _

/-! ## Flat rows -/

theorem Row.item_eq_of_scalar {r : Row} (hr : r.isScalar = true) {s s' : E.Scope} {joined joined' : List (Item E.Datum)}
    (h : E.scalar (r.item E s joined) = E.scalar (r.item E s' joined')) :
    r.item E s joined = r.item E s' joined' := by
  cases r with
  | scalar v => rfl
  | term t => exact congrArg Item.datum h
  | _ => cases hr

theorem Row.items_eq_of_cells {list : List (String × Row)} (hlist : ∀ p ∈ list, p.2.isScalar = true)
    {s s' : E.Scope} {joined joined' : List (Item E.Datum)}
    (h : E.cells (.record (Row.items E s joined list)) = E.cells (.record (Row.items E s' joined' list))) :
    Row.items E s joined list = Row.items E s' joined' list := by
  induction list with
  | nil => rfl
  | cons p list ih =>
    obtain ⟨name, r⟩ := p
    rw [List.forall_mem_cons] at hlist
    obtain ⟨hhead, htail⟩ := List.cons.inj h
    rw [Row.items, Row.items, ih hlist.2 htail, Row.memberItem, Row.memberItem,
      Row.item_eq_of_scalar hlist.1 hhead]

/-- A flat row is known from its scalars. -/
theorem Row.IsFlat.itemIn_eq {T : TableRef → Prop} (hjoins : JoinsOver T c.joins) {r : Row}
    (hr : r.IsFlat c.joins) {s s' : E.Scope} (h : E.cells (r.itemIn E c s) = E.cells (r.itemIn E c s')) :
    r.itemIn E c s = r.itemIn E c s' := by
  cases r with
  | scalar v => rfl
  | term t => exact congrArg Item.datum (List.cons.inj h).1
  | table t =>
    have hlist : ∀ p ∈ (Entries.ofTable t).list, p.2.isScalar = true := by
      intro p hp
      obtain ⟨f, -, rfl⟩ := List.mem_map.mp hp
      rfl
    rw [Row.itemIn, Row.itemIn, Row.item, Row.item, ← Row.items_ofTable t [], ← Row.items_ofTable t []] at h ⊢
    rw [Row.items_eq_of_cells hlist h]
  | projected typeName list =>
    rw [Row.itemIn, Row.itemIn, Row.item, Row.item] at h ⊢
    rw [Row.items_eq_of_cells hr h]
  | joined i =>
    cases hj : c.joins[i]? with
    | none =>
      have hnone : ∀ s : E.Scope, (E.joinItems s c.joins)[i]? = none := fun s => by
        rw [List.getElem?_eq_none_iff, Engine.length_joinItems]
        exact List.getElem?_eq_none_iff.mp hj
      rw [Row.itemIn, Row.itemIn, Row.item, Row.item, hnone, hnone]
    | some j =>
      have hclosed : Closed T (fun _ => False) c := ⟨⟨_, hjoins⟩, fun _ hi => hi.elim⟩
      rw [Row.itemIn_joined hclosed hj, Row.itemIn_joined hclosed hj] at h ⊢
      rw [Row.items_eq_of_cells (hr j hj) h]
  | host captured => exact hr.elim
  | group key element => exact hr.elim

/-! ## Members of flat rows -/

theorem Row.isSmall_of_isScalar {r : Row} (h : r.isScalar = true) : r.isSmall = true := by
  cases r <;> first | rfl | cases h

theorem isSmall_of_lookup {list : List (String × Row)} (hlist : ∀ p ∈ list, p.2.isScalar = true) {name : String}
    {r : Row} (h : list.lookup name = some r) : r.isSmall = true := by
  obtain ⟨before, after, rfl, -⟩ := List.lookup_eq_some_iff.mp h
  exact Row.isSmall_of_isScalar (hlist (name, r) (by simp))

/-- A member of a flat row holds no row. -/
theorem isSmall_of_run_memberOf {target r : Row} {name : String}
    (htarget : target.IsFlat c.joins ∨ target.isSmall = true)
    (h : ExceptT.run (memberOf target name) c = (.ok r, c')) : r.isSmall = true := by
  cases target with
  | table t =>
    obtain ⟨column, c₁, -, ⟨⟩⟩ := run_bind_eq_ok.mp h
    rfl
  | projected typeName list =>
    obtain ⟨hfind, -⟩ := run_require_eq_ok.mp h
    rcases htarget with hflat | hsmall
    · exact isSmall_of_lookup hflat (Entries.find_eq_ok.mp hfind)
    · cases hsmall
  | joined i =>
    obtain ⟨j, c₁, hj, hrequire⟩ := run_bind_eq_ok.mp h
    obtain ⟨hj, rfl⟩ := run_joinAt_eq_ok.mp hj
    obtain ⟨hfind, -⟩ := run_require_eq_ok.mp hrequire
    rcases htarget with hflat | hsmall
    · exact isSmall_of_lookup (hflat j hj) (Entries.find_eq_ok.mp hfind)
    · cases hsmall
  | host captured =>
    obtain ⟨found, c₁, -, ⟨⟩⟩ := run_bind_eq_ok.mp h
    cases found <;> rfl
  | scalar v =>
    cases v with
    | text text =>
      simp only [memberOf] at h
      split at h
      · cases h
        rfl
      · cases h
    | _ => cases h
  | term t =>
    simp only [memberOf] at h
    split at h
    · cases h
      rfl
    · cases h
  | group key element =>
    rcases htarget with hflat | hsmall
    · exact hflat.elim
    · cases hsmall

theorem isSmall_of_run_combine {op : BinaryOp} {concat : Bool} {l r x : Row}
    (h : ExceptT.run (combine op concat l r) c = (.ok x, c')) : x.isSmall = true := by
  rw [combine] at h
  split_ifs at h
  · obtain ⟨t, c₁, -, ⟨⟩⟩ := run_bind_eq_ok.mp h
    rfl
  · obtain ⟨t, c₁, -, ⟨⟩⟩ := run_bind_eq_ok.mp h
    rfl
  all_goals
    obtain ⟨t, c₁, -, hrest⟩ := run_bind_eq_ok.mp h
    obtain ⟨u, c₂, -, ⟨⟩⟩ := run_bind_eq_ok.mp hrest
    rfl

theorem isSmall_of_run_callMethod {name : String} {receiver r : Row} {args : List Row}
    (h : ExceptT.run (Lowering.callMethod name receiver args) c = (.ok r, c')) : r.isSmall = true := by
  unfold Lowering.callMethod at h
  split at h
  · obtain ⟨v, c₁, -, ⟨⟩⟩ := run_bind_eq_ok.mp h
    rfl
  · obtain ⟨t, c₁, -, hrest⟩ := run_bind_eq_ok.mp h
    obtain ⟨u, c₂, -, ⟨⟩⟩ := run_bind_eq_ok.mp hrest
    rfl

include E in
/-- An expression over one flat row, which makes no object, stands for the row or holds none. -/
theorem Expr.eq_or_isSmall {T : TableRef → Prop} {I : Nat → Prop} (hI : Closed T I c) {r : Row} (hover : r.Over T I)
    (hr : r.IsFlat c.joins) {env : Env} (henv : ∀ p ∈ env, p.2 = r) :
    (e : Expr) → e.isRowExpr = true → isObject e = false → e.readsNewObject = false → {v : Row} →
      {c' : Clauses} → ExceptT.run (e.rowOf env) c = (.ok v, c') → v = r ∨ v.isSmall = true
  | .value v _, _, _, _, _, _, h => by
    cases h
    exact Or.inr rfl
  | .captured v _, _, _, _, _, _, h => by
    cases h
    cases v <;> exact Or.inr rfl
  | .param name _, _, _, _, _, _, h => by
    rw [rowOf, Lowering.lookup] at h
    cases hrow : env.lookup name with
    | none =>
      rw [hrow] at h
      cases h
    | some r' =>
      rw [hrow] at h
      cases h
      obtain ⟨before, after, rfl, -⟩ := List.lookup_eq_some_iff.mp hrow
      exact Or.inl (henv (name, _) (by simp))
  | .field target name _, he, _, hnew, _, _, h => by
    rw [readsNewObject, Bool.or_eq_false_iff] at hnew
    obtain ⟨t, c₁, ht, hmember⟩ := run_bind_eq_ok.mp h
    have henvOver : Row.MembersOver T I env := by
      rw [Row.membersOver_iff]
      exact fun p hp => henv p hp ▸ hover
    have hc₁ := (run_rowOf (E := E) hI henvOver target he ht).1
    rw [hc₁] at hmember
    refine Or.inr (isSmall_of_run_memberOf ?_ hmember)
    rcases eq_or_isSmall hI hover hr henv target he hnew.1 hnew.2 ht with rfl | hsmall
    · exact Or.inl hr
    · exact Or.inr hsmall
  | .binary op l r _, _, _, _, _, _, h => by
    obtain ⟨left, c₁, -, hrest⟩ := run_bind_eq_ok.mp h
    obtain ⟨right, c₂, -, hcombine⟩ := run_bind_eq_ok.mp hrest
    exact Or.inr (isSmall_of_run_combine hcombine)
  | .method target name args _, _, _, _, _, _, h => by
    obtain ⟨receiver, c₁, -, hrest⟩ := run_bind_eq_ok.mp h
    obtain ⟨rows, c₂, -, hcall⟩ := run_bind_eq_ok.mp hrest
    exact Or.inr (isSmall_of_run_callMethod hcall)
  | .object _ _ _, _, hobject, _, _, _, _ => absurd hobject (by simp [isObject])

include E in
/-- A function of one flat row, which makes no object, yields the row or none. -/
theorem Expr.apply_eq_or_isSmall {T : TableRef → Prop} {I : Nat → Prop} (hI : Closed T I c) {r v : Row}
    (hover : r.Over T I) (hr : r.IsFlat c.joins) {f body : Expr} (hf : f.isRowFunction = true)
    (hbody : functionBody? f = some body) (hobject : isObject body = false) (hnew : f.readsNewObject = false)
    (h : ExceptT.run (f.applyTo [] [r]) c = (.ok v, c')) : v = r ∨ v.isSmall = true := by
  fun_induction isRowFunction f with
  | case1 f ty ih => exact ih hf hbody hnew h
  | case2 params body' ty =>
    cases hbody
    rw [applyTo] at h
    split_ifs at h
    case neg => cases h
    case pos =>
      rw [List.append_nil] at h
      refine eq_or_isSmall (E := E) hI hover hr (fun p hp => ?_) _ hf hobject hnew h
      exact List.mem_singleton.mp (List.of_mem_zip (List.mem_reverse.mp hp)).2
  | case3 f hquote hlambda => exact absurd hf Bool.false_ne_true

end

end QueryChain
