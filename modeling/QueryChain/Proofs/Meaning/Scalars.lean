import QueryChain.Proofs.Lowering.Run
import QueryChain.Proofs.Meaning.Row

/-!
# Lowering expressions over rows

An expression over rows leaves the clauses alone, and what it stands for comes to what the expression comes to.

* `run_memberOf`, `run_combine`, `run_callMethod`: the kinds of nodes.
* `Expr.run_rowOf`: every expression over rows.
* `Expr.run_applyTo`: every function over rows.
-/

namespace QueryChain

open Lowering Lower

/-- What a row comes to under the joins of some clauses. -/
def Row.itemIn (E : Engine) (c : Clauses) (s : E.Scope) (r : Row) : Item E.Datum :=
  r.item E s (E.joinItems s c.joins)

/-- Tables and joins that are closed: what the joins yield is made of no others. -/
structure Closed (T : TableRef → Prop) (I : Nat → Prop) (c : Clauses) : Prop where
  joins : ∃ T', JoinsOver T' c.joins
  inside : ∀ i, I i → ∃ j, c.joins[i]? = some j ∧ Row.MembersOver T I j.fields.list

section

variable {E : Engine} {T : TableRef → Prop} {I : Nat → Prop} {c c' : Clauses} {s : E.Scope}

/-! ## Known scalars -/

theorem Row.itemIn_joined {i : Nat} {j : Join} (h : Closed T I c) (hj : c.joins[i]? = some j) :
    (Row.joined i).itemIn E c s = .record (Row.items E s (E.joinItems s c.joins) j.fields.list) := by
  obtain ⟨T', hT'⟩ := h.joins
  rw [Row.itemIn, Row.item, Engine.joinItems_getElem? hj hT']
  rfl

/-- A row is known before the query runs if what it comes to is. -/
theorem Row.asKnown_itemIn (h : Closed T I c) {r : Row} (hr : r.Over T I) :
    (r.itemIn E c s).asKnown = r.asScalar := by
  cases r with
  | joined i =>
    obtain ⟨j, hj, -⟩ := h.inside i hr
    rw [Row.itemIn_joined h hj]
    rfl
  | scalar v => rfl
  | host captured => rfl
  | term t => rfl
  | table t => rfl
  | projected typeName list => rfl
  | group key element => rfl

theorem Item.isNull_eq {D : Type} (i : Item D) : i.isNull = decide (i.asKnown.any (·.isNull)) := by
  cases i with
  | known v => cases v <;> rfl
  | host c => rfl
  | datum d => rfl
  | record members => rfl

theorem Row.isNull_itemIn (h : Closed T I c) {r : Row} (hr : r.Over T I) :
    (r.itemIn E c s).isNull = Lowering.isNull r := by
  rw [Item.isNull_eq, Row.asKnown_itemIn h hr]
  cases r with
  | scalar v => cases v <;> rfl
  | host captured => rfl
  | term t => rfl
  | table t => rfl
  | projected typeName list => rfl
  | joined i => rfl
  | group key element => rfl

/-- The term of a row has its value. -/
theorem Row.toTerm_value {r : Row} {t : Term} (hr : r.Over T I) (ht : r.toTerm = .ok t) :
    t.Over T ∧ t.value E s = E.scalar (r.itemIn E c s) := by
  cases r with
  | term u =>
    cases ht
    exact ⟨hr, rfl⟩
  | scalar v =>
    simp only [Row.toTerm, SqlAlgebra.literal] at ht
    cases hv : v.requireLiteral with
    | error e =>
      rw [hv] at ht
      cases ht
    | ok u =>
      rw [hv] at ht
      cases ht
      exact ⟨fun p hp => absurd hp List.not_mem_nil, rfl⟩
  | host captured => cases ht
  | table t => cases ht
  | projected typeName list => cases ht
  | joined i => cases ht
  | group key element => cases ht

theorem run_scalarTerm {r : Row} {t : Term} (hr : r.Over T I)
    (h : ExceptT.run (scalarTerm r) c = (.ok t, c')) :
    c' = c ∧ t.Over T ∧ ∀ s : E.Scope, t.value E s = E.scalar (r.itemIn E c s) := by
  obtain ⟨ht, hc⟩ := run_require_eq_ok.mp h
  exact ⟨hc, (Row.toTerm_value (E := E) (c := c) (s := E.blank) hr ht).1, fun s => (Row.toTerm_value hr ht).2⟩

theorem run_scalarTerms {list : List (String × Row)} {ts : List Term} (hlist : Row.MembersOver T I list)
    (h : ExceptT.run (scalarTerms list) c = (.ok ts, c')) :
    c' = c ∧ (∀ t ∈ ts, t.Over T) ∧
      ∀ s : E.Scope, ts.map (·.value E s) = list.map fun p => E.scalar (p.2.itemIn E c s) := by
  induction list generalizing ts c' with
  | nil =>
    cases h
    exact ⟨rfl, nofun, fun _ => rfl⟩
  | cons p list ih =>
    obtain ⟨name, r⟩ := p
    obtain ⟨t, c₁, ht, hrest⟩ := run_bind_eq_ok.mp h
    obtain ⟨us, c₂, hus, hpure⟩ := run_bind_eq_ok.mp hrest
    obtain ⟨rfl, hover, hvalue⟩ := run_scalarTerm (E := E) (r := r) hlist.1 ht
    obtain ⟨rfl, hovers, hvalues⟩ := ih hlist.2 hus
    cases hpure
    exact ⟨rfl, List.forall_mem_cons.mpr ⟨hover, hovers⟩, fun s => by
      rw [List.map_cons, List.map_cons, hvalue, hvalues]⟩

theorem Row.membersOver_ofTable {t : TableRef} (h : T t) : Row.MembersOver T I (Entries.ofTable t).list := by
  rw [Row.membersOver_iff]
  intro p hp
  obtain ⟨f, -, rfl⟩ := List.mem_map.mp hp
  intro column hcolumn
  rw [List.mem_singleton.mp hcolumn]
  exact ⟨t, h, rfl⟩

theorem Row.items_ofTable (t : TableRef) (joined : List (Item E.Datum)) :
    .record (Row.items E s joined (Entries.ofTable t).list) = E.ofRecord t.model (s t.label) := by
  rw [Row.items_eq_map, Engine.ofRecord, Entries.ofTable, List.map_map]
  rfl

/-- The terms of a key have its scalars for values. -/
theorem run_keyTerms (hI : Closed T I c) {key : Row} {ts : List Term} (hkey : key.Over T I)
    (h : ExceptT.run (keyTerms key) c = (.ok ts, c')) :
    c' = c ∧ (∀ t ∈ ts, t.Over T) ∧ ∀ s : E.Scope, ts.map (·.value E s) = E.cells (key.itemIn E c s) := by
  have hscalar : ExceptT.run (do let t ← scalarTerm key; pure [t] : Lower (List Term)) c = (.ok ts, c') →
      c' = c ∧ (∀ t ∈ ts, t.Over T) ∧
        ∀ s : E.Scope, ts.map (·.value E s) = [E.scalar (key.itemIn E c s)] := by
    intro h
    obtain ⟨t, c₁, ht, hpure⟩ := run_bind_eq_ok.mp h
    obtain ⟨rfl, hover, hvalue⟩ := run_scalarTerm (E := E) hkey ht
    cases hpure
    exact ⟨rfl, List.forall_mem_singleton.mpr hover, fun s => congrArg (fun d => [d]) (hvalue s)⟩
  have hmembers : ∀ {list : List (String × Row)} {c₁ : Clauses}, Row.MembersOver T I list → c₁ = c →
      ExceptT.run (scalarTerms list) c₁ = (.ok ts, c') →
      c' = c ∧ (∀ t ∈ ts, t.Over T) ∧ ∀ s : E.Scope, ts.map (·.value E s) =
        E.cells (.record (Row.items E s (E.joinItems s c.joins) list)) := by
    rintro list _ hlist rfl h
    obtain ⟨hc, hover, hvalues⟩ := run_scalarTerms (E := E) hlist h
    refine ⟨hc, hover, fun s => ?_⟩
    rw [hvalues, Row.items_eq_map, Engine.cells, List.map_map]
    rfl
  cases key with
  | projected typeName list => exact hmembers hkey rfl h
  | table t =>
    obtain ⟨hc, hover, hvalues⟩ := hmembers (Row.membersOver_ofTable hkey) rfl h
    refine ⟨hc, hover, fun s => ?_⟩
    rw [hvalues, Row.items_ofTable]
    rfl
  | joined i =>
    obtain ⟨j, hj, hmembersOver⟩ := hI.inside i hkey
    obtain ⟨j', c₁, hj', hterms⟩ := run_bind_eq_ok.mp h
    obtain ⟨hj'', rfl⟩ := run_joinAt_eq_ok.mp hj'
    cases hj.symm.trans hj''
    obtain ⟨hc, hover, hvalues⟩ := hmembers hmembersOver rfl hterms
    refine ⟨hc, hover, fun s => ?_⟩
    rw [hvalues, Row.itemIn_joined hI hj]
  | scalar v => exact hscalar h
  | host captured => exact hscalar h
  | term t => exact hscalar h
  | group key element => exact hscalar h

/-! ## Members -/

theorem Row.itemIn_ofCaptured (captured : Captured) :
    (Row.ofCaptured captured).itemIn E c s = Item.ofCaptured captured := by
  cases captured <;> rfl

theorem Row.over_ofCaptured (captured : Captured) : (Row.ofCaptured captured).Over T I := by
  cases captured <;> trivial

theorem Entries.find_eq_ok {e : Entries} {name : String} {r : Row} :
    e.find name = .ok r ↔ e.list.lookup name = some r := by
  rw [Entries.find]
  cases e.list.lookup name with
  | none => exact ⟨nofun, nofun⟩
  | some r' => exact ⟨fun h => by cases h; rfl, fun h => by cases h; rfl⟩

/-- The member of a record is that of its first member of the name. -/
theorem Engine.member_items {list : List (String × Row)} {name : String} {r : Row}
    (h : list.lookup name = some r) :
    E.member (.record (Row.items E s (E.joinItems s c.joins) list)) name = r.itemIn E c s := by
  rw [Engine.member, Row.lookup_items, h]
  rfl

/-- A member of a table is read from its column. -/
theorem Model.columnOf_eq_ok {m : Model} {name column : String} (h : m.columnOf name = .ok column)
    (row : E.Record) : E.member (E.ofRecord m row) name = .datum (row column) := by
  have hlookup : ∀ fields : List Field,
      (fields.map fun f => (f.name, Item.datum (row f.column))).lookup name =
        (fields.find? (·.name = name)).map fun f => .datum (row f.column) := by
    intro fields
    induction fields with
    | nil => rfl
    | cons f fields ih =>
      rw [List.map_cons, List.lookup_cons, List.find?_cons, ih]
      by_cases hname : f.name = name
      · simp [hname]
      · have hne : (name == f.name) = false := by simpa using Ne.symm hname
        simp [hname, hne]
  show ((m.fields.map _).lookup name).getD _ = _
  rw [hlookup]
  rw [Model.columnOf, Model.field] at h
  cases hf : m.fields.find? (·.name = name) with
  | none =>
    rw [hf] at h
    cases h
  | some f =>
    rw [hf] at h
    cases h
    rfl

theorem run_memberOf (hI : Closed T I c) {target r : Row} {name : String} (htarget : target.Over T I)
    (h : ExceptT.run (memberOf target name) c = (.ok r, c')) :
    c' = c ∧ r.Over T I ∧ ∀ s : E.Scope, r.itemIn E c s = E.member (target.itemIn E c s) name := by
  cases target with
  | table t =>
    obtain ⟨column, c₁, hrequire, hpure⟩ := run_bind_eq_ok.mp h
    obtain ⟨hcolumn, rfl⟩ := run_require_eq_ok.mp hrequire
    cases hpure
    refine ⟨rfl, fun p hp => ⟨t, htarget, by rw [List.mem_singleton.mp hp]⟩, fun s => ?_⟩
    exact (Model.columnOf_eq_ok hcolumn (s t.label)).symm
  | projected typeName list =>
    obtain ⟨hfind, rfl⟩ := run_require_eq_ok.mp h
    have hlookup := Entries.find_eq_ok.mp hfind
    exact ⟨rfl, Row.MembersOver.lookup htarget hlookup, fun s => (Engine.member_items hlookup).symm⟩
  | joined i =>
    obtain ⟨j, hj, hmembers⟩ := hI.inside i htarget
    obtain ⟨j', c₁, hj', hrequire⟩ := run_bind_eq_ok.mp h
    obtain ⟨hj'', rfl⟩ := run_joinAt_eq_ok.mp hj'
    cases hj.symm.trans hj''
    obtain ⟨hfind, rfl⟩ := run_require_eq_ok.mp hrequire
    have hlookup := Entries.find_eq_ok.mp hfind
    refine ⟨rfl, hmembers.lookup hlookup, fun s => ?_⟩
    rw [Row.itemIn_joined hI hj, Engine.member_items hlookup]
  | group key element => exact htarget.elim
  | host captured =>
    obtain ⟨found, c₁, hrequire, hpure⟩ := run_bind_eq_ok.mp h
    obtain ⟨hfound, rfl⟩ := run_require_eq_ok.mp hrequire
    cases hpure
    refine ⟨rfl, Row.over_ofCaptured found, fun s => ?_⟩
    rw [Row.itemIn_ofCaptured, Row.itemIn, Row.item, Engine.member, hfound]
  | scalar v =>
    cases v with
    | text text =>
      simp only [memberOf] at h
      split at h
      · cases h
        exact ⟨rfl, trivial, fun _ => rfl⟩
      · cases h
    | null => cases h
    | bool b => cases h
    | int n => cases h
    | float x => cases h
    | dateTime t => cases h
  | term t =>
    simp only [memberOf] at h
    split at h
    · cases h
      exact ⟨rfl, htarget, fun _ => rfl⟩
    · cases h

/-! ## Operators between two expressions -/

theorem Term.over_binary {l r t : Term} (ht : t.columns = l.columns ++ r.columns) (hl : l.Over T) (hr : r.Over T) :
    t.Over T := by
  intro p hp
  rw [ht] at hp
  rcases List.mem_append.mp hp with hp | hp
  · exact hl p hp
  · exact hr p hp

theorem run_combine (hI : Closed T I c) {op : BinaryOp} {concat : Bool} {l r x : Row} (hl : l.Over T I)
    (hr : r.Over T I) (h : ExceptT.run (combine op concat l r) c = (.ok x, c')) :
    c' = c ∧ x.Over T I ∧
      ∀ s : E.Scope, x.itemIn E c s = E.combine op concat (l.itemIn E c s) (r.itemIn E c s) := by
  simp only [Engine.combine, Row.isNull_itemIn hI hl, Row.isNull_itemIn hI hr]
  rw [combine] at h
  split_ifs at h with hleft hright hconcat
  · obtain ⟨t, c₁, ht, hpure⟩ := run_bind_eq_ok.mp h
    obtain ⟨rfl, hover, hvalue⟩ := run_scalarTerm (E := E) hl ht
    cases hpure
    refine ⟨rfl, hover, fun s => ?_⟩
    rw [if_pos hleft, ← hvalue]
    rfl
  · obtain ⟨t, c₁, ht, hpure⟩ := run_bind_eq_ok.mp h
    obtain ⟨rfl, hover, hvalue⟩ := run_scalarTerm (E := E) hr ht
    cases hpure
    refine ⟨rfl, hover, fun s => ?_⟩
    rw [if_neg hleft, if_pos hright, ← hvalue]
    rfl
  all_goals
    obtain ⟨t, c₁, ht, hrest⟩ := run_bind_eq_ok.mp h
    obtain ⟨u, c₂, hu, hpure⟩ := run_bind_eq_ok.mp hrest
    obtain ⟨rfl, hover, hvalue⟩ := run_scalarTerm (E := E) hl ht
    obtain ⟨rfl, hover', hvalue'⟩ := run_scalarTerm (E := E) hr hu
    cases hpure
    refine ⟨rfl, Term.over_binary rfl hover hover', fun s => ?_⟩
    rw [if_neg hleft, if_neg hright, ← hvalue, ← hvalue']
  · rw [if_pos hconcat]
    rfl
  · rw [if_neg hconcat]
    rfl

/-! ## Methods -/

theorem run_single {method : String} {args : List Row} {arg : Row}
    (h : ExceptT.run (single method args) c = (.ok arg, c')) : args = [arg] ∧ c' = c := by
  match args with
  | [] => cases h
  | [r] =>
    cases h
    exact ⟨rfl, rfl⟩
  | _ :: _ :: _ => cases h

theorem run_methodTerm {name : String} {t u : Term} {args : List Row} (ht : t.Over T)
    (hargs : ∀ r ∈ args, r.Over T I) (h : ExceptT.run (methodTerm name t args) c = (.ok u, c')) :
    c' = c ∧ u.Over T ∧ ∀ s : E.Scope,
      u.value E s = E.method name (t.value E s) (args.map fun r => E.scalar (r.itemIn E c s)) := by
  unfold methodTerm at h
  unfold Engine.method
  cases hname : Method.ofName name with
  | none =>
    rw [hname] at h
    cases h
  | some m =>
    rw [hname] at h
    cases m with
    | toText =>
      cases h
      exact ⟨rfl, ht, fun _ => rfl⟩
    | change change =>
      cases h
      exact ⟨rfl, ht, fun _ => rfl⟩
    | test affix =>
      obtain ⟨needle, c₁, hsingle, hrest⟩ := run_bind_eq_ok.mp h
      obtain ⟨rfl, rfl⟩ := run_single hsingle
      split at hrest
      · cases hrest
        exact ⟨rfl, ht, fun _ => rfl⟩
      · obtain ⟨pattern, c₂, hpattern, hpure⟩ := run_bind_eq_ok.mp hrest
        obtain ⟨rfl, hover, hvalue⟩ :=
          run_scalarTerm (E := E) (hargs needle (List.mem_singleton.mpr rfl)) hpattern
        cases hpure
        refine ⟨rfl, Term.over_binary rfl ht hover, fun s => ?_⟩
        simp only [SqlAlgebra.likeTerm, Term.value, hvalue]
        rfl
    | add part =>
      obtain ⟨amount, c₁, hsingle, hrest⟩ := run_bind_eq_ok.mp h
      obtain ⟨rfl, rfl⟩ := run_single hsingle
      obtain ⟨a, c₂, ha, hpure⟩ := run_bind_eq_ok.mp hrest
      obtain ⟨rfl, hover, hvalue⟩ := run_scalarTerm (E := E) (hargs amount (List.mem_singleton.mpr rfl)) ha
      cases hpure
      refine ⟨rfl, Term.over_binary rfl hover ht, fun s => ?_⟩
      simp only [SqlAlgebra.dateAdd, Term.value, hvalue]
      rfl

theorem Row.mapM_asKnown (hI : Closed T I c) {rows : List Row} (hrows : ∀ r ∈ rows, r.Over T I) :
    (rows.map fun r => r.itemIn E c s).mapM Item.asKnown = knownScalars rows := by
  induction rows with
  | nil => rfl
  | cons r rows ih =>
    rw [List.forall_mem_cons] at hrows
    rw [knownScalars] at ih ⊢
    rw [List.map_cons, List.mapM_cons, List.mapM_cons, Row.asKnown_itemIn hI hrows.1, ih hrows.2]

theorem run_callMethod (hI : Closed T I c) {name : String} {receiver r : Row} {args : List Row}
    (hreceiver : receiver.Over T I) (hargs : ∀ r ∈ args, r.Over T I)
    (h : ExceptT.run (Lowering.callMethod name receiver args) c = (.ok r, c')) :
    c' = c ∧ r.Over T I ∧ ∀ s : E.Scope,
      r.itemIn E c s = E.call name (receiver.itemIn E c s) (args.map fun r => r.itemIn E c s) := by
  unfold Lowering.callMethod at h
  split at h
  · rename_i v values hv hvalues
    obtain ⟨result, c₁, hrequire, hpure⟩ := run_bind_eq_ok.mp h
    obtain ⟨hresult, rfl⟩ := run_require_eq_ok.mp hrequire
    cases hpure
    refine ⟨rfl, trivial, fun s => ?_⟩
    have hinvoke : v.invoke name values = .ok result := hresult
    simp only [Engine.call, Row.asKnown_itemIn hI hreceiver, Row.mapM_asKnown hI hargs, hv, hvalues, hinvoke]
    rfl
  · obtain ⟨t, c₁, ht, hrest⟩ := run_bind_eq_ok.mp h
    obtain ⟨u, c₂, hu, hpure⟩ := run_bind_eq_ok.mp hrest
    obtain ⟨rfl, hover, hvalue⟩ := run_scalarTerm (E := E) hreceiver ht
    obtain ⟨rfl, hover', hvalue'⟩ := run_methodTerm (E := E) hover hargs hu
    cases hpure
    refine ⟨rfl, hover', fun s => ?_⟩
    have hmethod : (Row.term u).itemIn E c' s = .datum (E.method name (E.scalar (receiver.itemIn E c' s))
        ((args.map fun r => r.itemIn E c' s).map E.scalar)) := by
      rw [← hvalue, List.map_map]
      exact congrArg Item.datum (hvalue' s)
    refine hmethod.trans ?_
    simp only [Engine.call, Row.asKnown_itemIn hI hreceiver, Row.mapM_asKnown hI hargs]

/-! ## Expressions -/

theorem run_lookup {env : Env} (henv : Row.MembersOver T I env) {name : String} {r : Row}
    (h : ExceptT.run (Lowering.lookup env name) c = (.ok r, c')) :
    c' = c ∧ r.Over T I ∧ ∀ s : E.Scope,
      some (r.itemIn E c s) = (Row.items E s (E.joinItems s c.joins) env).lookup name := by
  rw [Lowering.lookup] at h
  cases hr : env.lookup name with
  | none =>
    rw [hr] at h
    cases h
  | some r' =>
    rw [hr] at h
    cases h
    refine ⟨rfl, henv.lookup hr, fun s => ?_⟩
    rw [Row.lookup_items, hr]
    rfl

namespace Expr

mutual

/-- An expression over rows leaves the clauses alone, and what it stands for comes to what it comes to. -/
theorem run_rowOf (hI : Closed T I c) {env : Env} (henv : Row.MembersOver T I env) :
    (e : Expr) → e.isRowExpr = true → {r : Row} → {c' : Clauses} →
      ExceptT.run (e.rowOf env) c = (.ok r, c') →
      c' = c ∧ r.Over T I ∧ ∀ s : E.Scope,
        r.itemIn E c s = E.item (Row.items E s (E.joinItems s c.joins) env) e
  | .value v _, _, _, _, h => by
    cases h
    exact ⟨rfl, trivial, fun _ => rfl⟩
  | .captured v _, _, _, _, h => by
    cases h
    exact ⟨rfl, Row.over_ofCaptured v, fun _ => Row.itemIn_ofCaptured v⟩
  | .param name _, _, _, _, h => by
    obtain ⟨hc, hover, hitem⟩ := run_lookup (E := E) henv h
    refine ⟨hc, hover, fun s => ?_⟩
    rw [Engine.item, ← hitem]
    rfl
  | .field target name _, he, _, _, h => by
    obtain ⟨t, c₁, ht, hmember⟩ := run_bind_eq_ok.mp h
    obtain ⟨rfl, hover, hitem⟩ := run_rowOf hI henv target he ht
    obtain ⟨hc, hover', hitem'⟩ := run_memberOf (E := E) hI hover hmember
    refine ⟨hc, hover', fun s => ?_⟩
    rw [hitem', hitem, Engine.item]
  | .binary op l r _, he, _, _, h => by
    rw [isRowExpr, Bool.and_eq_true] at he
    obtain ⟨left, c₁, hl, hrest⟩ := run_bind_eq_ok.mp h
    obtain ⟨right, c₂, hr, hcombine⟩ := run_bind_eq_ok.mp hrest
    obtain ⟨hc₁, hover, hitem⟩ := run_rowOf hI henv l he.1 hl
    rw [hc₁] at hr
    obtain ⟨hc₂, hover', hitem'⟩ := run_rowOf hI henv r he.2 hr
    rw [hc₂] at hcombine
    obtain ⟨hc, hover'', hitem''⟩ := run_combine (E := E) hI hover hover' hcombine
    refine ⟨hc, hover'', fun s => ?_⟩
    rw [hitem'', hitem, hitem', Engine.item]
  | .method target name args _, he, _, _, h => by
    rw [isRowExpr, Bool.and_eq_true] at he
    obtain ⟨receiver, c₁, hreceiver, hrest⟩ := run_bind_eq_ok.mp h
    obtain ⟨rows, c₂, hrows, hcall⟩ := run_bind_eq_ok.mp hrest
    obtain ⟨hc₁, hover, hitem⟩ := run_rowOf hI henv target he.1 hreceiver
    rw [hc₁] at hrows
    obtain ⟨hc₂, hover', hitems⟩ := run_rowsOf hI henv args he.2 hrows
    rw [hc₂] at hcall
    obtain ⟨hc, hover'', hitem''⟩ := run_callMethod (E := E) hI hover hover' hcall
    refine ⟨hc, hover'', fun s => ?_⟩
    rw [hitem'', hitem, hitems, Engine.item]
  | .object _ members ty, he, _, _, h => by
    obtain ⟨list, c₁, hlist, hpure⟩ := run_bind_eq_ok.mp h
    obtain ⟨rfl, hover, hitems⟩ := run_membersOf hI henv members he hlist
    cases hpure
    refine ⟨rfl, hover, fun s => ?_⟩
    rw [Row.itemIn, Row.item, hitems, Engine.item]

/-- The same for several expressions. -/
theorem run_rowsOf (hI : Closed T I c) {env : Env} (henv : Row.MembersOver T I env) :
    (es : List Expr) → areRowExprs es = true → {rs : List Row} → {c' : Clauses} →
      ExceptT.run (rowsOf env es) c = (.ok rs, c') →
      c' = c ∧ (∀ r ∈ rs, r.Over T I) ∧ ∀ s : E.Scope,
        rs.map (fun r => r.itemIn E c s) = E.items (Row.items E s (E.joinItems s c.joins) env) es
  | [], _, _, _, h => by
    cases h
    exact ⟨rfl, nofun, fun _ => rfl⟩
  | e :: rest, he, _, _, h => by
    rw [areRowExprs, Bool.and_eq_true] at he
    obtain ⟨r, c₁, hr, hrest⟩ := run_bind_eq_ok.mp h
    obtain ⟨rs, c₂, hrs, hpure⟩ := run_bind_eq_ok.mp hrest
    obtain ⟨hc₁, hover, hitem⟩ := run_rowOf hI henv e he.1 hr
    rw [hc₁] at hrs
    obtain ⟨hc₂, hovers, hitems⟩ := run_rowsOf hI henv rest he.2 hrs
    cases hpure
    refine ⟨hc₂, List.forall_mem_cons.mpr ⟨hover, hovers⟩, fun s => ?_⟩
    rw [List.map_cons, hitem, hitems, Engine.items]

/-- The same for the members of a new object. -/
theorem run_membersOf (hI : Closed T I c) {env : Env} (henv : Row.MembersOver T I env) :
    (members : List (String × Expr)) → membersAreRowExprs members = true →
      {list : List (String × Row)} → {c' : Clauses} →
      ExceptT.run (membersOf env members) c = (.ok list, c') →
      c' = c ∧ Row.MembersOver T I list ∧ ∀ s : E.Scope,
        Row.items E s (E.joinItems s c.joins) list =
          E.memberItems (Row.items E s (E.joinItems s c.joins) env) members
  | [], _, _, _, h => by
    cases h
    exact ⟨rfl, trivial, fun _ => rfl⟩
  | member :: rest, he, _, _, h => by
    rw [membersAreRowExprs, Bool.and_eq_true] at he
    obtain ⟨m, c₁, hm, hrest⟩ := run_bind_eq_ok.mp h
    obtain ⟨ms, c₂, hms, hpure⟩ := run_bind_eq_ok.mp hrest
    obtain ⟨hc₁, hover, hitem⟩ := run_memberRow hI henv member he.1 hm
    rw [hc₁] at hms
    obtain ⟨hc₂, hovers, hitems⟩ := run_membersOf hI henv rest he.2 hms
    cases hpure
    refine ⟨hc₂, ⟨hover, hovers⟩, fun s => ?_⟩
    rw [Row.items, hitem, hitems, Engine.memberItems]

/-- The same for a member of a new object. -/
theorem run_memberRow (hI : Closed T I c) {env : Env} (henv : Row.MembersOver T I env) :
    (member : String × Expr) → memberIsRowExpr member = true →
      {m : String × Row} → {c' : Clauses} →
      ExceptT.run (memberRow env member) c = (.ok m, c') →
      c' = c ∧ Row.MemberOver T I m ∧ ∀ s : E.Scope,
        Row.memberItem E s (E.joinItems s c.joins) m =
          E.memberItem (Row.items E s (E.joinItems s c.joins) env) member
  | (name, e), he, _, _, h => by
    obtain ⟨r, c₁, hr, hpure⟩ := run_bind_eq_ok.mp h
    obtain ⟨rfl, hover, hitem⟩ := run_rowOf hI henv e he hr
    cases hpure
    refine ⟨rfl, hover, fun s => ?_⟩
    rw [Row.memberItem, Engine.memberItem, ← hitem]
    rfl

end

/-- A function over rows leaves the clauses alone, and what it yields comes to what the function comes to. -/
theorem run_applyTo (hI : Closed T I c) {rows : List Row} (hrows : ∀ r ∈ rows, r.Over T I) {f : Expr}
    (hf : f.isRowFunction = true) {r : Row} (h : ExceptT.run (f.applyTo [] rows) c = (.ok r, c')) :
    c' = c ∧ r.Over T I ∧ ∀ s : E.Scope,
      r.itemIn E c s = E.apply (rows.map fun r => r.itemIn E c s) f := by
  fun_induction isRowFunction f with
  | case1 f ty ih => exact ih hf h
  | case2 params body ty =>
    rw [applyTo] at h
    split_ifs at h
    case neg => cases h
    case pos =>
      rw [List.append_nil] at h
      have henv : Row.MembersOver T I (params.zip rows).reverse := by
        rw [Row.membersOver_iff]
        intro p hp
        exact hrows p.2 (List.of_mem_zip (List.mem_reverse.mp hp)).2
      obtain ⟨hc, hover, hitem⟩ := run_rowOf (E := E) hI henv body hf h
      refine ⟨hc, hover, fun s => ?_⟩
      rw [hitem, Row.items_eq_map, List.map_reverse, Engine.apply, List.zip_map_right]
      rfl
  | case3 f hquote hlambda => exact absurd hf Bool.false_ne_true

end Expr

end

end QueryChain
