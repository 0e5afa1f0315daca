import QueryChain.Proofs.Lowering.Run
import QueryChain.Proofs.Lowering.Uniform

/-!
# Lowering in all worlds at once

A step of lowering, run in every world on uniform clauses, is refused by the host, fails with one fault in all
worlds, or yields a uniform family and leaves uniform clauses. Each step of lowering keeps to this, and so does the
lowering of a whole tree.

* `Follows.bind`: steps one after another.
* `follows_callOperator`: every query operator.
* `Expr.follows_rowOf`: every tree.
-/

namespace QueryChain

open Lowering Lower

section Steps

variable {K : List String} {p : Fault} {α β : Type}

/-- A step is refused by the host, fails alike in all worlds, or yields what is related and leaves uniform
clauses. -/
def Follows (K : List String) (p : Fault) (R : (World → α) → Prop) (m : World → Lower α) : Prop :=
  ∀ cs, UniformClauses K cs →
    (∃ c, ExceptT.run (m .refused) (cs .refused) = (.error p, c)) ∨
      (∃ f, ∀ w, ∃ c, ExceptT.run (m w) (cs w) = (.error f, c)) ∨
      ∃ as cs', R as ∧ UniformClauses K cs' ∧ ∀ w, ExceptT.run (m w) (cs w) = (.ok (as w), cs' w)

variable {R : (World → α) → Prop} {S : (World → β) → Prop} {m : World → Lower α}

theorem follows_pure {as : World → α} (h : R as) : Follows K p R fun w => pure (as w) :=
  fun cs hcs => Or.inr (Or.inr ⟨as, cs, h, hcs, fun _ => rfl⟩)

theorem follows_throw (f : Fault) : Follows K p R fun _ => throw f :=
  fun cs _ => Or.inr (Or.inl ⟨f, fun w => ⟨cs w, rfl⟩⟩)

/-- Nothing comes after a failure. -/
theorem follows_throw_bind (f : Fault) (k : World → β → Lower α) : Follows K p R fun w => throw f >>= k w :=
  fun cs _ => Or.inr (Or.inl ⟨f, fun w => ⟨cs w, rfl⟩⟩)

theorem Follows.congr (h : Follows K p R m) {m' : World → Lower α} (hm : ∀ w, m' w = m w) :
    Follows K p R m' := by
  rw [show m' = m from funext hm]
  exact h

/-- Steps one after another. -/
theorem Follows.bind {f : World → α → Lower β} (h : Follows K p R m)
    (hf : ∀ as, R as → Follows K p S fun w => f w (as w)) : Follows K p S fun w => m w >>= f w := by
  intro cs hcs
  rcases h cs hcs with ⟨c, hrefused⟩ | ⟨fault, hfails⟩ | ⟨as, cs', has, hcs', hyields⟩
  · exact Or.inl ⟨c, run_bind_of_error hrefused⟩
  · refine Or.inr (Or.inl ⟨fault, fun w => ?_⟩)
    obtain ⟨c, hc⟩ := hfails w
    exact ⟨c, run_bind_of_error hc⟩
  · have hrun : ∀ w, ExceptT.run (m w >>= f w) (cs w) = ExceptT.run (f w (as w)) (cs' w) :=
      fun w => run_bind_of_ok (hyields w)
    simp only [hrun]
    exact hf as has cs' hcs'

/-- A result that fails alike in all worlds or yields what is related. -/
def Agrees (R : (World → α) → Prop) (r : World → Except Fault α) : Prop :=
  (∃ f, ∀ w, r w = .error f) ∨ ∃ as, R as ∧ ∀ w, r w = .ok (as w)

theorem follows_require {r : World → Except Fault α} (h : Agrees R r) :
    Follows K p R fun w => require (r w) := by
  intro cs hcs
  rcases h with ⟨f, hf⟩ | ⟨as, has, hr⟩
  · exact Or.inr (Or.inl ⟨f, fun w => ⟨cs w, by rw [run_require, hf]⟩⟩)
  · exact Or.inr (Or.inr ⟨as, cs, has, hcs, fun w => by rw [run_require, hr]⟩)

theorem follows_update {g : World → Clauses → Clauses}
    (h : ∀ cs, UniformClauses K cs → UniformClauses K fun w => g w (cs w)) :
    Follows K p (fun _ => True) fun w => update (g w) :=
  fun cs hcs => Or.inr (Or.inr ⟨fun _ => (), _, trivial, h cs hcs, fun _ => rfl⟩)

theorem follows_get : Follows K p (UniformClauses K) fun _ => get :=
  fun cs hcs => Or.inr (Or.inr ⟨cs, cs, hcs, hcs, fun _ => rfl⟩)

/-- A result that is the same in all worlds. -/
theorem agrees_fixed {r : Except Fault α} (h : ∀ a, r = .ok a → R fun _ => a) : Agrees R fun _ => r := by
  cases r with
  | error f => exact Or.inl ⟨f, fun _ => rfl⟩
  | ok a => exact Or.inr ⟨fun _ => a, h a rfl, fun _ => rfl⟩

/-- Steps of a list one after another. -/
theorem Follows.append_row {f : World → Lower α} {P : (World → α) → Prop} {ms : World → Lower (List α)}
    (h : Follows K p P f) (hms : Follows K p (Lists P) ms) :
    Follows K p (Lists P) (fun w => do
      let a ← f w
      let rest ← ms w
      pure (a :: rest)) :=
  h.bind fun _ ha => hms.bind fun _ hrest => follows_pure (hrest.cons ha)

end Steps

/-! ## Members, scalars and methods -/

section Scalars

variable {K : List String} {p : Fault}

theorem follows_bindTable (m : Model) :
    Follows K p (fun ts => ∃ t, ∀ w, ts w = t) fun _ => bindTable m := by
  intro cs hcs
  obtain ⟨q, hq⟩ := hcs.fixedPart
  have hroot : ∀ w, (cs w).root = q.root := fun w => by rw [← hq w]; rfl
  have haliases : ∀ w, (cs w).aliases = q.aliases := fun w => by rw [← hq w]; rfl
  cases hr : q.root with
  | some root =>
    refine Or.inr (Or.inr ⟨fun _ => ⟨m, q.aliases⟩, cs, ⟨_, fun _ => rfl⟩, hcs, fun w => ?_⟩)
    simp [bindTable, run_bind, hroot, hr, haliases]
    rfl
  | none =>
    have hcs' : UniformClauses K fun w => { cs w with root := some ⟨m, q.aliases⟩ } := by
      refine ⟨hcs.projection, hcs.filters, hcs.order, hcs.groupKeys, hcs.fold, hcs.joins, ?_⟩
      exact ⟨{ q with root := some ⟨m, q.aliases⟩ }, fun w => by rw [← hq w]; rfl⟩
    refine Or.inr (Or.inr ⟨fun _ => ⟨m, q.aliases⟩, _, ⟨_, fun _ => rfl⟩, hcs', fun w => ?_⟩)
    simp [bindTable, run_bind, hroot, hr, haliases]
    rfl

theorem follows_lookup {env : World → Env} (h : UniformMembers K env) (name : String) :
    Follows K p (UniformRow K) fun w => Lowering.lookup (env w) name := by
  rcases h.lookup name with hnone | ⟨rs, hrs, hsome⟩
  · refine (follows_throw (.unbound name)).congr fun w => ?_
    rw [Lowering.lookup, hnone]
  · refine (follows_pure hrs).congr fun w => ?_
    rw [Lowering.lookup, hsome]

theorem follows_joinAt (index : Nat) : Follows K p (UniformJoin K) fun _ => joinAt index := by
  refine follows_get.bind fun cs hcs => ?_
  rcases hcs.joins.getElem? index with hnone | ⟨j, hj, hsome⟩
  · refine (follows_throw (.use (.missingJoin index))).congr fun w => ?_
    simp only [hnone w]
  · refine (follows_pure hj).congr fun w => ?_
    simp only [hsome w]

/-- The member of a name is a family, or it is missing in all worlds. -/
theorem agrees_find {es : World → List (String × Row)} (h : UniformMembers K es)
    (typeName name : String) : Agrees (UniformRow K) fun w => (Entries.mk typeName (es w)).find name := by
  rcases h.lookup name with hnone | ⟨rs, hrs, hsome⟩
  · exact Or.inl ⟨.noMember name typeName, fun w => by simp only [Entries.find, hnone w]⟩
  · exact Or.inr ⟨rs, hrs, fun w => by simp only [Entries.find, hsome w]⟩

theorem agrees_toTerm {rs : World → Row} (h : UniformRow K rs) :
    Agrees (UniformTerm K) fun w => (rs w).toTerm := by
  cases h with
  | fixed v =>
    refine agrees_fixed fun t ht => ?_
    exact uniformTerm_fixed t
  | constant s hs => exact Or.inr ⟨_, uniformTerm_constant hs, fun _ => rfl⟩
  | host c hc => exact Or.inl ⟨.value (.hostAsSql c.typeName), fun w => by simp [Row.toTerm]⟩
  | term ts hts => exact Or.inr ⟨ts, hts, fun _ => rfl⟩
  | table t => exact Or.inl ⟨_, fun _ => rfl⟩
  | projected typeName fs hfs => exact Or.inl ⟨.use (.notScalar .projected), fun _ => rfl⟩
  | joined index => exact Or.inl ⟨_, fun _ => rfl⟩
  | group ts rs hts hrs => exact Or.inl ⟨.use (.notScalar .group), fun _ => rfl⟩

theorem follows_scalarTerm {rs : World → Row} (h : UniformRow K rs) :
    Follows K p (UniformTerm K) fun w => scalarTerm (rs w) :=
  follows_require (agrees_toTerm h)

theorem follows_scalarTerms {es : World → List (String × Row)} (h : UniformMembers K es) :
    Follows K p (Lists (UniformTerm K)) fun w => scalarTerms (es w) := by
  obtain ⟨fs, hfs, hes⟩ := h
  refine Follows.congr (m := fun w => scalarTerms (fs.map fun f => (f.1, f.2 w))) ?_ fun w => by rw [hes]
  clear hes
  induction fs with
  | nil => exact follows_pure lists_nil
  | cons f fs ih =>
    exact (follows_scalarTerm (hfs f List.mem_cons_self)).append_row
      (ih fun g hg => hfs g (List.mem_cons_of_mem _ hg))

theorem follows_keyTerms {rs : World → Row} (h : UniformRow K rs) :
    Follows K p (Lists (UniformTerm K)) fun w => keyTerms (rs w) := by
  have hscalar : Follows K p (Lists (UniformTerm K)) (fun w => do
      let t ← scalarTerm (rs w)
      pure [t]) :=
    (follows_scalarTerm h).bind fun _ ht => follows_pure (lists_singleton ht)
  cases h with
  | projected typeName fs hfs => exact follows_scalarTerms ⟨fs, hfs, fun _ => rfl⟩
  | table t => exact follows_scalarTerms (uniformMembers_ofTable t)
  | joined index =>
    refine (follows_joinAt index).bind fun js hjs => ?_
    obtain ⟨t, outer, inner, typeName, es, m, -, -, hes, hjs⟩ := hjs
    exact (follows_scalarTerms hes).congr fun w => by rw [hjs]
  | fixed v => exact hscalar
  | constant s hs => exact hscalar
  | host c hc => exact hscalar
  | term ts hts => exact hscalar
  | group ts rs hts hrs => exact hscalar

/-- Members of captured values are captured values with the same texts put in. -/
theorem agrees_member (c : Captured) (hc : ∀ s ∈ c.texts, s ∈ K) (field : String) :
    Agrees (fun ds => ∃ d : Captured, (∀ s ∈ d.texts, s ∈ K) ∧ ∀ w : World, ds w = d.fill w.text)
      fun w => (c.fill w.text).member field := by
  cases c with
  | scalar v =>
    refine Or.inl ⟨.noMember field (typeNameOrNull v.scalarType), fun w => ?_⟩
    simp [Captured.fill, Captured.member]
  | object typeName fields =>
    have hlookup : ∀ σ, (Captured.fillFields σ fields).lookup field =
        (fields.lookup field).map (·.fill σ) := by
      intro σ
      clear hc
      induction fields with
      | nil => simp [Captured.fillFields]
      | cons f rest ih =>
        obtain ⟨label, c⟩ := f
        rw [Captured.fillFields, List.lookup_cons, List.lookup_cons, ih]
        cases field == label <;> rfl
    have htexts : ∀ d, fields.lookup field = some d → ∀ s ∈ d.texts, s ∈ K := by
      rw [Captured.texts] at hc
      clear hlookup
      induction fields with
      | nil => intro d hd; cases hd
      | cons f rest ih =>
        obtain ⟨label, c⟩ := f
        rw [Captured.textsOfFields] at hc
        intro d hd
        rw [List.lookup_cons] at hd
        cases hlabel : field == label with
        | true =>
          rw [hlabel] at hd
          cases hd
          exact fun s hs => hc s (List.mem_append_left _ hs)
        | false =>
          rw [hlabel] at hd
          exact ih (fun s hs => hc s (List.mem_append_right _ hs)) d hd
    cases hd : fields.lookup field with
    | none =>
      refine Or.inl ⟨.noMember field typeName, fun w => ?_⟩
      simp only [Captured.fill, Captured.member, hlookup, hd, Option.map_none]
    | some d =>
      refine Or.inr ⟨fun w => d.fill w.text, ⟨d, htexts d hd, fun _ => rfl⟩, fun w => ?_⟩
      simp only [Captured.fill, Captured.member, hlookup, hd, Option.map_some]

/-- The length of a text that is the same in all worlds is the same, or the host refuses it. -/
theorem follows_length (s : String) :
    Follows K p (UniformRow K) (fun w => do
      let n ← require ((w.host K p).length s)
      pure (.scalar n)) := by
  by_cases hs : s ∈ K
  · intro cs hcs
    refine Or.inl ⟨cs .refused, run_bind_of_error ?_⟩
    simp [World.host, Host.refusing, hs]
  · have hagrees : Agrees (fun vs => ∃ v, ∀ w, vs w = v) fun w : World => (w.host K p).length s := by
      refine Or.inr ⟨fun _ => .int (Int64.ofNat s.length), ⟨_, fun _ => rfl⟩, fun w => ?_⟩
      cases w with
      | refused => simp [World.host, Host.refusing, hs, Host.standard]
      | filled σ => rfl
    refine (follows_require hagrees).bind fun vs hvs => ?_
    obtain ⟨v, hv⟩ := hvs
    exact (follows_pure (.fixed v)).congr fun w => by rw [hv]

theorem follows_memberOf {rs : World → Row} (h : UniformRow K rs) (field : String) :
    Follows K p (UniformRow K) fun w => memberOf (rs w) field (w.host K p) := by
  cases h with
  | fixed v =>
    cases v with
    | text s =>
      by_cases hfield : field = "Length"
      · subst hfield
        exact (follows_length s).congr fun w => by simp [memberOf]
      · refine (follows_throw (.noMember field ScalarType.text.name)).congr fun w => ?_
        simp [memberOf, hfield]
    | _ => exact follows_throw _
  | constant s hs =>
    by_cases hfield : field = "Length"
    · subst hfield
      intro cs hcs
      refine Or.inl ⟨cs .refused, ?_⟩
      simp only [memberOf, if_true]
      apply run_bind_of_error
      simp [World.text, World.host, Host.refusing, hs]
    · refine (follows_throw (.noMember field ScalarType.text.name)).congr fun w => ?_
      simp [memberOf, hfield]
  | host c hc =>
    refine (follows_require (agrees_member c hc field)).bind fun ds hds => ?_
    obtain ⟨d, hd, hds⟩ := hds
    exact (follows_pure (uniformRow_ofCaptured hd)).congr fun w => by rw [hds]
  | term ts hts =>
    by_cases hfield : field = "Length"
    · subst hfield
      exact (follows_pure (UniformRow.term _ hts.length)).congr fun w => by rw [memberOf, if_pos rfl]; rfl
    · refine (follows_throw (.use (.columnMember field))).congr fun w => ?_
      simp [memberOf, hfield]
  | table t =>
    refine (follows_require (R := fun cs => ∃ c, ∀ w, cs w = c)
      (agrees_fixed fun c _ => ⟨c, fun _ => rfl⟩)).bind fun cs hcs => ?_
    obtain ⟨c, hc⟩ := hcs
    refine (follows_pure (UniformRow.term _ (uniformTerm_fixed (.column t.label c)))).congr fun w => ?_
    simp only [hc, SqlAlgebra.column]
  | projected typeName fs hfs => exact follows_require (agrees_find ⟨fs, hfs, fun _ => rfl⟩ typeName field)
  | joined index =>
    refine (follows_joinAt index).bind fun js hjs => ?_
    obtain ⟨t, outer, inner, typeName, es, m, -, -, hes, hjs⟩ := hjs
    exact (follows_require (agrees_find hes typeName field)).congr fun w => by rw [hjs]
  | group ts rs hts hrs =>
    by_cases hfield : field = "Key"
    · subst hfield
      refine (follows_pure (UniformRow.term _ hts)).congr fun w => ?_
      simp [memberOf]
    · refine (follows_throw (.noMember field "grouping")).congr fun w => ?_
      simp [memberOf, hfield]

/-- Known scalars are known in all worlds, or in none. -/
theorem UniformRow.asScalar {rs : World → Row} (h : UniformRow K rs) :
    (∀ w, (rs w).asScalar = none) ∨ (∃ v, ∀ w, (rs w).asScalar = some v) ∨
      ∃ s ∈ K, ∀ w : World, (rs w).asScalar = some (.text (w.text s)) := by
  cases h with
  | fixed v => exact Or.inr (Or.inl ⟨v, fun _ => rfl⟩)
  | constant s hs => exact Or.inr (Or.inr ⟨s, hs, fun _ => rfl⟩)
  | _ => exact Or.inl fun _ => rfl

theorem knownScalars_cons (r : Row) (rows : List Row) :
    knownScalars (r :: rows) =
      (r.asScalar).bind fun v => (knownScalars rows).map fun vs => v :: vs := by
  simp only [knownScalars, List.mapM_cons]
  cases r.asScalar with
  | none => rfl
  | some v => cases rows.mapM Row.asScalar <;> rfl

/-- Several known scalars are known in all worlds or in none; they are the same in all worlds, or one of them is a
constant. -/
theorem knownScalars_cases {rs : World → List Row} (h : Lists (UniformRow K) rs) :
    (∀ w, knownScalars (rs w) = none) ∨ ∃ vs : World → List Value,
      (∀ w, knownScalars (rs w) = some (vs w)) ∧
        ((vs .refused).any (·.isTextOf K) = true ∨ ∃ us, ∀ w, vs w = us) := by
  obtain ⟨fs, hfs, hrs⟩ := h
  simp only [hrs]
  clear hrs rs
  induction fs with
  | nil => exact Or.inr ⟨fun _ => [], fun _ => rfl, Or.inr ⟨[], fun _ => rfl⟩⟩
  | cons f fs ih =>
    simp only [List.map_cons, knownScalars_cons]
    rcases ih fun g hg => hfs g (List.mem_cons_of_mem _ hg) with hnone | ⟨vs, hvs, hcases⟩
    · refine Or.inl fun w => ?_
      rw [hnone]
      cases (f w).asScalar <;> rfl
    · rcases (hfs f List.mem_cons_self).asScalar with hf | ⟨v, hf⟩ | ⟨s, hs, hf⟩
      · exact Or.inl fun w => by rw [hf]; rfl
      · refine Or.inr ⟨fun w => v :: vs w, fun w => by rw [hf, hvs]; rfl, ?_⟩
        rcases hcases with hany | ⟨us, hus⟩
        · left
          rw [List.any_cons, hany, Bool.or_true]
        · exact Or.inr ⟨v :: us, fun w => by simp only [hus]⟩
      · refine Or.inr ⟨fun w => .text (w.text s) :: vs w, fun w => by rw [hf, hvs]; rfl, Or.inl ?_⟩
        simp [Value.isTextOf, World.text, hs]

/-- A call on values that are known in all worlds is carried out alike in all worlds, or refused. -/
theorem follows_invoke (name : String) (v : World → Value) (vs : World → List Value)
    (h : (v .refused :: vs .refused).any (·.isTextOf K) = true ∨
      ∃ u us, (∀ w, v w = u) ∧ ∀ w, vs w = us) :
    Follows K p (UniformRow K) fun w => (do
      let result ← require ((w.host K p).invoke (v w) name (vs w))
      pure (.scalar result)) := by
  rcases h with hany | ⟨u, us, hu, hus⟩
  · intro cs hcs
    refine Or.inl ⟨cs .refused, run_bind_of_error ?_⟩
    simp only [World.host, Host.refusing, hany, if_true]
    rfl
  · by_cases hany : (u :: us).any (·.isTextOf K) = true
    · intro cs hcs
      refine Or.inl ⟨cs .refused, run_bind_of_error ?_⟩
      simp only [World.host, Host.refusing, hu, hus, hany, if_true]
      rfl
    · have hagrees : Agrees (fun rs => ∃ r, ∀ w, rs w = r)
          fun w => (w.host K p).invoke (v w) name (vs w) := by
        have hsame : (fun w : World => (w.host K p).invoke (v w) name (vs w)) =
            fun _ => u.invoke name us := by
          funext w
          rw [hu, hus]
          cases w with
          | refused => simp only [World.host, Host.refusing, hany]; rfl
          | filled σ => rfl
        rw [hsame]
        exact agrees_fixed fun r _ => ⟨r, fun _ => rfl⟩
      refine (follows_require hagrees).bind fun rs hrs => ?_
      obtain ⟨r, hr⟩ := hrs
      exact (follows_pure (.fixed r)).congr fun w => by rw [hr]

theorem follows_single (method : String) {rs : World → List Row} (h : Lists (UniformRow K) rs) :
    Follows K p (UniformRow K) fun w => single method (rs w) := by
  rcases h.cases with hnil | ⟨f, ms, hf, hms, hcons⟩
  · exact (follows_throw (.use (.argumentCount method 0))).congr fun w => by rw [hnil]; rfl
  · rcases hms.cases with hnil' | ⟨g, ns, hg, hns, hcons'⟩
    · exact (follows_pure hf).congr fun w => by rw [hcons, hnil']; rfl
    · obtain ⟨n, hn⟩ := hns.length_eq
      refine (follows_throw (.use (.argumentCount method (n + 2)))).congr fun w => ?_
      rw [hcons, hcons', single]
      · simp [hn]
      · simp

theorem follows_methodTerm (name : String) {ts : World → Term} (hts : UniformTerm K ts)
    {rs : World → List Row} (hrs : Lists (UniformRow K) rs) :
    Follows K p (UniformTerm K) fun w => methodTerm name (ts w) (rs w) := by
  unfold methodTerm
  cases Method.ofName name with
  | none => exact follows_throw _
  | some method =>
    cases method with
    | toText => exact follows_pure hts.toText
    | change c => exact follows_pure (hts.change c)
    | test affix =>
      refine (follows_single name hrs).bind fun needle hneedle => ?_
      have hterm : Follows K p (UniformTerm K) fun w => (do
          let n ← scalarTerm (needle w)
          pure (.likeTerm (ts w) affix n)) :=
        (follows_scalarTerm hneedle).bind fun ns hns => follows_pure (hts.likeTerm affix hns)
      cases hneedle with
      | fixed v =>
        cases v with
        | text s => exact follows_pure (hts.likeFixed affix s)
        | _ => exact hterm
      | constant s hs => exact follows_pure (hts.likeConstant affix hs)
      | _ => exact hterm
    | add part =>
      refine (follows_single name hrs).bind fun amount hamount => ?_
      exact (follows_scalarTerm hamount).bind fun as has => follows_pure (has.dateAdd hts part)

/-- A method is carried out by the host, or is a term; a constant is never looked at. -/
theorem follows_callMethod (name : String) {rs : World → Row} (h : UniformRow K rs)
    {args : World → List Row} (hargs : Lists (UniformRow K) args) :
    Follows K p (UniformRow K) fun w => Lowering.callMethod name (rs w) (args w) (w.host K p) := by
  have hterm : Follows K p (UniformRow K) fun w => (do
      let t ← scalarTerm (rs w)
      let result ← methodTerm name t (args w)
      pure (.term result)) :=
    (follows_scalarTerm h).bind fun ts hts =>
      (follows_methodTerm name hts hargs).bind fun us hus => follows_pure (.term us hus)
  rcases knownScalars_cases hargs with hnone | ⟨vs, hvs, hcases⟩
  · refine hterm.congr fun w => ?_
    simp only [Lowering.callMethod, hnone]
    cases (rs w).asScalar <;> rfl
  · rcases h.asScalar with hreceiver | ⟨v, hreceiver⟩ | ⟨s, hs, hreceiver⟩
    · refine hterm.congr fun w => ?_
      simp only [Lowering.callMethod, hreceiver]
    · refine Follows.congr (follows_invoke name (fun _ => v) vs ?_) fun w => ?_
      · rcases hcases with hany | ⟨us, hus⟩
        · left
          rw [List.any_cons, hany, Bool.or_true]
        · exact Or.inr ⟨v, us, fun _ => rfl, hus⟩
      · simp only [Lowering.callMethod, hreceiver, hvs]
    · refine Follows.congr (follows_invoke name (fun w => .text (w.text s)) vs
        (Or.inl ?_)) fun w => ?_
      · simp [Value.isTextOf, World.text, hs]
      · simp only [Lowering.callMethod, hreceiver, hvs]

theorem UniformRow.isNull {rs : World → Row} (h : UniformRow K rs) : ∃ b, ∀ w, isNull (rs w) = b := by
  cases h <;> exact ⟨_, fun _ => rfl⟩

theorem follows_combine (op : BinaryOp) (concat : Bool) {ls rs : World → Row} (hl : UniformRow K ls)
    (hr : UniformRow K rs) : Follows K p (UniformRow K) fun w => combine op concat (ls w) (rs w) := by
  obtain ⟨b, hb⟩ := hr.isNull
  obtain ⟨b', hb'⟩ := hl.isNull
  simp only [combine, hb, hb']
  split
  · exact (follows_scalarTerm hl).bind fun ts hts => follows_pure (.term _ (hts.nullTest _))
  · split
    · exact (follows_scalarTerm hr).bind fun ts hts => follows_pure (.term _ (hts.nullTest _))
    · refine (follows_scalarTerm hl).bind fun ts hts => (follows_scalarTerm hr).bind fun us hus => ?_
      cases concat
      · exact follows_pure (.term _ (hts.binary hus op))
      · exact follows_pure (.term _ (hts.concat hus))

end Scalars

/-! ## Query operators -/

section Operators

variable {K : List String} {p : Fault}

/-- An operand of a query operator that is the same tree in all worlds, and follows as a row and as a function. -/
structure UniformOperand (K : List String) (p : Fault) (ops : World → Operand) : Prop where
  expr : ∃ e : Expr, ∀ w, (ops w).expr = e.fill w.text
  row : Follows K p (UniformRow K) fun w => (ops w).row
  apply : ∀ rs, Lists (UniformRow K) rs → Follows K p (UniformRow K) fun w => (ops w).apply (rs w)

theorem functionBody?_fill (σ : String → String) (e : Expr) :
    functionBody? (e.fill σ) = (functionBody? e).map (·.fill σ) := by
  unfold functionBody?
  rw [Expr.unquote_fill]
  cases e.unquote <;> simp [Expr.fill]

theorem UniformOperand.functionBody {ops : World → Operand} (h : UniformOperand K p ops) :
    Follows K p (fun bs => ∃ b : Expr, ∀ w : World, bs w = b.fill w.text)
      fun w => Lowering.functionBody (ops w).expr := by
  obtain ⟨e, he⟩ := h.expr
  cases hb : functionBody? e with
  | none =>
    refine (follows_throw (.form (.lambdaExpected e.kindName))).congr fun w => ?_
    simp [Lowering.functionBody, he, functionBody?_fill, hb]
  | some b =>
    have hpure : Follows K p (fun bs => ∃ b : Expr, ∀ w : World, bs w = b.fill w.text)
        fun w => pure (b.fill w.text) := follows_pure ⟨b, fun _ => rfl⟩
    refine hpure.congr fun w => ?_
    simp [Lowering.functionBody, he, functionBody?_fill, hb]

theorem follows_operandAt (operator : String) {ops : World → List Operand}
    (h : Lists (UniformOperand K p) ops) (position : Nat) :
    Follows K p (UniformOperand K p) fun w => operandAt operator (ops w) position := by
  rcases h.getElem? position with hnone | ⟨f, hf, hsome⟩
  · refine (follows_throw (.form (.argumentMissing operator position))).congr fun w => ?_
    simp only [operandAt, hnone w]
  · refine (follows_pure hf).congr fun w => ?_
    simp only [operandAt, hsome w]

/-- An operand that need not be there. -/
def UniformOptional (K : List String) (p : Fault) (ops : World → Option Operand) : Prop :=
  (∀ w, ops w = none) ∨ ∃ op, UniformOperand K p op ∧ ∀ w, ops w = some (op w)

/-! ### Changes of clauses -/

theorem follows_setFixed {g : World → Clauses → Clauses} (g' : FixedClauses → FixedClauses)
    (hfixed : ∀ w c, (g w c).fixedPart = g' c.fixedPart)
    (hrest : ∀ w c, (g w c).projection = c.projection ∧ (g w c).filters = c.filters ∧
      (g w c).order = c.order ∧ (g w c).groupKeys = c.groupKeys ∧ (g w c).fold = c.fold ∧
      (g w c).joins = c.joins) : Follows K p (fun _ => True) fun w => update (g w) := by
  refine follows_update fun cs hcs => ?_
  obtain ⟨q, hq⟩ := hcs.fixedPart
  have h := fun w => hrest w (cs w)
  refine ⟨?_, ?_, ?_, ?_, ?_, ?_, ⟨g' q, fun w => by rw [hfixed, hq]⟩⟩
  · simpa only [(h _).1] using hcs.projection
  · simpa only [(h _).2.1] using hcs.filters
  · simpa only [(h _).2.2.1] using hcs.order
  · simpa only [(h _).2.2.2.1] using hcs.groupKeys
  · simpa only [(h _).2.2.2.2.1] using hcs.fold
  · simpa only [(h _).2.2.2.2.2] using hcs.joins

theorem follows_filter {ts : World → Term} (h : UniformTerm K ts) :
    Follows K p (fun _ => True) fun w => update (·.filter (ts w)) :=
  follows_update fun _ hcs => ⟨hcs.projection, hcs.filters.append (lists_singleton h), hcs.order,
    hcs.groupKeys, hcs.fold, hcs.joins, hcs.fixedPart⟩

theorem follows_sort {ts : World → List Term} (h : Lists (UniformTerm K) ts) (descending restart : Bool) :
    Follows K p (fun _ => True) fun w => update (·.sort (ts w) descending restart) := by
  refine follows_update fun cs hcs => ?_
  have hkept : Lists (UniformKey K) fun w => if restart then [] else (cs w).order := by
    cases restart
    · exact hcs.order
    · exact lists_nil
  exact ⟨hcs.projection, hcs.filters,
    hkept.append (h.map fun _ ht => uniformKey_of_term ht descending), hcs.groupKeys, hcs.fold, hcs.joins,
    hcs.fixedPart⟩

theorem follows_group {ts : World → Term} (h : UniformTerm K ts) :
    Follows K p (fun _ => True) fun w => update (·.group (ts w)) :=
  follows_update fun _ hcs => ⟨hcs.projection, hcs.filters, hcs.order,
    hcs.groupKeys.append (lists_singleton h), hcs.fold, hcs.joins, hcs.fixedPart⟩

theorem follows_project {ps : World → Projection} (h : UniformProjection K fun w => some (ps w)) :
    Follows K p (fun _ => True) fun w => update (·.project (ps w)) :=
  follows_update fun _ hcs => ⟨h, hcs.filters, hcs.order, hcs.groupKeys, hcs.fold, hcs.joins, hcs.fixedPart⟩

theorem follows_fold {ts : World → Term} (h : UniformTerm K ts) (f : Aggregate) :
    Follows K p (fun _ => True) fun w => update fun c => { c with fold := some (f, ts w) } :=
  follows_update fun _ hcs => ⟨hcs.projection, hcs.filters, hcs.order, hcs.groupKeys, .some f ts h,
    hcs.joins, hcs.fixedPart⟩

theorem follows_addJoin {js : World → Join} (h : UniformJoin K js) :
    Follows K p (fun _ => True) fun w => update (·.join (js w)) :=
  follows_update fun _ hcs => ⟨.none, hcs.filters, hcs.order, hcs.groupKeys, hcs.fold,
    hcs.joins.append (lists_singleton h), hcs.fixedPart⟩

theorem follows_limit (n : Nat) : Follows K p (fun _ => True) fun _ => update (·.limit n) :=
  follows_setFixed (fun q => { q with top := (({ Clauses.empty with top := q.top } : Clauses).limit n).top })
    (fun _ _ => rfl) fun _ _ => ⟨rfl, rfl, rfl, rfl, rfl, rfl⟩

/-! ### Each operator -/

theorem follows_restrict {rs : World → Row} (h : UniformRow K rs) {ops : World → Operand}
    (hops : UniformOperand K p ops) :
    Follows K p (fun _ => True) fun w => restrict (rs w) (ops w) := by
  obtain ⟨b, hb⟩ := h.isGroup
  unfold restrict
  simp only [hb]
  cases b with
  | true => exact follows_throw_bind _ _
  | false =>
    exact (hops.apply _ (lists_singleton h)).bind fun _ hc => (follows_scalarTerm hc).bind fun _ ht =>
      follows_filter ht

theorem follows_restrict? {rs : World → Row} (h : UniformRow K rs) {ops : World → Option Operand}
    (hops : UniformOptional K p ops) :
    Follows K p (fun _ => True) fun w => restrict? (rs w) (ops w) := by
  rcases hops with hnone | ⟨op, hop, hsome⟩
  · have hpure : Follows K p (fun _ => True) fun _ => pure () := follows_pure trivial
    exact hpure.congr fun w => by rw [hnone]; rfl
  · exact (follows_restrict h hop).congr fun w => by rw [hsome]; rfl

/-- What the rows of a new object become. -/
theorem follows_selectObject (shape : ShapeKind) (m : Model) {projection : World → Operand}
    (h : UniformOperand K p projection) {rows : World → Row} (hrows : UniformRow K rows) :
    Follows K p (UniformRow K) fun w => (do
      match ← (projection w).apply [rows w] with
      | .projected _ list =>
        let fields : Entries := ⟨m.typeName, list⟩
        update (·.project (.object (shape = .positional) m fields))
        pure (.projected m.typeName list)
      | r => pure r) := by
  refine (h.apply _ (lists_singleton hrows)).bind fun rs hrs => ?_
  cases hrs with
  | projected typeName fs hfs =>
    have hes : UniformMembers K fun w => fs.map fun f => (f.1, f.2 w) := ⟨fs, hfs, fun _ => rfl⟩
    exact (follows_project (.object _ m m.typeName _ hes)).bind fun _ _ => follows_pure (.projected _ fs hfs)
  | fixed v => exact follows_pure (.fixed v)
  | constant s hs => exact follows_pure (.constant s hs)
  | host c hc => exact follows_pure (.host c hc)
  | term ts hts => exact follows_pure (.term ts hts)
  | table t => exact follows_pure (.table t)
  | joined index => exact follows_pure (.joined index)
  | group ts rs hts hrs => exact follows_pure (.group ts rs hts hrs)

/-- What the rows of any other value become. -/
theorem follows_selectValue (type : Option ScalarType) {projection : World → Operand}
    (h : UniformOperand K p projection) {rows : World → Row} (hrows : UniformRow K rows) :
    Follows K p (UniformRow K) fun w => (do
      let value ← (projection w).apply [rows w]
      match value with
      | .term _ | .scalar _ =>
        update (·.project (.scalar type value))
        pure value
      | .table _ | .projected _ _ | .joined _ => pure value
      | r => throw (.use (.selection r.kind))) := by
  refine (h.apply _ (lists_singleton hrows)).bind fun rs hrs => ?_
  cases hrs with
  | projected typeName fs hfs => exact follows_pure (.projected typeName fs hfs)
  | fixed v =>
    exact (follows_project (.scalar type _ (.fixed v))).bind fun _ _ => follows_pure (.fixed v)
  | constant s hs =>
    exact (follows_project (.scalar type _ (.constant s hs))).bind fun _ _ => follows_pure (.constant s hs)
  | host c hc => exact follows_throw _
  | term ts hts =>
    exact (follows_project (.scalar type _ (.term ts hts))).bind fun _ _ => follows_pure (.term ts hts)
  | table t => exact follows_pure (.table t)
  | joined index => exact follows_pure (.joined index)
  | group ts rs hts hrs => exact follows_throw _

theorem follows_select {source projection : World → Operand} (hs : UniformOperand K p source)
    (hp : UniformOperand K p projection) :
    Follows K p (UniformRow K) fun w => select (source w) (projection w) := by
  unfold select
  refine hs.row.bind fun rows hrows => hp.functionBody.bind fun bs hbs => ?_
  obtain ⟨b, hb⟩ := hbs
  have hvalue := follows_selectValue b.ty.asScalar hp hrows
  cases b with
  | object shape members ty =>
    cases hm : ty.asModel with
    | none =>
      refine (follows_throw (.use .untypedProjection)).congr fun w => ?_
      rw [hb, Expr.fill]
      simp only [hm]
    | some m =>
      refine (follows_selectObject shape m hp hrows).congr fun w => ?_
      rw [hb, Expr.fill]
      simp only [hm]
      exact bind_congr fun r => by cases r <;> rfl
  | _ =>
    refine hvalue.congr fun w => ?_
    rw [hb, Expr.fill]
    exact bind_congr fun r => by cases r <;> rfl

theorem follows_order {source key : World → Operand} (hs : UniformOperand K p source)
    (hk : UniformOperand K p key) (descending restart : Bool) :
    Follows K p (UniformRow K) fun w => order (source w) (key w) descending restart :=
  hs.row.bind fun _ hrows => (hk.apply _ (lists_singleton hrows)).bind fun _ hkey =>
    (follows_keyTerms hkey).bind fun _ hts =>
      (follows_sort hts descending restart).bind fun _ _ => follows_pure hrows

theorem follows_groupKey {rs : World → Row} (h : UniformRow K rs) :
    Follows K p (UniformTerm K) fun w => groupKey (rs w) := by
  cases h with
  | fixed v => exact follows_scalarTerm (.fixed v)
  | constant s hs => exact follows_scalarTerm (.constant s hs)
  | term ts hts => exact follows_pure hts
  | _ => exact follows_throw _

theorem isObject_fill (σ : String → String) (e : Expr) : isObject (e.fill σ) = isObject e := by
  cases e <;> simp [Expr.fill, isObject]

theorem follows_groupBy {source key : World → Operand} (hs : UniformOperand K p source)
    (hk : UniformOperand K p key) :
    Follows K p (UniformRow K) fun w => groupBy (source w) (key w) := by
  unfold groupBy
  refine hs.row.bind fun rows hrows => ?_
  obtain ⟨b, hb⟩ := hrows.isGroup
  simp only [hb]
  cases b with
  | true => exact follows_throw_bind _ _
  | false =>
    refine hk.functionBody.bind fun bs hbs => ?_
    obtain ⟨body, hbs⟩ := hbs
    simp only [hbs, isObject_fill]
    cases isObject body with
    | true => exact follows_throw_bind _ _
    | false =>
      exact (hk.apply _ (lists_singleton hrows)).bind fun _ hkey => (follows_groupKey hkey).bind fun ts hts =>
        (follows_group hts).bind fun _ _ => follows_pure (.group ts rows hts hrows)

theorem follows_take {source count : World → Operand} (hs : UniformOperand K p source)
    (hc : UniformOperand K p count) :
    Follows K p (UniformRow K) fun w => take (source w) (count w) := by
  unfold take
  refine hs.row.bind fun rows hrows => hc.row.bind fun rs hrs => ?_
  cases hrs with
  | fixed v =>
    cases v with
    | int n => exact (follows_limit n.toInt.toNat).bind fun _ _ => follows_pure hrows
    | _ => exact follows_throw _
  | _ => exact follows_throw _

theorem follows_first {source : World → Operand} (hs : UniformOperand K p source)
    {predicate : World → Option Operand} (hp : UniformOptional K p predicate) :
    Follows K p (UniformRow K) fun w => first (source w) (predicate w) := by
  unfold first
  have hset : Follows K p (fun _ => True) fun _ => update fun c => { c with first := true } :=
    follows_setFixed (fun q => { q with first := true }) (fun _ _ => rfl)
      fun _ _ => ⟨rfl, rfl, rfl, rfl, rfl, rfl⟩
  exact hs.row.bind fun rows hrows => (follows_restrict? hrows hp).bind fun _ _ =>
    (follows_limit 1).bind fun _ _ => hset.bind fun _ _ => follows_pure hrows

theorem follows_count {source : World → Operand} (hs : UniformOperand K p source)
    {predicate : World → Option Operand} (hp : UniformOptional K p predicate) :
    Follows K p (UniformRow K) fun w => count (source w) (predicate w) := by
  unfold count
  have hset : Follows K p (fun _ => True) fun _ => update fun c => { c with count := true } :=
    follows_setFixed (fun q => { q with count := true }) (fun _ _ => rfl)
      fun _ _ => ⟨rfl, rfl, rfl, rfl, rfl, rfl⟩
  exact hs.row.bind fun rows hrows => (follows_restrict? hrows hp).bind fun _ _ =>
    hset.bind fun _ _ => follows_pure hrows

theorem follows_distinct {source : World → Operand} (hs : UniformOperand K p source) :
    Follows K p (UniformRow K) fun w => (do
      let rows ← (source w).row
      update fun c => { c with distinct := true }
      pure rows) := by
  have hset : Follows K p (fun _ => True) fun _ => update fun c => { c with distinct := true } :=
    follows_setFixed (fun q => { q with distinct := true }) (fun _ _ => rfl)
      fun _ _ => ⟨rfl, rfl, rfl, rfl, rfl, rfl⟩
  exact hs.row.bind fun rows hrows => hset.bind fun _ _ => follows_pure hrows

theorem follows_projectedScalar (f : Aggregate) :
    Follows K p (UniformRow K) fun _ => projectedScalar f := by
  refine follows_get.bind fun cs hcs => ?_
  have hprojection := hcs.projection
  generalize hps : (fun w => (cs w).projection) = ps at hprojection
  have hps : ∀ w, (cs w).projection = ps w := fun w => congrFun hps w
  simp only [hps]
  cases hprojection with
  | none => exact follows_throw _
  | object positional m typeName es hes => exact follows_throw _
  | scalar type rs hrs => exact follows_pure hrs

theorem follows_foldOperator (f : Aggregate) {source : World → Operand} (hs : UniformOperand K p source)
    {selector : World → Option Operand} (hsel : UniformOptional K p selector) :
    Follows K p (UniformRow K) fun w => fold f (source w) (selector w) := by
  unfold fold
  refine hs.row.bind fun rows hrows => ?_
  have hrest : ∀ vs, UniformRow K vs → Follows K p (UniformRow K) fun w => (do
      let argument ← scalarTerm (vs w)
      update fun c => { c with fold := some (f, argument) }
      pure (.term (.fold f argument))) := fun vs hvs =>
    (follows_scalarTerm hvs).bind fun ts hts => (follows_fold hts f).bind fun _ _ =>
      follows_pure (.term _ (hts.fold f))
  rcases hsel with hnone | ⟨op, hop, hsome⟩
  · simp only [hnone]
    exact (follows_projectedScalar f).bind hrest
  · simp only [hsome]
    exact (hop.apply _ (lists_singleton hrows)).bind hrest

theorem follows_foldGroup (name : String) (f : GroupFold) {group : World → Operand}
    (hg : UniformOperand K p group) {selector : World → Option Operand}
    (hsel : UniformOptional K p selector) :
    Follows K p (UniformRow K) fun w => foldGroup name f (group w) (selector w) := by
  unfold foldGroup
  refine hg.row.bind fun rows hrows => ?_
  cases hrows with
  | group ts rs hts hrs =>
    rcases hsel with hnone | ⟨op, hop, hsome⟩
    · simp only [hnone]
      cases f with
      | count => exact follows_pure (.term _ (uniformTerm_fixed .countAll))
      | fold f => exact follows_throw _
    · simp only [hsome]
      have hvalue := hop.apply _ (lists_singleton hrs)
      cases f with
      | count =>
        exact hvalue.bind fun _ hv => (follows_scalarTerm hv).bind fun us hus =>
          follows_pure (.term _ hus.countWhere)
      | fold f =>
        exact hvalue.bind fun _ hv => (follows_scalarTerm hv).bind fun us hus =>
          follows_pure (.term _ (hus.fold f))
  | projected typeName fs hfs => exact follows_throw (.use (.aggregateOver name .projected))
  | host c hc => exact follows_throw (.use (.aggregateOver name .host))
  | term ts hts => exact follows_throw (.use (.aggregateOver name .column))
  | constant s hs => exact follows_throw (.use (.aggregateOver name .scalar))
  | _ => exact follows_throw _

/-! ### Joins -/

theorem follows_joinFields {rs : World → Row} (h : UniformRow K rs) :
    Follows K p (fun xs => ∃ typeName es m, UniformMembers K es ∧
      ∀ w, xs w = ((⟨typeName, es w⟩ : Entries), (m : Option Model))) fun w => joinFields (rs w) := by
  cases h with
  | projected typeName fs hfs =>
    exact follows_pure ⟨typeName, _, none, ⟨fs, hfs, fun _ => rfl⟩, fun _ => rfl⟩
  | table t => exact follows_pure ⟨_, _, some t.model, uniformMembers_ofTable t, fun _ => rfl⟩
  | joined index =>
    refine (follows_joinAt index).bind fun js hjs => ?_
    obtain ⟨t, outer, inner, typeName, es, m, -, -, hes, hjs⟩ := hjs
    exact follows_pure ⟨typeName, es, some m, hes, fun w => by simp only [hjs]⟩
  | host c hc => exact follows_throw (.use (.joinResult .host))
  | term ts hts => exact follows_throw (.use (.joinResult .column))
  | constant s hs => exact follows_throw (.use (.joinResult .scalar))
  | group ts rs hts hrs => exact follows_throw (.use (.joinResult .group))
  | fixed v => exact follows_throw _

/-- The model of the rows of a join is the same in all worlds. -/
theorem joinModel_fill (e : Expr) (passedOn : Option Model) (typeName : String)
    {es : World → List (String × Row)} (h : UniformMembers K es) :
    ∃ m, ∀ w : World, joinModel (e.fill w.text) passedOn ⟨typeName, es w⟩ = m := by
  obtain ⟨names, hnames⟩ := h.names
  have hbody : ∀ w : World, (functionBody? (e.fill w.text)).bind (·.ty.asModel) =
      (functionBody? e).bind (·.ty.asModel) := by
    intro w
    rw [functionBody?_fill]
    cases functionBody? e <;> simp
  cases hm : (functionBody? e).bind (·.ty.asModel) with
  | some m => exact ⟨m, fun w => by simp only [joinModel, hbody, hm]⟩
  | none =>
    cases passedOn with
    | some m => exact ⟨m, fun w => by simp only [joinModel, hbody, hm]⟩
    | none =>
      refine ⟨.anonymous .projection (names.map fun name => (name, none)), fun w => ?_⟩
      simp only [joinModel, hbody, hm, Entries.names, hnames]

/-- What a join does once the right side is known to be a table. -/
def joinTable (outerRows : Row) (table : TableRef) (outerKey innerKey result : Operand) : Lower Row := do
  let outerValue ← outerKey.apply [outerRows]
  let outerKeys ← keyTerms outerValue
  let innerValue ← innerKey.apply [.table table]
  let innerKeys ← keyTerms innerValue
  if outerKeys.length ≠ innerKeys.length then throw (.use .joinKeyArity)
  let selected ← result.apply [outerRows, .table table]
  let (fields, passedOn) ← joinFields selected
  let model := joinModel result.expr passedOn fields
  update (·.join ⟨⟨table, outerKeys, innerKeys⟩, fields, model⟩)
  let c ← get
  pure (.joined (c.joins.length - 1))

theorem follows_joinTable {outerRows : World → Row} (hrows : UniformRow K outerRows) (table : TableRef)
    {outerKey innerKey result : World → Operand} (ho : UniformOperand K p outerKey)
    (hi : UniformOperand K p innerKey) (hr : UniformOperand K p result) :
    Follows K p (UniformRow K) fun w =>
      joinTable (outerRows w) table (outerKey w) (innerKey w) (result w) := by
  refine (ho.apply _ (lists_singleton hrows)).bind fun ov hov => (follows_keyTerms hov).bind fun os hos => ?_
  refine (hi.apply _ (lists_singleton (.table table))).bind fun iv hiv =>
    (follows_keyTerms hiv).bind fun is his => ?_
  obtain ⟨m, hm⟩ := hos.length_eq
  obtain ⟨n, hn⟩ := his.length_eq
  simp only [hm, hn]
  split
  · exact follows_throw_bind _ _
  · refine (hr.apply _ ((lists_singleton (.table table)).cons hrows)).bind fun rs hrs => ?_
    refine (follows_joinFields hrs).bind fun xs hxs => ?_
    obtain ⟨typeName, es, passedOn, hes, hxs⟩ := hxs
    obtain ⟨e, he⟩ := hr.expr
    obtain ⟨model, hmodel⟩ := joinModel_fill e passedOn typeName hes
    simp only [hxs, he, hmodel]
    refine (follows_addJoin ⟨table, os, is, typeName, es, model, hos, his, hes, fun _ => rfl⟩).bind
      fun _ _ => follows_get.bind fun cs hcs => ?_
    obtain ⟨k, hk⟩ := hcs.joins.length_eq
    simp only [hk]
    exact follows_pure (.joined (k - 1))

theorem follows_join {outer inner outerKey innerKey result : World → Operand}
    (hs : UniformOperand K p outer) (ht : UniformOperand K p inner) (ho : UniformOperand K p outerKey)
    (hi : UniformOperand K p innerKey) (hr : UniformOperand K p result) :
    Follows K p (UniformRow K) fun w =>
      join (outer w) (inner w) (outerKey w) (innerKey w) (result w) := by
  unfold join
  refine hs.row.bind fun rows hrows => ?_
  obtain ⟨b, hb⟩ := hrows.isGroup
  simp only [hb]
  have halias : Follows K p (fun _ => True) fun _ => nextAlias :=
    follows_setFixed (fun q => { q with aliases := q.aliases + 1 }) (fun _ _ => rfl)
      fun _ _ => ⟨rfl, rfl, rfl, rfl, rfl, rfl⟩
  cases b with
  | true => exact follows_throw_bind _ _
  | false =>
    refine halias.bind fun _ _ => ht.row.bind fun rs hrs => ?_
    cases hrs with
    | table t => exact follows_joinTable hrows t ho hi hr
    | projected typeName fs hfs => exact follows_throw (.use (.joinAgainst .projected))
    | host c hc => exact follows_throw (.use (.joinAgainst .host))
    | term ts hts => exact follows_throw (.use (.joinAgainst .column))
    | constant s hs => exact follows_throw (.use (.joinAgainst .scalar))
    | group ts rs hts hrs => exact follows_throw (.use (.joinAgainst .group))
    | _ => exact follows_throw _

/-! ### All operators -/

theorem uniformOptional_getElem? {ops : World → List Operand} (h : Lists (UniformOperand K p) ops)
    (i : Nat) : UniformOptional K p fun w => (ops w)[i]? :=
  h.getElem? i

theorem follows_operate (name : String) {source : World → Operand} (hs : UniformOperand K p source)
    {ops : World → List Operand} (h : Lists (UniformOperand K p) ops) (operator : QueryOperator) :
    Follows K p (UniformRow K) fun w => operate name (source w) (ops w) operator := by
  have hsecond := follows_operandAt name h 1
  cases operator with
  | filter =>
    exact hsecond.bind fun _ hp => hs.row.bind fun rows hrows =>
      (follows_restrict hrows hp).bind fun _ _ => follows_pure hrows
  | select => exact hsecond.bind fun _ hp => follows_select hs hp
  | order descending restart => exact hsecond.bind fun _ hk => follows_order hs hk descending restart
  | groupBy => exact hsecond.bind fun _ hk => follows_groupBy hs hk
  | take => exact hsecond.bind fun _ hc => follows_take hs hc
  | distinct => exact follows_distinct hs
  | first => exact follows_first hs (uniformOptional_getElem? h 1)
  | count => exact follows_count hs (uniformOptional_getElem? h 1)
  | fold f => exact follows_foldOperator f hs (uniformOptional_getElem? h 1)
  | join =>
    obtain ⟨fs, hfs, hops⟩ := h
    simp only [operate, hops]
    rcases fs with _ | ⟨f1, _ | ⟨f2, _ | ⟨f3, _ | ⟨f4, _ | ⟨f5, _ | ⟨f6, fs⟩⟩⟩⟩⟩⟩
    case cons.cons.cons.cons.cons.nil =>
      simp only [List.mem_cons, List.not_mem_nil, or_false, forall_eq_or_imp, forall_eq] at hfs
      obtain ⟨h1, h2, h3, h4, h5⟩ := hfs
      exact follows_join h1 h2 h3 h4 h5
    all_goals
      simp only [List.map_cons, List.map_nil, List.length_cons, List.length_nil, List.length_map]
      exact follows_throw _

/-- A query operator by its name follows, given that its operands do. -/
theorem follows_callOperator (name : String) {ops : World → List Operand}
    (h : Lists (UniformOperand K p) ops) :
    Follows K p (UniformRow K) fun w => callOperator name (ops w) := by
  refine (follows_operandAt name h 0).bind fun source hs => ?_
  obtain ⟨e, he⟩ := hs.expr
  simp only [he, Expr.isRowDerived_fill]
  cases (if e.isRowDerived = true then GroupFold.ofName name else none) with
  | some f => exact follows_foldGroup name f hs (uniformOptional_getElem? h 1)
  | none =>
    cases QueryOperator.ofName name with
    | some operator => exact follows_operate name hs h operator
    | none => exact follows_throw _

end Operators

end QueryChain
