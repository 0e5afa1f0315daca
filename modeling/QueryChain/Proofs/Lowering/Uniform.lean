import QueryChain.Proofs.Lowering.Constants

/-!
# Uniform families

What a tree is lowered to in different worlds differs in text constants only. `UniformRow` says so of what an
expression stands for, `UniformClauses` of the clauses that operators leave behind; the text of a statement is then
spelled in the same pieces in every world.

* `UniformTerm`: terms whose texts are spelled, by themselves and in a select list.
* `UniformClauses.spelled_block`: the text of a block of uniform clauses is spelled.
-/

namespace QueryChain

section Terms

variable {K : List String}

/-- A family of terms whose texts are spelled, however they are written. -/
def UniformTerm (K : List String) (ts : World → Term) : Prop :=
  ∀ o, Spelled K (fun w => (ts w).render o) ∧ ∀ joined, Spelled K fun w => (ts w).renderSelected o joined

/-! ## Spellings -/

theorem Spelled.surround {f : World → String} (h : Spelled K f) (before after : String) :
    Spelled K fun w => before ++ f w ++ after :=
  ((spelled_fixed before).append h).append (spelled_fixed after)

theorem spelled_concat (d : Dialect) {ls : World → List String} (h : Lists (Spelled K) ls) :
    Spelled K fun w => d.concat (ls w) := by
  cases d <;> exact spelled_intercalate _ h

theorem spelled_length (d : Dialect) {f : World → String} (h : Spelled K f) :
    Spelled K fun w => d.length (f w) := by
  cases d <;> exact h.surround _ _

theorem spelled_toText (d : Dialect) {f : World → String} (h : Spelled K f) :
    Spelled K fun w => d.toText (f w) := by
  cases d <;> exact h.surround _ _

theorem spelled_change (c : TextChange) {f : World → String} (h : Spelled K f) :
    Spelled K fun w => c.sql (f w) := by
  cases c <;> exact h.surround _ _

theorem spelled_dateAdd (d : Dialect) (part : String) {f g : World → String} (hf : Spelled K f)
    (hg : Spelled K g) : Spelled K fun w => d.dateAdd part (f w) (g w) := by
  cases d with
  | sqlServer =>
    exact (((((spelled_fixed "DATEADD(").append (spelled_fixed part)).append (spelled_fixed ", ")).append
      hf).append (spelled_fixed ", ")).append hg |>.append (spelled_fixed ")")
  | sqlite =>
    exact (((((spelled_fixed "datetime(").append hg).append (spelled_fixed ", (")).append hf).append
      (spelled_fixed ") || ' ")).append (spelled_fixed part) |>.append (spelled_fixed "s')")
  | postgres =>
    exact (((((spelled_fixed "(").append hg).append (spelled_fixed " + (")).append hf).append
      (spelled_fixed ") * INTERVAL '1 ")).append (spelled_fixed part) |>.append (spelled_fixed "')")

/-- The parts of a pattern around a text that the query computes. -/
theorem lists_parts (affix : Affix) {f : World → String} (h : Spelled K f) :
    Lists (Spelled K) fun w => affix.parts (f w) := by
  have hpart : ∀ s, Lists (Spelled K) fun _ : World => Affix.quotedPart s := by
    intro s
    unfold Affix.quotedPart
    split
    · exact lists_nil
    · exact lists_singleton (spelled_fixed _)
  exact ((hpart _).append (lists_singleton h)).append (hpart _)

/-! ## Terms -/

theorem uniformTerm_fixed (t : Term) : UniformTerm K fun _ => t :=
  fun _ => ⟨spelled_fixed _, fun _ => spelled_fixed _⟩

/-- A select list writes all terms but bare columns as they are. -/
theorem renderSelected_of_not_column {t : Term} (h : t.isColumn = false) (o : Options) (joined : Bool) :
    t.renderSelected o joined = t.render o := by
  cases t with
  | column label name => cases h
  | _ => rfl

theorem uniformTerm_of_render {ts : World → Term} (hcolumn : ∀ w, (ts w).isColumn = false)
    (h : ∀ o, Spelled K fun w => (ts w).render o) : UniformTerm K ts :=
  fun o => ⟨h o, fun joined => (h o).congr fun w => renderSelected_of_not_column (hcolumn w) o joined⟩

/-- A text constant is its literal. -/
theorem uniformTerm_constant {s : String} (h : s ∈ K) :
    UniformTerm K fun w => .literal (.text (w.text s)) := by
  refine uniformTerm_of_render (fun _ => rfl) fun o => (spelled_quoted h false false).congr ?_
  intro w
  simp [Term.render, Value.literalText, Piece.wildcard]

theorem UniformTerm.nullTest {ts : World → Term} (h : UniformTerm K ts) (negated : Bool) :
    UniformTerm K fun w => .nullTest negated (ts w) :=
  uniformTerm_of_render (fun _ => rfl) fun o => (h o).1.surround _ _

theorem UniformTerm.binary {ls rs : World → Term} (hl : UniformTerm K ls) (hr : UniformTerm K rs)
    (op : BinaryOp) : UniformTerm K fun w => .binary op (ls w) (rs w) :=
  uniformTerm_of_render (fun _ => rfl) fun o =>
    (((((spelled_fixed "(").append (hl o).1).append (spelled_fixed " ")).append
      (spelled_fixed op.sql)).append (spelled_fixed " ")).append (hr o).1 |>.append (spelled_fixed ")")

theorem UniformTerm.concat {ls rs : World → Term} (hl : UniformTerm K ls) (hr : UniformTerm K rs) :
    UniformTerm K fun w => .concat (ls w) (rs w) :=
  uniformTerm_of_render (fun _ => rfl) fun o =>
    (spelled_concat o.dialect ((lists_singleton (hr o).1).cons (hl o).1)).surround _ _

theorem UniformTerm.length {ts : World → Term} (h : UniformTerm K ts) :
    UniformTerm K fun w => .length (ts w) :=
  uniformTerm_of_render (fun _ => rfl) fun o => spelled_length o.dialect (h o).1

theorem UniformTerm.toText {ts : World → Term} (h : UniformTerm K ts) :
    UniformTerm K fun w => .toText (ts w) :=
  uniformTerm_of_render (fun _ => rfl) fun o => spelled_toText o.dialect (h o).1

theorem UniformTerm.change {ts : World → Term} (h : UniformTerm K ts) (c : TextChange) :
    UniformTerm K fun w => .change c (ts w) :=
  uniformTerm_of_render (fun _ => rfl) fun o => spelled_change c (h o).1

theorem UniformTerm.likeFixed {ts : World → Term} (h : UniformTerm K ts) (affix : Affix)
    (needle : String) : UniformTerm K fun w => .likeText (ts w) affix needle :=
  uniformTerm_of_render (fun _ => rfl) fun o =>
    (((spelled_fixed "(").append (h o).1).append (spelled_fixed " LIKE ")).append
      (spelled_fixed _) |>.append (spelled_fixed ")")

/-- A constant that is looked for stands in its pattern, between wildcards. -/
theorem UniformTerm.likeConstant {ts : World → Term} (h : UniformTerm K ts) (affix : Affix)
    {s : String} (hs : s ∈ K) : UniformTerm K fun w => .likeText (ts w) affix (w.text s) := by
  have hpattern : Spelled K fun w => quoteText (affix.pattern (w.text s)) := by
    cases affix with
    | anywhere => exact spelled_quoted hs true true
    | atStart => exact spelled_quoted hs false true
    | atEnd => exact spelled_quoted hs true false
  exact uniformTerm_of_render (fun _ => rfl) fun o =>
    (((spelled_fixed "(").append (h o).1).append (spelled_fixed " LIKE ")).append
      hpattern |>.append (spelled_fixed ")")

theorem UniformTerm.likeTerm {ts ns : World → Term} (h : UniformTerm K ts) (affix : Affix)
    (hn : UniformTerm K ns) : UniformTerm K fun w => .likeTerm (ts w) affix (ns w) :=
  uniformTerm_of_render (fun _ => rfl) fun o =>
    (((spelled_fixed "(").append (h o).1).append (spelled_fixed " LIKE (")).append
      (spelled_concat o.dialect (lists_parts affix (hn o).1)) |>.append (spelled_fixed "))")

theorem UniformTerm.dateAdd {amounts ts : World → Term} (ha : UniformTerm K amounts)
    (h : UniformTerm K ts) (part : DatePart) :
    UniformTerm K fun w => .dateAdd part (amounts w) (ts w) :=
  uniformTerm_of_render (fun _ => rfl) fun o => spelled_dateAdd o.dialect _ (ha o).1 (h o).1

theorem UniformTerm.countWhere {ts : World → Term} (h : UniformTerm K ts) :
    UniformTerm K fun w => .countWhere (ts w) :=
  uniformTerm_of_render (fun _ => rfl) fun o => (h o).1.surround _ _

theorem UniformTerm.fold {ts : World → Term} (h : UniformTerm K ts) (f : Aggregate) :
    UniformTerm K fun w => .fold f (ts w) :=
  uniformTerm_of_render (fun _ => rfl) fun o =>
    (((spelled_fixed f.sql).append (spelled_fixed "(")).append (h o).1).append (spelled_fixed ")")

end Terms

/-! ## Rows -/

section Rows

variable {K : List String}

/-- A family of what an expression stands for, which differs in text constants only. -/
inductive UniformRow (K : List String) : (World → Row) → Prop
  | fixed (v : Value) : UniformRow K fun _ => .scalar v
  | constant (s : String) (hs : s ∈ K) : UniformRow K fun w => .scalar (.text (w.text s))
  | host (c : Captured) (hc : ∀ s ∈ c.texts, s ∈ K) : UniformRow K fun w => .host (c.fill w.text)
  | term (ts : World → Term) (hts : UniformTerm K ts) : UniformRow K fun w => .term (ts w)
  | table (t : TableRef) : UniformRow K fun _ => .table t
  | projected (typeName : String) (fs : List (String × (World → Row)))
    (hfs : ∀ f ∈ fs, UniformRow K f.2) :
    UniformRow K fun w => .projected typeName (fs.map fun f => (f.1, f.2 w))
  | joined (index : Nat) : UniformRow K fun _ => .joined index
  | group (ts : World → Term) (rs : World → Row) (hts : UniformTerm K ts) (hrs : UniformRow K rs) :
    UniformRow K fun w => .group (ts w) (rs w)

/-- A family of named rows: members of a projected row, or parameters in scope. -/
def UniformMembers (K : List String) (es : World → List (String × Row)) : Prop :=
  ∃ fs : List (String × (World → Row)), (∀ f ∈ fs, UniformRow K f.2) ∧
    ∀ w, es w = fs.map fun f => (f.1, f.2 w)

theorem UniformRow.ofMembers {es : World → List (String × Row)} (h : UniformMembers K es)
    (typeName : String) : UniformRow K fun w => .projected typeName (es w) := by
  obtain ⟨fs, hfs, hes⟩ := h
  have hfun : (fun w => Row.projected typeName (es w)) =
      fun w => .projected typeName (fs.map fun f => (f.1, f.2 w)) := funext fun w => by rw [hes]
  rw [hfun]
  exact .projected typeName fs hfs

theorem uniformMembers_nil : UniformMembers K fun _ => [] :=
  ⟨[], by simp, fun _ => rfl⟩

theorem UniformMembers.cons {rs : World → Row} {es : World → List (String × Row)} (label : String)
    (hr : UniformRow K rs) (h : UniformMembers K es) :
    UniformMembers K fun w => (label, rs w) :: es w := by
  obtain ⟨fs, hfs, hes⟩ := h
  refine ⟨(label, rs) :: fs, ?_, fun w => by simp only [hes, List.map_cons]⟩
  intro f hf
  rcases List.mem_cons.1 hf with rfl | hf
  · exact hr
  · exact hfs f hf

theorem UniformMembers.append {es es' : World → List (String × Row)} (h : UniformMembers K es)
    (h' : UniformMembers K es') : UniformMembers K fun w => es w ++ es' w := by
  obtain ⟨fs, hfs, hes⟩ := h
  obtain ⟨gs, hgs, hes'⟩ := h'
  refine ⟨fs ++ gs, ?_, fun w => by simp only [hes, hes', List.map_append]⟩
  intro f hf
  rcases List.mem_append.1 hf with hf | hf
  · exact hfs f hf
  · exact hgs f hf

theorem UniformMembers.reverse {es : World → List (String × Row)} (h : UniformMembers K es) :
    UniformMembers K fun w => (es w).reverse := by
  obtain ⟨fs, hfs, hes⟩ := h
  refine ⟨fs.reverse, ?_, fun w => by simp only [hes, List.map_reverse]⟩
  intro f hf
  exact hfs f (List.mem_reverse.1 hf)

/-- Parameters and uniform rows make uniform members. -/
theorem uniformMembers_zip (params : List String) {rs : World → List Row}
    (h : Lists (UniformRow K) rs) : UniformMembers K fun w => params.zip (rs w) := by
  induction params generalizing rs with
  | nil => exact uniformMembers_nil
  | cons p params ih =>
    rcases h.cases with hnil | ⟨f, ms, hf, hms, hcons⟩
    · have hfun : (fun w => (p :: params).zip (rs w)) = fun _ => [] := funext fun w => by rw [hnil]; rfl
      rw [hfun]
      exact uniformMembers_nil
    · have hfun : (fun w => (p :: params).zip (rs w)) = fun w => (p, f w) :: params.zip (ms w) :=
        funext fun w => by rw [hcons]; rfl
      rw [hfun]
      exact (ih hms).cons p hf

/-- The members of a name are a family, or there are none. -/
theorem UniformMembers.lookup {es : World → List (String × Row)} (h : UniformMembers K es)
    (name : String) :
    (∀ w, (es w).lookup name = none) ∨ ∃ rs, UniformRow K rs ∧ ∀ w, (es w).lookup name = some (rs w) := by
  obtain ⟨fs, hfs, hes⟩ := h
  have hmap : ∀ w : World, (fs.map fun f => (f.1, f.2 w)).lookup name = (fs.lookup name).map fun f => f w := by
    intro w
    clear hfs hes
    induction fs with
    | nil => rfl
    | cons f fs ih =>
      rw [List.map_cons, List.lookup_cons, List.lookup_cons, ih]
      cases name == f.1 <;> rfl
  cases hl : fs.lookup name with
  | none => exact Or.inl fun w => by rw [hes, hmap, hl]; rfl
  | some rs =>
    have hmem : (name, rs) ∈ fs := by
      clear hfs hes hmap
      induction fs with
      | nil => cases hl
      | cons f fs ih =>
        rw [List.lookup_cons] at hl
        cases hname : name == f.1 with
        | true =>
          rw [hname] at hl
          cases hl
          rw [eq_of_beq hname]
          exact List.mem_cons_self
        | false =>
          rw [hname] at hl
          exact List.mem_cons_of_mem _ (ih hl)
    exact Or.inr ⟨rs, hfs _ hmem, fun w => by rw [hes, hmap, hl]; rfl⟩

/-- The names of uniform members are the same in all worlds. -/
theorem UniformMembers.names {es : World → List (String × Row)} (h : UniformMembers K es) :
    ∃ names, ∀ w, (es w).map (·.1) = names := by
  obtain ⟨fs, -, hes⟩ := h
  exact ⟨fs.map (·.1), fun w => by rw [hes, List.map_map]; rfl⟩

theorem uniformMembers_ofTable (t : TableRef) : UniformMembers K fun _ => (Entries.ofTable t).list := by
  refine ⟨t.model.fields.map fun f => (f.name, fun _ => .term (.column t.label f.column)), ?_, ?_⟩
  · intro f hf
    obtain ⟨field, -, rfl⟩ := List.mem_map.1 hf
    exact .term _ (uniformTerm_fixed _)
  · intro w
    rw [List.map_map]
    rfl

theorem UniformRow.isGroup {rs : World → Row} (h : UniformRow K rs) : ∃ b, ∀ w, (rs w).isGroup = b := by
  cases h <;> exact ⟨_, fun _ => rfl⟩

/-- A captured value with other texts is uniform. -/
theorem uniformRow_ofCaptured {c : Captured} (hc : ∀ s ∈ c.texts, s ∈ K) :
    UniformRow K fun w => .ofCaptured (c.fill w.text) := by
  cases c with
  | object typeName fields =>
    have hfun : (fun w : World => (.ofCaptured ((Captured.object typeName fields).fill w.text) : Row)) =
        fun w => .host ((Captured.object typeName fields).fill w.text) :=
      funext fun w => by rw [Captured.fill]; rfl
    rw [hfun]
    exact .host _ hc
  | scalar v =>
    cases v with
    | text s =>
      have hs : s ∈ K := hc s (by simp [Captured.texts, Value.texts])
      have hfun : (fun w : World => (.ofCaptured ((Captured.scalar (.text s)).fill w.text) : Row)) =
          fun w => .scalar (.text (w.text s)) := funext fun w => by rw [Captured.fill]; rfl
      rw [hfun]
      exact .constant s hs
    | _ =>
      simp only [Captured.fill, Value.fill, Row.ofCaptured]
      exact .fixed _

end Rows

/-! ## Clauses -/

section Clauses

variable {K : List String}

/-- A family of joins with the same table and model. -/
def UniformJoin (K : List String) (js : World → Join) : Prop :=
  ∃ (t : TableRef) (outer inner : World → List Term) (typeName : String)
    (es : World → List (String × Row)) (m : Model),
    Lists (UniformTerm K) outer ∧ Lists (UniformTerm K) inner ∧ UniformMembers K es ∧
      ∀ w, js w = ⟨⟨t, outer w, inner w⟩, ⟨typeName, es w⟩, m⟩

/-- A family of projections onto the same type. -/
inductive UniformProjection (K : List String) : (World → Option Projection) → Prop
  | none : UniformProjection K fun _ => none
  | object (positional : Bool) (m : Model) (typeName : String) (es : World → List (String × Row))
    (hes : UniformMembers K es) :
    UniformProjection K fun w => some (.object positional m ⟨typeName, es w⟩)
  | scalar (type : Option ScalarType) (rs : World → Row) (hrs : UniformRow K rs) :
    UniformProjection K fun w => some (.scalar type (rs w))

/-- A family of folds with the same function. -/
inductive UniformFold (K : List String) : (World → Option (Aggregate × Term)) → Prop
  | none : UniformFold K fun _ => none
  | some (f : Aggregate) (ts : World → Term) (hts : UniformTerm K ts) :
    UniformFold K fun w => some (f, ts w)

/-- A family of sort keys of the same direction. -/
def UniformKey (K : List String) (ks : World → OrderKey) : Prop :=
  ∃ ts descending, UniformTerm K ts ∧ ∀ w, ks w = ⟨ts w, descending⟩

/-- What is the same in the clauses of all worlds. -/
structure FixedClauses where
  top : Option Nat
  distinct : Bool
  first : Bool
  count : Bool
  aliases : Nat
  root : Option TableRef

/-- The part of clauses that filling a tree does not change. -/
def Clauses.fixedPart (c : Clauses) : FixedClauses :=
  ⟨c.top, c.distinct, c.first, c.count, c.aliases, c.root⟩

/-- A family of clauses that differ in text constants only. -/
structure UniformClauses (K : List String) (cs : World → Clauses) : Prop where
  projection : UniformProjection K fun w => (cs w).projection
  filters : Lists (UniformTerm K) fun w => (cs w).filters
  order : Lists (UniformKey K) fun w => (cs w).order
  groupKeys : Lists (UniformTerm K) fun w => (cs w).groupKeys
  fold : UniformFold K fun w => (cs w).fold
  joins : Lists (UniformJoin K) fun w => (cs w).joins
  fixedPart : ∃ p, ∀ w, (cs w).fixedPart = p

theorem uniformClauses_empty : UniformClauses K fun _ => Clauses.empty :=
  ⟨.none, lists_nil, lists_nil, lists_nil, .none, lists_nil, ⟨_, fun _ => rfl⟩⟩

theorem uniformKey_of_term {ts : World → Term} (h : UniformTerm K ts) (descending : Bool) :
    UniformKey K fun w => ⟨ts w, descending⟩ :=
  ⟨ts, descending, h, fun _ => rfl⟩

/-! ## Texts of clauses -/

theorem Lists.renders {ls : World → List Term} (h : Lists (UniformTerm K) ls) (o : Options) :
    Lists (Spelled K) fun w => (ls w).map (·.render o) :=
  h.map fun _ ht => (ht o).1

/-- A clause is written where its list has members, which it has in all worlds or in none. -/
theorem spelled_clause (keyword separator : String) {ls : World → List String}
    (h : Lists (Spelled K) ls) : Spelled K fun w => clause keyword separator (ls w) := by
  rcases h.cases with hnil | ⟨f, ms, hf, hms, hcons⟩
  · exact (spelled_fixed "").congr fun w => by rw [hnil]; rfl
  · refine ((spelled_fixed keyword).append (spelled_intercalate separator (hms.cons hf))).congr ?_
    intro w
    rw [hcons]
    rfl

/-- The pairs of two uniform lists of terms, each as an equality. -/
theorem lists_pairs {ls rs : World → List Term} (hl : Lists (UniformTerm K) ls)
    (hr : Lists (UniformTerm K) rs) (o : Options) :
    Lists (Spelled K) fun w =>
      ((ls w).zip (rs w)).map fun (l, r) => "(" ++ l.render o ++ " = " ++ r.render o ++ ")" := by
  obtain ⟨fs, hfs, hls⟩ := hl
  obtain ⟨gs, hgs, hrs⟩ := hr
  refine ⟨(fs.zip gs).map fun p w => "(" ++ (p.1 w).render o ++ " = " ++ (p.2 w).render o ++ ")", ?_, ?_⟩
  · intro f hf
    obtain ⟨p, hp, rfl⟩ := List.mem_map.1 hf
    have h1 := (hfs p.1 (List.of_mem_zip hp).1 o).1
    have h2 := (hgs p.2 (List.of_mem_zip hp).2 o).1
    exact (((spelled_fixed "(").append h1).append (spelled_fixed " = ")).append h2 |>.append
      (spelled_fixed ")")
  · intro w
    simp only [hls, hrs, List.zip_map, List.map_map]
    rfl

theorem spelled_condition {ls : World → List String} (h : Lists (Spelled K) ls) :
    Spelled K fun w => match ls w with
      | [single] => single
      | several => "(" ++ " AND ".intercalate several ++ ")" := by
  have hall := (spelled_intercalate " AND " h).surround "(" ")"
  rcases h.cases with hnil | ⟨f, ms, hf, hms, hcons⟩
  · exact hall.congr fun w => by simp only [hnil]
  · rcases hms.cases with hnil' | ⟨g, ns, hg, hns, hcons'⟩
    · exact hf.congr fun w => by simp only [hcons, hnil']
    · exact hall.congr fun w => by simp only [hcons, hcons']

theorem spelled_join {js : World → Join} (h : UniformJoin K js) (o : Options) :
    Spelled K fun w => (js w).clause.render o := by
  obtain ⟨t, outer, inner, typeName, es, m, houter, hinner, -, hjs⟩ := h
  have hcondition := spelled_condition (lists_pairs houter hinner o)
  refine (((spelled_fixed (" INNER JOIN " ++ t.render o)).append (spelled_fixed " ON ")).append
    hcondition).congr ?_
  intro w
  rw [hjs]
  rfl

theorem spelled_renderJoins {js : World → List Join} (h : Lists (UniformJoin K) js) (o : Options)
    (nested : Bool) : Spelled K fun w => renderJoins o nested ((js w).map (·.clause)) := by
  obtain ⟨fs, hfs, hjs⟩ := h
  refine Spelled.congr (f := fun w => renderJoins o nested ((fs.map fun f => f w).map (·.clause))) ?_
    fun w => by rw [hjs]
  clear hjs
  induction fs with
  | nil => exact spelled_fixed ""
  | cons f fs ih =>
    have hf := spelled_join (hfs f List.mem_cons_self) o
    cases fs with
    | nil => exact hf
    | cons g fs =>
      have hrest := ih fun k hk => hfs k (List.mem_cons_of_mem _ hk)
      exact (hf.append (spelled_fixed _)).append hrest

theorem spelled_renderFrom {js : World → List Join} (h : Lists (UniformJoin K) js) (o : Options)
    (root : TableRef) : Spelled K fun w => renderFrom o root ((js w).map (·.clause)) := by
  obtain ⟨n, hn⟩ := h.length_eq
  refine ((spelled_fixed ((if o.nestJoins && decide (1 < n) then
    String.ofList (List.replicate (n - 1) '(') else "") ++ root.render o)).append
    (spelled_renderJoins h o (o.nestJoins && decide (1 < n)))).congr ?_
  intro w
  simp only [renderFrom, List.length_map, hn]

theorem spelled_order {ks : World → List OrderKey} (h : Lists (UniformKey K) ks) (o : Options) :
    Lists (Spelled K) fun w => (ks w).map (·.render o) := by
  refine h.map fun f hf => ?_
  obtain ⟨ts, descending, hts, hf⟩ := hf
  refine ((hts o).1.append (spelled_fixed (if descending then " DESC" else ""))).congr ?_
  intro w
  rw [hf]
  rfl

/-! ## Texts of statements -/

/-- A family of select items that are spelled. -/
def UniformItem (K : List String) (is : World → SelectItem) : Prop :=
  ∀ o joined, Spelled K fun w => (is w).render o joined

/-- A family of select lists that are spelled. -/
def UniformList (K : List String) (ls : World → SelectList) : Prop :=
  ∀ o joined, Spelled K fun w => (ls w).render o joined

theorem uniformItem_named {ts : World → Term} (h : UniformTerm K ts) (name : String) :
    UniformItem K fun w => .named (ts w) name :=
  fun o joined => (((h o).2 joined).append (spelled_fixed " AS ")).append (spelled_fixed _)

theorem uniformItem_folded {ts : World → Term} (h : UniformTerm K ts) :
    UniformItem K fun w => .folded (ts w) :=
  fun o _ => ((h o).1.append (spelled_fixed " AS ")).append (spelled_fixed _)

theorem uniformList_items {is : World → List SelectItem} (h : Lists (UniformItem K) is) :
    UniformList K fun w => .items (is w) :=
  fun o joined => spelled_intercalate ", " (h.map fun _ hi => hi o joined)

theorem uniformList_withFolded {is : World → List SelectItem} (h : Lists (UniformItem K) is)
    {ts : World → Term} (ht : UniformTerm K ts) : UniformList K fun w => .withFolded (is w) (ts w) :=
  fun o joined => ((uniformList_items h o joined).append (spelled_fixed ", ")).append
    (uniformItem_folded ht o joined)

/-- The text of a block of uniform clauses is spelled. -/
theorem UniformClauses.spelled_block {cs : World → Clauses} (h : UniformClauses K cs) (root : TableRef)
    {ls : World → SelectList} (hls : UniformList K ls) (limited ordered : Bool) (o : Options) :
    Spelled K fun w => ((cs w).block root (ls w) limited ordered).render o := by
  obtain ⟨p, hp⟩ := h.fixedPart
  have hdistinct : ∀ w, (cs w).distinct = p.distinct := fun w => by rw [← hp w]; rfl
  have htop : ∀ w, (cs w).top = p.top := fun w => by rw [← hp w]; rfl
  obtain ⟨n, hn⟩ := h.joins.length_eq
  have hjoined : ∀ w, (!((cs w).joins.map (·.clause)).isEmpty) = decide (n ≠ 0) := by
    intro w
    have hlen := hn w
    cases hj : (cs w).joins with
    | nil => rw [hj] at hlen; subst hlen; rfl
    | cons j rest => rw [hj] at hlen; subst hlen; rfl
  have horder : Lists (Spelled K) fun w => (if ordered then (cs w).order else []).map (·.render o) := by
    cases ordered
    · exact lists_nil
    · exact spelled_order h.order o
  have hselect := ((spelled_fixed (K := K) "SELECT ").append
    (spelled_fixed (if limited && p.distinct then "DISTINCT " else ""))).append
    (spelled_fixed ((if limited then p.top else none).elim "" fun n => o.dialect.top n))
  have hfrom := ((hselect.append (hls o (decide (n ≠ 0)))).append (spelled_fixed " FROM ")).append
    (spelled_renderFrom h.joins o root)
  have hwhere := hfrom.append (spelled_clause " WHERE " " AND " (h.filters.renders o))
  have hgroup := hwhere.append (spelled_clause " GROUP BY " ", " (h.groupKeys.renders o))
  have hall := (hgroup.append (spelled_clause " ORDER BY " ", " horder)).append
    (spelled_fixed ((if limited then p.top else none).elim "" fun n => o.dialect.limit n))
  refine hall.congr fun w => ?_
  simp only [Select.render, Clauses.block, hdistinct, htop, hjoined]
  cases (if limited then p.top else none) <;> rfl

end Clauses

end QueryChain
