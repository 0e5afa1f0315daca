import QueryChain.Chain
import QueryChain.Proofs.Lowering.Compiled
import QueryChain.Proofs.Lowering.Simulation
import QueryChain.Proofs.Text.Pattern

/-!
# A text constant cannot leave its quotes

The texts that a tree mentions reach a statement only as literals of their own. Two trees that differ in these texts
alone fail alike, or are lowered to statements whose texts have the same pieces.

* `Expr.follows_rowOf`: lowering a tree keeps to uniform families.
* `Expr.compile_fill`: what is compiled is spelled in pieces that do not depend on the texts.
* `Piece.textOfLiteral_quoted`: the piece of a constant is a literal that denotes the constant.
-/

namespace QueryChain

open Lowering Lower

/-! ## Trees -/

namespace Expr

variable {K : List String} {p : Fault}

theorem applyTo_fill_of_no_function {e : Expr} (hlambda : ∀ params body ty, e ≠ .lambda params body ty)
    (hquote : ∀ inner ty, e ≠ .quote inner ty) (h : Host) (env : Env) (rows : List Row) (σ : String → String) :
    (e.fill σ).applyTo env rows h = throw (.form (.lambdaExpected e.kindName)) := by
  cases e with
  | lambda params body ty => exact absurd rfl (hlambda params body ty)
  | quote inner ty => exact absurd rfl (hquote inner ty)
  | _ => rw [fill, applyTo] <;> simp [kindName]

mutual

/-- Lowering a tree follows in all worlds, whatever uniform rows its parameters stand for. -/
theorem follows_rowOf (e : Expr) (he : ∀ s ∈ e.texts, s ∈ K) {env : World → Env}
    (henv : UniformMembers K env) :
    Follows K p (UniformRow K) fun w => (e.fill w.text).rowOf (env w) (w.host K p) := by
  cases e with
  | value v ty =>
    rw [texts] at he
    simp only [fill, rowOf]
    cases v with
    | text s => exact follows_pure (.constant s (he s (by simp [Value.texts])))
    | _ => exact follows_pure (.fixed _)
  | captured c ty =>
    rw [texts] at he
    simp only [fill, rowOf]
    exact follows_pure (uniformRow_ofCaptured he)
  | table m ty =>
    simp only [fill, rowOf]
    refine (follows_bindTable m).bind fun ts hts => ?_
    obtain ⟨t, ht⟩ := hts
    exact (follows_pure (.table t)).congr fun w => by rw [ht]
  | param name ty =>
    simp only [fill, rowOf]
    exact follows_lookup henv name
  | field target name ty =>
    rw [texts] at he
    have htarget := follows_rowOf target he henv
    simp only [fill, rowOf]
    exact htarget.bind fun _ hrs => follows_memberOf hrs name
  | binary op l r ty =>
    rw [texts] at he
    have hl := follows_rowOf l (fun s hs => he s (List.mem_append_left _ hs)) henv
    have hr := follows_rowOf r (fun s hs => he s (List.mem_append_right _ hs)) henv
    simp only [fill, rowOf, joinsTexts, ty_fill]
    exact hl.bind fun _ hls => hr.bind fun _ hrs => follows_combine op _ hls hrs
  | method target name args ty =>
    rw [texts] at he
    have htarget := follows_rowOf target (fun s hs => he s (List.mem_append_left _ hs)) henv
    have hargs := follows_rowsOf args (fun s hs => he s (List.mem_append_right _ hs)) henv
    simp only [fill, rowOf]
    exact htarget.bind fun _ hrs => hargs.bind fun _ has => follows_callMethod name hrs has
  | operator name args ty =>
    rw [texts] at he
    have hargs := uniform_operandsOf args he henv
    simp only [fill, rowOf]
    exact follows_callOperator name hargs
  | lambda params body ty =>
    rw [texts] at he
    simp only [fill, rowOf]
    exact follows_rowOf body he henv
  | quote inner ty =>
    rw [texts] at he
    simp only [fill, rowOf]
    exact follows_rowOf inner he henv
  | object shape members ty =>
    rw [texts] at he
    have hmembers := follows_membersOf members he henv
    simp only [fill, rowOf]
    exact hmembers.bind fun _ hes => follows_pure (.ofMembers hes _)

/-- A function follows in all worlds, whatever uniform rows it is applied to. -/
theorem follows_applyTo (e : Expr) (he : ∀ s ∈ e.texts, s ∈ K) {env : World → Env}
    (henv : UniformMembers K env) {rows : World → List Row} (hrows : Lists (UniformRow K) rows) :
    Follows K p (UniformRow K) fun w => (e.fill w.text).applyTo (env w) (rows w) (w.host K p) := by
  cases e with
  | quote inner ty =>
    rw [texts] at he
    simp only [fill, applyTo]
    exact follows_applyTo inner he henv hrows
  | lambda params body ty =>
    rw [texts] at he
    obtain ⟨n, hn⟩ := hrows.length_eq
    have henv' : UniformMembers K fun w => (params.zip (rows w)).reverse ++ env w :=
      (uniformMembers_zip params hrows).reverse.append henv
    have hbody := follows_rowOf body he henv'
    simp only [fill, applyTo, hn]
    split
    · exact hbody
    · exact follows_throw _
  | _ =>
    refine (follows_throw _).congr fun w => applyTo_fill_of_no_function ?_ ?_ _ _ _ _
    · rintro params body ty ⟨⟩
    · rintro inner ty ⟨⟩

theorem follows_rowsOf (es : List Expr) (he : ∀ s ∈ textsOfAll es, s ∈ K) {env : World → Env}
    (henv : UniformMembers K env) :
    Follows K p (Lists (UniformRow K)) fun w => rowsOf (env w) (fillAll w.text es) (w.host K p) := by
  cases es with
  | nil =>
    simp only [fillAll, rowsOf]
    exact follows_pure lists_nil
  | cons e rest =>
    rw [textsOfAll] at he
    have hfirst := follows_rowOf e (fun s hs => he s (List.mem_append_left _ hs)) henv
    have hrest := follows_rowsOf rest (fun s hs => he s (List.mem_append_right _ hs)) henv
    simp only [fillAll, rowsOf]
    exact hfirst.append_row hrest

theorem uniform_operandsOf (es : List Expr) (he : ∀ s ∈ textsOfAll es, s ∈ K) {env : World → Env}
    (henv : UniformMembers K env) :
    Lists (UniformOperand K p) fun w => operandsOf (env w) (fillAll w.text es) (w.host K p) := by
  cases es with
  | nil =>
    simp only [fillAll, operandsOf]
    exact lists_nil
  | cons e rest =>
    rw [textsOfAll] at he
    have hfirst : ∀ s ∈ e.texts, s ∈ K := fun s hs => he s (List.mem_append_left _ hs)
    have hrow : Follows K p (UniformRow K) fun w => (e.fill w.text).rowOf (env w) (w.host K p) :=
      follows_rowOf e hfirst henv
    have happly : ∀ rows, Lists (UniformRow K) rows → Follows K p (UniformRow K)
        fun w => (e.fill w.text).applyTo (env w) (rows w) (w.host K p) :=
      fun rows hrows => follows_applyTo e hfirst henv hrows
    have hrest := uniform_operandsOf rest (fun s hs => he s (List.mem_append_right _ hs)) henv
    simp only [fillAll, operandsOf]
    exact hrest.cons ⟨⟨e, fun _ => rfl⟩, hrow, happly⟩

theorem follows_membersOf (members : List (String × Expr)) (he : ∀ s ∈ textsOfMembers members, s ∈ K)
    {env : World → Env} (henv : UniformMembers K env) :
    Follows K p (UniformMembers K) fun w => membersOf (env w) (fillMembers w.text members) (w.host K p) := by
  cases members with
  | nil =>
    simp only [fillMembers, membersOf]
    exact follows_pure uniformMembers_nil
  | cons member rest =>
    obtain ⟨label, e⟩ := member
    rw [textsOfMembers] at he
    have hfirst := follows_rowOf e (fun s hs => he s (List.mem_append_left _ hs)) henv
    have hrest := follows_membersOf rest (fun s hs => he s (List.mem_append_right _ hs)) henv
    simp only [fillMembers, membersOf, memberRow]
    have hmember : Follows K p (fun ms => ∃ rs, UniformRow K rs ∧ ∀ w, ms w = (label, rs w)) fun w => (do
        let r ← (e.fill w.text).rowOf (env w) (w.host K p)
        pure (label, r)) :=
      hfirst.bind fun rs hrs => follows_pure ⟨rs, hrs, fun _ => rfl⟩
    refine hmember.bind fun ms hms => hrest.bind fun es hes => ?_
    obtain ⟨rs, hrs, hms⟩ := hms
    simp only [hms]
    exact follows_pure (hes.cons label hrs)

end

end Expr

/-! ## Statements -/

section Statements

variable {K : List String} {α β : Type}

/-- Results one after another. -/
theorem Agrees.bind {R : (World → α) → Prop} {S : (World → β) → Prop} {r : World → Except Fault α}
    {f : World → α → Except Fault β} (h : Agrees R r)
    (hf : ∀ as, R as → Agrees S fun w => f w (as w)) : Agrees S fun w => r w >>= f w := by
  rcases h with ⟨fault, hr⟩ | ⟨as, has, hr⟩
  · exact Or.inl ⟨fault, fun w => by simp only [hr w]; rfl⟩
  · have hbind : ∀ w, (r w >>= f w) = f w (as w) := fun w => by rw [hr w]; rfl
    simp only [hbind]
    exact hf as has

theorem agrees_ok {R : (World → α) → Prop} {as : World → α} (h : R as) : Agrees R fun w => .ok (as w) :=
  Or.inr ⟨as, h, fun _ => rfl⟩

theorem agrees_selectedTerm {rs : World → Row} (h : UniformRow K rs) :
    Agrees (UniformTerm K) fun w => Clauses.selectedTerm (rs w) := by
  cases h with
  | fixed v => exact agrees_fixed fun t _ => uniformTerm_fixed t
  | constant s hs => exact Or.inr ⟨_, uniformTerm_constant hs, fun _ => rfl⟩
  | host c hc => exact Or.inl ⟨.value (.hostSelected c.typeName), fun w => by simp [Clauses.selectedTerm]⟩
  | term ts hts => exact Or.inr ⟨ts, hts, fun _ => rfl⟩
  | table t => exact Or.inl ⟨_, fun _ => rfl⟩
  | projected typeName fs hfs => exact Or.inl ⟨.use (.memberSelection .projected), fun _ => rfl⟩
  | joined index => exact Or.inl ⟨_, fun _ => rfl⟩
  | group ts rs hts hrs => exact Or.inl ⟨.use (.memberSelection .group), fun _ => rfl⟩

theorem agrees_memberItems {es : World → List (String × Row)} (h : UniformMembers K es) :
    Agrees (Lists (UniformItem K)) fun w => Clauses.memberItems (es w) := by
  obtain ⟨fs, hfs, hes⟩ := h
  simp only [hes]
  clear hes
  induction fs with
  | nil => exact agrees_ok lists_nil
  | cons f fs ih =>
    exact (agrees_selectedTerm (hfs f List.mem_cons_self)).bind fun ts hts =>
      (ih fun g hg => hfs g (List.mem_cons_of_mem _ hg)).bind fun is his =>
        agrees_ok (his.cons (uniformItem_named hts f.1))

/-- The shape of rows depends on the names of the members only. -/
theorem agrees_shape {shape : Entries → Except Fault RowShape}
    (hshape : ∀ typeName list list', list.map Prod.fst = list'.map Prod.fst →
      shape ⟨typeName, list⟩ = shape ⟨typeName, list'⟩) {typeName : String}
    {es : World → List (String × Row)} (h : UniformMembers K es) :
    Agrees (fun ss => ∃ s : RowShape, ∀ w : World, ss w = s) fun w => shape ⟨typeName, es w⟩ := by
  obtain ⟨names, hnames⟩ := h.names
  have hsame : ∀ w, shape ⟨typeName, es w⟩ = shape ⟨typeName, es .refused⟩ :=
    fun w => hshape _ _ _ (by rw [hnames, hnames])
  simp only [hsame]
  exact agrees_fixed fun s _ => ⟨s, fun _ => rfl⟩

theorem namedShape_congr (m : Model) (typeName : String) (list list' : List (String × Row))
    (h : list.map Prod.fst = list'.map Prod.fst) :
    Clauses.namedShape m ⟨typeName, list⟩ = Clauses.namedShape m ⟨typeName, list'⟩ := by
  simp only [Clauses.namedShape, Entries.names, h]

theorem positionalShape_congr (m : Model) (typeName : String) (list list' : List (String × Row))
    (h : list.map Prod.fst = list'.map Prod.fst) :
    Clauses.positionalShape m ⟨typeName, list⟩ = Clauses.positionalShape m ⟨typeName, list'⟩ := by
  simp only [Clauses.positionalShape, Entries.names, h]

/-- Select items and a shape, of which only the items differ between worlds. -/
def UniformSelection (K : List String) (xs : World → List SelectItem × RowShape) : Prop :=
  ∃ is s, Lists (UniformItem K) is ∧ ∀ w, xs w = (is w, s)

theorem agrees_objectSelection (positional : Bool) (m : Model) {typeName : String}
    {es : World → List (String × Row)} (h : UniformMembers K es) :
    Agrees (UniformSelection K) fun w => (do
      let items ← Clauses.memberItems (es w)
      let shape ← if positional then Clauses.positionalShape m ⟨typeName, es w⟩
        else Clauses.namedShape m ⟨typeName, es w⟩
      pure (items, shape)) := by
  refine (agrees_memberItems h).bind fun is his => ?_
  have hpair : ∀ ss : World → RowShape, (∃ s, ∀ w, ss w = s) →
      Agrees (UniformSelection K) fun w => pure (is w, ss w) := by
    rintro ss ⟨s, hs⟩
    exact agrees_ok ⟨is, s, his, fun w => by simp only [hs]⟩
  cases positional
  · exact (agrees_shape (namedShape_congr m) h).bind hpair
  · exact (agrees_shape (positionalShape_congr m) h).bind hpair

theorem uniformItem_bare {ts : World → Term} (h : UniformTerm K ts) : UniformItem K fun w => .bare (ts w) :=
  fun o joined => (h o).2 joined

/-- What is selected agrees in all worlds. -/
theorem agrees_selection {cs : World → Clauses} (h : UniformClauses K cs) (root : TableRef) :
    Agrees (UniformSelection K) fun w => (cs w).selection root := by
  have hprojection := h.projection
  generalize hps : (fun w => (cs w).projection) = ps at hprojection
  have hps : ∀ w, (cs w).projection = ps w := fun w => congrFun hps w
  unfold Clauses.selection
  simp only [hps]
  cases hprojection with
  | scalar type rs hrs =>
    exact (agrees_selectedTerm hrs).bind fun ts hts =>
      agrees_ok ⟨_, .scalar type, lists_singleton (uniformItem_bare hts), fun _ => rfl⟩
  | object positional m typeName es hes => exact agrees_objectSelection positional m hes
  | none =>
    rcases h.joins.getLast? with hnone | ⟨js, hjs, hsome⟩
    · simp only [hnone]
      rcases h.groupKeys.getLast? with hnone' | ⟨ts, hts, hsome'⟩
      · simp only [hnone']
        refine agrees_ok ⟨_, .entity root.model, ?_, fun _ => rfl⟩
        refine ⟨root.model.fields.map fun f _ => .entity root.label f.column, ?_, ?_⟩
        · intro f hf
          obtain ⟨field, -, rfl⟩ := List.mem_map.1 hf
          exact fun o joined => spelled_fixed _
        · intro w
          rw [List.map_map]
          rfl
      · simp only [hsome']
        exact agrees_ok ⟨_, .scalar none, lists_singleton (uniformItem_bare hts), fun _ => rfl⟩
    · obtain ⟨t, outer, inner, typeName, es, m, -, -, hes, hjs⟩ := hjs
      simp only [hsome, hjs]
      exact agrees_objectSelection _ m hes

theorem uniformList_plain {ts : World → Term} (h : UniformTerm K ts) :
    UniformList K fun w => .items [.plain (ts w)] :=
  uniformList_items (lists_singleton fun o _ => (h o).1)

/-- The list under a fold. -/
theorem uniformList_foldedList {cs : World → Clauses} (h : UniformClauses K cs)
    {is : World → List SelectItem} (his : Lists (UniformItem K) is) {ts : World → Term}
    (hts : UniformTerm K ts) : UniformList K fun w => (cs w).foldedList (is w) (ts w) := by
  obtain ⟨q, hq⟩ := h.fixedPart
  have hdistinct : ∀ w, (cs w).distinct = q.distinct := fun w => by rw [← hq w]; rfl
  have hobject : ∃ b, ∀ w, (cs w).projectsObject = b := by
    have hprojection := h.projection
    generalize hps : (fun w => (cs w).projection) = ps at hprojection
    have hps : ∀ w, (cs w).projection = ps w := fun w => congrFun hps w
    simp only [Clauses.projectsObject, hps]
    cases hprojection <;> exact ⟨_, fun _ => rfl⟩
  obtain ⟨b, hb⟩ := hobject
  simp only [Clauses.foldedList, hdistinct, hb]
  split
  · exact uniformList_withFolded his hts
  · exact uniformList_items (lists_singleton (uniformItem_folded hts))

/-- The mode of a query, and whether its rows are counted or folded from outside, are the same in all worlds. -/
theorem UniformClauses.mode {cs : World → Clauses} (h : UniformClauses K cs) :
    ∃ m, ∀ w, (cs w).mode = m := by
  obtain ⟨q, hq⟩ := h.fixedPart
  have hcount : ∀ w, (cs w).count = q.count := fun w => by rw [← hq w]; rfl
  have hfirst : ∀ w, (cs w).first = q.first := fun w => by rw [← hq w]; rfl
  have hfold := h.fold
  generalize hfs : (fun w => (cs w).fold) = fs at hfold
  have hfs : ∀ w, (cs w).fold = fs w := fun w => congrFun hfs w
  simp only [Clauses.mode, hcount, hfirst, hfs]
  cases hfold with
  | none => exact ⟨_, fun _ => rfl⟩
  | some f ts hts => exact ⟨if q.count then .count else .aggregate, fun _ => rfl⟩

theorem UniformClauses.isWrapped {cs : World → Clauses} (h : UniformClauses K cs) :
    ∃ b, ∀ w, (cs w).isWrapped = b := by
  obtain ⟨q, hq⟩ := h.fixedPart
  have hdistinct : ∀ w, (cs w).distinct = q.distinct := fun w => by rw [← hq w]; rfl
  have htop : ∀ w, (cs w).top = q.top := fun w => by rw [← hq w]; rfl
  simp only [Clauses.isWrapped, hdistinct, htop]
  rcases h.groupKeys.cases with hnil | ⟨f, ms, -, -, hcons⟩
  · exact ⟨_, fun w => by rw [hnil]⟩
  · exact ⟨(q.distinct || q.top.isSome || true), fun w => by rw [hcons]; rfl⟩

/-- The text of a statement of uniform clauses is spelled. -/
theorem UniformClauses.spelled_statement {cs : World → Clauses} (h : UniformClauses K cs)
    (root : TableRef) {is : World → List SelectItem} (his : Lists (UniformItem K) is) (o : Options) :
    Spelled K fun w => ((cs w).statement root (is w)).render o := by
  obtain ⟨m, hm⟩ := h.mode
  obtain ⟨b, hb⟩ := h.isWrapped
  obtain ⟨q, hq⟩ := h.fixedPart
  have htop : ∀ w, (cs w).top = q.top := fun w => by rw [← hq w]; rfl
  have hplain : Spelled K fun w => (Statement.plain ((cs w).block root (.items (is w)) true true)).render o :=
    h.spelled_block root (uniformList_items his) true true o
  have hfold := h.fold
  generalize hfs : (fun w => (cs w).fold) = fs at hfold
  have hfs : ∀ w, (cs w).fold = fs w := fun w => congrFun hfs w
  simp only [Clauses.statement, hm, hb, hfs, htop]
  cases m with
  | rows => exact hplain
  | first => exact hplain
  | count =>
    cases b
    · exact h.spelled_block root (uniformList_plain (uniformTerm_fixed _)) false false o
    · exact (h.spelled_block root (uniformList_items his) true false o).surround _ _
  | aggregate =>
    cases hfold with
    | none => exact hplain
    | some f ts hts =>
      cases b
      · exact h.spelled_block root (uniformList_plain (hts.fold f)) false false o
      · exact (h.spelled_block root (uniformList_foldedList h his hts) true q.top.isSome o).surround _ _

/-- A lowered query of which only the text constants in the statement differ between worlds. -/
def UniformLowered (K : List String) (ls : World → Lowered) : Prop :=
  (∃ shape mode top distinct, ∀ w, (ls w).shape = shape ∧ (ls w).mode = mode ∧ (ls w).top = top ∧
    (ls w).distinct = distinct) ∧ ∀ o, Spelled K fun w => (ls w).statement.render o

theorem agrees_assemble {cs : World → Clauses} (h : UniformClauses K cs) :
    Agrees (UniformLowered K) fun w => (cs w).assemble := by
  obtain ⟨q, hq⟩ := h.fixedPart
  have hroot : ∀ w, (cs w).root = q.root := fun w => by rw [← hq w]; rfl
  have htop : ∀ w, (cs w).top = q.top := fun w => by rw [← hq w]; rfl
  have hdistinct : ∀ w, (cs w).distinct = q.distinct := fun w => by rw [← hq w]; rfl
  obtain ⟨m, hm⟩ := h.mode
  simp only [Clauses.assemble, hroot]
  cases q.root with
  | none => exact Or.inl ⟨.form .noTable, fun _ => rfl⟩
  | some root =>
    refine (agrees_selection h root).bind fun xs hxs => ?_
    obtain ⟨is, s, his, hxs⟩ := hxs
    simp only [hxs]
    refine agrees_ok ⟨⟨s, m, q.top, q.distinct, fun w => ⟨rfl, hm w, htop w, hdistinct w⟩⟩, ?_⟩
    exact fun o => h.spelled_statement root his o

end Statements

/-! ## Whole trees -/

/-- Over the host that refuses its constants, a tree is refused or lowered as all its fillings are. -/
theorem Expr.agrees_lower (e : Expr) (p : Fault) :
    (e.lower (Host.refusing e.texts p) = .error p) ∨
      Agrees (UniformLowered e.texts) fun w => (e.fill w.text).lower (w.host e.texts p) := by
  have hrow := Expr.follows_rowOf (p := p) e (fun _ hs => hs) uniformMembers_nil
  rcases hrow _ uniformClauses_empty with ⟨c, hrefused⟩ | ⟨f, hfails⟩ | ⟨rs, cs, -, hcs, hyields⟩
  · left
    have hrun : ExceptT.run ((e.fill id).rowOf [] (Host.refusing e.texts p)) Clauses.empty = (.error p, c) :=
      hrefused
    rw [Expr.fill_id] at hrun
    simp only [Expr.lower, Expr.clausesOf, hrun]
  · refine Or.inr (Or.inl ⟨f, fun w => ?_⟩)
    obtain ⟨c, hc⟩ := hfails w
    simp only [Expr.lower, Expr.clausesOf, hc]
  · right
    have hlower : ∀ w, (e.fill w.text).lower (w.host e.texts p) = (cs w).assemble :=
      fun w => by simp only [Expr.lower, Expr.clausesOf, hyields w]
    simp only [hlower]
    exact agrees_assemble hcs

/-- Two faults, so that one of them is not the fault of a tree. -/
theorem exists_ne_fault (f : Fault) : ∃ p : Fault, p ≠ f := by
  cases f with
  | form g => exact ⟨.unbound "", by simp⟩
  | _ => exact ⟨.form .noTable, by simp⟩

/-- **Text constants cannot leave their quotes.** The texts of a tree name its constants, and two that are to be
filled differently have different names. If no call that the host carries out has a text constant among its
operands, all fillings of the tree fail with the same fault, or compile to rows of one shape, mode, limit and
distinctness, and the texts of their statements have the same pieces: fixed ones, and the constants, each between
its own quotes. -/
theorem Expr.compile_fill (e : Expr) (h : e.KeepsTextsFromHost) (o : Options) :
    (∃ f, ∀ σ, (e.fill σ).compile o = .error f) ∨
      ∃ (ps : List Piece) (shape : RowShape) (mode : ResultMode) (top : Option Nat) (distinct : Bool),
        (∀ p ∈ ps, p.IsOver e.texts) ∧
          ∀ σ, (e.fill σ).compile o = .ok ⟨Piece.spell σ ps, shape, mode, top, distinct⟩ := by
  have hagrees : ∃ p, Agrees (UniformLowered e.texts) fun w => (e.fill w.text).lower (w.host e.texts p) := by
    -- the refusal would be the fault of the tree itself, whichever fault the host refuses with
    cases hl : e.lower with
    | error f =>
      obtain ⟨p, hp⟩ := exists_ne_fault f
      refine ⟨p, (e.agrees_lower p).resolve_left fun hrefused => ?_⟩
      rw [h _ (Host.agreesOff_refusing _ _), hl] at hrefused
      cases hrefused
      exact hp rfl
    | ok t =>
      refine ⟨.form .noTable, (e.agrees_lower _).resolve_left fun hrefused => ?_⟩
      rw [h _ (Host.agreesOff_refusing _ _), hl] at hrefused
      cases hrefused
  obtain ⟨p, hagrees⟩ := hagrees
  have hfilled : ∀ σ, (e.fill σ).lower =
      (e.fill (World.filled σ).text).lower ((World.filled σ).host e.texts p) :=
    fun _ => rfl
  rcases hagrees with ⟨f, hf⟩ | ⟨ls, ⟨⟨shape, mode, top, distinct, hfixed⟩, hspelled⟩, hls⟩
  · refine Or.inl ⟨f, fun σ => ?_⟩
    have hlower : (e.fill σ).lower = .error f := (hfilled σ).trans (hf (.filled σ))
    exact Expr.compile_eq_error hlower
  · obtain ⟨ps, hps, hrender⟩ := hspelled o
    refine Or.inr ⟨ps, shape, mode, top, distinct, hps, fun σ => ?_⟩
    obtain ⟨hshape, hmode, htop, hdistinct⟩ := hfixed (.filled σ)
    have hsql : (ls (.filled σ)).statement.render o = Piece.spell σ ps := hrender (.filled σ)
    have hcompiled : (ls (.filled σ)).compiled o = ⟨Piece.spell σ ps, shape, mode, top, distinct⟩ := by
      rw [Lowered.compiled, hshape, hmode, htop, hdistinct, hsql]
    have hlower : (e.fill σ).lower = .ok (ls (.filled σ)) := (hfilled σ).trans (hls (.filled σ))
    rw [Expr.compile_eq_ok hlower, hcompiled]

/-- The piece of a constant reads back as the constant, with its wildcards: whatever quotes it has in it, the literal
ends at its own closing quote. -/
theorem Piece.textOfLiteral_quoted (σ : String → String) (before : Bool) (constant : String) (after : Bool) :
    textOfLiteral ((Piece.quoted before constant after).text σ) =
      some (wildcard before ++ σ constant ++ wildcard after) :=
  textOfLiteral_quoteText _

/-- The customers whose name holds a text and is not another one. -/
def Expr.namedLike (part other : String) : Expr :=
  ((Chain.ofModel (.dynamic (.single 0) "Customer" "Customers" [("Name", "Name", some .text)] none)).filter
    fun c => .applyOp .and ((c.member "Name").callMethod "Contains" [.ofValue (.text part)])
      (.applyOp .ne (c.member "Name") (.ofValue (.text other)))).expr

theorem Expr.compile_fill_namedLike :
    (Expr.namedLike "x" "y").KeepsTextsFromHost ∧
      ((∃ f, ∀ σ, ((Expr.namedLike "x" "y").fill σ).compile .standard = .error f) ∨
        ∃ (ps : List Piece) (shape : RowShape) (mode : ResultMode) (top : Option Nat) (distinct : Bool),
          (∀ p ∈ ps, p.IsOver (Expr.namedLike "x" "y").texts) ∧
            ∀ σ, ((Expr.namedLike "x" "y").fill σ).compile .standard =
              .ok ⟨Piece.spell σ ps, shape, mode, top, distinct⟩) := by
  have h : (Expr.namedLike "x" "y").KeepsTextsFromHost := fun _ _ => rfl
  exact ⟨h, Expr.compile_fill _ h _⟩

end QueryChain
