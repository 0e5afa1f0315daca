import QueryChain.Lowering.Compiled

/-!
# Text constants and the pieces of SQL texts

The text constants of a tree are its text literals and the texts in its captured values. A tree is filled by
putting other texts in their place; what a filled tree is lowered to is spelled in pieces, which are fixed or are
the literal of a constant. A family over worlds is one filled tree for each way of filling, and besides the tree
itself over a host that refuses to look at a constant.

* `Spelled`: a family of SQL texts with the same pieces.
* `UniformTerm`: a family of SQL terms whose texts are spelled, however they are written.
-/

namespace QueryChain

/-! ## Constants -/

/-- The text of a value that is one. -/
def Value.texts : Value → List String
  | .text s => [s]
  | _ => []

/-- A value with another text. -/
def Value.fill (σ : String → String) : Value → Value
  | .text s => .text (σ s)
  | v => v

namespace Captured

mutual

/-- The texts in a captured value. -/
def texts : Captured → List String
  | .scalar v => v.texts
  | .object _ fields => textsOfFields fields

/-- The texts in the fields of a captured object. -/
def textsOfFields : List (String × Captured) → List String
  | [] => []
  | (_, c) :: rest => texts c ++ textsOfFields rest

end

mutual

/-- A captured value with other texts. -/
def fill (σ : String → String) : Captured → Captured
  | .scalar v => .scalar (v.fill σ)
  | .object typeName fields => .object typeName (fillFields σ fields)

/-- Fields with other texts. -/
def fillFields (σ : String → String) : List (String × Captured) → List (String × Captured)
  | [] => []
  | (field, c) :: rest => (field, fill σ c) :: fillFields σ rest

end

end Captured

namespace Expr

mutual

/-- The text constants of a tree. -/
def texts : Expr → List String
  | .value v _ => v.texts
  | .captured c _ => c.texts
  | .table _ _ | .param _ _ => []
  | .field target _ _ => texts target
  | .binary _ l r _ => texts l ++ texts r
  | .method target _ args _ => texts target ++ textsOfAll args
  | .operator _ args _ => textsOfAll args
  | .lambda _ body _ => texts body
  | .quote inner _ => texts inner
  | .object _ members _ => textsOfMembers members

/-- The text constants of several trees. -/
def textsOfAll : List Expr → List String
  | [] => []
  | e :: rest => texts e ++ textsOfAll rest

/-- The text constants of the members of a new object. -/
def textsOfMembers : List (String × Expr) → List String
  | [] => []
  | (_, e) :: rest => texts e ++ textsOfMembers rest

end

mutual

/-- A tree with other texts for its text constants. -/
def fill (σ : String → String) : Expr → Expr
  | .value v ty => .value (v.fill σ) ty
  | .captured c ty => .captured (c.fill σ) ty
  | .table m ty => .table m ty
  | .param name ty => .param name ty
  | .field target name ty => .field (fill σ target) name ty
  | .binary op l r ty => .binary op (fill σ l) (fill σ r) ty
  | .method target name args ty => .method (fill σ target) name (fillAll σ args) ty
  | .operator name args ty => .operator name (fillAll σ args) ty
  | .lambda params body ty => .lambda params (fill σ body) ty
  | .quote inner ty => .quote (fill σ inner) ty
  | .object shape members ty => .object shape (fillMembers σ members) ty

/-- Several trees with other texts. -/
def fillAll (σ : String → String) : List Expr → List Expr
  | [] => []
  | e :: rest => fill σ e :: fillAll σ rest

/-- Members of a new object with other texts. -/
def fillMembers (σ : String → String) : List (String × Expr) → List (String × Expr)
  | [] => []
  | (label, e) :: rest => (label, fill σ e) :: fillMembers σ rest

end

end Expr

/-- Whether a value is one of these texts. -/
def Value.isTextOf (texts : List String) : Value → Bool
  | .text s => decide (s ∈ texts)
  | _ => false

/-- A host that is the host of the model where no operand of a call is one of these texts. -/
def Host.AgreesOff (h : Host) (texts : List String) : Prop :=
  (∀ s, s ∉ texts → h.length s = Host.standard.length s) ∧
    ∀ v name args, (v :: args).any (·.isTextOf texts) = false →
      h.invoke v name args = Host.standard.invoke v name args

/-- No call that the host carries out has a text constant among its operands: whatever such calls would give, the
tree is lowered alike. -/
def Expr.KeepsTextsFromHost (e : Expr) : Prop :=
  ∀ h : Host, h.AgreesOff e.texts → (e.lower h : Except Fault Lowered) = e.lower

/-! ## Filling with the same texts -/

theorem Value.fill_id (v : Value) : v.fill id = v := by
  cases v <;> rfl

mutual

theorem Captured.fill_id (c : Captured) : c.fill id = c := by
  cases c with
  | scalar v => rw [Captured.fill, Value.fill_id]
  | object typeName fields => rw [Captured.fill, Captured.fillFields_id fields]

theorem Captured.fillFields_id (fields : List (String × Captured)) :
    Captured.fillFields id fields = fields := by
  cases fields with
  | nil => rw [Captured.fillFields]
  | cons field rest =>
    obtain ⟨label, c⟩ := field
    rw [Captured.fillFields, Captured.fill_id c, Captured.fillFields_id rest]

end

mutual

theorem Expr.fill_id (e : Expr) : e.fill id = e := by
  cases e with
  | value v ty => rw [Expr.fill, Value.fill_id]
  | captured c ty => rw [Expr.fill, Captured.fill_id]
  | table m ty => rw [Expr.fill]
  | param name ty => rw [Expr.fill]
  | field target name ty => rw [Expr.fill, Expr.fill_id target]
  | binary op l r ty => rw [Expr.fill, Expr.fill_id l, Expr.fill_id r]
  | method target name args ty => rw [Expr.fill, Expr.fill_id target, Expr.fillAll_id args]
  | operator name args ty => rw [Expr.fill, Expr.fillAll_id args]
  | lambda params body ty => rw [Expr.fill, Expr.fill_id body]
  | quote inner ty => rw [Expr.fill, Expr.fill_id inner]
  | object shape members ty => rw [Expr.fill, Expr.fillMembers_id members]

theorem Expr.fillAll_id (es : List Expr) : Expr.fillAll id es = es := by
  cases es with
  | nil => rw [Expr.fillAll]
  | cons e rest => rw [Expr.fillAll, Expr.fill_id e, Expr.fillAll_id rest]

theorem Expr.fillMembers_id (members : List (String × Expr)) : Expr.fillMembers id members = members := by
  cases members with
  | nil => rw [Expr.fillMembers]
  | cons member rest =>
    obtain ⟨label, e⟩ := member
    rw [Expr.fillMembers, Expr.fill_id e, Expr.fillMembers_id rest]

end

/-! ## What filling keeps -/

@[simp] theorem Value.scalarType_fill (σ : String → String) (v : Value) :
    (v.fill σ).scalarType = v.scalarType := by
  cases v <;> rfl

@[simp] theorem Captured.typeName_fill (σ : String → String) (c : Captured) :
    (c.fill σ).typeName = c.typeName := by
  cases c <;> simp [Captured.fill, Captured.typeName]

@[simp] theorem Expr.ty_fill (σ : String → String) (e : Expr) : (e.fill σ).ty = e.ty := by
  cases e <;> simp [Expr.fill, Expr.ty]

@[simp] theorem Expr.kindName_fill (σ : String → String) (e : Expr) : (e.fill σ).kindName = e.kindName := by
  cases e <;> simp [Expr.fill, Expr.kindName]

theorem Expr.isRowDerived_fill (σ : String → String) (e : Expr) :
    (e.fill σ).isRowDerived = e.isRowDerived := by
  cases e with
  | field target name ty =>
    rw [Expr.fill, Expr.isRowDerived, Expr.isRowDerived, Expr.isRowDerived_fill σ target]
  | binary op l r ty =>
    rw [Expr.fill, Expr.isRowDerived, Expr.isRowDerived, Expr.isRowDerived_fill σ l,
      Expr.isRowDerived_fill σ r]
  | method target name args ty =>
    rw [Expr.fill, Expr.isRowDerived, Expr.isRowDerived, Expr.isRowDerived_fill σ target]
  | operator name args ty =>
    cases args with
    | nil => rw [Expr.fill, Expr.fillAll]
    | cons source rest =>
      rw [Expr.fill, Expr.fillAll, Expr.isRowDerived, Expr.isRowDerived, Expr.isRowDerived_fill σ source]
  | _ => simp [Expr.fill, Expr.isRowDerived]

theorem Expr.unquote_fill (σ : String → String) (e : Expr) : (e.fill σ).unquote = e.unquote.fill σ := by
  cases e with
  | quote inner ty => rw [Expr.fill, Expr.unquote, Expr.unquote, Expr.unquote_fill σ inner]
  | _ => simp [Expr.fill, Expr.unquote]

/-! ## Pieces -/

/-- A piece of an SQL text: a fixed text, or the literal of a text constant, with or without wildcards. -/
inductive Piece where
  | fixed (text : String)
  | quoted (before : Bool) (constant : String) (after : Bool)

namespace Piece

/-- A wildcard of `LIKE`, or nothing. -/
def wildcard (present : Bool) : String :=
  if present then "%" else ""

/-- The text of a piece, given the texts of the constants. -/
def text (σ : String → String) : Piece → String
  | .fixed s => s
  | .quoted before constant after => quoteText (wildcard before ++ σ constant ++ wildcard after)

/-- The text of pieces one after another. -/
def spell (σ : String → String) (ps : List Piece) : String :=
  String.join (ps.map (·.text σ))

/-- A piece that quotes no other constants than these. -/
def IsOver (texts : List String) : Piece → Prop
  | .fixed _ => True
  | .quoted _ constant _ => constant ∈ texts

theorem spell_append (σ : String → String) (ps qs : List Piece) :
    spell σ (ps ++ qs) = spell σ ps ++ spell σ qs := by
  simp [spell, String.join_append]

end Piece

/-! ## Worlds -/

/-- A way to lower a tree. -/
inductive World where
  /-- The tree itself, over a host that refuses the constants. -/
  | refused
  /-- The tree with other texts, over the host of the model. -/
  | filled (σ : String → String)

/-- The text of a constant. -/
def World.text : World → String → String
  | .refused => id
  | .filled σ => σ

/-- The host of the model, except that it fails with `f` on these texts. -/
def Host.refusing (texts : List String) (f : Fault) : Host where
  length s := if s ∈ texts then .error f else Host.standard.length s
  invoke v name args :=
    if (v :: args).any (·.isTextOf texts) then .error f else Host.standard.invoke v name args

theorem Host.agreesOff_refusing (texts : List String) (f : Fault) :
    (Host.refusing texts f).AgreesOff texts := by
  constructor
  · intro s hs
    simp only [Host.refusing, hs, if_false]
  · intro v name args hargs
    simp only [Host.refusing, hargs, Bool.false_eq_true, if_false]

/-- The host of a world. -/
def World.host (texts : List String) (f : Fault) : World → Host
  | .refused => Host.refusing texts f
  | .filled _ => Host.standard

/-! ## Spelled families -/

section Spelled

variable {K : List String}

/-- A family of texts with the same pieces. -/
def Spelled (K : List String) (f : World → String) : Prop :=
  ∃ ps : List Piece, (∀ p ∈ ps, p.IsOver K) ∧ ∀ w, f w = Piece.spell w.text ps

theorem spelled_fixed (s : String) : Spelled K fun _ => s :=
  ⟨[.fixed s], by simp [Piece.IsOver], fun _ => by simp [Piece.spell, Piece.text]⟩

theorem spelled_quoted {s : String} (h : s ∈ K) (before after : Bool) :
    Spelled K fun w => quoteText (Piece.wildcard before ++ w.text s ++ Piece.wildcard after) :=
  ⟨[.quoted before s after], by simpa [Piece.IsOver] using h,
    fun _ => by simp [Piece.spell, Piece.text]⟩

theorem Spelled.append {f g : World → String} (hf : Spelled K f) (hg : Spelled K g) :
    Spelled K fun w => f w ++ g w := by
  obtain ⟨ps, hps, hf⟩ := hf
  obtain ⟨qs, hqs, hg⟩ := hg
  refine ⟨ps ++ qs, ?_, fun w => by simp only [hf, hg, Piece.spell_append]⟩
  intro p hp
  rcases List.mem_append.1 hp with hp | hp
  · exact hps p hp
  · exact hqs p hp

theorem Spelled.congr {f g : World → String} (h : Spelled K f) (hfg : ∀ w, g w = f w) : Spelled K g := by
  obtain ⟨ps, hps, hf⟩ := h
  exact ⟨ps, hps, fun w => by rw [hfg, hf]⟩

end Spelled

/-! ## Families of lists -/

section Families

variable {α β : Type}

/-- A family of lists of one length, with the same property at every place. -/
def Lists (P : (World → α) → Prop) (ls : World → List α) : Prop :=
  ∃ fs : List (World → α), (∀ f ∈ fs, P f) ∧ ∀ w, ls w = fs.map (· w)

variable {P : (World → α) → Prop} {Q : (World → β) → Prop} {ls ms : World → List α}

theorem lists_nil : Lists P fun _ => [] :=
  ⟨[], by simp, fun _ => rfl⟩

theorem Lists.cons {f : World → α} (hf : P f) (h : Lists P ls) : Lists P fun w => f w :: ls w := by
  obtain ⟨fs, hfs, hls⟩ := h
  refine ⟨f :: fs, ?_, fun w => by simp only [hls, List.map_cons]⟩
  intro g hg
  rcases List.mem_cons.1 hg with rfl | hg
  · exact hf
  · exact hfs g hg

theorem lists_singleton {f : World → α} (hf : P f) : Lists P fun w => [f w] :=
  lists_nil.cons hf

theorem Lists.append (h : Lists P ls) (h' : Lists P ms) : Lists P fun w => ls w ++ ms w := by
  obtain ⟨fs, hfs, hls⟩ := h
  obtain ⟨gs, hgs, hms⟩ := h'
  refine ⟨fs ++ gs, ?_, fun w => by simp only [hls, hms, List.map_append]⟩
  intro f hf
  rcases List.mem_append.1 hf with hf | hf
  · exact hfs f hf
  · exact hgs f hf

theorem Lists.map (h : Lists P ls) {g : World → α → β} (hg : ∀ f, P f → Q fun w => g w (f w)) :
    Lists Q fun w => (ls w).map (g w) := by
  obtain ⟨fs, hfs, hls⟩ := h
  refine ⟨fs.map fun f w => g w (f w), ?_, fun w => by simp only [hls, List.map_map]; rfl⟩
  intro k hk
  obtain ⟨f, hf, rfl⟩ := List.mem_map.1 hk
  exact hg f (hfs f hf)

/-- The lists of a family are empty together, or have first members and rests that are families again. -/
theorem Lists.cases (h : Lists P ls) :
    (∀ w, ls w = []) ∨ ∃ f ms, P f ∧ Lists P ms ∧ ∀ w, ls w = f w :: ms w := by
  obtain ⟨fs, hfs, hls⟩ := h
  cases fs with
  | nil => exact Or.inl hls
  | cons f fs =>
    have hrest : Lists P fun w => fs.map fun g => g w :=
      ⟨fs, fun g hg => hfs g (List.mem_cons_of_mem _ hg), fun _ => rfl⟩
    exact Or.inr ⟨f, _, hfs f List.mem_cons_self, hrest, fun w => by rw [hls, List.map_cons]⟩

/-- The lists of a family have one length. -/
theorem Lists.length_eq (h : Lists P ls) : ∃ n, ∀ w, (ls w).length = n := by
  obtain ⟨fs, -, hls⟩ := h
  exact ⟨fs.length, fun w => by rw [hls, List.length_map]⟩

/-- The members of a family at a place are a family. -/
theorem Lists.getElem? (h : Lists P ls) (i : Nat) :
    (∀ w, (ls w)[i]? = none) ∨ ∃ f, P f ∧ ∀ w, (ls w)[i]? = some (f w) := by
  obtain ⟨fs, hfs, hls⟩ := h
  cases hi : fs[i]? with
  | none => exact Or.inl fun w => by rw [hls, List.getElem?_map, hi]; rfl
  | some f =>
    exact Or.inr ⟨f, hfs f (List.mem_of_getElem? hi), fun w => by rw [hls, List.getElem?_map, hi]; rfl⟩

/-- The last members of a family are a family. -/
theorem Lists.getLast? (h : Lists P ls) :
    (∀ w, (ls w).getLast? = none) ∨ ∃ f, P f ∧ ∀ w, (ls w).getLast? = some (f w) := by
  obtain ⟨n, hn⟩ := h.length_eq
  have hlast : ∀ w, (ls w).getLast? = (ls w)[n - 1]? := fun w => by rw [List.getLast?_eq_getElem?, hn]
  simpa only [hlast] using h.getElem? (n - 1)

end Families

theorem spelled_intercalate_map {K : List String} (separator : String) {fs : List (World → String)}
    (h : ∀ f ∈ fs, Spelled K f) : Spelled K fun w => separator.intercalate (fs.map fun f => f w) := by
  induction fs with
  | nil => exact spelled_fixed ""
  | cons f fs ih =>
    have hf := h f List.mem_cons_self
    cases fs with
    | nil => exact hf.congr fun w => by simp
    | cons g fs =>
      have hrest := ih fun k hk => h k (List.mem_cons_of_mem _ hk)
      refine ((hf.append (spelled_fixed separator)).append hrest).congr fun w => ?_
      simp only [List.map_cons, String.intercalate_cons_cons]

/-- Spelled texts with separators between them are spelled. -/
theorem spelled_intercalate {K : List String} (separator : String) {ls : World → List String}
    (h : Lists (Spelled K) ls) : Spelled K fun w => separator.intercalate (ls w) := by
  obtain ⟨fs, hfs, hls⟩ := h
  exact (spelled_intercalate_map separator hfs).congr fun w => by rw [hls]

end QueryChain
