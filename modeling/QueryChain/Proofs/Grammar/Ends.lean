import QueryChain.Proofs.Grammar.Derivation

/-!
# Where an expression ends

The readers look past what they take before they leave it: whether a name goes on as a call, whether a point or an
operator follows. What ends an expression of a level is seen in the characters after the blanks, and where it stands
none of the readers goes on.

* `EndsAt`: what may stand after an expression of a level.
* `EndsAt.misses_link`, `EndsAt.misses_memberName`, `EndsAt.misses_arguments`: there nothing is read on.
* `endsAt_spaced_operator`, `DerivesMemberName.endsAt`: what goes on with an operand ends what stands before it.
-/

namespace QueryChain.Grammar

open Reader Calendar

/-! ## Blanks -/

theorem IsGap.dropWhile_append {gap : List Char} (h : IsGap gap) (rest : List Char) :
    (gap ++ rest).dropWhile isSpace = rest.dropWhile isSpace :=
  List.dropWhile_append_of_pos h

theorem dropWhile_isSpace_cons {c : Char} (hc : isSpace c = false) (more : List Char) :
    (c :: more).dropWhile isSpace = c :: more := by
  rw [List.dropWhile_cons, hc]
  rfl

theorem dropWhile_isSpace_idem (cs : List Char) :
    (cs.dropWhile isSpace).dropWhile isSpace = cs.dropWhile isSpace := by
  cases h : cs.dropWhile isSpace with
  | nil => rfl
  | cons c more =>
    have hc : isSpace c = false := by
      have hne : cs.dropWhile isSpace ≠ [] := by rw [h]; exact List.cons_ne_nil c more
      have hhead := List.head_dropWhile_not isSpace hne
      simpa [h] using hhead
    exact dropWhile_isSpace_cons hc more

/-- The blanks before and after a text are skipped with those around it. -/
theorem Spaced.dropWhile_append {core cs : List Char} (h : Spaced core cs)
    (hcore : ∀ c more, core = c :: more → isSpace c = false) (hne : core ≠ []) (rest : List Char) :
    ∃ gap, IsGap gap ∧ (cs ++ rest).dropWhile isSpace = core ++ (gap ++ rest) := by
  obtain ⟨gap, gap', hgap, hgap', rfl⟩ := h
  refine ⟨gap', hgap', ?_⟩
  cases core with
  | nil => exact absurd rfl hne
  | cons c more =>
    rw [List.append_assoc, hgap.dropWhile_append, List.append_assoc, List.cons_append,
      dropWhile_isSpace_cons (hcore c more rfl)]

/-! ## Ends -/

/-- What ends an expression of a level: nothing, what closes it, an operator that binds less tightly, or a point and
the name of a member after an operand. -/
inductive Ends (n : Nat) : List Char → Prop where
  | nil : Ends n []
  | closing {c : Char} {more : List Char} : c = ')' ∨ c = ',' ∨ c = '\x7d' → Ends n (c :: more)
  | op {o : BinaryOp} {more : List Char} : o.level < n → Ends n (o.token.toList ++ more)
  | point {gap more : List Char} {c : Char} : 6 < n → IsGap gap → startsName c = true →
    Ends n ('.' :: (gap ++ c :: more))

/-- An expression of a level ends here, but for blanks. -/
def EndsAt (n : Nat) (rest : List Char) : Prop :=
  Ends n (rest.dropWhile isSpace)

/-- The first characters of what ends an expression. -/
def endings : List Char :=
  [')', ',', '\x7d', '.', '|', '&', '=', '!', '<', '>', '+', '-', '*', '/']

theorem Ends.first_mem {n : Nat} {c : Char} {more : List Char} (h : Ends n (c :: more)) : c ∈ endings := by
  generalize hcs : c :: more = cs at h
  cases h with
  | nil => cases hcs
  | closing hc => cases hcs; rcases hc with rfl | rfl | rfl <;> decide
  | @op o => cases o <;> cases hcs <;> decide
  | point => cases hcs; decide

theorem not_of_mem_endings {c : Char} (h : c ∈ endings) :
    continuesName c = false ∧ c.isDigit = false ∧ c ≠ '\'' ∧ c ≠ '(' := by
  have hall : endings.all (fun c => !continuesName c && !c.isDigit && c != '\'' && c != '(') = true := by
    decide +kernel
  simpa [and_assoc] using List.all_eq_true.1 hall c h

namespace EndsAt

variable {m n : Nat} {rest : List Char}

theorem mono (h : EndsAt n rest) (hn : n ≤ m) : EndsAt m rest := by
  unfold EndsAt at h ⊢
  generalize rest.dropWhile isSpace = cs at h ⊢
  cases h with
  | nil => exact .nil
  | closing hc => exact .closing hc
  | op ho => exact .op (ho.trans_le hn)
  | point h6 hgap hc => exact .point (h6.trans_le hn) hgap hc

/-- Blanks in front change nothing. -/
theorem gap_append {gap : List Char} (hgap : IsGap gap) (h : EndsAt n rest) : EndsAt n (gap ++ rest) := by
  rwa [EndsAt, hgap.dropWhile_append]

theorem dropWhile (h : EndsAt n rest) : EndsAt n (rest.dropWhile isSpace) := by
  rwa [EndsAt, dropWhile_isSpace_idem]

theorem nil : EndsAt n [] := Ends.nil

/-- The first character is a blank or begins what ends an expression. -/
theorem first (h : EndsAt n rest) {P : Char → Prop} (hblank : ∀ c, isSpace c = true → P c)
    (hending : ∀ c ∈ endings, P c) : ∀ c more, rest = c :: more → P c := by
  rintro c more rfl
  cases hc : isSpace c with
  | true => exact hblank c hc
  | false =>
    rw [EndsAt, dropWhile_isSpace_cons hc] at h
    exact hending c h.first_mem

theorem first_dropWhile (h : EndsAt n rest) {c : Char} {more : List Char} (hc : rest.dropWhile isSpace = c :: more) :
    c ∈ endings := by
  rw [EndsAt, hc] at h
  exact h.first_mem

theorem isDigit_of_isSpace {c : Char} (hc : isSpace c = true) : c.isDigit = false := by
  simp only [isSpace, Bool.or_eq_true, decide_eq_true_eq] at hc
  rcases hc with ((rfl | rfl) | rfl) | rfl <;> rfl

theorem noName (h : EndsAt n rest) : NoName rest :=
  h.first (fun _ => not_continuesName_of_isSpace) fun _ hc => (not_of_mem_endings hc).1

theorem noNumber (h : EndsAt n rest) : NoNumber rest := by
  refine ⟨h.first (fun _ => isDigit_of_isSpace) fun _ hc => (not_of_mem_endings hc).2.1, ?_⟩
  rintro more rfl
  rw [EndsAt, dropWhile_isSpace_cons rfl] at h
  generalize hcs : '.' :: more = cs at h
  cases h with
  | nil => cases hcs
  | closing hc => cases hcs; rcases hc with hc | hc | hc <;> cases hc
  | @op o => cases o <;> cases hcs
  | @point gap after c _ hgap hc =>
    cases hcs
    cases gap with
    | nil => exact noDigit_cons (isDigit_of_startsName hc)
    | cons d gap => exact noDigit_cons (isDigit_of_isSpace (hgap d List.mem_cons_self))

theorem noQuote (h : EndsAt n rest) : NoQuote rest := by
  rintro more rfl
  exact h.first (P := (· ≠ '\'')) (by rintro c hc rfl; cases hc) (fun _ hc => (not_of_mem_endings hc).2.2.1) _ _ rfl rfl

theorem quoteAhead_eq_false (h : EndsAt n rest) : quoteAhead rest = false := by
  rw [quoteAhead]
  split
  · next more hmore => exact absurd rfl (not_of_mem_endings (h.first_dropWhile hmore)).2.2.1
  · rfl

/-- An equals sign is there only as a part of an operator. -/
theorem equals (h : EndsAt n rest) {more : List Char} (hmore : rest.dropWhile isSpace = '=' :: more) :
    ∃ more', more = '=' :: more' := by
  rw [EndsAt, hmore] at h
  generalize hcs : '=' :: more = cs at h
  cases h with
  | nil => cases hcs
  | closing hc => cases hcs; rcases hc with hc | hc | hc <;> cases hc
  | @op o after => cases o <;> cases hcs; exact ⟨after, rfl⟩
  | point => cases hcs

theorem misses_opening (h : EndsAt n rest) : Misses (char '(') (rest.dropWhile isSpace) := by
  cases hrest : rest.dropWhile isSpace with
  | nil => exact ⟨[], .char, rfl⟩
  | cons c more =>
    have hc := (not_of_mem_endings (h.first_dropWhile hrest)).2.2.2
    exact ⟨c :: more, .char, by simp [Reader.char, hc]⟩

/-- No arguments are read where an expression ends. -/
theorem misses_arguments (h : EndsAt n rest) (nested : Reader Syntax) : Misses (arguments nested) rest := by
  obtain ⟨after, e, hopen⟩ := h.misses_opening
  have hspaces : spaces rest = .read () (rest.dropWhile isSpace) := rfl
  exact ⟨after, e, by rw [arguments, bind_of_read hspaces]; exact bind_of_miss hopen⟩

/-- No member is read where an operand ends with its members. -/
theorem misses_memberName (h : EndsAt n rest) (hn : n ≤ 6) : Misses memberName rest := by
  have hspaces : spaces rest = .read () (rest.dropWhile isSpace) := rfl
  suffices hpoint : Misses (char '.') (rest.dropWhile isSpace) by
    obtain ⟨after, e, hpoint⟩ := hpoint
    exact ⟨after, e, by rw [memberName, bind_of_read hspaces]; exact bind_of_miss hpoint⟩
  unfold EndsAt at h
  generalize rest.dropWhile isSpace = cs at h ⊢
  cases h with
  | nil => exact ⟨_, _, rfl⟩
  | closing hc => rcases hc with rfl | rfl | rfl <;> exact ⟨_, _, rfl⟩
  | @op o => cases o <;> exact ⟨_, _, rfl⟩
  | point h6 => omega

/-- No operator of a level is read where an expression of the level ends. -/
theorem misses_operator (h : EndsAt n rest) (hm : 1 ≤ m) (hm' : m ≤ 5) (hn : n ≤ m) :
    Misses (spaced (levelOperator m)) rest := by
  suffices hop : Misses (levelOperator m) (rest.dropWhile isSpace) by
    obtain ⟨after, e, hop⟩ := hop
    exact ⟨after, e, spaced_of_miss hop⟩
  unfold EndsAt at h
  generalize rest.dropWhile isSpace = cs at h ⊢
  cases h with
  | nil => interval_cases m <;> exact ⟨_, _, rfl⟩
  | closing hc => rcases hc with rfl | rfl | rfl <;> interval_cases m <;> exact ⟨_, _, rfl⟩
  | @op o _ ho =>
    have hlt : o.level < m := ho.trans_le hn
    interval_cases m <;> cases o <;> first | (exact absurd hlt (by decide)) | exact ⟨_, _, rfl⟩
  | point h6 => omega

theorem misses_link (h : EndsAt n rest) (hm : 1 ≤ m) (hm' : m ≤ 5) (hn : n ≤ m) (operand : Reader Syntax) :
    Misses (link (levelOperator m) operand) rest :=
  (h.misses_operator hm hm' hn).bind

end EndsAt

/-- What may follow an expression as tokens ends it. -/
theorem Shows.endsAt {n : Nat} {ks : List Token} {rest : List Char} (h : Shows ks rest) (hks : Follow n ks) :
    EndsAt n rest := by
  rw [EndsAt]
  rw [Shows] at h
  generalize rest.dropWhile isSpace = cs at h ⊢
  cases ks with
  | nil =>
    rw [Spells] at h
    subst h
    exact .nil
  | cons k us =>
    obtain ⟨-, after, rfl, hafter, -⟩ := h.cons
    obtain ⟨hk, hpoint⟩ := hks k us rfl
    cases k with
    | name s => cases hk
    | int i => cases hk
    | text s => cases hk
    | op o => exact .op (of_decide_eq_true hk)
    | mark m =>
      cases m with
      | closing => exact .closing (.inl rfl)
      | comma => exact .closing (.inr (.inl rfl))
      | closeBrace => exact .closing (.inr (.inr rfl))
      | point =>
        obtain ⟨s, vs, rfl⟩ := hpoint rfl
        obtain ⟨⟨c, more, hc, hstart, -⟩, behind, heq, -⟩ := hafter.cons
        have hsplit := List.takeWhile_append_dropWhile (p := isSpace) (l := after)
        rw [← hsplit, heq, show Token.chars (.name s) = c :: more from hc]
        exact .point (of_decide_eq_true hk) (fun d hd => List.mem_takeWhile_imp hd) hstart
      | _ => cases hk

/-! ## What goes on with an operand -/

theorem not_isSpace_token (o : BinaryOp) : ∀ c more, o.token.toList = c :: more → isSpace c = false := by
  intro c more h
  cases o <;> cases h <;> rfl

theorem token_ne_nil (o : BinaryOp) : o.token.toList ≠ [] := by
  cases o <;> decide

/-- An operator ends what binds more tightly. -/
theorem endsAt_spaced_operator {o : BinaryOp} {n : Nat} (hn : o.level < n) {cs : List Char}
    (h : Spaced o.token.toList cs) (rest : List Char) : EndsAt n (cs ++ rest) := by
  obtain ⟨gap, -, heq⟩ := h.dropWhile_append (not_isSpace_token o) (token_ne_nil o) rest
  rw [EndsAt, heq]
  exact .op hn

theorem IsName.not_isSpace {s : String} (hs : IsName s) : ∀ c more, s.toList = c :: more → isSpace c = false :=
  fun _ _ h => isSpace_of_not_isBlank (isBlank_of_continuesName (continuesName_of_startsName (first_name hs h)))

theorem IsName.toList_ne_nil {s : String} (hs : IsName s) : s.toList ≠ [] := by
  obtain ⟨c, more, h, -⟩ := hs
  rw [h]
  exact List.cons_ne_nil c more

/-- A name with blanks around it is read where the text after it does not go on with it. -/
theorem spaced_identifier_append {s : String} (hs : IsName s) {cs : List Char} (h : Spaced s.toList cs)
    {rest : List Char} (hrest : NoName rest) {text : List Char}
    (htext : text.dropWhile isSpace = (cs ++ rest).dropWhile isSpace) :
    spaced identifier text = .read s (rest.dropWhile isSpace) := by
  obtain ⟨gap, hgap, heq⟩ := h.dropWhile_append hs.not_isSpace hs.toList_ne_nil rest
  have hafter : NoName (gap ++ rest) := by
    cases gap with
    | nil => exact hrest
    | cons c gap =>
      rintro d more ⟨⟩
      exact not_continuesName_of_isSpace (hgap c List.mem_cons_self)
  have hread : identifier (text.dropWhile isSpace) = .read s (gap ++ rest) := by
    rw [htext, heq]
    exact identifier_append hs hafter
  rw [spaced_of_read hread, hgap.dropWhile_append]

/-- A point and a name end an operand. -/
theorem DerivesMemberName.dropWhile_append {field : String} {cs : List Char} (h : DerivesMemberName field cs)
    (rest : List Char) : ∃ ds, Spaced field.toList ds ∧
      (cs ++ rest).dropWhile isSpace = '.' :: (ds ++ rest) := by
  obtain ⟨-, gap, ds, hgap, hds, rfl⟩ := h
  refine ⟨ds, hds, ?_⟩
  rw [List.append_assoc, hgap.dropWhile_append]
  rfl

theorem DerivesMemberName.endsAt {field : String} {cs : List Char} (h : DerivesMemberName field cs)
    (rest : List Char) : EndsAt 7 (cs ++ rest) := by
  obtain ⟨ds, ⟨gap, gap', hgap, hgap', rfl⟩, heq⟩ := h.dropWhile_append rest
  obtain ⟨c, more, hc, hstart, -⟩ := h.1
  have hpoint : Ends 7 ('.' :: (gap ++ c :: (more ++ (gap' ++ rest)))) := .point (by decide) hgap hstart
  rw [EndsAt, heq, hc]
  simpa using hpoint

end QueryChain.Grammar
