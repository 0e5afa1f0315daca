import Mathlib
import QueryChain.Proofs.Grammar.Trimmed

/-!
# Where a text is refused

A refused text is refused at a byte position. What a reader leaves is always an end of the text that it was given,
whether it read something, missed or halted and whatever it tried before, so the position is where the rest begins.
What stands in front of trailing content is derived, and so it is accepted alone: what the grammar has for a text does
not depend on what stands behind the text.

* `Leaves`: a reader leaves an end of its text.
* `Syntax.ofText_error`: the position splits the trimmed text, after an accepted part where content trails.
-/

namespace QueryChain

/-- The rest of the text where a reader ends. -/
def Outcome.rest {α : Type} : Outcome α → List Char
  | .read _ rest | .miss rest _ | .halt rest _ => rest

end QueryChain

namespace QueryChain.Grammar

open Reader Calendar Text

/-! ## What readers leave -/

/-- However the reader ends, what it leaves is an end of the text. -/
def Leaves {α : Type} (p : Reader α) : Prop :=
  ∀ s, (p s).rest <:+ s

section Leaves

variable {α β : Type} {p q : Reader α} {f : α → Reader β}

theorem leaves_pure (a : α) : Leaves (pure a) :=
  fun s => List.suffix_refl s

theorem Leaves.bind (hp : Leaves p) (hf : ∀ a, Leaves (f a)) : Leaves (p >>= f) := by
  intro s
  have hrest := hp s
  change (Reader.bind p f s).rest <:+ s
  rw [Reader.bind]
  split
  · next a mid hread =>
    rw [hread] at hrest
    exact (hf a mid).trans hrest
  · next hmiss => rwa [hmiss] at hrest
  · next hhalt => rwa [hhalt] at hrest

theorem Leaves.orElse (hp : Leaves p) (hq : Leaves q) : Leaves (p.orElse q) := by
  intro s
  rw [Reader.orElse]
  split
  · exact hq s
  · exact hp s

theorem Leaves.optional (hp : Leaves p) : Leaves p.optional := by
  intro s
  have hrest := hp s
  rw [Reader.optional]
  split
  · next hread => rwa [hread] at hrest
  · exact List.suffix_refl s
  · next hhalt => rwa [hhalt] at hrest

theorem Leaves.absent (hp : Leaves p) : Leaves p.absent := by
  intro s
  have hrest := hp s
  rw [Reader.absent]
  split
  · exact List.suffix_refl s
  · exact List.suffix_refl s
  · next hhalt => rwa [hhalt] at hrest

theorem Leaves.convert (hp : Leaves p) (g : α → Option β) : Leaves (p.convert g) := by
  intro s
  have hrest := hp s
  rw [Reader.convert]
  split
  · next hread =>
    rw [hread] at hrest
    split
    · exact hrest
    · exact List.suffix_refl s
  · next hmiss => rwa [hmiss] at hrest
  · next hhalt => rwa [hhalt] at hrest

/-! ### Characters -/

theorem leaves_satisfy (k : Char → Bool) : Leaves (satisfy k) := by
  intro s
  cases s with
  | nil => exact List.suffix_refl []
  | cons c s =>
    rw [satisfy]
    split
    · exact List.suffix_cons c s
    · exact List.suffix_refl _

theorem leaves_char (c : Char) : Leaves (char c) := by
  intro s
  cases s with
  | nil => exact List.suffix_refl []
  | cons d s =>
    rw [char]
    split
    · exact List.suffix_cons d s
    · exact List.suffix_refl _

theorem leaves_word (w : String) : Leaves (word w) := by
  intro s
  rw [word]
  split
  · next rest hrest => exact ⟨w.toList, (eq_append_of_dropWord hrest).symm⟩
  · exact List.suffix_refl s

theorem leaves_takeWhile (k : Char → Bool) : Leaves (takeWhile k) :=
  fun _ => List.dropWhile_suffix k

theorem leaves_spaces : Leaves spaces :=
  fun _ => List.dropWhile_suffix isSpace

theorem Leaves.spaced (hp : Leaves p) : Leaves (spaced p) :=
  leaves_spaces.bind fun _ => hp.bind fun a => leaves_spaces.bind fun _ => leaves_pure a

theorem leaves_digitRun : Leaves digitRun := by
  intro s
  rw [digitRun]
  split
  · exact List.suffix_refl s
  · exact List.dropWhile_suffix Char.isDigit

/-! ### Repetition -/

theorem Leaves.many (hp : Leaves p) : Leaves p.many := by
  suffices h : ∀ fuel, Leaves (p.manyUpTo fuel) from fun s => h s.length s
  intro fuel
  induction fuel with
  | zero =>
    intro s
    have hrest := hp s
    rw [manyUpTo]
    split
    · exact List.suffix_refl s
    · next hhalt => rwa [hhalt] at hrest
    · next hread =>
      rw [hread] at hrest
      split
      · exact hrest
      · exact List.suffix_refl s
  | succ fuel ih =>
    intro s
    have hrest := hp s
    rw [manyUpTo]
    split
    · exact List.suffix_refl s
    · next hhalt => rwa [hhalt] at hrest
    · next a mid hread =>
      rw [hread] at hrest
      have hmore := (ih mid).trans hrest
      split
      · simp only
        split
        · next hread => rwa [hread] at hmore
        · exact hmore
      · exact List.suffix_refl s

theorem leaves_moreUpTo {separator : Reader Unit} (hseparator : Leaves separator) (hp : Leaves p) (fuel : Nat) :
    Leaves (moreUpTo separator p fuel) := by
  induction fuel with
  | zero => exact List.suffix_refl
  | succ fuel ih =>
    intro s
    have hrest := hseparator s
    rw [moreUpTo]
    split
    · exact List.suffix_refl s
    · next hhalt => rwa [hhalt] at hrest
    · next mid hmid =>
      rw [hmid] at hrest
      split
      · have hitem := (hp mid).trans hrest
        split
        · exact List.suffix_refl s
        · next hhalt => rwa [hhalt] at hitem
        · next a after ha =>
          rw [ha] at hitem
          have hmore := (ih after).trans hitem
          split
          · next hread => rwa [hread] at hmore
          · exact hmore
      · exact hrest

theorem Leaves.separated {separator : Reader Unit} (hseparator : Leaves separator) (hp : Leaves p) :
    Leaves (Reader.separated1 separator p) ∧ Leaves (Reader.separated separator p) := by
  have hlist : Leaves (Reader.separated1 separator p) := by
    intro s
    have hrest := hp s
    rw [Reader.separated1]
    split
    · next a mid ha =>
      rw [ha] at hrest
      have hmore := (leaves_moreUpTo hseparator hp mid.length mid).trans hrest
      split
      · next hread => rwa [hread] at hmore
      · exact hmore
    · next hmiss => rwa [hmiss] at hrest
    · next hhalt => rwa [hhalt] at hrest
  refine ⟨hlist, fun s => ?_⟩
  rw [Reader.separated]
  split
  · exact List.suffix_refl s
  · exact hlist s

end Leaves

/-! ### Tokens -/

theorem leaves_identifier : Leaves identifier :=
  (leaves_satisfy _).bind fun _ => (leaves_takeWhile _).bind fun _ => leaves_pure _

theorem leaves_number : Leaves number := by
  refine (leaves_char '-').optional.bind fun minus => leaves_digitRun.bind fun ds => ?_
  refine ((leaves_char '.').bind fun _ => leaves_digitRun).optional.bind fun places => ?_
  cases places <;> exact leaves_pure _

theorem leaves_quoted : Leaves quoted := by
  have hchar : Leaves singleQuotedChar := by
    refine .orElse ((leaves_word _).bind fun _ => leaves_pure _) fun s => ?_
    cases s with
    | nil => exact List.suffix_refl []
    | cons c s =>
      simp only
      split
      · exact List.suffix_refl _
      · exact List.suffix_cons c s
  exact .orElse
    ((leaves_char _).bind fun _ => hchar.many.bind fun _ => (leaves_char _).bind fun _ => leaves_pure _)
    ((leaves_char _).bind fun _ => (leaves_takeWhile _).bind fun _ => (leaves_char _).bind fun _ => leaves_pure _)

/-! ### Expressions -/

theorem leaves_comma : Leaves comma :=
  (leaves_char ',').spaced

theorem leaves_operatorWord (o : BinaryOp) (w : String) : Leaves (operatorWord o w) :=
  (leaves_word w).bind fun _ => leaves_pure o

theorem leaves_operatorChar (o : BinaryOp) (c : Char) : Leaves (operatorChar o c) :=
  (leaves_char c).bind fun _ => leaves_pure o

section Levels

variable {operand : Reader Syntax} {operator : Reader BinaryOp}

theorem Leaves.link (hoperator : Leaves operator) (h : Leaves operand) : Leaves (link operator operand) :=
  hoperator.spaced.bind fun _ => h.bind fun _ => leaves_pure _

theorem Leaves.chainOf (hoperator : Leaves operator) (h : Leaves operand) : Leaves (chainOf operator operand) :=
  h.bind fun _ => (hoperator.link h).many.bind fun _ => leaves_pure _

theorem Leaves.disjunction (h : Leaves operand) : Leaves (disjunction operand) := by
  have hproduct : Leaves (product operand) :=
    ((leaves_operatorChar _ _).orElse (leaves_operatorChar _ _)).chainOf h
  have hsum : Leaves (sum operand) := ((leaves_operatorChar _ _).orElse (leaves_operatorChar _ _)).chainOf hproduct
  have hoperator : Leaves comparisonOperator :=
    (leaves_operatorWord _ _).orElse <| (leaves_operatorWord _ _).orElse <| (leaves_operatorWord _ _).orElse <|
      (leaves_operatorWord _ _).orElse <| (leaves_operatorChar _ _).orElse (leaves_operatorChar _ _)
  have hcomparison : Leaves (comparison operand) :=
    hsum.bind fun _ => (hoperator.link hsum).optional.bind fun _ => leaves_pure _
  exact (leaves_operatorWord _ _).chainOf ((leaves_operatorWord _ _).chainOf hcomparison)

end Levels

section Nested

variable {nested : Reader Syntax}

theorem Leaves.lambda (h : Leaves nested) : Leaves (lambda nested) := by
  have hparameters : Leaves parameters :=
    .orElse (leaves_identifier.bind fun _ => leaves_pure _) <| (leaves_char _).bind fun _ =>
      (Leaves.separated leaves_comma leaves_identifier.spaced).1.bind fun _ =>
        (leaves_char _).bind fun _ => leaves_pure _
  exact hparameters.spaced.bind fun _ => (leaves_word _).bind fun _ => h.bind fun _ => leaves_pure _

theorem Leaves.arguments (h : Leaves nested) : Leaves (arguments nested) :=
  leaves_spaces.bind fun _ => (leaves_char _).bind fun _ =>
    (Leaves.separated leaves_comma (h.lambda.orElse h)).2.bind fun _ =>
      (leaves_char _).spaced.bind fun _ => leaves_pure _

theorem Leaves.objectMembers (h : Leaves nested) : Leaves (objectMembers nested) := by
  have hmember : Leaves (objectMember nested) :=
    .orElse (leaves_identifier.spaced.bind fun _ => (leaves_char _).bind fun _ =>
      (leaves_char _).absent.bind fun _ => h.bind fun _ => leaves_pure _) (h.convert _)
  exact (leaves_char _).spaced.bind fun _ => (Leaves.separated leaves_comma hmember).2.bind fun _ =>
    (leaves_char _).spaced.bind fun _ => leaves_pure _

/-- A date that is none is refused from its word on. -/
theorem dateText_suffix {start s : List Char} (hs : s <:+ start) : (dateText start s).rest <:+ start := by
  have hspaces : spaces s = .read () (s.dropWhile isSpace) := rfl
  have hquoted := (leaves_quoted (s.dropWhile isSpace)).trans ((List.dropWhile_suffix isSpace).trans hs)
  rw [dateText, bind_of_read hspaces]
  change (Reader.bind quoted _ (s.dropWhile isSpace)).rest <:+ start
  rw [Reader.bind]
  split
  · next text mid hread =>
    rw [hread] at hquoted
    cases Moment.readLiteral text.toList with
    | none => exact List.suffix_refl start
    | some t => exact hquoted
  · next hmiss => rwa [hmiss] at hquoted
  · next hhalt => rwa [hhalt] at hquoted

theorem Leaves.wordOperand (h : Leaves nested) : Leaves (wordOperand nested) := by
  intro start
  have hrest := leaves_identifier start
  rw [Grammar.wordOperand]
  split
  · next hmiss => rwa [hmiss] at hrest
  · next hhalt => rwa [hhalt] at hrest
  · next name s hname =>
    rw [hname] at hrest
    split
    · exact hrest
    split
    · exact hrest
    split
    · exact hrest
    split
    · have hobject : Leaves (do let members ← Grammar.objectMembers nested; pure (Syntax.object members)) :=
        h.objectMembers.bind fun _ => leaves_pure _
      exact (hobject s).trans hrest
    split
    · exact dateText_suffix hrest
    · have hargs := (h.arguments s).trans hrest
      rw [callOrName]
      split
      · next hread => rwa [hread] at hargs
      · exact hrest

theorem Leaves.primary (h : Leaves nested) : Leaves (primary nested) :=
  Leaves.spaced <| .orElse (leaves_number.bind fun _ => leaves_pure _) <|
    .orElse (leaves_quoted.bind fun _ => leaves_pure _) <|
    .orElse ((leaves_char _).bind fun _ => h.bind fun _ => (leaves_char _).bind fun _ => leaves_pure _) h.wordOperand

theorem leaves_memberName : Leaves memberName :=
  leaves_spaces.bind fun _ => (leaves_char _).bind fun _ => leaves_identifier.spaced

theorem Leaves.membersFrom (h : Leaves nested) (fuel : Nat) (node : Syntax) :
    Leaves (membersFrom nested fuel node) := by
  induction fuel generalizing node with
  | zero => exact List.suffix_refl
  | succ fuel ih =>
    intro s
    have hrest := leaves_memberName s
    rw [Grammar.membersFrom]
    split
    · next name mid hname =>
      rw [hname] at hrest
      have hargs := (h.arguments mid).trans hrest
      split
      · next args after hread =>
        rw [hread] at hargs
        exact (ih _ after).trans hargs
      · exact (ih _ mid).trans hrest
    · exact List.suffix_refl s

theorem Leaves.operand (h : Leaves nested) : Leaves (operand nested) := by
  intro s
  have hrest := h.primary s
  rw [Grammar.operand]
  split
  · next node mid hread =>
    rw [hread] at hrest
    exact (h.membersFrom _ node mid).trans hrest
  · exact hrest

end Nested

/-- Whatever the depth, an expression is read, missed or refused with an end of the text left. -/
theorem leaves_expression (depth : Nat) : Leaves (expression depth) := by
  induction depth with
  | zero => exact List.suffix_refl
  | succ depth ih => exact ih.operand.disjunction

/-! ## Positions -/

theorem byteLength_append (front rest : List Char) :
    byteLength (front ++ rest) = byteLength front + byteLength rest := by
  induction front with
  | nil => rw [List.nil_append, byteLength, Nat.zero_add]
  | cons c front ih => rw [List.cons_append, byteLength, byteLength, ih, Nat.add_assoc]

theorem utf8ByteSize_ofList (cs : List Char) : (String.ofList cs).utf8ByteSize = byteLength cs := by
  induction cs with
  | nil => rfl
  | cons c cs ih =>
    rw [← List.singleton_append, String.ofList_append, String.utf8ByteSize_append, ih, List.singleton_append,
      byteLength]
    exact congrArg (· + byteLength cs) String.utf8ByteSize_singleton

/-- The position of an end of a text is where it begins. -/
theorem positionOf_append (front rest : List Char) : positionOf (front ++ rest) rest = byteLength front := by
  rw [positionOf, byteLength_append, Nat.add_sub_cancel]

end QueryChain.Grammar

namespace QueryChain

open Grammar

/-- Characters are refused where some rest of them begins. What stands in front of trailing content is derived. -/
theorem Syntax.ofChars_error {cs : List Char} {fault : Fault} (h : Syntax.ofChars cs = .error fault) :
    ∃ front rest cause, cs = front ++ rest ∧ fault = .parse (byteLength front) cause ∧
      ∀ content, cause = .trailing content → content = String.ofList rest ∧ rest ≠ [] ∧ ∃ t, Derives 1 t front := by
  have hleaves := leaves_expression (cs.length + 1) cs
  have hposition : ∀ {front rest : List Char}, front ++ rest = cs → positionOf cs rest = byteLength front := by
    rintro front rest rfl
    exact positionOf_append front rest
  rw [Syntax.ofChars] at h
  split at h
  · cases h
  · next tree rest hne hread =>
    cases h
    obtain ⟨front, hfront, hderives⟩ := consumes_expression _ cs tree rest hread
    refine ⟨front, rest, _, hfront, by rw [hposition hfront.symm], ?_⟩
    rintro content ⟨⟩
    exact ⟨rfl, hne, tree, hderives⟩
  · next rest e hmiss =>
    cases h
    obtain ⟨front, hfront⟩ : rest <:+ cs := by rwa [hmiss] at hleaves
    exact ⟨front, rest, .expected e.name, hfront.symm, by rw [hposition hfront], by rintro content ⟨⟩⟩
  · next rest e hhalt =>
    cases h
    obtain ⟨front, hfront⟩ : rest <:+ cs := by rwa [hhalt] at hleaves
    exact ⟨front, rest, .expected e.name, hfront.symm, by rw [hposition hfront], by rintro content ⟨⟩⟩

/-- A refused text is refused at a position of its trimmed characters that is the number of bytes in front of some
rest of them, so it lies on the boundary of a character and not behind the end. Where content trails, that rest is the
content, it is not empty, and what stands in front of it is accepted alone. -/
theorem Syntax.ofText_error {text : String} {fault : Fault} (h : Syntax.ofText text = .error fault) :
    ∃ position cause, fault = .parse position cause ∧
      position ≤ (String.ofList (Text.trim text.toList)).utf8ByteSize ∧
      ∃ front rest, String.ofList (Text.trim text.toList) = front ++ rest ∧ front.utf8ByteSize = position ∧
        ∀ content, cause = .trailing content →
          content = rest ∧ content ≠ "" ∧ ∃ t, Syntax.ofText front = .ok t := by
  obtain ⟨front, rest, cause, htrim, rfl, htrailing⟩ := Syntax.ofChars_error h
  refine ⟨byteLength front, cause, rfl, ?_, String.ofList front, String.ofList rest, ?_, utf8ByteSize_ofList front,
    fun content hcontent => ?_⟩
  · rw [utf8ByteSize_ofList, htrim, byteLength_append]
    exact Nat.le_add_right _ _
  · rw [htrim, String.ofList_append]
  · obtain ⟨rfl, hrest, t, hfront⟩ := htrailing content hcontent
    exact ⟨rfl, by simpa using hrest, t, Syntax.ofText_of_derives (by rwa [String.toList_ofList])⟩

theorem Syntax.ofText_error_accents :
    Syntax.ofText "  'é' ü " = .error (.parse 5 (.trailing "ü")) ∧
      ∃ position cause, Fault.parse 5 (.trailing "ü") = .parse position cause ∧
        position ≤ (String.ofList (Text.trim "  'é' ü ".toList)).utf8ByteSize ∧
        ∃ front rest, String.ofList (Text.trim "  'é' ü ".toList) = front ++ rest ∧ front.utf8ByteSize = position ∧
          ∀ content, cause = .trailing content →
            content = rest ∧ content ≠ "" ∧ ∃ t, Syntax.ofText front = .ok t := by
  have htext : Syntax.ofText "  'é' ü " = .error (.parse 5 (.trailing "ü")) := by cbv
  exact ⟨htext, Syntax.ofText_error htext⟩

end QueryChain
