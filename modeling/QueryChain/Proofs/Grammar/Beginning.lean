import QueryChain.Proofs.Grammar.Ends

/-!
# How an expression begins

An argument may be a function and a member of a new object may give a name, and both are tried before an expression
is. The beginning of an expression tells it from them: after its first name stands neither an arrow nor a single
equals sign, and what it has in parentheses are no parameters before an arrow.

* `Derives.begins`: an expression begins with a name, with a parenthesis, or with what begins neither.
* `Begins.misses_lambda`: no function is read off an expression.
* `Begins.misses_assignment`: no name with an equals sign is read off one.
-/

namespace QueryChain.Grammar

open Reader Calendar Text

/-! ## Beginnings -/

/-- After a name stands what ends the expression, or what goes on with it: neither a list nor an arrow does. -/
def GoesOn (rest after : List Char) : Prop :=
  after.dropWhile isSpace = rest.dropWhile isSpace ∨
    ∃ c more, after.dropWhile isSpace = c :: more ∧ c ≠ ')' ∧ c ≠ ',' ∧ (c = '=' → ∃ more', more = '=' :: more')

/-- The beginning of an expression that ends before `rest`, blanks in front left out. -/
inductive Begins (rest : List Char) : List Char → Prop where
  | word {s : String} {after : List Char} :
    IsName s → NoName after → GoesOn rest after → Begins rest (s.toList ++ after)
  | opening {t : Syntax} {cs after : List Char} :
    Derives 1 t cs → EndsAt 7 after → Begins rest ('(' :: (cs ++ ')' :: after))
  | other {c : Char} {more : List Char} :
    startsName c = false → isBlank c = false → c ≠ '(' → c ≠ '=' → Begins rest (c :: more)

theorem GoesOn.trans {rest mid after : List Char} (h : GoesOn mid after) (hmid : GoesOn rest mid) :
    GoesOn rest after := by
  rcases h with h | h
  · rwa [GoesOn, h]
  · exact .inr h

theorem Begins.trans {rest mid text : List Char} (h : Begins mid text) (hmid : GoesOn rest mid) : Begins rest text := by
  cases h with
  | word hs hafter hgoes => exact .word hs hafter (hgoes.trans hmid)
  | opening hcs hafter => exact .opening hcs hafter
  | other hc hblank hopen hequals => exact .other hc hblank hopen hequals

/-- The beginning has no blanks in front. -/
theorem Begins.dropWhile_eq {rest text : List Char} (h : Begins rest text) : text.dropWhile isSpace = text := by
  cases h with
  | @word s after hs =>
    obtain ⟨c, more, hc, hstart, -⟩ := hs
    rw [hc, List.cons_append]
    have hblank : isBlank c = false := isBlank_of_continuesName (continuesName_of_startsName hstart)
    exact dropWhile_isSpace_cons (isSpace_of_not_isBlank hblank) _
  | opening => exact dropWhile_isSpace_cons rfl _
  | other _ hblank => exact dropWhile_isSpace_cons (isSpace_of_not_isBlank hblank) _

theorem goesOn_of_first {rest after : List Char} {c : Char} {more : List Char}
    (hafter : after.dropWhile isSpace = c :: more) (hclosing : c ≠ ')') (hcomma : c ≠ ',') (hequals : c ≠ '=') :
    GoesOn rest after :=
  .inr ⟨c, more, hafter, hclosing, hcomma, fun h => absurd h hequals⟩

/-- A member goes on with an expression. -/
theorem DerivesMemberName.goesOn {field : String} {cs : List Char} (h : DerivesMemberName field cs)
    (rest mid : List Char) : GoesOn rest (cs ++ mid) := by
  obtain ⟨ds, -, heq⟩ := h.dropWhile_append mid
  exact goesOn_of_first heq (by decide) (by decide) (by decide)

/-- An operator goes on with an expression. -/
theorem goesOn_spaced_operator {o : BinaryOp} {cs : List Char} (h : Spaced o.token.toList cs)
    (rest mid : List Char) : GoesOn rest (cs ++ mid) := by
  obtain ⟨gap, -, heq⟩ := h.dropWhile_append (not_isSpace_token o) (token_ne_nil o) mid
  right
  cases o <;> exact ⟨_, _, heq, by decide, by decide, by rintro ⟨⟩ <;> exact ⟨_, rfl⟩⟩

/-! ## Expressions begin so -/

theorem Spaced.length_le {core cs : List Char} (h : Spaced core cs) : core.length ≤ cs.length := by
  obtain ⟨gap, gap', -, -, rfl⟩ := h
  simp only [List.length_append]
  omega

theorem DerivesMemberName.length_pos {field : String} {cs : List Char} (h : DerivesMemberName field cs) :
    0 < cs.length := by
  obtain ⟨-, gap, ds, -, -, rfl⟩ := h
  simp

theorem length_pos_of_spaced_operator {o : BinaryOp} {cs : List Char} (h : Spaced o.token.toList cs) :
    0 < cs.length :=
  (List.length_pos_iff.2 (token_ne_nil o)).trans_le h.length_le

theorem noName_gap_append {gap rest : List Char} (hgap : IsGap gap) (hrest : NoName rest) : NoName (gap ++ rest) := by
  cases gap with
  | nil => exact hrest
  | cons c gap =>
    rintro d more ⟨⟩
    exact not_continuesName_of_isSpace (hgap c List.mem_cons_self)

theorem noName_cons {c : Char} (hc : continuesName c = false) (more : List Char) : NoName (c :: more) := by
  rintro d ds ⟨⟩
  exact hc

theorem isName_of_word {s : String} (h : s = "null" ∨ s = "true" ∨ s = "false" ∨ s = "new" ∨ s = "date") :
    IsName s := by
  have hall : ∀ s ∈ ["null", "true", "false", "new", "date"], (s.toList.head?.any startsName) = true ∧
      s.toList.tail.all continuesName = true := by decide +kernel
  have hs : s ∈ ["null", "true", "false", "new", "date"] := by simpa using h
  obtain ⟨hfirst, hmore⟩ := hall s hs
  cases hcs : s.toList with
  | nil => rw [hcs] at hfirst; cases hfirst
  | cons c more =>
    rw [hcs] at hfirst hmore
    exact ⟨c, more, hcs, by simpa using hfirst, by simpa using hmore⟩

theorem IsNumeral.first {v : Value} {cs : List Char} (h : IsNumeral v cs) :
    ∃ c more, cs = c :: more ∧ (c = '-' ∨ c.isDigit = true) := by
  have hfirst : ∀ (negative : Bool) (ds tail : List Char), (ds ≠ [] ∧ ∀ d ∈ ds, d.isDigit = true) →
      ∃ c more, (if negative then ['-'] else []) ++ ds ++ tail = c :: more ∧ (c = '-' ∨ c.isDigit = true) := by
    rintro (_ | _) ds tail ⟨hne, hds⟩
    · cases ds with
      | nil => exact absurd rfl hne
      | cons d ds => exact ⟨d, ds ++ tail, rfl, .inr (hds d List.mem_cons_self)⟩
    · exact ⟨'-', ds ++ tail, rfl, .inl rfl⟩
  obtain ⟨negative, ds, hds, ⟨rfl, -⟩ | ⟨places, -, rfl, -⟩⟩ := h
  · simpa using hfirst negative ds [] hds
  · exact hfirst negative ds ('.' :: places) hds

theorem DerivesArguments.dropWhile_append {args : List Syntax} {cs : List Char} (h : DerivesArguments args cs)
    (rest : List Char) : ∃ more, (cs ++ rest).dropWhile isSpace = '(' :: more := by
  cases h with
  | listed hgap =>
    rw [List.append_assoc, hgap.dropWhile_append]
    exact ⟨_, rfl⟩

/-- What stands after a name in its place does not go on with it. -/
theorem noName_of_dropWhile {after : List Char} {c : Char} {more : List Char}
    (h : after.dropWhile isSpace = c :: more) (hc : continuesName c = false) : NoName after := by
  rintro d ds rfl
  cases hd : isSpace d with
  | true => exact not_continuesName_of_isSpace hd
  | false =>
    rw [dropWhile_isSpace_cons hd] at h
    cases h
    exact hc

/-- A word before what goes on with an operand. -/
theorem begins_word {s : String} (hs : IsName s) {rest after : List Char} {c : Char} {more : List Char}
    (h : after.dropWhile isSpace = c :: more) (hc : c = '(' ∨ c = '\x7b' ∨ c = '\'') :
    Begins rest (s.toList ++ after) := by
  have hmark : continuesName c = false ∧ c ≠ ')' ∧ c ≠ ',' ∧ c ≠ '=' := by
    rcases hc with rfl | rfl | rfl <;> decide +kernel
  exact .word hs (noName_of_dropWhile h hmark.1) (goesOn_of_first h hmark.2.1 hmark.2.2.1 hmark.2.2.2)

theorem begins_digit {rest : List Char} {c : Char} (hc : c = '-' ∨ c.isDigit = true) (more : List Char) :
    Begins rest (c :: more) := by
  rcases hc with rfl | hc
  · exact .other (by decide +kernel) rfl (by decide) (by decide)
  · have hname : startsName c = false := by
      cases hs : startsName c with
      | false => rfl
      | true => rw [isDigit_of_startsName hs] at hc; cases hc
    exact .other hname (isBlank_of_isDigit hc) (by rintro rfl; cases hc) (by rintro rfl; cases hc)

theorem DerivesAtom.begins {t : Syntax} {core rest : List Char} (h : DerivesAtom t core) (hrest : EndsAt 7 rest) :
    Begins rest (core ++ rest) := by
  have hword : ∀ {s : String}, IsName s → Begins rest (s.toList ++ rest) := fun hs => .word hs hrest.noName (.inl rfl)
  cases h with
  | null => exact hword (isName_of_word (by simp))
  | @bool b => cases b <;> exact hword (isName_of_word (by simp))
  | number hv =>
    obtain ⟨c, more, rfl, hc⟩ := hv.first
    exact begins_digit hc _
  | text hs => rcases hs with rfl | ⟨-, rfl⟩ <;> exact .other (by decide +kernel) rfl (by decide) (by decide)
  | @date _ s gap hgap =>
    have hafter : ((gap ++ Token.chars (.text s)) ++ rest).dropWhile isSpace = Token.chars (.text s) ++ rest := by
      rw [List.append_assoc, hgap.dropWhile_append]
      rfl
    rw [List.append_assoc]
    exact begins_word (isName_of_word (by simp)) hafter (.inr (.inr rfl))
  | name hs => exact hword hs.1
  | freeCall hs hargs =>
    obtain ⟨more, hafter⟩ := hargs.dropWhile_append rest
    rw [List.append_assoc]
    exact begins_word hs.1 hafter (.inl rfl)
  | @object _ ds cs gap hds =>
    obtain ⟨gap', -, hafter⟩ := hds.dropWhile_append (by rintro c more ⟨⟩; rfl) (by decide)
      (cs ++ (gap ++ ['\x7d']) ++ rest)
    rw [List.append_assoc, List.append_assoc]
    exact begins_word (isName_of_word (by simp)) hafter (.inr (.inl rfl))
  | @enclosed _ cs hcs =>
    rw [List.cons_append, List.append_assoc]
    exact .opening hcs hrest

/-- An expression begins with the operand that it has first. -/
theorem Derives.begins {n : Nat} {t : Syntax} {cs rest : List Char} (h : Derives n t cs) (hrest : EndsAt 7 rest) :
    Begins rest ((cs ++ rest).dropWhile isSpace) := by
  cases h with
  | atom hatom hspaced =>
    obtain ⟨gap, gap', hgap, hgap', rfl⟩ := hspaced
    have hbegins := hatom.begins (hrest.gap_append hgap')
    rw [List.append_assoc, hgap.dropWhile_append, List.append_assoc, hbegins.dropWhile_eq]
    exact hbegins.trans (.inl (hgap'.dropWhile_append rest))
  | @member _ _ _ cs ds htarget hfield =>
    have hlt := hfield.length_pos
    rw [List.append_assoc]
    exact (htarget.begins (hfield.endsAt rest)).trans (hfield.goesOn rest rest)
  | @call _ _ _ _ cs ds es gap htarget hmethod =>
    have hlt := hmethod.length_pos
    rw [List.append_assoc, List.append_assoc]
    exact (htarget.begins (hmethod.endsAt _)).trans (hmethod.goesOn rest _)
  | @binary _ op _ _ cs ds es _ hleft hop =>
    have hlt := length_pos_of_spaced_operator hop
    have hlevel := op.level_le
    rw [List.append_assoc, List.append_assoc]
    exact (hleft.begins (endsAt_spaced_operator (by omega) hop _)).trans (goesOn_spaced_operator hop rest _)
termination_by cs.length
decreasing_by all_goals simp only [List.length_append]; omega

/-- No expression begins with an equals sign. -/
theorem Derives.first_ne_equals {n : Nat} {t : Syntax} {cs rest : List Char} (h : Derives n t cs)
    (hrest : EndsAt 7 rest) : ∀ more, cs ++ rest ≠ '=' :: more := by
  intro more heq
  have hbegins := h.begins hrest
  rw [heq, dropWhile_isSpace_cons rfl] at hbegins
  generalize htext : '=' :: more = text at hbegins
  cases hbegins with
  | word hs =>
    obtain ⟨c, ds, hc, hstart, -⟩ := hs
    rw [hc] at htext
    cases htext
    exact absurd hstart (by decide +kernel)
  | opening => cases htext
  | other _ _ _ hequals =>
    cases htext
    exact hequals rfl

/-! ## What is not read off an expression -/

theorem misses_word_arrow {cs : List Char} (h : ∀ more, cs = '=' :: more → ∃ more', more = '=' :: more') :
    Misses (word "=>") cs := by
  cases cs with
  | nil => exact ⟨_, _, rfl⟩
  | cons c more =>
    by_cases hc : c = '='
    · subst hc
      obtain ⟨more', rfl⟩ := h more rfl
      exact ⟨_, _, rfl⟩
    · refine ⟨c :: more, .tag, ?_⟩
      rw [word, show "=>".toList = ['=', '>'] from rfl, dropWord, if_neg (Ne.symm hc)]

theorem misses_char_cons {c d : Char} (h : d ≠ c) (more : List Char) : Misses (char c) (d :: more) :=
  ⟨d :: more, .char, by rw [Reader.char, if_neg h]⟩

theorem Misses.spaced {α : Type} {p : Reader α} {s : List Char} (h : Misses p (s.dropWhile isSpace)) :
    Misses (spaced p) s := by
  obtain ⟨rest, e, h⟩ := h
  exact ⟨rest, e, spaced_of_miss h⟩

/-- A reader after another misses where that leaves the text. -/
theorem misses_bind_of_read {α β : Type} {p : Reader α} {f : α → Reader β} {s rest : List Char} {a : α}
    (hp : p s = .read a rest) (hf : Misses (f a) rest) : Misses (p >>= f) s := by
  obtain ⟨after, e, hf⟩ := hf
  exact ⟨after, e, by rw [bind_of_read hp, hf]⟩

theorem misses_identifier_cons {c : Char} (hc : startsName c = false) (more : List Char) :
    Misses identifier (c :: more) := by
  have hfirst : ∀ d ds, c :: more = d :: ds → startsName d = false := by
    rintro d ds ⟨⟩
    exact hc
  obtain ⟨rest, h⟩ := identifier_of_not_startsName hfirst
  exact ⟨rest, .satisfy, h⟩

section Begins

variable {rest after s : List Char}

/-- After the first name of an expression an equals sign stands only as a part of an operator. -/
theorem GoesOn.equals (h : GoesOn rest after) {n : Nat} (hrest : EndsAt n rest) :
    ∀ more, after.dropWhile isSpace = '=' :: more → ∃ more', more = '=' :: more' := by
  intro more hmore
  rcases h with h | ⟨c, ds, hc, -, -, hequals⟩
  · exact hrest.equals (h ▸ hmore)
  · rw [hc] at hmore
    cases hmore
    exact hequals rfl

/-- One name in parentheses is read for a parameter, and nothing else that is derived. -/
theorem Derives.parameterList {t : Syntax} {cs : List Char} (h : Derives 1 t cs) (after : List Char) :
    Misses (do let ps ← separated1 comma (spaced identifier); char ')'; pure ps) (cs ++ ')' :: after) ∨
      ∃ s, (do let ps ← separated1 comma (spaced identifier); char ')'; pure ps) (cs ++ ')' :: after) =
        .read [s] after := by
  have hclosing : EndsAt 7 (')' :: after) := .closing (.inl rfl)
  have hnone : Misses identifier ((cs ++ ')' :: after).dropWhile isSpace) →
      Misses (do let ps ← separated1 comma (spaced identifier); char ')'; pure ps) (cs ++ ')' :: after) := by
    intro hmiss
    obtain ⟨mid, e, hitem⟩ := hmiss.spaced
    exact Misses.bind ⟨mid, e, by rw [separated1, hitem]⟩
  have hbegins := h.begins hclosing
  generalize htext : (cs ++ ')' :: after).dropWhile isSpace = text at hbegins hnone
  cases hbegins with
  | opening => exact .inl (hnone (misses_identifier_cons (by decide +kernel) _))
  | other hc => exact .inl (hnone (misses_identifier_cons hc _))
  | @word s behind hs hbehind hgoes =>
    have hname : spaced identifier (cs ++ ')' :: after) = .read s (behind.dropWhile isSpace) :=
      spaced_of_read (by rw [htext]; exact identifier_append hs hbehind)
    -- No comma follows the name, so it is the whole list.
    have hlist : separated1 comma (spaced identifier) (cs ++ ')' :: after) =
        .read [s] (behind.dropWhile isSpace) := by
      have hcomma : Misses comma (behind.dropWhile isSpace) := by
        apply Misses.spaced
        rw [dropWhile_isSpace_idem]
        rcases hgoes with heq | ⟨c, more, heq, -, hne, -⟩
        · rw [heq]
          exact misses_char_cons (by decide) _
        · rw [heq]
          exact misses_char_cons hne _
      obtain ⟨mid, e, hcomma⟩ := hcomma
      have hmore : moreUpTo comma (spaced identifier) (behind.dropWhile isSpace).length (behind.dropWhile isSpace) =
          .read [] (behind.dropWhile isSpace) := by
        cases hlength : (behind.dropWhile isSpace).length with
        | zero => rfl
        | succ fuel => rw [moreUpTo, hcomma]
      rw [separated1, hname]
      simp only [hmore]
    rcases hgoes with heq | ⟨c, more, heq, hne, -, -⟩
    · have hclose : char ')' (behind.dropWhile isSpace) = .read () after := by rw [heq]; rfl
      exact .inr ⟨s, by rw [bind_of_read hlist, bind_of_read hclose, pure_apply]⟩
    · rw [heq] at hlist
      exact .inl (misses_bind_of_read hlist (misses_char_cons hne more).bind)

/-- No function is read off an expression: no arrow stands after what may be its parameters. -/
theorem Begins.misses_lambda (h : Begins rest (s.dropWhile isSpace)) {n : Nat} (hrest : EndsAt n rest)
    (nested : Reader Syntax) : Misses (lambda nested) s := by
  have harrow : ∀ {ps : List String} {after : List Char}, parameters (s.dropWhile isSpace) = .read ps after →
      (∀ more, after.dropWhile isSpace = '=' :: more → ∃ more', more = '=' :: more') → Misses (lambda nested) s :=
    fun hps hafter => misses_bind_of_read (spaced_of_read hps) (misses_word_arrow hafter).bind
  have hnone : Misses parameters (s.dropWhile isSpace) → Misses (lambda nested) s := fun hps => hps.spaced.bind
  generalize s.dropWhile isSpace = text at h harrow hnone
  cases h with
  | @word p after hp hafter hgoes =>
    exact harrow (orElse_of_read (bind_of_read (identifier_append hp hafter))) (hgoes.equals hrest)
  | @opening t cs after hcs hafter =>
    have hident : Misses identifier ('(' :: (cs ++ ')' :: after)) := misses_identifier_cons (by decide +kernel) _
    have hopen : char '(' ('(' :: (cs ++ ')' :: after)) = .read () (cs ++ ')' :: after) := rfl
    rcases hcs.parameterList after with hmiss | ⟨p, hlist⟩
    · exact hnone (hident.bind.orElse (misses_bind_of_read hopen hmiss))
    · have hparameters : parameters ('(' :: (cs ++ ')' :: after)) = .read [p] after := by
        rw [parameters, hident.bind.orElse_eq, bind_of_read hopen, hlist]
      exact harrow hparameters fun _ => hafter.equals
  | other hc _ hopen =>
    exact hnone ((misses_identifier_cons hc _).bind.orElse (misses_char_cons hopen _).bind)

/-- No name with a single equals sign after it is read off an expression. -/
theorem Begins.misses_assignment (h : Begins rest (s.dropWhile isSpace)) {n : Nat} (hrest : EndsAt n rest)
    (nested : Reader Syntax) :
    Misses (do
      let name ← spaced identifier
      char '='
      absent (char '=')
      let value ← nested
      pure (name, value)) s := by
  generalize htext : s.dropWhile isSpace = text at h
  have hnone : Misses identifier text → Misses (spaced identifier) s := fun hmiss => (htext ▸ hmiss).spaced
  cases h with
  | opening => exact (hnone (misses_identifier_cons (by decide +kernel) _)).bind
  | other hc => exact (hnone (misses_identifier_cons hc _)).bind
  | @word name after hname hafter hgoes =>
    have hread : spaced identifier s = .read name (after.dropWhile isSpace) :=
      spaced_of_read (by rw [htext]; exact identifier_append hname hafter)
    have hequals := hgoes.equals hrest
    cases hdrop : after.dropWhile isSpace with
    | nil =>
      rw [hdrop] at hread
      exact misses_bind_of_read hread (Misses.bind ⟨_, _, rfl⟩)
    | cons c more =>
      rw [hdrop] at hread
      by_cases hc : c = '='
      · subst hc
        obtain ⟨more', rfl⟩ := hequals more hdrop
        have hfirst : char '=' ('=' :: '=' :: more') = .read () ('=' :: more') := rfl
        exact misses_bind_of_read hread (misses_bind_of_read hfirst (Misses.bind ⟨_, _, rfl⟩))
      · exact misses_bind_of_read hread (misses_char_cons hc more).bind

end Begins

end QueryChain.Grammar
