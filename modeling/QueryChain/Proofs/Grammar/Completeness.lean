import QueryChain.Proofs.Grammar.Beginning

/-!
# What is derived is read

Every text that the grammar has for a tree is read as that tree, and read no further: `Settles p n a cs` says that the
reader `p` reads `a` off the characters `cs` wherever an expression of level `n` may end after them, whatever stands
behind. The induction is on the length of the text. A level of nesting takes at least a character, so the depth that
the grammar is read with serves for every text that is not longer.

* `Listed.separated`: lists are read item by item, up to what closes them.
* `DerivesAtom.bareOperand`, `Derives.reaches`: operands are read, and then their members and calls.
* `Derives.settles`: every level is read.
* `Syntax.ofText_eq_ok_iff`: a text is read as a tree exactly if the grammar has it for that tree.
-/

namespace QueryChain.Grammar

open Reader Calendar

/-! ## Settling -/

section Settles

variable {α : Type} {item : Reader α} {S : α → List Char → Prop}

/-- The reader reads a value off these characters wherever an expression of the level may end after them, with the
blanks around them. -/
def Settles (p : Reader α) (n : Nat) (a : α) (cs : List Char) : Prop :=
  ∀ s rest, EndsAt n rest → s.dropWhile isSpace = (cs ++ rest).dropWhile isSpace →
    p s = .read a (rest.dropWhile isSpace)

/-- A text that begins with what closes a list, blanks apart. -/
def Closing (close : List Char) : Prop :=
  ∃ c more, close.dropWhile isSpace = c :: more ∧ (c = ')' ∨ c = '\x7d')

theorem Closing.endsAt {close : List Char} (h : Closing close) (n : Nat) : EndsAt n close := by
  obtain ⟨c, more, heq, hc⟩ := h
  rw [EndsAt, heq]
  exact .closing (hc.elim .inl fun hc => .inr (.inr hc))

theorem closing_gap_append {gap : List Char} (hgap : IsGap gap) {c : Char} (hc : c = ')' ∨ c = '\x7d')
    (rest : List Char) : Closing (gap ++ c :: rest) := by
  refine ⟨c, rest, ?_, hc⟩
  rw [hgap.dropWhile_append]
  rcases hc with rfl | rfl <;> rfl

theorem Closing.misses_comma {close : List Char} (h : Closing close) : Misses comma (close.dropWhile isSpace) := by
  obtain ⟨c, more, heq, hc⟩ := h
  apply Misses.spaced
  rw [dropWhile_isSpace_idem, heq]
  rcases hc with rfl | rfl <;> exact ⟨_, _, rfl⟩

theorem length_dropWhile_append_le (cs rest : List Char) :
    (rest.dropWhile isSpace).length ≤ ((cs ++ rest).dropWhile isSpace).length := by
  induction cs with
  | nil => exact Nat.le_refl _
  | cons c cs ih =>
    rw [List.cons_append, List.dropWhile_cons]
    split
    · exact ih
    · have hle := length_dropWhile_isSpace rest
      simp only [List.length_cons, List.length_append]
      omega

theorem comma_of_spaced {cs : List Char} (h : Spaced [','] cs) (rest : List Char) :
    comma ((cs ++ rest).dropWhile isSpace) = .read () (rest.dropWhile isSpace) ∧
      (rest.dropWhile isSpace).length < ((cs ++ rest).dropWhile isSpace).length := by
  obtain ⟨gap, hgap, heq⟩ := h.dropWhile_append (by rintro c more ⟨⟩; rfl) (by decide) rest
  have hle := length_dropWhile_isSpace rest
  constructor
  · have hchar : char ',' (((cs ++ rest).dropWhile isSpace).dropWhile isSpace) = .read () (gap ++ rest) := by
      rw [dropWhile_isSpace_idem, heq]
      rfl
    rw [comma, spaced_of_read hchar, hgap.dropWhile_append]
  · rw [heq]
    simp only [List.length_append, List.length_cons, List.length_nil]
    omega

/-- After an item stands a comma or what closes the list. -/
theorem Following.endsAt {as : List α} {cs close : List Char} (h : Following S as cs) (hclose : Closing close) :
    EndsAt 1 (cs ++ close) := by
  cases h with
  | nil => exact hclose.endsAt 1
  | @cons _ _ cs ds es hcomma =>
    obtain ⟨gap, -, heq⟩ := hcomma.dropWhile_append (by rintro c more ⟨⟩; rfl) (by decide) (ds ++ es ++ close)
    rw [EndsAt, List.append_assoc, heq]
    exact .closing (.inr (.inl rfl))

variable {k : Nat} {as : List α} {cs close : List Char}

/-- Items after commas are read one by one. -/
theorem Following.moreUpTo (h : Following S as cs) (hitem : ∀ a ds, S a ds → ds.length ≤ k → Settles item 1 a ds)
    (hk : cs.length ≤ k) (hclose : Closing close) {fuel : Nat}
    (hfuel : ((cs ++ close).dropWhile isSpace).length ≤ fuel) :
    Reader.moreUpTo comma item fuel ((cs ++ close).dropWhile isSpace) = .read as (close.dropWhile isSpace) := by
  induction h generalizing fuel with
  | nil =>
    obtain ⟨after, e, hcomma⟩ := hclose.misses_comma
    cases fuel with
    | zero => rfl
    | succ fuel =>
      rw [List.nil_append, Reader.moreUpTo, hcomma]
  | @cons a as cs ds es hcs hds hmore ih =>
    simp only [List.length_append] at hk
    rw [List.append_assoc, List.append_assoc] at hfuel ⊢
    obtain ⟨hcomma, hlt⟩ := comma_of_spaced hcs (ds ++ (es ++ close))
    have hle := length_dropWhile_append_le ds (es ++ close)
    have hread : item ((ds ++ (es ++ close)).dropWhile isSpace) = .read a ((es ++ close).dropWhile isSpace) :=
      hitem a ds hds (by omega) _ _ (hmore.endsAt hclose) (dropWhile_isSpace_idem _)
    cases fuel with
    | zero => omega
    | succ fuel =>
      have hrest : Reader.moreUpTo comma item fuel ((es ++ close).dropWhile isSpace) =
          .read as (close.dropWhile isSpace) := ih (by omega) (by omega)
      rw [Reader.moreUpTo, hcomma]
      simp only [hlt, if_true, hread, hrest]

/-- A list of one item or more is read item by item. -/
theorem Listed.separated1 (h : Listed S as cs) (hne : as ≠ [])
    (hitem : ∀ a ds, S a ds → ds.length ≤ k → Settles item 1 a ds) (hk : cs.length ≤ k) (hclose : Closing close)
    {s : List Char} (hs : s.dropWhile isSpace = (cs ++ close).dropWhile isSpace) :
    Reader.separated1 comma item s = .read as (close.dropWhile isSpace) := by
  cases h with
  | nil => exact absurd rfl hne
  | @cons a as cs ds ha hmore =>
    rw [List.length_append] at hk
    rw [List.append_assoc] at hs
    have hread : item s = .read a ((ds ++ close).dropWhile isSpace) :=
      hitem a cs ha (by omega) s _ (hmore.endsAt hclose) hs
    rw [Reader.separated1, hread]
    simp only [hmore.moreUpTo hitem (by omega) hclose (Nat.le_refl _)]

/-- A list is read item by item; an empty one where no item is read off what closes it. -/
theorem Listed.separated (h : Listed S as cs) (hitem : ∀ a ds, S a ds → ds.length ≤ k → Settles item 1 a ds)
    (hk : cs.length ≤ k) (hclose : Closing close)
    (hmiss : ∀ s : List Char, s.dropWhile isSpace = close.dropWhile isSpace → Misses item s)
    {s : List Char} (hs : s.dropWhile isSpace = (cs ++ close).dropWhile isSpace) :
    ∃ rest, Reader.separated comma item s = .read as rest ∧ rest.dropWhile isSpace = close.dropWhile isSpace := by
  by_cases hne : as = []
  · subst hne
    cases h
    obtain ⟨after, e, hitem⟩ := hmiss s hs
    exact ⟨s, by rw [Reader.separated, Reader.separated1, hitem], hs⟩
  · have hread := h.separated1 hne hitem hk hclose hs
    exact ⟨close.dropWhile isSpace, by rw [Reader.separated, hread], dropWhile_isSpace_idem close⟩

end Settles

/-! ## Arguments and members -/

/-- On texts shorter than `m` the reader of nested expressions reads what is derived, and it misses what no expression
begins with. -/
structure ReadsDerived (nested : Reader Syntax) (m : Nat) : Prop where
  settles : ∀ t cs, cs.length < m → Derives 1 t cs → Settles nested 1 t cs
  misses : ∀ s c more, s.dropWhile isSpace = c :: more → c = ')' ∨ c = '\x7d' → Misses nested s

section Nested

variable {nested : Reader Syntax} {m : Nat}

theorem settles_identifier {p : String} (hp : IsName p) {cs : List Char} (h : Spaced p.toList cs) (n : Nat) :
    Settles (spaced identifier) n p cs :=
  fun _ _ hrest hs => spaced_identifier_append hp h hrest.noName hs

theorem DerivesParameters.read {ps : List String} {core : List Char} (h : DerivesParameters ps core)
    {rest : List Char} (hrest : NoName rest) : parameters (core ++ rest) = .read ps rest := by
  cases h with
  | one hp => exact orElse_of_read (bind_of_read (identifier_append hp hrest))
  | @several p ps cs hps =>
    have hident : Misses identifier ('(' :: (cs ++ [')'] ++ rest)) := misses_identifier_cons (by decide +kernel) _
    have hopen : char '(' ('(' :: (cs ++ [')'] ++ rest)) = .read () (cs ++ ')' :: rest) := by
      rw [List.append_assoc]
      rfl
    have hclose : Closing (')' :: rest) := ⟨')', rest, rfl, .inl rfl⟩
    have hlist : separated1 comma (spaced identifier) (cs ++ ')' :: rest) = .read (p :: ps) (')' :: rest) :=
      hps.separated1 (List.cons_ne_nil p ps) (fun _ _ hp _ => settles_identifier hp.1 hp.2 1) (Nat.le_refl _) hclose
        rfl
    have hclosing : char ')' (')' :: rest) = .read () rest := rfl
    rw [List.cons_append, parameters, hident.bind.orElse_eq, bind_of_read hopen, bind_of_read hlist,
      bind_of_read hclosing, pure_apply]

/-- Parameters begin with a name or a parenthesis. -/
theorem DerivesParameters.first {ps : List String} {core : List Char} (h : DerivesParameters ps core) :
    core ≠ [] ∧ ∀ c more, core = c :: more → isSpace c = false := by
  cases h with
  | one hp => exact ⟨hp.toList_ne_nil, hp.not_isSpace⟩
  | several => exact ⟨List.cons_ne_nil _ _, by rintro c more ⟨⟩; rfl⟩

/-- An argument is read as a function if it is one, and else as an expression. -/
theorem DerivesArgument.settles (hnested : ReadsDerived nested m) {t : Syntax} {cs : List Char}
    (h : DerivesArgument t cs) (hcs : cs.length < m) : Settles ((lambda nested).orElse nested) 1 t cs := by
  intro s rest hrest hs
  cases h with
  | value ht =>
    have hbegins := ht.begins (hrest.mono (by decide : 1 ≤ 7))
    rw [← hs] at hbegins
    rw [(hbegins.misses_lambda hrest nested).orElse_eq]
    exact hnested.settles t cs hcs ht s rest hrest hs
  | @function ps body core cs ds hps hspaced hbody =>
    simp only [List.length_append, List.length_cons] at hcs
    obtain ⟨gap, hgap, heq⟩ := hspaced.dropWhile_append hps.first.2 hps.first.1 ('=' :: '>' :: (ds ++ rest))
    have hparameters : spaced parameters s = .read ps ('=' :: '>' :: (ds ++ rest)) := by
      have hafter : NoName ('=' :: '>' :: (ds ++ rest)) := noName_cons (by decide +kernel) _
      have hread := hps.read (noName_gap_append hgap hafter)
      rw [List.append_assoc, List.cons_append, List.cons_append, heq] at hs
      rw [spaced_of_read (by rw [hs]; exact hread), hgap.dropWhile_append]
      rfl
    have harrow : word "=>" ('=' :: '>' :: (ds ++ rest)) = .read () (ds ++ rest) := rfl
    have hread := hnested.settles body ds (by omega) hbody (ds ++ rest) rest hrest rfl
    apply orElse_of_read
    rw [lambda, bind_of_read hparameters, bind_of_read harrow, bind_of_read hread, pure_apply]

/-- What closes a list begins no argument. -/
theorem ReadsDerived.misses_argument (hnested : ReadsDerived nested m) {close : List Char} (hclose : Closing close)
    {s : List Char} (hs : s.dropWhile isSpace = close.dropWhile isSpace) :
    Misses ((lambda nested).orElse nested) s := by
  obtain ⟨c, more, hc, hmark⟩ := hclose
  have hbegins : Begins [] (s.dropWhile isSpace) := by
    rw [hs, hc]
    rcases hmark with rfl | rfl <;> exact .other (by decide +kernel) rfl (by decide) (by decide)
  exact (hbegins.misses_lambda (EndsAt.nil (n := 1)) nested).orElse
    (hnested.misses s c more (hs.trans hc) hmark)

/-- Arguments are read in their parentheses, whatever stands after them. -/
theorem DerivesArguments.read (hnested : ReadsDerived nested m) {args : List Syntax} {cs : List Char}
    (h : DerivesArguments args cs) (hcs : cs.length ≤ m) {s rest : List Char}
    (hs : s.dropWhile isSpace = (cs ++ rest).dropWhile isSpace) :
    arguments nested s = .read args (rest.dropWhile isSpace) := by
  cases h with
  | @listed _ gap cs gap' hgap hlist hgap' =>
    simp only [List.length_append, List.length_cons] at hcs
    have hspaces : spaces s = .read () ('(' :: (cs ++ (gap' ++ ')' :: rest))) := by
      rw [spaces, hs, List.append_assoc, hgap.dropWhile_append]
      simp only [List.cons_append, List.append_assoc, List.nil_append]
      rfl
    have hopen : char '(' ('(' :: (cs ++ (gap' ++ ')' :: rest))) = .read () (cs ++ (gap' ++ ')' :: rest)) := rfl
    have hclose : Closing (gap' ++ ')' :: rest) := closing_gap_append hgap' (.inl rfl) rest
    obtain ⟨mid, hread, hmid⟩ := hlist.separated (k := cs.length)
      (fun a ds ha hds => ha.settles hnested (by omega)) (Nat.le_refl _) hclose
      (fun _ => hnested.misses_argument hclose) rfl
    have hclosing : spaced (char ')') mid = .read () (rest.dropWhile isSpace) := by
      refine spaced_of_read ?_
      rw [hmid, hgap'.dropWhile_append]
      rfl
    rw [arguments, bind_of_read hspaces, bind_of_read hopen, bind_of_read hread, bind_of_read hclosing, pure_apply]

/-- A member of a new object is read with the name that it is given, or else with the name of its value. -/
theorem DerivesMember.settles (hnested : ReadsDerived nested m) {member : String × Syntax} {cs : List Char}
    (h : DerivesMember member cs) (hcs : cs.length < m) : Settles (objectMember nested) 1 member cs := by
  intro s rest hrest hs
  cases h with
  | @named label value cs ds hlabel hspaced hvalue =>
    simp only [List.length_append, List.length_cons] at hcs
    rw [List.append_assoc, List.cons_append] at hs
    have hname : spaced identifier s = .read label ('=' :: (ds ++ rest)) :=
      spaced_identifier_append hlabel hspaced (noName_cons (by decide +kernel) _) hs
    have hequals : char '=' ('=' :: (ds ++ rest)) = .read () (ds ++ rest) := rfl
    have habsent : absent (char '=') (ds ++ rest) = .read () (ds ++ rest) := by
      have hne := hvalue.first_ne_equals (hrest.mono (by decide))
      generalize ds ++ rest = text at hne
      cases text with
      | nil => rfl
      | cons c more =>
        have hc : c ≠ '=' := by rintro rfl; exact hne more rfl
        simp [absent, char, hc]
    have hread := hnested.settles value ds (by omega) hvalue (ds ++ rest) rest hrest rfl
    rw [objectMember]
    apply orElse_of_read
    rw [bind_of_read hname, bind_of_read hequals, bind_of_read habsent, bind_of_read hread, pure_apply]
  | @implied label value _ hlabel hvalue =>
    have hbegins := hvalue.begins (hrest.mono (by decide : 1 ≤ 7))
    rw [← hs] at hbegins
    have hread := hnested.settles value cs hcs hvalue s rest hrest hs
    rw [objectMember, (hbegins.misses_assignment hrest nested).orElse_eq, convert, hread]
    simp only [hlabel, Option.map_some]

/-- What closes a list begins no member. -/
theorem ReadsDerived.misses_objectMember (hnested : ReadsDerived nested m) {close : List Char}
    (hclose : Closing close) {s : List Char} (hs : s.dropWhile isSpace = close.dropWhile isSpace) :
    Misses (objectMember nested) s := by
  obtain ⟨c, more, hc, hmark⟩ := hclose
  have hbegins : Begins [] (s.dropWhile isSpace) := by
    rw [hs, hc]
    rcases hmark with rfl | rfl <;> exact .other (by decide +kernel) rfl (by decide) (by decide)
  obtain ⟨after, e, hvalue⟩ := hnested.misses s c more (hs.trans hc) hmark
  exact (hbegins.misses_assignment (EndsAt.nil (n := 1)) nested).orElse ⟨after, e, by rw [convert, hvalue]⟩

/-! ## Operands -/

/-- A word is read as an operand by what stands after it. -/
theorem bareOperand_of_word {s : String} (hs : IsName s) {after : List Char} (hafter : NoName after)
    {a : Syntax} {rest : List Char}
    (h : ∀ start, identifier start = .read s after → wordOperand nested start = .read a rest) :
    bareOperand nested (s.toList ++ after) = .read a rest := by
  rw [bareOperand_of_name hs]
  exact h _ (identifier_append hs hafter)

theorem dateText_append {t : Moment} {s : String} {gap rest : List Char} (hgap : IsGap gap)
    (ht : Moment.readLiteral s.toList = some t) (hrest : NoQuote rest) (start : List Char) :
    dateText start (gap ++ (Token.chars (.text s) ++ rest)) = .read (.literal (.dateTime t)) rest := by
  have hspaces : spaces (gap ++ (Token.chars (.text s) ++ rest)) = .read () (Token.chars (.text s) ++ rest) := by
    rw [spaces, hgap.dropWhile_append]
    rfl
  rw [dateText, bind_of_read hspaces, bind_of_read (quoted_append s hrest), ht]
  rfl

/-- A date is read as an operand: the word is no name before a quote. -/
theorem bareOperand_date {t : Moment} {s : String} {gap rest : List Char} (hgap : IsGap gap)
    (ht : Moment.readLiteral s.toList = some t) (hrest : NoQuote rest) :
    bareOperand nested ("date".toList ++ (gap ++ (Token.chars (.text s) ++ rest))) =
      .read (.literal (.dateTime t)) rest := by
  have hfirst : (gap ++ (Token.chars (.text s) ++ rest)).dropWhile isSpace = Token.chars (.text s) ++ rest := by
    rw [hgap.dropWhile_append]
    rfl
  have hafter : NoName (gap ++ (Token.chars (.text s) ++ rest)) := noName_of_dropWhile hfirst (by decide +kernel)
  have hquote : quoteAhead (gap ++ (Token.chars (.text s) ++ rest)) = true := by
    rw [quoteAhead, hfirst]
    rfl
  refine bareOperand_of_word (isName_of_word (by simp)) hafter fun start hstart => ?_
  rw [wordOperand, hstart]
  simp only [String.reduceEq, if_false, hquote, and_self, if_true]
  exact dateText_append hgap ht hrest start

/-- The members of a new object are read in their braces, whatever stands after them. -/
theorem objectMembers_append (hnested : ReadsDerived nested m) {members : List (String × Syntax)}
    {ds cs gap : List Char} (hds : Spaced ['\x7b'] ds) (hlist : Listed DerivesMember members cs) (hgap : IsGap gap)
    (hcs : cs.length < m) (rest : List Char) :
    objectMembers nested (ds ++ (cs ++ (gap ++ '\x7d' :: rest))) = .read members (rest.dropWhile isSpace) := by
  have hclose : Closing (gap ++ '\x7d' :: rest) := closing_gap_append hgap (.inr rfl) rest
  obtain ⟨gap', hgap', heq⟩ := hds.dropWhile_append (by rintro c more ⟨⟩; rfl) (by decide)
    (cs ++ (gap ++ '\x7d' :: rest))
  have hbrace : char '\x7b' ((ds ++ (cs ++ (gap ++ '\x7d' :: rest))).dropWhile isSpace) =
      .read () (gap' ++ (cs ++ (gap ++ '\x7d' :: rest))) := by
    rw [heq]
    rfl
  have hopen := spaced_of_read hbrace
  rw [hgap'.dropWhile_append] at hopen
  obtain ⟨mid, hread, hmid⟩ := hlist.separated (k := cs.length)
    (fun a ds ha hds => ha.settles hnested (by omega)) (Nat.le_refl _) hclose
    (fun _ => hnested.misses_objectMember hclose) (dropWhile_isSpace_idem _)
  have hclosing : spaced (char '\x7d') mid = .read () (rest.dropWhile isSpace) := by
    refine spaced_of_read ?_
    rw [hmid, hgap.dropWhile_append]
    rfl
  rw [objectMembers, bind_of_read hopen, bind_of_read hread, bind_of_read hclosing, pure_apply]

/-- A tree in parentheses is read as an operand, whatever stands after them. -/
theorem bareOperand_parenthesized (hnested : ReadsDerived nested m) {t : Syntax} {cs : List Char}
    (ht : Derives 1 t cs) (hcs : cs.length < m) (rest : List Char) :
    bareOperand nested ('(' :: (cs ++ ')' :: rest)) = .read t rest := by
  have hclosing : EndsAt 1 (')' :: rest) := .closing (.inl rfl)
  have hnumber : Misses numberOperand ('(' :: (cs ++ ')' :: rest)) := Misses.bind ⟨_, _, rfl⟩
  have htext : Misses textOperand ('(' :: (cs ++ ')' :: rest)) := Misses.bind ⟨_, _, rfl⟩
  have hopen : char '(' ('(' :: (cs ++ ')' :: rest)) = .read () (cs ++ ')' :: rest) := rfl
  have hread : nested (cs ++ ')' :: rest) = .read t (')' :: rest) :=
    hnested.settles t cs hcs ht _ _ hclosing rfl
  have hclose : char ')' (')' :: rest) = .read () rest := rfl
  rw [bareOperand, hnumber.orElse_eq, htext.orElse_eq]
  apply orElse_of_read
  rw [parenthesized, bind_of_read hopen, bind_of_read hread, bind_of_read hclose, pure_apply]

/-- An operand before its members is read where an operand may end. -/
theorem DerivesAtom.bareOperand (hnested : ReadsDerived nested m) {t : Syntax} {core rest : List Char}
    (h : DerivesAtom t core) (hcore : core.length ≤ m) (hrest : EndsAt 7 rest) :
    ∃ after, Grammar.bareOperand nested (core ++ rest) = .read t after ∧
      after.dropWhile isSpace = rest.dropWhile isSpace := by
  cases h with
  | null =>
    refine ⟨rest, bareOperand_of_word (isName_of_word (by simp)) hrest.noName fun start hstart => ?_, rfl⟩
    rw [wordOperand, hstart]
    simp
  | @bool b =>
    refine ⟨rest, ?_, rfl⟩
    cases b <;>
    · refine bareOperand_of_word (isName_of_word (by simp)) hrest.noName fun start hstart => ?_
      rw [wordOperand, hstart]
      simp
  | number hv => exact ⟨rest, orElse_of_read (bind_of_read (hv.number_append hrest.noNumber)), rfl⟩
  | text hs =>
    have hread := quoted_of_isSpelled hs hrest.noQuote
    have hnumber : Misses numberOperand (core ++ rest) := by
      rcases hs with rfl | ⟨-, rfl⟩ <;> exact Misses.bind ⟨_, _, number_of_not_digit (by decide) (by decide)⟩
    refine ⟨rest, ?_, rfl⟩
    rw [Grammar.bareOperand, hnumber.orElse_eq]
    exact orElse_of_read (bind_of_read hread)
  | @date _ s gap hgap ht =>
    refine ⟨rest, ?_, rfl⟩
    rw [List.append_assoc, List.append_assoc]
    exact bareOperand_date hgap ht hrest.noQuote
  | @name s hs =>
    refine ⟨rest, bareOperand_of_word hs.1 hrest.noName fun start hstart => ?_, rfl⟩
    obtain ⟨after, e, hargs⟩ := hrest.misses_arguments nested
    rw [wordOperand_of_free hs hstart hrest.quoteAhead_eq_false, callOrName, hargs]
  | @freeCall method args cs hs hargs =>
    rw [List.length_append] at hcore
    obtain ⟨more, hfirst⟩ := hargs.dropWhile_append rest
    have hafter : NoName (cs ++ rest) := noName_of_dropWhile hfirst (by decide +kernel)
    have hquote : quoteAhead (cs ++ rest) = false := by
      rw [quoteAhead, hfirst]
      rfl
    refine ⟨rest.dropWhile isSpace, ?_, dropWhile_isSpace_idem rest⟩
    rw [List.append_assoc]
    refine bareOperand_of_word hs.1 hafter fun start hstart => ?_
    rw [wordOperand_of_free hs hstart hquote, callOrName, hargs.read hnested (by omega) rfl]
  | @object members ds cs gap hds hlist hgap =>
    simp only [List.length_append, List.length_cons] at hcore
    obtain ⟨gap', -, hfirst⟩ := hds.dropWhile_append (by rintro c more ⟨⟩; rfl) (by decide)
      (cs ++ (gap ++ '\x7d' :: rest))
    have hafter : NoName (ds ++ (cs ++ (gap ++ '\x7d' :: rest))) := noName_of_dropWhile hfirst (by decide +kernel)
    have hread := objectMembers_append hnested hds hlist hgap (by omega) rest
    refine ⟨rest.dropWhile isSpace, ?_, dropWhile_isSpace_idem rest⟩
    simp only [List.append_assoc, List.cons_append, List.nil_append]
    refine bareOperand_of_word (isName_of_word (by simp)) hafter fun start hstart => ?_
    rw [wordOperand, hstart]
    simp only [String.reduceEq, if_false, if_true]
    rw [bind_of_read hread, pure_apply]
  | @enclosed _ cs ht =>
    simp only [List.length_append, List.length_cons] at hcore
    refine ⟨rest, ?_, rfl⟩
    rw [List.cons_append, List.append_assoc, List.singleton_append]
    exact bareOperand_parenthesized hnested ht (by omega) rest

/-- An operand, and then its members and calls one by one, are read up to this tree. -/
def ReadsUpTo (nested : Reader Syntax) (t : Syntax) (cs : List Char) : Prop :=
  ∀ s rest, EndsAt 7 rest → s.dropWhile isSpace = (cs ++ rest).dropWhile isSpace →
    ∃ first mid, primary nested s = .read first mid ∧
      ∀ fuel, mid.length ≤ fuel → ∃ less, (rest.dropWhile isSpace).length ≤ less ∧
        membersFrom nested fuel first mid = membersFrom nested less t (rest.dropWhile isSpace)

/-- An operand that is read where one may end is read up to at once. -/
theorem DerivesAtom.readsUpTo {t : Syntax} {core cs : List Char} (h : DerivesAtom t core) (hspaced : Spaced core cs)
    (hread : ∀ rest, EndsAt 7 rest → ∃ after, Grammar.bareOperand nested (core ++ rest) = .read t after ∧
      after.dropWhile isSpace = rest.dropWhile isSpace) : ReadsUpTo nested t cs := by
  intro s rest hrest hs
  obtain ⟨gap, gap', hgap, hgap', rfl⟩ := hspaced
  have hends : EndsAt 7 (gap' ++ rest) := hrest.gap_append hgap'
  obtain ⟨after, hread, hafter⟩ := hread _ hends
  rw [hgap'.dropWhile_append] at hafter
  rw [List.append_assoc, hgap.dropWhile_append, List.append_assoc, (h.begins hends).dropWhile_eq] at hs
  have hprimary : primary nested s = .read t (rest.dropWhile isSpace) := by
    rw [← hafter]
    exact spaced_of_read (by rw [hs]; exact hread)
  exact ⟨t, _, hprimary, fun fuel hfuel => ⟨fuel, hfuel, rfl⟩⟩

/-- A point and a name are read for a member. -/
theorem DerivesMemberName.read {field : String} {cs rest : List Char} (h : DerivesMemberName field cs)
    (hrest : NoName rest) :
    memberName ((cs ++ rest).dropWhile isSpace) = .read field (rest.dropWhile isSpace) := by
  obtain ⟨ds, hds, heq⟩ := h.dropWhile_append rest
  have hspaces : spaces ((cs ++ rest).dropWhile isSpace) = .read () ('.' :: (ds ++ rest)) := by
    rw [spaces, dropWhile_isSpace_idem, heq]
  have hpoint : char '.' ('.' :: (ds ++ rest)) = .read () (ds ++ rest) := rfl
  rw [memberName, bind_of_read hspaces, bind_of_read hpoint]
  exact spaced_identifier_append h.1 hds hrest rfl

theorem DerivesMemberName.length_lt {field : String} {cs : List Char} (h : DerivesMemberName field cs)
    (rest : List Char) : (rest.dropWhile isSpace).length < ((cs ++ rest).dropWhile isSpace).length := by
  obtain ⟨ds, -, heq⟩ := h.dropWhile_append rest
  have hle := length_dropWhile_isSpace rest
  rw [heq]
  simp only [List.length_cons, List.length_append]
  omega

/-- Operands with their members and calls are read up to each of them. -/
theorem Derives.readsUpTo (hnested : ReadsDerived nested m) {t : Syntax} {cs : List Char} (h : Derives 6 t cs)
    (hcs : cs.length ≤ m) : ReadsUpTo nested t cs := by
  cases h with
  | atom hatom hspaced =>
    have hcore := hspaced.length_le
    exact hatom.readsUpTo hspaced fun _ hrest => hatom.bareOperand hnested (by omega) hrest
  | @member _ target field cs ds htarget hfield =>
    have hpos := hfield.length_pos
    rw [List.length_append] at hcs
    intro s rest hrest hs
    rw [List.append_assoc] at hs
    obtain ⟨first, mid, hfirst, hmore⟩ :=
      htarget.readsUpTo hnested (by omega) s (ds ++ rest) (hfield.endsAt rest) hs
    refine ⟨first, mid, hfirst, fun fuel hfuel => ?_⟩
    obtain ⟨less, hless, heq⟩ := hmore fuel hfuel
    have hlt := hfield.length_lt rest
    obtain ⟨after, e, hargs⟩ := hrest.dropWhile.misses_arguments nested
    cases less with
    | zero => omega
    | succ less =>
      refine ⟨less, by omega, ?_⟩
      rw [heq, membersFrom, hfield.read hrest.noName]
      simp only [hargs]
  | @call _ target method args cs ds es gap htarget hmethod hargs hgap =>
    have hpos := hmethod.length_pos
    simp only [List.length_append] at hcs
    intro s rest hrest hs
    simp only [List.append_assoc] at hs
    obtain ⟨first, mid, hfirst, hmore⟩ :=
      htarget.readsUpTo hnested (by omega) s _ (hmethod.endsAt (es ++ (gap ++ rest))) hs
    refine ⟨first, mid, hfirst, fun fuel hfuel => ?_⟩
    obtain ⟨less, hless, heq⟩ := hmore fuel hfuel
    have hlt := hmethod.length_lt (es ++ (gap ++ rest))
    have hle := length_dropWhile_append_le es (gap ++ rest)
    obtain ⟨more, hopen⟩ := hargs.dropWhile_append (gap ++ rest)
    have hname : NoName (es ++ (gap ++ rest)) := noName_of_dropWhile hopen (by decide +kernel)
    have hread : arguments nested ((es ++ (gap ++ rest)).dropWhile isSpace) = .read args (rest.dropWhile isSpace) := by
      rw [hargs.read hnested (by omega) (dropWhile_isSpace_idem _), hgap.dropWhile_append]
    rw [hgap.dropWhile_append] at hle
    cases less with
    | zero => omega
    | succ less =>
      refine ⟨less, by omega, ?_⟩
      rw [heq, membersFrom, hmethod.read hname]
      simp only [hread]
  | @binary _ op _ _ _ _ _ hlevel =>
    have hle := op.level_le
    omega
termination_by cs.length
decreasing_by all_goals subst_vars; simp only [List.length_append]; omega

/-- An operand is read up to where no member follows. -/
theorem ReadsUpTo.settles {t : Syntax} {cs : List Char} (h : ReadsUpTo nested t cs) :
    Settles (operand nested) 6 t cs := by
  intro s rest hrest hs
  obtain ⟨first, mid, hfirst, hmore⟩ := h s rest (hrest.mono (by decide)) hs
  obtain ⟨less, -, heq⟩ := hmore mid.length (Nat.le_refl _)
  obtain ⟨after, e, hend⟩ := hrest.dropWhile.misses_memberName (Nat.le_refl _)
  rw [operand, hfirst]
  simp only [heq]
  cases less with
  | zero => rfl
  | succ less => rw [membersFrom, hend]

/-! ## Levels -/

/-- An expression of a level is read as a first operand and the operators after it with their operands. -/
def ReadsAsChain (nested : Reader Syntax) (n : Nat) (t : Syntax) (cs : List Char) : Prop :=
  ∀ s rest, EndsAt (n + 1) rest → s.dropWhile isSpace = (cs ++ rest).dropWhile isSpace →
    ∃ first links mid, levelReader nested (n + 1) s = .read first mid ∧
      ReadsOn (link (levelOperator n) (levelReader nested (n + 1))) links mid (rest.dropWhile isSpace) ∧
      first.chain links = t

/-- The chain ends where no operator of the level follows. -/
theorem ReadsAsChain.settles {n : Nat} (hn : n = 1 ∨ n = 2 ∨ n = 4 ∨ n = 5) {t : Syntax} {cs : List Char}
    (h : ReadsAsChain nested n t cs) : Settles (levelReader nested n) n t cs := by
  intro s rest hrest hs
  obtain ⟨first, links, mid, hfirst, hlinks, rfl⟩ := h s rest (hrest.mono (Nat.le_succ n)) hs
  obtain ⟨after, e, hend⟩ := hrest.dropWhile.misses_link (by omega : 1 ≤ n) (by omega) (Nat.le_refl n)
    (levelReader nested (n + 1))
  have hmany := many_of_readsOn hlinks hend
  unfold link at hmany
  rw [levelReader_eq_chainOf _ hn, chainOf, bind_of_read hfirst, bind_of_read hmany, pure_apply]

/-- What is read one level above is a chain of one operand. -/
theorem Settles.readsAsChain {n : Nat} {t : Syntax} {cs : List Char}
    (h : Settles (levelReader nested (n + 1)) (n + 1) t cs) : ReadsAsChain nested n t cs :=
  fun s rest hrest hs => ⟨t, [], rest.dropWhile isSpace, h s rest hrest hs, rfl, rfl⟩

/-- What is read one level above is read at a level. -/
theorem Settles.pred {n : Nat} (hn : 1 ≤ n) (hn' : n ≤ 5) {t : Syntax} {cs : List Char}
    (h : Settles (levelReader nested (n + 1)) (n + 1) t cs) : Settles (levelReader nested n) n t cs := by
  by_cases h3 : n = 3
  · subst h3
    intro s rest hrest hs
    have hsum : sum (operand nested) s = .read t (rest.dropWhile isSpace) := h s rest (hrest.mono (by decide)) hs
    have hend := hrest.dropWhile.misses_link (by decide : 1 ≤ 3) (by decide) (Nat.le_refl 3) (sum (operand nested))
    have hnone := hend.optional_eq
    unfold link at hnone
    show comparison (operand nested) s = .read t (rest.dropWhile isSpace)
    rw [comparison, bind_of_read hsum]
    exact bind_of_read hnone
  · exact h.readsAsChain.settles (by omega)

theorem Settles.below {k n : Nat} (hkn : k ≤ n) (hk : 1 ≤ k) (hn : n ≤ 6) {t : Syntax} {cs : List Char}
    (h : Settles (levelReader nested n) n t cs) : Settles (levelReader nested k) k t cs := by
  induction n, hkn using Nat.le_induction with
  | base => exact h
  | succ n hkn ih => exact ih (by omega) (h.pred (by omega) (by omega))

/-- An operator and its right operand are read where the operand may end. -/
theorem link_append {op : BinaryOp} {n : Nat} (hn : op.level = n) {right : Syntax} {ds es rest : List Char}
    (hop : Spaced op.token.toList ds) (hright : Derives (n + 1) right es)
    (hsettles : Settles (levelReader nested (n + 1)) (n + 1) right es) (hrest : EndsAt (n + 1) rest) :
    link (levelOperator n) (levelReader nested (n + 1)) ((ds ++ (es ++ rest)).dropWhile isSpace) =
        .read (op, right) (rest.dropWhile isSpace) ∧
      (rest.dropWhile isSpace).length < ((ds ++ (es ++ rest)).dropWhile isSpace).length := by
  subst hn
  have hlevel := op.level_le
  obtain ⟨gap, hgap, heq⟩ := hop.dropWhile_append (not_isSpace_token op) (token_ne_nil op) (es ++ rest)
  -- No operand begins with an equals sign, so `<` is not taken for `<=`.
  have hne : ∀ more, gap ++ (es ++ rest) ≠ '=' :: more := by
    cases gap with
    | nil => exact hright.first_ne_equals (hrest.mono (by omega))
    | cons c gap =>
      rintro more ⟨⟩
      exact absurd (hgap '=' List.mem_cons_self) (by decide)
  have htoken : levelOperator op.level (((ds ++ (es ++ rest)).dropWhile isSpace).dropWhile isSpace) =
      .read op (gap ++ (es ++ rest)) := by
    rw [dropWhile_isSpace_idem, heq]
    exact levelOperator_append op hne
  have hoperator := spaced_of_read htoken
  rw [hgap.dropWhile_append] at hoperator
  refine ⟨link_of_read hoperator (hsettles _ rest hrest (dropWhile_isSpace_idem _)), ?_⟩
  have hpos := List.length_pos_iff.2 (token_ne_nil op)
  have hle := length_dropWhile_isSpace rest
  rw [heq]
  simp only [List.length_append]
  omega

/-- An operator goes on with the chain of its left operand. -/
theorem ReadsAsChain.binary {op : BinaryOp} {left right : Syntax} {cs ds es : List Char}
    (hleft : ReadsAsChain nested op.level left cs) (hop : Spaced op.token.toList ds)
    (hright : Derives (op.level + 1) right es)
    (hsettles : Settles (levelReader nested (op.level + 1)) (op.level + 1) right es) :
    ReadsAsChain nested op.level (.binary op left right) (cs ++ (ds ++ es)) := by
  intro s rest hrest hs
  simp only [List.append_assoc] at hs
  obtain ⟨first, links, mid, hfirst, hlinks, rfl⟩ :=
    hleft s _ (endsAt_spaced_operator (Nat.lt_succ_self _) hop (es ++ rest)) hs
  obtain ⟨hlink, hlt⟩ := link_append rfl hop hright hsettles hrest
  exact ⟨first, links ++ [(op, right)], mid, hfirst, hlinks.snoc hlink hlt, chain_snoc _ _ _ _⟩

/-- Two sums are compared. -/
theorem settles_comparison {op : BinaryOp} (hop : op.level = 3) {left right : Syntax} {cs ds es : List Char}
    (hleft : Settles (levelReader nested 4) 4 left cs) (hds : Spaced op.token.toList ds) (hright : Derives 4 right es)
    (hsettles : Settles (levelReader nested 4) 4 right es) :
    Settles (levelReader nested 3) 3 (.binary op left right) (cs ++ (ds ++ es)) := by
  intro s rest hrest hs
  simp only [List.append_assoc] at hs
  have hsum : sum (operand nested) s = .read left ((ds ++ (es ++ rest)).dropWhile isSpace) :=
    hleft s _ (endsAt_spaced_operator (by omega) hds (es ++ rest)) hs
  obtain ⟨hlink, -⟩ := link_append hop hds hright hsettles (hrest.mono (by decide))
  have hsome : (link (levelOperator 3) (levelReader nested 4)).optional ((ds ++ (es ++ rest)).dropWhile isSpace) =
      .read (some (op, right)) (rest.dropWhile isSpace) := by
    rw [Reader.optional, hlink]
  unfold link at hsome
  show comparison (operand nested) s = .read (.binary op left right) (rest.dropWhile isSpace)
  rw [comparison, bind_of_read hsum]
  exact bind_of_read hsome

/-- An operand is read at every level. -/
theorem Settles.operand {n : Nat} (hn : 1 ≤ n) (hn' : n ≤ 6) {t : Syntax} {cs : List Char}
    (h : Settles (Grammar.operand nested) 6 t cs) : Settles (levelReader nested n) n t cs ∧
      (n = 1 ∨ n = 2 ∨ n = 4 ∨ n = 5 → ReadsAsChain nested n t cs) := by
  have hall : ∀ k, 1 ≤ k → k ≤ 6 → Settles (levelReader nested k) k t cs := fun k hk hk' =>
    Settles.below hk' hk (Nat.le_refl 6) h
  exact ⟨hall n hn hn', fun hchain => (hall (n + 1) (by omega) (by omega)).readsAsChain⟩

/-- Every level reads what is derived at it, and as a chain where operands are joined from the left. -/
theorem Derives.settles (hnested : ReadsDerived nested m) {n : Nat} {t : Syntax} {cs : List Char} (h : Derives n t cs)
    (hn : 1 ≤ n) (hn' : n ≤ 6) (hcs : cs.length ≤ m) : Settles (levelReader nested n) n t cs ∧
      (n = 1 ∨ n = 2 ∨ n = 4 ∨ n = 5 → ReadsAsChain nested n t cs) := by
  have hoperand : Derives 6 t cs → Settles (levelReader nested n) n t cs ∧
      (n = 1 ∨ n = 2 ∨ n = 4 ∨ n = 5 → ReadsAsChain nested n t cs) := fun h6 =>
    (h6.readsUpTo hnested hcs).settles.operand hn hn'
  cases h with
  | atom hatom hspaced => exact hoperand (.atom hatom hspaced)
  | member htarget hfield => exact hoperand (.member htarget hfield)
  | call htarget hmethod hargs hgap => exact hoperand (.call htarget hmethod hargs hgap)
  | @binary _ op left right cs ds es hlevel hleft hop hright =>
    have hds := length_pos_of_spaced_operator hop
    have hpos := op.level_pos
    have hle := op.level_le
    simp only [List.length_append] at hcs
    obtain ⟨hsettles, -⟩ := hright.settles hnested (by omega) (by omega) (by omega)
    have hown : Settles (levelReader nested op.level) op.level (.binary op left right) (cs ++ (ds ++ es)) ∧
        (op.level ≠ 3 → ReadsAsChain nested op.level (.binary op left right) (cs ++ (ds ++ es))) := by
      cases hcomparison : op.isComparison with
      | true =>
        have hlevel : op.level = 3 := by cases op <;> first | rfl | cases hcomparison
        have hleftLevel : op.leftLevel = 4 := by cases op <;> first | rfl | cases hcomparison
        rw [hleftLevel] at hleft
        rw [hlevel] at hright hsettles ⊢
        obtain ⟨hleft', -⟩ := hleft.settles hnested (by decide) (by decide) (by omega)
        exact ⟨settles_comparison hlevel hleft' hop hright hsettles, fun hne => absurd rfl hne⟩
      | false =>
        have hlevel : op.level = 1 ∨ op.level = 2 ∨ op.level = 4 ∨ op.level = 5 := by
          cases op <;> first | decide | cases hcomparison
        have hleftLevel : op.leftLevel = op.level := by rw [BinaryOp.leftLevel, hcomparison]; rfl
        rw [hleftLevel] at hleft
        obtain ⟨-, hchain⟩ := hleft.settles hnested hpos (by omega) (by omega)
        have hbinary := (hchain hlevel).binary hop hright hsettles
        exact ⟨hbinary.settles hlevel, fun _ => hbinary⟩
    refine ⟨Settles.below hlevel hn (by omega) hown.1, fun hmem => ?_⟩
    by_cases heq : n = op.level
    · subst heq
      exact hown.2 (by omega)
    · exact (Settles.below (by omega : n + 1 ≤ op.level) (by omega) (by omega) hown.1).readsAsChain
termination_by cs.length
decreasing_by all_goals subst_vars; simp only [List.length_append]; omega

end Nested

/-! ## Expressions -/

/-- No operand begins with what closes a list. -/
theorem misses_expression_closing (depth : Nat) {s : List Char} {c : Char} {more : List Char}
    (hs : s.dropWhile isSpace = c :: more) (hc : c = ')' ∨ c = '\x7d') : Misses (expression depth) s := by
  cases depth with
  | zero => exact ⟨s, .satisfy, rfl⟩
  | succ depth =>
    rw [expression_succ]
    apply misses_levelReader
    apply Misses.spaced
    rw [hs]
    have hident : Misses identifier (c :: more) := by
      rcases hc with rfl | rfl <;> exact misses_identifier_cons (by decide +kernel) more
    have hnumber : Misses numberOperand (c :: more) := by
      rcases hc with rfl | rfl <;> exact Misses.bind ⟨_, _, rfl⟩
    have htext : Misses textOperand (c :: more) := by
      rcases hc with rfl | rfl <;> exact Misses.bind ⟨_, _, rfl⟩
    have hparen : Misses (parenthesized (expression depth)) (c :: more) := by
      rcases hc with rfl | rfl <;> exact Misses.bind ⟨_, _, rfl⟩
    exact hnumber.orElse (htext.orElse (hparen.orElse hident.wordOperand))

/-- With a depth above its length a text is read as the grammar has it. -/
theorem readsDerived_expression (depth : Nat) : ReadsDerived (expression depth) depth := by
  induction depth with
  | zero => exact ⟨fun _ _ hcs => absurd hcs (Nat.not_lt_zero _), fun _ _ _ => misses_expression_closing 0⟩
  | succ depth ih =>
    refine ⟨fun t cs hcs ht => ?_, fun _ _ _ => misses_expression_closing (depth + 1)⟩
    exact (ht.settles ih (Nat.le_refl 1) (by decide) (Nat.le_of_lt_succ hcs)).1

end QueryChain.Grammar

namespace QueryChain

open Grammar

theorem Syntax.ofChars_eq_ok_iff {cs : List Char} {t : Syntax} : Syntax.ofChars cs = .ok t ↔ Derives 1 t cs := by
  constructor
  · intro h
    rw [Syntax.ofChars] at h
    split at h
    · next tree hread =>
      cases h
      obtain ⟨front, hfront, hderives⟩ := consumes_expression _ cs t [] hread
      rw [List.append_nil] at hfront
      exact hfront ▸ hderives
    · cases h
    · cases h
    · cases h
  · intro h
    have hread := (readsDerived_expression (cs.length + 1)).settles t cs (Nat.lt_succ_self _) h cs [] EndsAt.nil
      (by rw [List.append_nil])
    rw [Syntax.ofChars, hread]
    rfl

/-- A text is read as a tree exactly if, trimmed, it has characters that the grammar has for the tree. -/
theorem Syntax.ofText_eq_ok_iff {text : String} {t : Syntax} :
    Syntax.ofText text = .ok t ↔ Derives 1 t (Text.trim text.toList) :=
  Syntax.ofChars_eq_ok_iff

end QueryChain
