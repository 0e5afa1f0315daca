import QueryChain.Proofs.Grammar.Completeness

/-!
# Blanks around an expression

A text is trimmed before it is read, and of more blanks than the grammar skips. An expression has blanks of the
grammar around it and begins and ends with characters that are none, so it is left as an expression.

* `Derives.exists_startsSharp`, `Derives.exists_endsSharp`: the blanks on either side do not count.
* `Syntax.ofText_of_derives`: what is derived is accepted as a text of its own.
-/

namespace QueryChain.Grammar

open Reader Calendar Text

/-! ## Beginnings and ends without blanks -/

/-- These characters begin with one that is no blank. -/
def StartsSharp (cs : List Char) : Prop :=
  ∃ c more, cs = c :: more ∧ isBlank c = false

/-- These characters end with one that is no blank. -/
def EndsSharp (cs : List Char) : Prop :=
  ∃ less c, cs = less ++ [c] ∧ isBlank c = false

theorem StartsSharp.append {cs : List Char} (h : StartsSharp cs) (rest : List Char) : StartsSharp (cs ++ rest) := by
  obtain ⟨c, more, rfl, hc⟩ := h
  exact ⟨c, more ++ rest, rfl, hc⟩

theorem EndsSharp.append {cs : List Char} (h : EndsSharp cs) (front : List Char) : EndsSharp (front ++ cs) := by
  obtain ⟨less, c, rfl, hc⟩ := h
  exact ⟨front ++ less, c, (List.append_assoc front less [c]).symm, hc⟩

/-- Blanks at the end do not count for the beginning. -/
theorem StartsSharp.of_append {cs gap : List Char} (h : StartsSharp (cs ++ gap)) (hcs : EndsSharp cs) :
    StartsSharp cs := by
  obtain ⟨less, d, rfl, hd⟩ := hcs
  cases less with
  | nil => exact ⟨d, [], rfl, hd⟩
  | cons c less =>
    obtain ⟨c, more, hcs, hc⟩ := h
    cases hcs
    exact ⟨c, less ++ [d], rfl, hc⟩

theorem endsSharp_token {t : Token} (h : t.IsProper) : EndsSharp t.chars :=
  (Token.blankFreeEnds h).2

theorem endsSharp_name {s : String} (h : IsName s) : EndsSharp s.toList :=
  endsSharp_token (t := .name s) h

theorem endsSharp_of_isDigits {ds : List Char} (h : ds ≠ [] ∧ ∀ d ∈ ds, d.isDigit = true) : EndsSharp ds :=
  (blankFreeEnds_of_forall h.1 fun d hd => isBlank_of_isDigit (h.2 d hd)).2

theorem DerivesArguments.endsSharp {args : List Syntax} {cs : List Char} (h : DerivesArguments args cs) :
    EndsSharp cs := by
  cases h with
  | @listed _ gap cs gap' => exact ⟨gap ++ '(' :: (cs ++ gap'), ')', by simp, by decide⟩

theorem DerivesAtom.startsSharp {t : Syntax} {core : List Char} (h : DerivesAtom t core) : StartsSharp core := by
  have hbegins := h.begins EndsAt.nil
  rw [List.append_nil] at hbegins
  cases hbegins with
  | @word s after hs =>
    obtain ⟨c, more, hc, hstart, -⟩ := hs
    rw [hc]
    exact ⟨c, more ++ after, rfl, isBlank_of_continuesName (continuesName_of_startsName hstart)⟩
  | opening => exact ⟨'(', _, rfl, by decide⟩
  | other _ hblank => exact ⟨_, _, rfl, hblank⟩

theorem DerivesAtom.endsSharp {t : Syntax} {core : List Char} (h : DerivesAtom t core) : EndsSharp core := by
  cases h with
  | null => exact endsSharp_name (isName_of_word (by simp))
  | @bool b => cases b <;> exact endsSharp_name (isName_of_word (by simp))
  | number hv =>
    obtain ⟨negative, ds, hds, ⟨rfl, -⟩ | ⟨places, hplaces, rfl, -⟩⟩ := hv
    · exact (endsSharp_of_isDigits hds).append _
    · exact ((endsSharp_of_isDigits hplaces).append ['.']).append _
  | text hs =>
    rcases hs with rfl | ⟨-, rfl⟩
    · exact endsSharp_token (t := .text _) trivial
    · exact ⟨_, '\"', rfl, by decide⟩
  | @date _ s gap =>
    have htext : EndsSharp (Token.chars (.text s)) := endsSharp_token (t := .text s) trivial
    exact (htext.append gap).append _
  | name hs => exact endsSharp_name hs.1
  | freeCall _ hargs => exact hargs.endsSharp.append _
  | @object _ ds cs gap => exact ⟨"new".toList ++ (ds ++ (cs ++ gap)), '\x7d', by simp, by decide⟩
  | @enclosed _ cs => exact ⟨'(' :: cs, ')', rfl, by decide⟩

/-- The blanks in front of an expression do not count. -/
theorem Derives.exists_startsSharp {n : Nat} {t : Syntax} {cs : List Char} (h : Derives n t cs) :
    ∃ gap core, cs = gap ++ core ∧ IsGap gap ∧ StartsSharp core ∧ Derives n t core := by
  cases h with
  | @atom _ _ core _ hatom hspaced =>
    obtain ⟨gap, gap', hgap, hgap', rfl⟩ := hspaced
    exact ⟨gap, core ++ gap', rfl, hgap, hatom.startsSharp.append gap',
      .atom hatom ⟨[], gap', List.forall_mem_nil _, hgap', rfl⟩⟩
  | @member _ _ _ _ ds htarget hfield =>
    have hpos := hfield.length_pos
    obtain ⟨gap, core, rfl, hgap, hstarts, htarget⟩ := htarget.exists_startsSharp
    exact ⟨gap, core ++ ds, List.append_assoc gap core ds, hgap, hstarts.append ds, .member htarget hfield⟩
  | @call _ _ _ _ _ ds es gap' htarget hmethod hargs hgap' =>
    have hpos := hmethod.length_pos
    obtain ⟨gap, core, rfl, hgap, hstarts, htarget⟩ := htarget.exists_startsSharp
    exact ⟨gap, core ++ (ds ++ (es ++ gap')), List.append_assoc gap core _, hgap, hstarts.append _,
      .call htarget hmethod hargs hgap'⟩
  | @binary _ op _ _ _ ds es hlevel hleft hop hright =>
    have hpos := length_pos_of_spaced_operator hop
    obtain ⟨gap, core, rfl, hgap, hstarts, hleft⟩ := hleft.exists_startsSharp
    exact ⟨gap, core ++ (ds ++ es), List.append_assoc gap core _, hgap, hstarts.append _,
      .binary hlevel hleft hop hright⟩
termination_by cs.length
decreasing_by all_goals subst_vars; simp only [List.length_append]; omega

/-- The blanks at the end of an expression do not count. -/
theorem Derives.exists_endsSharp {n : Nat} {t : Syntax} {cs : List Char} (h : Derives n t cs) :
    ∃ core gap, cs = core ++ gap ∧ IsGap gap ∧ EndsSharp core ∧ Derives n t core := by
  have hnone : IsGap [] := List.forall_mem_nil _
  cases h with
  | @atom _ _ core _ hatom hspaced =>
    obtain ⟨gap, gap', hgap, hgap', rfl⟩ := hspaced
    exact ⟨gap ++ core, gap', (List.append_assoc gap core gap').symm, hgap', hatom.endsSharp.append gap,
      .atom hatom ⟨gap, [], hgap, hnone, by rw [List.append_nil]⟩⟩
  | @member _ target field cs _ htarget hfield =>
    obtain ⟨hname, gap, -, hgap, ⟨gap', gap'', hgap', hgap'', rfl⟩, rfl⟩ := hfield
    have hfield : DerivesMemberName field (gap ++ '.' :: (gap' ++ field.toList)) :=
      ⟨hname, gap, _, hgap, ⟨gap', [], hgap', hnone, by rw [List.append_nil]⟩, rfl⟩
    have hends : EndsSharp (gap ++ '.' :: (gap' ++ field.toList)) :=
      (((endsSharp_name hname).append gap').append ['.']).append gap
    exact ⟨cs ++ (gap ++ '.' :: (gap' ++ field.toList)), gap'', by simp, hgap'', hends.append cs,
      .member htarget hfield⟩
  | @call _ _ _ _ cs ds es gap htarget hmethod hargs hgap =>
    exact ⟨cs ++ (ds ++ es), gap, by simp, hgap, (hargs.endsSharp.append ds).append cs,
      by simpa using Derives.call htarget hmethod hargs hnone⟩
  | @binary _ op _ _ cs ds es hlevel hleft hop hright =>
    have hpos := length_pos_of_spaced_operator hop
    obtain ⟨core, gap, rfl, hgap, hends, hright⟩ := hright.exists_endsSharp
    exact ⟨cs ++ (ds ++ core), gap, by simp, hgap, (hends.append ds).append cs, .binary hlevel hleft hop hright⟩
termination_by cs.length
decreasing_by subst_vars; simp only [List.length_append]; omega

end QueryChain.Grammar

namespace QueryChain

open Grammar

/-- What is derived is accepted as a text of its own, and the blanks around it are trimmed. -/
theorem Syntax.ofText_of_derives {text : String} {t : Syntax} (h : Derives 1 t text.toList) :
    Syntax.ofText text = .ok t := by
  obtain ⟨gap, core, htext, hgap, hstarts, hcore⟩ := h.exists_startsSharp
  obtain ⟨core, gap', rfl, hgap', hends, hcore⟩ := hcore.exists_endsSharp
  have hblank : ∀ {gap : List Char}, IsGap gap → ∀ c ∈ gap, Text.isBlank c = true :=
    fun h c hc => isBlank_of_isSpace (h c hc)
  rw [Syntax.ofText_eq_ok_iff, htext, trim_append_blanks (hblank hgap) (hblank hgap') ⟨hstarts.of_append hends, hends⟩]
  exact hcore

end QueryChain
