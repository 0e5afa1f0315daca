import Mathlib.Data.List.Infix
import QueryChain.Proofs.Lowering.Run

/-!
# Texts like a pattern

`Contains`, `StartsWith` and `EndsWith` look for a known text either in a value at hand or in a column, where `LIKE`
compares it with a pattern. In a pattern `%` stands for any characters and `_` for any one; a text that is looked for
goes into its pattern as it is. So the two agree on every value exactly if the text has neither of these characters in
it. What is found in a value is like the pattern in any case.

* `readQuoted_doubleQuotes`: the literal of a text denotes the text.
* `isLike_append`: a text is like two patterns in a row if it is one text like each in a row.
* `Affix.holds_iff`, `Affix.isLike_pattern`: the test for a text, and its pattern, both as a cut of the value.
* `Affix.agrees_iff`: when the pattern and the test agree.
* `run_callMethod_test`: all of it, for a method on a row and the same method on a value.
-/

namespace QueryChain

/-! ## Literals -/

/-- The text after an opening quote, up to the closing quote that ends the literal. A doubled quote is one quote of the
text. -/
def readQuoted : List Char → Option (List Char)
  | [] => none
  | [c] => if c = '\'' then some [] else none
  | c :: d :: rest =>
    if c = '\'' then
      if d = '\'' then (readQuoted rest).map ('\'' :: ·) else none
    else (readQuoted (d :: rest)).map (c :: ·)

/-- The text that an SQL literal denotes, if it is one of a text. -/
def textOfLiteral (sql : String) : Option String :=
  match sql.toList with
  | '\'' :: rest => (readQuoted rest).map String.ofList
  | _ => none

theorem readQuoted_cons {c : Char} (hc : c ≠ '\'') (cs : List Char) :
    readQuoted (c :: cs) = (readQuoted cs).map (c :: ·) := by
  cases cs <;> simp [readQuoted, hc]

/-- Doubled quotes before the closing one are quotes of the text. -/
theorem readQuoted_doubleQuotes (cs : List Char) : readQuoted (doubleQuotes cs ++ ['\'']) = some cs := by
  induction cs with
  | nil => rfl
  | cons c rest ih =>
    by_cases hc : c = '\''
    · subst hc
      simp only [doubleQuotes, if_true, List.cons_append, readQuoted, ih, Option.map_some]
    · simp only [doubleQuotes, hc, if_false, List.cons_append]
      rw [readQuoted_cons hc, ih, Option.map_some]

/-- The literal of a text denotes the text. -/
theorem textOfLiteral_quoteText (s : String) : textOfLiteral (quoteText s) = some s := by
  simp only [textOfLiteral, quoteText, String.toList_ofList, List.cons_append, readQuoted_doubleQuotes,
    Option.map_some, String.ofList_toList]

/-! ## Patterns -/

/-- Whether a text is like a pattern, case by case and without an escape character: `%` stands for any characters, `_`
for any one, and every other character for itself. -/
def isLike : (pattern text : List Char) → Bool
  | [], text => text.isEmpty
  | p :: pattern, text =>
    if p = '%' then text.tails.any (isLike pattern)
    else match text with
      | [] => false
      | c :: rest => (p = '_' || p = c) && isLike pattern rest

/-- Characters that stand for others in a pattern. -/
def isWildcard (c : Char) : Bool :=
  c = '%' || c = '_'

theorem isLike_percent {pattern text : List Char} :
    isLike ('%' :: pattern) text = true ↔ ∃ before rest, text = before ++ rest ∧ isLike pattern rest = true := by
  simp only [isLike, if_true, List.any_eq_true, List.mem_tails]
  constructor
  · rintro ⟨rest, ⟨before, rfl⟩, h⟩
    exact ⟨before, rest, rfl, h⟩
  · rintro ⟨before, rest, rfl, h⟩
    exact ⟨rest, ⟨before, rfl⟩, h⟩

theorem isLike_cons {p : Char} (hp : p ≠ '%') {pattern text : List Char} :
    isLike (p :: pattern) text = true ↔
      ∃ c rest, text = c :: rest ∧ (p = '_' ∨ p = c) ∧ isLike pattern rest = true := by
  cases text with
  | nil => simp [isLike, hp]
  | cons c rest =>
    simp only [isLike, hp, if_false, Bool.and_eq_true, Bool.or_eq_true, decide_eq_true_eq]
    constructor
    · rintro ⟨hc, h⟩
      exact ⟨c, rest, rfl, hc, h⟩
    · rintro ⟨_, _, ⟨⟩, hc, h⟩
      exact ⟨hc, h⟩

/-- A text is like two patterns in a row if it is one text like each in a row. -/
theorem isLike_append {pattern more text : List Char} :
    isLike (pattern ++ more) text = true ↔
      ∃ first second, text = first ++ second ∧ isLike pattern first = true ∧ isLike more second = true := by
  induction pattern generalizing text with
  | nil =>
    simp only [List.nil_append]
    constructor
    · intro h
      exact ⟨[], text, rfl, rfl, h⟩
    · rintro ⟨first, second, rfl, hfirst, h⟩
      obtain rfl := List.isEmpty_iff.mp hfirst
      exact h
  | cons p pattern ih =>
    rw [List.cons_append]
    by_cases hp : p = '%'
    · subst hp
      simp only [isLike_percent, ih]
      constructor
      · rintro ⟨before, _, rfl, first, second, rfl, hfirst, hsecond⟩
        exact ⟨before ++ first, second, by rw [List.append_assoc], ⟨before, first, rfl, hfirst⟩, hsecond⟩
      · rintro ⟨_, second, rfl, ⟨before, first, rfl, hfirst⟩, hsecond⟩
        exact ⟨before, first ++ second, by rw [List.append_assoc], first, second, rfl, hfirst, hsecond⟩
    · simp only [isLike_cons hp, ih]
      constructor
      · rintro ⟨c, _, rfl, hc, first, second, rfl, hfirst, hsecond⟩
        exact ⟨c :: first, second, rfl, ⟨c, first, rfl, hc, hfirst⟩, hsecond⟩
      · rintro ⟨_, second, rfl, ⟨c, first, rfl, hc, hfirst⟩, hsecond⟩
        exact ⟨c, first ++ second, rfl, hc, first, second, rfl, hfirst, hsecond⟩

/-- Every text is like itself as a pattern. -/
theorem isLike_self (cs : List Char) : isLike cs cs = true := by
  induction cs with
  | nil => rfl
  | cons c cs ih =>
    by_cases hc : c = '%'
    · subst hc
      exact isLike_percent.mpr ⟨['%'], cs, rfl, ih⟩
    · exact (isLike_cons hc).mpr ⟨c, cs, rfl, Or.inr rfl, ih⟩

/-- A pattern without wildcards is a text, and only that text is like it. -/
theorem isLike_iff_eq {pattern text : List Char} (h : ∀ p ∈ pattern, isWildcard p = false) :
    isLike pattern text = true ↔ text = pattern := by
  induction pattern generalizing text with
  | nil => exact List.isEmpty_iff
  | cons p pattern ih =>
    obtain ⟨hp, hrest⟩ := List.forall_mem_cons.mp h
    have hplain : p ≠ '%' ∧ p ≠ '_' := by simpa [isWildcard] using hp
    simp only [isLike_cons hplain.1, ih hrest, hplain.2, false_or]
    constructor
    · rintro ⟨_, _, rfl, rfl, rfl⟩
      rfl
    · rintro rfl
      exact ⟨p, pattern, rfl, rfl, rfl⟩

/-- With a wildcard at some place, another text is like a pattern too: it has another character there. -/
theorem exists_isLike_ne {pattern : List Char} (h : ∃ p ∈ pattern, isWildcard p = true) :
    ∃ text, text.length = pattern.length ∧ text ≠ pattern ∧ isLike pattern text = true := by
  obtain ⟨p, hp, hwild⟩ := h
  obtain ⟨before, after, rfl⟩ := List.append_of_mem hp
  have hne : p ≠ 'a' := by
    rintro rfl
    cases hwild
  refine ⟨before ++ 'a' :: after, by simp, fun heq => hne ?_, ?_⟩
  · exact (List.cons.inj (List.append_cancel_left heq)).1.symm
  · refine isLike_append.mpr ⟨before, 'a' :: after, rfl, isLike_self before, ?_⟩
    have hafter := isLike_self after
    rcases (by simpa [isWildcard] using hwild : p = '%' ∨ p = '_') with rfl | rfl
    · exact isLike_percent.mpr ⟨['a'], after, rfl, hafter⟩
    · exact (isLike_cons (by decide)).mpr ⟨'a', after, rfl, Or.inl rfl, hafter⟩

/-! ## Tests and their patterns -/

namespace Affix

/-- What may stand before the text that is looked for, and after it. -/
def Allows (a : Affix) (before after : List Char) : Prop :=
  (a = .atStart → before = []) ∧ (a = .atEnd → after = [])

/-- A test holds if the value can be cut into the text that is looked for and what may stand around it. -/
theorem holds_iff {a : Affix} {needle text : String} :
    a.holds needle text = true ↔
      ∃ before after, text.toList = before ++ needle.toList ++ after ∧ a.Allows before after := by
  cases a with
  | anywhere => simp only [holds, isInfixOf_iff, Allows, reduceCtorEq, false_imp_iff, and_self, and_true]
  | atStart =>
    simp only [holds, List.isPrefixOf_iff_prefix, Allows, reduceCtorEq, false_imp_iff, and_true, forall_const]
    constructor
    · rintro ⟨after, h⟩
      exact ⟨[], after, h.symm, rfl⟩
    · rintro ⟨_, after, h, rfl⟩
      exact ⟨after, h.symm⟩
  | atEnd =>
    simp only [holds, List.isSuffixOf_iff_suffix, Allows, reduceCtorEq, false_imp_iff, true_and, forall_const]
    constructor
    · rintro ⟨before, h⟩
      exact ⟨before, [], by rw [List.append_nil, h], rfl⟩
    · rintro ⟨before, _, h, rfl⟩
      exact ⟨before, by rw [h, List.append_nil]⟩

/-- Any characters are like `%`. -/
theorem isLike_any (cs : List Char) : isLike ['%'] cs = true :=
  isLike_percent.mpr ⟨cs, [], by rw [List.append_nil], rfl⟩

theorem isLike_before {a : Affix} {cs : List Char} :
    isLike a.before.toList cs = true ↔ (a = .atStart → cs = []) := by
  cases a with
  | anywhere | atEnd => exact iff_of_true (isLike_any cs) nofun
  | atStart => exact List.isEmpty_iff.trans (imp_iff_right rfl).symm

theorem isLike_after {a : Affix} {cs : List Char} :
    isLike a.after.toList cs = true ↔ (a = .atEnd → cs = []) := by
  cases a with
  | anywhere | atStart => exact iff_of_true (isLike_any cs) nofun
  | atEnd => exact List.isEmpty_iff.trans (imp_iff_right rfl).symm

/-- A value is like the pattern of a test if it can be cut into a part like the text that is looked for and what may
stand around it. -/
theorem isLike_pattern {a : Affix} {needle : String} {text : List Char} :
    isLike (a.pattern needle).toList text = true ↔
      ∃ before middle after, text = before ++ middle ++ after ∧ isLike needle.toList middle = true ∧
        a.Allows before after := by
  simp only [pattern, String.toList_append, isLike_append, isLike_before, isLike_after, Allows]
  constructor
  · rintro ⟨_, after, rfl, ⟨before, middle, rfl, hbefore, hmiddle⟩, hafter⟩
    exact ⟨before, middle, after, rfl, hmiddle, hbefore, hafter⟩
  · rintro ⟨before, middle, after, rfl, hmiddle, hbefore, hafter⟩
    exact ⟨before ++ middle, after, rfl, ⟨before, middle, rfl, hbefore, hmiddle⟩, hafter⟩

/-- What a test finds in a value makes the value like the pattern. -/
theorem isLike_pattern_of_holds {a : Affix} {needle text : String} (h : a.holds needle text = true) :
    isLike (a.pattern needle).toList text.toList = true := by
  obtain ⟨before, after, htext, hallows⟩ := holds_iff.mp h
  exact isLike_pattern.mpr ⟨before, needle.toList, after, htext, isLike_self _, hallows⟩

/-- A test and its pattern agree on every value exactly if the text that is looked for has no wildcards. -/
theorem agrees_iff {a : Affix} {needle : String} :
    (∀ text : String, isLike (a.pattern needle).toList text.toList = true ↔ a.holds needle text = true) ↔
      ∀ c ∈ needle.toList, isWildcard c = false := by
  constructor
  · intro hagrees
    by_contra hplain
    have hwild : ∃ c ∈ needle.toList, isWildcard c = true := by
      simpa only [not_forall, exists_prop, Bool.not_eq_false] using hplain
    obtain ⟨text, hlength, hne, hlike⟩ := exists_isLike_ne hwild
    -- this text is like the pattern and not longer than what is looked for, which it would have to hold
    have hpattern : isLike (a.pattern needle).toList text = true :=
      isLike_pattern.mpr ⟨[], text, [], by simp, hlike, fun _ => rfl, fun _ => rfl⟩
    obtain ⟨before, after, htext, -⟩ :=
      holds_iff.mp ((hagrees (String.ofList text)).mp (by rwa [String.toList_ofList]))
    rw [String.toList_ofList] at htext
    have hlengths := congrArg List.length htext
    simp only [List.length_append, hlength] at hlengths
    obtain rfl : before = [] := List.eq_nil_of_length_eq_zero (by omega)
    obtain rfl : after = [] := List.eq_nil_of_length_eq_zero (by omega)
    exact hne (by simpa using htext)
  · intro hplain text
    rw [isLike_pattern, holds_iff]
    constructor
    · rintro ⟨before, middle, after, htext, hmiddle, hallows⟩
      obtain rfl := (isLike_iff_eq hplain).mp hmiddle
      exact ⟨before, after, htext, hallows⟩
    · rintro ⟨before, after, htext, hallows⟩
      exact ⟨before, needle.toList, after, htext, isLike_self _, hallows⟩

end Affix

/-- A test of a known text on a known text. -/
theorem Value.invoke_test {name : String} {a : Affix} (h : Method.ofName name = some (.test a)) (text needle : String) :
    (Value.text text).invoke name [.text needle] = .ok (.bool (a.holds needle text)) := by
  unfold Value.invoke
  rw [h]
  rfl

namespace Lowering

open Lower

/-- Looking for a known text in a column compares the column with a literal, and the literal denotes a pattern. Every
value in which the method finds the text is like the pattern. That is so for these values only, exactly if there are
no wildcards in the text. -/
theorem run_callMethod_test {name : String} {a : Affix} (h : Method.ofName name = some (.test a)) (t : Term)
    (needle : String) (o : Options) (c : Clauses) :
    ∃ (result : Term) (literal pattern : String),
      ExceptT.run (callMethod name (.term t) [.scalar (.text needle)]) c = (.ok (.term result), c) ∧
        result.render o = "(" ++ t.render o ++ " LIKE " ++ literal ++ ")" ∧
        textOfLiteral literal = some pattern ∧
        (∀ text : String, (Value.text text).invoke name [.text needle] = .ok (.bool true) →
          isLike pattern.toList text.toList = true) ∧
        ((∀ text : String, isLike pattern.toList text.toList = true ↔
            (Value.text text).invoke name [.text needle] = .ok (.bool true)) ↔
          ∀ ch ∈ needle.toList, isWildcard ch = false) := by
  have hinvoke (text : String) : (Value.text text).invoke name [.text needle] = .ok (.bool true) ↔
      a.holds needle text = true := by
    rw [Value.invoke_test h, Except.ok.injEq, Value.bool.injEq]
  refine ⟨.likeText t a needle, quoteText (a.pattern needle), a.pattern needle, ?_, rfl, textOfLiteral_quoteText _,
    fun text => ?_, ?_⟩
  · have hterm : methodTerm name t [.scalar (.text needle)] = pure (.likeText t a needle) := by
      unfold methodTerm
      rw [h]
      rfl
    have hscalar : ExceptT.run (scalarTerm (.term t)) c = (.ok t, c) := rfl
    simp only [callMethod, Row.asScalar]
    rw [run_bind_of_ok hscalar, hterm]
    rfl
  · rw [hinvoke]
    exact Affix.isLike_pattern_of_holds
  · simp only [hinvoke]
    exact Affix.agrees_iff

/-- `Contains` finds `50%` in `at 50% off`, and the value is like the pattern. -/
theorem run_callMethod_test_fifty :
    Method.ofName "Contains" = some (.test .anywhere) ∧
      ∃ (result : Term) (literal pattern : String),
        ExceptT.run (callMethod "Contains" (.term (.column 0 "full_name")) [.scalar (.text "50%")]) Clauses.empty =
            (.ok (.term result), Clauses.empty) ∧
          result.render .standard = "(t0.full_name LIKE " ++ literal ++ ")" ∧
          textOfLiteral literal = some pattern ∧
          isLike pattern.toList "at 50% off".toList = true := by
  have h : Method.ofName "Contains" = some (.test .anywhere) := by decide
  obtain ⟨result, literal, pattern, hrun, hrender, hliteral, hlike, -⟩ :=
    run_callMethod_test h (.column 0 "full_name") "50%" .standard Clauses.empty
  exact ⟨h, result, literal, pattern, hrun, hrender, hliteral, hlike _ rfl⟩

/-- `500` is like the pattern that looks for `50%`, though `Contains` does not find that in it. -/
theorem finds_unlike :
    ¬ ∀ (name : String) (a : Affix) (needle text : String) (pattern : String),
      Method.ofName name = some (.test a) → textOfLiteral (quoteText (a.pattern needle)) = some pattern →
        (isLike pattern.toList text.toList = true ↔
          (Value.text text).invoke name [.text needle] = .ok (.bool true)) := by
  intro h
  have hfinds := (h "Contains" .anywhere "50%" "500" "%50%%" (by decide) (by decide)).mp (by decide)
  have hmisses : (Value.text "500").invoke "Contains" [.text "50%"] = .ok (.bool false) := rfl
  rw [hmisses] at hfinds
  cases hfinds

end Lowering

end QueryChain
