import QueryChain.Proofs.Grammar.Miss

/-!
# Operands, arguments and functions

How the readers of argument lists, new objects, functions and operands take the tokens of a printed tree, given that
the trees in it are read back.

* `takes_arguments`, `takes_objectMembers`: lists in parentheses and braces.
* `takes_lambda`, `takes_argument`: an argument is a function or an expression.
* `takes_word`: the operands that begin with a word.
-/

namespace QueryChain.Grammar

open Reader Calendar

/-! ## Arguments and members -/

/-- The reader of arguments takes the tokens of each of these. -/
def ArgumentsReadBack (args : List Syntax) : Prop :=
  ∀ d, TakesItems ((lambda (expression (d + 1))).orElse (expression (d + 1)))
    (Syntax.argumentTokens args) args d

/-- The reader of members takes the tokens of each of these. -/
def MembersReadBack (members : List (String × Syntax)) : Prop :=
  ∀ d, TakesItems (objectMember (expression (d + 1))) (Syntax.memberTokens members) members d

theorem noParameters_of_closes {ks : List Token} (h : Closes ks) : NoParameters ks := by
  obtain ⟨m, us, rfl, hm⟩ := h
  constructor
  · intro s u vs heq
    cases heq
  · intro s u vs heq
    rcases hm with rfl | rfl <;> cases heq

/-- Arguments in parentheses are taken one by one. -/
theorem takes_arguments {args : List Syntax} (h : ArgumentsReadBack args) (ks : List Token) (d : Nat) :
    Takes (arguments (expression d)) args
      (.mark .opening :: (listed (Syntax.argumentTokens args) ++ [.mark .closing])) ks d := by
  intro cs hd hcs
  rw [List.cons_append, List.append_assoc] at hcs
  have hle := length_dropWhile_isSpace cs
  obtain ⟨-, rest, heq, hrest, hlt⟩ := Spells.cons hcs
  cases d with
  | zero => omega
  | succ d =>
    have hcloses : Closes ([Token.mark .closing] ++ ks) := ⟨.closing, ks, rfl, Or.inl rfl⟩
    obtain ⟨mid, hlist, hmid, hle'⟩ := takes_separated (h d) hcloses
      (fun cs hcs => (misses_lambda (noParameters_of_closes hcloses) hcs _).orElse
        (misses_expression hcloses _ hcs)) (by omega : rest.length ≤ d) hrest
    have hclose : Takes (spaced (char ')')) () [.mark .closing] ks mid.length :=
      takes_spaced_token fun _ _ _ => rfl
    obtain ⟨last, hread, hlast, hlt'⟩ := hclose mid (Nat.le_refl _) hmid
    refine ⟨last, ?_, hlast, by omega⟩
    have hspaces : spaces cs = .read () (Token.chars (.mark .opening) ++ rest) := by rw [← heq]; rfl
    have hopen : char '(' (Token.chars (.mark .opening) ++ rest) = .read () rest := rfl
    rw [arguments, bind_of_read hspaces, bind_of_read hopen, bind_of_read hlist, bind_of_read hread,
      pure_apply]

/-- A member of a new object is taken with its name. -/
theorem takes_objectMember {label : String} {value : Syntax} (hvalue : ReadsBackAt 1 value)
    (hstart : StartsOperand (value.tokens 1)) {ks : List Token} (hks : Follow 1 ks) (d : Nat) :
    Takes (objectMember (expression (d + 1))) (label, value)
      (.name label :: .mark .equals :: value.tokens 1) ks d := by
  intro cs hd hcs
  have hends : EndsName (.mark .equals :: (value.tokens 1 ++ ks)) := by
    intro t us heq
    cases heq
    rfl
  obtain ⟨mid, hname, hmid, hlt⟩ := takes_identifier hends cs.length cs (Nat.le_refl _) hcs
  obtain ⟨-, rest, rfl, hrest, hlt'⟩ := hmid.cons
  obtain ⟨last, hread, hlast, hlt''⟩ := hvalue d ks hks rest (by omega) hrest
  have hequals : char '=' (Token.chars (.mark .equals) ++ rest) = .read () rest := rfl
  have habsent : absent (char '=') rest = .read () rest := by
    have hne := hrest.first_ne (hstart.append ks).notFirst_equals (by decide)
    cases rest with
    | nil => rfl
    | cons c more =>
      have hc : c ≠ '=' := by rintro rfl; exact hne more rfl
      simp [absent, char, hc]
  refine ⟨last, ?_, hlast, by omega⟩
  rw [objectMember]
  apply orElse_of_read
  rw [bind_of_read hname, bind_of_read hequals, bind_of_read habsent, expression_succ, bind_of_read hread,
    pure_apply]

/-- The members of a new object, in braces, are taken one by one. -/
theorem takes_objectMembers {members : List (String × Syntax)} (h : MembersReadBack members)
    (ks : List Token) (d : Nat) :
    Takes (objectMembers (expression d)) members
      (.mark .openBrace :: (listed (Syntax.memberTokens members) ++ [.mark .closeBrace])) ks d := by
  intro cs hd hcs
  rw [List.cons_append, List.append_assoc] at hcs
  have hopen : Takes (spaced (char '\x7b')) () [.mark .openBrace]
      (listed (Syntax.memberTokens members) ++ ([Token.mark .closeBrace] ++ ks)) cs.length :=
    takes_spaced_token fun _ _ _ => rfl
  obtain ⟨rest, hread, hrest, hlt⟩ := hopen cs (Nat.le_refl _) hcs
  cases d with
  | zero => omega
  | succ d =>
    have hcloses : Closes ([Token.mark .closeBrace] ++ ks) := ⟨.closeBrace, ks, rfl, Or.inr rfl⟩
    have hmiss : ∀ cs, Shows ([Token.mark .closeBrace] ++ ks) cs →
        Misses (objectMember (expression (d + 1))) cs := by
      intro cs hcs
      have hname : Misses (spaced identifier) cs := by
        apply misses_spaced hcs
        intro cs hcs
        apply misses_identifier hcs
        rintro t us heq s rfl
        cases heq
      obtain ⟨after, e, hvalue⟩ := misses_expression hcloses (d + 1) hcs
      exact hname.bind.orElse ⟨after, e, by rw [convert, hvalue]⟩
    obtain ⟨mid, hlist, hmid, hle⟩ :=
      takes_separated (h d) hcloses hmiss (by omega : rest.length ≤ d) hrest.shows
    have hclose : Takes (spaced (char '\x7d')) () [.mark .closeBrace] ks mid.length :=
      takes_spaced_token fun _ _ _ => rfl
    obtain ⟨last, hread', hlast, hlt'⟩ := hclose mid (Nat.le_refl _) hmid
    refine ⟨last, ?_, hlast, by omega⟩
    rw [objectMembers, bind_of_read hread, bind_of_read hlist, bind_of_read hread', pure_apply]

/-! ## Functions -/

theorem takesItems_names (ps : List String) (d : Nat) :
    TakesItems (spaced identifier) (ps.map fun p => [.name p]) ps d := by
  induction ps with
  | nil => exact .nil
  | cons p ps ih => exact .cons (fun ks hks => takes_identifier hks.endsName d) ih

/-- The parameters of a function are taken before the arrow, with parentheses unless there is one. -/
theorem takes_parameters {ps : List String} (hne : ps ≠ []) (ks : List Token) (d : Nat) :
    Takes (spaced parameters) ps (parameterTokens ps) (.mark .arrow :: ks) d := by
  have hends : EndsName (.mark .arrow :: ks) := by
    intro t us heq
    cases heq
    rfl
  by_cases hone : ps.length = 1
  · obtain ⟨p, rfl⟩ := List.length_eq_one_iff.1 hone
    exact takes_spaced_token fun hs rest hrest =>
      orElse_of_read (bind_of_read (identifier_append hs (hrest.noName hends)))
  · have htokens : parameterTokens ps =
        .mark .opening :: (listed (ps.map fun p => [.name p]) ++ [.mark .closing]) := by
      rw [parameterTokens, decide_eq_true hone, enclose]
      rfl
    rw [htokens]
    apply takes_spaced
    intro cs hd hcs
    rw [List.cons_append, List.append_assoc] at hcs
    obtain ⟨-, rest, rfl, hrest, hlt⟩ := hcs.cons
    have hcloses : Closes ([Token.mark .closing] ++ .mark .arrow :: ks) :=
      ⟨.closing, _, rfl, Or.inl rfl⟩
    obtain ⟨mid, hlist, hmid, hlt'⟩ := takes_separated1 (takesItems_names ps rest.length)
      (by simpa using hne) hcloses rest (Nat.le_refl _) hrest
    obtain ⟨-, last, rfl, hlast, hlt''⟩ := hmid.cons
    have hopen : char '(' (Token.chars (.mark .opening) ++ rest) = .read () rest := rfl
    have hclose : char ')' (Token.chars (.mark .closing) ++ last) = .read () last := rfl
    refine ⟨last, ?_, hlast, by omega⟩
    have hident : Misses identifier (Token.chars (.mark .opening) ++ rest) := by
      apply misses_identifier hcs
      rintro t us heq s rfl
      cases heq
    rw [parameters, hident.bind.orElse_eq, bind_of_read hopen, bind_of_read hlist, bind_of_read hclose,
      pure_apply]

/-- A function is taken as an argument. -/
theorem takes_lambda {ps : List String} (hne : ps ≠ []) {body : Syntax} (hbody : ReadsBackAt 1 body)
    {ks : List Token} (hks : Follow 1 ks) (d : Nat) :
    Takes ((lambda (expression (d + 1))).orElse (expression (d + 1))) (.lambda ps body)
      ((Syntax.lambda ps body).tokens 1) ks d := by
  intro cs hd hcs
  rw [Syntax.tokens, List.append_assoc, List.cons_append] at hcs
  obtain ⟨mid, hps, hmid, hlt⟩ := takes_parameters hne _ d cs hd hcs
  obtain ⟨-, rest, rfl, hrest, hlt'⟩ := hmid.cons
  obtain ⟨last, hread, hlast, hlt''⟩ := hbody d ks hks rest (by omega) hrest
  have harrow : word "=>" (Token.chars (.mark .arrow) ++ rest) = .read () rest := word_append rfl rest
  refine ⟨last, orElse_of_read ?_, hlast, by omega⟩
  rw [lambda, bind_of_read hps, bind_of_read harrow, expression_succ, bind_of_read hread, pure_apply]

/-- An argument that is no function is taken as an expression. -/
theorem takes_argument {t : Syntax} (h : t.IsWritable false) (ht : ReadsBackAt 1 t) {ks : List Token}
    (hks : Follow 1 ks) (d : Nat) :
    Takes ((lambda (expression (d + 1))).orElse (expression (d + 1))) t (t.tokens 1) ks d := by
  intro cs hd hcs
  rw [(misses_lambda (noParameters_tokens h hks) hcs _).orElse_eq, expression_succ]
  exact ht d ks hks cs hd hcs

/-! ## Operands before their members -/

/-- On an operand before its members these are tried in turn. -/
def bareOperand (expression : Reader Syntax) : Reader Syntax :=
  numberOperand.orElse <| textOperand.orElse <| (parenthesized expression).orElse (wordOperand expression)

theorem bareOperand_of_name {s : String} (hs : IsName s) (expression : Reader Syntax) (rest : List Char) :
    bareOperand expression (s.toList ++ rest) = wordOperand expression (s.toList ++ rest) := by
  obtain ⟨c, more, hc, hstart, -⟩ := hs
  have hne : ∀ p ∈ punctuation, c ≠ p := by
    rintro p hp rfl
    rw [not_startsName_of_punctuation hp] at hstart
    cases hstart
  rw [hc, List.cons_append]
  have hnumber : Misses numberOperand (c :: (more ++ rest)) :=
    Misses.bind ⟨_, _, number_of_not_digit (hne '-' (by decide)) (isDigit_of_startsName hstart)⟩
  have htext : Misses textOperand (c :: (more ++ rest)) :=
    Misses.bind ⟨_, _, quoted_of_not_quote (hne '\'' (by decide)) (hne '\"' (by decide))⟩
  have hparen : Misses (parenthesized expression) (c :: (more ++ rest)) :=
    Misses.bind ⟨_, .char, by simp [char, hne '(' (by decide)]; rfl⟩
  rw [bareOperand, hnumber.orElse_eq, htext.orElse_eq, hparen.orElse_eq]

/-- What is read for a word is read for an operand that begins with it. -/
theorem takes_word (s : String) (ts : List Token) {a : Syntax} {e : Reader Syntax} {ks : List Token} {d : Nat}
    (hname : EndsName (ts ++ ks))
    (h : ∀ start cs, identifier start = .read s cs → cs.length < d → Shows (ts ++ ks) cs →
      ∃ rest, wordOperand e start = .read a rest ∧ Shows ks rest ∧ rest.length ≤ cs.length) :
    Takes (primary e) a (.name s :: ts) ks d := by
  apply takes_spaced
  intro cs hd hcs
  obtain ⟨hs, mid, rfl, hmid, hlt⟩ := hcs.cons
  obtain ⟨rest, hread, hrest, hle⟩ :=
    h _ mid (identifier_append hs (hmid.noName hname)) (by omega) hmid
  exact ⟨rest, by rw [← hread]; exact bareOperand_of_name hs e mid, hrest, by omega⟩

theorem takes_int {n : Int64} {ks : List Token} (hks : Follow 7 ks) (e : Reader Syntax) (d : Nat) :
    Takes (primary e) (.literal (.int n)) [.int n] ks d := by
  apply takes_spaced_token
  intro _ rest hrest
  exact orElse_of_read (bind_of_read (number_append n (hrest.noNumber hks)))

theorem takes_text {s : String} {ks : List Token} (hks : Follow 7 ks) (e : Reader Syntax) (d : Nat) :
    Takes (primary e) (.literal (.text s)) [.text s] ks d := by
  apply takes_spaced_token
  intro _ rest hrest
  have hquote : NoQuote rest :=
    hrest.first_ne (hks.notFirst (Or.inr (Or.inl rfl))) (by decide)
  have hnumber : Misses numberOperand (Token.chars (.text s) ++ rest) :=
    Misses.bind ⟨_, _, number_of_not_digit (by decide) (by decide)⟩
  rw [hnumber.orElse_eq]
  exact orElse_of_read (bind_of_read (quoted_append s hquote))

/-- A word that is a literal is read for it. -/
theorem takes_literalWord {v : Value} {ks : List Token} (hv : v = .null ∨ ∃ b, v = .bool b)
    (hks : Follow 7 ks) (e : Reader Syntax) (d : Nat) :
    Takes (primary e) (.literal v) v.tokens ks d := by
  have hword : ∀ s, (∀ start cs, identifier start = .read s cs →
      wordOperand e start = .read (.literal v) cs) → Takes (primary e) (.literal v) [.name s] ks d := by
    intro s hs
    apply takes_word s [] hks.endsName
    intro start cs hread _ hcs
    exact ⟨cs, hs start cs hread, hcs, Nat.le_refl _⟩
  rcases hv with rfl | ⟨b, rfl⟩
  · apply hword "null"
    intro start cs hread
    rw [wordOperand, hread]
    simp
  · cases b
    · apply hword "false"
      intro start cs hread
      rw [wordOperand, hread]
      simp
    · apply hword "true"
      intro start cs hread
      rw [wordOperand, hread]
      simp

/-- A date is read from the text after the word. -/
theorem takes_date {t : Moment} (ht : t.LeapEndsMinute ∧ t.fraction = 0) {ks : List Token} (hks : Follow 7 ks)
    (e : Reader Syntax) (d : Nat) :
    Takes (primary e) (.literal (.dateTime t)) (Value.dateTime t).tokens ks d := by
  apply takes_word "date" [.text t.write]
  · intro u us heq
    cases heq
    rfl
  intro start cs hread _ hcs
  obtain ⟨-, rest, heq, hrest, hlt⟩ := Spells.cons hcs
  have hle := length_dropWhile_isSpace cs
  have hquote : NoQuote rest :=
    hrest.first_ne (hks.notFirst (Or.inr (Or.inl rfl))) (by decide)
  have hahead : quoteAhead cs = true := by
    rw [quoteAhead, heq]
    rfl
  have hspaces : spaces cs = .read () (Token.chars (.text t.write) ++ rest) := by rw [← heq]; rfl
  refine ⟨rest, ?_, hrest, by omega⟩
  rw [wordOperand, hread]
  simp only [String.reduceEq, if_false, hahead, and_self, if_true]
  rw [dateText, bind_of_read hspaces, bind_of_read (quoted_append t.write hquote),
    Moment.readLiteral_write ht.1 ht.2]
  rfl

/-- A name that no text follows is a call or a name. -/
theorem wordOperand_of_free {s : String} (hs : IsFreeName s) {e : Reader Syntax} {start cs : List Char}
    (hread : identifier start = .read s cs) (hquote : quoteAhead cs = false) :
    wordOperand e start = callOrName e s cs := by
  obtain ⟨-, htrue, hfalse, hnull, hnew⟩ := hs
  rw [wordOperand, hread]
  simp [htrue, hfalse, hnull, hnew, hquote]

theorem quoteAhead_eq_false {ts : List Token} {cs : List Char} (h : Shows ts cs)
    (hts : NotFirst '\'' ts) : quoteAhead cs = false := by
  rw [quoteAhead]
  split
  · rename_i more heq
    rw [Shows, heq] at h
    cases ts with
    | nil => rw [Spells] at h; cases h
    | cons t us =>
      obtain ⟨ht, rest, heq, -⟩ := h.cons
      obtain ⟨⟨c, ds, hc, -⟩, -⟩ := Token.blankFreeEnds ht
      rw [hc] at heq
      cases heq
      exact absurd hc (hts t us rfl ht ds)
  · rfl

theorem takes_name {s : String} (hs : IsFreeName s) {ks : List Token} (hks : Follow 7 ks)
    (e : Reader Syntax) (d : Nat) : Takes (primary e) (.name s) [.name s] ks d := by
  apply takes_word s [] hks.endsName
  intro start cs hread _ hcs
  refine ⟨cs, ?_, hcs, Nat.le_refl _⟩
  rw [wordOperand_of_free hs hread (quoteAhead_eq_false hcs (hks.notFirst (Or.inr (Or.inl rfl))))]
  have hopen : Misses (char '(') (cs.dropWhile isSpace) :=
    misses_char hcs (hks.notFirst (Or.inl rfl))
  have hspaces : spaces cs = .read () (cs.dropWhile isSpace) := rfl
  obtain ⟨after, e', hargs⟩ : Misses (arguments e) cs := by
    obtain ⟨after, e', hopen⟩ := hopen
    exact ⟨after, e', by rw [arguments, bind_of_read hspaces]; exact bind_of_miss hopen⟩
  rw [callOrName, hargs]

theorem takes_freeCall {s : String} (hs : IsFreeName s) {args : List Syntax}
    (h : ArgumentsReadBack args) (ks : List Token) (d : Nat) :
    Takes (primary (expression d)) (.freeCall s args) ((Syntax.freeCall s args).tokens 6) ks d := by
  rw [Syntax.tokens]
  apply takes_word _ _
  · intro t us heq
    cases heq
    rfl
  intro start cs hread hlt hcs
  obtain ⟨rest, hargs, hrest, hlt'⟩ := takes_arguments h ks d cs (by omega) hcs
  refine ⟨rest, ?_, hrest.shows, by omega⟩
  rw [wordOperand_of_free hs hread (quoteAhead_eq_false hcs ?_), callOrName, hargs]
  intro t us heq _ more hmore
  cases heq
  cases hmore

theorem takes_object {members : List (String × Syntax)} (h : MembersReadBack members)
    (ks : List Token) (d : Nat) :
    Takes (primary (expression d)) (.object members) ((Syntax.object members).tokens 6) ks d := by
  rw [Syntax.tokens]
  apply takes_word _ _
  · intro t us heq
    cases heq
    rfl
  intro start cs hread hlt hcs
  obtain ⟨rest, hmembers, hrest, hlt'⟩ := takes_objectMembers h ks d cs (by omega) hcs
  refine ⟨rest, ?_, hrest.shows, by omega⟩
  rw [wordOperand, hread]
  simp only [String.reduceEq, if_false, if_true]
  rw [bind_of_read hmembers, pure_apply]

/-- A tree in parentheses is read as an expression. -/
theorem takes_parenthesized {t : Syntax} (ht : ReadsBackAt 1 t) (ks : List Token) (d : Nat) :
    Takes (primary (expression d)) t (.mark .opening :: (t.tokens 1 ++ [.mark .closing])) ks d := by
  apply takes_spaced
  intro cs hd hcs
  rw [List.cons_append, List.append_assoc] at hcs
  obtain ⟨-, rest, rfl, hrest, hlt⟩ := hcs.cons
  cases d with
  | zero => omega
  | succ d =>
    obtain ⟨mid, hread, hmid, hlt'⟩ :=
      ht d _ (follow_mark (Or.inl rfl) ks) rest (by omega) hrest
    obtain ⟨-, last, rfl, hlast, hlt''⟩ := hmid.cons
    refine ⟨last, ?_, hlast, by omega⟩
    have hnumber : Misses numberOperand (Token.chars (.mark .opening) ++ rest) := Misses.bind ⟨_, _, rfl⟩
    have htext : Misses textOperand (Token.chars (.mark .opening) ++ rest) := Misses.bind ⟨_, _, rfl⟩
    have hopen : char '(' (Token.chars (.mark .opening) ++ rest) = .read () rest := rfl
    have hclose : char ')' (Token.chars (.mark .closing) ++ last) = .read () last := rfl
    rw [hnumber.orElse_eq, htext.orElse_eq]
    apply orElse_of_read
    rw [parenthesized, bind_of_read hopen, expression_succ, bind_of_read hread, bind_of_read hclose,
      pure_apply]

end QueryChain.Grammar
