import QueryChain.Proofs.Grammar.Level

/-!
# Words, numbers and what is not read

Where a name or a number ends, and what the readers of names, expressions and functions do not read.

* `misses_expression`: no expression is read off what closes a list.
* `misses_lambda`, `noParameters_tokens`: what is not printed from a function is not read as one.
-/

namespace QueryChain.Grammar

open Reader

/-! ## Words and numbers -/

theorem Shows.noName {ks : List Token} {rest : List Char} (h : Shows ks rest) (hks : EndsName ks) :
    NoName rest :=
  Spells.noName h hks

theorem takes_identifier {s : String} {ks : List Token} (hks : EndsName ks) (d : Nat) :
    Takes (spaced identifier) s [.name s] ks d :=
  takes_spaced_token fun hs _ hrest => identifier_append hs (hrest.noName hks)

/-- What does not begin with a name is no name. -/
theorem misses_identifier {ts : List Token} {cs : List Char} (h : Spells ts cs)
    (hts : ∀ t us, ts = t :: us → ∀ s, t ≠ .name s) : Misses identifier cs := by
  have hfirst : ∀ c more, cs = c :: more → startsName c = false := by
    rintro c more rfl
    cases ts with
    | nil => rw [Spells] at h; cases h
    | cons t us =>
      obtain ⟨ht, rest, heq, -⟩ := h.cons
      cases t with
      | name s => exact absurd rfl (hts _ us rfl s)
      | int n =>
        cases hc : startsName c with
        | false => rfl
        | true =>
          cases hn : integerChars n with
          | nil => simp [integerChars, Calendar.digits_ne_nil] at hn
          | cons d more' =>
            rw [show (Token.int n).chars = integerChars n from rfl, hn] at heq
            cases heq
            rcases first_integerChars hn with rfl | hd
            · exact absurd hc (by decide +kernel)
            · rw [isDigit_of_startsName hc] at hd; cases hd
      | text s => cases heq; decide +kernel
      | op o => cases o <;> cases heq <;> decide +kernel
      | mark m => cases m <;> cases heq <;> decide +kernel
  obtain ⟨rest, h⟩ := identifier_of_not_startsName hfirst
  exact ⟨rest, .satisfy, h⟩

/-- A number ends before what may follow an operand, a point and a name included. -/
theorem Shows.noNumber {n : Nat} {ks : List Token} {rest : List Char} (h : Shows ks rest)
    (hks : Follow n ks) : NoNumber rest := by
  have hdigit : ∀ c : Char, isSpace c = true → c.isDigit = false := by
    intro c hc
    simp only [isSpace, Bool.or_eq_true, decide_eq_true_eq] at hc
    rcases hc with ((rfl | rfl) | rfl) | rfl <;> rfl
  refine ⟨Spells.head h hdigit ?_, ?_⟩
  · rintro t us rfl c more hc
    have hf := (hks t us rfl).1
    cases t with
    | name s => cases hf
    | int i => cases hf
    | text s => cases hf
    | op o => cases o <;> cases hc <;> rfl
    | mark m => cases m <;> cases hc <;> rfl
  · rintro more rfl
    rw [Shows, List.dropWhile_cons, show isSpace '.' = false from rfl] at h
    cases ks with
    | nil => rw [Spells] at h; cases h
    | cons k us =>
      obtain ⟨-, rest, heq, hrest, -⟩ := h.cons
      obtain ⟨hf, hpoint⟩ := hks k us rfl
      cases k with
      | name s => cases hf
      | int i => cases hf
      | text s => cases hf
      | op o => cases o <;> cases heq
      | mark m =>
        cases m <;> cases heq
        obtain ⟨s, vs, rfl⟩ := hpoint rfl
        refine Spells.head hrest hdigit ?_
        rintro t ws ht c more hc
        cases ht
        obtain ⟨hs, -⟩ := hrest
        exact isDigit_of_startsName (first_name hs hc)

/-! ## Expressions that are missed -/

theorem Misses.wordOperand {expression : Reader Syntax} {cs : List Char} (h : Misses identifier cs) :
    Misses (Grammar.wordOperand expression) cs := by
  obtain ⟨rest, e, h⟩ := h
  exact ⟨rest, e, by rw [Grammar.wordOperand, h]⟩

/-- No expression is read off what closes a list. -/
theorem misses_expression {ks : List Token} (hks : Closes ks) (d : Nat) {cs : List Char}
    (h : Shows ks cs) : Misses (expression d) cs := by
  cases d with
  | zero => exact ⟨cs, .satisfy, rfl⟩
  | succ d =>
    rw [expression_succ]
    apply misses_levelReader
    apply misses_spaced h
    intro cs h
    have hident : Misses identifier cs := by
      apply misses_identifier h
      obtain ⟨m, us, rfl, -⟩ := hks
      rintro t vs heq s rfl
      cases heq
    obtain ⟨m, us, rfl, hm⟩ := hks
    obtain ⟨-, rest, rfl, -⟩ := h.cons
    have hnumber : Misses numberOperand (Mark.chars m ++ rest) := by
      rcases hm with rfl | rfl <;> exact Misses.bind ⟨_, _, rfl⟩
    have htext : Misses textOperand (Mark.chars m ++ rest) := by
      rcases hm with rfl | rfl <;> exact Misses.bind ⟨_, _, rfl⟩
    have hparen : Misses (parenthesized (expression d)) (Mark.chars m ++ rest) := by
      rcases hm with rfl | rfl <;> exact Misses.bind ⟨_, _, rfl⟩
    exact hnumber.orElse (htext.orElse (hparen.orElse hident.wordOperand))

/-! ## Functions -/

/-- A list of tokens that is not read as the beginning of a function. -/
def NoParameters (ts : List Token) : Prop :=
  (∀ s u us, ts = .name s :: u :: us → u.endsName = true ∧ u ≠ .mark .arrow ∧ u ≠ .mark .equals) ∧
    ∀ s u us, ts = .mark .opening :: .name s :: u :: us → u.prolongs = true

theorem Token.endsName_of_prolongs {t : Token} (h : t.prolongs = true) : t.endsName = true := by
  cases t with
  | name s => cases h
  | int n => cases h
  | _ => rfl

/-- Only an arrow is read as one. -/
theorem misses_arrow {ts : List Token} {cs : List Char} (h : Spells ts cs) (hends : EndsName ts)
    (hts : ∀ t us, ts = t :: us → t ≠ .mark .arrow ∧ t ≠ .mark .equals) : Misses (word "=>") cs := by
  cases ts with
  | nil => rw [Spells] at h; subst h; exact ⟨[], .tag, rfl⟩
  | cons t us =>
    obtain ⟨-, rest, rfl, -⟩ := h.cons
    obtain ⟨harrow, hequals⟩ := hts t us rfl
    have he := hends t us rfl
    cases t with
    | name s => cases he
    | int i => cases he
    | text s => exact ⟨_, .tag, rfl⟩
    | op o => cases o <;> exact ⟨_, .tag, rfl⟩
    | mark m =>
      cases m with
      | arrow => exact absurd rfl harrow
      | equals => exact absurd rfl hequals
      | _ => exact ⟨_, .tag, rfl⟩

/-- Parameters in parentheses end neither with what prolongs an operand nor without a name. -/
theorem misses_parameterList {ts : List Token} {cs : List Char} (h : Shows ts cs)
    (hts : ∀ s u us, ts = .name s :: u :: us → u.prolongs = true) :
    Misses (do let ps ← separated1 comma (spaced identifier); char ')'; pure ps) cs := by
  by_cases hname : ∃ s us, ts = .name s :: us
  · obtain ⟨s, us, rfl⟩ := hname
    have hends : EndsName us := by
      rintro u vs rfl
      exact Token.endsName_of_prolongs (hts s u vs rfl)
    have hnot : ∀ c, c = ',' ∨ c = ')' → NotFirst c us := by
      rintro c hc u vs rfl _ more hmore
      have := hts s u vs rfl
      cases u with
      | name s => cases this
      | int i => cases this
      | text s => rcases hc with rfl | rfl <;> cases hmore
      | op o => rcases hc with rfl | rfl <;> cases o <;> cases hmore
      | mark m => rcases hc with rfl | rfl <;> cases m <;> cases hmore <;> cases this
    obtain ⟨rest, hread, hrest, -⟩ := takes_identifier hends cs.length cs (Nat.le_refl _) h
    obtain ⟨after, e, hcomma⟩ := misses_comma hrest.shows (hnot ',' (Or.inl rfl))
    obtain ⟨after', e', hclose⟩ := misses_char hrest (hnot ')' (Or.inr rfl))
    have hmore : moreUpTo comma (spaced identifier) rest.length rest = .read [] rest := by
      cases rest with
      | nil => rfl
      | cons c more => rw [List.length_cons, moreUpTo, hcomma]
    have hlist : separated1 comma (spaced identifier) cs = .read [s] rest := by
      rw [separated1, hread]
      simp only [hmore]
    exact ⟨after', e', by rw [bind_of_read hlist]; exact bind_of_miss hclose⟩
  · have hitem : Misses (spaced identifier) cs := by
      apply misses_spaced h
      intro cs h
      apply misses_identifier h
      rintro t us rfl s rfl
      exact hname ⟨s, us, rfl⟩
    obtain ⟨after, e, hitem⟩ := hitem
    exact Misses.bind ⟨after, e, by rw [separated1, hitem]⟩

/-- What begins with neither a name nor a parenthesis has no parameters. -/
theorem notFirst_opening {ts : List Token} (hname : ∀ s us, ts ≠ .name s :: us)
    (hopening : ∀ us, ts ≠ .mark .opening :: us) : NotFirst '(' ts := by
  intro t us heq _ more hmore
  cases t with
  | name s => exact hname s us heq
  | int n => rcases first_integerChars hmore with h | h <;> exact absurd h (by decide)
  | text s => cases hmore
  | op o => cases o <;> cases hmore
  | mark m =>
    cases m with
    | opening => exact hopening us heq
    | _ => cases hmore

/-- Where no parameters stand before an arrow, no function is read. -/
theorem misses_lambda {ts : List Token} (hts : NoParameters ts) {cs : List Char} (h : Shows ts cs)
    (expression : Reader Syntax) : Misses (lambda expression) cs := by
  obtain ⟨hname, hopening⟩ := hts
  by_cases hfirst : ∃ s us, ts = .name s :: us
  · -- one name is read for a parameter, and no arrow stands after it
    obtain ⟨s, us, rfl⟩ := hfirst
    have hends : EndsName us := by
      rintro t vs rfl
      exact (hname s t vs rfl).1
    have hparameters : Takes (spaced parameters) [s] [.name s] us cs.length := by
      apply takes_spaced_token
      intro hs rest hrest
      exact orElse_of_read (bind_of_read (identifier_append hs (hrest.noName hends)))
    obtain ⟨rest, hread, hrest, -⟩ := hparameters cs (Nat.le_refl _) h
    obtain ⟨after, e, harrow⟩ := misses_arrow hrest hends (by rintro t vs rfl; exact (hname s t vs rfl).2)
    exact ⟨after, e, by rw [lambda, bind_of_read hread]; exact bind_of_miss harrow⟩
  · refine (misses_spaced h ?_).bind
    intro cs h
    have hident : Misses identifier cs := by
      apply misses_identifier h
      rintro t us rfl s rfl
      exact hfirst ⟨s, us, rfl⟩
    refine hident.bind.orElse ?_
    by_cases hparen : ∃ us, ts = .mark .opening :: us
    · obtain ⟨us, rfl⟩ := hparen
      obtain ⟨-, rest, rfl, hrest, -⟩ := h.cons
      have hopen : char '(' (Token.chars (.mark .opening) ++ rest) = .read () rest := rfl
      obtain ⟨after, e, hlist⟩ := misses_parameterList hrest (by rintro s u vs rfl; exact hopening s u vs rfl)
      exact ⟨after, e, by rw [bind_of_read hopen]; exact hlist⟩
    · refine (misses_char h (notFirst_opening ?_ ?_)).bind
      · intro s us heq
        exact hfirst ⟨s, us, heq⟩
      · intro us heq
        exact hparen ⟨us, heq⟩

/-- What is printed of a tree that is no function is not read as the beginning of one. -/
theorem noParameters_tokens {t : Syntax} (h : t.IsWritable false) {ks : List Token} (hks : Follow 1 ks) :
    NoParameters (t.tokens 1 ++ ks) := by
  constructor
  · intro s u us heq
    rcases t.after_name h 1 heq with hu | ⟨vs, rfl⟩
    · refine ⟨Token.endsName_of_prolongs hu, ?_, ?_⟩ <;> rintro rfl <;> cases hu
    · have hf := (hks u vs rfl).1
      refine ⟨hks.endsName u vs rfl, ?_, ?_⟩ <;> rintro rfl <;> cases hf
  · intro s u us heq
    exact t.after_opening_name h 1 heq

end QueryChain.Grammar
