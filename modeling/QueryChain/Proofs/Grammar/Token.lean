import Mathlib.Data.List.TakeWhile
import QueryChain.Grammar.Query
import QueryChain.Proofs.Calendar.Written
import QueryChain.Value.Literal

/-!
# Tokens and the texts that spell them

A query text is a list of tokens with blanks between them. `Spells ts cs` says that `cs` begins with the
first token of `ts` and that, blanks apart, nothing but `ts` is in it; the readers of names, numbers and texts
find a token again where the next one cannot prolong it.

* `spells_layOut`: tokens laid out with any blanks between them are spelled.
* `Spells.trim`: removing the blanks at the ends keeps the tokens.
* `identifier_append`, `number_append`, `quoted_append`: the reader of a class of tokens reads its token.
* `number_numeral`: the reader of numbers reads digits with any zeros in front, and any number of them.
-/

namespace QueryChain.Grammar

open Text Decimal

/-! ## Tokens -/

/-- A punctuation mark. -/
inductive Mark where
  | opening
  | closing
  | comma
  | point
  | openBrace
  | closeBrace
  | equals
  | arrow
deriving DecidableEq

/-- The characters of a mark. -/
def Mark.chars : Mark → List Char
  | .opening => ['(']
  | .closing => [')']
  | .comma => [',']
  | .point => ['.']
  | .openBrace => ['\x7b']
  | .closeBrace => ['\x7d']
  | .equals => ['=']
  | .arrow => ['=', '>']

/-- A token of a query text. -/
inductive Token where
  /-- A name or a word such as `new`. -/
  | name (s : String)
  | int (n : Int64)
  /-- A text between single quotes. -/
  | text (s : String)
  | op (o : BinaryOp)
  | mark (m : Mark)

/-- The digits of an integer, after a minus if it is negative. -/
def integerChars (n : Int64) : List Char :=
  (if n.toInt < 0 then ['-'] else []) ++ digits n.toInt.natAbs

/-- The characters of a token. -/
def Token.chars : Token → List Char
  | .name s => s.toList
  | .int n => integerChars n
  | .text s => '\'' :: doubleQuotes s.toList ++ ['\'']
  | .op o => o.token.toList
  | .mark m => m.chars

/-- A token that the grammar has: a name is one. -/
def Token.IsProper : Token → Prop
  | .name s => IsName s
  | _ => True

/-- Tokens with blanks before, between and after them; `gap i` stands before the token with number `i`. -/
def layOut (gap : Nat → List Char) : Nat → List Token → List Char
  | i, [] => gap i
  | i, t :: ts => gap i ++ (t.chars ++ layOut gap (i + 1) ts)

/-- The characters are these tokens, with any blanks after each of them. -/
def Spells : List Token → List Char → Prop
  | [], cs => cs = []
  | t :: ts, cs => t.IsProper ∧ ∃ rest, cs = t.chars ++ rest ∧ Spells ts (rest.dropWhile Reader.isSpace)

/-! ## First and last characters -/

theorem isBlank_of_isSpace {c : Char} (h : Reader.isSpace c = true) : isBlank c = true := by
  simp only [Reader.isSpace, Bool.or_eq_true, decide_eq_true_eq] at h
  rcases h with ((rfl | rfl) | rfl) | rfl <;> rfl

theorem isSpace_of_not_isBlank {c : Char} (h : isBlank c = false) : Reader.isSpace c = false := by
  cases hs : Reader.isSpace c with
  | false => rfl
  | true => rw [isBlank_of_isSpace hs] at h; cases h

/-- Two boundaries at the front decide everything below the second. -/
theorem within_cons_cons (a b n : Nat) (rest : List Nat) :
    within (a :: b :: rest) n = (decide (a ≤ n) && (decide (n < b) || within rest n)) := by
  unfold within
  by_cases ha : a ≤ n
  · by_cases hb : b ≤ n
    · have hpar : ((rest.takeWhile (· ≤ n)).length + 1 + 1) % 2 = (rest.takeWhile (· ≤ n)).length % 2 := by
        omega
      simp [ha, hb, Nat.not_lt.2 hb, hpar]
    · simp [ha, hb, Nat.lt_of_not_le hb]
  · simp [ha]

/-- The code points of all blanks. -/
def blankPoints : List Nat :=
  [0x9, 0xa, 0xb, 0xc, 0xd, 0x20, 0x85, 0xa0, 0x1680, 0x2000, 0x2001, 0x2002, 0x2003, 0x2004, 0x2005,
    0x2006, 0x2007, 0x2008, 0x2009, 0x200a, 0x2028, 0x2029, 0x202f, 0x205f, 0x3000]

theorem mem_blankPoints {n : Nat} (h : within blankBoundaries n = true) : n ∈ blankPoints := by
  simp only [blankBoundaries, within_cons_cons, within_nil, Bool.and_eq_true, Bool.or_eq_true,
    decide_eq_true_eq, Bool.false_eq_true, or_false] at h
  simp only [blankPoints, List.mem_cons, List.not_mem_nil, or_false]
  omega

/-- No blank goes on in a name. -/
theorem isBlank_of_continuesName {c : Char} (h : continuesName c = true) : isBlank c = false := by
  have hpoints : ∀ n ∈ blankPoints, continuesName (Char.ofNat n) = false := by decide +kernel
  cases hb : isBlank c with
  | false => rfl
  | true =>
    have hc := hpoints c.toNat (mem_blankPoints hb)
    rw [Char.ofNat_toNat, h] at hc
    cases hc

theorem continuesName_of_startsName {c : Char} (h : startsName c = true) : continuesName c = true := by
  simp only [startsName, continuesName, isLetterOrNumeral, Bool.or_eq_true] at h ⊢
  exact h.imp_left Or.inl

/-- A list that is not empty has a last member. -/
theorem exists_eq_append_singleton {α : Type} {l : List α} (h : l ≠ []) :
    ∃ less a, l = less ++ [a] ∧ a ∈ l :=
  ⟨l.dropLast, l.getLast h, (List.dropLast_concat_getLast h).symm, List.getLast_mem h⟩

/-- The first and the last of these characters are no blanks. -/
def BlankFreeEnds (cs : List Char) : Prop :=
  (∃ c more, cs = c :: more ∧ isBlank c = false) ∧ ∃ less c, cs = less ++ [c] ∧ isBlank c = false

theorem blankFreeEnds_of_forall {cs : List Char} (hne : cs ≠ [])
    (h : ∀ c ∈ cs, isBlank c = false) : BlankFreeEnds cs := by
  refine ⟨?_, ?_⟩
  · cases cs with
    | nil => exact absurd rfl hne
    | cons c more => exact ⟨c, more, rfl, h c List.mem_cons_self⟩
  · obtain ⟨less, c, hcs, hc⟩ := exists_eq_append_singleton hne
    exact ⟨less, c, hcs, h c hc⟩

theorem blankFreeEnds_of_all {cs : List Char} (hne : cs ≠ []) (h : cs.all (!isBlank ·) = true) :
    BlankFreeEnds cs := by
  refine blankFreeEnds_of_forall hne fun c hc => ?_
  simpa using List.all_eq_true.mp h c hc

/-- A token begins and ends with a character that is no blank. -/
theorem Token.blankFreeEnds {t : Token} (h : t.IsProper) : BlankFreeEnds t.chars := by
  cases t with
  | name s =>
    obtain ⟨c, more, hs, hc, hmore⟩ := h
    apply blankFreeEnds_of_forall
    · simp [Token.chars, hs]
    · intro d hd
      rw [Token.chars, hs] at hd
      rcases List.mem_cons.1 hd with rfl | hd
      · exact isBlank_of_continuesName (continuesName_of_startsName hc)
      · exact isBlank_of_continuesName (hmore d hd)
  | int n =>
    apply blankFreeEnds_of_forall
    · simp [Token.chars, integerChars, Calendar.digits_ne_nil]
    · intro d hd
      rcases List.mem_append.1 hd with hd | hd
      · split at hd
        · rw [List.mem_singleton.1 hd]; rfl
        · cases hd
      · exact Calendar.isBlank_of_isDigit (Calendar.isDigit_of_mem_digits hd)
  | text s => exact ⟨⟨'\'', _, rfl, rfl⟩, ⟨'\'' :: doubleQuotes s.toList, '\'', rfl, rfl⟩⟩
  | op o => cases o <;> exact blankFreeEnds_of_all (by decide) (by decide)
  | mark m => cases m <;> exact blankFreeEnds_of_all (by decide) (by decide)

/-! ## Spelling -/

theorem dropWhile_isSpace_append {gap cs : List Char} (hg : ∀ c ∈ gap, Reader.isSpace c = true)
    (hcs : ∀ c more, cs = c :: more → isBlank c = false) :
    (gap ++ cs).dropWhile Reader.isSpace = cs := by
  rw [List.dropWhile_append_of_pos hg]
  cases cs with
  | nil => rfl
  | cons c more => simp [isSpace_of_not_isBlank (hcs c more rfl)]

/-- What spells tokens does not begin with a blank. -/
theorem Spells.not_blank {ts : List Token} {cs : List Char} (h : Spells ts cs) :
    ∀ c more, cs = c :: more → isBlank c = false := by
  intro c more hcs
  cases ts with
  | nil => rw [Spells, hcs] at h; cases h
  | cons t ts =>
    obtain ⟨ht, rest, rfl, -⟩ := h
    obtain ⟨⟨d, ds, hd, hblank⟩, -⟩ := Token.blankFreeEnds ht
    rw [hd] at hcs
    cases hcs
    exact hblank

theorem Spells.dropWhile_eq {ts : List Token} {cs : List Char} (h : Spells ts cs) :
    cs.dropWhile Reader.isSpace = cs := by
  have hnone : ∀ c ∈ ([] : List Char), Reader.isSpace c = true := by simp
  exact dropWhile_isSpace_append hnone h.not_blank

/-- Tokens that are laid out with blanks between them are spelled, once the blanks in front are skipped. -/
theorem spells_layOut {gap : Nat → List Char} (hgap : ∀ i, ∀ c ∈ gap i, Reader.isSpace c = true)
    {ts : List Token} (hts : ∀ t ∈ ts, t.IsProper) (i : Nat) :
    Spells ts ((layOut gap i ts).dropWhile Reader.isSpace) := by
  induction ts generalizing i with
  | nil =>
    have hend : ∀ c more, ([] : List Char) = c :: more → isBlank c = false := by intro c more h; cases h
    have h := dropWhile_isSpace_append (hgap i) hend
    simpa [Spells, layOut] using h
  | cons t ts ih =>
    have ht := hts t List.mem_cons_self
    have hskip : (layOut gap i (t :: ts)).dropWhile Reader.isSpace = t.chars ++ layOut gap (i + 1) ts := by
      apply dropWhile_isSpace_append (hgap i)
      intro c more hcs
      obtain ⟨⟨d, ds, hd, hblank⟩, -⟩ := Token.blankFreeEnds ht
      rw [hd] at hcs
      cases hcs
      exact hblank
    rw [hskip]
    exact ⟨ht, _, rfl, ih (fun t h => hts t (List.mem_cons_of_mem _ h)) (i + 1)⟩

/-! ## Removing blanks at the ends -/

theorem trimEnd_append {xs cs : List Char} (h : trimEnd cs ≠ []) :
    trimEnd (xs ++ cs) = xs ++ trimEnd cs := by
  have hne : cs.reverse.dropWhile isBlank ≠ [] := by
    intro hd
    exact h (by rw [trimEnd, hd]; rfl)
  unfold trimEnd
  rw [List.reverse_append, List.dropWhile_append]
  simp [hne]

theorem trimEnd_append_blanks {cs gap : List Char} (hg : ∀ c ∈ gap, isBlank c = true)
    (hcs : BlankFreeEnds cs) : trimEnd (cs ++ gap) = cs := by
  obtain ⟨-, less, c, rfl, hc⟩ := hcs
  unfold trimEnd
  rw [List.reverse_append, List.dropWhile_append_of_pos (by simpa using hg)]
  simp [hc]

/-- Of characters between blanks those are left that neither begin nor end with one. -/
theorem trim_append_blanks {before cs after : List Char} (hbefore : ∀ c ∈ before, isBlank c = true)
    (hafter : ∀ c ∈ after, isBlank c = true) (hcs : BlankFreeEnds cs) : trim (before ++ (cs ++ after)) = cs := by
  have hend := trimEnd_append_blanks hafter hcs
  obtain ⟨⟨c, more, rfl, hc⟩, -⟩ := hcs
  rw [trim, trimStart, List.dropWhile_append_of_pos hbefore, List.cons_append,
    List.dropWhile_cons_of_neg (by simp [hc]), ← List.cons_append, hend]

/-- Removing the blanks at the end keeps the tokens. -/
theorem Spells.trimEnd {ts : List Token} {cs : List Char} (h : Spells ts cs) :
    Spells ts (Text.trimEnd cs) := by
  induction ts generalizing cs with
  | nil => rw [Spells] at h; subst h; rfl
  | cons t ts ih =>
    obtain ⟨ht, rest, rfl, hts⟩ := h
    have hends := Token.blankFreeEnds ht
    have hgap : ∀ c ∈ rest.takeWhile Reader.isSpace, Reader.isSpace c = true :=
      fun c hc => List.mem_takeWhile_imp hc
    have hsplit := List.takeWhile_append_dropWhile (p := Reader.isSpace) (l := rest)
    cases ts with
    | nil =>
      rw [Spells] at hts
      rw [hts, List.append_nil] at hsplit
      rw [← hsplit, trimEnd_append_blanks (fun c hc => isBlank_of_isSpace (hgap c hc)) hends]
      exact ⟨ht, [], by simp, rfl⟩
    | cons u us =>
      have ihu := ih hts
      have hne : Text.trimEnd (rest.dropWhile Reader.isSpace) ≠ [] := by
        obtain ⟨hu, more, hmore, -⟩ := ihu
        obtain ⟨⟨d, ds, hd, -⟩, -⟩ := Token.blankFreeEnds hu
        rw [hmore, hd]
        simp
      rw [← hsplit, trimEnd_append (by rw [trimEnd_append hne]; simp [hne]), trimEnd_append hne]
      refine ⟨ht, _, rfl, ?_⟩
      rw [dropWhile_isSpace_append hgap ihu.not_blank]
      exact ihu

/-- Removing the blanks at both ends leaves the tokens. -/
theorem Spells.trim {ts : List Token} {cs : List Char}
    (h : Spells ts (cs.dropWhile Reader.isSpace)) : Spells ts (Text.trim cs) := by
  have hsplit := List.takeWhile_append_dropWhile (p := Reader.isSpace) (l := cs)
  have hstart : trimStart cs = cs.dropWhile Reader.isSpace := by
    rw [trimStart, ← hsplit,
      List.dropWhile_append_of_pos fun c hc => isBlank_of_isSpace (List.mem_takeWhile_imp hc), hsplit]
    cases hcs : cs.dropWhile Reader.isSpace with
    | nil => rfl
    | cons c more => simp [h.not_blank c more hcs]
  rw [Text.trim, hstart]
  exact h.trimEnd

/-! ## Readers one after another -/

section Steps

variable {α β : Type} {p : Reader α} {f : α → Reader β} {s rest : List Char} {a : α} {e : Expected}

theorem bind_of_read (h : p s = .read a rest) : (p >>= f) s = f a rest := by
  show Reader.bind p f s = f a rest
  rw [Reader.bind, h]

theorem bind_of_miss (h : p s = .miss rest e) : (p >>= f) s = .miss rest e := by
  show Reader.bind p f s = .miss rest e
  rw [Reader.bind, h]

theorem pure_apply (a : α) (s : List Char) : (pure a : Reader α) s = .read a s := rfl

theorem orElse_of_read {q : Reader α} (h : p s = .read a rest) : p.orElse q s = .read a rest := by
  rw [Reader.orElse, h]

theorem orElse_of_miss {q : Reader α} (h : p s = .miss rest e) : p.orElse q s = q s := by
  rw [Reader.orElse, h]

/-- Blanks around what is read are skipped. -/
theorem spaced_of_read (h : p (s.dropWhile Reader.isSpace) = .read a rest) :
    Reader.spaced p s = .read a (rest.dropWhile Reader.isSpace) := by
  show (p >>= fun a => Reader.spaces >>= fun _ => pure a) (s.dropWhile Reader.isSpace) = _
  rw [bind_of_read h]
  rfl

theorem spaced_of_miss (h : p (s.dropWhile Reader.isSpace) = .miss rest e) :
    Reader.spaced p s = .miss rest e := by
  show (p >>= fun a => Reader.spaces >>= fun _ => pure a) (s.dropWhile Reader.isSpace) = _
  exact bind_of_miss h

/-- The reader reads these things one after another, each of them with a character. -/
def ReadsOn (p : Reader α) : List α → List Char → List Char → Prop
  | [], s, rest => s = rest
  | a :: as, s, rest => ∃ mid, p s = .read a mid ∧ mid.length < s.length ∧ ReadsOn p as mid rest

theorem ReadsOn.snoc {as : List α} {mid : List Char} (h : ReadsOn p as s mid)
    (ha : p mid = .read a rest) (hlt : rest.length < mid.length) : ReadsOn p (as ++ [a]) s rest := by
  induction as generalizing s with
  | nil =>
    cases h
    exact ⟨rest, ha, hlt, rfl⟩
  | cons b as ih =>
    obtain ⟨next, hread, hnext, hmore⟩ := h
    exact ⟨next, hread, hnext, ih hmore⟩

theorem manyUpTo_of_readsOn {as : List α} {fuel : Nat} {after : List Char}
    (h : ReadsOn p as s rest) (hend : p rest = .miss after e) (hfuel : s.length ≤ fuel) :
    Reader.manyUpTo p fuel s = .read as rest := by
  induction as generalizing s fuel with
  | nil =>
    cases h
    rw [Reader.manyUpTo, hend]
  | cons a as ih =>
    obtain ⟨mid, hread, hlt, hmore⟩ := h
    rw [Reader.manyUpTo, hread]
    cases fuel with
    | zero => omega
    | succ fuel => simp only [hlt, if_true, ih hmore (by omega : mid.length ≤ fuel)]

/-- A repetition reads on to the first miss. -/
theorem many_of_readsOn {as : List α} {after : List Char} (h : ReadsOn p as s rest)
    (hend : p rest = .miss after e) : p.many s = .read as rest :=
  manyUpTo_of_readsOn h hend (Nat.le_refl _)

end Steps

/-! ## Reading tokens -/

/-- A token that a name does not go on with. -/
def Token.endsName : Token → Bool
  | .text _ | .op _ | .mark _ => true
  | .name _ | .int _ => false

/-- A text that a name does not go on with. -/
def NoName (cs : List Char) : Prop :=
  ∀ c more, cs = c :: more → continuesName c = false

/-- The first character after a token is a blank or begins the next token. -/
theorem Spells.head {ts : List Token} {rest : List Char}
    (h : Spells ts (rest.dropWhile Reader.isSpace)) {P : Char → Prop}
    (hblank : ∀ c, Reader.isSpace c = true → P c)
    (htoken : ∀ t us, ts = t :: us → ∀ c more, t.chars = c :: more → P c) :
    ∀ c more, rest = c :: more → P c := by
  rintro c more rfl
  cases hc : Reader.isSpace c with
  | true => exact hblank c hc
  | false =>
    rw [List.dropWhile_cons, hc] at h
    cases ts with
    | nil => rw [Spells] at h; cases h
    | cons t us =>
      obtain ⟨ht, after, heq, -⟩ := h
      obtain ⟨⟨d, ds, hd, -⟩, -⟩ := Token.blankFreeEnds ht
      rw [hd] at heq
      cases heq
      exact htoken t us rfl c ds hd

theorem not_continuesName_of_isSpace {c : Char} (h : Reader.isSpace c = true) :
    continuesName c = false := by
  cases hc : continuesName c with
  | false => rfl
  | true =>
    have := isBlank_of_continuesName hc
    rw [isBlank_of_isSpace h] at this
    cases this

theorem not_continuesName_of_endsName {t : Token} (ht : t.endsName = true) {c : Char}
    {more : List Char} (hc : t.chars = c :: more) : continuesName c = false := by
  cases t with
  | name s => cases ht
  | int n => cases ht
  | text s => cases hc; rfl
  | op o => cases o <;> cases hc <;> rfl
  | mark m => cases m <;> cases hc <;> rfl

/-- Next comes nothing, or a token that a name does not go on with. -/
def EndsName (ts : List Token) : Prop :=
  ∀ t us, ts = t :: us → t.endsName = true

theorem Spells.noName {ts : List Token} {rest : List Char}
    (h : Spells ts (rest.dropWhile Reader.isSpace)) (hts : EndsName ts) : NoName rest :=
  h.head (fun _ => not_continuesName_of_isSpace)
    fun t us ht _ _ => not_continuesName_of_endsName (hts t us ht)

/-- A name is read where the text after it does not go on with it. -/
theorem identifier_append {s : String} (hs : IsName s) {rest : List Char} (hr : NoName rest) :
    identifier (s.toList ++ rest) = .read s rest := by
  obtain ⟨c, more, hcs, hc, hmore⟩ := hs
  have htake : (more ++ rest).takeWhile continuesName = more := by
    rw [List.takeWhile_append_of_pos hmore]
    cases rest with
    | nil => simp
    | cons d after => simp [hr d after rfl]
  have hdrop : (more ++ rest).dropWhile continuesName = rest := by
    rw [List.dropWhile_append_of_pos hmore]
    cases rest with
    | nil => rfl
    | cons d after => simp [hr d after rfl]
  have hfirst : Reader.satisfy startsName (c :: (more ++ rest)) = .read c (more ++ rest) := by
    simp [Reader.satisfy, hc]
  have hs : String.ofList (c :: more) = s := by rw [← hcs, String.ofList_toList]
  rw [identifier, hcs, List.cons_append, bind_of_read hfirst]
  show Outcome.read (String.ofList (c :: (more ++ rest).takeWhile continuesName))
    ((more ++ rest).dropWhile continuesName) = .read s rest
  rw [htake, hdrop, hs]

/-- What begins with a character that begins no name is no name. -/
theorem identifier_of_not_startsName {cs : List Char}
    (h : ∀ c more, cs = c :: more → startsName c = false) :
    ∃ rest, identifier cs = .miss rest .satisfy := by
  cases cs with
  | nil => exact ⟨[], rfl⟩
  | cons c more =>
    refine ⟨c :: more, bind_of_miss ?_⟩
    simp [Reader.satisfy, h c more rfl]

/-- A text that goes on neither with a digit nor with a point and a digit. -/
def NoNumber (cs : List Char) : Prop :=
  Calendar.NoDigit cs ∧ ∀ more, cs = '.' :: more → Calendar.NoDigit more

theorem integerOf_digits (n : Int64) : integerOf (decide (n.toInt < 0)) (digits n.toInt.natAbs) = n := by
  have hlow : -9223372036854775808 ≤ n.toInt := n.le_toInt
  have hhigh : n.toInt < 9223372036854775808 := n.toInt_lt
  have hvalue : (if decide (n.toInt < 0) = true then -(n.toInt.natAbs : Int) else n.toInt.natAbs) =
      n.toInt := by
    by_cases h : n.toInt < 0
    · rw [if_pos (decide_eq_true h)]; omega
    · rw [if_neg (by simpa using h)]; omega
  simp only [integerOf, Calendar.natOfDigits_digits, hvalue]
  rw [if_pos ⟨hlow, by omega⟩, Int64.ofInt_toInt]

/-- One digit or more. -/
def IsDigits (ds : List Char) : Prop :=
  ds ≠ [] ∧ ∀ d ∈ ds, d.isDigit = true

/-- Digits after an optional minus, with any zeros in front. -/
def numeral (negative : Bool) (ds : List Char) : List Char :=
  (if negative then ['-'] else []) ++ ds

theorem isDigits_digits (n : Nat) : IsDigits (digits n) :=
  ⟨Calendar.digits_ne_nil n, fun _ => Calendar.isDigit_of_mem_digits⟩

theorem digitRun_append {ds : List Char} (hds : IsDigits ds) {rest : List Char} (hr : Calendar.NoDigit rest) :
    digitRun (ds ++ rest) = .read ds rest := by
  rw [digitRun, Calendar.takeWhile_isDigit_append hds.2 hr, Calendar.dropWhile_isDigit_append hds.2 hr]
  cases ds with
  | nil => exact absurd rfl hds.1
  | cons d ds => rfl

theorem digitRun_of_noDigit {cs : List Char} (h : Calendar.NoDigit cs) : digitRun cs = .miss cs .digit := by
  have hnone : cs.takeWhile Char.isDigit = [] := by
    cases cs with
    | nil => rfl
    | cons c more => simp [h c more rfl]
  rw [digitRun, hnone]

/-- An optional minus is read exactly where it stands. -/
theorem optional_minus {negative : Bool} {ds : List Char} (hds : IsDigits ds) {rest : List Char} :
    (Reader.char '-').optional ((if negative then ['-'] else []) ++ (ds ++ rest)) =
      .read (if negative then some () else none) (ds ++ rest) := by
  cases negative with
  | true => rfl
  | false =>
    cases ds with
    | nil => exact absurd rfl hds.1
    | cons d ds =>
      have hne : d ≠ '-' := by
        rintro rfl
        exact absurd (hds.2 '-' List.mem_cons_self) (by decide)
      simp [Reader.optional, Reader.char, hne]

/-- Digits after an optional minus are read where the text after them does not go on with them. -/
theorem number_numeral (negative : Bool) {ds : List Char} (hds : IsDigits ds) {rest : List Char}
    (hr : NoNumber rest) :
    number (numeral negative ds ++ rest) = .read (.int (integerOf negative ds)) rest := by
  have hplaces : (Reader.optional (do Reader.char '.'; digitRun)) rest = .read none rest := by
    have hmiss : ∃ after e, (do Reader.char '.'; digitRun : Reader (List Char)) rest = .miss after e := by
      cases rest with
      | nil => exact ⟨_, _, rfl⟩
      | cons c more =>
        by_cases hc : c = '.'
        · subst hc
          exact ⟨more, .digit, digitRun_of_noDigit (hr.2 more rfl)⟩
        · refine ⟨c :: more, .char, bind_of_miss ?_⟩
          simp [Reader.char, hc]
    obtain ⟨after, e, h⟩ := hmiss
    rw [Reader.optional, h]
  rw [number, numeral, List.append_assoc, bind_of_read (optional_minus hds),
    bind_of_read (digitRun_append hds hr.1), bind_of_read hplaces]
  cases negative <;> rfl

/-- An integer is read where the text after it does not go on with it. -/
theorem number_append (n : Int64) {rest : List Char} (hr : NoNumber rest) :
    number (integerChars n ++ rest) = .read (.int n) rest := by
  have hchars : integerChars n = numeral (decide (n.toInt < 0)) (digits n.toInt.natAbs) := by
    simp only [integerChars, numeral, decide_eq_true_eq]
  rw [hchars, number_numeral _ (isDigits_digits _) hr, integerOf_digits]

/-- What begins with neither a minus nor a digit is no number. -/
theorem number_of_not_digit {c : Char} {more : List Char} (hminus : c ≠ '-')
    (hdigit : c.isDigit = false) : number (c :: more) = .miss (c :: more) .digit := by
  have hsign : (Reader.char '-').optional (c :: more) = .read none (c :: more) := by
    simp [Reader.optional, Reader.char, hminus]
  rw [number, bind_of_read hsign]
  exact bind_of_miss (digitRun_of_noDigit (Calendar.noDigit_cons hdigit))

/-! ## Reading texts -/

/-- A text that does not go on with a quote. -/
def NoQuote (cs : List Char) : Prop :=
  ∀ more, cs ≠ '\'' :: more

/-- A text that does not begin with two quotes is read by its first character. -/
theorem singleQuotedChar_of_miss {c : Char} {rest after : List Char} {e : Expected}
    (h : Reader.word "''" (c :: rest) = .miss after e) :
    singleQuotedChar (c :: rest) = if c = '\'' then .miss (c :: rest) .noneOf else .read c rest := by
  have hmiss : (do Reader.word "''"; pure '\'' : Reader Char) (c :: rest) = .miss after e :=
    bind_of_miss h
  unfold singleQuotedChar Reader.orElse
  rw [hmiss]

/-- Doubled quotes are read back one character at a time. -/
theorem readsOn_doubleQuotes (cs rest : List Char) :
    ReadsOn singleQuotedChar cs (doubleQuotes cs ++ '\'' :: rest) ('\'' :: rest) := by
  induction cs with
  | nil => rfl
  | cons c cs ih =>
    by_cases hc : c = '\''
    · subst hc
      refine ⟨doubleQuotes cs ++ '\'' :: rest, ?_, ?_, ih⟩
      · rw [doubleQuotes, if_pos rfl]
        exact orElse_of_read rfl
      · rw [doubleQuotes, if_pos rfl]
        simp only [List.cons_append, List.length_append, List.length_cons]
        omega
    · have hword : Reader.word "''" (c :: (doubleQuotes cs ++ '\'' :: rest)) =
          .miss (c :: (doubleQuotes cs ++ '\'' :: rest)) .tag := by
        simp [Reader.word, Reader.dropWord, Ne.symm hc]
      refine ⟨doubleQuotes cs ++ '\'' :: rest, ?_, ?_, ih⟩
      · rw [doubleQuotes, if_neg hc, List.cons_append, singleQuotedChar_of_miss hword, if_neg hc]
      · rw [doubleQuotes, if_neg hc]
        simp

/-- The quote after a text ends it where no further quote follows. -/
theorem singleQuotedChar_closing {rest : List Char} (hr : NoQuote rest) :
    singleQuotedChar ('\'' :: rest) = .miss ('\'' :: rest) .noneOf := by
  have hword : Reader.word "''" ('\'' :: rest) = .miss ('\'' :: rest) .tag := by
    cases rest with
    | nil => rfl
    | cons d more =>
      have hd : '\'' ≠ d := by rintro rfl; exact hr more rfl
      simp [Reader.word, Reader.dropWord, hd]
  rw [singleQuotedChar_of_miss hword, if_pos rfl]

/-- A text between single quotes is read where no further quote follows. -/
theorem quoted_append (s : String) {rest : List Char} (hr : NoQuote rest) :
    quoted (Token.chars (.text s) ++ rest) = .read s rest := by
  have hchars : Token.chars (.text s) ++ rest = '\'' :: (doubleQuotes s.toList ++ '\'' :: rest) := by
    simp [Token.chars]
  have hopen : Reader.char '\'' ('\'' :: (doubleQuotes s.toList ++ '\'' :: rest)) =
      .read () (doubleQuotes s.toList ++ '\'' :: rest) := rfl
  have hmany := many_of_readsOn (readsOn_doubleQuotes s.toList rest) (singleQuotedChar_closing hr)
  have hclose : Reader.char '\'' ('\'' :: rest) = .read () rest := rfl
  have hsingle : singleQuoted ('\'' :: (doubleQuotes s.toList ++ '\'' :: rest)) = .read s rest := by
    rw [singleQuoted, bind_of_read hopen, bind_of_read hmany, bind_of_read hclose, pure_apply,
      String.ofList_toList]
  rw [hchars, quoted, orElse_of_read hsingle]

/-- What begins with no quote is no text. -/
theorem quoted_of_not_quote {c : Char} {more : List Char} (hsingle : c ≠ '\'') (hdouble : c ≠ '\"') :
    quoted (c :: more) = .miss (c :: more) .char := by
  have h1 : singleQuoted (c :: more) = .miss (c :: more) .char := by
    apply bind_of_miss
    simp [Reader.char, hsingle]
  have h2 : doubleQuoted (c :: more) = .miss (c :: more) .char := by
    apply bind_of_miss
    simp [Reader.char, hdouble]
  rw [quoted, orElse_of_miss h1, h2]

/-- Words are read off the front. -/
theorem word_append {w : String} {cs : List Char} (hw : w.toList = cs) (rest : List Char) :
    Reader.word w (cs ++ rest) = .read () rest := by
  have hdrop : ∀ ds : List Char, Reader.dropWord ds (ds ++ rest) = some rest := by
    intro ds
    induction ds with
    | nil => rfl
    | cons d ds ih => simp [Reader.dropWord, ih]
  rw [Reader.word, hw, hdrop]

end QueryChain.Grammar
