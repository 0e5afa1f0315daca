import Mathlib.Data.List.Forall2
import QueryChain.Proofs.Grammar.Print

/-!
# Taking tokens off a text

What it means that a reader takes tokens off the front of a text, and what may follow an expression. `Takes p a ts
ks d` says that, on texts of at most `d` characters, the reader `p` takes the tokens `ts` for the value `a` and
leaves a text of the tokens `ks`.

* `takes_spaced`: blanks around what is read do not matter.
* `takes_separated`: lists with commas between their items.
* `Shows.first_ne`: a text does not begin with a character that begins none of its tokens.
-/

namespace QueryChain.Grammar

open Reader

/-! ## Taking tokens off a text -/

/-- The characters are these tokens, with any blanks around them. -/
def Shows (ts : List Token) (cs : List Char) : Prop :=
  Spells ts (cs.dropWhile isSpace)

/-- On texts of at most `d` characters the reader takes the tokens `ts` before `ks` for `a`. -/
def Takes {α : Type} (p : Reader α) (a : α) (ts ks : List Token) (d : Nat) : Prop :=
  ∀ cs, cs.length ≤ d → Shows (ts ++ ks) cs →
    ∃ rest, p cs = .read a rest ∧ Spells ks rest ∧ rest.length < cs.length

/-- The reader misses. -/
def Misses {α : Type} (p : Reader α) (cs : List Char) : Prop :=
  ∃ rest e, p cs = .miss rest e

theorem Spells.shows {ts : List Token} {cs : List Char} (h : Spells ts cs) : Shows ts cs := by
  rw [Shows, h.dropWhile_eq]
  exact h

theorem length_dropWhile_isSpace (cs : List Char) : (cs.dropWhile isSpace).length ≤ cs.length :=
  (List.dropWhile_suffix isSpace).length_le

/-- The first token of a text, what is left of it, and that this is shorter. -/
theorem Spells.cons {t : Token} {ts : List Token} {cs : List Char} (h : Spells (t :: ts) cs) :
    t.IsProper ∧ ∃ rest, cs = t.chars ++ rest ∧ Shows ts rest ∧ rest.length < cs.length := by
  obtain ⟨ht, rest, rfl, hrest⟩ := h
  obtain ⟨⟨c, more, hc, -⟩, -⟩ := Token.blankFreeEnds ht
  refine ⟨ht, rest, rfl, hrest, ?_⟩
  rw [hc]
  simp only [List.cons_append, List.length_append, List.length_cons]
  omega

section Spaced

variable {α β : Type} {p : Reader α} {a : α} {ts ks : List Token} {d : Nat} {cs : List Char}

/-- Blanks around what is read do not matter. -/
theorem takes_spaced (h : ∀ cs, cs.length ≤ d → Spells (ts ++ ks) cs →
      ∃ rest, p cs = .read a rest ∧ Shows ks rest ∧ rest.length < cs.length) :
    Takes (spaced p) a ts ks d := by
  intro cs hd hcs
  have hle := length_dropWhile_isSpace cs
  obtain ⟨rest, hread, hrest, hlt⟩ := h (cs.dropWhile isSpace) (by omega) hcs
  have hle' := length_dropWhile_isSpace rest
  exact ⟨rest.dropWhile isSpace, spaced_of_read hread, hrest, by omega⟩

/-- A reader of one token, with blanks around it. -/
theorem takes_spaced_token {t : Token}
    (h : t.IsProper → ∀ rest, Shows ks rest → p (t.chars ++ rest) = .read a rest) :
    Takes (spaced p) a [t] ks d := by
  apply takes_spaced
  intro cs _ hcs
  obtain ⟨ht, rest, rfl, hrest, hlt⟩ := hcs.cons
  exact ⟨rest, h ht rest hrest, hrest, hlt⟩

theorem misses_spaced (h : Shows ks cs) (hp : ∀ cs, Spells ks cs → Misses p cs) :
    Misses (spaced p) cs := by
  obtain ⟨rest, e, hmiss⟩ := hp _ h
  exact ⟨rest, e, spaced_of_miss hmiss⟩

theorem Misses.bind {f : α → Reader β} (h : Misses p cs) : Misses (p >>= f) cs := by
  obtain ⟨rest, e, h⟩ := h
  exact ⟨rest, e, bind_of_miss h⟩

theorem Misses.orElse {q : Reader α} (h : Misses p cs) (hq : Misses q cs) : Misses (p.orElse q) cs := by
  obtain ⟨rest, e, h⟩ := h
  obtain ⟨rest', e', hq⟩ := hq
  exact ⟨rest', e', by rw [orElse_of_miss h, hq]⟩

theorem Misses.orElse_eq {q : Reader α} (h : Misses p cs) : p.orElse q cs = q cs := by
  obtain ⟨rest, e, h⟩ := h
  exact orElse_of_miss h

theorem Misses.optional_eq (h : Misses p cs) : p.optional cs = .read none cs := by
  obtain ⟨rest, e, h⟩ := h
  rw [Reader.optional, h]

end Spaced

/-! ## First characters -/

/-- No first character of these tokens is `c`. -/
def NotFirst (c : Char) (ts : List Token) : Prop :=
  ∀ t us, ts = t :: us → t.IsProper → ∀ more, t.chars ≠ c :: more

theorem misses_char {c : Char} {ts : List Token} {cs : List Char} (h : Spells ts cs)
    (hc : NotFirst c ts) : Misses (char c) cs := by
  cases ts with
  | nil => rw [Spells] at h; subst h; exact ⟨[], .char, rfl⟩
  | cons t us =>
    obtain ⟨ht, rest, rfl, -⟩ := h.cons
    obtain ⟨⟨d, more, hd, -⟩, -⟩ := Token.blankFreeEnds ht
    have hne : d ≠ c := by
      rintro rfl
      exact hc t us rfl ht more hd
    refine ⟨t.chars ++ rest, .char, ?_⟩
    rw [hd]
    simp [Reader.char, hne]

/-- The first character after a token is not that of a text that shows other tokens. -/
theorem Shows.first_ne {ts : List Token} {cs : List Char} (h : Shows ts cs) {c : Char}
    (hc : NotFirst c ts) (hblank : isSpace c = false) : ∀ more, cs ≠ c :: more := by
  rintro more rfl
  rw [Shows, List.dropWhile_cons, hblank] at h
  cases ts with
  | nil => rw [Spells] at h; cases h
  | cons t us =>
    obtain ⟨ht, rest, heq, -⟩ := h.cons
    obtain ⟨⟨d, more', hd, -⟩, -⟩ := Token.blankFreeEnds ht
    rw [hd] at heq
    cases heq
    exact hc t us rfl ht more' hd

/-- A digit begins no name. -/
theorem isDigit_of_startsName {c : Char} (h : startsName c = true) : c.isDigit = false := by
  have hpoints : ∀ n ∈ List.range 58, 48 ≤ n → startsName (Char.ofNat n) = false := by decide +kernel
  cases hd : c.isDigit with
  | false => rfl
  | true =>
    simp only [Char.isDigit, Bool.and_eq_true, decide_eq_true_eq] at hd
    have hlow : 48 ≤ c.toNat := hd.1
    have hhigh : c.toNat ≤ 57 := hd.2
    have hc := hpoints c.toNat (List.mem_range.2 (by omega)) hlow
    rw [Char.ofNat_toNat, h] at hc
    cases hc

/-- The characters of punctuation. -/
def punctuation : List Char :=
  ['(', ')', ',', '.', '\x7b', '\x7d', '=', '>', '<', '!', '|', '&', '+', '-', '*', '/', '\'', '\"']

theorem not_startsName_of_punctuation {c : Char} (h : c ∈ punctuation) : startsName c = false := by
  have hall : punctuation.all (!startsName ·) = true := by decide +kernel
  simpa using List.all_eq_true.mp hall c h

/-- The first character of an integer is a digit or a minus. -/
theorem first_integerChars {n : Int64} {c : Char} {more : List Char} (h : integerChars n = c :: more) :
    c = '-' ∨ c.isDigit = true := by
  unfold integerChars at h
  split at h
  · cases h; exact Or.inl rfl
  · right
    apply Calendar.isDigit_of_mem_digits
    rw [List.nil_append] at h
    rw [h]
    exact List.mem_cons_self

/-- The first character of a name begins a name. -/
theorem first_name {s : String} (hs : IsName s) {c : Char} {more : List Char}
    (h : s.toList = c :: more) : startsName c = true := by
  obtain ⟨d, ds, hd, hstart, -⟩ := hs
  rw [hd] at h
  cases h
  exact hstart

/-- No operand begins with punctuation other than its own. -/
theorem notFirst_of_startsOperand {c : Char} (hc : c ∈ punctuation) (hminus : c ≠ '-')
    (hquote : c ≠ '\'') (hopening : c ≠ '(') {ts : List Token}
    (hts : ∀ t us, ts = t :: us → t.startsOperand = true) : NotFirst c ts := by
  have hdigit : c.isDigit = false := by
    have hall : punctuation.all (!Char.isDigit ·) = true := by decide
    simpa using List.all_eq_true.mp hall c hc
  intro t us heq ht more hmore
  have hs := hts t us heq
  cases t with
  | name s =>
    have := first_name ht hmore
    rw [not_startsName_of_punctuation hc] at this
    cases this
  | int n =>
    rcases first_integerChars hmore with rfl | h
    · exact hminus rfl
    · rw [hdigit] at h; cases h
  | text s => cases hmore; exact hquote rfl
  | op o => cases hs
  | mark m =>
    cases m with
    | opening => cases hmore; exact hopening rfl
    | _ => cases hs

/-! ## What may follow -/

/-- A token that may follow an expression of a level. -/
def Token.follows (n : Nat) : Token → Bool
  | .op o => decide (o.level < n)
  | .mark .point => decide (6 < n)
  | .mark .closing | .mark .comma | .mark .closeBrace => true
  | _ => false

/-- These tokens may follow an expression of a level; a point stands before a name. -/
def Follow (n : Nat) (ks : List Token) : Prop :=
  ∀ k us, ks = k :: us → k.follows n = true ∧ (k = .mark .point → ∃ s vs, us = .name s :: vs)

theorem Follow.mono {m n : Nat} {ks : List Token} (h : Follow m ks) (hmn : m ≤ n) : Follow n ks := by
  intro k us hk
  obtain ⟨hf, hp⟩ := h k us hk
  refine ⟨?_, hp⟩
  cases k with
  | op o => simp only [Token.follows, decide_eq_true_eq] at hf ⊢; omega
  | mark m => cases m <;> simp_all [Token.follows]; omega
  | _ => cases hf

theorem follow_nil (n : Nat) : Follow n [] := by
  intro k us h
  cases h

theorem follow_mark {m : Mark} {n : Nat} (hm : m = .closing ∨ m = .comma ∨ m = .closeBrace)
    (us : List Token) : Follow n (.mark m :: us) := by
  intro k vs h
  cases h
  rcases hm with rfl | rfl | rfl <;> exact ⟨rfl, by intro h; cases h⟩

theorem follow_op {o : BinaryOp} {n : Nat} (h : o.level < n) (us : List Token) :
    Follow n (.op o :: us) := by
  intro k vs hk
  cases hk
  exact ⟨decide_eq_true h, by intro h; cases h⟩

theorem follow_point {s : String} (us : List Token) : Follow 7 (.mark .point :: .name s :: us) := by
  intro k vs hk
  cases hk
  exact ⟨rfl, fun _ => ⟨s, us, rfl⟩⟩

/-- What follows an expression does not go on with a name. -/
theorem Follow.endsName {n : Nat} {ks : List Token} (h : Follow n ks) : EndsName ks := by
  intro k us hk
  have hf := (h k us hk).1
  cases k with
  | name s => cases hf
  | int i => cases hf
  | _ => rfl

/-- What follows an expression begins with none of the characters of an operand. -/
theorem Follow.notFirst {n : Nat} {ks : List Token} (h : Follow n ks) {c : Char}
    (hc : c = '(' ∨ c = '\'' ∨ c = '\x7b') : NotFirst c ks := by
  intro k us hk _ more hmore
  have hf := (h k us hk).1
  cases k with
  | name s => cases hf
  | int i => cases hf
  | text s => cases hf
  | op o => rcases hc with rfl | rfl | rfl <;> cases o <;> cases hmore
  | mark m => rcases hc with rfl | rfl | rfl <;> cases m <;> cases hmore <;> cases hf

/-! ## Lists -/

/-- What stands behind a list. -/
def Closes (ks : List Token) : Prop :=
  ∃ m us, ks = .mark m :: us ∧ (m = .closing ∨ m = .closeBrace)

theorem Closes.follow {ks : List Token} (h : Closes ks) (n : Nat) : Follow n ks := by
  obtain ⟨m, us, rfl, rfl | rfl⟩ := h
  · exact follow_mark (Or.inl rfl) us
  · exact follow_mark (Or.inr (Or.inr rfl)) us

/-- After an item stands a comma or what closes the list. -/
theorem Closes.follow_more {ks : List Token} (h : Closes ks) (tss : List (List Token)) :
    Follow 1 (tss.flatMap (fun us => .mark .comma :: us) ++ ks) := by
  cases tss with
  | nil => exact h.follow 1
  | cons us tss => exact follow_mark (Or.inr (Or.inl rfl)) _

theorem takes_comma (ks : List Token) (d : Nat) : Takes comma () [.mark .comma] ks d :=
  takes_spaced_token fun _ _ _ => rfl

theorem misses_comma {ks : List Token} {cs : List Char} (h : Shows ks cs) (hks : NotFirst ',' ks) :
    Misses comma cs :=
  misses_spaced h fun _ hcs => misses_char hcs hks

theorem Closes.notFirst_comma {ks : List Token} (h : Closes ks) : NotFirst ',' ks := by
  obtain ⟨m, vs, rfl, hm⟩ := h
  intro t us ht _ more hmore
  cases ht
  rcases hm with rfl | rfl <;> cases hmore

section Lists

variable {α : Type} {item : Reader α} {tss : List (List Token)} {as : List α} {ks : List Token} {d : Nat}

/-- The reader takes each of these lists of tokens for an item. -/
def TakesItems (item : Reader α) (tss : List (List Token)) (as : List α) (d : Nat) : Prop :=
  List.Forall₂ (fun ts a => ∀ ks, Follow 1 ks → Takes item a ts ks d) tss as

theorem moreUpTo_of_takesItems (h : TakesItems item tss as d) (hks : Closes ks) {fuel : Nat}
    {cs : List Char} (hfuel : cs.length ≤ fuel) (hd : cs.length ≤ d)
    (hcs : Spells (tss.flatMap (fun us => .mark .comma :: us) ++ ks) cs) :
    ∃ rest, moreUpTo comma item fuel cs = .read as rest ∧ Spells ks rest ∧ rest.length ≤ cs.length := by
  induction h generalizing fuel cs with
  | nil =>
    refine ⟨cs, ?_, hcs, Nat.le_refl _⟩
    cases fuel with
    | zero => rfl
    | succ fuel =>
      obtain ⟨after, e, hmiss⟩ := misses_comma hcs.shows hks.notFirst_comma
      rw [moreUpTo, hmiss]
  | @cons ts a tss as hitem hmore ih =>
    rw [List.flatMap_cons, List.append_assoc, List.cons_append] at hcs
    obtain ⟨after, hcomma, hafter, hlt⟩ := takes_comma _ d cs hd hcs.shows
    obtain ⟨mid, hread, hmid, hlt'⟩ := hitem _ (hks.follow_more tss) after (by omega) hafter.shows
    cases fuel with
    | zero => omega
    | succ fuel =>
      obtain ⟨rest, hrest, hspells, hle⟩ := ih (by omega : mid.length ≤ fuel) (by omega) hmid
      refine ⟨rest, ?_, hspells, by omega⟩
      rw [moreUpTo, hcomma]
      simp only [hlt, if_true, hread, hrest]

/-- A list of one item or more is taken item by item. -/
theorem takes_separated1 (h : TakesItems item tss as d) (hne : tss ≠ []) (hks : Closes ks) :
    Takes (separated1 comma item) as (listed tss) ks d := by
  intro cs hd hcs
  cases h with
  | nil => exact absurd rfl hne
  | @cons ts a tss as hitem hmore =>
    rw [listed, List.append_assoc] at hcs
    obtain ⟨mid, hread, hmid, hlt⟩ := hitem _ (hks.follow_more tss) cs hd hcs
    obtain ⟨rest, hrest, hspells, hle⟩ :=
      moreUpTo_of_takesItems hmore hks (Nat.le_refl _) (by omega : mid.length ≤ d) hmid
    refine ⟨rest, ?_, hspells, by omega⟩
    rw [separated1, hread]
    simp only [hrest]

/-- A list is taken item by item; an empty one where no item is read off what stands behind it. -/
theorem takes_separated (h : TakesItems item tss as d) (hks : Closes ks)
    (hmiss : ∀ cs, Shows ks cs → Misses item cs) {cs : List Char} (hd : cs.length ≤ d)
    (hcs : Shows (listed tss ++ ks) cs) :
    ∃ rest, separated comma item cs = .read as rest ∧ Shows ks rest ∧ rest.length ≤ cs.length := by
  cases h with
  | nil =>
    obtain ⟨after, e, hitem⟩ := hmiss cs hcs
    refine ⟨cs, ?_, hcs, Nat.le_refl _⟩
    rw [separated, separated1, hitem]
  | @cons ts a tss as hitem hmore =>
    obtain ⟨rest, hread, hspells, hlt⟩ :=
      takes_separated1 (List.Forall₂.cons hitem hmore) (by simp) hks cs hd hcs
    refine ⟨rest, ?_, hspells.shows, by omega⟩
    rw [separated, hread]

end Lists

end QueryChain.Grammar
