import QueryChain.Proofs.Grammar.Token

/-!
# Lexemes and what readers take off a text

`Consumes p R` says that whenever the reader `p` reads a value, the characters that it takes off the front of the
text stand in the relation `R` to that value: nothing is passed over. Each way of putting readers together keeps
such a relation.

A lexeme is a token with all its spellings: a number may have any digits that are read as its value, a text stands
between either kind of quotes.

* `Consumes.bind`, `Consumes.many`, `Consumes.separated`: what readers put together consume.
* `LaidOut.append`: lexemes laid out one after another are laid out.
* `consumes_identifier`, `consumes_number`, `consumes_quoted`: the reader of a class of lexemes takes one of them.
* `IsNumeral.number_append`, `quoted_of_isSpelled`: a lexeme is read where the text after it does not go on with it.
-/

namespace QueryChain.Grammar

open Text Reader

/-! ## What a reader consumes -/

/-- What the reader takes off the front of a text stands in the relation to the value that it reads. -/
def Consumes {α : Type} (p : Reader α) (R : α → List Char → Prop) : Prop :=
  ∀ s a rest, p s = .read a rest → ∃ front, s = front ++ rest ∧ R a front

section Consumes

variable {α β : Type} {p q : Reader α} {f : α → Reader β} {R R' : α → List Char → Prop}
  {S : β → List Char → Prop} {s rest : List Char}

/-- Where a sequence of readers reads something, each of them does. -/
theorem bind_eq_read {b : β} (h : (p >>= f) s = .read b rest) :
    ∃ a mid, p s = .read a mid ∧ f a mid = .read b rest := by
  change Reader.bind p f s = .read b rest at h
  rw [Reader.bind] at h
  split at h
  · next a mid hp => exact ⟨a, mid, hp, h⟩
  · cases h
  · cases h

theorem Consumes.mono (hp : Consumes p R) (h : ∀ a cs, R a cs → R' a cs) : Consumes p R' := by
  intro s a rest hs
  obtain ⟨front, hfront, hR⟩ := hp s a rest hs
  exact ⟨front, hfront, h a front hR⟩

theorem consumes_pure {a : α} (h : R a []) : Consumes (pure a) R := by
  intro s b rest hs
  cases hs
  exact ⟨[], rfl, h⟩

theorem Consumes.bind (hp : Consumes p R)
    (hf : ∀ a cs, R a cs → Consumes (f a) fun b ds => S b (cs ++ ds)) : Consumes (p >>= f) S := by
  intro s b rest hs
  obtain ⟨a, mid, ha, hb⟩ := bind_eq_read hs
  obtain ⟨cs, rfl, hR⟩ := hp s a mid ha
  obtain ⟨ds, rfl, hS⟩ := hf a cs hR mid b rest hb
  exact ⟨cs ++ ds, (List.append_assoc cs ds rest).symm, hS⟩

theorem Consumes.orElse (hp : Consumes p R) (hq : Consumes q R) : Consumes (p.orElse q) R := by
  intro s a rest hs
  rw [Reader.orElse] at hs
  split at hs
  · exact hq s a rest hs
  · exact hp s a rest hs

theorem Consumes.optional {T : Option α → List Char → Prop} (hp : Consumes p R) (hnone : T none [])
    (hsome : ∀ a cs, R a cs → T (some a) cs) : Consumes p.optional T := by
  intro s o rest hs
  rw [Reader.optional] at hs
  split at hs
  · next a mid ha =>
    cases hs
    obtain ⟨front, hfront, hR⟩ := hp s a rest ha
    exact ⟨front, hfront, hsome a front hR⟩
  · cases hs
    exact ⟨[], rfl, hnone⟩
  · cases hs

theorem consumes_absent (p : Reader α) : Consumes p.absent fun _ cs => cs = [] := by
  intro s a rest hs
  rw [Reader.absent] at hs
  split at hs
  · cases hs
  · cases hs
    exact ⟨[], rfl, rfl⟩
  · cases hs

theorem Consumes.convert {g : α → Option β} (hp : Consumes p R)
    (h : ∀ a b cs, R a cs → g a = some b → S b cs) : Consumes (p.convert g) S := by
  intro s b rest hs
  rw [Reader.convert] at hs
  split at hs
  · next a mid ha =>
    split at hs
    · next c hc =>
      cases hs
      obtain ⟨front, hfront, hR⟩ := hp s a rest ha
      exact ⟨front, hfront, h a b front hR hc⟩
    · cases hs
  · cases hs
  · cases hs

/-! ### Characters -/

theorem consumes_satisfy (k : Char → Bool) : Consumes (satisfy k) fun c cs => k c = true ∧ cs = [c] := by
  intro s c rest hs
  cases s with
  | nil => cases hs
  | cons d s =>
    rw [satisfy] at hs
    split at hs
    · next hd =>
      cases hs
      exact ⟨[c], rfl, hd, rfl⟩
    · cases hs

theorem consumes_char (c : Char) : Consumes (char c) fun _ cs => cs = [c] := by
  intro s a rest hs
  cases s with
  | nil => cases hs
  | cons d s =>
    rw [char] at hs
    split at hs
    · next hd =>
      cases hs
      exact ⟨[c], by rw [hd, List.singleton_append], rfl⟩
    · cases hs

theorem eq_append_of_dropWord {w s rest : List Char} (h : dropWord w s = some rest) : s = w ++ rest := by
  induction w generalizing s with
  | nil =>
    rw [dropWord] at h
    exact Option.some.inj h
  | cons c w ih =>
    cases s with
    | nil => cases h
    | cons d s =>
      rw [dropWord] at h
      split at h
      · next hc => rw [ih h, hc, List.cons_append]
      · cases h

theorem consumes_word (w : String) : Consumes (word w) fun _ cs => cs = w.toList := by
  intro s a rest hs
  rw [word] at hs
  split at hs
  · next mid hmid =>
    cases hs
    exact ⟨w.toList, eq_append_of_dropWord hmid, rfl⟩
  · cases hs

theorem consumes_takeWhile (k : Char → Bool) :
    Consumes (takeWhile k) fun ds cs => (∀ d ∈ ds, k d = true) ∧ cs = ds := by
  intro s ds rest hs
  cases hs
  exact ⟨s.takeWhile k, List.takeWhile_append_dropWhile.symm, fun d hd => List.mem_takeWhile_imp hd, rfl⟩

theorem consumes_spaces : Consumes spaces fun _ cs => ∀ c ∈ cs, isSpace c = true := by
  intro s a rest hs
  cases hs
  exact ⟨s.takeWhile isSpace, List.takeWhile_append_dropWhile.symm, fun c hc => List.mem_takeWhile_imp hc⟩

theorem consumes_digitRun :
    Consumes digitRun fun ds cs => (ds ≠ [] ∧ ∀ d ∈ ds, d.isDigit = true) ∧ cs = ds := by
  intro s ds rest hs
  rw [digitRun] at hs
  split at hs
  · cases hs
  · next hne =>
    cases hs
    refine ⟨s.takeWhile Char.isDigit, List.takeWhile_append_dropWhile.symm, ⟨hne, fun d hd => ?_⟩, rfl⟩
    exact List.mem_takeWhile_imp hd

/-! ### Repetition -/

variable {T : List α → List Char → Prop}

/-- A repetition consumes what its rounds consume, one after another. -/
theorem Consumes.many (hp : Consumes p R) (hnil : T [] [])
    (hcons : ∀ a as cs ds, R a cs → T as ds → T (a :: as) (cs ++ ds)) : Consumes p.many T := by
  suffices h : ∀ fuel, Consumes (p.manyUpTo fuel) T from fun s => h s.length s
  intro fuel
  induction fuel with
  | zero =>
    intro s as rest hs
    rw [manyUpTo] at hs
    split at hs
    · cases hs
      exact ⟨[], rfl, hnil⟩
    · cases hs
    · next a mid ha =>
      split at hs
      · cases hs
        obtain ⟨front, hfront, hR⟩ := hp s a rest ha
        refine ⟨front, hfront, ?_⟩
        simpa using hcons a [] front [] hR hnil
      · cases hs
  | succ fuel ih =>
    intro s as rest hs
    rw [manyUpTo] at hs
    split at hs
    · cases hs
      exact ⟨[], rfl, hnil⟩
    · cases hs
    · next a mid ha =>
      obtain ⟨front, rfl, hR⟩ := hp s a mid ha
      split at hs
      · simp only at hs
        split at hs
        · next more after hmore =>
          cases hs
          obtain ⟨back, rfl, hT⟩ := ih mid more rest hmore
          exact ⟨front ++ back, (List.append_assoc front back rest).symm, hcons a more front back hR hT⟩
        · next hne => exact absurd hs (hne _ _)
      · cases hs

variable {separator : Reader Unit} {U : List Char → Prop}

/-- A list consumes its items and the separators between them. -/
theorem Consumes.separated1 (hseparator : Consumes separator fun _ cs => U cs) (hitem : Consumes p R)
    {M : List α → List Char → Prop} (hnil : M [] [])
    (hcons : ∀ a as cs ds es, U cs → R a ds → M as es → M (a :: as) (cs ++ (ds ++ es)))
    (h : ∀ a as cs ds, R a cs → M as ds → T (a :: as) (cs ++ ds)) :
    Consumes (Reader.separated1 separator p) T := by
  have hmore : ∀ fuel, Consumes (moreUpTo separator p fuel) M := by
    intro fuel
    induction fuel with
    | zero => exact consumes_pure hnil
    | succ fuel ih =>
      intro s as rest hs
      rw [moreUpTo] at hs
      split at hs
      · cases hs
        exact ⟨[], rfl, hnil⟩
      · cases hs
      · next mid hmid =>
        obtain ⟨cs, rfl, hU⟩ := hseparator s () mid hmid
        split at hs
        · split at hs
          · cases hs
            exact ⟨[], rfl, hnil⟩
          · cases hs
          · next a after ha =>
            obtain ⟨ds, rfl, hR⟩ := hitem mid a after ha
            split at hs
            · next more last hlast =>
              cases hs
              obtain ⟨es, rfl, hM⟩ := ih after more rest hlast
              exact ⟨cs ++ (ds ++ es), by simp only [List.append_assoc], hcons a more cs ds es hU hR hM⟩
            · next hne => exact absurd hs (hne _ _)
        · cases hs
  intro s as rest hs
  rw [Reader.separated1] at hs
  split at hs
  · next a mid ha =>
    obtain ⟨cs, rfl, hR⟩ := hitem s a mid ha
    split at hs
    · next more last hlast =>
      cases hs
      obtain ⟨ds, rfl, hM⟩ := hmore mid.length mid more rest hlast
      exact ⟨cs ++ ds, (List.append_assoc cs ds rest).symm, h a more cs ds hR hM⟩
    · next hne => exact absurd hs (hne _ _)
  · cases hs
  · cases hs

theorem Consumes.separated (h : Consumes (Reader.separated1 separator p) T) (hnil : T [] []) :
    Consumes (Reader.separated separator p) T := by
  intro s as rest hs
  rw [Reader.separated] at hs
  split at hs
  · cases hs
    exact ⟨[], rfl, hnil⟩
  · exact h s as rest hs

end Consumes

/-! ## Lexemes -/

/-- A token of a query text, however it is spelled. -/
inductive Lexeme where
  /-- A name or a word such as `new`. -/
  | name (s : String)
  | number (v : Value)
  | text (s : String)
  | op (o : BinaryOp)
  | mark (m : Mark)

/-- The characters are an optional minus, digits, and optionally a point with digits, and have this value. -/
def IsNumeral (v : Value) (cs : List Char) : Prop :=
  ∃ (negative : Bool) (ds : List Char), (ds ≠ [] ∧ ∀ d ∈ ds, d.isDigit = true) ∧
    ((cs = (if negative then ['-'] else []) ++ ds ∧ v = .int (integerOf negative ds)) ∨
      ∃ places : List Char, (places ≠ [] ∧ ∀ d ∈ places, d.isDigit = true) ∧
        cs = (if negative then ['-'] else []) ++ ds ++ '.' :: places ∧
        v = .float (doubleOf negative ds places))

/-- The characters spell the lexeme. A quote is written twice between single quotes, and not at all between
double ones. -/
def Lexeme.IsSpelled : Lexeme → List Char → Prop
  | .name s, cs => IsName s ∧ cs = s.toList
  | .number v, cs => IsNumeral v cs
  | .text s, cs =>
    cs = '\'' :: doubleQuotes s.toList ++ ['\''] ∨ ('\"' ∉ s.toList ∧ cs = '\"' :: s.toList ++ ['\"'])
  | .op o, cs => cs = o.token.toList
  | .mark m, cs => cs = m.chars

/-- The characters are these lexemes in order, with blanks before, between and after them and nothing else. -/
inductive LaidOut : List Lexeme → List Char → Prop where
  | done {gap : List Char} : (∀ c ∈ gap, isSpace c = true) → LaidOut [] gap
  | next {gap cs rest : List Char} {l : Lexeme} {ts : List Lexeme} : (∀ c ∈ gap, isSpace c = true) →
      l.IsSpelled cs → LaidOut ts rest → LaidOut (l :: ts) (gap ++ (cs ++ rest))

theorem LaidOut.single {l : Lexeme} {cs : List Char} (h : l.IsSpelled cs) : LaidOut [l] cs := by
  have hone : LaidOut [l] ([] ++ (cs ++ [])) := .next (by simp) h (.done (by simp))
  simpa using hone

/-- Blanks in front change nothing. -/
theorem LaidOut.blanks {ts : List Lexeme} {gap cs : List Char} (hgap : ∀ c ∈ gap, isSpace c = true)
    (h : LaidOut ts cs) : LaidOut ts (gap ++ cs) := by
  cases h with
  | done hmore => exact .done fun c hc => (List.mem_append.1 hc).elim (hgap c) (hmore c)
  | next hmore hl hrest =>
    rw [← List.append_assoc]
    exact .next (fun c hc => (List.mem_append.1 hc).elim (hgap c) (hmore c)) hl hrest

theorem LaidOut.append {ts us : List Lexeme} {cs ds : List Char} (hts : LaidOut ts cs) (hus : LaidOut us ds) :
    LaidOut (ts ++ us) (cs ++ ds) := by
  induction hts with
  | done hgap => exact hus.blanks hgap
  | next hgap hl _ ih =>
    simp only [List.append_assoc, List.cons_append]
    exact .next hgap hl ih

/-! ## Readers of lexemes -/

theorem consumes_identifier : Consumes identifier fun s cs => IsName s ∧ cs = s.toList := by
  refine (consumes_satisfy startsName).bind ?_
  rintro c - ⟨hc, rfl⟩
  refine (consumes_takeWhile continuesName).bind ?_
  rintro _ more ⟨hmore, rfl⟩
  refine consumes_pure ⟨⟨c, more, String.toList_ofList, hc, hmore⟩, ?_⟩
  simp [String.toList_ofList]

theorem consumes_number : Consumes number IsNumeral := by
  refine ((consumes_char '-').optional (T := fun o cs => cs = if o.isSome then ['-'] else []) rfl
    (fun _ _ hcs => hcs)).bind ?_
  rintro minus - rfl
  refine consumes_digitRun.bind ?_
  rintro _ ds ⟨hds, rfl⟩
  have hplaces : Consumes (do char '.'; digitRun) fun places cs =>
      (places ≠ [] ∧ ∀ d ∈ places, d.isDigit = true) ∧ cs = '.' :: places := by
    refine (consumes_char '.').bind ?_
    rintro - - rfl
    exact consumes_digitRun.mono fun places _ h => ⟨h.1, by rw [h.2, List.singleton_append]⟩
  refine (hplaces.optional (T := fun o cs => match o with
    | none => cs = []
    | some places => (places ≠ [] ∧ ∀ d ∈ places, d.isDigit = true) ∧ cs = '.' :: places) rfl
    fun _ _ h => h).bind ?_
  rintro (_ | places) cs hcs
  · obtain rfl := hcs
    exact consumes_pure ⟨minus.isSome, ds, hds, .inl ⟨by simp, rfl⟩⟩
  · obtain ⟨hplaces, rfl⟩ := hcs
    exact consumes_pure ⟨minus.isSome, ds, hds, .inr ⟨places, hplaces, by simp, rfl⟩⟩

theorem consumes_singleQuotedChar : Consumes singleQuotedChar fun c cs => cs = doubleQuotes [c] := by
  refine .orElse ?_ ?_
  · refine (consumes_word "''").bind ?_
    rintro - - rfl
    exact consumes_pure (by decide)
  · intro s c rest hs
    cases s with
    | nil => cases hs
    | cons d s =>
      simp only at hs
      split at hs
      · cases hs
      · next hd =>
        cases hs
        exact ⟨[c], rfl, by simp [doubleQuotes, hd]⟩

theorem consumes_quoted : Consumes quoted (Lexeme.text · |>.IsSpelled) := by
  have hsingle : Consumes singleQuoted (Lexeme.text · |>.IsSpelled) := by
    refine (consumes_char '\'').bind ?_
    rintro - - rfl
    refine (consumes_singleQuotedChar.many (T := fun s cs => cs = doubleQuotes s) rfl ?_).bind ?_
    · rintro c more - - rfl rfl
      by_cases hc : c = '\'' <;> simp [doubleQuotes, hc]
    rintro s - rfl
    refine (consumes_char '\'').bind ?_
    rintro - - rfl
    exact consumes_pure (.inl (by simp [String.toList_ofList]))
  have hdouble : Consumes doubleQuoted (Lexeme.text · |>.IsSpelled) := by
    refine (consumes_char '\"').bind ?_
    rintro - - rfl
    refine (consumes_takeWhile _).bind ?_
    rintro _ s ⟨hs, rfl⟩
    refine (consumes_char '\"').bind ?_
    rintro - - rfl
    refine consumes_pure (.inr ⟨fun hmem => ?_, by simp [String.toList_ofList]⟩)
    rw [String.toList_ofList] at hmem
    simpa using hs _ hmem
  exact hsingle.orElse hdouble

/-! ## Lexemes are read -/

/-- A number is read where the text after it does not go on with it. -/
theorem IsNumeral.number_append {v : Value} {cs rest : List Char} (h : IsNumeral v cs) (hr : NoNumber rest) :
    number (cs ++ rest) = .read v rest := by
  obtain ⟨negative, ds, hds, ⟨rfl, rfl⟩ | ⟨places, hplaces, rfl, rfl⟩⟩ := h
  · exact number_numeral negative hds hr
  · have hpoint : (Reader.optional (do Reader.char '.'; digitRun)) ('.' :: (places ++ rest)) =
        .read (some places) rest := by
      have hread : (do Reader.char '.'; digitRun : Reader (List Char)) ('.' :: (places ++ rest)) =
          .read places rest := digitRun_append hplaces hr.1
      rw [Reader.optional, hread]
    rw [number, List.append_assoc, List.append_assoc, List.cons_append, bind_of_read (optional_minus hds),
      bind_of_read (digitRun_append hds (Calendar.noDigit_cons rfl)), bind_of_read hpoint]
    cases negative <;> rfl

/-- A text is read where no further quote follows. -/
theorem quoted_of_isSpelled {s : String} {cs rest : List Char} (h : (Lexeme.text s).IsSpelled cs) (hr : NoQuote rest) :
    quoted (cs ++ rest) = .read s rest := by
  rcases h with rfl | ⟨hs, rfl⟩
  · exact quoted_append s hr
  · have htake : (s.toList ++ '\"' :: rest).takeWhile (· ≠ '\"') = s.toList := by
      rw [List.takeWhile_append_of_pos fun c hc => by simpa using ne_of_mem_of_not_mem hc hs]
      simp
    have hdrop : (s.toList ++ '\"' :: rest).dropWhile (· ≠ '\"') = '\"' :: rest := by
      rw [List.dropWhile_append_of_pos fun c hc => by simpa using ne_of_mem_of_not_mem hc hs]
      simp
    have hbody : Reader.takeWhile (· ≠ '\"') (s.toList ++ '\"' :: rest) = .read s.toList ('\"' :: rest) := by
      rw [Reader.takeWhile, htake, hdrop]
    have hopen : Reader.char '\"' ('\"' :: (s.toList ++ '\"' :: rest)) = .read () (s.toList ++ '\"' :: rest) := rfl
    have hclose : Reader.char '\"' ('\"' :: rest) = .read () rest := rfl
    have hdouble : doubleQuoted ('\"' :: (s.toList ++ '\"' :: rest)) = .read s rest := by
      rw [doubleQuoted, bind_of_read hopen, bind_of_read hbody, bind_of_read hclose, pure_apply, String.ofList_toList]
    have hsingle : singleQuoted ('\"' :: (s.toList ++ '\"' :: rest)) = .miss _ .char := rfl
    rw [List.cons_append, List.cons_append, List.append_assoc, List.singleton_append, quoted, orElse_of_miss hsingle,
      hdouble]

end QueryChain.Grammar
