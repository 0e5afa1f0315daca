import QueryChain.Grammar.Resolve
import QueryChain.Lowering.Compiled
import QueryChain.Proofs.Grammar.Trimmed

/-!
# Integers as they are written

A query text may write an integer with any number of digits, while the value of a literal has 64 bits. Digits after
an optional minus are always read where an operand or an argument stands, and for the integer that they denote as
long as it is one of 64 bits. For all others zero is read: they are not refused, as dates that cannot be read are, and
the zero goes on into limits and comparisons.

* `toInt_integerOf`: the value that is read for digits.
* `primary_numeral`, `argument_numeral`: digits as an operand and as an argument.
* `numerals_held`: where 64 bits hold the integer it is read, else zero, and so is the number of rows taken.
* `not_numerals_exact`: taking one row more than 64 bits can count is taking none.
-/

namespace QueryChain.Grammar

open Reader Text Decimal

/-! ## The value of digits -/

/-- The integer that digits after an optional minus denote. -/
def denoted (negative : Bool) (ds : List Char) : Int :=
  if negative then -(natOfDigits ds : Int) else natOfDigits ds

/-- An integer of 64 bits is kept, any other becomes zero. -/
def heldIn64 (z : Int) : Int :=
  if -9223372036854775808 ≤ z ∧ z ≤ 9223372036854775807 then z else 0

theorem toInt_integerOf (negative : Bool) (ds : List Char) :
    (integerOf negative ds).toInt = heldIn64 (denoted negative ds) := by
  have hdenoted : integerOf negative ds = if -9223372036854775808 ≤ denoted negative ds ∧
      denoted negative ds ≤ 9223372036854775807 then Int64.ofInt (denoted negative ds) else 0 := rfl
  rw [hdenoted, heldIn64]
  split
  · next h => exact Int64.toInt_ofInt_of_le h.1 (by omega)
  · rfl

/-! ## Digits as an operand and as an argument -/

section Operand

variable {negative : Bool} {ds gap rest : List Char} {ks : List Token}

/-- Digits after an optional minus are a numeral of the grammar. -/
theorem isNumeral_numeral (negative : Bool) (hds : IsDigits ds) :
    IsNumeral (.int (integerOf negative ds)) (numeral negative ds) :=
  ⟨negative, ds, hds, .inl ⟨rfl, rfl⟩⟩

/-- Blanks before digits are skipped. -/
theorem dropWhile_numeral (hgap : ∀ c ∈ gap, isSpace c = true) (hds : IsDigits ds) :
    (gap ++ (numeral negative ds ++ rest)).dropWhile isSpace = numeral negative ds ++ rest := by
  obtain ⟨c, more, hc, hfirst⟩ := (isNumeral_numeral negative hds).first
  apply dropWhile_isSpace_append hgap
  rw [hc]
  rintro d after ⟨⟩
  rcases hfirst with rfl | hdigit
  · rfl
  · exact Calendar.isBlank_of_isDigit hdigit

/-- Where an operand stands, digits are read that do not go on. -/
theorem primary_numeral {nested : Reader Syntax} (hgap : ∀ c ∈ gap, isSpace c = true) (hds : IsDigits ds)
    (hrest : NoNumber rest) : primary nested (gap ++ (numeral negative ds ++ rest)) =
      .read (.literal (.int (integerOf negative ds))) (rest.dropWhile isSpace) := by
  apply spaced_of_read
  rw [dropWhile_numeral hgap hds]
  exact orElse_of_read (bind_of_read (number_numeral negative hds hrest))

/-- Digits are read as an argument. -/
theorem argument_numeral (negative : Bool) (hgap : ∀ c ∈ gap, isSpace c = true) (hds : IsDigits ds)
    (hrest : Shows ks rest) (hks : Follow 1 ks) (d : Nat) :
    (lambda (expression (d + 1))).orElse (expression (d + 1)) (gap ++ (numeral negative ds ++ rest)) =
      .read (.literal (.int (integerOf negative ds))) (rest.dropWhile isSpace) := by
  have hnumeral := isNumeral_numeral negative hds
  have hatom : DerivesAtom (.literal (.int (integerOf negative ds))) (numeral negative ds) := .number hnumeral
  have hspaced : Spaced (numeral negative ds) (gap ++ numeral negative ds) :=
    ⟨gap, [], hgap, List.forall_mem_nil _, by rw [List.append_nil]⟩
  have hends : EndsAt 1 rest := hrest.endsAt hks
  have hderives : Derives 1 (.literal (.int (integerOf negative ds))) (gap ++ numeral negative ds) :=
    .atom hatom hspaced
  -- No expression is nested in digits, so they are read at every depth.
  have hreads : ReadsUpTo (expression d) (.literal (.int (integerOf negative ds))) (gap ++ numeral negative ds) :=
    hatom.readsUpTo hspaced fun rest hrest =>
      ⟨rest, orElse_of_read (bind_of_read (hnumeral.number_append hrest.noNumber)), rfl⟩
  rw [← List.append_assoc, ((hderives.begins (hends.mono (by decide))).misses_lambda hends _).orElse_eq]
  exact (hreads.settles.operand (Nat.le_refl 1) (by decide)).1 _ rest hends rfl

end Operand

/-- A text that takes rows of a name, as many as digits say. -/
theorem ofText_take {name : String} (hname : IsFreeName name) (negative : Bool) {ds : List Char} (hds : IsDigits ds) :
    Syntax.ofText (name ++ ".Take(" ++ String.ofList (numeral negative ds) ++ ")") =
      .ok (.call (.name name) "Take" [.literal (.int (integerOf negative ds))]) := by
  have hnone : IsGap [] := List.forall_mem_nil _
  have halone : ∀ cs : List Char, Spaced cs cs := fun cs => ⟨[], [], hnone, hnone, by simp⟩
  have htake : DerivesMemberName "Take" ('.' :: "Take".toList) :=
    ⟨isName_of_decide rfl (by decide +kernel) (by decide +kernel), [], _, hnone, halone _, rfl⟩
  have hdigits : DerivesArgument (.literal (.int (integerOf negative ds))) (numeral negative ds) :=
    .value (.atom (.number (isNumeral_numeral negative hds)) (halone _))
  have hargs : DerivesArguments [.literal (.int (integerOf negative ds))] ('(' :: (numeral negative ds ++ [')'])) := by
    simpa using DerivesArguments.listed hnone (.cons hdigits .nil) hnone
  refine Syntax.ofText_of_derives ?_
  simpa [String.toList_append] using Derives.call (.atom (.name hname) (halone _)) htake hargs hnone

/-! ## What is held -/

/-- Where the characters stand after blanks and such a rest after them, the reader reads them as this integer. -/
def ReadsAs (p : Reader Syntax) (Rest : List Char → Prop) (cs : List Char) (n : Int64) : Prop :=
  ∀ gap rest : List Char, (∀ c ∈ gap, isSpace c = true) → Rest rest →
    p (gap ++ (cs ++ rest)) = .read (.literal (.int n)) (rest.dropWhile isSpace)

/-- Digits after an optional minus are always read, as an operand where they do not go on, and as an argument before
what may follow one: as the integer that they denote if 64 bits hold it, and as zero otherwise. So is the number of rows
that is taken of a model: the query compiles whatever the number, and its limit is the number that was read. -/
theorem numerals_held (negative : Bool) {ds : List Char} (hds : IsDigits ds) :
    ∃ n : Int64, n.toInt = heldIn64 (denoted negative ds) ∧
      (∀ nested, ReadsAs (primary nested) NoNumber (numeral negative ds) n) ∧
      (∀ d, ReadsAs ((lambda (expression (d + 1))).orElse (expression (d + 1)))
        (fun rest => ∃ ks, Follow 1 ks ∧ Shows ks rest) (numeral negative ds) n) ∧
      ∀ (schema : Schema) (name : String) (m : Model) (o : Options), IsFreeName name → schema.find name = some m →
        ∃ e q, Expr.ofText schema (name ++ ".Take(" ++ String.ofList (numeral negative ds) ++ ")") = .ok e ∧
          e.compile o = .ok q ∧ q.top = some n.toInt.toNat := by
  refine ⟨integerOf negative ds, toInt_integerOf negative ds, ?_, ?_, ?_⟩
  · intro nested gap rest hgap hrest
    exact primary_numeral hgap hds hrest
  · rintro d gap rest hgap ⟨ks, hks, hrest⟩
    exact argument_numeral negative hgap hds hrest hks d
  · intro schema name m o hname hfind
    have hresolve : Expr.ofText schema (name ++ ".Take(" ++ String.ofList (numeral negative ds) ++ ")") = .ok
        (.operator "Take" [.ofTable m, .ofValue (.int (integerOf negative ds))] (Expr.ofTable m).ty) := by
      have hscope : resolveName schema [] name = .ok (.ofTable m) := by
        rw [resolveName, hfind]
        rfl
      rw [Expr.ofText, ofText_take hname negative hds]
      show Expr.ofSyntax schema _ = _
      rw [Expr.ofSyntax, resolve, resolve, hscope]
      rfl
    exact ⟨_, _, hresolve, rfl, rfl⟩

/-- A schema with one model. -/
def tally : Schema :=
  ⟨[.dynamic (.schema "Customer") "Customer" "Customers" [("Id", "Id", some .int)] none]⟩

theorem isFreeName_customers : IsFreeName "Customers" :=
  ⟨isName_of_decide rfl (by decide +kernel) (by decide +kernel), by decide, by decide, by decide, by decide⟩

/-- `-07` as an operand before a comma and as an argument, and `009` as a number of rows. -/
theorem numerals_held_padded :
    (∃ n : Int64, n.toInt = heldIn64 (denoted true ['0', '7']) ∧
        primary (expression 2) ([' '] ++ (numeral true ['0', '7'] ++ [' ', ','])) = .read (.literal (.int n)) [','] ∧
        (lambda (expression 3)).orElse (expression 3) ([] ++ (numeral true ['0', '7'] ++ [')'])) =
          .read (.literal (.int n)) [')']) ∧
      ∃ e q, Expr.ofText tally ("Customers" ++ ".Take(" ++ String.ofList (numeral false ['0', '0', '9']) ++ ")") =
          .ok e ∧
        e.compile .standard = .ok q ∧ q.top = some (heldIn64 (denoted false ['0', '0', '9'])).toNat := by
  have hseven : IsDigits ['0', '7'] := by simp [IsDigits]
  have hnine : IsDigits ['0', '0', '9'] := by simp [IsDigits]
  obtain ⟨n, hn, hprimary, hargument, -⟩ := numerals_held true hseven
  obtain ⟨rows, hrows, -, -, htake⟩ := numerals_held false hnine
  refine ⟨⟨n, hn, hprimary _ [' '] [' ', ','] (by simp [isSpace]) ?_, hargument 2 [] [')'] (by simp)
    ⟨[.mark .closing], follow_mark (.inl rfl) [], trivial, [], rfl, rfl⟩⟩, ?_⟩
  · exact ⟨by rintro c more ⟨⟩; rfl, by rintro more ⟨⟩⟩
  · rw [← hrows]
    exact htake tally "Customers" _ .standard isFreeName_customers rfl

/-- Taking one row more than 64 bits can count is taking none. -/
theorem not_numerals_exact :
    natOfDigits "9223372036854775808".toList = 9223372036854775808 ∧
      Syntax.ofText "Customers.Take(9223372036854775808)" =
        .ok (.call (.name "Customers") "Take" [.literal (.int 0)]) ∧
      ∃ e q, Expr.ofText tally "Customers.Take(9223372036854775808)" = .ok e ∧ e.compile .standard = .ok q ∧
        q.top = some 0 := by
  have hdigits : IsDigits "9223372036854775808".toList := by simp [IsDigits]
  have hwritten : "Customers" ++ ".Take(" ++ String.ofList (numeral false "9223372036854775808".toList) ++ ")" =
      "Customers.Take(9223372036854775808)" := by decide +kernel
  have hzero : integerOf false "9223372036854775808".toList = 0 := by decide +kernel
  have htext := ofText_take isFreeName_customers false hdigits
  rw [hwritten, hzero] at htext
  obtain ⟨m, hfind⟩ : ∃ m, tally.find "Customers" = some m := ⟨_, rfl⟩
  refine ⟨by simp [natOfDigits], htext, .operator "Take" [.ofTable m, .ofValue (.int 0)] (Expr.ofTable m).ty, _, ?_,
    rfl, rfl⟩
  rw [Expr.ofText, htext]
  cases hfind
  rfl

end QueryChain.Grammar
