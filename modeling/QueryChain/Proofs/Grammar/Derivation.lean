import QueryChain.Proofs.Grammar.Lexeme
import QueryChain.Proofs.Grammar.Operand

/-!
# The grammar of query texts

Which characters the grammar has for a tree, and that the readers take nothing else off the front of a text. The
grammar is one of characters and not of lexemes, since a date is told from a name by the quote after the word.

* `Derives`: the grammar has these characters for a tree where operators of a level may stand.
* `Consumes.chainOf`, `consumes_membersFrom`: the loops of the readers extend what was derived so far.
* `consumes_expression`: whatever the depth, the reader of expressions takes characters that the grammar has.
-/

namespace QueryChain.Grammar

open Reader Calendar

/-! ## Blanks and lists -/

/-- Blanks between tokens. -/
def IsGap (cs : List Char) : Prop :=
  ∀ c ∈ cs, isSpace c = true

/-- These characters with blanks around them. -/
def Spaced (core cs : List Char) : Prop :=
  ∃ gap gap', IsGap gap ∧ IsGap gap' ∧ cs = gap ++ (core ++ gap')

section Lists

variable {α : Type}

/-- The items of a list after the first, each after a comma. -/
inductive Following (S : α → List Char → Prop) : List α → List Char → Prop where
  | nil : Following S [] []
  | cons {a : α} {as : List α} {cs ds es : List Char} :
    Spaced [','] cs → S a ds → Following S as es → Following S (a :: as) (cs ++ (ds ++ es))

/-- The items of a list with commas between them. -/
inductive Listed (S : α → List Char → Prop) : List α → List Char → Prop where
  | nil : Listed S [] []
  | cons {a : α} {as : List α} {cs ds : List Char} : S a cs → Following S as ds → Listed S (a :: as) (cs ++ ds)

end Lists

/-! ## The grammar -/

/-- The parameters of a function; one may stand without parentheses. -/
inductive DerivesParameters : List String → List Char → Prop where
  | one {p : String} : IsName p → DerivesParameters [p] p.toList
  | several {p : String} {ps : List String} {cs : List Char} :
    Listed (fun p cs => IsName p ∧ Spaced p.toList cs) (p :: ps) cs →
      DerivesParameters (p :: ps) ('(' :: (cs ++ [')']))

/-- A point and the name of a member. -/
def DerivesMemberName (field : String) (cs : List Char) : Prop :=
  IsName field ∧ ∃ gap ds, IsGap gap ∧ Spaced field.toList ds ∧ cs = gap ++ '.' :: ds

mutual

/-- The characters of a tree at a place where operators below a level stand in parentheses. -/
inductive Derives : Nat → Syntax → List Char → Prop where
  | atom {n : Nat} {t : Syntax} {core cs : List Char} : DerivesAtom t core → Spaced core cs → Derives n t cs
  | member {n : Nat} {target : Syntax} {field : String} {cs ds : List Char} :
    Derives 6 target cs → DerivesMemberName field ds → Derives n (.member target field) (cs ++ ds)
  | call {n : Nat} {target : Syntax} {method : String} {args : List Syntax} {cs ds es gap : List Char} :
    Derives 6 target cs → DerivesMemberName method ds → DerivesArguments args es → IsGap gap →
      Derives n (.call target method args) (cs ++ (ds ++ (es ++ gap)))
  | binary {n : Nat} {op : BinaryOp} {left right : Syntax} {cs ds es : List Char} :
    n ≤ op.level → Derives op.leftLevel left cs → Spaced op.token.toList ds → Derives (op.level + 1) right es →
      Derives n (.binary op left right) (cs ++ (ds ++ es))

/-- The characters of an operand before its members. -/
inductive DerivesAtom : Syntax → List Char → Prop where
  | null : DerivesAtom (.literal .null) "null".toList
  | bool {b : Bool} : DerivesAtom (.literal (.bool b)) (if b then "true" else "false").toList
  | number {v : Value} {cs : List Char} : IsNumeral v cs → DerivesAtom (.literal v) cs
  | text {s : String} {cs : List Char} : (Lexeme.text s).IsSpelled cs → DerivesAtom (.literal (.text s)) cs
  | date {t : Moment} {s : String} {gap : List Char} : IsGap gap → Moment.readLiteral s.toList = some t →
    DerivesAtom (.literal (.dateTime t)) ("date".toList ++ (gap ++ Token.chars (.text s)))
  | name {s : String} : IsFreeName s → DerivesAtom (.name s) s.toList
  | freeCall {method : String} {args : List Syntax} {cs : List Char} :
    IsFreeName method → DerivesArguments args cs → DerivesAtom (.freeCall method args) (method.toList ++ cs)
  | object {members : List (String × Syntax)} {ds cs gap : List Char} :
    Spaced ['\x7b'] ds → Listed DerivesMember members cs → IsGap gap →
      DerivesAtom (.object members) ("new".toList ++ (ds ++ (cs ++ (gap ++ ['\x7d']))))
  | enclosed {t : Syntax} {cs : List Char} : Derives 1 t cs → DerivesAtom t ('(' :: (cs ++ [')']))

/-- The characters of the arguments of a call, with their parentheses. -/
inductive DerivesArguments : List Syntax → List Char → Prop where
  | listed {args : List Syntax} {gap cs gap' : List Char} : IsGap gap → Listed DerivesArgument args cs →
    IsGap gap' → DerivesArguments args (gap ++ '(' :: (cs ++ (gap' ++ [')'])))

/-- The characters of an argument. -/
inductive DerivesArgument : Syntax → List Char → Prop where
  | value {t : Syntax} {cs : List Char} : Derives 1 t cs → DerivesArgument t cs
  | function {params : List String} {body : Syntax} {core cs ds : List Char} :
    DerivesParameters params core → Spaced core cs → Derives 1 body ds →
      DerivesArgument (.lambda params body) (cs ++ '=' :: '>' :: ds)

/-- The characters of a member of a new object: `name = value`, or a value that has the name. -/
inductive DerivesMember : String × Syntax → List Char → Prop where
  | named {label : String} {value : Syntax} {cs ds : List Char} :
    IsName label → Spaced label.toList cs → Derives 1 value ds → DerivesMember (label, value) (cs ++ '=' :: ds)
  | implied {label : String} {value : Syntax} {cs : List Char} :
    value.impliedName = some label → Derives 1 value cs → DerivesMember (label, value) cs

end

/-- Where operators of a level may stand, those that bind more tightly may too. -/
theorem Derives.mono {m n : Nat} {t : Syntax} {cs : List Char} (h : Derives n t cs) (hmn : m ≤ n) :
    Derives m t cs := by
  cases h with
  | atom hatom hspaced => exact .atom hatom hspaced
  | member htarget hfield => exact .member htarget hfield
  | call htarget hmethod hargs hgap => exact .call htarget hmethod hargs hgap
  | binary hlevel hleft hop hright => exact .binary (hmn.trans hlevel) hleft hop hright

/-! ## Readers of the grammar consume derived characters -/

section Lists

variable {α : Type} {item : Reader α} {S : α → List Char → Prop}

theorem Consumes.spaced (h : Consumes item S) :
    Consumes (spaced item) fun a cs => ∃ core, S a core ∧ Spaced core cs := by
  refine consumes_spaces.bind ?_
  rintro - gap hgap
  refine h.bind fun a core hcore => consumes_spaces.bind ?_
  rintro - gap' hgap'
  exact consumes_pure ⟨core, hcore, gap, gap', hgap, hgap', by simp⟩

theorem consumes_comma : Consumes comma fun _ cs => Spaced [','] cs :=
  (consumes_char ',').spaced.mono fun _ _ ⟨_, hcore, hcs⟩ => hcore ▸ hcs

theorem Consumes.listed1 (h : Consumes item S) :
    Consumes (Reader.separated1 comma item) fun as cs => as ≠ [] ∧ Listed S as cs :=
  consumes_comma.separated1 h (M := Following S) .nil (fun _ _ _ _ _ => .cons) fun _ _ _ _ ha hmore =>
    ⟨List.cons_ne_nil _ _, .cons ha hmore⟩

theorem Consumes.listed (h : Consumes item S) : Consumes (Reader.separated comma item) (Listed S) :=
  Consumes.separated (h.listed1.mono fun _ _ h => h.2) .nil

end Lists

/-! ### Operators -/

theorem consumes_operatorWord {o : BinaryOp} {w : String} (h : o.token = w) :
    Consumes (operatorWord o w) fun op cs => op = o ∧ cs = op.token.toList := by
  refine (consumes_word w).bind ?_
  rintro - - rfl
  exact consumes_pure ⟨rfl, by rw [List.append_nil, h]⟩

theorem consumes_operatorChar {o : BinaryOp} {c : Char} (h : o.token.toList = [c]) :
    Consumes (operatorChar o c) fun op cs => op = o ∧ cs = op.token.toList := by
  refine (consumes_char c).bind ?_
  rintro - - rfl
  exact consumes_pure ⟨rfl, by rw [List.append_nil, h]⟩

theorem consumes_levelOperator {n : Nat} (hn : 1 ≤ n) (hn' : n ≤ 5) :
    Consumes (levelOperator n) fun op cs => op.level = n ∧ cs = op.token.toList := by
  have hword : ∀ {o : BinaryOp} {w : String}, o.token = w → o.level = n →
      Consumes (operatorWord o w) fun op cs => op.level = n ∧ cs = op.token.toList := fun hw hlevel =>
    (consumes_operatorWord hw).mono fun _ _ h => ⟨h.1 ▸ hlevel, h.2⟩
  have hchar : ∀ {o : BinaryOp} {c : Char}, o.token.toList = [c] → o.level = n →
      Consumes (operatorChar o c) fun op cs => op.level = n ∧ cs = op.token.toList := fun hc hlevel =>
    (consumes_operatorChar hc).mono fun _ _ h => ⟨h.1 ▸ hlevel, h.2⟩
  interval_cases n
  · exact hword rfl rfl
  · exact hword rfl rfl
  · exact (hword rfl rfl).orElse <| (hword rfl rfl).orElse <| (hword rfl rfl).orElse <|
      (hword rfl rfl).orElse <| (hchar rfl rfl).orElse (hchar rfl rfl)
  · exact (hchar rfl rfl).orElse (hchar rfl rfl)
  · exact (hchar rfl rfl).orElse (hchar rfl rfl)

section Levels

variable {operand : Reader Syntax} {n : Nat}

/-- An operator of a level and its right operand. -/
theorem consumes_link (hn : 1 ≤ n) (hn' : n ≤ 5) (h : Consumes operand (Derives (n + 1))) :
    Consumes (link (levelOperator n) operand) fun r cs => r.1.level = n ∧
      ∃ ds es, Spaced r.1.token.toList ds ∧ Derives (n + 1) r.2 es ∧ cs = ds ++ es := by
  refine (consumes_levelOperator hn hn').spaced.bind ?_
  rintro op ds ⟨-, ⟨hlevel, rfl⟩, hds⟩
  refine h.bind fun right es hright => consumes_pure ?_
  exact ⟨hlevel, ds, es, hds, hright, by rw [List.append_nil]⟩

/-- Operands joined from the left are derived as the trees joined from the left. -/
theorem Consumes.chainOf (hn : n = 1 ∨ n = 2 ∨ n = 4 ∨ n = 5) (h : Consumes operand (Derives (n + 1))) :
    Consumes (chainOf (levelOperator n) operand) (Derives n) := by
  refine h.bind fun first cs hfirst => ?_
  -- Each round of the loop has the tree so far as its left operand.
  have hmore : Consumes (Reader.many (link (levelOperator n) operand)) fun rest ds =>
      ∀ first cs, Derives n first cs → Derives n (first.chain rest) (cs ++ ds) := by
    refine Consumes.many (consumes_link (by omega) (by omega) h) (fun first cs hfirst => by simpa using hfirst) ?_
    rintro ⟨op, right⟩ rest - ds ⟨hlevel, es, fs, hop, hright, rfl⟩ hrest first cs hfirst
    obtain rfl : op.level = n := hlevel
    have hleft : op.leftLevel = op.level := by cases op <;> first | rfl | (exact absurd hn (by decide))
    have hbinary : Derives op.level (.binary op first right) (cs ++ (es ++ fs)) :=
      .binary (Nat.le_refl _) (hleft ▸ hfirst) hop hright
    simpa using hrest _ _ hbinary
  refine hmore.bind fun rest ds hrest => consumes_pure ?_
  simpa using hrest first cs (hfirst.mono (Nat.le_succ n))

/-- A comparison is one sum, or two with an operator between them. -/
theorem Consumes.comparison (h : Consumes (Grammar.sum operand) (Derives 4)) :
    Consumes (comparison operand) (Derives 3) := by
  refine h.bind fun left cs hleft => ?_
  have htail : Consumes (Reader.optional (link comparisonOperator (Grammar.sum operand))) fun tail ds =>
      Derives 3 (left.chain tail.toList) (cs ++ ds) := by
    refine Consumes.optional (consumes_link (n := 3) (by decide) (by decide) h) ?_ ?_
    · simpa using hleft.mono (by decide : 3 ≤ 4)
    · rintro ⟨op, right⟩ - ⟨hlevel, ds, es, hop, hright, rfl⟩
      have hleftLevel : op.leftLevel = 4 := by cases op <;> first | rfl | cases hlevel
      refine .binary (Nat.le_of_eq hlevel.symm) (hleftLevel ▸ hleft) hop ?_
      rwa [show op.level = 3 from hlevel]
  exact htail.bind fun tail ds h => consumes_pure (by simpa using h)

theorem Consumes.disjunction (h : Consumes operand (Derives 6)) : Consumes (disjunction operand) (Derives 1) := by
  have hproduct : Consumes (product operand) (Derives 5) := Consumes.chainOf (n := 5) (by decide) h
  have hsum : Consumes (Grammar.sum operand) (Derives 4) := Consumes.chainOf (n := 4) (by decide) hproduct
  have hconjunction : Consumes (conjunction operand) (Derives 2) :=
    Consumes.chainOf (n := 2) (by decide) hsum.comparison
  exact Consumes.chainOf (n := 1) (by decide) hconjunction

end Levels

/-! ### Calls and objects -/

section Nested

variable {nested : Reader Syntax}

theorem consumes_parameters : Consumes parameters DerivesParameters := by
  refine .orElse ?_ ?_
  · refine consumes_identifier.bind ?_
    rintro p - ⟨hp, rfl⟩
    exact consumes_pure (by simpa using .one hp)
  · refine (consumes_char '(').bind ?_
    rintro - - rfl
    refine (consumes_identifier.spaced.listed1).bind ?_
    rintro ps cs ⟨hne, hps⟩
    refine (consumes_char ')').bind ?_
    rintro - - rfl
    cases ps with
    | nil => exact absurd rfl hne
    | cons p ps =>
      have hnames : (fun p cs => ∃ core, (IsName p ∧ core = p.toList) ∧ Spaced core cs) =
          fun p cs => IsName p ∧ Spaced p.toList cs := by
        funext p cs
        apply propext
        constructor
        · rintro ⟨-, ⟨hp, rfl⟩, hcs⟩
          exact ⟨hp, hcs⟩
        · rintro ⟨hp, hcs⟩
          exact ⟨_, ⟨hp, rfl⟩, hcs⟩
      rw [hnames] at hps
      exact consumes_pure (by simpa using DerivesParameters.several hps)

theorem consumes_argument (h : Consumes nested (Derives 1)) :
    Consumes ((lambda nested).orElse nested) DerivesArgument := by
  refine .orElse ?_ (h.mono fun _ _ => .value)
  refine consumes_parameters.spaced.bind ?_
  rintro ps cs ⟨core, hps, hcs⟩
  refine (consumes_word "=>").bind ?_
  rintro - - rfl
  refine h.bind fun body ds hbody => consumes_pure ?_
  simpa using DerivesArgument.function hps hcs hbody

/-- Arguments are read with the blanks after them. -/
theorem consumes_arguments (h : Consumes nested (Derives 1)) :
    Consumes (arguments nested) fun args cs => ∃ ds gap, DerivesArguments args ds ∧ IsGap gap ∧ cs = ds ++ gap := by
  refine consumes_spaces.bind ?_
  rintro - gap hgap
  refine (consumes_char '(').bind ?_
  rintro - - rfl
  refine (consumes_argument h).listed.bind fun args cs hargs => ?_
  refine (consumes_char ')').spaced.bind ?_
  rintro - - ⟨-, rfl, gap', gap'', hgap', hgap'', rfl⟩
  exact consumes_pure ⟨_, gap'', .listed hgap hargs hgap', hgap'', by simp⟩

theorem consumes_objectMember (h : Consumes nested (Derives 1)) : Consumes (objectMember nested) DerivesMember := by
  refine .orElse ?_ ?_
  · refine consumes_identifier.spaced.bind ?_
    rintro label cs ⟨-, ⟨hlabel, rfl⟩, hcs⟩
    refine (consumes_char '=').bind ?_
    rintro - - rfl
    refine (consumes_absent _).bind ?_
    rintro - - rfl
    refine h.bind fun value ds hvalue => consumes_pure ?_
    simpa using DerivesMember.named hlabel hcs hvalue
  · refine Consumes.convert h ?_
    rintro value ⟨label, value'⟩ cs hvalue hname
    obtain ⟨label', hlabel, heq⟩ := Option.map_eq_some_iff.1 hname
    cases heq
    exact .implied hlabel hvalue

/-! ### Operands -/

/-- What is derived as an operand before its members, with blanks after it. -/
def DerivesBare (t : Syntax) (cs : List Char) : Prop :=
  ∃ core gap, DerivesAtom t core ∧ IsGap gap ∧ cs = core ++ gap

theorem DerivesAtom.bare {t : Syntax} {cs : List Char} (h : DerivesAtom t cs) : DerivesBare t cs :=
  ⟨cs, [], h, List.forall_mem_nil _, (List.append_nil cs).symm⟩

theorem consumes_dateText (start : List Char) {s rest : List Char} {t : Syntax} (hquote : quoteAhead s = true)
    (hs : dateText start s = .read t rest) : ∃ cs, s = cs ++ rest ∧ DerivesAtom t ("date".toList ++ cs) := by
  obtain ⟨_, mid, hspaces, hafter⟩ := bind_eq_read hs
  obtain ⟨text, after, htext, hread⟩ := bind_eq_read hafter
  obtain ⟨gap, rfl, hgap⟩ := consumes_spaces s _ mid hspaces
  obtain ⟨cs, rfl, hcs⟩ := consumes_quoted mid text after htext
  -- The quote that was seen ahead is a single one, so the text stands between single quotes.
  have hsingle : cs = Token.chars (.text text) := by
    rcases hcs with hcs | ⟨-, hcs⟩
    · exact hcs
    · rw [quoteAhead, List.dropWhile_append_of_pos hgap, hcs] at hquote
      cases hquote
  cases hmoment : Moment.readLiteral text.toList with
  | none =>
    rw [hmoment] at hread
    cases hread
  | some moment =>
    rw [hmoment] at hread
    cases hread
    exact ⟨gap ++ cs, by rw [List.append_assoc], by rw [hsingle]; exact .date hgap hmoment⟩

theorem consumes_wordOperand (h : Consumes nested (Derives 1)) : Consumes (wordOperand nested) DerivesBare := by
  intro start t rest hs
  rw [wordOperand] at hs
  split at hs
  · cases hs
  · cases hs
  · next name s hname =>
    obtain ⟨front, rfl, hproper, rfl⟩ := consumes_identifier start name s hname
    -- What follows the word is derived together with it.
    suffices hafter : ∃ back, s = back ++ rest ∧ DerivesBare t (name.toList ++ back) by
      obtain ⟨back, rfl, hback⟩ := hafter
      exact ⟨name.toList ++ back, (List.append_assoc _ back rest).symm, hback⟩
    have halone : ∀ {t : Syntax}, DerivesAtom t name.toList → DerivesBare t (name.toList ++ []) := fun hatom => by
      rw [List.append_nil]
      exact hatom.bare
    split at hs
    · next htrue =>
      cases hs
      exact ⟨[], rfl, halone (by rw [htrue]; exact .bool (b := true))⟩
    split at hs
    · next hfalse =>
      cases hs
      exact ⟨[], rfl, halone (by rw [hfalse]; exact .bool (b := false))⟩
    split at hs
    · next hnull =>
      cases hs
      exact ⟨[], rfl, halone (by rw [hnull]; exact .null)⟩
    split at hs
    · next hnew =>
      have hobject : Consumes (do let members ← objectMembers nested; pure (Syntax.object members)) fun t cs =>
          DerivesBare t ("new".toList ++ cs) := by
        refine Consumes.bind (R := fun members cs => DerivesBare (.object members) ("new".toList ++ cs)) ?_
          fun members cs hmembers => consumes_pure (by rwa [List.append_nil])
        refine (consumes_char '\x7b').spaced.bind ?_
        rintro - ds ⟨-, rfl, hds⟩
        refine (consumes_objectMember h).listed.bind fun members cs hmembers => ?_
        refine (consumes_char '\x7d').spaced.bind ?_
        rintro - - ⟨-, rfl, gap, gap', hgap, hgap', rfl⟩
        exact consumes_pure ⟨_, gap', .object hds hmembers hgap, hgap', by simp⟩
      rw [hnew]
      exact hobject s t rest hs
    split at hs
    · next hdate =>
      obtain ⟨back, hback, hatom⟩ := consumes_dateText _ hdate.2 hs
      rw [hdate.1]
      exact ⟨back, hback, hatom.bare⟩
    · next htrue hfalse hnull hnew _ =>
      have hfree : IsFreeName name := ⟨hproper, htrue, hfalse, hnull, hnew⟩
      rw [callOrName] at hs
      split at hs
      · next args after hargs =>
        cases hs
        obtain ⟨-, hback, ds, gap, hds, hgap, rfl⟩ := consumes_arguments h s args rest hargs
        exact ⟨ds ++ gap, hback, name.toList ++ ds, gap, .freeCall hfree hds, hgap, by rw [List.append_assoc]⟩
      · cases hs
        exact ⟨[], rfl, halone (.name hfree)⟩

theorem consumes_primary (h : Consumes nested (Derives 1)) : Consumes (primary nested) (Derives 6) := by
  have hbare : Consumes (bareOperand nested) DerivesBare := by
    refine .orElse ?_ (.orElse ?_ (.orElse ?_ (consumes_wordOperand h)))
    · exact consumes_number.bind fun v cs hv => consumes_pure (by simpa using (DerivesAtom.number hv).bare)
    · exact consumes_quoted.bind fun s cs hs => consumes_pure (by simpa using (DerivesAtom.text hs).bare)
    · refine (consumes_char '(').bind ?_
      rintro - - rfl
      refine h.bind fun t cs ht => ?_
      refine (consumes_char ')').bind ?_
      rintro - - rfl
      exact consumes_pure (by simpa using (DerivesAtom.enclosed ht).bare)
  refine hbare.spaced.mono ?_
  rintro t - ⟨-, ⟨core, gap, hcore, hgap, rfl⟩, before, after, hbefore, hafter, rfl⟩
  refine .atom hcore ⟨before, gap ++ after, hbefore, fun c hc => ?_, by simp⟩
  exact (List.mem_append.1 hc).elim (hgap c) (hafter c)

theorem consumes_memberName : Consumes memberName DerivesMemberName := by
  refine consumes_spaces.bind ?_
  rintro - gap hgap
  refine (consumes_char '.').bind ?_
  rintro - - rfl
  refine consumes_identifier.spaced.mono ?_
  rintro field ds ⟨-, ⟨hfield, rfl⟩, hds⟩
  exact ⟨hfield, gap, ds, hgap, hds, rfl⟩

/-- The members and calls after an operand go on from the tree read so far. -/
theorem consumes_membersFrom (h : Consumes nested (Derives 1)) (fuel : Nat) {node : Syntax} {cs : List Char}
    (hnode : Derives 6 node cs) : Consumes (membersFrom nested fuel node) fun t ds => Derives 6 t (cs ++ ds) := by
  induction fuel generalizing node cs with
  | zero =>
    intro s t rest hs
    cases hs
    exact ⟨[], rfl, by simpa using hnode⟩
  | succ fuel ih =>
    intro s t rest hs
    rw [membersFrom] at hs
    split at hs
    · next field mid hfield =>
      obtain ⟨front, rfl, hmember⟩ := consumes_memberName s field mid hfield
      split at hs
      · next args after hargs =>
        obtain ⟨-, rfl, ds, gap, hds, hgap, rfl⟩ := consumes_arguments h mid args after hargs
        obtain ⟨back, rfl, hrest⟩ := ih (.call hnode hmember hds hgap) after t rest hs
        exact ⟨front ++ (ds ++ gap ++ back), by simp, by simpa using hrest⟩
      · obtain ⟨back, rfl, hrest⟩ := ih (.member hnode hmember) mid t rest hs
        exact ⟨front ++ back, by simp, by simpa using hrest⟩
    · cases hs
      exact ⟨[], rfl, by simpa using hnode⟩

theorem consumes_operand (h : Consumes nested (Derives 1)) : Consumes (operand nested) (Derives 6) := by
  intro s t rest hs
  rw [operand] at hs
  split at hs
  · next node mid hnode =>
    obtain ⟨front, rfl, hatom⟩ := consumes_primary h s node mid hnode
    obtain ⟨back, rfl, hrest⟩ := consumes_membersFrom h mid.length hatom mid t rest hs
    exact ⟨front ++ back, by simp, hrest⟩
  · next hne => exact absurd hs (hne _ _)

end Nested

/-- Whatever the depth, the grammar has what is taken off the text for the expression that is read. -/
theorem consumes_expression (depth : Nat) : Consumes (expression depth) (Derives 1) := by
  induction depth with
  | zero =>
    intro s t rest hs
    cases hs
  | succ depth ih => exact (consumes_operand ih).disjunction

end QueryChain.Grammar
