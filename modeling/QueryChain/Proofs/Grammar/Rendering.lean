import Mathlib
import QueryChain.Proofs.Grammar.Beginning

/-!
# Query texts leave nothing out

The lexemes that say a tree: those of its parts in order, with parentheses around any expression. A number may have
any digits that are read as its value and a date any text that is read as its moment; a member of a new object that
its value names may be written without its name.

The readers of the grammar fall back where something does not fit: a name with something after it that is no argument
list stands for itself, and a repetition ends before what is no round of it. None of them reads past a character that
its value does not have, so a text that is accepted as a whole says its tree.

* `Listed.lexemes`: what is said of the items of a list is said of the list.
* `Derives.lexemes`: the characters that the grammar has for a tree are, blanks apart, lexemes that say it.
* `Syntax.says_of_ofText`: an accepted text is, blanks apart, lexemes that say its tree.
-/

namespace QueryChain.Grammar

open Calendar Reader

/-! ## What lexemes say -/

/-- Lexemes with commas between them. -/
def withCommas : List (List Lexeme) → List Lexeme
  | [] => []
  | ts :: more => ts ++ more.flatMap fun us => .mark .comma :: us

/-- The lexemes of a literal. -/
def SaysLiteral : Value → List Lexeme → Prop
  | .null, ts => ts = [.name "null"]
  | .bool b, ts => ts = [.name (if b then "true" else "false")]
  | .int n, ts => ts = [.number (.int n)]
  | .float x, ts => ts = [.number (.float x)]
  | .text s, ts => ts = [.text s]
  | .dateTime t, ts => ∃ s : String, Moment.readLiteral s.toList = some t ∧ ts = [.name "date", .text s]

/-- The lexemes of the parameters of a function; one may stand without parentheses. -/
def SaysParameters (ps : List String) (ts : List Lexeme) : Prop :=
  ps ≠ [] ∧ (∀ p ∈ ps, IsName p) ∧
    (ts = .mark .opening :: (withCommas (ps.map fun p => [.name p]) ++ [.mark .closing]) ∨
      (ps.length = 1 ∧ ts = ps.map .name))

mutual

/-- The lexemes of a tree at a place where operators below a level stand in parentheses. -/
inductive Says : Nat → Syntax → List Lexeme → Prop where
  | literal {n : Nat} {v : Value} {ts : List Lexeme} : SaysLiteral v ts → Says n (.literal v) ts
  | name {n : Nat} {s : String} : IsFreeName s → Says n (.name s) [.name s]
  | member {n : Nat} {target : Syntax} {field : String} {ts : List Lexeme} :
    Says 6 target ts → IsName field → Says n (.member target field) (ts ++ [.mark .point, .name field])
  | call {n : Nat} {target : Syntax} {method : String} {args : List Syntax} {ts us : List Lexeme} :
    Says 6 target ts → IsName method → SaysArguments args us →
      Says n (.call target method args) (ts ++ .mark .point :: .name method :: us)
  | freeCall {n : Nat} {method : String} {args : List Syntax} {us : List Lexeme} :
    IsFreeName method → SaysArguments args us → Says n (.freeCall method args) (.name method :: us)
  | binary {n : Nat} {op : BinaryOp} {left right : Syntax} {ts us : List Lexeme} :
    n ≤ op.level → Says op.leftLevel left ts → Says (op.level + 1) right us →
      Says n (.binary op left right) (ts ++ .op op :: us)
  | object {n : Nat} {members : List (String × Syntax)} {tss : List (List Lexeme)} :
    List.Forall₂ SaysMember members tss →
      Says n (.object members) (.name "new" :: .mark .openBrace :: (withCommas tss ++ [.mark .closeBrace]))
  | enclosed {n : Nat} {t : Syntax} {ts : List Lexeme} :
    Says 1 t ts → Says n t (.mark .opening :: (ts ++ [.mark .closing]))

/-- The lexemes of an argument. -/
inductive SaysArgument : Syntax → List Lexeme → Prop where
  | value {t : Syntax} {ts : List Lexeme} : Says 1 t ts → SaysArgument t ts
  | function {params : List String} {body : Syntax} {ts us : List Lexeme} :
    SaysParameters params ts → Says 1 body us → SaysArgument (.lambda params body) (ts ++ .mark .arrow :: us)

/-- The lexemes of the arguments of a call, with their parentheses. -/
inductive SaysArguments : List Syntax → List Lexeme → Prop where
  | listed {args : List Syntax} {tss : List (List Lexeme)} : List.Forall₂ SaysArgument args tss →
    SaysArguments args (.mark .opening :: (withCommas tss ++ [.mark .closing]))

/-- The lexemes of a member of a new object: `name = value`, or a value that has the name. -/
inductive SaysMember : String × Syntax → List Lexeme → Prop where
  | named {label : String} {value : Syntax} {ts : List Lexeme} :
    IsName label → Says 1 value ts → SaysMember (label, value) (.name label :: .mark .equals :: ts)
  | implied {label : String} {value : Syntax} {ts : List Lexeme} :
    value.impliedName = some label → Says 1 value ts → SaysMember (label, value) ts

end

/-! ## Lexemes are laid out -/

theorem IsGap.laidOut {gap : List Char} (h : IsGap gap) : LaidOut [] gap :=
  .done h

theorem Spaced.laidOut {core cs : List Char} (h : Spaced core cs) {ts : List Lexeme} (hcore : LaidOut ts core) :
    LaidOut ts cs := by
  obtain ⟨gap, gap', hgap, hgap', rfl⟩ := h
  simpa using hgap.laidOut.append (hcore.append hgap'.laidOut)

theorem LaidOut.name {s : String} (h : IsName s) : LaidOut [.name s] s.toList :=
  .single ⟨h, rfl⟩

theorem LaidOut.mark {m : Mark} : LaidOut [.mark m] m.chars :=
  .single rfl

section Lists

variable {α : Type} {S : α → List Char → Prop} {T : α → List Lexeme → Prop} {k : Nat} {as : List α}
  {cs : List Char}

/-- What is said of each item is said of a list with commas between the items. -/
theorem Listed.lexemes (h : Listed S as cs)
    (hitem : ∀ a ds, S a ds → ds.length ≤ k → ∃ ts, LaidOut ts ds ∧ T a ts) (hk : cs.length ≤ k) :
    ∃ tss, List.Forall₂ T as tss ∧ LaidOut (withCommas tss) cs := by
  have hmore : ∀ {as : List α} {cs : List Char}, Following S as cs → cs.length ≤ k →
      ∃ tss, List.Forall₂ T as tss ∧ LaidOut (tss.flatMap fun us => .mark .comma :: us) cs := by
    intro as cs h hk
    induction h with
    | nil => exact ⟨[], .nil, .done (List.forall_mem_nil _)⟩
    | @cons a as cs ds es hcomma ha _ ih =>
      simp only [List.length_append] at hk
      obtain ⟨ts, hts, hT⟩ := hitem a ds ha (by omega)
      obtain ⟨tss, htss, hrest⟩ := ih (by omega)
      have hmark : LaidOut [.mark .comma] cs := hcomma.laidOut (LaidOut.mark (m := .comma))
      exact ⟨ts :: tss, .cons hT htss, hmark.append (hts.append hrest)⟩
  cases h with
  | nil => exact ⟨[], .nil, .done (List.forall_mem_nil _)⟩
  | @cons a as cs ds ha has =>
    rw [List.length_append] at hk
    obtain ⟨ts, hts, hT⟩ := hitem a cs ha (by omega)
    obtain ⟨tss, htss, hrest⟩ := hmore has (by omega)
    exact ⟨ts :: tss, .cons hT htss, hts.append hrest⟩

end Lists

/-! ## What is derived is said -/

theorem DerivesParameters.lexemes {ps : List String} {cs : List Char} (h : DerivesParameters ps cs) :
    ∃ ts, LaidOut ts cs ∧ SaysParameters ps ts := by
  cases h with
  | @one p hp => exact ⟨[.name p], .name hp, List.cons_ne_nil _ _, by simpa using hp, .inr ⟨rfl, rfl⟩⟩
  | @several p ps cs hps =>
    have hitem : ∀ p ds, IsName p ∧ Spaced p.toList ds → ds.length ≤ cs.length →
        ∃ ts, LaidOut ts ds ∧ IsName p ∧ ts = [.name p] := fun p ds hp _ =>
      ⟨[.name p], hp.2.laidOut (.name hp.1), hp.1, rfl⟩
    obtain ⟨tss, htss, hlist⟩ := hps.lexemes hitem (Nat.le_refl _)
    have hnames : ∀ {qs : List String} {tss : List (List Lexeme)},
        List.Forall₂ (fun p ts => IsName p ∧ ts = [.name p]) qs tss →
          (∀ p ∈ qs, IsName p) ∧ tss = qs.map fun p => [.name p] := by
      intro qs tss h
      induction h with
      | nil => simp
      | cons hp _ ih => exact ⟨by simpa using ⟨hp.1, ih.1⟩, by rw [ih.2, hp.2, List.map_cons]⟩
    obtain ⟨hproper, rfl⟩ := hnames htss
    have hopening : LaidOut [.mark .opening] ['('] := LaidOut.mark (m := .opening)
    have hclosing : LaidOut [.mark .closing] [')'] := LaidOut.mark (m := .closing)
    exact ⟨_, hopening.append (hlist.append hclosing), List.cons_ne_nil _ _, hproper, .inl rfl⟩

theorem IsNumeral.saysLiteral {v : Value} {cs : List Char} (h : IsNumeral v cs) : SaysLiteral v [.number v] := by
  obtain ⟨negative, ds, -, ⟨-, rfl⟩ | ⟨places, -, -, rfl⟩⟩ := h
  · rfl
  · rfl

theorem DerivesMemberName.lexemes {field : String} {cs : List Char} (h : DerivesMemberName field cs) :
    IsName field ∧ LaidOut [.mark .point, .name field] cs := by
  obtain ⟨hfield, gap, ds, hgap, hds, rfl⟩ := h
  have hpoint : LaidOut [.mark .point] ['.'] := LaidOut.mark (m := .point)
  exact ⟨hfield, by simpa using hgap.laidOut.append (hpoint.append (hds.laidOut (.name hfield)))⟩

mutual

/-- The characters that the grammar has for a tree are, but for blanks, lexemes that say the tree. -/
theorem Derives.lexemes {n : Nat} {t : Syntax} {cs : List Char} (h : Derives n t cs) :
    ∃ ts, LaidOut ts cs ∧ Says n t ts := by
  cases h with
  | @atom _ _ core _ hatom hspaced =>
    have hle := hspaced.length_le
    obtain ⟨ts, hts, hsays⟩ := hatom.lexemes n
    exact ⟨ts, hspaced.laidOut hts, hsays⟩
  | member htarget hfield =>
    have hlt := hfield.length_pos
    obtain ⟨ts, hts, hsays⟩ := htarget.lexemes
    exact ⟨_, hts.append hfield.lexemes.2, .member hsays hfield.lexemes.1⟩
  | call htarget hmethod hargs hgap =>
    have hlt := hmethod.length_pos
    obtain ⟨ts, hts, hsays⟩ := htarget.lexemes
    obtain ⟨us, hus, hlist⟩ := hargs.lexemes
    refine ⟨_, hts.append (hmethod.lexemes.2.append (hus.append hgap.laidOut)), ?_⟩
    simpa using Says.call hsays hmethod.lexemes.1 hlist
  | @binary _ op _ _ _ _ _ hlevel hleft hop hright =>
    have hlt := length_pos_of_spaced_operator hop
    obtain ⟨ts, hts, hsays⟩ := hleft.lexemes
    obtain ⟨us, hus, hsays'⟩ := hright.lexemes
    have htoken : LaidOut [.op op] op.token.toList := .single rfl
    exact ⟨_, hts.append ((hop.laidOut htoken).append hus), .binary hlevel hsays hsays'⟩
termination_by 4 * cs.length + 2
decreasing_by all_goals grind

theorem DerivesAtom.lexemes {t : Syntax} {core : List Char} (h : DerivesAtom t core) (n : Nat) :
    ∃ ts, LaidOut ts core ∧ Says n t ts := by
  have hword : ∀ {s : String}, s = "null" ∨ s = "true" ∨ s = "false" ∨ s = "new" ∨ s = "date" →
      LaidOut [.name s] s.toList := fun hs => .name (isName_of_word hs)
  cases h with
  | null => exact ⟨_, hword (by simp), .literal rfl⟩
  | @bool b => cases b <;> exact ⟨_, hword (by simp), .literal rfl⟩
  | @number v _ hv =>
    have hnumber : LaidOut [.number v] core := .single hv
    exact ⟨_, hnumber, .literal hv.saysLiteral⟩
  | text hs => exact ⟨_, .single hs, .literal rfl⟩
  | @date t s gap hgap hmoment =>
    have htext : LaidOut [.text s] (Token.chars (.text s)) := .single (.inl rfl)
    exact ⟨_, (hword (by simp)).append (hgap.laidOut.append htext), .literal ⟨s, hmoment, rfl⟩⟩
  | name hs => exact ⟨_, .name hs.1, .name hs⟩
  | freeCall hs hargs =>
    obtain ⟨us, hus, hlist⟩ := hargs.lexemes
    exact ⟨_, LaidOut.append (.name hs.1) hus, .freeCall hs hlist⟩
  | @object members ds cs gap hds hlist hgap =>
    obtain ⟨tss, htss, hmembers⟩ := hlist.lexemes (k := cs.length) (fun a ds ha hds => ha.lexemes) (Nat.le_refl _)
    have hopen : LaidOut [.mark .openBrace] ds := hds.laidOut (LaidOut.mark (m := .openBrace))
    have hclose : LaidOut [.mark .closeBrace] ['\x7d'] := LaidOut.mark (m := .closeBrace)
    exact ⟨_, (hword (by simp)).append (hopen.append (hmembers.append (hgap.laidOut.append hclose))), .object htss⟩
  | enclosed ht =>
    obtain ⟨ts, hts, hsays⟩ := ht.lexemes
    have hopening : LaidOut [.mark .opening] ['('] := LaidOut.mark (m := .opening)
    have hclosing : LaidOut [.mark .closing] [')'] := LaidOut.mark (m := .closing)
    exact ⟨_, hopening.append (hts.append hclosing), .enclosed hsays⟩
termination_by 4 * core.length + 1
decreasing_by all_goals grind

theorem DerivesArguments.lexemes {args : List Syntax} {cs : List Char} (h : DerivesArguments args cs) :
    ∃ ts, LaidOut ts cs ∧ SaysArguments args ts := by
  cases h with
  | @listed _ gap cs gap' hgap hlist hgap' =>
    obtain ⟨tss, htss, hargs⟩ := hlist.lexemes (k := cs.length) (fun a ds ha hds => ha.lexemes) (Nat.le_refl _)
    have hopening : LaidOut [.mark .opening] ['('] := LaidOut.mark (m := .opening)
    have hclosing : LaidOut [.mark .closing] [')'] := LaidOut.mark (m := .closing)
    exact ⟨_, hgap.laidOut.append (hopening.append (hargs.append (hgap'.laidOut.append hclosing))), .listed htss⟩
termination_by 4 * cs.length
decreasing_by all_goals grind

theorem DerivesArgument.lexemes {t : Syntax} {cs : List Char} (h : DerivesArgument t cs) :
    ∃ ts, LaidOut ts cs ∧ SaysArgument t ts := by
  cases h with
  | value ht =>
    obtain ⟨ts, hts, hsays⟩ := ht.lexemes
    exact ⟨ts, hts, .value hsays⟩
  | function hps hspaced hbody =>
    obtain ⟨ts, hts, hparameters⟩ := hps.lexemes
    obtain ⟨us, hus, hsays⟩ := hbody.lexemes
    have harrow : LaidOut [.mark .arrow] ['=', '>'] := LaidOut.mark (m := .arrow)
    exact ⟨_, (hspaced.laidOut hts).append (harrow.append hus), .function hparameters hsays⟩
termination_by 4 * cs.length + 3
decreasing_by all_goals grind

theorem DerivesMember.lexemes {member : String × Syntax} {cs : List Char} (h : DerivesMember member cs) :
    ∃ ts, LaidOut ts cs ∧ SaysMember member ts := by
  cases h with
  | named hlabel hspaced hvalue =>
    obtain ⟨ts, hts, hsays⟩ := hvalue.lexemes
    have hequals : LaidOut [.mark .equals] ['='] := LaidOut.mark (m := .equals)
    exact ⟨_, (hspaced.laidOut (.name hlabel)).append (hequals.append hts), .named hlabel hsays⟩
  | implied hlabel hvalue =>
    obtain ⟨ts, hts, hsays⟩ := hvalue.lexemes
    exact ⟨ts, hts, .implied hlabel hsays⟩
termination_by 4 * cs.length + 3
decreasing_by all_goals grind

end

/-- Whatever the depth, an expression that is read is said by what is taken off the text. -/
theorem reads_expression (depth : Nat) :
    Consumes (expression depth) fun t cs => ∃ ts, LaidOut ts cs ∧ Says 1 t ts :=
  (consumes_expression depth).mono fun _ _ h => h.lexemes

end QueryChain.Grammar

namespace QueryChain

open Grammar

/-! ## Whole texts -/

/-- A text that is read as a tree is, but for blanks, lexemes that say that tree: nothing in it is left out. -/
theorem Syntax.says_of_ofText {text : String} {t : Syntax} (h : Syntax.ofText text = .ok t) :
    ∃ ts, Says 1 t ts ∧ LaidOut ts (Text.trim text.toList) := by
  rw [Syntax.ofText, Syntax.ofChars] at h
  split at h
  · next tree hread =>
    cases h
    obtain ⟨front, hfront, ts, hts, hsays⟩ := reads_expression _ _ _ _ hread
    exact ⟨ts, hsays, by rwa [hfront, List.append_nil]⟩
  · cases h
  · cases h
  · cases h

/-- Parentheses that change nothing, a number with a zero in front and a member that its value names. -/
theorem Syntax.says_of_ofText_adults :
    ∃ ts, Says 1 (.call (.name "Customers") "Select" [.lambda ["c"] (.object [("Name", .member (.name "c") "Name"),
        ("Adult", .binary .ge (.member (.name "c") "Age") (.literal (.int 18)))])]) ts ∧
      LaidOut ts (Text.trim " Customers . Select( (c) =>new \x7b (c.Name), Adult = ((c).Age) >= 018\x7d ) ".toList) :=
  Syntax.says_of_ofText (by cbv)

end QueryChain
