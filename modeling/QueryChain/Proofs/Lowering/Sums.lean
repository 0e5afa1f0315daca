import QueryChain.Grammar.Resolve
import QueryChain.Proofs.Lowering.Run

/-!
# Sums

A `+` joins texts if one of its sides has the static type of a text, and a sum has the static type of its left side. In
a sum of sums this is the type of the leaf furthest to the left. A text further to the right is therefore forgotten from
the next `+` on, which adds numbers again.

* `Grammar.resolve_written`: in a query text, `+` builds such sums.
* `Addition.ty_expr`: the type of a sum is that of its first leaf.
* `Addition.joinsTexts_iff`: a node joins texts if one of its sides begins with one.
* `Addition.standsFor_add`: every node of a sum, by its two sides.
* `Addition.render_add`: how a node is written, and when that goes by all the leaves below it.
-/

namespace QueryChain

/-! ## Leaves in any nesting -/

/-- Leaves added up in any nesting. -/
inductive Addition (α : Type) where
  | leaf (a : α)
  | add (left right : Addition α)

namespace Addition

section

variable {α β : Type}

/-- The leaves from left to right. -/
def leaves : Addition α → List α
  | leaf a => [a]
  | add l r => l.leaves ++ r.leaves

/-- The leaf furthest to the left. -/
def first : Addition α → α
  | leaf a => a
  | add l _ => l.first

theorem first_mem_leaves (s : Addition α) : s.first ∈ s.leaves := by
  induction s with
  | leaf a => exact List.mem_singleton_self a
  | add l r hl hr => exact List.mem_append_left _ hl

/-- Leaves that are related, in the same nesting. -/
def Matches (R : α → β → Prop) : Addition α → Addition β → Prop
  | leaf a, leaf b => R a b
  | add l r, add l' r' => l.Matches R l' ∧ r.Matches R r'
  | _, _ => False

end

/-- The sum in a query text. -/
def written : Addition Syntax → Syntax
  | leaf s => s
  | add l r => .binary .add l.written r.written

/-- The tree of a sum. -/
def expr : Addition Expr → Expr
  | leaf e => e
  | add l r => .applyOp .add l.expr r.expr

/-- Some leaf has the static type of a text. -/
def HasText (s : Addition Expr) : Prop :=
  ∃ e ∈ s.leaves, e.ty.asScalar = some .text

/-- The first leaf has the static type of a text. -/
def BeginsWithText (s : Addition Expr) : Prop :=
  s.first.ty.asScalar = some .text

/-- The type of a sum is that of its first leaf. -/
theorem ty_expr (s : Addition Expr) : s.expr.ty = s.first.ty := by
  induction s with
  | leaf e => rfl
  | add l r hl hr => exact hl

/-- A sum has the type of a text if it begins with one. -/
theorem asScalar_eq_text {s : Addition Expr} : s.expr.ty.asScalar = some .text ↔ s.BeginsWithText := by
  rw [ty_expr, BeginsWithText]

theorem BeginsWithText.hasText {s : Addition Expr} (h : s.BeginsWithText) : s.HasText :=
  ⟨s.first, s.first_mem_leaves, h⟩

theorem hasText_add {l r : Addition Expr} : (add l r).HasText ↔ l.HasText ∨ r.HasText := by
  simp only [HasText, leaves, List.mem_append, or_and_right, exists_or]

end Addition

/-! ## Sums in query texts -/

namespace Grammar

/-- What a sum in a query text resolves to is the sum of what its leaves resolve to. -/
theorem resolve_written {schema : Schema} {scope : TypeScope} {s : Addition Syntax} {e : Expr} :
    resolve schema scope s.written = .ok e ↔
      ∃ t : Addition Expr, s.Matches (fun leaf e => resolve schema scope leaf = .ok e) t ∧ e = t.expr := by
  induction s generalizing e with
  | leaf a =>
    constructor
    · intro h
      exact ⟨.leaf e, h, rfl⟩
    · rintro ⟨t, h, rfl⟩
      cases t with
      | leaf b => exact h
      | add l r => exact h.elim
  | add l r hl hr =>
    have hresolve : resolve schema scope (Addition.add l r).written =
        resolve schema scope l.written >>= fun left =>
          resolve schema scope r.written >>= fun right => pure (.applyOp .add left right) := by
      rw [Addition.written, resolve]
    rw [hresolve, bind_eq_ok]
    constructor
    · rintro ⟨left, hleft, h⟩
      obtain ⟨right, hright, hsum⟩ := bind_eq_ok.mp h
      cases hsum
      obtain ⟨t, ht, rfl⟩ := hl.mp hleft
      obtain ⟨u, hu, rfl⟩ := hr.mp hright
      exact ⟨.add t u, ⟨ht, hu⟩, rfl⟩
    · rintro ⟨t, h, rfl⟩
      cases t with
      | leaf b => exact h.elim
      | add t u => exact ⟨t.expr, hl.mpr ⟨t, h.1, rfl⟩, bind_eq_ok.mpr ⟨u.expr, hr.mpr ⟨u, h.2, rfl⟩, rfl⟩⟩

end Grammar

/-! ## Terms of sums -/

/-- Two of the dialects join texts with an operator of their own. -/
theorem Term.render_concat {o : Options} (ho : o.dialect = .sqlite ∨ o.dialect = .postgres) {tl tr : Term} :
    (Term.concat tl tr).render o = "(" ++ tl.render o ++ " || " ++ tr.render o ++ ")" := by
  rcases ho with ho | ho <;> rw [Term.render, ho, Dialect.concat] <;>
    simp only [String.intercalate_cons_cons, String.intercalate_singleton, String.append_assoc]

theorem Term.render_binary_add {o : Options} {tl tr : Term} :
    (Term.binary .add tl tr).render o = "(" ++ tl.render o ++ " + " ++ tr.render o ++ ")" := by
  have hsign : " " ++ BinaryOp.sql .add ++ " " = " + " := by decide
  rw [Term.render, ← hsign]
  simp only [String.append_assoc]

/-- An expression stands for an SQL term, between two states of the clauses. -/
def Expr.StandsFor (e : Expr) (env : Env) (c c' : Clauses) (t : Term) : Prop :=
  ∃ row, ExceptT.run (e.rowOf env) c = (.ok row, c') ∧ row.toTerm = .ok t

namespace Addition

open Lowering Lower

variable {l r : Addition Expr} {env : Env} {c c' : Clauses} {u : Term}

/-- A node of a sum stands for its two sides, joined or added. -/
theorem standsFor_add :
    (add l r).expr.StandsFor env c c' u ↔
      ∃ c₁ tl tr, l.expr.StandsFor env c c₁ tl ∧ r.expr.StandsFor env c₁ c' tr ∧
        u = if joinsTexts .add l.expr r.expr then .concat tl tr else .binary .add tl tr := by
  have hrow : (add l r).expr.rowOf env = l.expr.rowOf env >>= fun left => r.expr.rowOf env >>= fun right =>
      combine .add (joinsTexts .add l.expr r.expr) left right := by
    rw [expr, Expr.applyOp, Expr.rowOf]
  have hadd : ¬ (BinaryOp.add = .eq ∨ BinaryOp.add = .ne) := by decide
  constructor
  · rintro ⟨row, hrun, hu⟩
    rw [hrow] at hrun
    obtain ⟨left, c₁, hleft, hrest⟩ := run_bind_eq_ok.mp hrun
    obtain ⟨right, c₂, hright, hcombine⟩ := run_bind_eq_ok.mp hrest
    obtain ⟨tl, tr, htl, htr, rfl, rfl⟩ := (run_combine_eq_ok hadd).mp hcombine
    cases hu
    exact ⟨c₁, tl, tr, ⟨left, hleft, htl⟩, ⟨right, hright, htr⟩, rfl⟩
  · rintro ⟨c₁, tl, tr, ⟨left, hleft, htl⟩, ⟨right, hright, htr⟩, rfl⟩
    refine ⟨.term _, ?_, rfl⟩
    rw [hrow, run_bind_of_ok hleft, run_bind_of_ok hright]
    exact (run_combine_eq_ok hadd).mpr ⟨tl, tr, htl, htr, rfl, rfl⟩

/-- A node joins texts if one of its sides begins with one. -/
theorem joinsTexts_iff : joinsTexts .add l.expr r.expr = true ↔ l.BeginsWithText ∨ r.BeginsWithText := by
  simp only [joinsTexts, asScalar_eq_text, Bool.and_eq_true, Bool.or_eq_true, decide_eq_true_eq, true_and]

/-- How a node of a sum is written where texts have an operator of their own. It is joined if one of its sides begins
with a text, and its type is a text if it begins with one itself; there is a text among its leaves in either case. Both
go by all its leaves exactly if it begins with a text or has none. -/
theorem render_add {o : Options} (ho : o.dialect = .sqlite ∨ o.dialect = .postgres)
    (h : (add l r).expr.StandsFor env c c' u) :
    ∃ (joined : Bool) (c₁ : Clauses) (tl tr : Term),
      l.expr.StandsFor env c c₁ tl ∧ r.expr.StandsFor env c₁ c' tr ∧
        u.render o = "(" ++ tl.render o ++ (if joined then " || " else " + ") ++ tr.render o ++ ")" ∧
        (joined = true ↔ l.BeginsWithText ∨ r.BeginsWithText) ∧
        ((add l r).expr.ty.asScalar = some .text ↔ (add l r).BeginsWithText) ∧
        (joined = true ∨ (add l r).expr.ty.asScalar = some .text → (add l r).HasText) ∧
        ((joined = true ↔ (add l r).HasText) ∧ ((add l r).expr.ty.asScalar = some .text ↔ (add l r).HasText) ↔
          ((add l r).HasText → (add l r).BeginsWithText)) := by
  obtain ⟨c₁, tl, tr, hl, hr, rfl⟩ := standsFor_add.mp h
  have hjoined := joinsTexts_iff (l := l) (r := r)
  have hhasText : joinsTexts .add l.expr r.expr = true ∨ (add l r).expr.ty.asScalar = some .text →
      (add l r).HasText := by
    rw [hjoined, asScalar_eq_text]
    rintro ((hleft | hright) | hfirst)
    · exact hasText_add.mpr (Or.inl hleft.hasText)
    · exact hasText_add.mpr (Or.inr hright.hasText)
    · exact hfirst.hasText
  refine ⟨joinsTexts .add l.expr r.expr, c₁, tl, tr, hl, hr, ?_, hjoined, asScalar_eq_text, hhasText, ?_⟩
  · cases joinsTexts .add l.expr r.expr with
    | false => exact Term.render_binary_add
    | true => exact Term.render_concat ho
  · constructor
    · rintro ⟨-, hagrees⟩ htext
      exact asScalar_eq_text.mp (hagrees.mpr htext)
    · intro hbegins
      refine ⟨⟨fun h => hhasText (Or.inl h), fun htext => ?_⟩, fun h => hhasText (Or.inr h), fun htext => ?_⟩
      · exact hjoined.mpr (Or.inl (hbegins htext))
      · exact asScalar_eq_text.mpr (hbegins htext)

/-- `'no. ' + 7`. -/
def numbered : Addition Expr := .add (.leaf (.ofValue (.text "no. "))) (.leaf (.ofValue (.int 7)))

/-- `1 + 'a' + 2`. -/
def mixed : Addition Expr :=
  .add (.add (.leaf (.ofValue (.int 1))) (.leaf (.ofValue (.text "a")))) (.leaf (.ofValue (.int 2)))

/-- `'no. ' + 7` begins with a text, and is joined. -/
theorem render_add_numbered :
    numbered.HasText ∧ ∃ u tl tr : Term, numbered.expr.StandsFor [] .empty .empty u ∧
      u.render ⟨"t", true, .sqlite⟩ =
        "(" ++ tl.render ⟨"t", true, .sqlite⟩ ++ " || " ++ tr.render ⟨"t", true, .sqlite⟩ ++ ")" := by
  have hstands : numbered.expr.StandsFor [] .empty .empty
      (.concat (.literal (.text "no. ")) (.literal (.int 7))) := ⟨_, rfl, rfl⟩
  have ho : (Options.mk "t" true .sqlite).dialect = .sqlite ∨ (Options.mk "t" true .sqlite).dialect = .postgres :=
    Or.inl rfl
  obtain ⟨joined, -, tl, tr, -, -, hrender, hjoined, -, hhasText, -⟩ := render_add ho hstands
  obtain rfl : joined = true := hjoined.mpr (Or.inl rfl)
  exact ⟨hhasText (Or.inl rfl), _, tl, tr, hstands, hrender⟩

/-- `1 + 'a' + 2` has a text among its leaves, but its type is that of a number, and the number is added to a joined
text. -/
theorem adds_text :
    mixed.HasText ∧ mixed.expr.ty.asScalar = some .int ∧
      ∃ u : Term, mixed.expr.StandsFor [] .empty .empty u ∧ u.render ⟨"t", true, .sqlite⟩ = "((1 || 'a') + 2)" := by
  have htext : mixed.HasText := ⟨.ofValue (.text "a"), by simp [mixed, leaves], rfl⟩
  have hstands : mixed.expr.StandsFor [] .empty .empty
      (.binary .add (.concat (.literal (.int 1)) (.literal (.text "a"))) (.literal (.int 2))) := ⟨_, rfl, rfl⟩
  exact ⟨htext, rfl, _, hstands, by decide⟩

end Addition

end QueryChain
