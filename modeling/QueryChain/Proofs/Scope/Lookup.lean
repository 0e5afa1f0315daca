import QueryChain.Proofs.Scope.WellScoped

/-!
# What is looked up

A tree refers to parameters, functions, arguments and operators by name or by position, and a row to a join by its
number. Where none of these is looked up a step may fail, for a member or a scalar that is not what it should be, but
not because something that is referred to is not there. So it is with members, scalars and methods, and with what
clauses are put together to.

* `FindsAll`: results that do not fail for want of what is looked up.
* `Value.findsAll_invoke`, `Row.findsAll_toTerm`: methods and scalars.
* `Clauses.findsAll_assemble`: statements.
-/

namespace QueryChain

open Lowering

/-- Whether a fault says that a join is not there. -/
def Fault.isMissingJoin : Fault → Bool
  | .use (.missingJoin _) => true
  | _ => false

/-- Whether a fault says that something is not there, or not what it should be, that is looked up by name, by position
or by number: a parameter, a function, an argument, an operator or a join. -/
def Fault.isOfLookup (f : Fault) : Bool :=
  f.isMissingJoin || f.isOfScope

theorem Fault.isOfScope_of_isOfLookup {f : Fault} (h : f.isOfLookup = false) : f.isOfScope = false :=
  (Bool.or_eq_false_iff.mp h).2

theorem Fault.isMissingJoin_of_isOfLookup {f : Fault} (h : f.isOfLookup = false) : f.isMissingJoin = false :=
  (Bool.or_eq_false_iff.mp h).1

/-- A result that does not fail for want of what is looked up. -/
def FindsAll {α : Type} (r : Except Fault α) : Prop :=
  ∀ f, r = .error f → f.isOfLookup = false

section Results

variable {α β : Type}

theorem findsAll_ok (a : α) : FindsAll (.ok a) := by
  intro f h
  cases h

theorem findsAll_error {f : Fault} (hf : f.isOfLookup = false) : FindsAll (.error f : Except Fault α) := by
  intro f' h
  cases h
  exact hf

theorem FindsAll.bind {r : Except Fault α} {k : α → Except Fault β} (hr : FindsAll r) (hk : ∀ a, FindsAll (k a)) :
    FindsAll (r >>= k) := by
  cases r with
  | error e => exact findsAll_error (hr e rfl)
  | ok a => exact hk a

theorem FindsAll.isScopedResult {r : Except Fault α} (h : FindsAll r) : IsScopedResult r :=
  fun f hf => Fault.isOfScope_of_isOfLookup (h f hf)

end Results

/-! ## Members and scalars -/

theorem findsAll_columnOf (m : Model) (name : String) : FindsAll (m.columnOf name) := by
  intro f h
  obtain ⟨-, rfl⟩ := Model.columnOf_eq_error h
  rfl

theorem Entries.findsAll_find (e : Entries) (name : String) : FindsAll (e.find name) := by
  rw [Entries.find]
  cases e.list.lookup name with
  | none => exact findsAll_error rfl
  | some r => exact findsAll_ok r

theorem Captured.findsAll_member (c : Captured) (name : String) : FindsAll (c.member name) := by
  cases c with
  | scalar v => exact findsAll_error rfl
  | object typeName fields =>
    rw [Captured.member]
    cases fields.lookup name with
    | none => exact findsAll_error rfl
    | some d => exact findsAll_ok d

theorem Value.findsAll_requireLiteral (v : Value) : FindsAll v.requireLiteral := by
  cases v with
  | float x =>
    rw [Value.requireLiteral]
    split
    · exact findsAll_ok ()
    · exact findsAll_error rfl
  | _ => exact findsAll_ok ()

theorem Row.findsAll_toTerm (r : Row) : FindsAll r.toTerm := by
  cases r with
  | term t => exact findsAll_ok t
  | scalar v => exact v.findsAll_requireLiteral.bind fun _ => findsAll_ok _
  | _ => exact findsAll_error rfl

/-! ## Methods -/

theorem Value.findsAll_textOperand (v : Value) (method : String) : FindsAll (v.textOperand method) := by
  cases v with
  | text s => exact findsAll_ok s
  | _ => exact findsAll_error rfl

theorem Value.findsAll_amount (v : Value) : FindsAll v.amount := by
  cases v with
  | int n => exact findsAll_ok _
  | float x => exact findsAll_ok _
  | _ => exact findsAll_error rfl

theorem Value.findsAll_invoke (v : Value) (name : String) (args : List Value) : FindsAll (v.invoke name args) := by
  unfold Value.invoke
  split
  · exact findsAll_ok _
  · exact (v.findsAll_textOperand name).bind fun _ => findsAll_ok _
  · exact (v.findsAll_textOperand name).bind fun _ =>
      (Value.findsAll_textOperand _ name).bind fun _ => findsAll_ok _
  · split
    · refine (Value.findsAll_amount _).bind fun x => ?_
      split
      · exact findsAll_ok _
      · exact findsAll_error rfl
    · exact findsAll_error rfl
  · exact findsAll_error rfl

/-! ## Statements -/

namespace Clauses

theorem findsAll_selectedTerm (r : Row) : FindsAll (selectedTerm r) := by
  cases r with
  | term t => exact findsAll_ok t
  | scalar v => exact v.findsAll_requireLiteral.bind fun _ => findsAll_ok _
  | _ => exact findsAll_error rfl

theorem findsAll_memberItems (list : List (String × Row)) : FindsAll (memberItems list) := by
  induction list with
  | nil => exact findsAll_ok []
  | cons p rest ih => exact (findsAll_selectedTerm p.2).bind fun _ => ih.bind fun _ => findsAll_ok _

theorem findsAll_requireSettable (m : Model) (names : List String) : FindsAll (requireSettable m names) := by
  induction names with
  | nil => exact findsAll_ok ()
  | cons name rest ih =>
    rw [requireSettable]
    split
    · split
      · exact ih
      · exact findsAll_error rfl
    · exact findsAll_error rfl

theorem findsAll_requireSupplied (m : Model) (names params : List String) :
    FindsAll (requireSupplied m names params) := by
  induction params with
  | nil => exact findsAll_ok ()
  | cons param rest ih =>
    rw [requireSupplied]
    split
    · exact ih
    · exact findsAll_error rfl

theorem findsAll_namedShape (m : Model) (fields : Entries) : FindsAll (namedShape m fields) :=
  (findsAll_requireSettable m fields.names).bind fun _ => findsAll_ok _

theorem findsAll_positionalShape (m : Model) (fields : Entries) : FindsAll (positionalShape m fields) := by
  rw [positionalShape]
  split
  · exact (findsAll_requireSupplied m fields.names _).bind fun _ => findsAll_ok _
  · exact findsAll_error rfl

theorem findsAll_selection (c : Clauses) (root : TableRef) : FindsAll (c.selection root) := by
  rw [selection]
  split
  · exact (findsAll_selectedTerm _).bind fun _ => findsAll_ok _
  · refine (findsAll_memberItems _).bind fun _ => ?_
    split
    · exact (findsAll_positionalShape _ _).bind fun _ => findsAll_ok _
    · exact (findsAll_namedShape _ _).bind fun _ => findsAll_ok _
  · refine (findsAll_memberItems _).bind fun _ => ?_
    split
    · exact (findsAll_positionalShape _ _).bind fun _ => findsAll_ok _
    · exact (findsAll_namedShape _ _).bind fun _ => findsAll_ok _
  · exact findsAll_ok _
  · exact findsAll_ok _

/-- Clauses are put together without looking anything up. -/
theorem findsAll_assemble (c : Clauses) : FindsAll c.assemble := by
  rw [assemble]
  cases c.root with
  | none => exact findsAll_error rfl
  | some root => exact (c.findsAll_selection root).bind fun _ => findsAll_ok _

end Clauses

end QueryChain
