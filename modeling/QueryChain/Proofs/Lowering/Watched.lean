import QueryChain.Proofs.Lowering.Run

/-!
# Watching an evaluation

A tree is evaluated node by node. The evaluation of a node begins with parameters in scope and with the clauses that
have been gathered, and it ends, where it yields a row and where it fails, with clauses again. An evaluation can be
watched: something is done around each of its nodes, whichever operator, function or node asked for it. To say that
something holds at every point of an evaluation is to say that a watch that asserts it goes unnoticed.

* `Watch.asserting`: the watch that asserts a condition around every node.
* `Expr.Always`: what holds at every point of an evaluation, and with that where it begins and ends.
-/

namespace QueryChain

open Lowering Lower

/-! ## Points -/

/-- A point of an evaluation, where a node is entered or left. -/
structure Point where
  /-- The parameters in scope and what they stand for. -/
  scope : Env
  /-- What the node yields. There is nothing where it is entered or fails. -/
  value : Option Row
  clauses : Clauses

namespace Expr

/-- Something is done around every node. -/
theorem rowOf_watch (watch : Watch) (env : Env) (e : Expr) : ∃ m, e.rowOf env .standard watch = watch env m := by
  cases e <;> exact ⟨_, by rw [rowOf]⟩

end Expr

/-! ## Assertions -/

/-- Asserts a condition where a node is entered and where it is left. Where the condition fails, the evaluation ends
with an alarm. -/
def Watch.asserting (P : Point → Prop) [DecidablePred P] (alarm : Fault) : Watch := fun env m =>
  ExceptT.mk fun c =>
    if P ⟨env, none, c⟩ then
      let (r, c') := ExceptT.run m c
      if P ⟨env, r.toOption, c'⟩ then (r, c') else (.error alarm, c')
    else (.error alarm, c)

section

variable {P : Point → Prop} [DecidablePred P] {env : Env} {m : Lower Row} {c : Clauses}

theorem Watch.run_asserting (alarm : Fault) :
    ExceptT.run (Watch.asserting P alarm env m) c =
      if P ⟨env, none, c⟩ then
        if P ⟨env, (ExceptT.run m c).1.toOption, (ExceptT.run m c).2⟩ then ExceptT.run m c
        else (.error alarm, (ExceptT.run m c).2)
      else (.error alarm, c) := rfl

/-- Where the condition holds before and after a node, nothing is noticed. -/
theorem Watch.run_asserting_of_holds (alarm : Fault) (hbefore : P ⟨env, none, c⟩)
    (hafter : P ⟨env, (ExceptT.run m c).1.toOption, (ExceptT.run m c).2⟩) :
    ExceptT.run (Watch.asserting P alarm env m) c = ExceptT.run m c := by
  rw [run_asserting, if_pos hbefore, if_pos hafter]

namespace Expr

/-- A condition holds at every point of the evaluation of a tree: whatever the alarm is, asserting the condition around
every node makes no difference. -/
def Always (P : Point → Prop) [DecidablePred P] (e : Expr) (env : Env) (c : Clauses) : Prop :=
  ∀ alarm, ExceptT.run (e.rowOf env .standard (Watch.asserting P alarm)) c = ExceptT.run (e.rowOf env) c

variable {e : Expr}

/-- Some alarm is not the fault that an evaluation ends with. -/
theorem exists_alarm (r : Except Fault Row) : ∃ alarm, r ≠ .error alarm := by
  by_cases h : r = .error (.form .noTable)
  · refine ⟨.use .joinKeyArity, ?_⟩
    rw [h]
    nofun
  · exact ⟨.form .noTable, h⟩

/-- It holds where the evaluation begins and where it ends. -/
theorem Always.ends (h : e.Always P env c) :
    P ⟨env, none, c⟩ ∧ P ⟨env, (ExceptT.run (e.rowOf env) c).1.toOption, (ExceptT.run (e.rowOf env) c).2⟩ := by
  obtain ⟨alarm, halarm⟩ := exists_alarm (ExceptT.run (e.rowOf env) c).1
  obtain ⟨m, hm⟩ := rowOf_watch (Watch.asserting P alarm) env e
  have hrun := h alarm
  rw [hm, Watch.run_asserting] at hrun
  by_cases hbefore : P ⟨env, none, c⟩
  · rw [if_pos hbefore] at hrun
    by_cases hafter : P ⟨env, (ExceptT.run m c).1.toOption, (ExceptT.run m c).2⟩
    · rw [if_pos hafter] at hrun
      rw [← hrun]
      exact ⟨hbefore, hafter⟩
    · rw [if_neg hafter] at hrun
      exact absurd (congrArg Prod.fst hrun).symm halarm
  · rw [if_neg hbefore] at hrun
    exact absurd (congrArg Prod.fst hrun).symm halarm

end Expr

end

end QueryChain
