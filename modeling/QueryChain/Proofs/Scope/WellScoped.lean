import QueryChain.Proofs.Lowering.Keeping

/-!
# Well-scoped trees

An operator evaluates some of its arguments and applies others to rows. A tree is well scoped if every parameter in
it is one of an enclosing function, and every operator is known, has as many arguments as it needs, and a function of
as many parameters wherever it applies one. Lowering such a tree can fail, but not for reasons of scope.

* `QueryOperator.use`: what an operator does with each of its arguments.
* `Expr.WellScoped`: well-scoped trees.
* `LowerTo.IsScoped`: steps of lowering that never fail for reasons of scope, and steps one after another.
-/

namespace QueryChain

open Lowering Lower

/-! ## Arguments -/

/-- What an operator does with an argument. -/
inductive ArgumentUse where
  /-- It evaluates it. -/
  | value
  /-- It applies it to so many rows. -/
  | function (arity : Nat)
  /-- It does not look at it. -/
  | ignored
deriving DecidableEq

namespace QueryOperator

/-- What an operator does with the argument at a position; the source stands at position zero. -/
def use : QueryOperator → Nat → ArgumentUse
  | _, 0 => .value
  | .join, 1 | .take, 1 => .value
  | .join, 2 | .join, 3 => .function 1
  | .join, 4 => .function 2
  | .filter, 1 | .select, 1 | .order _ _, 1 | .groupBy, 1 | .first, 1 | .count, 1 | .fold _, 1 => .function 1
  | _, _ => .ignored

/-- Whether an operator can do with so many arguments, its source included. -/
def admits : QueryOperator → Nat → Prop
  | .join, n => n = 5
  | .filter, n | .select, n | .order _ _, n | .groupBy, n | .take, n => 2 ≤ n
  | .distinct, n | .first, n | .count, n | .fold _, n => 1 ≤ n

theorem admits_pos {op : QueryOperator} {n : Nat} (h : op.admits n) : 1 ≤ n := by
  cases op <;> simp only [admits] at h <;> omega

end QueryOperator

/-- The operator that a group aggregate is over all rows. -/
def GroupFold.operator : GroupFold → QueryOperator
  | .count => .count
  | .fold f => .fold f

/-- A name that stands for a group aggregate stands for the same over all rows. -/
theorem GroupFold.ofName_operator {name : String} {f : GroupFold} (h : GroupFold.ofName name = some f) :
    QueryOperator.ofName name = some f.operator := by
  rw [GroupFold.ofName] at h
  split at h
  · rename_i hname
    cases h
    subst hname
    decide
  · obtain ⟨a, ha, rfl⟩ := Option.map_eq_some_iff.mp h
    obtain rfl : a.name = name := by simpa using List.find?_some ha
    cases a <;> decide

/-! ## Trees -/

namespace Expr

mutual

/-- All parameters are among these names, and every operator gets what it needs. -/
def WellScoped (names : List String) : Expr → Prop
  | .value _ _ | .captured _ _ | .table _ _ => True
  | .param name _ => name ∈ names
  | .field target _ _ => WellScoped names target
  | .binary _ l r _ => WellScoped names l ∧ WellScoped names r
  | .method target _ args _ => WellScoped names target ∧ AllWellScoped names args
  | .operator name args _ =>
    match QueryOperator.ofName name with
    | some op => op.admits args.length ∧ ArgumentsWellScoped names op 0 args
    | none => False
  | .lambda _ body _ => WellScoped names body
  | .quote inner _ => WellScoped names inner
  | .object _ members _ => MembersWellScoped names members

/-- A function of so many parameters whose body is well scoped once they are there. -/
def FunctionWellScoped (names : List String) (arity : Nat) : Expr → Prop
  | .quote inner _ => FunctionWellScoped names arity inner
  | .lambda params body _ => params.length = arity ∧ WellScoped (params.reverse ++ names) body
  | _ => False

/-- Well-scoped values. -/
def AllWellScoped (names : List String) : List Expr → Prop
  | [] => True
  | e :: rest => WellScoped names e ∧ AllWellScoped names rest

/-- Arguments that are well scoped for what the operator does with them; the first stands at a position. -/
def ArgumentsWellScoped (names : List String) (op : QueryOperator) (position : Nat) : List Expr → Prop
  | [] => True
  | e :: rest =>
    (match op.use position with
      | .value => WellScoped names e
      | .function arity => FunctionWellScoped names arity e
      | .ignored => True) ∧ ArgumentsWellScoped names op (position + 1) rest

/-- Well-scoped members of a new object. -/
def MembersWellScoped (names : List String) : List (String × Expr) → Prop
  | [] => True
  | member :: rest => MemberWellScoped names member ∧ MembersWellScoped names rest

/-- A well-scoped member of a new object. -/
def MemberWellScoped (names : List String) : String × Expr → Prop
  | (_, e) => WellScoped names e

end

end Expr

/-! ## Faults of scope -/

/-- Whether a fault says that a parameter, a function, an argument or an operator is not there or not what it should
be. -/
def Fault.isOfScope : Fault → Bool
  | .unbound _ | .form (.lambdaExpected _) | .form (.lambdaArity _ _) | .form (.argumentMissing _ _)
  | .form (.joinArity _) | .form (.unknownOperator _) => true
  | _ => false

/-- A step that never fails for reasons of scope. -/
def LowerTo.IsScoped {α : Type} (m : Lower α) : Prop :=
  ∀ c f c', ExceptT.run m c = (.error f, c') → f.isOfScope = false

/-- A result that is no fault of scope. -/
def IsScopedResult {α : Type} (r : Except Fault α) : Prop :=
  ∀ f, r = .error f → f.isOfScope = false

section Steps

variable {α β : Type} {m : Lower α}

theorem isScoped_pure (a : α) : (pure a : Lower α).IsScoped := by
  intro c f c' h
  cases h

theorem isScoped_throw {f : Fault} (hf : f.isOfScope = false) : (throw f : Lower α).IsScoped := by
  intro c f' c' h
  cases h
  exact hf

/-- Steps one after another; what comes second matters for what the first can yield only. -/
theorem LowerTo.IsScoped.bind_of_yields {S : α → Prop} {k : α → Lower β} (hm : m.IsScoped)
    (hyields : Keeps (fun _ => True) S m) (hk : ∀ a, S a → (k a).IsScoped) : (m >>= k).IsScoped := by
  intro c f c' h
  rcases hrun : ExceptT.run m c with ⟨r, c₁⟩
  cases r with
  | error e =>
    rw [run_bind_of_error hrun] at h
    cases h
    exact hm c _ _ hrun
  | ok a =>
    rw [run_bind_of_ok hrun] at h
    exact hk a (hyields c a c₁ trivial hrun).1 c₁ f c' h

theorem LowerTo.IsScoped.bind {k : α → Lower β} (hm : m.IsScoped) (hk : ∀ a, (k a).IsScoped) :
    (m >>= k).IsScoped :=
  hm.bind_of_yields keeps_trivial fun a _ => hk a

theorem isScoped_update (g : Clauses → Clauses) : (update g : Lower Unit).IsScoped := by
  intro c f c' h
  cases h

theorem isScoped_get : (get : Lower Clauses).IsScoped := by
  intro c f c' h
  cases h

theorem isScoped_bindTable (m : Model) : (bindTable m : Lower TableRef).IsScoped := by
  intro c f c' h
  rw [run_bindTable] at h
  cases h

theorem isScoped_joinAt (index : Nat) : (joinAt index : Lower Join).IsScoped := by
  refine isScoped_get.bind fun c => ?_
  cases c.joins[index]? with
  | none => exact isScoped_throw rfl
  | some j => exact isScoped_pure j

theorem isScopedResult_ok (a : α) : IsScopedResult (.ok a) := by
  intro f h
  cases h

theorem isScopedResult_error {f : Fault} (hf : f.isOfScope = false) : IsScopedResult (.error f : Except Fault α) := by
  intro f' h
  cases h
  exact hf

theorem IsScopedResult.bind {r : Except Fault α} {k : α → Except Fault β} (hr : IsScopedResult r)
    (hk : ∀ a, IsScopedResult (k a)) : IsScopedResult (r >>= k) := by
  cases r with
  | error e => exact isScopedResult_error (hr e rfl)
  | ok a => exact hk a

end Steps

end QueryChain
