import QueryChain.Proofs.Formed.Operators
import QueryChain.Proofs.Lowering.Watched

/-!
# Trees over formed clauses

Wherever an evaluation starts from formed rows and clauses, each of its nodes does, whichever operator asks for it, and
each node ends in formed clauses again, yielding a formed row or failing. So an evaluation under a watch that only minds
what is not formed is the evaluation itself.

* `Expr.isFilled`: every new object of a tree has a member, and every table a column.
* `Watch.Silent`: watches that do not mind formed rows and clauses.
* `Expr.inStep_rowOf`: a tree under such a watch runs as it does without.
* `Expr.ends_clausesOf`: where a whole tree may end.
-/

namespace QueryChain

open Lowering Lower

namespace Expr

mutual

/-- Every new object has a member, and the model of every table a field. -/
def isFilled : Expr → Bool
  | .value _ _ | .captured _ _ | .param _ _ => true
  | .table m _ => !m.fields.isEmpty
  | .field target _ _ => isFilled target
  | .binary _ l r _ => isFilled l && isFilled r
  | .method target _ args _ => isFilled target && areFilled args
  | .operator _ args _ => areFilled args
  | .lambda _ body _ => isFilled body
  | .quote inner _ => isFilled inner
  | .object _ members _ => !members.isEmpty && membersFilled members

/-- The same for all of several trees. -/
def areFilled : List Expr → Bool
  | [] => true
  | e :: rest => isFilled e && areFilled rest

/-- The same for all members of a new object. -/
def membersFilled : List (String × Expr) → Bool
  | [] => true
  | member :: rest => memberFilled member && membersFilled rest

/-- The same for a member of a new object. -/
def memberFilled : String × Expr → Bool
  | (_, e) => isFilled e

end

end Expr

/-- A watch that does not mind formed rows and clauses: under it, a node whose scope is formed keeps step with what it
does without. -/
def Watch.Silent (filled : Prop) (watch : Watch) : Prop :=
  ∀ n env m m', (∀ p ∈ env, p.2.Formed filled n) → InStep filled n (Row.Formed filled) m m' →
    InStep filled n (Row.Formed filled) m (watch env m')

theorem Watch.silent_idle (filled : Prop) : Watch.Silent filled fun _ m => m :=
  fun _ _ _ _ _ h => h

namespace Expr

variable {filled : Prop} {watch : Watch}

theorem inStep_lookup {n : Nat} {env : Env} (henv : ∀ p ∈ env, p.2.Formed filled n) (name : String) :
    InStep filled n (Row.Formed filled) (Lowering.lookup env name) (Lowering.lookup env name) := by
  rw [Lowering.lookup]
  split
  · rename_i r hr
    exact inStep_row (forall_lookup henv hr)
  · exact inStep_throw rfl

theorem later_env {n n' : Nat} {env : Env} (henv : ∀ p ∈ env, p.2.Formed filled n) (hn : n ≤ n') :
    ∀ p ∈ env, p.2.Formed filled n' :=
  fun p hp => (henv p hp).mono hn

mutual

/-- A tree under a watch that does not mind what is formed runs as it does without. -/
theorem inStep_rowOf (hw : watch.Silent filled) (e : Expr) (he : filled → e.isFilled) {n : Nat} {env : Env}
    (henv : ∀ p ∈ env, p.2.Formed filled n) :
    InStep filled n (Row.Formed filled) (rowOf env e) (rowOf env e .standard watch) := by
  -- the watch is around the node; what is left to see is the node inside
  have hnode {m m' : Lower Row} (h : InStep filled n (Row.Formed filled) m m') :
      InStep filled n (Row.Formed filled) m (watch env m') := hw n env m m' henv h
  cases e with
  | value v ty => exact hnode (inStep_row (.scalar v))
  | captured c ty => exact hnode (inStep_row (Row.formed_ofCaptured c))
  | table m ty =>
    simp only [isFilled, Bool.not_eq_true', List.isEmpty_eq_false_iff] at he
    refine hnode ?_
    exact (inStep_bindTable he).bind fun _ _ _ ht => inStep_row (.table ht)
  | param name ty => exact hnode (inStep_lookup henv name)
  | field target name ty =>
    exact hnode ((inStep_rowOf hw target he henv).bind fun _ _ _ ht => inStep_memberOf ht name)
  | binary op l r ty =>
    simp only [isFilled, Bool.and_eq_true] at he
    refine hnode ?_
    refine (inStep_rowOf hw l (fun h => (he h).1) henv).bind fun n₁ left h₁ hleft => ?_
    exact (inStep_rowOf hw r (fun h => (he h).2) (later_env henv h₁)).bind fun _ right h₂ hright =>
      inStep_combine op _ (hleft.mono h₂) hright
  | method target name args ty =>
    simp only [isFilled, Bool.and_eq_true] at he
    refine hnode ?_
    refine (inStep_rowOf hw target (fun h => (he h).1) henv).bind fun n₁ receiver h₁ hreceiver => ?_
    exact (inStep_rowsOf hw args (fun h => (he h).2) (later_env henv h₁)).bind fun _ rows h₂ hrows =>
      inStep_callMethod name (hreceiver.mono h₂) hrows
  | operator name args ty => exact hnode (inStep_callOperator name (inStep_operandsOf hw args he henv))
  | lambda params body ty => exact hnode (inStep_rowOf hw body he henv)
  | quote inner ty => exact hnode (inStep_rowOf hw inner he henv)
  | object shape members ty =>
    simp only [isFilled, Bool.and_eq_true, Bool.not_eq_true', List.isEmpty_eq_false_iff] at he
    refine hnode ?_
    refine (inStep_membersOf hw members (fun h => (he h).2) henv).bind fun n₁ list _ hlist => ?_
    obtain ⟨hlength, hrows⟩ := hlist
    refine inStep_row (.projected _ (fun h => ?_) hrows)
    rw [← List.length_pos_iff, hlength]
    exact List.length_pos_iff.mpr (he h).1

/-- So does a function, whatever formed rows it is applied to. -/
theorem inStep_applyTo (hw : watch.Silent filled) (e : Expr) (he : filled → e.isFilled) {n : Nat} {env : Env}
    (henv : ∀ p ∈ env, p.2.Formed filled n) {rows : List Row} (hrows : ∀ r ∈ rows, r.Formed filled n) :
    InStep filled n (Row.Formed filled) (applyTo env rows e) (applyTo env rows e .standard watch) := by
  cases e with
  | quote inner ty => exact inStep_applyTo hw inner he henv hrows
  | lambda params body ty =>
    rw [applyTo, applyTo]
    split
    · refine inStep_rowOf hw body he (List.forall_mem_append.mpr ⟨fun p hp => ?_, henv⟩)
      exact hrows p.2 (List.of_mem_zip (List.mem_reverse.mp hp)).2
    · exact inStep_throw rfl
  | _ => exact inStep_throw rfl

theorem inStep_rowsOf (hw : watch.Silent filled) (es : List Expr) (hes : filled → areFilled es) {n : Nat}
    {env : Env} (henv : ∀ p ∈ env, p.2.Formed filled n) :
    InStep filled n (fun n' rows => ∀ r ∈ rows, r.Formed filled n') (rowsOf env es) (rowsOf env es .standard watch) := by
  cases es with
  | nil => exact inStep_pure fun _ _ => List.forall_mem_nil _
  | cons e rest =>
    simp only [areFilled, Bool.and_eq_true] at hes
    refine (inStep_rowOf hw e (fun h => (hes h).1) henv).bind fun n₁ r h₁ hr => ?_
    refine (inStep_rowsOf hw rest (fun h => (hes h).2) (later_env henv h₁)).bind fun n₂ rows h₂ hrows => ?_
    refine inStep_pure fun n₃ h₃ => List.forall_mem_cons.mpr ⟨hr.mono (Nat.le_trans h₂ h₃), fun r' hr' => ?_⟩
    exact (hrows r' hr').mono h₃

theorem inStep_operandsOf (hw : watch.Silent filled) (es : List Expr) (hes : filled → areFilled es) {n : Nat}
    {env : Env} (henv : ∀ p ∈ env, p.2.Formed filled n) :
    List.Forall₂ (Operand.InStep filled n) (operandsOf env es) (operandsOf env es .standard watch) := by
  cases es with
  | nil => exact .nil
  | cons e rest =>
    simp only [areFilled, Bool.and_eq_true] at hes
    rw [operandsOf, operandsOf]
    refine .cons ⟨rfl, inStep_rowOf hw e (fun h => (hes h).1) henv, fun n' rows hn hrows => ?_⟩
      (inStep_operandsOf hw rest (fun h => (hes h).2) henv)
    exact inStep_applyTo hw e (fun h => (hes h).1) (later_env henv hn) hrows

theorem inStep_membersOf (hw : watch.Silent filled) (members : List (String × Expr))
    (hmembers : filled → membersFilled members) {n : Nat} {env : Env} (henv : ∀ p ∈ env, p.2.Formed filled n) :
    InStep filled n (fun n' list => list.length = members.length ∧ ∀ p ∈ list, p.2.Formed filled n')
      (membersOf env members) (membersOf env members .standard watch) := by
  cases members with
  | nil => exact inStep_pure fun _ _ => ⟨rfl, List.forall_mem_nil _⟩
  | cons member rest =>
    simp only [membersFilled, Bool.and_eq_true] at hmembers
    refine (inStep_memberRow hw member (fun h => (hmembers h).1) henv).bind fun n₁ p h₁ hp => ?_
    refine (inStep_membersOf hw rest (fun h => (hmembers h).2) (later_env henv h₁)).bind fun n₂ ps h₂ hps => ?_
    refine inStep_pure fun n₃ h₃ => ⟨by simp [hps.1], List.forall_mem_cons.mpr ⟨hp.mono (Nat.le_trans h₂ h₃), ?_⟩⟩
    exact fun q hq => (hps.2 q hq).mono h₃

theorem inStep_memberRow (hw : watch.Silent filled) (member : String × Expr)
    (hmember : filled → memberFilled member) {n : Nat} {env : Env} (henv : ∀ p ∈ env, p.2.Formed filled n) :
    InStep filled n (fun n' p => p.2.Formed filled n') (memberRow env member) (memberRow env member .standard watch) := by
  cases member with
  | mk name e => exact (inStep_rowOf hw e hmember henv).bind fun _ r _ hr => inStep_pure fun _ hn => hr.mono hn

end

/-- A tree ends in formed clauses, with a formed row or with a fault, but not for want of a join. -/
theorem ends_clausesOf (e : Expr) (he : filled → e.isFilled) :
    Ends filled 0 (Row.Formed filled) e.clausesOf.1 e.clausesOf.2 :=
  (inStep_rowOf (Watch.silent_idle filled) e he (List.forall_mem_nil _) Clauses.empty (Nat.le_refl 0)
    (Clauses.formed_empty filled)).2

end Expr

end QueryChain
