import QueryChain.Proofs.Lowering.Compiled
import QueryChain.Proofs.Lowering.Operators

/-!
# Well-scoped trees lower in scope

Every step of lowering keeps to what is in scope: an operator evaluates only values, applies only functions, and
gives each as many rows as it has parameters. What a function finds in scope is what the operators around it gave it,
so a parameter that is among the names of the environment is found.

* `isScoped_callOperator`: query operators.
* `Expr.isScoped_rowOf`: trees.
* `Expr.isScopedResult_compile`: statements.
-/

namespace QueryChain

open Lowering Lower

/-! ## Members, scalars and methods -/

section Scalars

variable {α : Type} {m : Lower α}

/-- Steps that look at rows keep to what is in scope. -/
theorem looks_isScoped : Looks (fun _ S m => m.IsScoped ∧ Keeps (fun _ => True) S m) fun _ => True :=
  looks_of_yields (Q := fun _ m => m.IsScoped) isScoped_pure
    (fun hf => isScoped_throw (Fault.isOfScope_of_isOfLookup hf)) (fun hm hyields hk => hm.bind_of_yields hyields hk)
    fun hk => (isScoped_joinAt _).bind fun j => hk j.fields

theorem LowerTo.IsScoped.judged (h : m.IsScoped) : m.IsScoped ∧ Keeps (fun _ => True) (fun _ => True) m :=
  ⟨h, keeps_trivial⟩

/-- A parameter among the names of the environment is found. -/
theorem isScoped_lookup {env : Env} {name : String} (h : name ∈ env.map Prod.fst) :
    (Lowering.lookup env name).IsScoped := by
  obtain ⟨p, hp, rfl⟩ := List.mem_map.mp h
  rw [Lowering.lookup]
  cases hfind : env.lookup p.1 with
  | none =>
    have hne := List.lookup_eq_none_iff.mp hfind p hp
    simp at hne
  | some r => exact isScoped_pure r

theorem isScoped_memberOf (target : Row) (field : String) : (memberOf target field).IsScoped :=
  (looks_isScoped.judged_memberOf .nothing trivial field).1

theorem isScoped_combine (op : BinaryOp) (concat : Bool) (l r : Row) : (combine op concat l r).IsScoped :=
  (looks_isScoped.judged_combine .nothing op concat trivial trivial).1

theorem isScoped_callMethod (name : String) (receiver : Row) (args : List Row) :
    (Lowering.callMethod name receiver args).IsScoped :=
  (looks_isScoped.judged_callMethod .nothing name trivial fun _ _ => trivial).1

end Scalars

/-! ## Query operators -/

/-- An operand that does not fail for reasons of scope when it is used in a way. -/
def Lowering.Operand.IsScoped (operand : Operand) : ArgumentUse → Prop
  | .value => operand.row.IsScoped
  | .function arity => (∃ body, functionBody? operand.expr = some body) ∧
      ∀ rows, rows.length = arity → (operand.apply rows).IsScoped
  | .ignored => True

section Operators

variable {name : String} {source : Operand}

namespace Lowering.Operand.IsScoped

variable {operand : Operand}

theorem functionBody {arity : Nat} (h : operand.IsScoped (.function arity)) :
    (Lowering.functionBody operand.expr).IsScoped := by
  obtain ⟨⟨body, hbody⟩, -⟩ := h
  rw [Lowering.functionBody, hbody]
  exact isScoped_pure body

/-- A function of a row is applied to one row. -/
theorem judged_apply (h : operand.IsScoped (.function 1)) (rows : Row) :
    (operand.apply [rows]).IsScoped ∧ Lower.Keeps (fun _ => True) (fun _ => True) (operand.apply [rows]) :=
  (h.2 [rows] rfl).judged

end Lowering.Operand.IsScoped

section Optional

variable {predicate : Option Operand} (h : ∀ operand, predicate = some operand → operand.IsScoped (.function 1))
include h

theorem isScoped_restrict? (rows : Row) : (restrict? rows predicate).IsScoped :=
  (looks_isScoped.judged_restrict? .nothing (fun operand hoperand => (h operand hoperand).judged_apply rows)
    fun _ _ => (isScoped_update _).judged).1

theorem isScoped_foldGroup (f : GroupFold) (hsource : source.row.IsScoped) :
    (foldGroup name f source predicate).IsScoped :=
  (looks_isScoped.judged_foldGroup .nothing .nothing name f hsource.judged fun operand hoperand rows _ =>
    (h operand hoperand).judged_apply rows).1

end Optional

theorem isScoped_projectedScalar (f : Aggregate) : (projectedScalar f).IsScoped := by
  rw [projectedScalar]
  refine isScoped_get.bind fun c => ?_
  split
  · exact isScoped_pure _
  · exact isScoped_throw rfl

theorem isScoped_joinFields (selected : Row) : (joinFields selected).IsScoped := by
  cases selected with
  | projected typeName list => exact isScoped_pure _
  | table t => exact isScoped_pure _
  | joined index => exact (isScoped_joinAt index).bind fun _ => isScoped_pure _
  | _ => exact isScoped_throw rfl

theorem isScoped_join {outer inner outerKey innerKey result : Operand} (houter : outer.row.IsScoped)
    (hinner : inner.row.IsScoped) (houterKey : outerKey.IsScoped (.function 1))
    (hinnerKey : innerKey.IsScoped (.function 1)) (hresult : result.IsScoped (.function 2)) :
    (join outer inner outerKey innerKey result).IsScoped := by
  have hfields (selected : Row) : (joinFields selected).IsScoped ∧
      Keeps (fun _ => True) (fun p => ∀ q ∈ p.1.list, True) (joinFields selected) :=
    ⟨isScoped_joinFields selected, keeps_trivial.weaken fun _ _ _ _ => trivial⟩
  exact (looks_isScoped.judged_join .nothing houter.judged (isScoped_update _).judged hinner.judged
    (fun rows _ => houterKey.judged_apply rows) (fun rows _ => hinnerKey.judged_apply rows)
    (fun _ _ _ _ => (hresult.2 _ rfl).judged) (fun selected _ => hfields selected)
    (fun _ _ _ _ _ _ _ => (isScoped_update _).judged) isScoped_get.judged).1

/-! ### Operators by name -/

/-- Operands that do not fail for reasons of scope when the operator uses them. -/
def OperandsScoped (op : QueryOperator) (operands : List Operand) : Prop :=
  ∀ (position : Nat) (operand : Operand), operands[position]? = some operand → operand.IsScoped (op.use position)

variable {op : QueryOperator} {operands : List Operand}

/-- An operand that is there is the one that is used. -/
theorem operandAt_eq_pure {position : Nat} (h : position < operands.length) :
    operandAt name operands position = pure operands[position] := by
  rw [operandAt, List.getElem?_eq_getElem h]

theorem OperandsScoped.at (h : OperandsScoped op operands) {position : Nat} (hposition : position < operands.length) :
    operands[position].IsScoped (op.use position) :=
  h position _ (List.getElem?_eq_getElem hposition)

/-- Every operator of this kind looks at its second operand, and uses it alike. -/
theorem OperandsScoped.isScoped_second (h : OperandsScoped op operands) (hlength : 2 ≤ operands.length)
    {k : Operand → Lower Row} (hk : ∀ operand : Operand, operand.IsScoped (op.use 1) → (k operand).IsScoped) :
    (operandAt name operands 1 >>= k).IsScoped := by
  rw [operandAt_eq_pure hlength, pure_bind]
  exact hk _ (h.at hlength)

theorem isScoped_operate (hsource : source.row.IsScoped) (hadmits : op.admits operands.length)
    (h : OperandsScoped op operands) : (operate name source operands op).IsScoped := by
  have hoptional (operand : Operand) (hoperand : operands[1]? = some operand) : operand.IsScoped (op.use 1) :=
    h 1 operand hoperand
  have hupdate (g : Clauses → Clauses) := (isScoped_update g).judged
  cases op with
  | filter =>
    exact h.isScoped_second hadmits fun predicate hpredicate => hsource.bind fun rows =>
      (looks_isScoped.judged_restrict .nothing (hpredicate.judged_apply rows) fun _ _ => hupdate _).1.bind fun _ =>
        isScoped_pure rows
  | select =>
    exact h.isScoped_second hadmits fun _ hprojection => (looks_isScoped.judged_select hsource.judged
      hprojection.functionBody.judged (fun rows _ => hprojection.judged_apply rows)
      (fun _ _ _ _ _ => ⟨trivial, hupdate _⟩) (fun _ _ _ => hupdate _) fun _ _ => hupdate _).1
  | order descending restart =>
    exact h.isScoped_second hadmits fun _ hkey => (looks_isScoped.judged_order .nothing hsource.judged
      (fun rows _ => hkey.judged_apply rows) fun _ _ => hupdate _).1
  | groupBy =>
    exact h.isScoped_second hadmits fun _ hkey => (looks_isScoped.judged_groupBy .nothing hsource.judged
      hkey.functionBody.judged (fun rows _ => hkey.judged_apply rows) fun _ _ => ⟨trivial, hupdate _⟩).1
  | join =>
    match operands, hadmits with
    | [outer, inner, outerKey, innerKey, result], _ =>
      exact isScoped_join (h 0 outer rfl) (h 1 inner rfl) (h 2 outerKey rfl) (h 3 innerKey rfl) (h 4 result rfl)
  | take =>
    exact h.isScoped_second hadmits fun count hcount =>
      (looks_isScoped.judged_take hsource.judged (LowerTo.IsScoped.judged (m := count.row) hcount) fun _ => hupdate _).1
  | distinct => exact hsource.bind fun rows => (isScoped_update _).bind fun _ => isScoped_pure rows
  | first =>
    exact (looks_isScoped.judged_first hsource.judged (fun rows _ => (isScoped_restrict? hoptional rows).judged)
      (hupdate _) (hupdate _)).1
  | count =>
    exact (looks_isScoped.judged_count hsource.judged (fun rows _ => (isScoped_restrict? hoptional rows).judged)
      (hupdate _)).1
  | fold f =>
    exact (looks_isScoped.judged_fold (U := fun _ => True) .nothing hsource.judged (isScoped_projectedScalar f).judged
      (fun operand hoperand rows _ => (hoptional operand hoperand).judged_apply rows)
      fun _ _ => ⟨trivial, hupdate _⟩).1

/-- A query operator whose operands do not fail for reasons of scope does not either. -/
theorem isScoped_callOperator (hop : QueryOperator.ofName name = some op) (hadmits : op.admits operands.length)
    (h : OperandsScoped op operands) : (callOperator name operands).IsScoped := by
  have hpos := QueryOperator.admits_pos hadmits
  have hsource : operands[0].row.IsScoped := by
    have hzero := h.at hpos
    rwa [show op.use 0 = .value by cases op <;> rfl] at hzero
  rw [callOperator, operandAt_eq_pure hpos, pure_bind]
  dsimp only
  split
  · rename_i f hf
    refine isScoped_foldGroup (fun operand hoperand => ?_) f hsource
    have hgroup : GroupFold.ofName name = some f := by
      split at hf
      · exact hf
      · cases hf
    have huse := h 1 operand hoperand
    obtain rfl : op = f.operator := by
      rw [GroupFold.ofName_operator hgroup] at hop
      exact (Option.some.inj hop).symm
    rwa [show f.operator.use 1 = .function 1 by cases f <;> rfl] at huse
  · rename_i _ op' _ hop'
    obtain rfl : op = op' := Option.some.inj (hop.symm.trans hop')
    exact isScoped_operate hsource hadmits h
  · rename_i _ _ _ hnone
    rw [hop] at hnone
    cases hnone

end Operators

/-! ## Trees -/

namespace Expr

theorem functionBody?_of_functionWellScoped {names : List String} {arity : Nat} {e : Expr}
    (h : e.FunctionWellScoped names arity) : ∃ body, functionBody? e = some body := by
  cases e with
  | quote inner ty => exact functionBody?_of_functionWellScoped (e := inner) h
  | lambda params body ty => exact ⟨body, rfl⟩
  | _ => exact h.elim

theorem length_operandsOf (env : Env) (args : List Expr) : (operandsOf env args).length = args.length := by
  induction args with
  | nil => rfl
  | cons e rest ih => rw [operandsOf, List.length_cons, List.length_cons, ih]

mutual

/-- Lowering a well-scoped tree does not fail for reasons of scope. -/
theorem isScoped_rowOf (e : Expr) (env : Env) (h : e.WellScoped (env.map Prod.fst)) : (rowOf env e).IsScoped := by
  cases e with
  | value v ty => exact isScoped_pure _
  | captured c ty => exact isScoped_pure _
  | table m ty => exact (isScoped_bindTable m).bind fun _ => isScoped_pure _
  | param name ty => exact isScoped_lookup h
  | field target name ty => exact (isScoped_rowOf target env h).bind fun r => isScoped_memberOf r name
  | binary op l r ty =>
    exact (isScoped_rowOf l env h.1).bind fun left => (isScoped_rowOf r env h.2).bind fun right =>
      isScoped_combine op _ left right
  | method target name args ty =>
    exact (isScoped_rowOf target env h.1).bind fun receiver => (isScoped_rowsOf args env h.2).bind fun rows =>
      isScoped_callMethod name receiver rows
  | operator name args ty =>
    rw [WellScoped] at h
    split at h
    · rename_i op hop
      refine isScoped_callOperator hop ?_ fun position operand hoperand => ?_
      · rw [length_operandsOf]
        exact h.1
      · have huse := isScoped_operandsOf args env op 0 h.2 position operand hoperand
        rwa [Nat.zero_add] at huse
    · exact h.elim
  | lambda params body ty => exact isScoped_rowOf body env h
  | quote inner ty => exact isScoped_rowOf inner env h
  | object shape members ty => exact (isScoped_membersOf members env h).bind fun _ => isScoped_pure _

/-- A well-scoped function of so many parameters does not fail for reasons of scope on as many rows. -/
theorem isScoped_applyTo (e : Expr) (env : Env) (rows : List Row)
    (h : e.FunctionWellScoped (env.map Prod.fst) rows.length) : (applyTo env rows e).IsScoped := by
  cases e with
  | quote inner ty => exact isScoped_applyTo inner env rows h
  | lambda params body ty =>
    rw [applyTo, if_pos h.1]
    refine isScoped_rowOf body _ ?_
    rw [List.map_append, List.map_reverse, List.map_fst_zip (Nat.le_of_eq h.1)]
    exact h.2
  | _ => exact h.elim

theorem isScoped_rowsOf (es : List Expr) (env : Env) (h : AllWellScoped (env.map Prod.fst) es) :
    (rowsOf env es).IsScoped := by
  cases es with
  | nil => exact isScoped_pure []
  | cons e rest =>
    exact (isScoped_rowOf e env h.1).bind fun _ => (isScoped_rowsOf rest env h.2).bind fun _ => isScoped_pure _

/-- Arguments that stand from a position on become operands that do not fail for reasons of scope there. -/
theorem isScoped_operandsOf (es : List Expr) (env : Env) (op : QueryOperator) (start : Nat)
    (h : ArgumentsWellScoped (env.map Prod.fst) op start es) (position : Nat) (operand : Operand)
    (hoperand : (operandsOf env es)[position]? = some operand) : operand.IsScoped (op.use (start + position)) := by
  cases es with
  | nil => cases hoperand
  | cons e rest =>
    cases position with
    | zero =>
      cases hoperand
      have he := h.1
      rw [Nat.add_zero]
      cases huse : op.use start with
      | value =>
        rw [huse] at he
        exact isScoped_rowOf e env he
      | function arity =>
        rw [huse] at he
        refine ⟨functionBody?_of_functionWellScoped he, fun rows hrows => ?_⟩
        subst hrows
        exact isScoped_applyTo e env rows he
      | ignored => trivial
    | succ position =>
      have hnext := isScoped_operandsOf rest env op (start + 1) h.2 position operand hoperand
      rwa [Nat.add_right_comm] at hnext

theorem isScoped_membersOf (members : List (String × Expr)) (env : Env)
    (h : MembersWellScoped (env.map Prod.fst) members) : (membersOf env members).IsScoped := by
  cases members with
  | nil => exact isScoped_pure []
  | cons member rest =>
    exact (isScoped_memberRow member env h.1).bind fun _ => (isScoped_membersOf rest env h.2).bind fun _ =>
      isScoped_pure _

theorem isScoped_memberRow (member : String × Expr) (env : Env) (h : MemberWellScoped (env.map Prod.fst) member) :
    (memberRow env member).IsScoped := by
  cases member with
  | mk name e => exact (isScoped_rowOf e env h).bind fun _ => isScoped_pure _

end

end Expr

/-! ## Statements -/

/-- A well-scoped tree is compiled, or fails for other reasons than scope. -/
theorem Expr.isScopedResult_compile {e : Expr} (h : e.WellScoped []) (o : Options) :
    IsScopedResult (e.compile o) := by
  rw [compile_eq_lower]
  refine IsScopedResult.bind ?_ fun _ => isScopedResult_ok _
  rw [lower]
  split
  · exact (Clauses.findsAll_assemble _).isScopedResult
  · rename_i f c hrun
    exact isScopedResult_error (isScoped_rowOf e [] h Clauses.empty f c hrun)

end QueryChain
