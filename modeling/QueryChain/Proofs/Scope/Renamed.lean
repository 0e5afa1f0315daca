import QueryChain.Proofs.Lowering.Compiled
import QueryChain.Proofs.Scope.Renaming
import QueryChain.Tree.Build

/-!
# Names of parameters do not matter

Two trees that are the same up to the names of parameters are lowered to the same, in environments where parameters
that are bound together stand for the same row. Lowering reads names only to look them up, so the two trees go
through the same steps.

A function that is evaluated though it is never given rows is the exception: its parameters are then looked up outside
of it, and renaming one may bind it to another parameter or to none.

* `callOperator_congr`: operators see nothing of the names.
* `Expr.Renames.rowOf_eq`: lowering of trees.
* `Expr.Renames.compile_eq`: compiled trees.
* `Expr.CountedFunction.not_compile_eq`: renaming the parameter of a function that stands for a count.
-/

namespace QueryChain

open Lowering Lower

/-! ## Environments -/

/-- Parameters that are bound together stand for the same row, or for none. -/
def EnvAlike (pairs : List (String × String)) (env env' : Env) : Prop :=
  ∀ x y, SameParam pairs x y → Lowering.lookup env x = Lowering.lookup env' y

namespace EnvAlike

theorem nil : EnvAlike [] [] [] := by
  rintro x _ rfl
  rfl

theorem cons {pairs : List (String × String)} {env env' : Env} (h : EnvAlike pairs env env') (a b : String)
    (r : Row) : EnvAlike ((a, b) :: pairs) ((a, r) :: env) ((b, r) :: env') := by
  rintro x y (⟨rfl, rfl⟩ | ⟨hx, hy, hrest⟩)
  · rw [Lowering.lookup, Lowering.lookup, List.lookup_cons_self, List.lookup_cons_self]
  · have hxy := h x y hrest
    rw [Lowering.lookup, Lowering.lookup] at hxy ⊢
    rwa [List.lookup_cons, List.lookup_cons, beq_false_of_ne hx, beq_false_of_ne hy]

/-- Two functions that are given the same rows. -/
theorem bind {params params' : List String} {rows : List Row} (hparams : params.length = rows.length)
    (hparams' : params'.length = rows.length) {pairs : List (String × String)} {env env' : Env}
    (h : EnvAlike pairs env env') :
    EnvAlike (bindPairs params params' pairs) ((params.zip rows).reverse ++ env)
      ((params'.zip rows).reverse ++ env') := by
  induction rows generalizing params params' pairs env env' with
  | nil =>
    rw [List.length_eq_zero_iff.mp hparams, List.length_eq_zero_iff.mp hparams']
    exact h
  | cons r rows ih =>
    obtain ⟨a, params, rfl⟩ := List.exists_cons_of_length_eq_add_one hparams
    obtain ⟨b, params', rfl⟩ := List.exists_cons_of_length_eq_add_one hparams'
    have hrest := ih (Nat.succ.inj hparams) (Nat.succ.inj hparams') (h.cons a b r)
    simpa only [bindPairs, List.zip_cons_cons, List.reverse_cons, List.append_assoc, List.singleton_append] using hrest

end EnvAlike

/-! ## Query operators -/

/-- Operands that are the same up to names, and alike when they are used in a way. -/
structure Lowering.Operand.Alike (use : ArgumentUse) (operand operand' : Operand) : Prop where
  expr : ∃ pairs, Expr.Renames pairs operand.expr operand'.expr
  row : use = .value → operand.row = operand'.row
  apply : ∀ arity, use = .function arity → operand.apply = operand'.apply

/-- Lists of operands that are alike when an operator uses them; the first stands at a position. -/
inductive OperandsAlike (op : QueryOperator) : Nat → List Operand → List Operand → Prop
  | nil (position : Nat) : OperandsAlike op position [] []
  | cons {position : Nat} {operand operand' : Operand} {rest rest' : List Operand}
      (h : operand.Alike (op.use position) operand') (hrest : OperandsAlike op (position + 1) rest rest') :
      OperandsAlike op position (operand :: rest) (operand' :: rest')

theorem OperandsAlike.length_eq {op : QueryOperator} {position : Nat} {operands operands' : List Operand}
    (h : OperandsAlike op position operands operands') : operands.length = operands'.length := by
  induction h with
  | nil => rfl
  | cons h hrest ih => rw [List.length_cons, List.length_cons, ih]

section Operators

variable {source source' : Operand}

theorem select_congr {projection projection' : Operand} (hsource : source.row = source'.row)
    (h : projection.Alike (.function 1) projection') : select source projection = select source' projection' := by
  obtain ⟨pairs, hexpr⟩ := h.expr
  rw [select, select, hsource, h.apply 1 rfl, functionBody, functionBody]
  rcases hexpr.functionBody? with ⟨hnone, hnone'⟩ | ⟨inner, body, body', hsome, hsome', hbody⟩
  · rw [hnone, hnone', hexpr.kindName_eq]
  · rw [hsome, hsome']
    cases hbody <;> rfl

theorem isObject_eq {pairs : List (String × String)} {e e' : Expr} (h : e.Renames pairs e') :
    isObject e = isObject e' := by
  cases h <;> rfl

theorem groupBy_congr {key key' : Operand} (hsource : source.row = source'.row)
    (h : key.Alike (.function 1) key') : groupBy source key = groupBy source' key' := by
  obtain ⟨pairs, hexpr⟩ := h.expr
  rw [groupBy, groupBy, hsource, h.apply 1 rfl, functionBody, functionBody]
  rcases hexpr.functionBody? with ⟨hnone, hnone'⟩ | ⟨inner, body, body', hsome, hsome', hbody⟩
  · rw [hnone, hnone', hexpr.kindName_eq]
  · rw [hsome, hsome']
    simp only [pure_bind, isObject_eq hbody]

theorem joinModel_congr {pairs : List (String × String)} {e e' : Expr} (h : e.Renames pairs e')
    (passedOn : Option Model) (fields : Entries) : joinModel e passedOn fields = joinModel e' passedOn fields := by
  unfold joinModel
  rcases h.functionBody? with ⟨hnone, hnone'⟩ | ⟨inner, body, body', hsome, hsome', hbody⟩
  · rw [hnone, hnone']
  · rw [hsome, hsome', Option.bind_some, Option.bind_some, hbody.ty_eq]

theorem join_congr {inner inner' outerKey outerKey' innerKey innerKey' result result' : Operand}
    (hsource : source.row = source'.row) (hinner : inner.row = inner'.row)
    (houterKey : outerKey.apply = outerKey'.apply) (hinnerKey : innerKey.apply = innerKey'.apply)
    (hresult : result.Alike (.function 2) result') :
    join source inner outerKey innerKey result = join source' inner' outerKey' innerKey' result' := by
  obtain ⟨pairs, hexpr⟩ := hresult.expr
  simp only [join, hsource, hinner, houterKey, hinnerKey, hresult.apply 2 rfl, joinModel_congr hexpr]

/-! ### Functions that may be left out -/

section Optional

variable {selector selector' : Option Operand} (h : selector.map Operand.apply = selector'.map Operand.apply)
include h

theorem restrict?_congr (rows : Row) : restrict? rows selector = restrict? rows selector' := by
  cases selector with
  | none =>
    rw [Option.map_eq_none_iff.mp h.symm]
  | some operand =>
    obtain ⟨operand', rfl, happly⟩ := Option.map_eq_some_iff.mp h.symm
    rw [restrict?, restrict?, restrict, restrict, happly]

theorem first_congr (hsource : source.row = source'.row) : first source selector = first source' selector' := by
  simp only [first, hsource, restrict?_congr h]

theorem count_congr (hsource : source.row = source'.row) : count source selector = count source' selector' := by
  simp only [count, hsource, restrict?_congr h]

theorem fold_congr (f : Aggregate) (hsource : source.row = source'.row) :
    fold f source selector = fold f source' selector' := by
  cases selector with
  | none => rw [Option.map_eq_none_iff.mp h.symm, fold, fold, hsource]
  | some operand =>
    obtain ⟨operand', rfl, happly⟩ := Option.map_eq_some_iff.mp h.symm
    simp only [fold, hsource, happly]

theorem foldGroup_congr (name : String) (f : GroupFold) (hsource : source.row = source'.row) :
    foldGroup name f source selector = foldGroup name f source' selector' := by
  cases selector with
  | none => rw [Option.map_eq_none_iff.mp h.symm, foldGroup, foldGroup, hsource]
  | some operand =>
    obtain ⟨operand', rfl, happly⟩ := Option.map_eq_some_iff.mp h.symm
    unfold foldGroup
    rw [hsource]
    cases f <;> simp only [happly]

end Optional

/-! ### Operators by name -/

section Named

variable {name : String} {op : QueryOperator} {rest rest' : List Operand} (h : OperandsAlike op 1 rest rest')
include h

/-- Every operator of this kind looks at its second operand, and uses it alike. -/
theorem OperandsAlike.second_congr {k k' : Operand → Lower Row}
    (hk : ∀ operand operand', operand.Alike (op.use 1) operand' → k operand = k' operand') :
    (operandAt name (source :: rest) 1 >>= k) = (operandAt name (source' :: rest') 1 >>= k') := by
  cases h with
  | nil => rfl
  | cons halike hrest => exact hk _ _ halike

/-- A function that may be left out is left out of both, or yields the same in both. -/
theorem OperandsAlike.map_apply_second (huse : op.use 1 = .function 1) :
    rest[0]?.map Operand.apply = rest'[0]?.map Operand.apply := by
  cases h with
  | nil => rfl
  | cons halike hrest => exact congrArg some (halike.apply 1 huse)

theorem operate_congr (hsource : source.row = source'.row) :
    operate name source (source :: rest) op = operate name source' (source' :: rest') op := by
  cases op with
  | filter =>
    refine h.second_congr fun operand operand' halike => ?_
    simp only [hsource, restrict, halike.apply 1 rfl]
  | select => exact h.second_congr fun operand operand' halike => select_congr hsource halike
  | order descending restart =>
    refine h.second_congr fun operand operand' halike => ?_
    simp only [order, hsource, halike.apply 1 rfl]
  | groupBy => exact h.second_congr fun operand operand' halike => groupBy_congr hsource halike
  | join =>
    cases h with
    | nil => rfl
    | cons hinner h => cases h with
      | nil => rfl
      | cons houterKey h => cases h with
        | nil => rfl
        | cons hinnerKey h => cases h with
          | nil => rfl
          | cons hresult h => cases h with
            | nil =>
              exact join_congr hsource (hinner.row rfl) (houterKey.apply 1 rfl) (hinnerKey.apply 1 rfl) hresult
            | cons _ h =>
              show (throw (Fault.form (.joinArity _)) : Lower Row) = throw (Fault.form (.joinArity _))
              simp only [List.length_cons, h.length_eq]
  | take =>
    refine h.second_congr fun operand operand' halike => ?_
    simp only [take, hsource, halike.row rfl]
  | distinct => rw [operate, operate, hsource]
  | first => exact first_congr (h.map_apply_second rfl) hsource
  | count => exact count_congr (h.map_apply_second rfl) hsource
  | fold f => exact fold_congr (h.map_apply_second rfl) f hsource

end Named

/-- A name that stands for no operator is refused, whatever the operands. -/
theorem callOperator_eq_throw {name : String} (hop : QueryOperator.ofName name = none) (rest : List Operand) :
    callOperator name (source :: rest) = throw (.form (.unknownOperator name)) := by
  have hgroup : GroupFold.ofName name = none := by
    cases hf : GroupFold.ofName name with
    | none => rfl
    | some f =>
      rw [GroupFold.ofName_operator hf] at hop
      cases hop
  rw [callOperator_eq, hgroup, ite_self, hop]

/-- A query operator whose operands are alike when it uses them does the same. -/
theorem callOperator_congr {name : String} {operands operands' : List Operand}
    (hlength : operands.length = operands'.length)
    (h : ∀ op, QueryOperator.ofName name = some op → OperandsAlike op 0 operands operands') :
    callOperator name operands = callOperator name operands' := by
  cases hop : QueryOperator.ofName name with
  | none =>
    cases operands with
    | nil => rw [List.length_eq_zero_iff.mp hlength.symm]
    | cons source rest =>
      obtain ⟨source', rest', rfl⟩ := List.exists_cons_of_length_eq_add_one hlength.symm
      rw [callOperator_eq_throw hop, callOperator_eq_throw hop]
  | some op =>
    cases h op hop with
    | nil => rfl
    | @cons _ source source' rest rest' hsource hrest =>
      obtain ⟨pairs, hexpr⟩ := hsource.expr
      have hrow := hsource.row (by cases op <;> rfl)
      rw [callOperator_eq, callOperator_eq, hexpr.isRowDerived_eq, hop]
      cases hgroup : (if source'.expr.isRowDerived then GroupFold.ofName name else none) with
      | none => exact operate_congr hrest hrow
      | some f =>
        refine foldGroup_congr (hrest.map_apply_second ?_) name f hrow
        have hf : GroupFold.ofName name = some f := by
          split at hgroup
          · exact hgroup
          · cases hgroup
        obtain rfl := Option.some.inj (hop.symm.trans (GroupFold.ofName_operator hf))
        cases f <;> rfl

end Operators

/-! ## Trees -/

namespace Expr

theorem length_operandsOf_eq {pairs : List (String × String)} {es es' : List Expr} (h : AllRename pairs es es')
    (env env' : Env) : (operandsOf env es).length = (operandsOf env' es').length := by
  cases es with
  | nil =>
    cases h
    rfl
  | cons e rest =>
    obtain ⟨e', rest', rfl, -, hrest⟩ := h.of_cons
    rw [operandsOf, operandsOf, List.length_cons, List.length_cons, length_operandsOf_eq hrest env env']
termination_by es

theorem MembersRename.of_cons {pairs : List (String × String)} {member : String × Expr}
    {rest members' : List (String × Expr)} (h : MembersRename pairs (member :: rest) members') :
    ∃ member' rest', members' = member' :: rest' ∧ member.1 = member'.1 ∧ Renames pairs member.2 member'.2 ∧
      MembersRename pairs rest rest' := by
  cases h with
  | cons name he hrest => exact ⟨_, _, rfl, rfl, he, hrest⟩

mutual

/-- Trees that are the same up to names are lowered to the same. -/
theorem Renames.rowOf_eq {pairs : List (String × String)} {e e' : Expr} (h : Renames pairs e e')
    (hfunctions : e.AppliesFunctions) {env env' : Env} (henv : EnvAlike pairs env env') :
    rowOf env e = rowOf env' e' := by
  cases e with
  | value v ty =>
    cases h
    rfl
  | captured c ty =>
    cases h
    rfl
  | table m ty =>
    cases h
    rfl
  | param name ty =>
    cases h with
    | param hname => exact henv _ _ hname
  | field target name ty =>
    cases h with
    | field htarget => rw [rowOf, rowOf, htarget.rowOf_eq hfunctions henv]
  | binary op l r ty =>
    cases h with
    | binary _ hl hr =>
      rw [rowOf, rowOf, hl.rowOf_eq hfunctions.1 henv, hr.rowOf_eq hfunctions.2 henv, hl.joinsTexts_eq hr]
  | method target name args ty =>
    cases h with
    | method htarget _ hargs =>
      rw [rowOf, rowOf, htarget.rowOf_eq hfunctions.1 henv, hargs.rowsOf_eq hfunctions.2 henv]
  | operator name args ty =>
    cases h with
    | operator _ hargs =>
      rw [rowOf, rowOf]
      refine callOperator_congr (length_operandsOf_eq hargs env env') fun op hop => ?_
      rw [AppliesFunctions, hop] at hfunctions
      exact hargs.operandsAlike hfunctions henv
  | lambda params body ty =>
    cases h with
    | lambda hlength hbody =>
      rw [rowOf, rowOf]
      exact (hbody.of_bindPairs hlength hfunctions.1).rowOf_eq hfunctions.2 henv
  | quote inner ty =>
    cases h with
    | quote hinner =>
      rw [rowOf, rowOf]
      exact hinner.rowOf_eq hfunctions henv
  | object shape members ty =>
    cases h with
    | object _ hmembers => rw [rowOf, rowOf, hmembers.membersOf_eq hfunctions henv]
termination_by structural e

/-- Functions that are the same up to names yield the same for the same rows. -/
theorem Renames.applyTo_eq {pairs : List (String × String)} {e e' : Expr} (h : Renames pairs e e')
    (hfunctions : e.BodyApplies) {env env' : Env} (henv : EnvAlike pairs env env') (rows : List Row) :
    applyTo env rows e = applyTo env' rows e' := by
  cases e with
  | quote inner ty =>
    cases h with
    | quote hinner =>
      rw [applyTo, applyTo]
      exact hinner.applyTo_eq hfunctions henv rows
  | lambda params body ty =>
    cases h with
    | lambda hlength hbody =>
      rw [applyTo, applyTo, ← hlength]
      split
      · rename_i hrows
        exact hbody.rowOf_eq hfunctions (henv.bind hrows (hlength ▸ hrows))
      · rfl
  | _ =>
    cases h
    rfl
termination_by structural e

theorem AllRename.rowsOf_eq {pairs : List (String × String)} {es es' : List Expr} (h : AllRename pairs es es')
    (hfunctions : AllApply es) {env env' : Env} (henv : EnvAlike pairs env env') :
    rowsOf env es = rowsOf env' es' := by
  cases es with
  | nil =>
    cases h
    rfl
  | cons e rest =>
    cases h with
    | cons he hrest => rw [rowsOf, rowsOf, he.rowOf_eq hfunctions.1 henv, hrest.rowsOf_eq hfunctions.2 henv]
termination_by structural es

/-- Arguments that are the same up to names become operands that are alike when the operator uses them. -/
theorem AllRename.operandsAlike {pairs : List (String × String)} {es es' : List Expr}
    (h : AllRename pairs es es') {op : QueryOperator} {position : Nat} (hfunctions : ArgumentsApply op position es)
    {env env' : Env} (henv : EnvAlike pairs env env') :
    OperandsAlike op position (operandsOf env es) (operandsOf env' es') := by
  cases es with
  | nil =>
    cases h
    exact .nil position
  | cons e rest =>
    cases h with
    | cons he hrest =>
      refine .cons ⟨⟨pairs, he⟩, fun huse => ?_, fun arity huse => ?_⟩ (hrest.operandsAlike hfunctions.2 henv)
      · have happlies := hfunctions.1
        rw [huse] at happlies
        exact he.rowOf_eq happlies henv
      · have happlies := hfunctions.1
        rw [huse] at happlies
        exact funext (he.applyTo_eq happlies henv)
termination_by structural es

theorem MembersRename.membersOf_eq {pairs : List (String × String)} {members members' : List (String × Expr)}
    (h : MembersRename pairs members members') (hfunctions : MembersApply members) {env env' : Env}
    (henv : EnvAlike pairs env env') : membersOf env members = membersOf env' members' := by
  cases members with
  | nil =>
    cases h
    rfl
  | cons member rest =>
    obtain ⟨member', rest', rfl, hname, hmember, hrest⟩ := h.of_cons
    rw [membersOf, membersOf, Renames.memberRow_eq hname hmember hfunctions.1 henv,
      hrest.membersOf_eq hfunctions.2 henv]
termination_by structural members

theorem Renames.memberRow_eq {pairs : List (String × String)} {member member' : String × Expr}
    (hname : member.1 = member'.1) (h : Renames pairs member.2 member'.2) (hfunctions : MemberApplies member)
    {env env' : Env} (henv : EnvAlike pairs env env') : memberRow env member = memberRow env' member' := by
  cases member with
  | mk name e =>
    obtain ⟨name', e'⟩ := member'
    obtain rfl : name = name' := hname
    rw [memberRow, memberRow, Renames.rowOf_eq h hfunctions henv]
termination_by structural member

end

/-- Two trees that are the same up to the names of parameters compile to the same, or fail with the same fault, under
any options, if no function that is never given rows looks at its parameters. -/
theorem Renames.compile_eq {e e' : Expr} (h : Renames [] e e') (hfunctions : e.AppliesFunctions) (o : Options) :
    e.compile o = e'.compile o := by
  have hlower : (e.lower : Except Fault Lowered) = e'.lower := by
    rw [lower, lower, clausesOf, clausesOf, h.rowOf_eq hfunctions EnvAlike.nil]
  rw [compile_eq_lower, compile_eq_lower, hlower]

/-! ## Functions over people -/

/-- Functions of one row whose bodies are the same up to names. -/
theorem Renames.function {pairs : List (String × String)} {x y : String} {body body' : Expr}
    (h : Renames ((x, y) :: pairs) body body') :
    Renames pairs (Expr.function [x] body) (Expr.function [y] body') := by
  rw [Expr.function, Expr.function, h.ty_eq]
  exact @Renames.lambda pairs [x] [y] rfl body body' h _

/-- People, of whom only the age is known. -/
def person : Model := .dynamic (.schema "Person") "Person" "People" [("Age", "Age", some .int)] none

/-- The age of every person, as a function with this parameter. -/
def ageOf (x : String) : Expr := function [x] ((param x (.model person)).member "Age")

/-- The greatest age in every group of people of one age: a group function around a row function. -/
def oldestOfAge (x group row : String) : Expr :=
  .operator "Select"
    [.operator "GroupBy" [ofTable person, (ageOf x).quoted] (.sequence (.grouping (.scalar .int) (.model person))),
      function [group] (.operator "Max" [.param group (.grouping (.scalar .int) (.model person)), ageOf row]
        (.scalar .int))] (.sequence (.scalar .int))

/-- All parameters may have one name, so that the row hides the group. -/
theorem compile_eq_oldestOfAge :
    Renames [] (oldestOfAge "p" "g" "q") (oldestOfAge "x" "x" "x") ∧ (oldestOfAge "p" "g" "q").AppliesFunctions ∧
      (oldestOfAge "p" "g" "q").compile .standard = (oldestOfAge "x" "x" "x").compile .standard := by
  have hage (pairs : List (String × String)) (x y : String) : Renames pairs (ageOf x) (ageOf y) :=
    .function (.field (.param (.head x y pairs) _) _ _)
  have hrenames : Renames [] (oldestOfAge "p" "g" "q") (oldestOfAge "x" "x" "x") :=
    .operator _ (.cons (.operator _ (.cons (.table _ _) (.cons (.quote (hage _ _ _) _) .nil)) _)
      (.cons (.function (.operator _ (.cons (.param (.head _ _ _) _) (.cons (hage _ _ _) .nil)) _)) .nil)) _
  have hfunctions : (oldestOfAge "p" "g" "q").AppliesFunctions :=
    ⟨⟨trivial, trivial, trivial⟩, ⟨trivial, trivial, trivial⟩, trivial⟩
  exact ⟨hrenames, hfunctions, hrenames.compile_eq hfunctions .standard⟩

namespace CountedFunction

/-- A count that is written as a function: `People.Select(p => 3).Where(x => x.Take(y => y) == 3)`. -/
def tree (y : String) : Expr :=
  .operator "Where"
    [.operator "Select" [ofTable person, function ["p"] (.ofValue (.int 3))] (.sequence (.scalar .int)),
      function ["x"] (.applyOp .eq
        (.operator "Take" [.param "x" (.scalar .int), function [y] (.param y .unknown)] .unknown)
        (.ofValue (.int 3)))] (.sequence (.scalar .int))

/-- The count is never given a row, so its parameter is looked up outside of it: there is an `x`, but no `y`. -/
theorem not_compile_eq :
    Renames [] (tree "y") (tree "x") ∧ (tree "y").compile .standard = .error (.unbound "y") ∧
      ∃ compiled, (tree "x").compile .standard = .ok compiled ∧ compiled.top = some 3 := by
  refine ⟨?_, rfl, _, rfl, rfl⟩
  exact .operator _ (.cons (.operator _ (.cons (.table _ _) (.cons (.function (.value _ _)) .nil)) _)
    (.cons (.function (.binary _ (.operator _ (.cons (.param (.head _ _ _) _)
      (.cons (.function (.param (.head _ _ _) _)) .nil)) _) (.value _ _) _)) .nil)) _

end CountedFunction

end Expr

end QueryChain
