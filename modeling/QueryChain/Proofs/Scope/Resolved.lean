import QueryChain.Grammar.Resolve
import QueryChain.Proofs.Scope.Safe

/-!
# What the resolver accepts is well scoped

The resolver looks names up by their static types, and lowering by what they stand for. A resolved tree is well
scoped for the names that were in scope, because a call is resolved to an operator only with the arguments that the
operator needs, and a function only with as many parameters as it is given rows. So what a query text resolves to
never fails for reasons of scope when it is compiled.

* `Grammar.wellScoped_of_resolve`: resolved trees are well scoped.
* `Expr.isOfScope_eq_false_of_ofText`: no query text that is accepted fails for reasons of scope.
-/

namespace QueryChain

namespace Grammar

/-! ## Calls -/

/-- An argument of a call that is well scoped either way it may be used. -/
structure Argument.WellScoped (names : List String) (arg : Argument) : Prop where
  value : ∀ e, arg.value = .ok e → e.WellScoped names
  function : ∀ types f, arg.function types = .ok f → f.FunctionWellScoped names types.length

section Calls

variable {names : List String} {source : Expr} {element : StaticType} {method : String} {args : List Argument}
  {op : QueryOperator} {e : Expr}

theorem mem_of_requireArgument {position : Nat} {arg : Argument}
    (h : requireArgument method args position = .ok arg) : arg ∈ args := by
  rw [requireArgument] at h
  split at h
  · rename_i found hfound
    cases h
    exact List.mem_of_getElem? hfound
  · cases h

theorem functionWellScoped_of_rowFunction (hargs : ∀ arg ∈ args, arg.WellScoped names) {f : Expr}
    (h : rowFunction method element args = .ok f) : f.FunctionWellScoped names 1 := by
  obtain ⟨arg, harg, hf⟩ := bind_eq_ok.mp h
  exact (hargs arg (mem_of_requireArgument harg)).function [element] f hf

/-- The optional function of a row is there as the only one, or left out. -/
theorem functionWellScoped_of_rowFunction? (hargs : ∀ arg ∈ args, arg.WellScoped names) {fs : List Expr}
    (h : rowFunction? element args = .ok fs) : fs = [] ∨ ∃ f, fs = [f] ∧ f.FunctionWellScoped names 1 := by
  cases args with
  | nil =>
    cases h
    exact Or.inl rfl
  | cons arg rest =>
    obtain ⟨f, hf, ⟨⟩⟩ := bind_eq_ok.mp h
    exact Or.inr ⟨f, rfl, (hargs arg List.mem_cons_self).function [element] f hf⟩

/-- An operator is well scoped if it gets what it needs. -/
theorem wellScoped_operator (hop : QueryOperator.ofName method = some op) {es : List Expr} (ty : StaticType)
    (hadmits : op.admits es.length) (hes : Expr.ArgumentsWellScoped names op 0 es) :
    (Expr.operator method es ty).WellScoped names := by
  rw [Expr.WellScoped, hop]
  exact ⟨hadmits, hes⟩

/-- An operator that needs its source only, with or without a function of a row. -/
theorem wellScoped_operator_rowFunction? (hop : QueryOperator.ofName method = some op) (hone : op.admits 1)
    (htwo : op.admits 2) (huse : op.use 1 = .function 1) (hsource : source.WellScoped names)
    (hargs : ∀ arg ∈ args, arg.WellScoped names) {fs : List Expr} (h : rowFunction? element args = .ok fs)
    (ty : StaticType) : (Expr.operator method (source :: fs) ty).WellScoped names := by
  have hzero : op.use 0 = .value := by cases op <;> rfl
  rcases functionWellScoped_of_rowFunction? hargs h with rfl | ⟨f, rfl, hf⟩
  · refine wellScoped_operator hop ty hone ⟨?_, trivial⟩
    rw [hzero]
    exact hsource
  · refine wellScoped_operator hop ty htwo ⟨?_, ?_, trivial⟩
    · rw [hzero]
      exact hsource
    · rw [huse]
      exact hf

/-- A join takes four arguments, and its node holds what they resolve to. -/
theorem exists_of_resolveOperator_join (h : resolveOperator source element method args .join = .ok e) :
    ∃ inner outerKey innerKey result rest innerRows outerFunction innerFunction resultFunction,
      args = inner :: outerKey :: innerKey :: result :: rest ∧ inner.value = .ok innerRows ∧
        outerKey.function [element] = .ok outerFunction ∧
        innerKey.function [innerRows.ty.element] = .ok innerFunction ∧
        result.function [element, innerRows.ty.element] = .ok resultFunction ∧
        e = .operator method [source, innerRows, outerFunction, innerFunction, resultFunction]
          (.sequence resultFunction.ty) := by
  obtain ⟨inner, hinner, h⟩ := bind_eq_ok.mp h
  obtain ⟨innerRows, hinnerRows, h⟩ := bind_eq_ok.mp h
  obtain ⟨outerKey, houterKey, h⟩ := bind_eq_ok.mp h
  obtain ⟨outerFunction, houterFunction, h⟩ := bind_eq_ok.mp h
  obtain ⟨innerKey, hinnerKey, h⟩ := bind_eq_ok.mp h
  obtain ⟨innerFunction, hinnerFunction, h⟩ := bind_eq_ok.mp h
  obtain ⟨result, hresult, h⟩ := bind_eq_ok.mp h
  obtain ⟨resultFunction, hresultFunction, ⟨⟩⟩ := bind_eq_ok.mp h
  obtain ⟨rest, rfl⟩ : ∃ rest, args = inner :: outerKey :: innerKey :: result :: rest := by
    rcases args with _ | ⟨a, _ | ⟨b, _ | ⟨c, _ | ⟨d, rest⟩⟩⟩⟩ <;> cases hinner <;> cases houterKey <;>
      cases hinnerKey <;> cases hresult
    exact ⟨rest, rfl⟩
  exact ⟨inner, outerKey, innerKey, result, rest, innerRows, outerFunction, innerFunction, resultFunction, rfl,
    hinnerRows, houterFunction, hinnerFunction, hresultFunction, rfl⟩

theorem wellScoped_of_resolveOperator (hop : QueryOperator.ofName method = some op)
    (hsource : source.WellScoped names) (hargs : ∀ arg ∈ args, arg.WellScoped names)
    (h : resolveOperator source element method args op = .ok e) : e.WellScoped names := by
  cases op with
  | filter | select | order _ _ | groupBy =>
    obtain ⟨f, hf, ⟨⟩⟩ := bind_eq_ok.mp h
    exact wellScoped_operator hop _ (Nat.le_refl 2)
      ⟨hsource, functionWellScoped_of_rowFunction hargs hf, trivial⟩
  | join =>
    obtain ⟨inner, outerKey, innerKey, result, rest, _, _, _, _, rfl, hinner, houterKey, hinnerKey, hresult, rfl⟩ :=
      exists_of_resolveOperator_join h
    have hat (arg : Argument) (harg : arg ∈ [inner, outerKey, innerKey, result]) : arg.WellScoped names :=
      hargs arg (List.mem_append_left rest harg)
    exact wellScoped_operator hop _ rfl ⟨hsource, (hat inner (by simp)).value _ hinner,
      (hat outerKey (by simp)).function _ _ houterKey, (hat innerKey (by simp)).function _ _ hinnerKey,
      (hat result (by simp)).function _ _ hresult, trivial⟩
  | take =>
    obtain ⟨arg, harg, h⟩ := bind_eq_ok.mp h
    obtain ⟨count, hcount, ⟨⟩⟩ := bind_eq_ok.mp h
    exact wellScoped_operator hop _ (Nat.le_refl 2)
      ⟨hsource, (hargs arg (mem_of_requireArgument harg)).value _ hcount, trivial⟩
  | distinct =>
    cases h
    exact wellScoped_operator hop _ (Nat.le_refl 1) ⟨hsource, trivial⟩
  | first | count | fold _ =>
    obtain ⟨fs, hfs, ⟨⟩⟩ := bind_eq_ok.mp h
    exact wellScoped_operator_rowFunction? hop (Nat.le_refl 1) (Nat.le_succ 1) rfl hsource hargs hfs _

theorem allWellScoped_of_mapM_value {es : List Expr} (hargs : ∀ arg ∈ args, arg.WellScoped names)
    (h : args.mapM Argument.value = .ok es) : Expr.AllWellScoped names es := by
  induction args generalizing es with
  | nil =>
    cases h
    trivial
  | cons arg rest ih =>
    rw [List.mapM_cons] at h
    obtain ⟨e, he, h⟩ := bind_eq_ok.mp h
    obtain ⟨es', hes', ⟨⟩⟩ := bind_eq_ok.mp h
    exact ⟨(hargs arg List.mem_cons_self).value e he,
      ih (fun other hother => hargs other (List.mem_cons_of_mem _ hother)) hes'⟩

theorem wellScoped_of_resolveMethod (hsource : source.WellScoped names)
    (hargs : ∀ arg ∈ args, arg.WellScoped names) (h : resolveMethod source method args = .ok e) :
    e.WellScoped names := by
  obtain ⟨es, hes, ⟨⟩⟩ := bind_eq_ok.mp h
  exact ⟨hsource, allWellScoped_of_mapM_value hargs hes⟩

/-- A call on a well-scoped target. On a group, a name stands for an aggregate that the operator of this name is over
all rows. -/
theorem wellScoped_of_resolveCall (hsource : source.WellScoped names) (hargs : ∀ arg ∈ args, arg.WellScoped names)
    (h : resolveCall source method args = .ok e) : e.WellScoped names := by
  rw [resolveCall.eq_def] at h
  split at h
  · split at h
    · rename_i op hop
      exact wellScoped_of_resolveOperator hop hsource hargs h
    · cases h
  · split at h
    · rename_i hsome
      obtain ⟨f, hf⟩ := Option.isSome_iff_exists.mp hsome
      obtain ⟨fs, hfs, ⟨⟩⟩ := bind_eq_ok.mp h
      have hop := GroupFold.ofName_operator hf
      cases f with
      | count | fold _ =>
        exact wellScoped_operator_rowFunction? hop (Nat.le_refl 1) (Nat.le_succ 1) rfl hsource hargs hfs _
    · exact wellScoped_of_resolveMethod hsource hargs h
  · exact wellScoped_of_resolveMethod hsource hargs h

end Calls

/-! ## Trees -/

theorem wellScoped_of_resolveName {schema : Schema} {scope : TypeScope} {name : String} {e : Expr}
    (h : resolveName schema scope name = .ok e) : e.WellScoped (scope.map Prod.fst) := by
  rw [resolveName] at h
  split at h
  · rename_i ty hty
    cases h
    obtain ⟨before, after, rfl, -⟩ := List.lookup_eq_some_iff.mp hty
    show name ∈ _
    simp
  · split at h
    · cases h
      trivial
    · cases h

theorem map_fst_enter {scope : TypeScope} {names : List String} {types : List StaticType}
    (h : names.length = types.length) :
    (scope.enter names types).map Prod.fst = names.reverse ++ scope.map Prod.fst := by
  rw [TypeScope.enter, List.map_append, List.map_reverse, List.map_fst_zip (Nat.le_of_eq h)]

mutual

/-- A resolved tree is well scoped for the names that were in scope. -/
theorem wellScoped_of_resolve (schema : Schema) (scope : TypeScope) (tree : Syntax) (e : Expr)
    (h : resolve schema scope tree = .ok e) : e.WellScoped (scope.map Prod.fst) := by
  cases tree with
  | literal v =>
    cases h
    trivial
  | name name => exact wellScoped_of_resolveName h
  | member target field =>
    obtain ⟨t, ht, ⟨⟩⟩ := bind_eq_ok.mp h
    exact wellScoped_of_resolve schema scope target t ht
  | binary op left right =>
    obtain ⟨l, hl, h⟩ := bind_eq_ok.mp h
    obtain ⟨r, hr, ⟨⟩⟩ := bind_eq_ok.mp h
    exact ⟨wellScoped_of_resolve schema scope left l hl, wellScoped_of_resolve schema scope right r hr⟩
  | object members =>
    obtain ⟨ms, hms, ⟨⟩⟩ := bind_eq_ok.mp h
    exact wellScoped_of_resolveMembers schema scope members ms hms
  | lambda params body => cases h
  | call target method args =>
    obtain ⟨t, ht, h⟩ := bind_eq_ok.mp h
    exact wellScoped_of_resolveCall (wellScoped_of_resolve schema scope target t ht)
      (wellScoped_argumentsOf schema scope args) h
  | freeCall method args =>
    cases args with
    | nil => cases h
    | cons first rest =>
      obtain ⟨t, ht, h⟩ := bind_eq_ok.mp h
      exact wellScoped_of_resolveCall (wellScoped_of_resolve schema scope first t ht)
        (wellScoped_argumentsOf schema scope rest) h

/-- A resolved function has as many parameters as it is given types. -/
theorem functionWellScoped_of_resolveFunction (schema : Schema) (scope : TypeScope) (types : List StaticType)
    (tree : Syntax) (f : Expr) (h : resolveFunction schema scope types tree = .ok f) :
    f.FunctionWellScoped (scope.map Prod.fst) types.length := by
  cases tree with
  | lambda names body =>
    rw [resolveFunction] at h
    split at h
    · rename_i hlength
      obtain ⟨b, hb, ⟨⟩⟩ := bind_eq_ok.mp h
      have hbody := wellScoped_of_resolve schema _ body b hb
      rw [map_fst_enter hlength] at hbody
      exact ⟨hlength, hbody⟩
    · cases h
  | _ => cases h

theorem wellScoped_argumentsOf (schema : Schema) (scope : TypeScope) (trees : List Syntax) :
    ∀ arg ∈ argumentsOf schema scope trees, arg.WellScoped (scope.map Prod.fst) := by
  cases trees with
  | nil => exact List.forall_mem_nil _
  | cons tree rest =>
    rw [argumentsOf]
    refine List.forall_mem_cons.mpr ⟨⟨fun e he => ?_, fun types f hf => ?_⟩,
      wellScoped_argumentsOf schema scope rest⟩
    · exact wellScoped_of_resolve schema scope tree e he
    · exact functionWellScoped_of_resolveFunction schema scope types tree f hf

theorem wellScoped_of_resolveMembers (schema : Schema) (scope : TypeScope) (trees : List (String × Syntax))
    (members : List (String × Expr)) (h : resolveMembers schema scope trees = .ok members) :
    Expr.MembersWellScoped (scope.map Prod.fst) members := by
  cases trees with
  | nil =>
    cases h
    trivial
  | cons tree rest =>
    obtain ⟨m, hm, h⟩ := bind_eq_ok.mp h
    obtain ⟨ms, hms, ⟨⟩⟩ := bind_eq_ok.mp h
    exact ⟨wellScoped_of_resolveMember schema scope tree m hm, wellScoped_of_resolveMembers schema scope rest ms hms⟩

theorem wellScoped_of_resolveMember (schema : Schema) (scope : TypeScope) (tree : String × Syntax)
    (member : String × Expr) (h : resolveMember schema scope tree = .ok member) :
    Expr.MemberWellScoped (scope.map Prod.fst) member := by
  cases tree with
  | mk name value =>
    obtain ⟨e, he, ⟨⟩⟩ := bind_eq_ok.mp h
    exact wellScoped_of_resolve schema scope value e he

end

end Grammar

/-! ## Query texts -/

namespace Expr

/-- What a query text resolves to is well scoped. -/
theorem wellScoped_of_ofText {schema : Schema} {text : String} {e : Expr} (h : ofText schema text = .ok e) :
    e.WellScoped [] := by
  obtain ⟨tree, -, hresolve⟩ := bind_eq_ok.mp h
  exact Grammar.wellScoped_of_resolve schema [] tree e hresolve

/-- No query text that is accepted fails for reasons of scope: all parameters are bound, all functions are there with as
many parameters as they are given rows, all arguments are there, and all operators are known. -/
theorem isOfScope_eq_false_of_ofText {schema : Schema} {text : String} {e : Expr} (h : ofText schema text = .ok e)
    (o : Options) (f : Fault) (hf : e.compile o = .error f) : f.isOfScope = false :=
  isScopedResult_compile (wellScoped_of_ofText h) o f hf

/-- People, of whom only the age is known. -/
def people : Schema := ⟨[.dynamic (.schema "Person") "Person" "People" [("Age", "Age", some .int)] none]⟩

/-- A filter of groups, with an aggregate that looks at a row of the group and at the group. -/
def filteredGroups : String := "People.GroupBy(p => p.Age).Where(g => g.Max(p => p.Age + g.Key) > 1)"

/-- Groups cannot be filtered, though all is in scope. -/
theorem isOfScope_eq_false_filteredGroups :
    ∃ e f, ofText people filteredGroups = .ok e ∧ e.compile .standard = .error f ∧ f.isOfScope = false := by
  have hfails : (match ofText people filteredGroups with
      | .ok e => (match e.compile .standard with
        | .ok _ => false
        | .error _ => true)
      | .error _ => false) = true := by decide +kernel
  cases he : ofText people filteredGroups with
  | error f =>
    rw [he] at hfails
    cases hfails
  | ok e =>
    simp only [he] at hfails
    cases hf : e.compile .standard with
    | ok compiled =>
      rw [hf] at hfails
      cases hfails
    | error f => exact ⟨e, f, rfl, hf, isOfScope_eq_false_of_ofText he .standard f hf⟩

end Expr

end QueryChain
