import Mathlib
import QueryChain.Proofs.Scope.Resolved

/-!
# What a resolved tree carries of its text

The resolver takes the arguments of a call by their positions: a query operator and an aggregate of a group take as
many as they use, a method takes all. What stands behind them is not looked at. It is not even resolved, so that an
accepted text may hold names that stand for nothing.

* `resolveCall_eq_ok_iff`: a call is accepted exactly if the arguments that it uses can be used, and its node carries
  what they resolve to.
* `resolve_eq_ok_iff`: so a tree is accepted exactly if every call in it is, at any depth, but for what is ignored.
* `resolveCall_append`: further arguments change nothing.
* `Expr.ofText_carries`: the same for query texts.
-/

namespace QueryChain

namespace Grammar

/-! ## How calls use arguments -/

/-- How a call uses an argument. -/
inductive Usage where
  | value
  /-- As a function whose parameters have the given types. -/
  | function (types : List StaticType)

/-- What an argument resolves to where it is used in some way. -/
def Argument.as (arg : Argument) : Usage → Except Fault Expr
  | .value => arg.value
  | .function types => arg.function types

/-- The first arguments, each used in its way, resolve to these expressions; further ones are not looked at. -/
inductive Fills : List Usage → List Argument → List Expr → Prop
  | done (args : List Argument) : Fills [] args []
  | next {usage : Usage} {usages : List Usage} {arg : Argument} {args : List Argument} {e : Expr} {used : List Expr} :
      arg.as usage = .ok e → Fills usages args used → Fills (usage :: usages) (arg :: args) (e :: used)

/-- The static type of an expression that may be left out. -/
def typeOf? (e : Option Expr) : StaticType := e.elim .unknown Expr.ty

/-- A function of a row, used if any argument is given. -/
def rowUsages? (element : StaticType) (given : Nat) : List Usage :=
  if given = 0 then [] else [.function [element]]

/-- How an operator uses the arguments that it is given, so many of them. What the first argument of a join resolves to
gives the type of the inner rows. -/
def operatorUsages (element : StaticType) (given : Nat) (used : List Expr) : QueryOperator → List Usage
  | .filter | .select | .order _ _ | .groupBy => [.function [element]]
  | .join =>
    [.value, .function [element], .function [(typeOf? used.head?).element],
      .function [element, (typeOf? used.head?).element]]
  | .take => [.value]
  | .distinct => []
  | .first | .count | .fold _ => rowUsages? element given

/-- How a call on a target of a type uses the arguments that it is given. -/
def callUsages (target : StaticType) (method : String) (given : Nat) (used : List Expr) : Option (List Usage) :=
  match target with
  | .sequence element => (QueryOperator.ofName method).map (operatorUsages element given used)
  | .grouping _ element =>
    if (GroupFold.ofName method).isSome then some (rowUsages? element given)
    else some (List.replicate given .value)
  | _ => some (List.replicate given .value)

/-- The static type of an operator. -/
def operatorType (method : String) (source element : StaticType) (used : List Expr) : QueryOperator → StaticType
  | .filter | .order _ _ | .take | .distinct => source
  | .select | .join => .sequence (typeOf? used.getLast?)
  | .groupBy => .sequence (.grouping (typeOf? used.head?) element)
  | .first => element
  | .count => .scalar .int
  | .fold _ => foldType method used.head? element

/-- The node of a call, which carries what the arguments resolve to that are used. -/
def callNode (target : Expr) (method : String) (used : List Expr) : Expr :=
  match target.ty, QueryOperator.ofName method with
  | .sequence element, some op =>
    .operator method (target :: used) (operatorType method target.ty element used op)
  | .grouping _ _, _ =>
    if (GroupFold.ofName method).isSome then
      .operator method (target :: used) (foldType method used.head? .unknown)
    else target.callMethod method used
  | _, _ => target.callMethod method used

/-! ## Calls -/

section Calls

variable {source : Expr} {element : StaticType} {method : String} {args : List Argument} {used : List Expr} {e : Expr}

theorem fills_nil_iff : Fills [] args used ↔ used = [] := by
  constructor
  · rintro ⟨⟩
    rfl
  · rintro rfl
    exact .done args

theorem fills_cons_iff {usage : Usage} {usages : List Usage} :
    Fills (usage :: usages) args used ↔ ∃ arg more a others, args = arg :: more ∧ used = a :: others ∧
      arg.as usage = .ok a ∧ Fills usages more others := by
  constructor
  · rintro ⟨⟩
    next ha hmore => exact ⟨_, _, _, _, rfl, rfl, ha, hmore⟩
  · rintro ⟨arg, more, a, others, rfl, rfl, ha, hmore⟩
    exact .next ha hmore

theorem rowFunction_eq_ok_iff {f : Expr} :
    rowFunction method element args = .ok f ↔ Fills [.function [element]] args [f] := by
  rw [fills_cons_iff]
  constructor
  · intro h
    obtain ⟨arg, harg, hf⟩ := bind_eq_ok.mp h
    cases args with
    | nil => cases harg
    | cons first rest =>
      cases harg
      exact ⟨_, _, _, _, rfl, rfl, hf, .done _⟩
  · rintro ⟨arg, more, a, others, rfl, ⟨⟩, ha, -⟩
    exact ha

/-- Whatever an operator uses is one function of a row, if it is used as one. -/
theorem exists_fills_function_iff (method : String) {P : List Expr → Prop} :
    (∃ used, Fills [.function [element]] args used ∧ P used) ↔
      ∃ f, rowFunction method element args = .ok f ∧ P [f] := by
  simp only [rowFunction_eq_ok_iff]
  constructor
  · rintro ⟨used, hused, hP⟩
    obtain ⟨arg, more, a, others, rfl, rfl, ha, hothers⟩ := fills_cons_iff.mp hused
    obtain rfl := fills_nil_iff.mp hothers
    exact ⟨a, hused, hP⟩
  · rintro ⟨f, hf, hP⟩
    exact ⟨[f], hf, hP⟩

theorem rowFunction?_eq_ok_iff :
    rowFunction? element args = .ok used ↔ Fills (rowUsages? element args.length) args used := by
  cases args with
  | nil =>
    rw [List.length_nil, rowUsages?, if_pos rfl, fills_nil_iff]
    exact ⟨fun h => (Except.ok.inj h).symm, fun h => h ▸ rfl⟩
  | cons arg rest =>
    rw [List.length_cons, rowUsages?, if_neg (Nat.succ_ne_zero _), fills_cons_iff]
    constructor
    · intro h
      obtain ⟨f, hf, ⟨⟩⟩ := bind_eq_ok.mp h
      exact ⟨_, _, _, _, rfl, rfl, hf, .done _⟩
    · rintro ⟨_, _, f, others, ⟨⟩, rfl, hf, hothers⟩
      obtain rfl := fills_nil_iff.mp hothers
      exact bind_eq_ok.mpr ⟨f, hf, rfl⟩

/-- A method uses all its arguments. -/
theorem mapM_value_eq_ok_iff :
    args.mapM Argument.value = .ok used ↔ Fills (List.replicate args.length .value) args used := by
  induction args generalizing used with
  | nil =>
    rw [List.mapM_nil, List.length_nil, List.replicate_zero, fills_nil_iff]
    exact ⟨fun h => (Except.ok.inj h).symm, fun h => h ▸ rfl⟩
  | cons arg rest ih =>
    rw [List.mapM_cons, List.length_cons, List.replicate_succ, fills_cons_iff, bind_eq_ok]
    constructor
    · rintro ⟨a, ha, h⟩
      obtain ⟨others, hothers, ⟨⟩⟩ := bind_eq_ok.mp h
      exact ⟨_, _, _, _, rfl, rfl, ha, ih.mp hothers⟩
    · rintro ⟨_, _, a, others, ⟨⟩, rfl, ha, hothers⟩
      exact ⟨a, ha, bind_eq_ok.mpr ⟨others, ih.mpr hothers, rfl⟩⟩

/-- A join uses its source of inner rows first, whose type gives that of the inner rows. -/
theorem resolveOperator_join_eq_ok_iff :
    resolveOperator source element method args .join = .ok e ↔
      ∃ used, Fills (operatorUsages element args.length used .join) args used ∧
        e = .operator method (source :: used) (operatorType method source.ty element used .join) := by
  constructor
  · intro h
    obtain ⟨inner, outerKey, innerKey, result, rest, innerRows, outerFunction, innerFunction, resultFunction, rfl,
      hinner, houterKey, hinnerKey, hresult, rfl⟩ := exists_of_resolveOperator_join h
    exact ⟨[innerRows, outerFunction, innerFunction, resultFunction],
      .next hinner (.next houterKey (.next hinnerKey (.next hresult (.done rest)))), rfl⟩
  · rintro ⟨used, hused, rfl⟩
    obtain ⟨inner, more, innerRows, others, rfl, rfl, hinner, hused⟩ := fills_cons_iff.mp hused
    obtain ⟨outerKey, more, outerFunction, others, rfl, rfl, houter, hused⟩ := fills_cons_iff.mp hused
    obtain ⟨innerKey, more, innerFunction, others, rfl, rfl, hinnerKey, hused⟩ := fills_cons_iff.mp hused
    obtain ⟨result, more, resultFunction, others, rfl, rfl, hresult, hused⟩ := fills_cons_iff.mp hused
    obtain rfl := fills_nil_iff.mp hused
    refine bind_eq_ok.mpr ⟨inner, rfl, bind_eq_ok.mpr ⟨innerRows, hinner, ?_⟩⟩
    refine bind_eq_ok.mpr ⟨outerKey, rfl, bind_eq_ok.mpr ⟨outerFunction, houter, ?_⟩⟩
    refine bind_eq_ok.mpr ⟨innerKey, rfl, bind_eq_ok.mpr ⟨innerFunction, hinnerKey, ?_⟩⟩
    exact bind_eq_ok.mpr ⟨result, rfl, bind_eq_ok.mpr ⟨resultFunction, hresult, rfl⟩⟩

theorem resolveOperator_eq_ok_iff (op : QueryOperator) :
    resolveOperator source element method args op = .ok e ↔
      ∃ used, Fills (operatorUsages element args.length used op) args used ∧
        e = .operator method (source :: used) (operatorType method source.ty element used op) := by
  cases op with
  | filter | order _ _ | select | groupBy =>
    rw [resolveOperator, bind_eq_ok]
    refine Iff.trans ?_ (exists_fills_function_iff method).symm
    exact exists_congr fun f => and_congr_right fun _ => ⟨fun h => (Except.ok.inj h).symm, fun h => h ▸ rfl⟩
  | join => exact resolveOperator_join_eq_ok_iff
  | take =>
    constructor
    · intro h
      obtain ⟨arg, harg, h⟩ := bind_eq_ok.mp h
      obtain ⟨count, hcount, ⟨⟩⟩ := bind_eq_ok.mp h
      cases args with
      | nil => cases harg
      | cons first rest =>
        cases harg
        exact ⟨[count], .next hcount (.done rest), rfl⟩
    · rintro ⟨used, hused, rfl⟩
      obtain ⟨arg, more, count, others, rfl, rfl, hcount, hused⟩ := fills_cons_iff.mp hused
      obtain rfl := fills_nil_iff.mp hused
      exact bind_eq_ok.mpr ⟨arg, rfl, bind_eq_ok.mpr ⟨count, hcount, rfl⟩⟩
  | distinct =>
    constructor
    · rintro ⟨⟩
      exact ⟨[], .done args, rfl⟩
    · rintro ⟨used, hused, rfl⟩
      obtain rfl := fills_nil_iff.mp hused
      rfl
  | first | count | fold _ =>
    rw [resolveOperator, bind_eq_ok]
    exact exists_congr fun used => and_congr rowFunction?_eq_ok_iff
      ⟨fun h => (Except.ok.inj h).symm, fun h => h ▸ rfl⟩

theorem resolveMethod_eq_ok_iff :
    resolveMethod source method args = .ok e ↔
      ∃ used, Fills (List.replicate args.length .value) args used ∧ e = source.callMethod method used := by
  rw [resolveMethod, bind_eq_ok]
  exact exists_congr fun used => and_congr mapM_value_eq_ok_iff
    ⟨fun h => (Except.ok.inj h).symm, fun h => h ▸ rfl⟩

/-- A call is accepted exactly if the arguments that it uses can be used, and its node carries what they resolve to. -/
theorem resolveCall_eq_ok_iff :
    resolveCall source method args = .ok e ↔
      ∃ used usages, callUsages source.ty method args.length used = some usages ∧ Fills usages args used ∧
        e = callNode source method used := by
  unfold resolveCall callUsages callNode
  cases hty : source.ty with
  | sequence element =>
    cases hop : QueryOperator.ofName method with
    | none => simp
    | some op => simp [resolveOperator_eq_ok_iff, hty]
  | grouping key element =>
    by_cases hfold : (GroupFold.ofName method).isSome = true
    · simp only [hfold, if_true, Option.some.injEq, exists_eq_left']
      rw [bind_eq_ok]
      exact exists_congr fun used => and_congr rowFunction?_eq_ok_iff
        ⟨fun h => (Except.ok.inj h).symm, fun h => h ▸ rfl⟩
    · simp [hfold, resolveMethod_eq_ok_iff]
  | _ => simp [resolveMethod_eq_ok_iff]

end Calls

/-! ## Trees -/

section Carries

variable (schema : Schema)

mutual

/-- The expression that a tree is resolved to, with the arguments that are ignored. All else in the tree is resolved:
every name in it stands for a parameter or a model, and every call becomes a node that carries what the arguments
resolve to that it uses. -/
inductive Carries : TypeScope → Syntax → Expr → List Syntax → Prop
  | literal (scope : TypeScope) (v : Value) : Carries scope (.literal v) (.ofValue v) []
  | name {scope : TypeScope} {s : String} {e : Expr} :
      resolveName schema scope s = .ok e → Carries scope (.name s) e []
  | member {scope : TypeScope} {target : Syntax} {t : Expr} {ignored : List Syntax} (field : String) :
      Carries scope target t ignored → Carries scope (.member target field) (t.member field) ignored
  | binary {scope : TypeScope} {left right : Syntax} {l r : Expr} {ignored more : List Syntax} (op : BinaryOp) :
      Carries scope left l ignored → Carries scope right r more →
        Carries scope (.binary op left right) (.applyOp op l r) (ignored ++ more)
  | object {scope : TypeScope} {members : List (String × Syntax)} {es : List (String × Expr)}
      {ignored : List Syntax} : CarriesMembers scope members es ignored →
        Carries scope (.object members) (.newObject (.anonymous .projection (Expr.memberTypes es)) .named es) ignored
  | call {scope : TypeScope} {target : Syntax} {t : Expr} {method : String} {args : List Syntax} {used : List Expr}
      {usages : List Usage} {ignored more : List Syntax} :
      Carries scope target t ignored → callUsages t.ty method args.length used = some usages →
        CarriesArguments scope usages args used more →
          Carries scope (.call target method args) (callNode t method used) (ignored ++ more)
  | freeCall {scope : TypeScope} {target : Syntax} {t : Expr} {method : String} {args : List Syntax} {used : List Expr}
      {usages : List Usage} {ignored more : List Syntax} :
      Carries scope target t ignored → callUsages t.ty method args.length used = some usages →
        CarriesArguments scope usages args used more →
          Carries scope (.freeCall method (target :: args)) (callNode t method used) (ignored ++ more)

/-- The first arguments, each used in its way, are resolved to these expressions; the others are ignored. -/
inductive CarriesArguments : TypeScope → List Usage → List Syntax → List Expr → List Syntax → Prop
  | done (scope : TypeScope) (args : List Syntax) : CarriesArguments scope [] args [] args
  | value {scope : TypeScope} {usages : List Usage} {arg : Syntax} {args : List Syntax} {e : Expr} {used : List Expr}
      {ignored more : List Syntax} :
      Carries scope arg e ignored → CarriesArguments scope usages args used more →
        CarriesArguments scope (.value :: usages) (arg :: args) (e :: used) (ignored ++ more)
  | function {scope : TypeScope} {types : List StaticType} {usages : List Usage} {names : List String} {body : Syntax}
      {args : List Syntax} {b : Expr} {used : List Expr} {ignored more : List Syntax} :
      names.length = types.length → Carries (scope.enter names types) body b ignored →
        CarriesArguments scope usages args used more →
          CarriesArguments scope (.function types :: usages) (.lambda names body :: args)
            ((Expr.function names b).quoted :: used) (ignored ++ more)

/-- Members of a new object are resolved one by one. -/
inductive CarriesMembers : TypeScope → List (String × Syntax) → List (String × Expr) → List Syntax → Prop
  | nil (scope : TypeScope) : CarriesMembers scope [] [] []
  | cons {scope : TypeScope} {name : String} {value : Syntax} {e : Expr} {members : List (String × Syntax)}
      {es : List (String × Expr)} {ignored more : List Syntax} :
      Carries scope value e ignored → CarriesMembers scope members es more →
        CarriesMembers scope ((name, value) :: members) ((name, e) :: es) (ignored ++ more)

end

theorem length_argumentsOf (scope : TypeScope) (trees : List Syntax) :
    (argumentsOf schema scope trees).length = trees.length := by
  induction trees with
  | nil => rfl
  | cons tree rest ih => rw [argumentsOf, List.length_cons, List.length_cons, ih]

variable {schema} in
/-- A call of which it is known what its target and its arguments carry. -/
theorem bind_resolveCall_eq_ok_iff {scope : TypeScope} {target : Syntax} {args : List Syntax} {method : String}
    {e : Expr} (htarget : ∀ t, resolve schema scope target = .ok t ↔ ∃ ignored, Carries schema scope target t ignored)
    (hargs : ∀ usages used, Fills usages (argumentsOf schema scope args) used ↔
      ∃ ignored, CarriesArguments schema scope usages args used ignored) :
    (resolve schema scope target >>= fun t => resolveCall t method (argumentsOf schema scope args)) = .ok e ↔
      ∃ t used usages ignored more, Carries schema scope target t ignored ∧
        callUsages t.ty method args.length used = some usages ∧
        CarriesArguments schema scope usages args used more ∧ e = callNode t method used := by
  simp only [bind_eq_ok, htarget, resolveCall_eq_ok_iff, length_argumentsOf, hargs]
  constructor
  · rintro ⟨t, ⟨ignored, hcarries⟩, used, usages, husages, ⟨more, hmore⟩, rfl⟩
    exact ⟨t, used, usages, ignored, more, hcarries, husages, hmore, rfl⟩
  · rintro ⟨t, used, usages, ignored, more, hcarries, husages, hmore, rfl⟩
    exact ⟨t, ⟨ignored, hcarries⟩, used, usages, husages, ⟨more, hmore⟩, rfl⟩

theorem argumentsOf_append (scope : TypeScope) (trees more : List Syntax) :
    argumentsOf schema scope (trees ++ more) = argumentsOf schema scope trees ++ argumentsOf schema scope more := by
  induction trees with
  | nil => rfl
  | cons tree rest ih => rw [List.cons_append, argumentsOf, argumentsOf, ih, List.cons_append]

mutual

/-- A tree is accepted exactly if all is resolved in it but for ignored arguments. -/
theorem resolve_eq_ok_iff (scope : TypeScope) (tree : Syntax) (e : Expr) :
    resolve schema scope tree = .ok e ↔ ∃ ignored, Carries schema scope tree e ignored := by
  cases tree with
  | literal v =>
    constructor
    · rintro ⟨⟩
      exact ⟨[], .literal scope v⟩
    · rintro ⟨_, ⟨⟩⟩
      rfl
  | name s =>
    constructor
    · intro h
      exact ⟨[], .name h⟩
    · rintro ⟨_, h⟩
      cases h with
      | name h => exact h
  | member target field =>
    constructor
    · intro h
      obtain ⟨t, ht, ⟨⟩⟩ := bind_eq_ok.mp h
      obtain ⟨ignored, hcarries⟩ := (resolve_eq_ok_iff scope target t).mp ht
      exact ⟨ignored, .member field hcarries⟩
    · rintro ⟨ignored, h⟩
      cases h with
      | member _ h => exact bind_eq_ok.mpr ⟨_, (resolve_eq_ok_iff scope target _).mpr ⟨_, h⟩, rfl⟩
  | binary op left right =>
    constructor
    · intro h
      obtain ⟨l, hl, h⟩ := bind_eq_ok.mp h
      obtain ⟨r, hr, ⟨⟩⟩ := bind_eq_ok.mp h
      obtain ⟨ignored, hleft⟩ := (resolve_eq_ok_iff scope left l).mp hl
      obtain ⟨more, hright⟩ := (resolve_eq_ok_iff scope right r).mp hr
      exact ⟨ignored ++ more, .binary op hleft hright⟩
    · rintro ⟨_, h⟩
      cases h with
      | binary _ hleft hright =>
        exact bind_eq_ok.mpr ⟨_, (resolve_eq_ok_iff scope left _).mpr ⟨_, hleft⟩,
          bind_eq_ok.mpr ⟨_, (resolve_eq_ok_iff scope right _).mpr ⟨_, hright⟩, rfl⟩⟩
  | object members =>
    constructor
    · intro h
      obtain ⟨es, hes, ⟨⟩⟩ := bind_eq_ok.mp h
      obtain ⟨ignored, hcarries⟩ := (resolveMembers_eq_ok_iff scope members es).mp hes
      exact ⟨ignored, .object hcarries⟩
    · rintro ⟨_, h⟩
      cases h with
      | object h => exact bind_eq_ok.mpr ⟨_, (resolveMembers_eq_ok_iff scope members _).mpr ⟨_, h⟩, rfl⟩
  | lambda params body =>
    constructor
    · rintro ⟨⟩
    · rintro ⟨_, ⟨⟩⟩
  | call target method args =>
    refine (bind_resolveCall_eq_ok_iff (fun t => resolve_eq_ok_iff scope target t)
      fun usages used => fills_argumentsOf_iff scope args usages used).trans ?_
    constructor
    · rintro ⟨t, used, usages, ignored, more, htarget, husages, hargs, rfl⟩
      exact ⟨ignored ++ more, .call htarget husages hargs⟩
    · rintro ⟨_, h⟩
      cases h with
      | call htarget husages hargs => exact ⟨_, _, _, _, _, htarget, husages, hargs, rfl⟩
  | freeCall method args =>
    cases args with
    | nil =>
      constructor
      · rintro ⟨⟩
      · rintro ⟨_, ⟨⟩⟩
    | cons target args =>
      refine (bind_resolveCall_eq_ok_iff (fun t => resolve_eq_ok_iff scope target t)
        fun usages used => fills_argumentsOf_iff scope args usages used).trans ?_
      constructor
      · rintro ⟨t, used, usages, ignored, more, htarget, husages, hargs, rfl⟩
        exact ⟨ignored ++ more, .freeCall htarget husages hargs⟩
      · rintro ⟨_, h⟩
        cases h with
        | freeCall htarget husages hargs => exact ⟨_, _, _, _, _, htarget, husages, hargs, rfl⟩

theorem resolveFunction_eq_ok_iff (scope : TypeScope) (types : List StaticType) (tree : Syntax) (f : Expr) :
    resolveFunction schema scope types tree = .ok f ↔ ∃ names body b ignored, tree = .lambda names body ∧
      names.length = types.length ∧ f = (Expr.function names b).quoted ∧
        Carries schema (scope.enter names types) body b ignored := by
  cases tree with
  | lambda names body =>
    rw [resolveFunction]
    constructor
    · intro h
      split at h
      · next hlength =>
        obtain ⟨b, hb, ⟨⟩⟩ := bind_eq_ok.mp h
        obtain ⟨ignored, hbody⟩ := (resolve_eq_ok_iff (scope.enter names types) body b).mp hb
        exact ⟨names, body, b, ignored, rfl, hlength, rfl, hbody⟩
      · cases h
    · rintro ⟨_, _, b, ignored, ⟨⟩, hlength, rfl, hbody⟩
      rw [if_pos hlength]
      exact bind_eq_ok.mpr ⟨b, (resolve_eq_ok_iff (scope.enter names types) body b).mpr ⟨ignored, hbody⟩, rfl⟩
  | _ =>
    constructor
    · rintro ⟨⟩
    · rintro ⟨_, _, _, _, ⟨⟩, -⟩

theorem fills_argumentsOf_iff (scope : TypeScope) (trees : List Syntax) (usages : List Usage) (used : List Expr) :
    Fills usages (argumentsOf schema scope trees) used ↔
      ∃ ignored, CarriesArguments schema scope usages trees used ignored := by
  cases usages with
  | nil =>
    rw [fills_nil_iff]
    constructor
    · rintro rfl
      exact ⟨trees, .done scope trees⟩
    · rintro ⟨_, ⟨⟩⟩
      rfl
  | cons usage usages =>
    rw [fills_cons_iff]
    cases trees with
    | nil =>
      constructor
      · rintro ⟨_, _, _, _, ⟨⟩, -⟩
      · rintro ⟨_, ⟨⟩⟩
    | cons tree rest =>
      have hvalue := resolve_eq_ok_iff scope tree
      have hfunction := fun types f => resolveFunction_eq_ok_iff scope types tree f
      rw [argumentsOf]
      constructor
      · rintro ⟨_, _, a, others, ⟨⟩, rfl, ha, hothers⟩
        obtain ⟨more, hmore⟩ := (fills_argumentsOf_iff scope rest usages others).mp hothers
        cases usage with
        | value =>
          obtain ⟨ignored, hcarries⟩ := (hvalue a).mp ha
          exact ⟨ignored ++ more, .value hcarries hmore⟩
        | function types =>
          obtain ⟨names, body, b, ignored, rfl, hlength, rfl, hcarries⟩ := (hfunction types a).mp ha
          exact ⟨ignored ++ more, .function hlength hcarries hmore⟩
      · rintro ⟨_, h⟩
        cases h with
        | value hcarries hmore =>
          exact ⟨_, _, _, _, rfl, rfl, (hvalue _).mpr ⟨_, hcarries⟩,
            (fills_argumentsOf_iff scope rest usages _).mpr ⟨_, hmore⟩⟩
        | function hlength hcarries hmore =>
          exact ⟨_, _, _, _, rfl, rfl, (hfunction _ _).mpr ⟨_, _, _, _, rfl, hlength, rfl, hcarries⟩,
            (fills_argumentsOf_iff scope rest usages _).mpr ⟨_, hmore⟩⟩

theorem resolveMembers_eq_ok_iff (scope : TypeScope) (trees : List (String × Syntax)) (es : List (String × Expr)) :
    resolveMembers schema scope trees = .ok es ↔ ∃ ignored, CarriesMembers schema scope trees es ignored := by
  cases trees with
  | nil =>
    constructor
    · rintro ⟨⟩
      exact ⟨[], .nil scope⟩
    · rintro ⟨_, ⟨⟩⟩
      rfl
  | cons tree rest =>
    obtain ⟨name, value⟩ := tree
    constructor
    · intro h
      obtain ⟨m, hm, h⟩ := bind_eq_ok.mp h
      obtain ⟨ms, hms, ⟨⟩⟩ := bind_eq_ok.mp h
      obtain ⟨e, he, ⟨⟩⟩ := bind_eq_ok.mp hm
      obtain ⟨ignored, hcarries⟩ := (resolve_eq_ok_iff scope value e).mp he
      obtain ⟨more, hmore⟩ := (resolveMembers_eq_ok_iff scope rest ms).mp hms
      exact ⟨ignored ++ more, .cons hcarries hmore⟩
    · rintro ⟨_, h⟩
      cases h with
      | cons hcarries hmore =>
        exact bind_eq_ok.mpr ⟨_, bind_eq_ok.mpr ⟨_, (resolve_eq_ok_iff scope value _).mpr ⟨_, hcarries⟩, rfl⟩,
          bind_eq_ok.mpr ⟨_, (resolveMembers_eq_ok_iff scope rest _).mpr ⟨_, hmore⟩, rfl⟩⟩

end

end Carries

/-! ## Further arguments -/

/-- The number of arguments that an operator uses at most. -/
def operatorCapacity : QueryOperator → Nat
  | .distinct => 0
  | .join => 4
  | _ => 1

/-- The number of arguments that a call on a target of a type uses at most; a method uses all that it is given. -/
def callCapacity (target : StaticType) (method : String) : Option Nat :=
  match target with
  | .sequence _ => (QueryOperator.ofName method).map operatorCapacity
  | .grouping _ _ => if (GroupFold.ofName method).isSome then some 1 else none
  | _ => none

section Further

variable {source : Expr} {element : StaticType} {method : String} {args more : List Argument}

theorem requireArgument_append {position : Nat} (hpos : 1 ≤ position) (h : position ≤ args.length) :
    requireArgument method (args ++ more) position = requireArgument method args position := by
  rw [requireArgument, requireArgument, List.getElem?_append_left (by omega)]

theorem rowFunction_append (h : 1 ≤ args.length) :
    rowFunction method element (args ++ more) = rowFunction method element args := by
  rw [rowFunction, rowFunction, requireArgument_append (Nat.le_refl 1) h]

theorem rowFunction?_append (h : 1 ≤ args.length) :
    rowFunction? element (args ++ more) = rowFunction? element args := by
  cases args with
  | nil => cases h
  | cons arg rest => rfl

theorem resolveOperator_append {op : QueryOperator} (h : operatorCapacity op ≤ args.length) :
    resolveOperator source element method (args ++ more) op = resolveOperator source element method args op := by
  have hrequire : ∀ position, 1 ≤ position → position ≤ operatorCapacity op →
      requireArgument method (args ++ more) position = requireArgument method args position :=
    fun position hpos hle => requireArgument_append hpos (Nat.le_trans hle h)
  cases op with
  | filter | order _ _ | select | groupBy => simp only [resolveOperator, rowFunction_append h]
  | join =>
    simp only [resolveOperator, hrequire 1 (by decide) (by decide), hrequire 2 (by decide) (by decide),
      hrequire 3 (by decide) (by decide), hrequire 4 (by decide) (by decide)]
  | take => simp only [resolveOperator, hrequire 1 (by decide) (by decide)]
  | distinct => rfl
  | first | count | fold _ => simp only [resolveOperator, rowFunction?_append h]

/-- Arguments behind those that a call uses at most change nothing. -/
theorem resolveCall_append {n : Nat} (hcapacity : callCapacity source.ty method = some n) (h : n ≤ args.length) :
    resolveCall source method (args ++ more) = resolveCall source method args := by
  unfold resolveCall
  unfold callCapacity at hcapacity
  cases hty : source.ty with
  | sequence element =>
    simp only [hty] at hcapacity ⊢
    cases hop : QueryOperator.ofName method with
    | none => rfl
    | some op =>
      rw [hop] at hcapacity
      cases hcapacity
      exact resolveOperator_append h
  | grouping key element =>
    simp only [hty] at hcapacity ⊢
    split at hcapacity
    · next hfold =>
      cases hcapacity
      rw [if_pos hfold, if_pos hfold, rowFunction?_append h]
    · cases hcapacity
  | _ =>
    rw [hty] at hcapacity
    cases hcapacity

end Further

end Grammar

/-! ## Query texts -/

namespace Expr

open Grammar

/-- A query text is accepted exactly if all of it is resolved but for ignored arguments, which are those behind the
arguments that a call uses; and whatever stands there, the call is resolved as without it, or fails as without it. -/
theorem ofText_carries (schema : Schema) :
    (∀ text e, ofText schema text = .ok e ↔
      ∃ tree ignored, Syntax.ofText text = .ok tree ∧ Carries schema [] tree e ignored) ∧
    ∀ scope target t method args surplus n, resolve schema scope target = .ok t →
      callCapacity t.ty method = some n → n ≤ args.length →
        resolve schema scope (.call target method (args ++ surplus)) =
          resolve schema scope (.call target method args) ∧
        resolve schema scope (.freeCall method (target :: (args ++ surplus))) =
          resolve schema scope (.freeCall method (target :: args)) := by
  constructor
  · intro text e
    rw [ofText, bind_eq_ok]
    constructor
    · rintro ⟨tree, htree, he⟩
      obtain ⟨ignored, hcarries⟩ := (resolve_eq_ok_iff schema [] tree e).mp he
      exact ⟨tree, ignored, htree, hcarries⟩
    · rintro ⟨tree, ignored, htree, hcarries⟩
      exact ⟨tree, htree, (resolve_eq_ok_iff schema [] tree e).mpr ⟨ignored, hcarries⟩⟩
  · intro scope target t method args surplus n htarget hcapacity hlength
    have hcall : resolveCall t method (argumentsOf schema scope (args ++ surplus)) =
        resolveCall t method (argumentsOf schema scope args) := by
      rw [argumentsOf_append]
      exact resolveCall_append hcapacity (by rwa [length_argumentsOf])
    simp only [resolve, htarget]
    exact ⟨hcall, hcall⟩

theorem ofText_surplus : Syntax.ofText "People.Take(5, Nope)" =
    .ok (.call (.name "People") "Take" [.literal (.int 5), .name "Nope"]) := by cbv

/-- Behind the number of rows that are taken, a name is ignored. -/
theorem ofText_carries_take :
    (∃ e tree ignored, Syntax.ofText "People.Take(5, Nope)" = .ok tree ∧ Carries people [] tree e ignored) ∧
      resolve people [] (.call (.name "People") "Take" ([.literal (.int 5)] ++ [.name "Nope"])) =
        resolve people [] (.call (.name "People") "Take" [.literal (.int 5)]) := by
  obtain ⟨haccepted, hsurplus⟩ := ofText_carries people
  obtain ⟨e, he⟩ : ∃ e, ofText people "People.Take(5, Nope)" = .ok e := by
    rw [ofText, ofText_surplus]
    exact ⟨_, rfl⟩
  exact ⟨⟨e, (haccepted _ e).mp he⟩,
    (hsurplus [] (.name "People") _ "Take" [.literal (.int 5)] [.name "Nope"] 1 rfl rfl (Nat.le_refl 1)).1⟩

/-- A name that stands for nothing is accepted behind the number of rows that are taken. -/
theorem ignores_arguments :
    Syntax.ofText "People.Take(5, Nope)" =
        .ok (.call (.name "People") "Take" [.literal (.int 5), .name "Nope"]) ∧
      resolve people [] (.name "Nope") = .error (.unbound "Nope") ∧
      ∃ m, ofText people "People.Take(5, Nope)" = .ok
        (.operator "Take" [.ofTable m, .ofValue (.int 5)] (.sequence (.model m))) := by
  refine ⟨ofText_surplus, rfl, ?_⟩
  rw [ofText, ofText_surplus]
  exact ⟨_, rfl⟩

end Expr

end QueryChain
