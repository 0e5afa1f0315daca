import Mathlib
import QueryChain.Proofs.Chain.Body
import QueryChain.Proofs.Chain.Operator
import QueryChain.Proofs.Lowering.Compiled

/-!
# Chains that are written and built

A chain that is written as a query text and the same chain built by a program have trees that differ: parameters have
other names, and the functions of group aggregates are passed as data in one of them only. They have the same static
type, and compile to the same.

A step that is written is resolved to its tree (`Step.resolveCall_eq_tree`), which is also what is built for it
(`Step.built_eq_tree`). What the tree stands for depends on the source and on the function only
(`Step.rowOf_tree_congr`), so that chains agree step by step.

* `FunctionsMatch`: functions that no operator tells apart, for the rows that they may be given.
* `Draft.ty_built`, `Draft.isPlain_built`: what is built for a chain yields plain rows, and its type says so.
* `Draft.exists_agrees`: the syntax tree of a chain is resolved to a tree that agrees with the one built.
* `Draft.compile_written`: a text of a chain compiles to what the chain that is built does.
* `Draft.not_compile_written`: it does not where something comes after the end of the chain.
-/

namespace QueryChain

open Grammar Lowering Lower

/-! ## Parameters of one and of two rows -/

/-- The parameter of a function of one row. -/
theorem Bindings.agree_single {r : Row} (hr : r.IsPlain) (s : String) {n : String} (hn : n ≠ "e") (ty : StaticType) :
    Agree [(s, n, ty)] r.ofGroup [(s, r)] [(n, r)] := by
  constructor
  · cases r with
    | group key element => exact hr
    | _ => rfl
  · intro other n' ty' h
    rw [List.lookup_cons] at h ⊢
    split at h
    · next hname =>
      cases h
      refine ⟨r, rfl, by simp, fun he => absurd he hn, ?_⟩
      rintro key element rfl
      rfl
    · cases h

/-- The parameters of a function of two rows that are no groups. -/
theorem Bindings.agree_pair {r r' : Row} (hr : r.isGroup = false) (hr' : r'.isGroup = false) (s s' : String)
    (ty ty' : StaticType) :
    Agree [(s', "i", ty'), (s, "o", ty)] (.scalar .null) [(s', r'), (s, r)] [("i", r'), ("o", r)] := by
  have hnone : ∀ {x : Row}, x.isGroup = false → ∀ key element, x = .group key element → element = .scalar .null := by
    rintro x hx key element rfl
    cases hx
  refine ⟨rfl, fun other n t h => ?_⟩
  rw [List.lookup_cons] at h ⊢
  split at h
  · next hname =>
    cases h
    exact ⟨r', rfl, rfl, fun he => absurd he (by decide), hnone hr'⟩
  · next hname =>
    rw [List.lookup_cons] at h
    split at h
    · next hname' =>
      cases h
      exact ⟨r, by rw [List.lookup_cons, hname'], rfl, fun he => absurd he (by decide), hnone hr⟩
    · cases h

/-! ## Functions that match -/

/-- Two functions of the same type that yield the same for the rows that they may be given. -/
structure FunctionsMatch (given : List Row → Prop) (f g : Expr) : Prop where
  ty_eq : f.ty = g.ty
  body : ∃ t u, functionBody? f = some t ∧ functionBody? g = some u ∧ t.ty = u.ty ∧ t.objectShape = u.objectShape
  applyTo_eq : ∀ rows, given rows → f.applyTo [] rows = g.applyTo [] rows

theorem FunctionsMatch.joinModel_eq {given : List Row → Prop} {f g : Expr} (h : FunctionsMatch given f g) :
    (joinModel f : Option Model → Entries → Model) = joinModel g := by
  obtain ⟨t, u, ht, hu, hty, -⟩ := h.body
  funext passedOn fields
  unfold joinModel
  rw [ht, hu, Option.bind_some, Option.bind_some, hty]

/-- One row of a chain. -/
def OneRow (rows : List Row) : Prop := ∃ r : Row, rows = [r] ∧ r.IsPlain

/-- Two rows that are no groups. -/
def TwoRows (rows : List Row) : Prop := ∃ r r' : Row, rows = [r, r'] ∧ r.isGroup = false ∧ r'.isGroup = false

/-- A well-formed function is resolved to one that matches what is built. -/
theorem RowFunction.resolve_written (schema : Schema) (f : RowFunction) {n : String} (hn : n ≠ "e") {ty : StaticType}
    (hty : ty.IsRow) (h : f.body.IsWellFormed [(f.param, .param n ty)]) :
    ∃ t, resolveFunction schema [] [ty] f.written = .ok t ∧
      FunctionsMatch OneRow t (Expr.function [n] (f.built (.param n ty))).quoted := by
  have hrows : Bindings.AreRows [(f.param, n, ty)] := by
    rintro b (_ | ⟨_, ⟨⟩⟩)
    exact hty
  obtain ⟨t, ht, hmatch⟩ := f.body.resolve_written schema hrows h
  refine ⟨_, resolveFunction_lambda rfl ht, hmatch.ty_eq, ⟨t, _, rfl, rfl, hmatch.ty_eq, hmatch.objectShape_eq⟩, ?_⟩
  rintro _ ⟨r, rfl, hr⟩
  exact hmatch.rowOf_eq (Bindings.agree_single hr f.param hn ty)

/-- A well-formed function of two rows is resolved to one that matches what is built. -/
theorem PairFunction.resolve_written (schema : Schema) (f : PairFunction) {ty ty' : StaticType} (hty : ty.IsRow)
    (hty' : ty'.IsRow) (h : f.body.IsWellFormed [(f.right, .param "i" ty'), (f.left, .param "o" ty)]) :
    ∃ t, resolveFunction schema [] [ty, ty'] f.written = .ok t ∧
      FunctionsMatch TwoRows t (Expr.function ["o", "i"] (f.built (.param "o" ty) (.param "i" ty'))).quoted := by
  have hrows : Bindings.AreRows [(f.right, "i", ty'), (f.left, "o", ty)] := by
    rintro b (_ | ⟨_, _ | ⟨_, ⟨⟩⟩⟩)
    · exact hty'
    · exact hty
  obtain ⟨t, ht, hmatch⟩ := f.body.resolve_written schema hrows h
  refine ⟨_, resolveFunction_lambda rfl ht, hmatch.ty_eq, ⟨t, _, rfl, rfl, hmatch.ty_eq, hmatch.objectShape_eq⟩, ?_⟩
  rintro _ ⟨r, r', rfl, hr, hr'⟩
  exact hmatch.rowOf_eq (Bindings.agree_pair hr hr' f.left f.right ty ty')

/-! ## Types of chains -/

/-- The type of a sequence of rows. -/
def StaticType.IsRows (ty : StaticType) : Prop := ∃ element, ty = .sequence element ∧ element.IsRow

/-- The type of a sequence of rows, or else of a row or of something in one. -/
def StaticType.IsRowsIf (isOpen : Bool) (ty : StaticType) : Prop := if isOpen then ty.IsRows else ty.IsRow

theorem StaticType.IsRowsIf.isRow_element {isOpen : Bool} {ty : StaticType} (h : ty.IsRowsIf isOpen) :
    ty.element.IsRow := by
  cases isOpen with
  | true =>
    obtain ⟨element, rfl, helement⟩ := h
    exact helement
  | false =>
    cases ty with
    | sequence element => exact False.elim h
    | _ => exact trivial

/-! ## Steps -/

namespace Step

/-- The operator that the name of a step stands for. -/
def operator : Step → QueryOperator
  | .filter _ => .filter
  | .select _ => .select
  | .orderBy _ => .order false true
  | .orderByDesc _ => .order true true
  | .thenBy _ => .order false false
  | .thenByDesc _ => .order true false
  | .groupBy _ => .groupBy
  | .take _ => .take
  | .distinct => .distinct
  | .first | .firstOrDefault | .firstWhere _ => .first
  | .count | .countWhere _ => .count
  | .fold f _ => .fold f

theorem ofName_name (s : Step) : QueryOperator.ofName s.name = some s.operator := by
  cases s with
  | fold f => cases f <;> rfl
  | _ => rfl

theorem isLast_operator (s : Step) : s.operator.isLast = s.isLast := by
  cases s <;> rfl

/-- What follows the source of a step, from the function that it is given. -/
def operands (function : Option Expr) : Step → List Expr
  | .take n => [.ofValue (.int n)]
  | _ => function.toList

/-- The static type of a chain after a step, from that before it and that of the function. -/
def result (source function : StaticType) : Step → StaticType
  | .filter _ | .orderBy _ | .orderByDesc _ | .thenBy _ | .thenByDesc _ | .take _ | .distinct => source
  | .select _ => .sequence function
  | .groupBy _ => .sequence (.grouping function source.element)
  | .first | .firstOrDefault | .firstWhere _ => source.element
  | .count | .countWhere _ => .scalar .int
  | .fold f _ => if f.name = "Average" then .scalar .float else function

/-- The static type of the function of a step. -/
def functionType (function : Option Expr) : StaticType := function.elim .unknown Expr.ty

/-- The tree of a step, from that of its source and that of its function. -/
def tree (source : Expr) (function : Option Expr) (s : Step) : Expr :=
  .operator s.name (source :: s.operands function) (s.result source.ty (functionType function))

/-- What is built for a step. -/
theorem built_eq_tree (q : Chain) (s : Step) :
    (s.built q).expr = s.tree q.expr (s.function?.map fun f => q.rowFunction f.built) := by
  cases s with
  | fold f => cases f <;> rfl
  | _ => rfl

section Resolve

variable {schema : Schema} {t : Expr} {element : StaticType} {s : Step}

/-- A step that is given no function is resolved to its tree. -/
theorem resolveOperator_of_eq_none (ht : t.ty.element = element) (hs : s.function? = none) :
    resolveOperator t element s.name (argumentsOf schema [] s.written) s.operator = .ok (s.tree t none) := by
  subst ht
  cases s with
  | take n => rfl
  | distinct => rfl
  | first => rfl
  | firstOrDefault => rfl
  | count => rfl
  | _ => cases hs

theorem written_of_eq_some {f : RowFunction} (hs : s.function? = some f) : s.written = [f.written] := by
  cases s <;> cases hs <;> rfl

/-- A step that is given a function is resolved to its tree. -/
theorem resolveOperator_of_eq_some (ht : t.ty.element = element) {f : RowFunction} (hs : s.function? = some f)
    {g : Expr} (hg : resolveFunction schema [] [element] f.written = .ok g) :
    resolveOperator t element s.name (argumentsOf schema [] s.written) s.operator = .ok (s.tree t (some g)) := by
  have hrequired : rowFunction s.name element (argumentsOf schema [] [f.written]) = .ok g := hg
  have hoptional : rowFunction? element (argumentsOf schema [] [f.written]) = .ok [g] := by
    show (resolveFunction schema [] [element] f.written >>= _) = _
    rw [hg]
    rfl
  rw [written_of_eq_some hs]
  subst ht
  cases s with
  | take n => cases hs
  | distinct => cases hs
  | first => cases hs
  | firstOrDefault => cases hs
  | count => cases hs
  | firstWhere | countWhere =>
    cases hs
    show (rowFunction? _ _ >>= _) = _
    rw [hoptional]
    rfl
  | fold a =>
    cases hs
    show (rowFunction? _ _ >>= _) = _
    rw [hoptional]
    cases a <;> rfl
  | _ =>
    cases hs
    show (rowFunction _ _ _ >>= _) = _
    rw [hrequired]
    rfl

/-- What is written for a step is resolved to its tree. -/
theorem resolveCall_eq_tree (ht : t.ty = .sequence element) (s : Step) {function : Option Expr}
    (hfunction : Option.Rel (fun f g => resolveFunction schema [] [element] f.written = .ok g) s.function? function) :
    resolveCall t s.name (argumentsOf schema [] s.written) = .ok (s.tree t function) := by
  have helement : t.ty.element = element := congrArg StaticType.element ht
  rw [resolveCall, ht, ofName_name]
  generalize hs : s.function? = f? at hfunction
  cases hfunction with
  | none => exact resolveOperator_of_eq_none helement hs
  | some hg => exact resolveOperator_of_eq_some helement hs hg

end Resolve

theorem functionType_congr {f g : Option Expr} {given : List Row → Prop} (h : Option.Rel (FunctionsMatch given) f g) :
    functionType f = functionType g := by
  cases h with
  | none => rfl
  | some h => exact h.ty_eq

/-- The static type of a step depends on that of its source and of its function. -/
theorem ty_tree_congr (s : Step) {t u : Expr} (hty : t.ty = u.ty) {f g : Option Expr} {given : List Row → Prop}
    (h : Option.Rel (FunctionsMatch given) f g) : (s.tree t f).ty = (s.tree u g).ty := by
  show s.result t.ty (functionType f) = s.result u.ty (functionType g)
  rw [hty, functionType_congr h]

/-- What a step stands for depends on what its source stands for, and on what its function yields for plain rows. -/
theorem rowOf_tree_congr (s : Step) {t u : Expr} (ht : t.isRowDerived = false) (hu : u.isRowDerived = false)
    (hrow : t.rowOf [] = u.rowOf [])
    (hplain : ∀ {c r c'}, ExceptT.run (u.rowOf []) c = (.ok r, c') → r.IsPlain) {f g : Option Expr}
    (h : Option.Rel (FunctionsMatch OneRow) f g) : (s.tree t f).rowOf [] = (s.tree u g).rowOf [] := by
  rw [tree, tree, Expr.rowOf_operator s.ofName_name ht, Expr.rowOf_operator s.ofName_name hu]
  by_cases htake : ∃ n, s = .take n
  · obtain ⟨n, rfl⟩ := htake
    exact operate_take _ hrow _
  · have hoperands : ∀ function : Option Expr, s.operands function = function.toList := by
      intro function
      cases s with
      | take n => exact absurd ⟨n, rfl⟩ htake
      | _ => rfl
    have hop : s.operator ≠ .take := by
      rintro hop
      cases s <;> first | exact htake ⟨_, rfl⟩ | cases hop
    rw [hoperands, hoperands]
    cases h with
    | none => exact operate_single _ _ hrow
    | some hmatch =>
      refine operate_function _ hop hrow (fun c r c' hr => ?_) hmatch.body
      rw [Operand.ofExpr, hrow] at hr
      exact hmatch.applyTo_eq _ ⟨r, rfl, hplain hr⟩

/-- After the last step there are no rows, and after any other there are. -/
theorem isRow_result (s : Step) {source function : StaticType} (hsource : source.IsRows) (hfunction : function.IsRow) :
    (s.result source function).IsRowsIf (!s.isLast) := by
  obtain ⟨element, rfl, helement⟩ := hsource
  cases s with
  | fold f => cases f <;> first | exact trivial | exact hfunction
  | groupBy => exact ⟨_, rfl, hfunction, helement⟩
  | select => exact ⟨_, rfl, hfunction⟩
  | count => exact trivial
  | countWhere => exact trivial
  | first => exact helement
  | firstOrDefault => exact helement
  | firstWhere => exact helement
  | _ => exact ⟨_, rfl, helement⟩

end Step

/-! ## Joins -/

theorem ofName_join : QueryOperator.ofName "Join" = some .join := rfl

theorem resolveOperator_join {schema : Schema} {element : StaticType} {inner outerKey innerKey result : Syntax}
    {t u f g k : Expr} (hu : resolve schema [] inner = .ok u)
    (hf : resolveFunction schema [] [element] outerKey = .ok f)
    (hg : resolveFunction schema [] [u.ty.element] innerKey = .ok g)
    (hk : resolveFunction schema [] [element, u.ty.element] result = .ok k) :
    resolveOperator t element "Join" (argumentsOf schema [] [inner, outerKey, innerKey, result]) .join =
      .ok (.operator "Join" [t, u, f, g, k] (.sequence k.ty)) := by
  show (resolve schema [] inner >>= _) = _
  rw [hu]
  show (resolveFunction schema [] [element] outerKey >>= _) = _
  rw [hf]
  show (resolveFunction schema [] [u.ty.element] innerKey >>= _) = _
  rw [hg]
  show (resolveFunction schema [] [element, u.ty.element] result >>= _) = _
  rw [hk]
  rfl

/-! ## Chains -/

theorem RowFunction.isRow_ty (f : RowFunction) {q : Chain} (hq : q.elementType.IsRow) :
    (q.rowFunction f.built).ty.IsRow :=
  f.body.isRow_built (List.forall_mem_singleton.mpr hq)

namespace Draft

variable {schema : Schema}

/-- What is built for a draft is no aggregate of a group. -/
theorem isRowDerived_built (d : Draft) : (d.built schema).expr.isRowDerived = false := by
  induction d with
  | table name => rfl
  | step source s ih =>
    rw [built, Step.built_eq_tree, Step.tree, Expr.isRowDerived, ih]
  | join source inner outerKey innerKey result ihSource => exact ihSource

/-- The static type of what is built for a draft. -/
theorem ty_built {d : Draft} (hd : d.IsWellFormed schema) : (d.built schema).expr.ty.IsRowsIf d.isOpen := by
  induction d with
  | table name => exact ⟨_, rfl, trivial⟩
  | step source s ih =>
    obtain ⟨hsource, hopen, -⟩ := hd
    have hty := ih hsource
    have helement : (source.built schema).elementType.IsRow := hty.isRow_element
    rw [hopen] at hty
    rw [built, Step.built_eq_tree]
    refine s.isRow_result hty ?_
    cases s.function? with
    | none => exact trivial
    | some f => exact f.isRow_ty helement
  | join source inner outerKey innerKey result ihSource ihInner =>
    obtain ⟨hsource, hopen, hinner, -⟩ := hd
    refine ⟨_, rfl, result.body.isRow_built ?_⟩
    exact List.forall_mem_cons.mpr ⟨(ihInner hinner).isRow_element,
      List.forall_mem_singleton.mpr (ihSource hsource).isRow_element⟩

theorem isRows_built {d : Draft} (hd : d.IsWellFormed schema) (hopen : d.isOpen = true) :
    (d.built schema).expr.ty.IsRows := by
  have h := ty_built hd
  rwa [hopen] at h

/-- The rows of a draft to which another operator can be added are plain. -/
theorem isPlain_built {d : Draft} (hd : d.IsWellFormed schema) (hopen : d.isOpen = true) {c c' : Clauses} {r : Row}
    (h : ExceptT.run ((d.built schema).expr.rowOf []) c = (.ok r, c')) : r.IsPlain := by
  induction d generalizing c c' r with
  | table name =>
    obtain ⟨t, c₁, -, ⟨⟩⟩ := run_bind_eq_ok.mp h
    exact trivial
  | step source s ih =>
    rw [built, Step.built_eq_tree, Step.tree, Expr.rowOf_operator s.ofName_name source.isRowDerived_built] at h
    refine isPlain_of_operate ?_ (ih hd.1 hd.2.1) _ h
    rw [s.isLast_operator]
    simpa [isOpen] using hopen
  | join source inner outerKey innerKey result ihSource =>
    rw [built, Chain.join, Chain.apply, Expr.rowOf_operator ofName_join source.isRowDerived_built] at h
    exact isPlain_of_operate rfl (ihSource hd.1 hd.2.1) _ h

/-- The tree that the text of a draft is resolved to agrees with the one that is built. -/
structure Agrees (schema : Schema) (d : Draft) (t : Expr) : Prop where
  resolve_eq : resolve schema [] d.written = .ok t
  ty_eq : t.ty = (d.built schema).expr.ty
  isRowDerived_eq : t.isRowDerived = false
  rowOf_eq : t.rowOf [] = (d.built schema).expr.rowOf []

/-- The functions of a step agree where its source does. -/
theorem exists_functionsMatch {source : Draft} {s : Step} (hd : (step source s).IsWellFormed schema) :
    ∃ function, Option.Rel (fun f g => resolveFunction schema [] [(source.built schema).elementType] f.written = .ok g)
        s.function? function ∧
      Option.Rel (FunctionsMatch OneRow) function
        (s.function?.map fun f => (source.built schema).rowFunction f.built) := by
  obtain ⟨hsource, -, hfunction⟩ := hd
  cases hs : s.function? with
  | none => exact ⟨none, .none, .none⟩
  | some f =>
    obtain ⟨g, hg, hmatch⟩ :=
      f.resolve_written schema (by decide) (ty_built hsource).isRow_element (hfunction f hs)
    exact ⟨some g, .some hg, .some hmatch⟩

theorem exists_agrees_step {source : Draft} {s : Step} (hd : (step source s).IsWellFormed schema) {t : Expr}
    (ht : source.Agrees schema t) : ∃ u, (step source s).Agrees schema u := by
  obtain ⟨function, hresolve, hmatch⟩ := exists_functionsMatch hd
  obtain ⟨hsource, hopen, -⟩ := hd
  obtain ⟨element, hty, -⟩ := isRows_built hsource hopen
  have helement : (source.built schema).elementType = element := by
    rw [Chain.elementType, hty]
    rfl
  rw [helement] at hresolve
  refine ⟨s.tree t function, ?_, ?_, ht.isRowDerived_eq, ?_⟩
  · rw [written, resolve, ht.resolve_eq]
    exact s.resolveCall_eq_tree (ht.ty_eq.trans hty) hresolve
  · rw [built, Step.built_eq_tree]
    exact s.ty_tree_congr ht.ty_eq hmatch
  · rw [built, Step.built_eq_tree]
    exact s.rowOf_tree_congr ht.isRowDerived_eq source.isRowDerived_built ht.rowOf_eq
      (fun h => isPlain_built hsource hopen h) hmatch

theorem exists_agrees_join {source inner : Draft} {outerKey innerKey : RowFunction} {result : PairFunction}
    (hd : (join source inner outerKey innerKey result).IsWellFormed schema) {t u : Expr}
    (ht : source.Agrees schema t) (hu : inner.Agrees schema u) :
    ∃ v, (join source inner outerKey innerKey result).Agrees schema v := by
  obtain ⟨hsource, hopen, hinner, houterKey, hinnerKey, hresult⟩ := hd
  have hrow := (ty_built hsource).isRow_element
  have hinnerRow := (ty_built hinner).isRow_element
  obtain ⟨element, hty, -⟩ := isRows_built hsource hopen
  have helement : (source.built schema).elementType = element := by
    rw [Chain.elementType, hty]
    rfl
  have hinnerElement : u.ty.element = (inner.built schema).elementType := by
    rw [hu.ty_eq]
    rfl
  obtain ⟨f, hf, hfmatch⟩ := outerKey.resolve_written schema (by decide) hrow houterKey
  obtain ⟨g, hg, hgmatch⟩ := innerKey.resolve_written schema (by decide) hinnerRow hinnerKey
  obtain ⟨k, hk, hkmatch⟩ := result.resolve_written schema hrow hinnerRow hresult
  rw [← Chain.elementType] at hf hg hk
  refine ⟨.operator "Join" [t, u, f, g, k] (.sequence k.ty), ?_, ?_, ht.isRowDerived_eq, ?_⟩
  · rw [written, resolve, ht.resolve_eq]
    show resolveCall t "Join" _ = _
    rw [resolveCall, ht.ty_eq, hty, ← helement]
    exact resolveOperator_join hu.resolve_eq hf (hinnerElement ▸ hg) (hinnerElement ▸ hk)
  · exact congrArg StaticType.sequence hkmatch.ty_eq
  · rw [built, Chain.join, Chain.apply, Expr.rowOf_operator ofName_join ht.isRowDerived_eq,
      Expr.rowOf_operator ofName_join source.isRowDerived_built]
    refine operate_join _ ht.rowOf_eq hu.rowOf_eq (fun r hr => ?_) (fun r hr => ?_) (fun r r' hr hr' => ?_) ?_
    · exact hfmatch.applyTo_eq _ ⟨r, rfl, Row.isPlain_of_isGroup_eq_false hr⟩
    · exact hgmatch.applyTo_eq _ ⟨r, rfl, Row.isPlain_of_isGroup_eq_false hr⟩
    · exact hkmatch.applyTo_eq _ ⟨r, r', rfl, hr, hr'⟩
    · exact hkmatch.joinModel_eq

/-- What is written for a draft is resolved to a tree that agrees with what is built. -/
theorem exists_agrees {d : Draft} (hd : d.IsWellFormed schema) : ∃ t, d.Agrees schema t := by
  induction d with
  | table name =>
    obtain ⟨m, hm⟩ := Option.isSome_iff_exists.mp hd
    refine ⟨.ofTable m, ?_, ?_, rfl, ?_⟩
    · rw [written, resolve, resolveName, List.lookup_nil, hm]
    · rw [built, hm]
      rfl
    · rw [built, hm]
      rfl
  | step source s ih =>
    obtain ⟨t, ht⟩ := ih hd.1
    exact exists_agrees_step hd ht
  | join source inner outerKey innerKey result ihSource ihInner =>
    obtain ⟨t, ht⟩ := ihSource hd.1
    obtain ⟨u, hu⟩ := ihInner hd.2.2.1
    exact exists_agrees_join hd ht hu

/-- A text of a draft has a tree of the static type of the chain that is built, and it compiles to the same under all
options. -/
theorem compile_written {d : Draft} (hd : d.IsWellFormed schema) {text : String}
    (htext : Syntax.ofText text = .ok d.written) :
    ∃ e, Expr.ofText schema text = .ok e ∧ e.ty = (d.built schema).expr.ty ∧
      ∀ o, e.compile o = (d.built schema).expr.compile o := by
  obtain ⟨e, he⟩ := exists_agrees hd
  refine ⟨e, ?_, he.ty_eq, fun o => ?_⟩
  · rw [Expr.ofText, htext]
    exact he.resolve_eq
  · have hlower : (e.lower : Except Fault Lowered) = (d.built schema).expr.lower := by
      rw [Expr.lower, Expr.lower, Expr.clausesOf, Expr.clausesOf, he.rowOf_eq]
    rw [Expr.compile_eq_lower, Expr.compile_eq_lower, hlower]

/-- Shops, and what they sold. -/
def shops : Schema :=
  ⟨[.dynamic (.schema "Shop") "Shop" "Shops" [("City", "City", some .text), ("Id", "Id", some .int)] none,
    .dynamic (.schema "Sale") "Sale" "Sales" [("Shop", "Shop", some .int), ("Price", "Price", some .int)] none]⟩

/-- What was sold in each city, and for how much. -/
def sales : Draft :=
  .step (.step (.join (.table "Shop") (.table "Sales")
    ⟨"s", .member (.name "s") "Id"⟩ ⟨"s", .member (.name "s") "Shop"⟩
    ⟨"s", "t", .object [("City", .member (.name "s") "City"), ("Price", .member (.name "t") "Price")]⟩)
    (.groupBy ⟨"r", .member (.name "r") "City"⟩))
    (.select ⟨"g", .object [("City", .method (.member (.name "g") "Key") "Trim" []), ("Sold", .groupCount "g"),
      ("Worth", .groupFold .sum "g" "x" (.member (.name "x") "Price"))]⟩)

theorem isWellFormed_sales : sales.IsWellFormed shops := by
  refine ⟨⟨⟨rfl, rfl, rfl, rfl, rfl, rfl, rfl, trivial⟩, rfl, ?_⟩, rfl, ?_⟩
  · rintro f ⟨⟩
    exact rfl
  · rintro f ⟨⟩
    exact ⟨⟨rfl, nofun, trivial⟩, ⟨rfl, rfl⟩, ⟨rfl, rfl, rfl⟩, trivial⟩

theorem compile_written_sales :
    ∃ e, Expr.ofText shops "Shop.Join(Sales, s => s.Id, s => s.Shop, (s, t) => new\x7bs.City, t.Price\x7d)
      .GroupBy(r => r.City)
      .Select(g => new\x7bCity = g.Key.Trim(), Sold = g.Count(), Worth = g.Sum(x => x.Price)\x7d)" = .ok e ∧
      e.ty = (sales.built shops).expr.ty ∧ ∀ o, e.compile o = (sales.built shops).expr.compile o :=
  compile_written isWellFormed_sales (by cbv)

example : ((sales.built shops).expr.compile .standard).toOption.map (·.sql) =
    some ("SELECT LTRIM(RTRIM(t0.City)) AS [City], COUNT(*) AS [Sold], SUM(t1.Price) AS [Worth] FROM Shops t0 " ++
      "INNER JOIN Sales t1 ON (t0.Id = t1.Shop) GROUP BY t0.City") := by
  decide +kernel

/-- A chain that goes on after its end. -/
def goesOn : Draft := .step (.step (.table "Shops") .first) (.take 3)

/-- After the end of a chain, a text calls a method, and a program adds an operator. -/
theorem not_compile_written :
    Syntax.ofText "Shops.First().Take(3)" = .ok goesOn.written ∧
      ∃ e q, Expr.ofText shops "Shops.First().Take(3)" = .ok e ∧ e.ty ≠ (goesOn.built shops).expr.ty ∧
        (goesOn.built shops).expr.compile .standard = .ok q ∧ e.compile .standard ≠ .ok q := by
  have htext : Syntax.ofText "Shops.First().Take(3)" = .ok goesOn.written := by cbv
  refine ⟨htext, ((Draft.step (.table "Shops") .first).built shops).expr.callMethod "Take" [.ofValue (.int 3)], _, ?_,
    ?_, rfl, ?_⟩
  · rw [Expr.ofText, htext]
    rfl
  · intro hty
    cases hty
  · intro hcompile
    cases hcompile

end Draft

end QueryChain
