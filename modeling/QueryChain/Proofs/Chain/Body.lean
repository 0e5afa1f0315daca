import Mathlib.Data.List.Forall2
import QueryChain.Proofs.Chain.Draft
import QueryChain.Proofs.Chain.Operator
import QueryChain.Proofs.Meaning.Row

/-!
# Functions that are written and built

A body that is written is resolved under the names that its writer chose; a body that is built has the names that the
builder gives to every function. Both have the same static type, and stand for the same.

The builder calls the row of every group `e`, so that in an aggregate within another one the inner parameter hides the
outer one. This does no harm: all groups that an aggregate can be called on are groups of the same rows, so that both
parameters stand for the same row.

* `Bindings.Agree`: environments that give the same rows to what is written and to what is built.
* `Matches`: a written and a built expression of the same type, that stand for the same in such environments.
* `Body.resolve_written`: a well-formed body is resolved to an expression that matches the built one.
-/

namespace QueryChain

open Grammar Lowering Lower

/-! ## Types of rows -/

/-- The type of a row or of something in a row, which is no sequence. -/
def StaticType.IsRow : StaticType → Prop
  | .sequence _ => False
  | .grouping key element => key.IsRow ∧ element.IsRow
  | _ => True

theorem StaticType.isRow_ofScalar (t : Option ScalarType) : (ofScalar t).IsRow := by
  cases t <;> exact trivial

theorem StaticType.IsRow.member {t : StaticType} (h : t.IsRow) (field : String) : (t.member field).IsRow := by
  unfold StaticType.member
  split
  · exact isRow_ofScalar _
  · split
    · exact h.1
    · exact trivial
  · split <;> exact trivial
  · exact trivial

theorem Expr.isRow_groupElement {group : Expr} (h : group.ty.IsRow) : group.groupElement.IsRow := by
  unfold Expr.groupElement
  split
  · next hty =>
    rw [hty] at h
    exact h.2
  · exact trivial

/-! ## Parameters -/

/-- The parameters in scope, innermost first: the name that is written, and the name and type that are built. -/
abbrev Bindings := List (String × String × StaticType)

namespace Bindings

/-- The types of the parameters that are written. -/
def types (σ : Bindings) : TypeScope := σ.map fun b => (b.1, b.2.2)

/-- The expressions of the parameters that are built. -/
def scope (σ : Bindings) : Body.Scope := σ.map fun b => (b.1, .param b.2.1 b.2.2)

/-- The parameters stand for rows. -/
def AreRows (σ : Bindings) : Prop := ∀ b ∈ σ, b.2.2.IsRow

/-- The environments give the same row to a parameter whether it is written or built. All groups are groups of one row,
which all parameters with the name `e` stand for. -/
structure Agree (σ : Bindings) (row : Row) (env env' : Env) : Prop where
  isGroup_eq_false : row.isGroup = false
  lookup : ∀ s n ty, σ.lookup s = some (n, ty) → ∃ r, env.lookup s = some r ∧ env'.lookup n = some r ∧
    (n = "e" → r = row) ∧ ∀ key element, r = .group key element → element = row

variable {σ : Bindings} {s n : String} {ty : StaticType} {row : Row} {env env' : Env}

theorem exists_lookup (h : (σ.scope.lookup s).isSome = true) : ∃ n ty, σ.lookup s = some (n, ty) := by
  rw [scope, lookup_map (fun b : String × StaticType => Expr.param b.1 b.2), Option.isSome_map] at h
  obtain ⟨⟨n, ty⟩, hb⟩ := Option.isSome_iff_exists.mp h
  exact ⟨n, ty, hb⟩

theorem find_scope (h : σ.lookup s = some (n, ty)) : σ.scope.find s = .param n ty := by
  rw [Body.Scope.find, scope, lookup_map (fun b : String × StaticType => Expr.param b.1 b.2), h]
  rfl

/-- What a group is called on is a parameter that stands for groups. -/
theorem exists_group (h : (σ.scope.lookup s).isSome = true) (hgrouped : (σ.scope.find s).isGrouped = true) :
    ∃ n key element, σ.lookup s = some (n, .grouping key element) := by
  obtain ⟨n, ty, hlookup⟩ := exists_lookup h
  rw [find_scope hlookup, Expr.isGrouped] at hgrouped
  split at hgrouped
  · next key element hty =>
    obtain rfl : ty = .grouping key element := hty
    exact ⟨n, key, element, hlookup⟩
  · cases hgrouped

theorem resolveName_types (schema : Schema) (h : σ.lookup s = some (n, ty)) :
    resolveName schema σ.types s = .ok (.param s ty) := by
  rw [resolveName, types, lookup_map (fun b : String × StaticType => b.2), h]
  rfl

theorem AreRows.isRow (hσ : σ.AreRows) (h : σ.lookup s = some (n, ty)) : ty.IsRow := by
  obtain ⟨before, after, rfl, -⟩ := List.lookup_eq_some_iff.mp h
  exact hσ _ (List.mem_append_right _ List.mem_cons_self)

theorem AreRows.cons (hσ : σ.AreRows) (hty : ty.IsRow) (s n : String) : AreRows ((s, n, ty) :: σ) :=
  List.forall_mem_cons.mpr ⟨hty, hσ⟩

/-- The row of a group gets the name `e`, and hides what stands for the same row. -/
theorem Agree.enter (h : σ.Agree row env env') (s : String) (ty : StaticType) :
    Agree ((s, "e", ty) :: σ) row ((s, row) :: env) (("e", row) :: env') := by
  have hgroup : ∀ key element, row = .group key element → element = row := by
    rintro key element rfl
    cases h.isGroup_eq_false
  refine ⟨h.isGroup_eq_false, fun other n ty' hlookup => ?_⟩
  rw [List.lookup_cons] at hlookup ⊢
  by_cases hs : other = s
  · subst hs
    simp only [BEq.rfl] at hlookup ⊢
    cases hlookup
    exact ⟨row, rfl, by simp, fun _ => rfl, hgroup⟩
  · have hne : (other == s) = false := by simpa using hs
    rw [hne] at hlookup ⊢
    obtain ⟨r, hr, hr', he, helement⟩ := h.lookup other n ty' hlookup
    refine ⟨r, hr, ?_, he, helement⟩
    by_cases hn : n = "e"
    · subst hn
      rw [List.lookup_cons, he rfl]
      rfl
    · have hne' : (n == "e") = false := by simpa using hn
      rw [List.lookup_cons, hne', hr']

end Bindings

theorem Body.isRow_find {scope : Scope} (h : ∀ b ∈ scope, b.2.ty.IsRow) (s : String) : (scope.find s).ty.IsRow := by
  rw [Scope.find]
  cases hs : scope.lookup s with
  | none => exact trivial
  | some e =>
    obtain ⟨before, after, rfl, -⟩ := List.lookup_eq_some_iff.mp hs
    exact h _ (List.mem_append_right _ List.mem_cons_self)

/-- What is built from rows is no sequence. -/
theorem Body.isRow_built (b : Body) {scope : Scope} (h : ∀ b ∈ scope, b.2.ty.IsRow) : (b.built scope).ty.IsRow := by
  cases b with
  | name s => exact isRow_find h s
  | literal v => exact StaticType.isRow_ofScalar _
  | member target field => exact (target.isRow_built h).member field
  | binary op left right =>
    rw [built, Expr.ty_applyOp]
    split
    · exact trivial
    · exact left.isRow_built h
  | method target m args =>
    rw [built, Expr.callMethod]
    unfold Expr.methodType
    repeat' split
    all_goals exact trivial
  | object members => exact trivial
  | groupCount group => exact trivial
  | groupFold f group param selector =>
    have hgroup := Expr.isRow_groupElement (isRow_find h group)
    have hselector : (selector.built ((param, .param "e" (scope.find group).groupElement) :: scope)).ty.IsRow :=
      selector.isRow_built (List.forall_mem_cons.mpr ⟨hgroup, h⟩)
    rw [built, Expr.groupAggregate]
    cases f <;> first | exact trivial | exact hselector

theorem Bindings.AreRows.scope {σ : Bindings} (hσ : σ.AreRows) : ∀ b ∈ σ.scope, b.2.ty.IsRow := by
  intro b hb
  obtain ⟨c, hc, rfl⟩ := List.mem_map.mp hb
  exact hσ c hc

/-! ## Expressions that match -/

/-- A written and a built expression that have the same static type, and stand for the same where the parameters do. -/
structure Matches (σ : Bindings) (t u : Expr) : Prop where
  ty_eq : t.ty = u.ty
  objectShape_eq : t.objectShape = u.objectShape
  rowOf_eq : ∀ {row : Row} {env env' : Env}, σ.Agree row env env' → t.rowOf env = u.rowOf env'

section Matches

variable {σ : Bindings} {schema : Schema}

theorem matches_param {s n : String} {ty : StaticType} (h : σ.lookup s = some (n, ty)) :
    Matches σ (.param s ty) (.param n ty) := by
  refine ⟨rfl, rfl, fun henv => ?_⟩
  obtain ⟨r, hr, hr', -⟩ := henv.lookup s n ty h
  rw [Expr.rowOf, Expr.rowOf, Lowering.lookup, Lowering.lookup, hr, hr']

theorem rowsOf_eq_of_matches {ts us : List Expr} (h : List.Forall₂ (Matches σ) ts us) {row : Row} {env env' : Env}
    (henv : σ.Agree row env env') : Expr.rowsOf env ts = Expr.rowsOf env' us := by
  induction h with
  | nil => rfl
  | cons hhead _ ih => rw [Expr.rowsOf, Expr.rowsOf, hhead.rowOf_eq henv, ih]

/-- Members with the same names whose values match. -/
def MembersMatch (σ : Bindings) (ts us : List (String × Expr)) : Prop :=
  List.Forall₂ (fun p q => p.1 = q.1 ∧ Matches σ p.2 q.2) ts us

theorem MembersMatch.membersOf_eq {ts us : List (String × Expr)} (h : MembersMatch σ ts us) {row : Row}
    {env env' : Env} (henv : σ.Agree row env env') : Expr.membersOf env ts = Expr.membersOf env' us := by
  rw [MembersMatch] at h
  induction h with
  | nil => rfl
  | @cons p q _ _ hhead _ ih =>
    obtain ⟨name, t⟩ := p
    obtain ⟨_, u⟩ := q
    obtain ⟨rfl, hmatch⟩ := hhead
    rw [Expr.membersOf, Expr.membersOf, Expr.memberRow, Expr.memberRow, hmatch.rowOf_eq henv, ih]

theorem MembersMatch.memberTypes_eq {ts us : List (String × Expr)} (h : MembersMatch σ ts us) :
    Expr.memberTypes ts = Expr.memberTypes us := by
  rw [MembersMatch] at h
  induction h with
  | nil => rfl
  | @cons p q _ _ hhead _ ih =>
    obtain ⟨name, t⟩ := p
    obtain ⟨_, u⟩ := q
    obtain ⟨rfl, hmatch⟩ := hhead
    have hty : t.ty = u.ty := hmatch.ty_eq
    show (name, t.ty.asScalar) :: Expr.memberTypes _ = (name, u.ty.asScalar) :: Expr.memberTypes _
    rw [hty, ih]

/-- On what is no sequence, a call that names no aggregate of a group is a method. -/
theorem resolveCall_eq_resolveMethod {target : Expr} (hty : target.ty.IsRow) {m : String}
    (hm : target.isGrouped = true → GroupFold.ofName m = none) (args : List Argument) :
    resolveCall target m args = resolveMethod target m args := by
  unfold resolveCall
  split
  · next h =>
    rw [h] at hty
    exact hty.elim
  · next h =>
    have hnone : GroupFold.ofName m = none := hm (by rw [Expr.isGrouped, h])
    rw [hnone]
    rfl
  · rfl

/-- A function that is written is resolved with its parameters in scope. -/
theorem resolveFunction_lambda {scope : TypeScope} {names : List String} {types : List StaticType} {body : Syntax}
    {t : Expr} (hlength : names.length = types.length) (h : resolve schema (scope.enter names types) body = .ok t) :
    resolveFunction schema scope types (.lambda names body) = .ok (Expr.function names t).quoted := by
  rw [resolveFunction, if_pos hlength, h]
  rfl

theorem resolveCall_groupFold (f : Aggregate) {scope : TypeScope} {group param : String} {key element : StaticType}
    {body : Syntax} {t : Expr} (h : resolve schema ((param, element) :: scope) body = .ok t) :
    resolveCall (.param group (.grouping key element)) f.name (argumentsOf schema scope [.lambda [param] body]) =
      .ok (.operator f.name [.param group (.grouping key element), (Expr.function [param] t).quoted]
        (if f.name = "Average" then .scalar .float else t.ty)) := by
  have hselector : rowFunction? element (argumentsOf schema scope [.lambda [param] body]) =
      .ok [(Expr.function [param] t).quoted] := by
    show (resolveFunction schema scope [element] (.lambda [param] body) >>= _) = _
    rw [resolveFunction_lambda rfl h]
    rfl
  have hf : (GroupFold.ofName f.name).isSome = true := by cases f <;> decide
  show (if (GroupFold.ofName f.name).isSome then _ else _) = _
  rw [if_pos hf, hselector]
  cases f <;> rfl

/-- An aggregate of a group folds the rows of what the parameter stands for. -/
theorem rowOf_groupFold {name group : String} {f : GroupFold} (hf : GroupFold.ofName name = some f) (env : Env)
    (rest : List Expr) (ty ty' : StaticType) :
    Expr.rowOf env (.operator name (.param group ty :: rest) ty') =
      foldGroup name f ⟨.param group ty, Lowering.lookup env group, fun rows => Expr.applyTo env rows (.param group ty)⟩
        (Expr.operandsOf env rest)[0]? := by
  rw [Expr.rowOf, Expr.operandsOf, callOperator_eq, Expr.isRowDerived, if_pos rfl, hf, Expr.rowOf]

/-- A method call matches where its target and arguments do. -/
theorem Matches.callMethod {t u : Expr} (h : Matches σ t u) (m : String) {ts us : List Expr}
    (hargs : List.Forall₂ (Matches σ) ts us) : Matches σ (t.callMethod m ts) (u.callMethod m us) := by
  refine ⟨rfl, rfl, fun henv => ?_⟩
  rw [Expr.callMethod, Expr.callMethod, Expr.rowOf, Expr.rowOf, h.rowOf_eq henv, rowsOf_eq_of_matches hargs henv]

theorem Matches.member {t u : Expr} (h : Matches σ t u) (field : String) :
    Matches σ (t.member field) (u.member field) := by
  refine ⟨?_, rfl, fun henv => ?_⟩
  · show t.ty.member field = u.ty.member field
    rw [h.ty_eq]
  · rw [Expr.member, Expr.member, Expr.rowOf, Expr.rowOf, h.rowOf_eq henv]

theorem Matches.applyOp {t t' u u' : Expr} (h : Matches σ t u) (h' : Matches σ t' u') (op : BinaryOp) :
    Matches σ (.applyOp op t t') (.applyOp op u u') := by
  refine ⟨?_, rfl, fun henv => ?_⟩
  · rw [Expr.ty_applyOp, Expr.ty_applyOp, h.ty_eq]
  · rw [Expr.applyOp, Expr.applyOp, Expr.rowOf, Expr.rowOf, h.rowOf_eq henv, h'.rowOf_eq henv, joinsTexts, joinsTexts,
      h.ty_eq, h'.ty_eq]

theorem MembersMatch.newObject {ts us : List (String × Expr)} (h : MembersMatch σ ts us) :
    Matches σ (.newObject (.anonymous .projection (Expr.memberTypes ts)) .named ts)
      (.newObject (.anonymous .projection (Expr.memberTypes us)) .named us) := by
  rw [h.memberTypes_eq]
  refine ⟨rfl, rfl, fun henv => ?_⟩
  rw [Expr.newObject, Expr.newObject, Expr.rowOf, Expr.rowOf, h.membersOf_eq henv]

theorem matches_groupCount {s n : String} {ty : StaticType} (h : σ.lookup s = some (n, ty)) :
    Matches σ (.operator "Count" [.param s ty] (.scalar .int)) (Expr.param n ty).groupCount := by
  refine ⟨rfl, rfl, fun {row env env'} henv => ?_⟩
  obtain ⟨r, hr, hr', -⟩ := henv.lookup s n ty h
  rw [Expr.groupCount, rowOf_groupFold (f := .count) rfl, rowOf_groupFold (f := .count) rfl, foldGroup, foldGroup,
    Lowering.lookup, Lowering.lookup, hr, hr']
  rfl

/-- A fold of a group matches where the functions of its rows do. -/
theorem matches_groupFold (f : Aggregate) {s n : String} {ty : StaticType} (h : σ.lookup s = some (n, ty))
    {param : String} {t u : Expr} {ty' : StaticType} (hselector : Matches ((param, "e", ty') :: σ) t u)
    (result : StaticType) :
    Matches σ (.operator f.name [.param s ty, (Expr.function [param] t).quoted] result)
      (.operator f.name [.param n ty, Expr.function ["e"] u] result) := by
  refine ⟨rfl, rfl, fun {row env env'} henv => ?_⟩
  obtain ⟨r, hr, hr', -, helement⟩ := henv.lookup s n ty h
  have hf : GroupFold.ofName f.name = some (.fold f) := by cases f <;> decide
  rw [rowOf_groupFold hf, rowOf_groupFold hf, foldGroup, foldGroup, Lowering.lookup, Lowering.lookup, hr, hr',
    pure_bind, pure_bind]
  cases r with
  | group key element =>
    obtain rfl := helement key element rfl
    have happly : Expr.rowOf ((param, element) :: env) t = Expr.rowOf (("e", element) :: env') u :=
      hselector.rowOf_eq (henv.enter param ty')
    show (Expr.rowOf ((param, element) :: env) t >>= _ : Lower Row) = (Expr.rowOf (("e", element) :: env') u >>= _)
    rw [happly]
  | _ => rfl

/-! ## Resolving what is written -/

mutual

/-- A well-formed body is resolved to an expression that matches what is built for it. -/
theorem Body.resolve_written (schema : Schema) (b : Body) {σ : Bindings} (hσ : σ.AreRows)
    (h : b.IsWellFormed σ.scope) :
    ∃ t, resolve schema σ.types b.written = .ok t ∧ Matches σ t (b.built σ.scope) := by
  cases b with
  | name s =>
    obtain ⟨n, ty, hlookup⟩ := Bindings.exists_lookup h
    refine ⟨.param s ty, Bindings.resolveName_types schema hlookup, ?_⟩
    rw [Body.built, Bindings.find_scope hlookup]
    exact matches_param hlookup
  | literal v => exact ⟨.ofValue v, rfl, rfl, rfl, fun _ => rfl⟩
  | member target field =>
    obtain ⟨t, ht, hmatch⟩ := target.resolve_written schema hσ h
    refine ⟨t.member field, ?_, hmatch.member field⟩
    rw [Body.written, resolve, ht]
    rfl
  | binary op left right =>
    obtain ⟨t, ht, hmatch⟩ := left.resolve_written schema hσ h.1
    obtain ⟨t', ht', hmatch'⟩ := right.resolve_written schema hσ h.2
    refine ⟨.applyOp op t t', ?_, hmatch.applyOp hmatch' op⟩
    rw [Body.written, resolve, ht, ht']
    rfl
  | method target m args =>
    obtain ⟨htarget, hm, hargs⟩ := h
    obtain ⟨t, ht, hmatch⟩ := target.resolve_written schema hσ htarget
    obtain ⟨ts, hts, hmatches⟩ := Body.resolve_writtenAll schema args hσ hargs
    refine ⟨t.callMethod m ts, ?_, hmatch.callMethod m hmatches⟩
    have hrow : t.ty.IsRow := hmatch.ty_eq ▸ target.isRow_built hσ.scope
    have hname : t.isGrouped = true → GroupFold.ofName m = none := by
      rw [Expr.isGrouped, hmatch.ty_eq]
      exact hm
    rw [Body.written, resolve, ht]
    show resolveCall t m _ = _
    rw [resolveCall_eq_resolveMethod hrow hname, resolveMethod, hts]
    rfl
  | object members =>
    obtain ⟨ts, hts, hmatches⟩ := Body.resolve_writtenMembers schema members hσ h
    refine ⟨_, ?_, hmatches.newObject⟩
    rw [Body.written, resolve, hts]
    rfl
  | groupCount group =>
    obtain ⟨hgroup, hgrouped⟩ := h
    obtain ⟨n, key, element, hlookup⟩ := Bindings.exists_group hgroup hgrouped
    refine ⟨.operator "Count" [.param group (.grouping key element)] (.scalar .int), ?_, ?_⟩
    · rw [Body.written, resolve, resolve, Bindings.resolveName_types schema hlookup]
      rfl
    · rw [Body.built, Bindings.find_scope hlookup]
      exact matches_groupCount hlookup
  | groupFold f group param selector =>
    obtain ⟨hgroup, hgrouped, hselector⟩ := h
    obtain ⟨n, key, element, hlookup⟩ := Bindings.exists_group hgroup hgrouped
    rw [Bindings.find_scope hlookup] at hselector
    have helement : element.IsRow := (hσ.isRow hlookup).2
    obtain ⟨t, ht, hmatch⟩ := selector.resolve_written schema (hσ.cons helement param "e") hselector
    refine ⟨.operator f.name [.param group (.grouping key element), (Expr.function [param] t).quoted]
      (if f.name = "Average" then .scalar .float else t.ty), ?_, ?_⟩
    · rw [Body.written, resolve, resolve, Bindings.resolveName_types schema hlookup]
      exact resolveCall_groupFold f ht
    · rw [Body.built, Bindings.find_scope hlookup, Expr.groupAggregate]
      have hresult : t.ty = (selector.built ((param, .param "e" element) :: σ.scope)).ty := hmatch.ty_eq
      rw [hresult]
      exact matches_groupFold f hlookup hmatch _

/-- Well-formed bodies are resolved as values to expressions that match what is built for them. -/
theorem Body.resolve_writtenAll (schema : Schema) (bs : List Body) {σ : Bindings} (hσ : σ.AreRows)
    (h : Body.AreWellFormed σ.scope bs) :
    ∃ ts, (argumentsOf schema σ.types (Body.writtenAll bs)).mapM Argument.value = .ok ts ∧
      List.Forall₂ (Matches σ) ts (Body.builtAll σ.scope bs) := by
  cases bs with
  | nil => exact ⟨[], rfl, .nil⟩
  | cons b bs =>
    obtain ⟨t, ht, hmatch⟩ := b.resolve_written schema hσ h.1
    obtain ⟨ts, hts, hmatches⟩ := Body.resolve_writtenAll schema bs hσ h.2
    refine ⟨t :: ts, ?_, .cons hmatch hmatches⟩
    rw [Body.writtenAll, argumentsOf, List.mapM_cons, ht, hts]
    rfl

/-- Members with well-formed values are resolved to members that match what is built for them. -/
theorem Body.resolve_writtenMembers (schema : Schema) (members : List (String × Body)) {σ : Bindings}
    (hσ : σ.AreRows) (h : Body.AreWellFormedMembers σ.scope members) :
    ∃ ts, resolveMembers schema σ.types (Body.writtenMembers members) = .ok ts ∧
      MembersMatch σ ts (Body.builtMembers σ.scope members) := by
  cases members with
  | nil => exact ⟨[], rfl, .nil⟩
  | cons entry members =>
    obtain ⟨label, b⟩ := entry
    obtain ⟨t, ht, hmatch⟩ := b.resolve_written schema hσ h.1
    obtain ⟨ts, hts, hmatches⟩ := Body.resolve_writtenMembers schema members hσ h.2
    refine ⟨(label, t) :: ts, ?_, .cons ⟨rfl, hmatch⟩ hmatches⟩
    rw [Body.writtenMembers, Body.writtenMember, resolveMembers, resolveMember, ht, hts]
    rfl

end

end Matches

end QueryChain
