import Mathlib.Data.List.Forall2
import QueryChain.Proofs.Chain.Operator
import QueryChain.Proofs.Lowering.Erased
import QueryChain.Proofs.Lowering.Looking

/-!
# Trees with other scalar types

Lowering looks at the scalar types in a tree for one purpose only: to tell whether `+` joins texts. Two trees that are
the same but for scalar types, and in which the same operators join texts, go through the same steps. The clauses that
they leave behind are the same but for scalar types, since the types of a projection are noted there, and so are the
queries that they are compiled to. It makes no difference either whether a scalar that is known beforehand is written
as a literal or found in a captured object.

* `Lower.Likewise`: steps that fail alike or yield alike, on clauses that are the same but for scalar types.
* `likewise_memberOf`, `likewise_keyTerms`, `likewise_combine`, `likewise_callMethod`: steps that look at rows.
* `likewise_callOperator`: query operators.
* `Expr.Retyped.rowOf`, `Expr.Retyped.compile_erase`: trees.
-/

namespace QueryChain

open Lowering Lower

/-! ## Trees -/

namespace Expr

/-- An expression that stands for a value known before the query runs, wherever it occurs. -/
structure IsKnown (e : Expr) (r : Row) : Prop where
  rowOf_eq : ∀ env, e.rowOf env = pure r
  isRowDerived_eq : e.isRowDerived = false
  objectShape_eq : e.objectShape = none
  functionBody?_eq : functionBody? e = none

mutual

/-- The same trees but for scalar types, where the same operators join texts. A known scalar may be written as a
literal. -/
inductive Retyped : Expr → Expr → Prop
  | written {e : Expr} {v : Value} {t : StaticType} (h : e.IsKnown (.scalar v)) (hty : e.ty.erase true = t.erase true) :
      Retyped e (.value v t)
  | captured (c : Captured) {t u : StaticType} (hty : t.erase true = u.erase true) :
      Retyped (.captured c t) (.captured c u)
  | table (m : Model) {t u : StaticType} (hty : t.erase true = u.erase true) : Retyped (.table m t) (.table m u)
  | param (name : String) {t u : StaticType} (hty : t.erase true = u.erase true) :
      Retyped (.param name t) (.param name u)
  | field {e e' : Expr} (he : Retyped e e') (name : String) {t u : StaticType} (hty : t.erase true = u.erase true) :
      Retyped (.field e name t) (.field e' name u)
  | binary (op : BinaryOp) {l l' r r' : Expr} (hl : Retyped l l') (hr : Retyped r r')
      (hjoins : joinsTexts op l r = joinsTexts op l' r') {t u : StaticType} (hty : t.erase true = u.erase true) :
      Retyped (.binary op l r t) (.binary op l' r' u)
  | method {e e' : Expr} (he : Retyped e e') (name : String) {args args' : List Expr}
      (hargs : AllRetyped args args') {t u : StaticType} (hty : t.erase true = u.erase true) :
      Retyped (.method e name args t) (.method e' name args' u)
  | operator (name : String) {args args' : List Expr} (hargs : AllRetyped args args') {t u : StaticType}
      (hty : t.erase true = u.erase true) : Retyped (.operator name args t) (.operator name args' u)
  | lambda (params : List String) {body body' : Expr} (hbody : Retyped body body') {t u : StaticType}
      (hty : t.erase true = u.erase true) : Retyped (.lambda params body t) (.lambda params body' u)
  | quote {e e' : Expr} (he : Retyped e e') {t u : StaticType} (hty : t.erase true = u.erase true) :
      Retyped (.quote e t) (.quote e' u)
  | object (shape : ShapeKind) {members members' : List (String × Expr)} (hmembers : MembersRetyped members members')
      {t u : StaticType} (hty : t.erase true = u.erase true) :
      Retyped (.object shape members t) (.object shape members' u)

/-- The same for lists of trees. -/
inductive AllRetyped : List Expr → List Expr → Prop
  | nil : AllRetyped [] []
  | cons {e e' : Expr} {rest rest' : List Expr} (he : Retyped e e') (hrest : AllRetyped rest rest') :
      AllRetyped (e :: rest) (e' :: rest')

/-- The same for members with the same names. -/
inductive MembersRetyped : List (String × Expr) → List (String × Expr) → Prop
  | nil : MembersRetyped [] []
  | cons (name : String) {e e' : Expr} {rest rest' : List (String × Expr)} (he : Retyped e e')
      (hrest : MembersRetyped rest rest') : MembersRetyped ((name, e) :: rest) ((name, e') :: rest')

end

mutual

theorem Retyped.refl (e : Expr) : Retyped e e := by
  cases e with
  | value v t => exact .written ⟨fun _ => rfl, rfl, rfl, rfl⟩ rfl
  | captured c t => exact .captured c rfl
  | table m t => exact .table m rfl
  | param name t => exact .param name rfl
  | field target name t => exact .field (Retyped.refl target) name rfl
  | binary op l r t => exact .binary op (Retyped.refl l) (Retyped.refl r) rfl rfl
  | method target name args t => exact .method (Retyped.refl target) name (AllRetyped.refl args) rfl
  | operator name args t => exact .operator name (AllRetyped.refl args) rfl
  | lambda params body t => exact .lambda params (Retyped.refl body) rfl
  | quote inner t => exact .quote (Retyped.refl inner) rfl
  | object shape members t => exact .object shape (MembersRetyped.refl members) rfl

theorem AllRetyped.refl (es : List Expr) : AllRetyped es es := by
  cases es with
  | nil => exact .nil
  | cons e rest => exact .cons (Retyped.refl e) (AllRetyped.refl rest)

theorem MembersRetyped.refl (members : List (String × Expr)) : MembersRetyped members members := by
  cases members with
  | nil => exact .nil
  | cons member rest => exact .cons member.1 (Retyped.refl member.2) (MembersRetyped.refl rest)

end

namespace Retyped

theorem erase_ty {e e' : Expr} (h : Retyped e e') : e.ty.erase true = e'.ty.erase true := by
  cases h <;> assumption

theorem objectShape_eq {e e' : Expr} (h : Retyped e e') : e.objectShape = e'.objectShape := by
  cases h with
  | written h hty => exact h.objectShape_eq
  | _ => rfl

theorem isRowDerived_eq {e e' : Expr} (h : Retyped e e') : e.isRowDerived = e'.isRowDerived := by
  cases h with
  | written h hty => exact h.isRowDerived_eq
  | field he name hty => exact he.isRowDerived_eq
  | method he name hargs hty => exact he.isRowDerived_eq
  | binary op hl hr hjoins hty => rw [isRowDerived, isRowDerived, hl.isRowDerived_eq, hr.isRowDerived_eq]
  | operator name hargs hty =>
    cases hargs with
    | nil => rfl
    | cons he hrest => exact he.isRowDerived_eq
  | _ => rfl

/-- Both are functions, or neither is one. -/
theorem functionBody?_cases {e e' : Expr} (h : Retyped e e') :
    (functionBody? e = none ∧ functionBody? e' = none) ∨
      ∃ body body', functionBody? e = some body ∧ functionBody? e' = some body' ∧ Retyped body body' := by
  cases h with
  | written h hty => exact Or.inl ⟨h.functionBody?_eq, rfl⟩
  | lambda params hbody hty => exact Or.inr ⟨_, _, rfl, rfl, hbody⟩
  | quote he hty => exact he.functionBody?_cases
  | _ => exact Or.inl ⟨rfl, rfl⟩

end Retyped

end Expr

/-! ## Steps -/

/-- Both outcomes are failures, or both yield, what is related, and leave clauses that are the same but for scalar
types. -/
inductive Lower.Outcomes {α β : Type} (R : α → β → Prop) : Except Fault α × Clauses → Except Fault β × Clauses → Prop
  | failed (f f' : Fault) (c c' : Clauses) : Outcomes R (.error f, c) (.error f', c')
  | yielded {a : α} {b : β} {c c' : Clauses} (h : R a b) (hc : c.erase = c'.erase) : Outcomes R (.ok a, c) (.ok b, c')

/-- Steps with outcomes that are alike, on clauses that are the same but for scalar types. -/
def Lower.Likewise {α β : Type} (R : α → β → Prop) (m : Lower α) (m' : Lower β) : Prop :=
  ∀ c c' : Clauses, c.erase = c'.erase → Outcomes R (ExceptT.run m c) (ExceptT.run m' c')

section Steps

variable {α β γ δ : Type} {R : α → β → Prop} {S : γ → δ → Prop}

theorem likewise_pure {a : α} {b : β} (h : R a b) : Likewise R (pure a) (pure b) :=
  fun _ _ hc => .yielded h hc

theorem likewise_throw (f f' : Fault) : Likewise R (throw f) (throw f') :=
  fun c c' _ => .failed f f' c c'

/-- Nothing comes after a failure. -/
theorem likewise_throw_bind (f f' : Fault) (k : α → Lower γ) (k' : β → Lower δ) :
    Likewise S (throw f >>= k) (throw f' >>= k') :=
  fun c c' _ => .failed f f' c c'

theorem Lower.Likewise.bind {m : Lower α} {m' : Lower β} {k : α → Lower γ} {k' : β → Lower δ} (h : Likewise R m m')
    (hk : ∀ a b, R a b → Likewise S (k a) (k' b)) : Likewise S (m >>= k) (m' >>= k') := by
  intro c c' hc
  have hm := h c c' hc
  rw [run_bind, run_bind]
  generalize ExceptT.run m c = outcome, ExceptT.run m' c' = outcome' at hm
  cases hm with
  | failed f f' d d' => exact .failed f f' d d'
  | yielded hR hd => exact hk _ _ hR _ _ hd

/-- Steps that yield the same. -/
theorem Lower.Likewise.bind_eq {m m' : Lower α} {k : α → Lower γ} {k' : α → Lower δ} (h : Likewise Eq m m')
    (hk : ∀ a, Likewise S (k a) (k' a)) : Likewise S (m >>= k) (m' >>= k') :=
  h.bind fun a _ hab => hab ▸ hk a

/-- One step and the same step again; what comes second matters for what the first can yield only. -/
theorem Lower.Likewise.bind_of_yields {S : α → Prop} {m : Lower α} {k : α → Lower γ} (h : Likewise Eq m m)
    (hyields : Keeps (fun _ => True) S m) (hk : ∀ a, S a → Likewise Eq (k a) (k a)) :
    Likewise Eq (m >>= k) (m >>= k) := by
  have hboth : Likewise (fun a b => a = b ∧ S a) m m := by
    intro c c' hc
    have hm := h c c' hc
    have hS : ∀ a, (ExceptT.run m c).1 = .ok a → S a := fun a ha => (hyields c a _ trivial (Prod.ext ha rfl)).1
    generalize ExceptT.run m c = outcome at hm hS
    generalize ExceptT.run m c' = outcome' at hm
    cases hm with
    | failed f f' d d' => exact .failed f f' d d'
    | yielded hab hd => exact .yielded ⟨hab, hS _ rfl⟩ hd
  refine hboth.bind fun a b hab => ?_
  obtain ⟨rfl, ha⟩ := hab
  exact hk a ha

theorem likewise_get : Likewise (fun c c' => c.erase = c'.erase) get get :=
  fun _ _ hc => .yielded hc hc

theorem likewise_update {g g' : Clauses → Clauses}
    (h : ∀ c c' : Clauses, c.erase = c'.erase → (g c).erase = (g' c').erase) :
    Likewise Eq (update g) (update g') :=
  fun c c' hc => .yielded rfl (h c c' hc)

/-- A change that goes by what is left of the clauses without scalar types. -/
theorem likewise_update_of_erase {g : Clauses → Clauses} (h : ∀ c : Clauses, (g c).erase = g c.erase) :
    Likewise Eq (update g) (update g) :=
  likewise_update fun c c' hc => by rw [h, h, hc]

end Steps

/-! ## Members, scalars and methods -/

theorem likewise_bindTable (m : Model) : Likewise Eq (bindTable m) (bindTable m) := by
  intro c c' hc
  have haliases : c.aliases = c'.aliases := show c.erase.aliases = c'.erase.aliases by rw [hc]
  rw [run_bindTable, run_bindTable]
  refine .yielded (by rw [haliases]) ?_
  show { c.erase with root := some (c.erase.root.getD ⟨m, c.erase.aliases⟩) } =
    { c'.erase with root := some (c'.erase.root.getD ⟨m, c'.erase.aliases⟩) }
  rw [hc]

theorem likewise_lookup (env : Env) (name : String) :
    Likewise Eq (Lowering.lookup env name) (Lowering.lookup env name) := by
  rw [Lowering.lookup]
  split
  · exact likewise_pure rfl
  · exact likewise_throw _ _

/-- Options that a function maps to the same are both nothing, or hold what it maps to the same. -/
theorem cases_of_map_eq_map {α β : Type} {f : α → β} {a b : Option α} (h : a.map f = b.map f) :
    (a = none ∧ b = none) ∨ ∃ x y, a = some x ∧ b = some y ∧ f x = f y := by
  cases a <;> cases b <;> simp_all

/-- The rows of a join have the same members. -/
theorem likewise_joinAt (index : Nat) :
    Likewise (fun j j' => j.fields = j'.fields ∧ j.model.erase true = j'.model.erase true) (joinAt index)
      (joinAt index) := by
  refine likewise_get.bind fun c c' hc => ?_
  have hjoins : (c.joins.map Join.erase)[index]? = (c'.joins.map Join.erase)[index]? :=
    show c.erase.joins[index]? = c'.erase.joins[index]? by rw [hc]
  rw [List.getElem?_map, List.getElem?_map] at hjoins
  rcases cases_of_map_eq_map hjoins with ⟨hnone, hnone'⟩ | ⟨j, j', hj, hj', herase⟩
  · rw [hnone, hnone']
    exact likewise_throw _ _
  · obtain ⟨-, hfields, hmodel⟩ := Join.mk.inj herase
    rw [hj, hj']
    exact likewise_pure ⟨hfields, hmodel⟩

/-- Steps that look at rows look at the members of joins, which have no scalar types. -/
theorem looks_likewise : Looks (fun _ S m => Likewise Eq m m ∧ Keeps (fun _ => True) S m) fun _ => True := by
  refine looks_of_yields (Q := fun _ m => Likewise Eq m m) (fun _ => likewise_pure rfl) (fun _ => likewise_throw _ _)
    (fun hm hyields hk => hm.bind_of_yields hyields hk) fun {_ index _} hk => ?_
  refine (likewise_joinAt index).bind fun j j' hj => ?_
  rw [hj.1]
  exact hk j'.fields

theorem likewise_memberOf (target : Row) (field : String) :
    Likewise Eq (memberOf target field) (memberOf target field) :=
  (looks_likewise.judged_memberOf .nothing trivial field).1

theorem likewise_scalarTerm (r : Row) : Likewise Eq (scalarTerm r) (scalarTerm r) :=
  (looks_likewise.judged_scalarTerm .nothing trivial).1

theorem likewise_keyTerms (key : Row) : Likewise Eq (keyTerms key) (keyTerms key) :=
  (looks_likewise.judged_keyTerms .nothing trivial).1

theorem likewise_groupKey (key : Row) : Likewise Eq (groupKey key) (groupKey key) :=
  (looks_likewise.judged_groupKey .nothing trivial).1

theorem likewise_combine (op : BinaryOp) (concat : Bool) (l r : Row) :
    Likewise Eq (combine op concat l r) (combine op concat l r) :=
  (looks_likewise.judged_combine .nothing op concat trivial trivial).1

theorem likewise_callMethod (name : String) (receiver : Row) (args : List Row) :
    Likewise Eq (Lowering.callMethod name receiver args) (Lowering.callMethod name receiver args) :=
  (looks_likewise.judged_callMethod .nothing name trivial fun _ _ => trivial).1

/-! ## Query operators -/

/-- The rows of a join that come from what is selected, and the model of the rows that they are taken from. -/
theorem likewise_joinFields (selected : Row) :
    Likewise (fun p q => p.1 = q.1 ∧ p.2.map (Model.erase true) = q.2.map (Model.erase true)) (joinFields selected)
      (joinFields selected) := by
  cases selected with
  | projected typeName list => exact likewise_pure ⟨rfl, rfl⟩
  | table t => exact likewise_pure ⟨rfl, rfl⟩
  | joined index =>
    refine (likewise_joinAt index).bind fun j j' hj => likewise_pure ⟨hj.1, ?_⟩
    rw [Option.map_some, Option.map_some, hj.2]
  | _ => exact likewise_throw _ _

/-- What rows are projected onto depends on the scalar types of the body in the noted types only. -/
theorem likewise_selectAs (shape? : Option ShapeKind) {t u : StaticType} (hty : t.erase true = u.erase true)
    {value value' : Lower Row} (hvalue : Likewise Eq value value') :
    Likewise Eq (selectAs shape? t value) (selectAs shape? u value') := by
  have hmodel : t.asModel.map (Model.erase true) = u.asModel.map (Model.erase true) := by
    rw [← StaticType.asModel_erase, hty, StaticType.asModel_erase]
  cases shape? with
  | none =>
    refine hvalue.bind_eq fun value => ?_
    have hproject : Likewise Eq (do
        update (·.project (.scalar t.asScalar value))
        pure value) (do
        update (·.project (.scalar u.asScalar value))
        pure value) := by
      refine (likewise_update fun c c' hc => ?_).bind_eq fun _ => likewise_pure rfl
      show c.erase.project (.scalar none value) = c'.erase.project (.scalar none value)
      rw [hc]
    cases value with
    | term _ | scalar _ => exact hproject
    | table _ | projected _ _ | joined _ => exact likewise_pure rfl
    | host _ | group _ _ => exact likewise_throw _ _
  | some shape =>
    rw [selectAs, selectAs]
    rcases cases_of_map_eq_map hmodel with ⟨hnone, hnone'⟩ | ⟨m, m', hm, hm', herase⟩
    · rw [hnone, hnone']
      exact likewise_throw _ _
    · have hname : m.typeName = m'.typeName := show (m.erase true).typeName = (m'.erase true).typeName by rw [herase]
      rw [hm, hm']
      refine hvalue.bind_eq fun value => ?_
      cases value with
      | projected typeName list =>
        simp only [hname]
        refine (likewise_update fun c c' hc => ?_).bind_eq fun _ => likewise_pure rfl
        show c.erase.project (.object _ (m.erase true) _) = c'.erase.project (.object _ (m'.erase true) _)
        rw [hc, herase]
      | _ => exact likewise_pure rfl

theorem likewise_groupAs (shape? : Option ShapeKind) (rows : Row) {key key' : Lower Row} (hkey : Likewise Eq key key') :
    Likewise Eq (groupAs shape? rows key) (groupAs shape? rows key') := by
  rw [groupAs, groupAs]
  cases rows.isGroup with
  | true => exact likewise_throw _ _
  | false =>
    cases shape? with
    | some shape => exact likewise_throw _ _
    | none =>
      exact hkey.bind_eq fun key => (likewise_groupKey key).bind_eq fun t =>
        (likewise_update_of_erase (g := (·.group t)) fun _ => rfl).bind_eq fun _ => likewise_pure rfl

/-- Rows are paired alike if the models of the pairs are the same but for scalar types. -/
theorem likewise_joinAs (table : TableRef) {model model' : Option Model → Entries → Model}
    (hmodel : ∀ passedOn passedOn' fields, passedOn.map (Model.erase true) = passedOn'.map (Model.erase true) →
      (model passedOn fields).erase true = (model' passedOn' fields).erase true)
    {outerKey outerKey' innerKey innerKey' result result' : Lower Row} (houter : Likewise Eq outerKey outerKey')
    (hinner : Likewise Eq innerKey innerKey') (hresult : Likewise Eq result result') :
    Likewise Eq (joinAs table model outerKey innerKey result) (joinAs table model' outerKey' innerKey' result') := by
  refine houter.bind_eq fun outerValue => (likewise_keyTerms outerValue).bind_eq fun outerKeys => ?_
  refine hinner.bind_eq fun innerValue => (likewise_keyTerms innerValue).bind_eq fun innerKeys => ?_
  split
  · exact likewise_throw_bind _ _ _ _
  · refine hresult.bind_eq fun selected => (likewise_joinFields selected).bind ?_
    rintro ⟨fields, passedOn⟩ ⟨fields', passedOn'⟩ ⟨hfields, hpassedOn⟩
    obtain rfl : fields = fields' := hfields
    refine (likewise_update fun c c' hc => ?_).bind_eq fun _ => likewise_get.bind fun c c' hc => likewise_pure ?_
    · rw [Clauses.erase_join, Clauses.erase_join, hc, Join.erase, Join.erase, hmodel _ _ _ hpassedOn]
    · have hlength : c.erase.joins.length = c'.erase.joins.length := by rw [hc]
      simp only [Clauses.erase, List.length_map] at hlength
      rw [hlength]

/-- Operands that are the same but for scalar types. -/
structure Lowering.Operand.Retyped (operand operand' : Operand) : Prop where
  expr : operand.expr.Retyped operand'.expr
  row : Likewise Eq operand.row operand'.row
  apply : ∀ rows, Likewise Eq (operand.apply rows) (operand'.apply rows)

theorem likewise_restrict {predicate predicate' : Operand} (h : predicate.Retyped predicate') (rows : Row) :
    Likewise Eq (restrict rows predicate) (restrict rows predicate') := by
  rw [restrict, restrict]
  cases rows.isGroup with
  | true => exact likewise_throw _ _
  | false =>
    exact (h.apply [rows]).bind_eq fun condition => (likewise_scalarTerm condition).bind_eq fun t =>
      likewise_update_of_erase (g := (·.filter t)) fun _ => rfl

/-- The static type of the result of a join settles the model of its rows but for scalar types. -/
theorem joinModel_erase {e e' : Expr} (h : e.Retyped e') {passedOn passedOn' : Option Model}
    (hpassedOn : passedOn.map (Model.erase true) = passedOn'.map (Model.erase true)) (fields : Entries) :
    (joinModel e passedOn fields).erase true = (joinModel e' passedOn' fields).erase true := by
  have hresult : ((functionBody? e).bind (·.ty.asModel)).map (Model.erase true) =
      ((functionBody? e').bind (·.ty.asModel)).map (Model.erase true) := by
    rcases h.functionBody?_cases with ⟨hnone, hnone'⟩ | ⟨body, body', hsome, hsome', hbody⟩
    · rw [hnone, hnone']
    · rw [hsome, hsome', Option.bind_some, Option.bind_some, ← StaticType.asModel_erase, hbody.erase_ty,
        StaticType.asModel_erase]
  unfold joinModel
  generalize (functionBody? e).bind (·.ty.asModel) = result, (functionBody? e').bind (·.ty.asModel) = result' at hresult
  cases result <;> cases result' <;> cases passedOn <;> cases passedOn' <;> simp_all

section Operators

variable {source source' : Operand} (hsource : source.Retyped source')
include hsource

theorem likewise_select {projection projection' : Operand} (h : projection.Retyped projection') :
    Likewise Eq (select source projection) (select source' projection') := by
  rcases h.expr.functionBody?_cases with ⟨hnone, hnone'⟩ | ⟨body, body', hsome, hsome', hbody⟩
  · rw [select, select, functionBody, functionBody, hnone, hnone']
    exact hsource.row.bind_eq fun _ => likewise_throw_bind _ _ _ _
  · rw [select_eq_selectAs hsome, select_eq_selectAs hsome', hbody.objectShape_eq]
    exact hsource.row.bind_eq fun rows => likewise_selectAs _ hbody.erase_ty (h.apply [rows])

theorem likewise_order {key key' : Operand} (h : key.Retyped key') (descending restart : Bool) :
    Likewise Eq (order source key descending restart) (order source' key' descending restart) :=
  hsource.row.bind_eq fun rows => (h.apply [rows]).bind_eq fun value => (likewise_keyTerms value).bind_eq fun keys =>
    (likewise_update_of_erase (g := (·.sort keys descending restart)) fun _ => rfl).bind_eq fun _ => likewise_pure rfl

theorem likewise_groupBy {key key' : Operand} (h : key.Retyped key') :
    Likewise Eq (groupBy source key) (groupBy source' key') := by
  rcases h.expr.functionBody?_cases with ⟨hnone, hnone'⟩ | ⟨body, body', hsome, hsome', hbody⟩
  · rw [groupBy, groupBy, functionBody, functionBody, hnone, hnone']
    refine hsource.row.bind_eq fun rows => ?_
    cases rows.isGroup with
    | true => exact likewise_throw _ _
    | false => exact likewise_throw_bind _ _ _ _
  · rw [groupBy_eq_groupAs hsome, groupBy_eq_groupAs hsome', hbody.objectShape_eq]
    exact hsource.row.bind_eq fun rows => likewise_groupAs _ rows (h.apply [rows])

theorem likewise_take {count count' : Operand} (h : count.Retyped count') :
    Likewise Eq (take source count) (take source' count') := by
  refine hsource.row.bind_eq fun rows => h.row.bind_eq fun value => ?_
  split
  · exact (likewise_update_of_erase (g := (·.limit _)) fun _ => rfl).bind_eq fun _ => likewise_pure rfl
  · exact likewise_throw _ _

theorem likewise_join {inner inner' outerKey outerKey' innerKey innerKey' result result' : Operand}
    (hinner : inner.Retyped inner') (houterKey : outerKey.Retyped outerKey') (hinnerKey : innerKey.Retyped innerKey')
    (hresult : result.Retyped result') :
    Likewise Eq (join source inner outerKey innerKey result) (join source' inner' outerKey' innerKey' result') := by
  rw [join_eq_joinAs, join_eq_joinAs]
  refine hsource.row.bind_eq fun outerRows => ?_
  split
  · exact likewise_throw _ _
  · refine Likewise.bind_eq ?_ fun _ => hinner.row.bind_eq fun innerRows => ?_
    · exact likewise_update_of_erase (g := fun c => { c with aliases := c.aliases + 1 }) fun _ => rfl
    · cases innerRows with
      | table t =>
        exact likewise_joinAs t (fun _ _ fields h => joinModel_erase hresult.expr h fields)
          (houterKey.apply [outerRows]) (hinnerKey.apply [.table t]) (hresult.apply [outerRows, .table t])
      | _ => exact likewise_throw _ _

/-! ### Functions that may be left out -/

section Optional

variable {selector selector' : Option Operand} (h : Option.Rel Operand.Retyped selector selector')
include h

omit hsource in
theorem likewise_restrict? (rows : Row) : Likewise Eq (restrict? rows selector) (restrict? rows selector') := by
  cases h with
  | none => exact likewise_pure rfl
  | some h => exact likewise_restrict h rows

theorem likewise_first : Likewise Eq (first source selector) (first source' selector') :=
  hsource.row.bind_eq fun rows => (likewise_restrict? h rows).bind_eq fun _ =>
    (likewise_update_of_erase (g := (·.limit 1)) fun _ => rfl).bind_eq fun _ =>
      (likewise_update_of_erase (g := fun c => { c with first := true }) fun _ => rfl).bind_eq fun _ =>
        likewise_pure rfl

theorem likewise_count : Likewise Eq (count source selector) (count source' selector') :=
  hsource.row.bind_eq fun rows => (likewise_restrict? h rows).bind_eq fun _ =>
    (likewise_update_of_erase (g := fun c => { c with count := true }) fun _ => rfl).bind_eq fun _ =>
      likewise_pure rfl

omit hsource h in
theorem likewise_projectedScalar (f : Aggregate) : Likewise Eq (projectedScalar f) (projectedScalar f) := by
  refine likewise_get.bind fun c c' hc => ?_
  have hprojection : c.projection.map Projection.erase = c'.projection.map Projection.erase :=
    show c.erase.projection = c'.erase.projection by rw [hc]
  rcases cases_of_map_eq_map hprojection with ⟨hnone, hnone'⟩ | ⟨p, p', hp, hp', herase⟩
  · rw [hnone, hnone']
    exact likewise_throw _ _
  · rw [hp, hp']
    cases p with
    | object positional m fields =>
      cases p' with
      | object positional' m' fields' => exact likewise_throw _ _
      | scalar type' value' => cases herase
    | scalar type value =>
      cases p' with
      | object positional' m' fields' => cases herase
      | scalar type' value' =>
        obtain ⟨-, rfl⟩ := Projection.scalar.inj herase
        exact likewise_pure rfl

theorem likewise_fold (f : Aggregate) : Likewise Eq (fold f source selector) (fold f source' selector') := by
  have hrest (value : Row) : Likewise Eq (do
      let argument ← scalarTerm value
      update fun c => { c with fold := some (f, argument) }
      pure (.term (.fold f argument)) : Lower Row) (do
      let argument ← scalarTerm value
      update fun c => { c with fold := some (f, argument) }
      pure (.term (.fold f argument))) :=
    (likewise_scalarTerm value).bind_eq fun argument =>
      (likewise_update_of_erase (g := fun c => { c with fold := some (f, argument) }) fun _ => rfl).bind_eq fun _ =>
        likewise_pure rfl
  refine hsource.row.bind_eq fun rows => ?_
  cases h with
  | none => exact (likewise_projectedScalar f).bind_eq hrest
  | some h => exact (h.apply [rows]).bind_eq hrest

theorem likewise_foldGroup (name : String) (f : GroupFold) :
    Likewise Eq (foldGroup name f source selector) (foldGroup name f source' selector') := by
  refine hsource.row.bind_eq fun rows => ?_
  cases rows with
  | group key element =>
    cases f with
    | count =>
      cases h with
      | none => exact likewise_pure rfl
      | some h =>
        exact (h.apply [element]).bind_eq fun condition => (likewise_scalarTerm condition).bind_eq fun _ =>
          likewise_pure rfl
    | fold f =>
      cases h with
      | none => exact likewise_throw _ _
      | some h =>
        exact (h.apply [element]).bind_eq fun value => (likewise_scalarTerm value).bind_eq fun _ => likewise_pure rfl
  | _ => exact likewise_throw _ _

end Optional

/-! ### Operators by name -/

section Named

variable {rest rest' : List Operand} (h : List.Forall₂ Operand.Retyped rest rest')
include h

omit hsource in
/-- Operators that look at their second operand. -/
theorem likewise_second {name : String} {k k' : Operand → Lower Row}
    (hk : ∀ operand operand', operand.Retyped operand' → Likewise Eq (k operand) (k' operand')) :
    Likewise Eq (operandAt name (source :: rest) 1 >>= k) (operandAt name (source' :: rest') 1 >>= k') := by
  cases h with
  | nil => exact likewise_throw_bind _ _ _ _
  | cons hoperand hrest => exact (likewise_pure hoperand).bind hk

omit hsource in
theorem rel_head : Option.Rel Operand.Retyped rest[0]? rest'[0]? := by
  cases h with
  | nil => exact .none
  | cons hoperand hrest => exact .some hoperand

theorem likewise_operate (name : String) (op : QueryOperator) :
    Likewise Eq (operate name source (source :: rest) op) (operate name source' (source' :: rest') op) := by
  cases op with
  | filter =>
    refine likewise_second h fun predicate predicate' hpredicate => hsource.row.bind_eq fun rows => ?_
    exact (likewise_restrict hpredicate rows).bind_eq fun _ => likewise_pure rfl
  | select => exact likewise_second h fun _ _ hprojection => likewise_select hsource hprojection
  | order descending restart => exact likewise_second h fun _ _ hkey => likewise_order hsource hkey descending restart
  | groupBy => exact likewise_second h fun _ _ hkey => likewise_groupBy hsource hkey
  | join =>
    cases h with
    | nil => exact likewise_throw _ _
    | cons hinner h => cases h with
      | nil => exact likewise_throw _ _
      | cons houterKey h => cases h with
        | nil => exact likewise_throw _ _
        | cons hinnerKey h => cases h with
          | nil => exact likewise_throw _ _
          | cons hresult h => cases h with
            | nil => exact likewise_join hsource hinner houterKey hinnerKey hresult
            | cons _ _ => exact likewise_throw _ _
  | take => exact likewise_second h fun _ _ hcount => likewise_take hsource hcount
  | distinct =>
    exact hsource.row.bind_eq fun rows =>
      (likewise_update_of_erase (g := fun c => { c with distinct := true }) fun _ => rfl).bind_eq fun _ =>
        likewise_pure rfl
  | first => exact likewise_first hsource (rel_head h)
  | count => exact likewise_count hsource (rel_head h)
  | fold f => exact likewise_fold hsource (rel_head h) f

end Named

end Operators

/-- Query operators do the same on operands that are the same but for scalar types. -/
theorem likewise_callOperator (name : String) {operands operands' : List Operand}
    (h : List.Forall₂ Operand.Retyped operands operands') :
    Likewise Eq (callOperator name operands) (callOperator name operands') := by
  cases h with
  | nil => exact likewise_throw_bind _ _ _ _
  | cons hsource hrest =>
    rw [callOperator_eq, callOperator_eq, hsource.expr.isRowDerived_eq]
    split
    · exact likewise_foldGroup hsource (rel_head hrest) name _
    · exact likewise_operate hsource hrest name _
    · exact likewise_throw _ _

/-! ## Lowering of trees -/

namespace Expr

/-- What is no function cannot be applied. -/
theorem applyTo_of_functionBody?_eq_none (e : Expr) (h : functionBody? e = none) (env : Env) (rows : List Row) :
    ∃ f, applyTo env rows e = throw f := by
  cases e with
  | quote inner ty => exact applyTo_of_functionBody?_eq_none inner h env rows
  | lambda params body ty => cases h
  | _ => exact ⟨_, rfl⟩

/-- The name of a model is left of it without scalar types. -/
theorem objectTypeName_erase {t u : StaticType} (h : t.erase true = u.erase true) :
    objectTypeName t = objectTypeName u := by
  have hname (t : StaticType) : objectTypeName t = objectTypeName (t.erase true) := by
    rw [objectTypeName, objectTypeName, StaticType.asModel_erase]
    cases t.asModel <;> rfl
  rw [hname, h, ← hname]

mutual

/-- Trees that are the same but for scalar types go through the same steps. -/
theorem Retyped.rowOf {e e' : Expr} (h : Retyped e e') (env : Env) :
    Likewise Eq (Expr.rowOf env e) (Expr.rowOf env e') := by
  cases h with
  | written h hty =>
    rw [h.rowOf_eq]
    exact likewise_pure rfl
  | captured c hty => exact likewise_pure rfl
  | table m hty => exact (likewise_bindTable m).bind_eq fun _ => likewise_pure rfl
  | param name hty => exact likewise_lookup env name
  | field he name hty => exact (he.rowOf env).bind_eq fun target => likewise_memberOf target name
  | binary op hl hr hjoins hty =>
    rw [Expr.rowOf, Expr.rowOf, hjoins]
    exact (hl.rowOf env).bind_eq fun left => (hr.rowOf env).bind_eq fun right => likewise_combine op _ left right
  | method he name hargs hty =>
    exact (he.rowOf env).bind_eq fun receiver => (hargs.rowsOf env).bind_eq fun args =>
      likewise_callMethod name receiver args
  | operator name hargs hty => exact likewise_callOperator name (hargs.operandsOf env)
  | lambda params hbody hty => exact hbody.rowOf env
  | quote he hty => exact he.rowOf env
  | object shape hmembers hty =>
    rw [Expr.rowOf, Expr.rowOf, objectTypeName_erase hty]
    exact (hmembers.membersOf env).bind_eq fun list => likewise_pure rfl

/-- Functions that are the same but for scalar types go through the same steps for the same rows. -/
theorem Retyped.applyTo {e e' : Expr} (h : Retyped e e') (env : Env) (rows : List Row) :
    Likewise Eq (Expr.applyTo env rows e) (Expr.applyTo env rows e') := by
  cases h with
  | written h hty =>
    obtain ⟨f, hf⟩ := applyTo_of_functionBody?_eq_none _ h.functionBody?_eq env rows
    rw [hf]
    exact likewise_throw _ _
  | lambda params hbody hty =>
    rw [Expr.applyTo, Expr.applyTo]
    split
    · exact hbody.rowOf _
    · exact likewise_throw _ _
  | quote he hty => exact he.applyTo env rows
  | _ => exact likewise_throw _ _

theorem AllRetyped.rowsOf {es es' : List Expr} (h : AllRetyped es es') (env : Env) :
    Likewise Eq (Expr.rowsOf env es) (Expr.rowsOf env es') := by
  cases h with
  | nil => exact likewise_pure rfl
  | cons he hrest => exact (he.rowOf env).bind_eq fun _ => (hrest.rowsOf env).bind_eq fun _ => likewise_pure rfl

theorem AllRetyped.operandsOf {es es' : List Expr} (h : AllRetyped es es') (env : Env) :
    List.Forall₂ Operand.Retyped (Expr.operandsOf env es) (Expr.operandsOf env es') := by
  cases h with
  | nil => exact .nil
  | cons he hrest => exact .cons ⟨he, he.rowOf env, he.applyTo env⟩ (hrest.operandsOf env)

theorem MembersRetyped.membersOf {members members' : List (String × Expr)} (h : MembersRetyped members members')
    (env : Env) : Likewise Eq (Expr.membersOf env members) (Expr.membersOf env members') := by
  cases h with
  | nil => exact likewise_pure rfl
  | cons name he hrest =>
    exact ((he.rowOf env).bind_eq fun _ => likewise_pure rfl).bind_eq fun _ => (hrest.membersOf env).bind_eq fun _ =>
      likewise_pure rfl

end

/-- Trees that are the same but for scalar types compile to the same but for scalar types, or neither compiles. -/
theorem Retyped.compile_erase {e e' : Expr} (h : Retyped e e') (o : Options) :
    (e.compile o).toOption.map Compiled.erase = (e'.compile o).toOption.map Compiled.erase := by
  have hlower : e.lower.toOption.map Lowered.erase = e'.lower.toOption.map Lowered.erase := by
    have hrun := h.rowOf [] Clauses.empty Clauses.empty rfl
    rw [lower, lower, clausesOf, clausesOf]
    generalize ExceptT.run (Expr.rowOf [] e) Clauses.empty = outcome,
      ExceptT.run (Expr.rowOf [] e') Clauses.empty = outcome' at hrun ⊢
    cases hrun with
    | failed f f' c c' => rfl
    | @yielded r r' c c' hr hc =>
      have hassemble (c : Clauses) : c.assemble.toOption.map Lowered.erase = c.erase.assemble.toOption := by
        rw [c.assemble_erase]
        cases c.assemble <;> rfl
      show c.assemble.toOption.map Lowered.erase = c'.assemble.toOption.map Lowered.erase
      rw [hassemble, hassemble, hc]
  have hcompile (e : Expr) : (e.compile o).toOption.map Compiled.erase =
      (e.lower.toOption.map Lowered.erase).map (Lowered.compiled o) := by
    rw [compile_eq_lower]
    cases e.lower <;> rfl
  rw [hcompile, hcompile, hlower]

end Expr

end QueryChain
