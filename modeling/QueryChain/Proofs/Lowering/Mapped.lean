import QueryChain.Proofs.Lowering.Operate

/-!
# Lowering to other expressions

Lowering makes expressions and aliases by the operations of an algebra, and never looks inside them. So a map between
two algebras that goes with every operation goes with every step of lowering: over both algebras the step fails with the
same fault, or yields rows and leaves clauses of which the one are the others, mapped.

* `SqlAlgebra.Hom`: maps that go with every operation.
* `LowerTo.Maps`: steps that a map goes with, and steps one after another.
* `maps_callOperator`, `Expr.maps_rowOf`: query operators and trees.
* `Expr.lower_map`: the statement of a tree over the one algebra is that over the other, mapped.
-/

namespace QueryChain

open Lowering Lower

/-- Maps of expressions and of aliases that go with every operation that makes them. -/
structure SqlAlgebra.Hom (τ ν τ' ν' : Type) [SqlAlgebra τ ν] [SqlAlgebra τ' ν'] where
  term : τ → τ'
  label : ν → ν'
  label_eq : ∀ n, label (SqlAlgebra.label τ n) = SqlAlgebra.label τ' n
  column_eq : ∀ l name, term (SqlAlgebra.column l name) = SqlAlgebra.column (label l) name
  /-- The same values have literals. -/
  literal_eq : ∀ v, (SqlAlgebra.literal v : Except Fault τ).map term = SqlAlgebra.literal v
  nullTest_eq : ∀ negated t, term (SqlAlgebra.nullTest negated t) = SqlAlgebra.nullTest negated (term t)
  binary_eq : ∀ op l r, term (SqlAlgebra.binary op l r) = SqlAlgebra.binary op (term l) (term r)
  concat_eq : ∀ l r, term (SqlAlgebra.concat l r) = SqlAlgebra.concat (term l) (term r)
  length_eq : ∀ t, term (SqlAlgebra.length t) = SqlAlgebra.length (term t)
  toText_eq : ∀ t, term (SqlAlgebra.toText t) = SqlAlgebra.toText (term t)
  change_eq : ∀ c t, term (SqlAlgebra.change c t) = SqlAlgebra.change c (term t)
  likeText_eq : ∀ t affix needle, term (SqlAlgebra.likeText t affix needle) = SqlAlgebra.likeText (term t) affix needle
  likeTerm_eq : ∀ t affix needle,
    term (SqlAlgebra.likeTerm t affix needle) = SqlAlgebra.likeTerm (term t) affix (term needle)
  dateAdd_eq : ∀ part amount t,
    term (SqlAlgebra.dateAdd part amount t) = SqlAlgebra.dateAdd part (term amount) (term t)
  countAll_eq : term SqlAlgebra.countAll = SqlAlgebra.countAll
  countWhere_eq : ∀ t, term (SqlAlgebra.countWhere t) = SqlAlgebra.countWhere (term t)
  fold_eq : ∀ f t, term (SqlAlgebra.fold f t) = SqlAlgebra.fold f (term t)

variable {τ ν τ' ν' : Type} [SqlAlgebra τ ν] [SqlAlgebra τ' ν'] (φ : SqlAlgebra.Hom τ ν τ' ν')

/-! ## Statements, rows and clauses, mapped -/

/-- A table under the mapped alias. -/
def TableRef.map (t : TableRef ν) : TableRef ν' :=
  ⟨t.model, φ.label t.label⟩

/-- A join with mapped keys. -/
def JoinClause.map (j : JoinClause τ ν) : JoinClause τ' ν' :=
  ⟨j.table.map φ, j.outerKeys.map φ.term, j.innerKeys.map φ.term⟩

/-- A mapped key to sort by. -/
def OrderKey.map (k : OrderKey τ) : OrderKey τ' :=
  ⟨φ.term k.term, k.descending⟩

/-- An item with its value mapped. -/
def SelectItem.map : SelectItem τ ν → SelectItem τ' ν'
  | .entity label column => .entity (φ.label label) column
  | .bare t => .bare (φ.term t)
  | .named t name => .named (φ.term t) name
  | .folded t => .folded (φ.term t)
  | .plain t => .plain (φ.term t)

/-- A select list of mapped items. -/
def SelectList.map : SelectList τ ν → SelectList τ' ν'
  | .items list => .items (list.map (SelectItem.map φ))
  | .withFolded list t => .withFolded (list.map (SelectItem.map φ)) (φ.term t)

/-- A block with everything in it mapped. -/
def Select.map (s : Select τ ν) : Select τ' ν' where
  distinct := s.distinct
  top := s.top
  list := s.list.map φ
  root := s.root.map φ
  joins := s.joins.map (JoinClause.map φ)
  filters := s.filters.map φ.term
  groupKeys := s.groupKeys.map φ.term
  order := s.order.map (OrderKey.map φ)

/-- A statement with its block mapped. -/
def Statement.map : Statement τ ν → Statement τ' ν'
  | .plain s => .plain (s.map φ)
  | .countOf s => .countOf (s.map φ)
  | .foldOf f s => .foldOf f (s.map φ)

namespace Row

mutual

/-- What an expression stands for, mapped. -/
def map : Row τ ν → Row τ' ν'
  | .scalar v => .scalar v
  | .host c => .host c
  | .term t => .term (φ.term t)
  | .table t => .table (t.map φ)
  | .projected typeName list => .projected typeName (mapMembers list)
  | .joined index => .joined index
  | .group key element => .group (φ.term key) (map element)

/-- Members with their values mapped. -/
def mapMembers : List (String × Row τ ν) → List (String × Row τ' ν')
  | [] => []
  | member :: rest => mapMember member :: mapMembers rest

/-- A member with its value mapped. -/
def mapMember : String × Row τ ν → String × Row τ' ν'
  | (name, r) => (name, map r)

end

theorem mapMembers_eq (list : List (String × Row τ ν)) :
    mapMembers φ list = list.map fun p => (p.1, p.2.map φ) := by
  induction list with
  | nil => rfl
  | cons p list ih => rw [mapMembers, ih, List.map_cons, mapMember]

end Row

/-- Mapped members. -/
def Entries.map (e : Entries τ ν) : Entries τ' ν' :=
  ⟨e.typeName, Row.mapMembers φ e.list⟩

/-- A projection onto mapped values. -/
def Projection.map : Projection τ ν → Projection τ' ν'
  | .object positional model fields => .object positional model (fields.map φ)
  | .scalar type value => .scalar type (value.map φ)

/-- A join with its clause and its rows mapped. -/
def Join.map (j : Join τ ν) : Join τ' ν' :=
  ⟨j.clause.map φ, j.fields.map φ, j.model⟩

/-- Clauses with everything in them mapped. -/
def Clauses.map (c : Clauses τ ν) : Clauses τ' ν' where
  projection := c.projection.map (Projection.map φ)
  filters := c.filters.map φ.term
  order := c.order.map (OrderKey.map φ)
  groupKeys := c.groupKeys.map φ.term
  top := c.top
  distinct := c.distinct
  first := c.first
  count := c.count
  fold := c.fold.map fun p => (p.1, φ.term p.2)
  aliases := c.aliases
  root := c.root.map (TableRef.map φ)
  joins := c.joins.map (Join.map φ)

/-- A lowered query with its statement mapped. -/
def Lowered.map (t : Lowered τ ν) : Lowered τ' ν' :=
  ⟨t.statement.map φ, t.shape, t.mode, t.top, t.distinct⟩

/-! ## What is left as it is -/

namespace Row

variable (r : Row τ ν)

@[simp] theorem isGroup_map : (r.map φ).isGroup = r.isGroup := by
  cases r <;> rfl

@[simp] theorem asScalar_map : (r.map φ).asScalar = r.asScalar := by
  cases r <;> rfl

@[simp] theorem isNull_map : isNull (r.map φ) = isNull r := by
  cases r with
  | scalar v => cases v <;> rfl
  | _ => rfl

@[simp] theorem map_ofCaptured (c : Captured) : (ofCaptured c : Row τ ν).map φ = ofCaptured c := by
  cases c <;> rfl

theorem toTerm_map : (r.map φ).toTerm = r.toTerm.map φ.term := by
  cases r with
  | scalar v => exact (φ.literal_eq v).symm
  | _ => rfl

theorem selectedTerm_map : Clauses.selectedTerm (r.map φ) = (Clauses.selectedTerm r).map φ.term := by
  cases r with
  | scalar v => exact (φ.literal_eq v).symm
  | _ => rfl

end Row

@[simp] theorem knownScalars_map (rows : List (Row τ ν)) : knownScalars (rows.map (Row.map φ)) = knownScalars rows := by
  rw [knownScalars, List.mapM_map]
  simp only [Function.comp_def, Row.asScalar_map]
  rfl

namespace Entries

@[simp] theorem names_map (e : Entries τ ν) : (e.map φ).names = e.names := by
  simp only [names, map, Row.mapMembers_eq, List.map_map]
  rfl

theorem find_map (e : Entries τ ν) (name : String) : (e.map φ).find name = (e.find name).map (Row.map φ) := by
  simp only [find, map, Row.mapMembers_eq, lookup_map]
  cases e.list.lookup name <;> rfl

theorem map_ofTable (t : TableRef ν) : (ofTable t).map φ = ofTable (t.map φ) := by
  simp only [map, ofTable, Row.mapMembers_eq, List.map_map, Function.comp_def, Row.map, φ.column_eq]
  rfl

end Entries

/-! ## Steps -/

/-- A step and a step over the other algebra, which the map goes with: they fail with the same fault, or what the second
one yields is what the first one yields, read as given, and the clauses are mapped. -/
def LowerTo.Maps {α β : Type} (read : α → β) (m : LowerTo τ ν α) (m' : LowerTo τ' ν' β) : Prop :=
  ∀ c, ExceptT.run m' (c.map φ) = ((ExceptT.run m c).1.map read, (ExceptT.run m c).2.map φ)

section Steps

open LowerTo

variable {α β γ δ : Type} {read : α → β} {read' : γ → δ}

theorem maps_pure {a : α} {b : β} (h : read a = b) : Maps φ read (pure a) (pure b) :=
  fun _ => by rw [← h]; rfl

theorem maps_throw (f : Fault) : Maps φ read (throw f) (throw f) :=
  fun _ => rfl

/-- Nothing comes after a failure. -/
theorem maps_throw_bind (f : Fault) (k : γ → LowerTo τ ν α) (k' : δ → LowerTo τ' ν' β) :
    Maps φ read (throw f >>= k) (throw f >>= k') :=
  fun _ => rfl

variable {φ}

theorem LowerTo.Maps.bind {m : LowerTo τ ν α} {m' : LowerTo τ' ν' β} {k : α → LowerTo τ ν γ}
    {k' : β → LowerTo τ' ν' δ} (h : Maps φ read m m') (hk : ∀ a, Maps φ read' (k a) (k' (read a))) :
    Maps φ read' (m >>= k) (m' >>= k') := by
  intro c
  rw [run_bind, run_bind, h c]
  cases (ExceptT.run m c).1 with
  | error f => rfl
  | ok a => exact hk a _

variable (φ)

theorem maps_require {r : Except Fault α} {r' : Except Fault β} (h : r' = r.map read) :
    Maps φ read (require r) (require r') := by
  intro c
  rw [run_require, run_require, h]

/-- There is nothing to map in what is required. -/
theorem maps_require_id (r : Except Fault α) : Maps φ id (require r) (require r) :=
  maps_require φ (by cases r <;> rfl)

theorem maps_update {f : Clauses τ ν → Clauses τ ν} {f' : Clauses τ' ν' → Clauses τ' ν'}
    (h : ∀ c, f' (c.map φ) = (f c).map φ) : Maps φ id (update f) (update f') := by
  intro c
  rw [run_update, run_update, h]
  rfl

theorem maps_get : Maps φ (Clauses.map φ) get get :=
  fun _ => rfl

theorem maps_set (c : Clauses τ ν) : Maps φ id (set c) (set (c.map φ)) :=
  fun _ => rfl

theorem maps_bindTable (m : Model) : Maps φ (TableRef.map φ) (bindTable m) (bindTable m) := by
  refine (maps_get φ).bind fun c => ?_
  have htable : (⟨m, SqlAlgebra.label τ' (c.map φ).aliases⟩ : TableRef ν') =
      TableRef.map φ ⟨m, SqlAlgebra.label τ c.aliases⟩ := by
    rw [TableRef.map, φ.label_eq]
    rfl
  have hroot : (c.map φ).root.isNone = c.root.isNone := Option.isNone_map
  simp only [htable, hroot]
  split
  · exact (maps_set φ { c with root := some ⟨m, SqlAlgebra.label τ c.aliases⟩ }).bind fun _ => maps_pure φ rfl
  · exact maps_pure φ rfl

theorem maps_joinAt (index : Nat) : Maps φ (Join.map φ) (joinAt index) (joinAt index) := by
  refine (maps_get φ).bind fun c => ?_
  have hjoins : (c.map φ).joins[index]? = c.joins[index]?.map (Join.map φ) := List.getElem?_map
  rw [hjoins]
  cases c.joins[index]? with
  | none => exact maps_throw φ _
  | some j => exact maps_pure φ rfl

end Steps

open LowerTo

/-! ## Members, scalars and methods -/

theorem maps_lookup (env : Env τ ν) (name : String) :
    Maps φ (Row.map φ) (Lowering.lookup env name) (Lowering.lookup (Row.mapMembers φ env) name) := by
  rw [Lowering.lookup, Lowering.lookup, Row.mapMembers_eq, lookup_map]
  cases env.lookup name with
  | none => exact maps_throw φ _
  | some r => exact maps_pure φ rfl

theorem maps_memberOf (target : Row τ ν) (field : String) (h : Host) :
    Maps φ (Row.map φ) (memberOf target field h) (memberOf (target.map φ) field h) := by
  cases target with
  | table t =>
    refine (maps_require_id φ (t.model.columnOf field)).bind fun column => ?_
    exact maps_pure φ (congrArg Row.term (φ.column_eq t.label column))
  | projected typeName list => exact maps_require φ (Entries.find_map φ ⟨typeName, list⟩ field)
  | joined index => exact (maps_joinAt φ index).bind fun j => maps_require φ (j.fields.find_map φ field)
  | group key element =>
    rw [Row.map, memberOf, memberOf]
    split
    · exact maps_pure φ rfl
    · exact maps_throw φ _
  | host c =>
    refine (maps_require_id φ (c.member field)).bind fun member => ?_
    exact maps_pure φ (Row.map_ofCaptured φ member)
  | scalar v =>
    cases v with
    | text s =>
      rw [Row.map, memberOf, memberOf]
      split
      · exact (maps_require_id φ (h.length s)).bind fun n => maps_pure φ rfl
      · exact maps_throw φ _
    | _ => exact maps_throw φ _
  | term t =>
    rw [Row.map, memberOf, memberOf]
    split
    · exact maps_pure φ (congrArg Row.term (φ.length_eq t))
    · exact maps_throw φ _

theorem maps_scalarTerm (r : Row τ ν) : Maps φ φ.term (scalarTerm r) (scalarTerm (r.map φ)) :=
  maps_require φ (r.toTerm_map φ)

theorem maps_scalarTerms (list : List (String × Row τ ν)) :
    Maps φ (List.map φ.term) (scalarTerms list) (scalarTerms (Row.mapMembers φ list)) := by
  induction list with
  | nil => exact maps_pure φ rfl
  | cons p list ih =>
    rw [Row.mapMembers, Row.mapMember, scalarTerms, scalarTerms]
    exact (maps_scalarTerm φ p.2).bind fun t => ih.bind fun ts => maps_pure φ rfl

theorem maps_keyTerms (key : Row τ ν) : Maps φ (List.map φ.term) (keyTerms key) (keyTerms (key.map φ)) := by
  cases key with
  | projected typeName list => exact maps_scalarTerms φ list
  | table t =>
    have hlist : (Entries.ofTable (t.map φ)).list = Row.mapMembers φ (Entries.ofTable t : Entries τ ν).list := by
      rw [← Entries.map_ofTable]
      rfl
    rw [Row.map, keyTerms, keyTerms, hlist]
    exact maps_scalarTerms φ _
  | joined index => exact (maps_joinAt φ index).bind fun j => maps_scalarTerms φ _
  | _ => exact (maps_scalarTerm φ _).bind fun t => maps_pure φ rfl

theorem maps_combine (op : BinaryOp) (concat : Bool) (l r : Row τ ν) :
    Maps φ (Row.map φ) (combine op concat l r) (combine op concat (l.map φ) (r.map φ)) := by
  have hnull (r : Row τ ν) : Maps φ (Row.map φ) (do
      let t ← scalarTerm r
      pure (.term (SqlAlgebra.nullTest (op = .ne) t))) (do
      let t ← scalarTerm (r.map φ)
      pure (.term (SqlAlgebra.nullTest (op = .ne) t))) :=
    (maps_scalarTerm φ r).bind fun t => maps_pure φ (congrArg Row.term (φ.nullTest_eq _ t))
  simp only [combine, Row.isNull_map]
  split
  · exact hnull l
  · split
    · exact hnull r
    · refine (maps_scalarTerm φ l).bind fun t => (maps_scalarTerm φ r).bind fun u => ?_
      refine maps_pure φ (congrArg Row.term ?_)
      rw [apply_ite φ.term, φ.concat_eq, φ.binary_eq]

theorem maps_single (method : String) (args : List (Row τ ν)) :
    Maps φ (Row.map φ) (single method args) (single method (args.map (Row.map φ))) := by
  rcases args with _ | ⟨r, _ | ⟨r', rest⟩⟩
  · exact maps_throw φ _
  · exact maps_pure φ rfl
  · rw [single, single]
    · simp only [List.length_map]
      exact maps_throw φ _
    · simp
    · simp

theorem maps_methodTerm (name : String) (t : τ) (args : List (Row τ ν)) :
    Maps φ φ.term (methodTerm name t args) (methodTerm name (φ.term t) (args.map (Row.map φ))) := by
  rw [methodTerm, methodTerm]
  cases Method.ofName name with
  | none => exact maps_throw φ _
  | some method =>
    cases method with
    | toText => exact maps_pure φ (φ.toText_eq t)
    | change c => exact maps_pure φ (φ.change_eq c t)
    | test affix =>
      refine (maps_single φ name args).bind fun needle => ?_
      have hterm : Maps φ φ.term (do
          let needle ← scalarTerm needle
          pure (SqlAlgebra.likeTerm t affix needle)) (do
          let needle ← scalarTerm (needle.map φ)
          pure (SqlAlgebra.likeTerm (φ.term t) affix needle)) :=
        (maps_scalarTerm φ needle).bind fun n => maps_pure φ (φ.likeTerm_eq t affix n)
      cases needle with
      | scalar v =>
        cases v with
        | text s => exact maps_pure φ (φ.likeText_eq t affix s)
        | _ => exact hterm
      | _ => exact hterm
    | add part =>
      exact (maps_single φ name args).bind fun amount => (maps_scalarTerm φ amount).bind fun a =>
        maps_pure φ (φ.dateAdd_eq part a t)

theorem maps_callMethod (name : String) (receiver : Row τ ν) (args : List (Row τ ν)) (h : Host) :
    Maps φ (Row.map φ) (Lowering.callMethod name receiver args h)
      (Lowering.callMethod name (receiver.map φ) (args.map (Row.map φ)) h) := by
  simp only [Lowering.callMethod, Row.asScalar_map, knownScalars_map]
  split
  · exact (maps_require_id φ _).bind fun result => maps_pure φ rfl
  · exact (maps_scalarTerm φ receiver).bind fun t => (maps_methodTerm φ name t args).bind fun u => maps_pure φ rfl

/-! ## Query operators -/

/-- Operands of the same tree whose evaluation the map goes with. -/
structure Lowering.Operand.Maps (operand : Operand τ ν) (operand' : Operand τ' ν') : Prop where
  expr : operand'.expr = operand.expr
  row : LowerTo.Maps φ (Row.map φ) operand.row operand'.row
  apply : ∀ rows, LowerTo.Maps φ (Row.map φ) (operand.apply rows) (operand'.apply (rows.map (Row.map φ)))

section Operators

variable {φ} {source : Operand τ ν} {source' : Operand τ' ν'}

theorem maps_restrict {predicate : Operand τ ν} {predicate' : Operand τ' ν'} (h : predicate.Maps φ predicate')
    (rows : Row τ ν) : Maps φ id (restrict rows predicate) (restrict (rows.map φ) predicate') := by
  rw [restrict, restrict, Row.isGroup_map]
  cases rows.isGroup with
  | true => exact maps_throw φ _
  | false =>
    refine (h.apply [rows]).bind fun condition => (maps_scalarTerm φ condition).bind fun t => maps_update φ fun c => ?_
    simp only [Clauses.filter, Clauses.map, List.map_append, List.map_cons, List.map_nil]

theorem maps_groupKey (key : Row τ ν) : Maps φ φ.term (groupKey key) (groupKey (key.map φ)) := by
  cases key with
  | term t => exact maps_pure φ rfl
  | scalar v => exact maps_scalarTerm φ (.scalar v)
  | _ => exact maps_throw φ _

theorem maps_projectedScalar (f : Aggregate) : Maps φ (Row.map φ) (projectedScalar f) (projectedScalar f) := by
  refine (maps_get φ).bind fun c => ?_
  have hprojection : (c.map φ).projection = c.projection.map (Projection.map φ) := rfl
  rw [hprojection]
  rcases c.projection with _ | ⟨_ | _⟩
  · exact maps_throw φ _
  · exact maps_throw φ _
  · exact maps_pure φ rfl

/-- The rows of a join that come from what is selected. -/
theorem maps_joinFields (selected : Row τ ν) :
    Maps φ (fun p => (p.1.map φ, p.2)) (joinFields selected) (joinFields (selected.map φ)) := by
  cases selected with
  | projected typeName list => exact maps_pure φ rfl
  | table t => exact maps_pure φ (congrArg (·, some t.model) (Entries.map_ofTable φ t))
  | joined index => exact (maps_joinAt φ index).bind fun j => maps_pure φ rfl
  | _ => exact maps_throw φ _

variable (hsource : source.Maps φ source')
include hsource

theorem maps_order {key : Operand τ ν} {key' : Operand τ' ν'} (h : key.Maps φ key') (descending restart : Bool) :
    Maps φ (Row.map φ) (order source key descending restart) (order source' key' descending restart) := by
  refine hsource.row.bind fun rows => (h.apply [rows]).bind fun value => (maps_keyTerms φ value).bind fun keys => ?_
  refine (maps_update φ fun c => ?_).bind fun _ => maps_pure φ rfl
  cases restart <;> simp [Clauses.sort, Clauses.map, OrderKey.map]

theorem maps_select {projection : Operand τ ν} {projection' : Operand τ' ν'} (h : projection.Maps φ projection') :
    Maps φ (Row.map φ) (select source projection) (select source' projection') := by
  refine hsource.row.bind fun rows => ?_
  rw [functionBody, functionBody, h.expr]
  cases functionBody? projection.expr with
  | none => exact maps_throw_bind φ _ _ _
  | some body =>
    have hvalue := h.apply [rows]
    cases body with
    | object shape members ty =>
      cases hm : ty.asModel with
      | none =>
        simp only [hm, pure_bind]
        exact maps_throw φ _
      | some model =>
        simp only [hm, pure_bind]
        refine hvalue.bind fun value => ?_
        cases value with
        | projected typeName list => exact (maps_update φ fun c => rfl).bind fun _ => maps_pure φ rfl
        | _ => exact maps_pure φ rfl
    | _ =>
      refine hvalue.bind fun value => ?_
      cases value with
      | term _ | scalar _ => exact (maps_update φ fun c => rfl).bind fun _ => maps_pure φ rfl
      | table _ | projected _ _ | joined _ => exact maps_pure φ rfl
      | host _ | group _ _ => exact maps_throw φ _

theorem maps_groupBy {key : Operand τ ν} {key' : Operand τ' ν'} (h : key.Maps φ key') :
    Maps φ (Row.map φ) (groupBy source key) (groupBy source' key') := by
  refine hsource.row.bind fun rows => ?_
  rw [Row.isGroup_map, functionBody, functionBody, h.expr]
  cases rows.isGroup with
  | true => exact maps_throw_bind φ _ _ _
  | false =>
    cases functionBody? key.expr with
    | none => exact maps_throw_bind φ _ _ _
    | some body =>
      cases hbody : isObject body with
      | true =>
        simp only [hbody, pure_bind]
        exact maps_throw_bind φ _ _ _
      | false =>
        simp only [hbody, pure_bind]
        refine (h.apply [rows]).bind fun value => (maps_groupKey value).bind fun t => ?_
        refine (maps_update φ fun c => ?_).bind fun _ => maps_pure φ rfl
        simp only [Clauses.group, Clauses.map, List.map_append, List.map_cons, List.map_nil]

theorem maps_take {count : Operand τ ν} {count' : Operand τ' ν'} (h : count.Maps φ count') :
    Maps φ (Row.map φ) (take source count) (take source' count') := by
  refine hsource.row.bind fun rows => h.row.bind fun value => ?_
  cases value with
  | scalar v =>
    cases v with
    | int n => exact (maps_update φ fun c => rfl).bind fun _ => maps_pure φ rfl
    | _ => exact maps_throw φ _
  | _ => exact maps_throw φ _

theorem maps_join {inner outerKey innerKey result : Operand τ ν} {inner' outerKey' innerKey' result' : Operand τ' ν'}
    (hinner : inner.Maps φ inner') (houterKey : outerKey.Maps φ outerKey') (hinnerKey : innerKey.Maps φ innerKey')
    (hresult : result.Maps φ result') :
    Maps φ (Row.map φ) (join source inner outerKey innerKey result)
      (join source' inner' outerKey' innerKey' result') := by
  refine hsource.row.bind fun outerRows => ?_
  rw [Row.isGroup_map]
  cases outerRows.isGroup with
  | true => exact maps_throw_bind φ _ _ _
  | false =>
    refine LowerTo.Maps.bind (maps_update φ fun c => rfl) fun _ => hinner.row.bind fun innerRows => ?_
    cases innerRows with
    | table t =>
      refine (houterKey.apply [outerRows]).bind fun outerValue => (maps_keyTerms φ outerValue).bind fun outerKeys => ?_
      refine (hinnerKey.apply [.table t]).bind fun innerValue => (maps_keyTerms φ innerValue).bind fun innerKeys => ?_
      simp only [List.length_map]
      split
      · exact maps_throw_bind φ _ _ _
      · refine (hresult.apply [outerRows, .table t]).bind fun selected => (maps_joinFields selected).bind fun p => ?_
        obtain ⟨fields, passedOn⟩ := p
        have hmodel : joinModel result'.expr passedOn (fields.map φ) = joinModel result.expr passedOn fields := by
          simp only [joinModel, hresult.expr, Entries.names_map]
        simp only [hmodel]
        refine (maps_update φ fun c => ?_).bind fun _ => (maps_get φ).bind fun c => ?_
        · simp only [Clauses.join, Clauses.map, List.map_append, List.map_cons, List.map_nil]
          rfl
        · refine maps_pure φ ?_
          simp only [Clauses.map, List.length_map]
          rfl
    | _ => exact maps_throw φ _

/-! ### Functions that may be left out -/

section Optional

variable {selector : Option (Operand τ ν)} {selector' : Option (Operand τ' ν')}
  (h : Option.Rel (Operand.Maps φ) selector selector')
include h

omit hsource in
theorem maps_restrict? (rows : Row τ ν) : Maps φ id (restrict? rows selector) (restrict? (rows.map φ) selector') := by
  cases h with
  | none => exact maps_pure φ rfl
  | some h => exact maps_restrict h rows

theorem maps_first : Maps φ (Row.map φ) (first source selector) (first source' selector') :=
  hsource.row.bind fun rows => (maps_restrict? h rows).bind fun _ => (maps_update φ fun _ => rfl).bind fun _ =>
    (maps_update φ fun _ => rfl).bind fun _ => maps_pure φ rfl

theorem maps_count : Maps φ (Row.map φ) (count source selector) (count source' selector') :=
  hsource.row.bind fun rows => (maps_restrict? h rows).bind fun _ => (maps_update φ fun _ => rfl).bind fun _ =>
    maps_pure φ rfl

theorem maps_fold (f : Aggregate) : Maps φ (Row.map φ) (fold f source selector) (fold f source' selector') := by
  have hrest (value : Row τ ν) : Maps φ (Row.map φ) (do
      let argument ← scalarTerm value
      update fun c => { c with fold := some (f, argument) }
      pure (.term (SqlAlgebra.fold f argument))) (do
      let argument ← scalarTerm (value.map φ)
      update fun c => { c with fold := some (f, argument) }
      pure (.term (SqlAlgebra.fold f argument))) :=
    (maps_scalarTerm φ value).bind fun argument => (maps_update φ fun _ => rfl).bind fun _ =>
      maps_pure φ (congrArg Row.term (φ.fold_eq f argument))
  refine hsource.row.bind fun rows => ?_
  cases h with
  | none => exact (maps_projectedScalar f).bind hrest
  | some h => exact (h.apply [rows]).bind hrest

theorem maps_foldGroup (name : String) (f : GroupFold) :
    Maps φ (Row.map φ) (foldGroup name f source selector) (foldGroup name f source' selector') := by
  refine hsource.row.bind fun rows => ?_
  cases rows with
  | group key element =>
    cases f with
    | count =>
      cases h with
      | none => exact maps_pure φ (congrArg Row.term φ.countAll_eq)
      | some h =>
        exact (h.apply [element]).bind fun condition => (maps_scalarTerm φ condition).bind fun t =>
          maps_pure φ (congrArg Row.term (φ.countWhere_eq t))
    | fold f =>
      cases h with
      | none => exact maps_throw φ _
      | some h =>
        exact (h.apply [element]).bind fun value => (maps_scalarTerm φ value).bind fun t =>
          maps_pure φ (congrArg Row.term (φ.fold_eq f t))
  | _ => exact maps_throw φ _

end Optional

/-! ### Operators by name -/

section Named

variable {rest : List (Operand τ ν)} {rest' : List (Operand τ' ν')} (h : List.Forall₂ (Operand.Maps φ) rest rest')
include h

omit hsource in
/-- Operators that look at their second operand. -/
theorem maps_second {name : String} {k : Operand τ ν → LowerTo τ ν (Row τ ν)}
    {k' : Operand τ' ν' → LowerTo τ' ν' (Row τ' ν')}
    (hk : ∀ operand operand', operand.Maps φ operand' → Maps φ (Row.map φ) (k operand) (k' operand')) :
    Maps φ (Row.map φ) (operandAt name (source :: rest) 1 >>= k) (operandAt name (source' :: rest') 1 >>= k') := by
  cases h with
  | nil => exact maps_throw_bind φ _ _ _
  | cons hoperand hrest => exact hk _ _ hoperand

omit hsource in
theorem maps_head : Option.Rel (Operand.Maps φ) rest[0]? rest'[0]? := by
  cases h with
  | nil => exact .none
  | cons hoperand hrest => exact .some hoperand

theorem maps_operate (name : String) (op : QueryOperator) :
    Maps φ (Row.map φ) (operate name source (source :: rest) op) (operate name source' (source' :: rest') op) := by
  cases op with
  | filter =>
    refine maps_second h fun predicate predicate' hpredicate => hsource.row.bind fun rows => ?_
    exact (maps_restrict hpredicate rows).bind fun _ => maps_pure φ rfl
  | select => exact maps_second h fun _ _ hprojection => maps_select hsource hprojection
  | order descending restart => exact maps_second h fun _ _ hkey => maps_order hsource hkey descending restart
  | groupBy => exact maps_second h fun _ _ hkey => maps_groupBy hsource hkey
  | join =>
    cases h with
    | nil => exact maps_throw φ _
    | cons hinner h => cases h with
      | nil => exact maps_throw φ _
      | cons houterKey h => cases h with
        | nil => exact maps_throw φ _
        | cons hinnerKey h => cases h with
          | nil => exact maps_throw φ _
          | cons hresult h => cases h with
            | nil => exact maps_join hsource hinner houterKey hinnerKey hresult
            | cons _ hmore =>
              simp only [operate, List.length_cons, hmore.length_eq]
              exact maps_throw φ _
  | take => exact maps_second h fun _ _ hcount => maps_take hsource hcount
  | distinct =>
    exact hsource.row.bind fun rows => (maps_update φ fun _ => rfl).bind fun _ => maps_pure φ rfl
  | first => exact maps_first hsource (maps_head h)
  | count => exact maps_count hsource (maps_head h)
  | fold f => exact maps_fold hsource (maps_head h) f

end Named

end Operators

/-- The map goes with query operators whose operands it goes with. -/
theorem maps_callOperator (name : String) {operands : List (Operand τ ν)} {operands' : List (Operand τ' ν')}
    (h : List.Forall₂ (Operand.Maps φ) operands operands') :
    Maps φ (Row.map φ) (callOperator name operands) (callOperator name operands') := by
  cases h with
  | nil => exact maps_throw_bind φ _ _ _
  | cons hsource hrest =>
    rw [callOperator_eq, callOperator_eq, hsource.expr]
    split
    · exact maps_foldGroup hsource (maps_head hrest) name _
    · exact maps_operate hsource hrest name _
    · exact maps_throw φ _

/-! ## Trees -/

namespace Expr

mutual

/-- The map goes with the evaluation of a tree, whatever its parameters stand for. -/
theorem maps_rowOf (e : Expr) (env : Env τ ν) (h : Host) :
    Maps φ (Row.map φ) (rowOf env e h) (rowOf (Row.mapMembers φ env) e h) := by
  cases e with
  | value v ty => exact maps_pure φ rfl
  | captured c ty => exact maps_pure φ (Row.map_ofCaptured φ c)
  | table m ty => exact (maps_bindTable φ m).bind fun t => maps_pure φ rfl
  | param name ty => exact maps_lookup φ env name
  | field target name ty => exact (maps_rowOf target env h).bind fun r => maps_memberOf φ r name h
  | binary op l r ty =>
    exact (maps_rowOf l env h).bind fun left => (maps_rowOf r env h).bind fun right => maps_combine φ op _ left right
  | method target name args ty =>
    exact (maps_rowOf target env h).bind fun receiver => (maps_rowsOf args env h).bind fun rows =>
      maps_callMethod φ name receiver rows h
  | operator name args ty => exact maps_callOperator φ name (maps_operandsOf args env h)
  | lambda params body ty => exact maps_rowOf body env h
  | quote inner ty => exact maps_rowOf inner env h
  | object shape members ty => exact (maps_membersOf members env h).bind fun list => maps_pure φ rfl

/-- And with a function, whatever rows it is applied to. -/
theorem maps_applyTo (e : Expr) (env : Env τ ν) (rows : List (Row τ ν)) (h : Host) :
    Maps φ (Row.map φ) (applyTo env rows e h) (applyTo (Row.mapMembers φ env) (rows.map (Row.map φ)) e h) := by
  cases e with
  | quote inner ty => exact maps_applyTo inner env rows h
  | lambda params body ty =>
    have henv : (params.zip (rows.map (Row.map φ))).reverse ++ Row.mapMembers φ env =
        Row.mapMembers φ ((params.zip rows).reverse ++ env) := by
      simp only [Row.mapMembers_eq, List.map_append, List.map_reverse, List.zip_map_right]
      rfl
    rw [applyTo, applyTo, henv, List.length_map]
    split
    · exact maps_rowOf body _ h
    · exact maps_throw φ _
  | _ => exact maps_throw φ _

theorem maps_rowsOf (es : List Expr) (env : Env τ ν) (h : Host) :
    Maps φ (List.map (Row.map φ)) (rowsOf env es h) (rowsOf (Row.mapMembers φ env) es h) := by
  cases es with
  | nil => exact maps_pure φ rfl
  | cons e rest =>
    exact (maps_rowOf e env h).bind fun r => (maps_rowsOf rest env h).bind fun rs => maps_pure φ rfl

theorem maps_operandsOf (es : List Expr) (env : Env τ ν) (h : Host) :
    List.Forall₂ (Operand.Maps φ) (operandsOf env es h) (operandsOf (Row.mapMembers φ env) es h) := by
  cases es with
  | nil => exact .nil
  | cons e rest =>
    rw [operandsOf, operandsOf]
    exact .cons ⟨rfl, maps_rowOf e env h, fun rows => maps_applyTo e env rows h⟩ (maps_operandsOf rest env h)

theorem maps_membersOf (members : List (String × Expr)) (env : Env τ ν) (h : Host) :
    Maps φ (Row.mapMembers φ) (membersOf env members h) (membersOf (Row.mapMembers φ env) members h) := by
  cases members with
  | nil => exact maps_pure φ rfl
  | cons member rest =>
    exact (maps_memberRow member env h).bind fun p => (maps_membersOf rest env h).bind fun ps => maps_pure φ rfl

theorem maps_memberRow (member : String × Expr) (env : Env τ ν) (h : Host) :
    Maps φ (Row.mapMember φ) (memberRow env member h) (memberRow (Row.mapMembers φ env) member h) := by
  cases member with
  | mk name e => exact (maps_rowOf e env h).bind fun r => maps_pure φ rfl

end

end Expr

/-! ## Statements -/

namespace Clauses

theorem memberItems_map (list : List (String × Row τ ν)) :
    memberItems (Row.mapMembers φ list) = (memberItems list).map (List.map (SelectItem.map φ)) := by
  induction list with
  | nil => rfl
  | cons p list ih =>
    rw [Row.mapMembers, Row.mapMember, memberItems, memberItems, Row.selectedTerm_map, ih]
    cases selectedTerm p.2 with
    | error f => rfl
    | ok t => cases memberItems list <;> rfl

theorem namedShape_map (m : Model) (fields : Entries τ ν) : namedShape m (fields.map φ) = namedShape m fields := by
  rw [namedShape, namedShape, Entries.names_map]

theorem positionalShape_map (m : Model) (fields : Entries τ ν) :
    positionalShape m (fields.map φ) = positionalShape m fields := by
  rw [positionalShape, positionalShape, Entries.names_map]

variable (c : Clauses τ ν)

/-- What is selected for an object; its shape goes by the names of its members. -/
theorem objectSelection_map (positional : Bool) (m : Model) (fields : Entries τ ν) :
    (do
      let items ← memberItems (fields.map φ).list
      let shape ← if positional then positionalShape m (fields.map φ) else namedShape m (fields.map φ)
      pure (items, shape)) =
    (do
      let items ← memberItems fields.list
      let shape ← if positional then positionalShape m fields else namedShape m fields
      pure (items, shape) : Except Fault (List (SelectItem τ ν) × RowShape)).map fun p =>
        (p.1.map (SelectItem.map φ), p.2) := by
  rw [positionalShape_map, namedShape_map, Entries.map, memberItems_map]
  cases memberItems fields.list with
  | error f => rfl
  | ok items =>
    cases positional
    · cases namedShape m fields <;> rfl
    · cases positionalShape m fields <;> rfl

theorem selection_map (root : TableRef ν) :
    (c.map φ).selection (root.map φ) = (c.selection root).map fun p => (p.1.map (SelectItem.map φ), p.2) := by
  have hprojection : (c.map φ).projection = c.projection.map (Projection.map φ) := rfl
  have hjoin : (c.map φ).joins.getLast? = c.joins.getLast?.map (Join.map φ) := List.getLast?_map
  have hkey : (c.map φ).groupKeys.getLast? = c.groupKeys.getLast?.map φ.term := List.getLast?_map
  rw [selection, selection, hprojection, hjoin, hkey]
  rcases c.projection with _ | ⟨positional, m, fields⟩ | ⟨type, value⟩
  · rcases c.joins.getLast? with _ | j
    · rcases c.groupKeys.getLast? with _ | key
      · show Except.ok (root.model.fields.map _, _) = Except.ok (List.map _ (root.model.fields.map _), _)
        rw [List.map_map]
        rfl
      · rfl
    · exact objectSelection_map φ j.model.constructorParams.isSome j.model j.fields
  · exact objectSelection_map φ positional m fields
  · show (selectedTerm (value.map φ) >>= fun t => pure ([SelectItem.bare t], RowShape.scalar type)) =
      (selectedTerm value >>= fun t => pure ([SelectItem.bare t], RowShape.scalar type)).map _
    rw [Row.selectedTerm_map]
    cases selectedTerm value <;> rfl

theorem mode_map : (c.map φ).mode = c.mode := by
  have hfold : (c.map φ).fold.isSome = c.fold.isSome := Option.isSome_map
  rw [mode, mode, hfold]
  rfl

theorem isWrapped_map : (c.map φ).isWrapped = c.isWrapped := by
  have hkeys : (c.map φ).groupKeys.isEmpty = c.groupKeys.isEmpty := List.isEmpty_map
  rw [isWrapped, isWrapped, hkeys]
  rfl

theorem block_map (root : TableRef ν) (list : SelectList τ ν) (limited ordered : Bool) :
    (c.map φ).block (root.map φ) (list.map φ) limited ordered = (c.block root list limited ordered).map φ := by
  have hjoins : (c.map φ).joins.map (·.clause) = (c.joins.map (·.clause)).map (JoinClause.map φ) := by
    rw [List.map_map]
    exact List.map_map
  have horder : (if ordered then (c.map φ).order else []) = (if ordered then c.order else []).map (OrderKey.map φ) := by
    cases ordered <;> rfl
  rw [block, hjoins, horder]
  rfl

theorem foldedList_map (items : List (SelectItem τ ν)) (argument : τ) :
    (c.map φ).foldedList (items.map (SelectItem.map φ)) (φ.term argument) = (c.foldedList items argument).map φ := by
  have hobject : (c.map φ).projectsObject = c.projectsObject := by
    have hprojection : (c.map φ).projection = c.projection.map (Projection.map φ) := rfl
    rw [projectsObject, projectsObject, hprojection]
    rcases c.projection with _ | ⟨_ | _⟩ <;> rfl
  have hdistinct : (c.map φ).distinct = c.distinct := rfl
  rw [foldedList, foldedList, hobject, hdistinct]
  split <;> rfl

theorem statement_map (root : TableRef ν) (items : List (SelectItem τ ν)) :
    (c.map φ).statement (root.map φ) (items.map (SelectItem.map φ)) = (c.statement root items).map φ := by
  have hblock (list : SelectList τ ν) (limited ordered : Bool) := c.block_map φ root list limited ordered
  have hfold : (c.map φ).fold = c.fold.map fun p => (p.1, φ.term p.2) := rfl
  have htop : (c.map φ).top = c.top := rfl
  have hplain : (c.map φ).block (root.map φ) (.items (items.map (SelectItem.map φ))) true true =
      (c.block root (.items items) true true).map φ := hblock (.items items) true true
  rw [statement, statement, mode_map, isWrapped_map, hfold, htop]
  cases c.mode with
  | rows => exact congrArg Statement.plain hplain
  | first => exact congrArg Statement.plain hplain
  | count =>
    cases c.isWrapped with
    | true => exact congrArg Statement.countOf (hblock (.items items) true false)
    | false =>
      refine congrArg Statement.plain ?_
      rw [← hblock, SelectList.map, List.map_cons, List.map_nil, SelectItem.map, φ.countAll_eq]
  | aggregate =>
    rcases c.fold with _ | ⟨f, argument⟩
    · exact congrArg Statement.plain hplain
    · cases c.isWrapped with
      | true =>
        refine congrArg (Statement.foldOf f) ?_
        rw [← hblock, ← foldedList_map]
      | false =>
        refine congrArg Statement.plain ?_
        rw [← hblock, SelectList.map, List.map_cons, List.map_nil, SelectItem.map, φ.fold_eq]

theorem assemble_of_root {root : TableRef ν} (h : c.root = some root) :
    c.assemble = c.selection root >>= fun p => pure ⟨c.statement root p.1, p.2, c.mode, c.top, c.distinct⟩ := by
  rw [assemble, h]

/-- The query that mapped clauses make up is the mapped query. -/
theorem assemble_map : (c.map φ).assemble = c.assemble.map (Lowered.map φ) := by
  have hroot : (c.map φ).root = c.root.map (TableRef.map φ) := rfl
  cases h : c.root with
  | none =>
    rw [h] at hroot
    rw [assemble, assemble, h, hroot]
    rfl
  | some root =>
    rw [h] at hroot
    rw [assemble_of_root c h, assemble_of_root (c.map φ) hroot, selection_map, mode_map]
    cases c.selection root with
    | error f => rfl
    | ok p =>
      exact congrArg (fun s => (.ok ⟨s, p.2, c.mode, c.top, c.distinct⟩ : Except Fault (Lowered τ' ν')))
        (c.statement_map φ root p.1)

end Clauses

/-- The statement of a tree over the one algebra is that over the other one, mapped, and a tree without one fails with
the same fault. -/
theorem Expr.lower_map (e : Expr) (h : Host) :
    (e.lower h : Except Fault (Lowered τ' ν')) = (e.lower h : Except Fault (Lowered τ ν)).map (Lowered.map φ) := by
  have hrun : (e.clausesOf h : Except Fault (Row τ' ν') × Clauses τ' ν') =
      ((e.clausesOf h).1.map (Row.map φ), (e.clausesOf h).2.map φ) := maps_rowOf φ e [] h Clauses.empty
  rw [lower, lower, hrun]
  rcases (e.clausesOf h : Except Fault (Row τ ν) × Clauses τ ν) with ⟨_ | r, c⟩
  · rfl
  · exact c.assemble_map φ

end QueryChain
