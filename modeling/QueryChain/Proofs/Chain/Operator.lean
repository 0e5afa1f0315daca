import QueryChain.Proofs.Meaning.Lowered

/-!
# What operators depend on

A query operator looks at little of its operands: at what its source stands for, at what a function yields for the
rows of the source, and of the body of a function at the static type and at how it fills an object if it makes one.
Operators on operands that have these in common are the same.

* `Lower.bind_congr_of_run`: what comes after a step matters for what the step yields only.
* `select_eq_selectAs`, `groupBy_eq_groupAs`, `join_eq_joinAs`: what these operators see of their functions.
* `operate_single`, `operate_take`, `operate_function`, `operate_join`: operands that an operator does not tell apart.
* `isPlain_of_operate`: no operator of a chain groups what is grouped.
-/

namespace QueryChain

open Lowering Lower

/-! ## Steps after steps -/

/-- What comes after a step matters for what the step yields only. -/
theorem Lower.bind_congr_of_run {α β : Type} {m : Lower α} {f g : α → Lower β}
    (h : ∀ c a c', ExceptT.run m c = (.ok a, c') → f a = g a) : (m >>= f) = (m >>= g) := by
  funext c
  show ExceptT.run (m >>= f) c = ExceptT.run (m >>= g) c
  rw [run_bind, run_bind]
  rcases hm : ExceptT.run m c with ⟨r, c'⟩
  cases r with
  | error e => rfl
  | ok a =>
    show ExceptT.run (f a) c' = ExceptT.run (g a) c'
    rw [h c a c' hm]

/-! ## Rows of chains -/

/-- A row of a chain: a group of rows is no group of groups. -/
def Row.IsPlain : Row → Prop
  | .group _ element => element.isGroup = false
  | _ => True

/-- The row that a group is a group of. -/
def Row.ofGroup : Row → Row
  | .group _ element => element
  | _ => .scalar .null

theorem Row.isPlain_of_isGroup_eq_false {r : Row} (h : r.isGroup = false) : r.IsPlain := by
  cases r with
  | group key element => cases h
  | _ => exact trivial

/-! ## Functions of operators -/

/-- How a new object is filled, for expressions that make one. -/
def Expr.objectShape : Expr → Option ShapeKind
  | .object shape _ _ => some shape
  | _ => none

/-- An expression as an operand, with no parameter in scope. -/
def Lowering.Operand.ofExpr (e : Expr) : Operand := ⟨e, e.rowOf [], fun rows => e.applyTo [] rows⟩

/-- Projects rows onto the value of a body of which only this is known: how it fills an object if it makes one, and
its static type. -/
def selectAs {τ ν : Type} (shape? : Option ShapeKind) (ty : StaticType) (value : LowerTo τ ν (Row τ ν)) :
    LowerTo τ ν (Row τ ν) :=
  match shape? with
  | some shape =>
    match ty.asModel with
    | none => throw (.use .untypedProjection)
    | some model => do
      match ← value with
      | .projected _ list =>
        let fields : Entries τ ν := ⟨model.typeName, list⟩
        update (·.project (.object (shape = .positional) model fields))
        pure (.projected model.typeName list)
      | r => pure r
  | none => do
    let value ← value
    match value with
    | .term _ | .scalar _ =>
      update (·.project (.scalar ty.asScalar value))
      pure value
    | .table _ | .projected _ _ | .joined _ => pure value
    | r => throw (.use (.selection r.kind))

theorem select_eq_selectAs {source projection : Operand} {body : Expr}
    (h : functionBody? projection.expr = some body) :
    select source projection =
      source.row >>= fun rows => selectAs body.objectShape body.ty (projection.apply [rows]) := by
  rw [select, functionBody, h]
  cases body <;> rfl

/-- Groups rows by the value of a body of which only this is known: how it fills an object if it makes one. -/
def groupAs (shape? : Option ShapeKind) (rows : Row) (key : Lower Row) : Lower Row := do
  if rows.isGroup then throw (.use .groupsGrouped)
  if shape?.isSome then throw (.use .groupByShape)
  let key ← key
  let t ← groupKey key
  update (·.group t)
  pure (.group t rows)

theorem groupBy_eq_groupAs {source key : Operand} {body : Expr} (h : functionBody? key.expr = some body) :
    groupBy source key = source.row >>= fun rows => groupAs body.objectShape rows (key.apply [rows]) := by
  rw [groupBy, functionBody, h]
  refine bind_congr fun rows => ?_
  rw [groupAs]
  cases rows.isGroup with
  | true => rfl
  | false => cases body <;> rfl

/-- Pairs rows with those of a table, by the values of its functions. -/
def joinAs {τ ν : Type} [SqlAlgebra τ ν] (table : TableRef ν) (model : Option Model → Entries τ ν → Model)
    (outerKey innerKey result : LowerTo τ ν (Row τ ν)) : LowerTo τ ν (Row τ ν) := do
  let outerValue ← outerKey
  let outerKeys ← keyTerms outerValue
  let innerValue ← innerKey
  let innerKeys ← keyTerms innerValue
  if outerKeys.length ≠ innerKeys.length then throw (.use .joinKeyArity)
  let selected ← result
  let (fields, passedOn) ← joinFields selected
  update (·.join ⟨⟨table, outerKeys, innerKeys⟩, fields, model passedOn fields⟩)
  let c ← get
  pure (.joined (c.joins.length - 1))

theorem join_eq_joinAs {outer inner outerKey innerKey result : Operand} :
    join outer inner outerKey innerKey result = (outer.row >>= fun outerRows =>
      if outerRows.isGroup then throw (.use .groupsJoined)
      else nextAlias >>= fun _ => inner.row >>= fun innerRows =>
        match innerRows with
        | .table t => joinAs t (joinModel result.expr) (outerKey.apply [outerRows]) (innerKey.apply [.table t])
          (result.apply [outerRows, .table t])
        | r => throw (.use (.joinAgainst r.kind))) := by
  rw [join]
  refine bind_congr fun outerRows => ?_
  cases outerRows.isGroup with
  | true => rfl
  | false => exact bind_congr fun _ => bind_congr fun r => by cases r <;> rfl

section Operators

variable {source source' f f' : Operand}

theorem restrict_eq_of_apply {r : Row} (h : f.apply [r] = f'.apply [r]) : restrict r f = restrict r f' := by
  rw [restrict, restrict, h]

/-- An operator that is given nothing depends on the rows of its source only. -/
theorem operate_single (name : String) (op : QueryOperator) (hsource : source.row = source'.row) :
    operate name source [source] op = operate name source' [source'] op := by
  cases op with
  | distinct => rw [operate, operate, hsource]
  | first =>
    show first source none = first source' none
    rw [first, first, hsource]
  | count =>
    show count source none = count source' none
    rw [count, count, hsource]
  | fold a =>
    show fold a source none = fold a source' none
    rw [fold, fold, hsource]
  | _ => rfl

theorem operate_take (name : String) (hsource : source.row = source'.row) (n : Operand) :
    operate name source [source, n] .take = operate name source' [source', n] .take := by
  show take source n = take source' n
  rw [take, take, hsource]

/-- An operator that is given a function depends on the rows of its source, and on what the function yields for those
rows. -/
theorem operate_function (name : String) {op : QueryOperator} (hop : op ≠ .take) (hsource : source.row = source'.row)
    (happly : ∀ c r c', ExceptT.run source.row c = (.ok r, c') → f.apply [r] = f'.apply [r])
    (hbody : ∃ t u, functionBody? f.expr = some t ∧ functionBody? f'.expr = some u ∧ t.ty = u.ty ∧
      t.objectShape = u.objectShape) :
    operate name source [source, f] op = operate name source' [source', f'] op := by
  obtain ⟨t, u, ht, hu, hty, hshape⟩ := hbody
  cases op with
  | filter =>
    show (source.row >>= fun rows => restrict rows f >>= fun _ => pure rows) =
      (source'.row >>= fun rows => restrict rows f' >>= fun _ => pure rows)
    rw [← hsource]
    exact bind_congr_of_run fun c r c' hr => by rw [restrict_eq_of_apply (happly c r c' hr)]
  | select =>
    show select source f = select source' f'
    rw [select_eq_selectAs ht, select_eq_selectAs hu, hty, hshape, ← hsource]
    exact bind_congr_of_run fun c r c' hr => by rw [happly c r c' hr]
  | order descending restart =>
    show order source f descending restart = order source' f' descending restart
    rw [order, order, ← hsource]
    exact bind_congr_of_run fun c r c' hr => by rw [happly c r c' hr]
  | groupBy =>
    show groupBy source f = groupBy source' f'
    rw [groupBy_eq_groupAs ht, groupBy_eq_groupAs hu, hshape, ← hsource]
    exact bind_congr_of_run fun c r c' hr => by rw [happly c r c' hr]
  | first =>
    show first source (some f) = first source' (some f')
    rw [first, first, ← hsource]
    exact bind_congr_of_run fun c r c' hr => by
      rw [restrict?, restrict?, restrict_eq_of_apply (happly c r c' hr)]
  | count =>
    show count source (some f) = count source' (some f')
    rw [count, count, ← hsource]
    exact bind_congr_of_run fun c r c' hr => by
      rw [restrict?, restrict?, restrict_eq_of_apply (happly c r c' hr)]
  | fold a =>
    show fold a source (some f) = fold a source' (some f')
    rw [fold, fold, ← hsource]
    exact bind_congr_of_run fun c r c' hr => by simp only [happly c r c' hr]
  | take => exact absurd rfl hop
  | distinct => rw [operate, operate, hsource]
  | join => rfl

/-- A join depends on the rows of both sides, and on what its functions yield for rows that are no groups. -/
theorem operate_join (name : String) {inner inner' outerKey outerKey' innerKey innerKey' result result' : Operand}
    (hsource : source.row = source'.row) (hinner : inner.row = inner'.row)
    (houterKey : ∀ r : Row, r.isGroup = false → outerKey.apply [r] = outerKey'.apply [r])
    (hinnerKey : ∀ r : Row, r.isGroup = false → innerKey.apply [r] = innerKey'.apply [r])
    (hresult : ∀ r r' : Row, r.isGroup = false → r'.isGroup = false → result.apply [r, r'] = result'.apply [r, r'])
    (hmodel : (joinModel result.expr : Option Model → Entries → Model) = joinModel result'.expr) :
    operate name source [source, inner, outerKey, innerKey, result] .join =
      operate name source' [source', inner', outerKey', innerKey', result'] .join := by
  show join source inner outerKey innerKey result = join source' inner' outerKey' innerKey' result'
  rw [join_eq_joinAs, join_eq_joinAs, ← hsource, ← hinner]
  refine bind_congr fun outerRows => ?_
  split
  · rfl
  · next hgroup =>
    rw [Bool.not_eq_true] at hgroup
    refine bind_congr fun _ => bind_congr fun innerRows => ?_
    cases innerRows with
    | table t =>
      show joinAs t _ _ _ _ = joinAs t _ _ _ _
      rw [houterKey outerRows hgroup, hinnerKey (.table t) rfl, hresult outerRows (.table t) hgroup rfl, hmodel]
    | _ => rfl

end Operators

/-! ### Rows that operators hand on -/

/-- The operands that expressions are, with no parameter in scope. -/
theorem Expr.operandsOf_eq_map (es : List Expr) : Expr.operandsOf [] es = es.map Operand.ofExpr := by
  induction es with
  | nil => rfl
  | cons e es ih => rw [Expr.operandsOf, ih, List.map_cons, Operand.ofExpr]

/-- An operator over rows that are not those of a group. -/
theorem Expr.rowOf_operator {name : String} {op : QueryOperator} (hop : QueryOperator.ofName name = some op)
    {source : Expr} (hsource : source.isRowDerived = false) (rest : List Expr) (ty : StaticType) :
    (Expr.operator name (source :: rest) ty).rowOf [] =
      operate name (.ofExpr source) (.ofExpr source :: rest.map Operand.ofExpr) op := by
  rw [Expr.rowOf, Expr.operandsOf_eq_map, List.map_cons, callOperator_eq, hop]
  simp only [Operand.ofExpr, hsource, Bool.false_eq_true, if_false]

/-- Operators that end a chain: what they yield is no sequence. -/
def QueryOperator.isLast : QueryOperator → Bool
  | .first | .count | .fold _ => true
  | _ => false

/-- Rows are plain after an operator that does not end a chain, if they were before. -/
theorem isPlain_of_operate {name : String} {op : QueryOperator} (hop : op.isLast = false) {source : Operand}
    (hsource : ∀ {c r c'}, ExceptT.run source.row c = (.ok r, c') → r.IsPlain) (rest : List Expr) {c c' : Clauses}
    {r : Row} (h : ExceptT.run (operate name source (source :: rest.map Operand.ofExpr) op) c = (.ok r, c')) :
    r.IsPlain := by
  cases op with
  | filter | order _ _ | take | distinct | first | count =>
    obtain ⟨c₁, hrow⟩ := run_source_of_handsOn rfl h
    exact hsource hrow
  | select =>
    cases rest with
    | nil => cases h
    | cons projection rest =>
      obtain ⟨rows, body, value, c₁, c₂, -, -, -, hselects⟩ :=
        run_select (fun _ _ _ _ _ hbody hobject h => Expr.projected_of_isObject hbody hobject h) h
      cases hselects with
      | object => exact trivial
      | scalar _ hvalue => obtain ⟨t, rfl⟩ | ⟨v, rfl⟩ := hvalue <;> exact trivial
      | row _ hvalue => obtain ⟨t, rfl⟩ | ⟨typeName, list, rfl⟩ | ⟨i, rfl⟩ := hvalue <;> exact trivial
  | groupBy =>
    cases rest with
    | nil => cases h
    | cons key rest =>
      obtain ⟨rows, x, t, c₁, c₂, c₃, -, hrows, -, -, rfl, -⟩ := run_groupBy h
      exact hrows
  | join =>
    match rest, h with
    | [inner, outerKey, innerKey, result], h =>
      obtain ⟨_, _, _, _, _, _, _, _, _, _, _, _, _, _, _, _, _, _, -, -, -, -, -, -, -, -, -, -, -, rfl⟩ := run_join h
      exact trivial
    | [], h | [_], h | [_, _], h | [_, _, _], h | _ :: _ :: _ :: _ :: _ :: _, h => cases h
  | fold f => cases hop

end QueryChain
