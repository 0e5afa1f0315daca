import QueryChain.Lowering.Clauses
import QueryChain.Tree.Basic

/-!
# Lowering expressions

Every expression is evaluated to what it stands for (`Row`), given what its parameters stand for; query
operators leave clauses behind. A function is not evaluated by itself: an operator applies it to the rows that it
ranges over.

* `Expr.rowOf`: what an expression stands for.
* `Expr.applyTo`: what a function yields for given rows.
-/

namespace QueryChain

/-- The parameters in scope and what they stand for, innermost first. -/
abbrev Env (τ : Type := Term) (ν : Type := Nat) := List (String × Row τ ν)

/-- What carries out calls on known values. -/
structure Host where
  length : String → Except Fault Value
  invoke : Value → String → List Value → Except Fault Value

/-- The host of queries. -/
def Host.standard : Host where
  length s := .ok (.int (Int64.ofNat s.length))
  invoke := Value.invoke

/-- What is done around the evaluation of a node, whose scope is known. -/
abbrev Watch (τ : Type := Term) (ν : Type := Nat) := Env τ ν → LowerTo τ ν (Row τ ν) → LowerTo τ ν (Row τ ν)

variable {τ ν : Type} [SqlAlgebra τ ν]

namespace Lowering

open Lower

/-! ## Members and scalars -/

/-- `lookup`: a parameter in scope. -/
def lookup (env : Env τ ν) (name : String) : LowerTo τ ν (Row τ ν) :=
  match env.lookup name with
  | some r => pure r
  | none => throw (.unbound name)

/-- `member`: a member of what an expression stands for. -/
def memberOf (target : Row τ ν) (field : String) (h : Host := .standard) : LowerTo τ ν (Row τ ν) :=
  match target with
  | .table t => do
    let column ← require (t.model.columnOf field)
    pure (.term (SqlAlgebra.column t.label column))
  | .projected typeName list => require ((Entries.mk typeName list).find field)
  | .joined index => do
    let j ← joinAt index
    require (j.fields.find field)
  | .group key _ => if field = "Key" then pure (.term key) else throw (.noMember field "grouping")
  | .host c => do
    let member ← require (c.member field)
    pure (.ofCaptured member)
  | .scalar (.text s) =>
    if field = "Length" then do
      let n ← require (h.length s)
      pure (.scalar n)
    else throw (.noMember field ScalarType.text.name)
  | .scalar v => throw (.noMember field (typeNameOrNull v.scalarType))
  | .term t =>
    if field = "Length" then pure (.term (SqlAlgebra.length t)) else throw (.use (.columnMember field))

/-- `sql_text`: the term of what must be a scalar. -/
def scalarTerm (r : Row τ ν) : LowerTo τ ν τ :=
  require r.toTerm

/-- The terms of members, each of which must be a scalar. -/
def scalarTerms : List (String × Row τ ν) → LowerTo τ ν (List τ)
  | [] => pure []
  | (_, r) :: rest => do
    let t ← scalarTerm r
    let ts ← scalarTerms rest
    pure (t :: ts)

/-- `key_fragments`: the terms of a key: one, or one for every member of a row. -/
def keyTerms (key : Row τ ν) : LowerTo τ ν (List τ) :=
  match key with
  | .projected _ list => scalarTerms list
  | .table t => scalarTerms (Entries.ofTable t).list
  | .joined index => do
    let j ← joinAt index
    scalarTerms j.fields.list
  | r => do
    let t ← scalarTerm r
    pure [t]

/-! ## Operators between two expressions -/

/-- Whether a row is the null value. -/
def isNull : Row τ ν → Bool
  | .scalar .null => true
  | _ => false

/-- `binary`: two rows joined by an operator. A comparison with null is a null test, and a sum is a joined text if
either side has the static type of a text. -/
def combine (op : BinaryOp) (concat : Bool) (l r : Row τ ν) : LowerTo τ ν (Row τ ν) := do
  if (op = .eq ∨ op = .ne) ∧ isNull r then
    let t ← scalarTerm l
    pure (.term (SqlAlgebra.nullTest (op = .ne) t))
  else if (op = .eq ∨ op = .ne) ∧ isNull l then
    let t ← scalarTerm r
    pure (.term (SqlAlgebra.nullTest (op = .ne) t))
  else
    let l ← scalarTerm l
    let r ← scalarTerm r
    pure (.term (if concat then SqlAlgebra.concat l r else SqlAlgebra.binary op l r))

/-- Whether a node joins texts: it is a sum with a side whose static type is a text. -/
def joinsTexts (op : BinaryOp) (l r : Expr) : Bool :=
  op = .add && (l.ty.asScalar = some .text || r.ty.asScalar = some .text)

/-! ## Methods -/

/-- The known scalars of a list of rows, if all are known. -/
def knownScalars (rows : List (Row τ ν)) : Option (List Value) :=
  rows.mapM Row.asScalar

/-- `single`: the only argument of a method. -/
def single (method : String) (args : List (Row τ ν)) : LowerTo τ ν (Row τ ν) :=
  match args with
  | [arg] => pure arg
  | args => throw (.use (.argumentCount method args.length))

/-- `method_call`: a method in SQL. -/
def methodTerm (name : String) (t : τ) (args : List (Row τ ν)) : LowerTo τ ν τ :=
  match Method.ofName name with
  | some .toText => pure (SqlAlgebra.toText t)
  | some (.change c) => pure (SqlAlgebra.change c t)
  | some (.test affix) => do
    match ← single name args with
    | .scalar (.text s) => pure (SqlAlgebra.likeText t affix s)
    | needle => do
      let needle ← scalarTerm needle
      pure (SqlAlgebra.likeTerm t affix needle)
  | some (.add part) => do
    let amount ← single name args
    let amount ← scalarTerm amount
    pure (SqlAlgebra.dateAdd part amount t)
  | none => throw (.use (.method name))

/-- `method_call`: a method of a row: carried out at once if all values are known, else in SQL. -/
def callMethod (name : String) (receiver : Row τ ν) (args : List (Row τ ν)) (h : Host := .standard) :
    LowerTo τ ν (Row τ ν) :=
  match receiver.asScalar, knownScalars args with
  | some v, some values => do
    let result ← require (h.invoke v name values)
    pure (.scalar result)
  | _, _ => do
    let t ← scalarTerm receiver
    let result ← methodTerm name t args
    pure (.term result)

/-! ## Query operators -/

/-- An operand of a query operator: its tree, what it stands for, and what it yields as a function. -/
structure Operand (τ : Type := Term) (ν : Type := Nat) where
  expr : Expr
  row : LowerTo τ ν (Row τ ν)
  apply : List (Row τ ν) → LowerTo τ ν (Row τ ν)

/-- The body of a function under any number of quotes. -/
def functionBody? (e : Expr) : Option Expr :=
  match e.unquote with
  | .lambda _ body _ => some body
  | _ => none

/-- `lambda_body`: the body of what must be a function. -/
def functionBody (e : Expr) : LowerTo τ ν Expr :=
  match functionBody? e with
  | some body => pure body
  | none => throw (.form (.lambdaExpected e.kindName))

/-- `argument`: the operand at a position; the source stands at position zero. -/
def operandAt (operator : String) (operands : List (Operand τ ν)) (position : Nat) :
    LowerTo τ ν (Operand τ ν) :=
  match operands[position]? with
  | some operand => pure operand
  | none => throw (.form (.argumentMissing operator position))

/-- `restrict`: adds a condition on rows. -/
def restrict (rows : Row τ ν) (predicate : Operand τ ν) : LowerTo τ ν Unit := do
  if rows.isGroup then throw (.use .groupsFiltered)
  let condition ← predicate.apply [rows]
  let t ← scalarTerm condition
  update (·.filter t)

/-- Adds a condition on rows, if there is one. -/
def restrict? (rows : Row τ ν) (predicate : Option (Operand τ ν)) : LowerTo τ ν Unit :=
  match predicate with
  | some p => restrict rows p
  | none => pure ()

/-- `select`: projects rows. A new object becomes the projection; so does a scalar; a whole row stays what it is. -/
def select (source projection : Operand τ ν) : LowerTo τ ν (Row τ ν) := do
  let rows ← source.row
  let body ← functionBody projection.expr
  match body with
  | .object shape _ ty =>
    match ty.asModel with
    | none => throw (.use .untypedProjection)
    | some model =>
      match ← projection.apply [rows] with
      | .projected _ list =>
        let fields : Entries τ ν := ⟨model.typeName, list⟩
        update (·.project (.object (shape = .positional) model fields))
        pure (.projected model.typeName list)
      | r => pure r
  | _ =>
    let value ← projection.apply [rows]
    match value with
    | .term _ | .scalar _ =>
      update (·.project (.scalar body.ty.asScalar value))
      pure value
    | .table _ | .projected _ _ | .joined _ => pure value
    | r => throw (.use (.selection r.kind))

/-- `order`: sorts rows by the terms of a key. -/
def order (source key : Operand τ ν) (descending restart : Bool) : LowerTo τ ν (Row τ ν) := do
  let rows ← source.row
  let key ← key.apply [rows]
  let keys ← keyTerms key
  update (·.sort keys descending restart)
  pure rows

/-- The term of a group key, which is a single column or scalar. -/
def groupKey (key : Row τ ν) : LowerTo τ ν τ :=
  match key with
  | .term t => pure t
  | .scalar v => scalarTerm (.scalar v)
  | _ => throw (.use .groupByShape)

/-- Whether an expression makes a new object. -/
def isObject : Expr → Bool
  | .object .. => true
  | _ => false

/-- `group_by`: groups rows by a key. -/
def groupBy (source key : Operand τ ν) : LowerTo τ ν (Row τ ν) := do
  let rows ← source.row
  if rows.isGroup then throw (.use .groupsGrouped)
  let body ← functionBody key.expr
  if isObject body then throw (.use .groupByShape)
  let key ← key.apply [rows]
  let t ← groupKey key
  update (·.group t)
  pure (.group t rows)

/-- `take`: limits the number of rows to a known number; a negative one counts as zero. -/
def take (source count : Operand τ ν) : LowerTo τ ν (Row τ ν) := do
  let rows ← source.row
  match ← count.row with
  | .scalar (.int n) =>
    update (·.limit n.toInt.toNat)
    pure rows
  | _ => throw (.use .takeCount)

/-- `first`: the first row. -/
def first (source : Operand τ ν) (predicate : Option (Operand τ ν)) : LowerTo τ ν (Row τ ν) := do
  let rows ← source.row
  restrict? rows predicate
  update (·.limit 1)
  update fun c => { c with first := true }
  pure rows

/-- `count`: the number of rows. -/
def count (source : Operand τ ν) (predicate : Option (Operand τ ν)) : LowerTo τ ν (Row τ ν) := do
  let rows ← source.row
  restrict? rows predicate
  update fun c => { c with count := true }
  pure rows

/-- What a fold without a selector folds: the projected scalar. -/
def projectedScalar (f : Aggregate) : LowerTo τ ν (Row τ ν) := do
  let c ← get
  match c.projection with
  | some (.scalar _ value) => pure value
  | _ => throw (.use (.selectorMissing f.sql))

/-- `aggregate`: folds a value of every row. -/
def fold (f : Aggregate) (source : Operand τ ν) (selector : Option (Operand τ ν)) : LowerTo τ ν (Row τ ν) := do
  let rows ← source.row
  let value ← match selector with
    | some selector => selector.apply [rows]
    | none => projectedScalar f
  let argument ← scalarTerm value
  update fun c => { c with fold := some (f, argument) }
  pure (.term (SqlAlgebra.fold f argument))

/-- `group_aggregate`: folds the rows of one group. -/
def foldGroup (name : String) (f : GroupFold) (group : Operand τ ν) (selector : Option (Operand τ ν)) :
    LowerTo τ ν (Row τ ν) := do
  match ← group.row with
  | .group _ element =>
    match f, selector with
    | .count, none => pure (.term SqlAlgebra.countAll)
    | .count, some predicate =>
      let condition ← predicate.apply [element]
      let t ← scalarTerm condition
      pure (.term (SqlAlgebra.countWhere t))
    | .fold f, some selector =>
      let value ← selector.apply [element]
      let t ← scalarTerm value
      pure (.term (SqlAlgebra.fold f t))
    | .fold _, none => throw (.use (.groupSelectorMissing name))
  | r => throw (.use (.aggregateOver name r.kind))

/-- The members of the rows of a join, and the model of the rows that they are taken from. -/
def joinFields (selected : Row τ ν) : LowerTo τ ν (Entries τ ν × Option Model) :=
  match selected with
  | .projected typeName list => pure (⟨typeName, list⟩, none)
  | .table t => pure (Entries.ofTable t, some t.model)
  | .joined index => do
    let j ← joinAt index
    pure (j.fields, some j.model)
  | r => throw (.use (.joinResult r.kind))

/-- `result_model`: the model of the rows of a join: the static type of the result, else the model of the rows that it
passes on, else an anonymous one. -/
def joinModel (result : Expr) (passedOn : Option Model) (fields : Entries τ ν) : Model :=
  match (functionBody? result).bind (·.ty.asModel), passedOn with
  | some m, _ => m
  | none, some m => m
  | none, none => .anonymous .projection (fields.names.map fun name => (name, none))

/-- `join`: pairs rows with equal keys. The right side must be the rows of a table. -/
def join (outer inner outerKey innerKey result : Operand τ ν) : LowerTo τ ν (Row τ ν) := do
  let outerRows ← outer.row
  if outerRows.isGroup then throw (.use .groupsJoined)
  nextAlias
  match ← inner.row with
  | .table table =>
    let outerValue ← outerKey.apply [outerRows]
    let outerKeys ← keyTerms outerValue
    let innerValue ← innerKey.apply [.table table]
    let innerKeys ← keyTerms innerValue
    if outerKeys.length ≠ innerKeys.length then throw (.use .joinKeyArity)
    let selected ← result.apply [outerRows, .table table]
    let (fields, passedOn) ← joinFields selected
    let model := joinModel result.expr passedOn fields
    update (·.join ⟨⟨table, outerKeys, innerKeys⟩, fields, model⟩)
    let c ← get
    pure (.joined (c.joins.length - 1))
  | r => throw (.use (.joinAgainst r.kind))

/-- `operator`: a query operator by its kind. -/
def operate (name : String) (source : Operand τ ν) (operands : List (Operand τ ν)) :
    QueryOperator → LowerTo τ ν (Row τ ν)
  | .filter => do
    let predicate ← operandAt name operands 1
    let rows ← source.row
    restrict rows predicate
    pure rows
  | .select => do
    let projection ← operandAt name operands 1
    select source projection
  | .order descending restart => do
    let key ← operandAt name operands 1
    order source key descending restart
  | .groupBy => do
    let key ← operandAt name operands 1
    groupBy source key
  | .join =>
    match operands with
    | [outer, inner, outerKey, innerKey, result] => join outer inner outerKey innerKey result
    | operands => throw (.form (.joinArity operands.length))
  | .take => do
    let count ← operandAt name operands 1
    take source count
  | .distinct => do
    let rows ← source.row
    update fun c => { c with distinct := true }
    pure rows
  | .first => first source operands[1]?
  | .count => count source operands[1]?
  | .fold f => fold f source operands[1]?

/-- `operator`: a query operator by its name. Over a row it is an aggregate of a group, where it is one. -/
def callOperator (name : String) (operands : List (Operand τ ν)) : LowerTo τ ν (Row τ ν) := do
  let source ← operandAt name operands 0
  let groupFold := if source.expr.isRowDerived then GroupFold.ofName name else none
  match groupFold, QueryOperator.ofName name with
  | some f, _ => foldGroup name f source operands[1]?
  | none, some op => operate name source operands op
  | none, none => throw (.form (.unknownOperator name))

end Lowering

/-! ## Trees -/

namespace Expr

open Lowering Lower

/-- The name of what an object is made for, in messages. -/
def objectTypeName (ty : StaticType) : String :=
  match ty.asModel with
  | some m => m.typeName
  | none => Model.anonymousName

mutual

/-- `evaluate`: what an expression stands for. -/
def rowOf (env : Env τ ν) (e : Expr) (h : Host := .standard) (watch : Watch τ ν := fun _ m => m) :
    LowerTo τ ν (Row τ ν) :=
  match e with
  | .value v _ => watch env (pure (.scalar v))
  | .captured c _ => watch env (pure (.ofCaptured c))
  | .table m _ => watch env do
    let t ← bindTable m
    pure (.table t)
  | .param name _ => watch env (Lowering.lookup env name)
  | .field target name _ => watch env do
    let target ← rowOf env target h watch
    memberOf target name h
  | .binary op l r _ => watch env do
    let left ← rowOf env l h watch
    let right ← rowOf env r h watch
    combine op (joinsTexts op l r) left right
  | .method target name args _ => watch env do
    let receiver ← rowOf env target h watch
    let args ← rowsOf env args h watch
    Lowering.callMethod name receiver args h
  | .operator name args _ => watch env (callOperator name (operandsOf env args h watch))
  | .lambda _ body _ => watch env (rowOf env body h watch)
  | .quote inner _ => watch env (rowOf env inner h watch)
  | .object _ members ty => watch env do
    let list ← membersOf env members h watch
    pure (.projected (objectTypeName ty) list)

/-- `apply`: what a function yields for given rows, under any number of quotes. -/
def applyTo (env : Env τ ν) (rows : List (Row τ ν)) (e : Expr) (h : Host := .standard)
    (watch : Watch τ ν := fun _ m => m) : LowerTo τ ν (Row τ ν) :=
  match e with
  | .quote inner _ => applyTo env rows inner h watch
  | .lambda params body _ =>
    if params.length = rows.length then rowOf ((params.zip rows).reverse ++ env) body h watch
    else throw (.form (.lambdaArity params.length rows.length))
  | e => throw (.form (.lambdaExpected e.kindName))

/-- What each of several expressions stands for. -/
def rowsOf (env : Env τ ν) (es : List Expr) (h : Host := .standard) (watch : Watch τ ν := fun _ m => m) :
    LowerTo τ ν (List (Row τ ν)) :=
  match es with
  | [] => pure []
  | e :: rest => do
    let r ← rowOf env e h watch
    let rs ← rowsOf env rest h watch
    pure (r :: rs)

/-- The operands of a query operator. -/
def operandsOf (env : Env τ ν) (es : List Expr) (h : Host := .standard) (watch : Watch τ ν := fun _ m => m) :
    List (Operand τ ν) :=
  match es with
  | [] => []
  | e :: rest =>
    ⟨e, rowOf env e h watch, fun rows => applyTo env rows e h watch⟩ :: operandsOf env rest h watch

/-- `object_fields`: the members of a new object. -/
def membersOf (env : Env τ ν) (members : List (String × Expr)) (h : Host := .standard)
    (watch : Watch τ ν := fun _ m => m) : LowerTo τ ν (List (String × Row τ ν)) :=
  match members with
  | [] => pure []
  | member :: rest => do
    let m ← memberRow env member h watch
    let ms ← membersOf env rest h watch
    pure (m :: ms)

/-- A member of a new object. -/
def memberRow (env : Env τ ν) (member : String × Expr) (h : Host := .standard) (watch : Watch τ ν := fun _ m => m) :
    LowerTo τ ν (String × Row τ ν) :=
  match member with
  | (name, e) => do
    let r ← rowOf env e h watch
    pure (name, r)

end

end Expr

end QueryChain
