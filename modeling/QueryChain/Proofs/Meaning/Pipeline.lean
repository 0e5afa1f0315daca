import QueryChain.Proofs.Meaning.Settle

/-!
# Chains of operators

A pipeline is a chain of query operators as data. It has two readings. In the first, every operator takes the
rows that the one before it has left. In the second, all filters, projections, sort keys and joins are carried out
first, and duplicates and limits last, wherever in the chain they stand. The second is what one block of SQL can
say; the two agree for pipelines in which no operator comes after one that is carried out later.

* `Expr.IsChain`: the pipeline that a tree is.
* `Pipeline.Returns`: what a pipeline returns, one operator after another.
* `Pipeline.ReturnsLate`: the same with duplicates dropped and limits applied last.
* `Pipeline.InOrder`: no operator comes after one that is carried out later.
-/

namespace QueryChain

/-- A chain of query operators over a table. -/
inductive Pipeline where
  | table (m : Model)
  | filter (source : Pipeline) (predicate : Expr)
  | select (source : Pipeline) (projection : Expr)
  | order (source : Pipeline) (key : Expr) (descending restart : Bool)
  | distinct (source : Pipeline)
  | take (source : Pipeline) (count : Expr)
  | join (outer inner : Pipeline) (outerKey innerKey result : Expr)

namespace Expr

/-- A tree is a chain of operators, each with functions over rows. -/
inductive IsChain : Expr → Pipeline → Prop
  | table (m : Model) (ty : StaticType) : IsChain (.table m ty) (.table m)
  | filter {source predicate : Expr} {p : Pipeline} {rest : List Expr} {ty : StaticType}
      (hsource : IsChain source p) (hpredicate : predicate.isRowFunction = true) :
      IsChain (.operator "Where" (source :: predicate :: rest) ty) (.filter p predicate)
  | select {source projection : Expr} {p : Pipeline} {rest : List Expr} {ty : StaticType}
      (hsource : IsChain source p) (hprojection : projection.isRowFunction = true) :
      IsChain (.operator "Select" (source :: projection :: rest) ty) (.select p projection)
  | order {name : String} {source key : Expr} {p : Pipeline} {descending restart : Bool} {rest : List Expr}
      {ty : StaticType} (hname : QueryOperator.ofName name = some (.order descending restart))
      (hsource : IsChain source p) (hkey : key.isRowFunction = true) :
      IsChain (.operator name (source :: key :: rest) ty) (.order p key descending restart)
  | distinct {source : Expr} {p : Pipeline} {rest : List Expr} {ty : StaticType} (hsource : IsChain source p) :
      IsChain (.operator "Distinct" (source :: rest) ty) (.distinct p)
  | take {source count : Expr} {p : Pipeline} {rest : List Expr} {ty : StaticType}
      (hsource : IsChain source p) (hcount : count.isRowExpr = true) :
      IsChain (.operator "Take" (source :: count :: rest) ty) (.take p count)
  | join {outer inner outerKey innerKey result : Expr} {p q : Pipeline} {ty : StaticType}
      (houter : IsChain outer p) (hinner : IsChain inner q) (houterKey : outerKey.isRowFunction = true)
      (hinnerKey : innerKey.isRowFunction = true) (hresult : result.isRowFunction = true) :
      IsChain (.operator "Join" [outer, inner, outerKey, innerKey, result] ty)
        (.join p q outerKey innerKey result)

/-- Whether a function yields a member of an object that it has just made. -/
def readsNewObject : Expr → Bool
  | .quote f _ => readsNewObject f
  | .lambda _ body _ => readsNewObject body
  | .field target _ _ => Lowering.isObject target || readsNewObject target
  | _ => false

end Expr

/-- A row on its way through a pipeline, with the keys that it is to be sorted by. -/
structure Ranked (E : Engine) where
  item : Item E.Datum
  keys : List E.Key

namespace Ranked

variable {E : Engine}

/-- Adds the scalars of a key, after forgetting earlier keys on a restart. -/
def sort (key : Expr) (descending restart : Bool) (a : Ranked E) : Ranked E where
  item := a.item
  keys := (if restart then [] else a.keys) ++ (E.cells (E.apply [a.item] key)).map fun d => (d, descending)

/-- Projects a row, which stays where it stands. -/
def project (projection : Expr) (a : Ranked E) : Ranked E := ⟨E.apply [a.item] projection, a.keys⟩

/-- Whether two rows have equal keys. -/
def pairs (outerKey innerKey : Expr) (a b : Ranked E) : Bool :=
  E.agree (E.apply [a.item] outerKey) (E.apply [b.item] innerKey)

end Ranked

namespace Pipeline

variable (E : Engine) (db : E.Database)

/-! ## One operator after another -/

/-- What is left of the rows after each operator. The rows of a join are sorted like the outer rows, and those
that are equal there like the inner ones. -/
def Yields : Pipeline → List (Ranked E) → Prop
  | .table m, rows => rows = (db m.table).map fun row => ⟨E.ofRecord m row, []⟩
  | .filter p predicate, rows => ∃ before, Yields p before ∧ rows = before.filter (E.keeps predicate ·.item)
  | .select p projection, rows => ∃ before, Yields p before ∧ rows = before.map (Ranked.project projection)
  | .order p key descending restart, rows =>
    ∃ before, Yields p before ∧ rows = before.map (Ranked.sort key descending restart)
  | .distinct p, rows => ∃ before, Yields p before ∧ Picks (E.cells ·.item) before rows
  | .take p count, rows =>
    ∃ before arranged, Yields p before ∧ Arranges Ranked.keys before arranged ∧
      rows = arranged.take (E.number count)
  | .join p q outerKey innerKey result, rows =>
    ∃ outer inner, Yields p outer ∧ Yields q inner ∧
      rows = outer.flatMap fun a => (inner.filter (Ranked.pairs outerKey innerKey a)).map fun b =>
        ⟨E.apply [a.item, b.item] result, a.keys ++ b.keys⟩

/-- What a pipeline returns, one operator after another. -/
def Returns (p : Pipeline) (result : List (List E.Datum)) : Prop :=
  ∃ rows, p.Yields E db rows ∧ Settles (E.cells ·.item) Ranked.keys false none rows result

/-! ## Duplicates and limits last -/

/-- The rows of a pipeline if duplicates and limits are passed over. The keys of the outer rows of a join are handed on
to its inner side. -/
def rows : Pipeline → List E.Key → List (Ranked E)
  | .table m, keys => (db m.table).map fun row => ⟨E.ofRecord m row, keys⟩
  | .filter p predicate, keys => (rows p keys).filter (E.keeps predicate ·.item)
  | .select p projection, keys => (rows p keys).map (Ranked.project projection)
  | .order p key descending restart, keys => (rows p keys).map (Ranked.sort key descending restart)
  | .distinct p, keys | .take p _, keys => rows p keys
  | .join p q outerKey innerKey result, keys =>
    (rows p keys).flatMap fun a => ((rows q a.keys).filter (Ranked.pairs outerKey innerKey a)).map fun b =>
      ⟨E.apply [a.item, b.item] result, b.keys⟩

/-- Whether duplicates are dropped anywhere. -/
def isDistinct : Pipeline → Bool
  | .table _ => false
  | .filter p _ | .select p _ | .order p _ _ _ | .take p _ => isDistinct p
  | .distinct _ => true
  | .join p q _ _ _ => isDistinct p || isDistinct q

/-- The smaller of two limits. -/
def leastLimit : Option Nat → Option Nat → Option Nat
  | none, limit | limit, none => limit
  | some m, some n => some (min m n)

/-- The least limit, if there is one anywhere. -/
def limit : Pipeline → Option Nat
  | .table _ => none
  | .filter p _ | .select p _ | .order p _ _ _ | .distinct p => limit p
  | .take p count => leastLimit (limit p) (some (E.number count))
  | .join p q _ _ _ => leastLimit (limit p) (limit q)

/-- What a pipeline returns if duplicates are dropped and the least limit is applied last. -/
def ReturnsLate (p : Pipeline) (result : List (List E.Datum)) : Prop :=
  Settles (E.cells ·.item) Ranked.keys p.isDistinct (p.limit E) (p.rows E db []) result

/-! ## The order of operators -/

/-- Whether there is a limit anywhere. -/
def isLimited : Pipeline → Bool
  | .table _ => false
  | .filter p _ | .select p _ | .order p _ _ _ | .distinct p => isLimited p
  | .take _ _ => true
  | .join p q _ _ _ => isLimited p || isLimited q

/-- Whether rows are sorted anywhere. -/
def isSorted : Pipeline → Bool
  | .table _ => false
  | .filter p _ | .select p _ | .distinct p | .take p _ => isSorted p
  | .order _ _ _ _ => true
  | .join p q _ _ _ => isSorted p || isSorted q

/-- Whether earlier sort keys are forgotten anywhere. -/
def restarts : Pipeline → Bool
  | .table _ => false
  | .filter p _ | .select p _ | .distinct p | .take p _ => restarts p
  | .order p _ _ restart => restart || restarts p
  | .join p q _ _ _ => restarts p || restarts q

/-- No operator comes after one that is carried out later: only projections and limits after a limit, no projection
or join after duplicates are dropped, neither of them on the inner side of a join, and no new sort order there if the
outer rows are sorted. -/
def InOrder : Pipeline → Prop
  | .table _ => True
  | .filter p _ | .order p _ _ _ | .distinct p => InOrder p ∧ p.isLimited = false
  | .select p _ => InOrder p ∧ p.isDistinct = false
  | .take p _ => InOrder p
  | .join p q _ _ _ =>
    (InOrder p ∧ p.isLimited = false ∧ p.isDistinct = false) ∧
      (InOrder q ∧ q.isLimited = false ∧ q.isDistinct = false) ∧ (p.isSorted = false ∨ q.restarts = false)

/-- Whether there is no join. -/
def isJoinFree : Pipeline → Bool
  | .table _ => true
  | .filter p _ | .select p _ | .order p _ _ _ | .distinct p | .take p _ => isJoinFree p
  | .join _ _ _ _ _ => false

/-- The inner side of no join holds a join. -/
def NestsNoJoin : Pipeline → Prop
  | .table _ => True
  | .filter p _ | .select p _ | .order p _ _ _ | .distinct p | .take p _ => NestsNoJoin p
  | .join p q _ _ _ => NestsNoJoin p ∧ q.isJoinFree = true

/-- No projection since the last join yields a member of an object that it has just made. -/
def KeepsRows : Pipeline → Prop
  | .table _ | .join _ _ _ _ _ => True
  | .filter p _ | .order p _ _ _ | .distinct p | .take p _ => KeepsRows p
  | .select p projection => KeepsRows p ∧ projection.readsNewObject = false

theorem nestsNoJoin_of_isJoinFree {p : Pipeline} (h : p.isJoinFree = true) : p.NestsNoJoin := by
  induction p with
  | table m => trivial
  | filter p predicate ih => exact ih h
  | select p projection ih => exact ih h
  | order p key descending restart ih => exact ih h
  | distinct p ih => exact ih h
  | take p count ih => exact ih h
  | join p q outerKey innerKey result => exact absurd h Bool.false_ne_true

theorem leastLimit_assoc (l m n : Option Nat) :
    leastLimit (leastLimit l m) n = leastLimit l (leastLimit m n) := by
  cases l <;> cases m <;> cases n <;> simp [leastLimit, Nat.min_assoc]

@[simp] theorem leastLimit_none (l : Option Nat) : leastLimit l none = l := by
  cases l <;> rfl

end Pipeline

end QueryChain
