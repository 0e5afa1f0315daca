import QueryChain.Tree.Build

/-!
# Building chains

A chain of query operators over a table, built one operator at a time. Each step types its result, and gives the
row that it ranges over to the function that it is built with.

* `Chain.elementType`: the type of the rows that come out of a chain.
* `Chain.keepType`: filters, sorts and limits, which leave the type of a chain alone.
-/

namespace QueryChain

/-- `QueryBuilder`: a chain of query operators. -/
structure Chain where
  expr : Expr

namespace Chain

/-- `from_model`: the rows of the table of a model. -/
def ofModel (m : Model) : Chain := ⟨.ofTable m⟩

/-- `element_type`: the type of the rows that come out of a chain. -/
def elementType (q : Chain) : StaticType := q.expr.ty.element

/-- `apply`: puts an operator with arguments and a result type after a chain. -/
def apply (q : Chain) (operator : String) (args : List Expr) (ty : StaticType) : Chain :=
  ⟨.operator operator (q.expr :: args) ty⟩

/-- `row_lambda`: a function of one row of a chain, passed as data. -/
def rowFunction (q : Chain) (body : Expr → Expr) : Expr :=
  (Expr.function ["x"] (body (.param "x" q.elementType))).quoted

/-- `keep_type`: puts an operator after a chain that leaves its type alone. -/
def keepType (q : Chain) (operator : String) (args : List Expr) : Chain :=
  q.apply operator args q.expr.ty

/-- `filter`: keeps the rows that meet a condition. -/
def filter (q : Chain) (predicate : Expr → Expr) : Chain :=
  q.keepType "Where" [q.rowFunction predicate]

/-- `select`: projects every row. -/
def select (q : Chain) (projection : Expr → Expr) : Chain :=
  let f := q.rowFunction projection
  q.apply "Select" [f] (.sequence f.ty)

/-- `order_by`: sorts by a key. -/
def orderBy (q : Chain) (key : Expr → Expr) : Chain :=
  q.keepType "OrderBy" [q.rowFunction key]

/-- `order_by_desc`: sorts by a key, greatest first. -/
def orderByDesc (q : Chain) (key : Expr → Expr) : Chain :=
  q.keepType "OrderByDescending" [q.rowFunction key]

/-- `then_by`: sorts rows that are equal so far by a further key. -/
def thenBy (q : Chain) (key : Expr → Expr) : Chain :=
  q.keepType "ThenBy" [q.rowFunction key]

/-- `then_by_desc`: sorts rows that are equal so far by a further key, greatest first. -/
def thenByDesc (q : Chain) (key : Expr → Expr) : Chain :=
  q.keepType "ThenByDescending" [q.rowFunction key]

/-- `group_by`: groups rows by a key. -/
def groupBy (q : Chain) (key : Expr → Expr) : Chain :=
  let f := q.rowFunction key
  q.apply "GroupBy" [f] (.sequence (.grouping f.ty q.elementType))

/-- `join`: pairs the rows of two chains that have equal keys. -/
def join (q inner : Chain) (outerKey innerKey : Expr → Expr) (result : Expr → Expr → Expr) : Chain :=
  let outerType := q.elementType
  let innerType := inner.elementType
  let outerFunction := q.rowFunction outerKey
  let innerFunction := (Expr.function ["y"] (innerKey (.param "y" innerType))).quoted
  let resultFunction :=
    (Expr.function ["o", "i"] (result (.param "o" outerType) (.param "i" innerType))).quoted
  q.apply "Join" [inner.expr, outerFunction, innerFunction, resultFunction]
    (.sequence resultFunction.ty)

/-- `take`: keeps the first rows. -/
def take (q : Chain) (n : Int64) : Chain :=
  q.keepType "Take" [.ofValue (.int n)]

/-- `distinct`: keeps one of equal rows. -/
def distinct (q : Chain) : Chain :=
  q.keepType "Distinct" []

/-- `first`: the first row. -/
def first (q : Chain) : Chain :=
  q.apply "First" [] q.elementType

/-- `first_or_default`: the first row, or a default. -/
def firstOrDefault (q : Chain) : Chain :=
  q.apply "FirstOrDefault" [] q.elementType

/-- `first_where`: the first row that meets a condition. -/
def firstWhere (q : Chain) (predicate : Expr → Expr) : Chain :=
  q.apply "First" [q.rowFunction predicate] q.elementType

/-- `count`: the number of rows. -/
def count (q : Chain) : Chain :=
  q.apply "Count" [] (.scalar .int)

/-- `count_where`: the number of rows that meet a condition. -/
def countWhere (q : Chain) (predicate : Expr → Expr) : Chain :=
  q.apply "Count" [q.rowFunction predicate] (.scalar .int)

/-- `aggregate`: a fold of a value of every row. -/
def fold (q : Chain) (operator : String) (selector : Expr → Expr) : Chain :=
  let f := q.rowFunction selector
  q.apply operator [f] (if operator = "Average" then .scalar .float else f.ty)

/-- `sum`: the sum of a value of every row. -/
def sum (q : Chain) (selector : Expr → Expr) : Chain := q.fold "Sum" selector

/-- `min`: the least value of all rows. -/
def min (q : Chain) (selector : Expr → Expr) : Chain := q.fold "Min" selector

/-- `max`: the greatest value of all rows. -/
def max (q : Chain) (selector : Expr → Expr) : Chain := q.fold "Max" selector

/-- `average`: the mean of a value of every row. -/
def average (q : Chain) (selector : Expr → Expr) : Chain := q.fold "Average" selector

end Chain

end QueryChain
