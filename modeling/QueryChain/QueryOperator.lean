import QueryChain.Fault

/-!
# Query operators

The operators that a chain is made of, and their names in query texts and trees.

* `QueryOperator.ofName`: the operator that a name stands for.
-/

namespace QueryChain

/-- `AGGREGATES`: a function that folds the values of a column. -/
inductive Aggregate where
  | sum
  | min
  | max
  | average
deriving DecidableEq, Repr

namespace Aggregate

/-- The name of an aggregate in queries. -/
def name : Aggregate → String
  | .sum => "Sum"
  | .min => "Min"
  | .max => "Max"
  | .average => "Average"

/-- `aggregate_function`: the function in SQL. -/
def sql : Aggregate → String
  | .sum => "SUM"
  | .min => "MIN"
  | .max => "MAX"
  | .average => "AVG"

/-- The aggregate with a name. -/
def ofName (s : String) : Option Aggregate :=
  [sum, min, max, average].find? (·.name = s)

@[simp] theorem ofName_name (f : Aggregate) : ofName f.name = some f := by
  cases f <;> decide

end Aggregate

/-- A query operator. -/
inductive QueryOperator where
  /-- `Where`: keeps the rows that meet a condition. -/
  | filter
  /-- `Select`: projects every row. -/
  | select
  /-- `OrderBy` and `ThenBy`: sorts by a key; the former forgets earlier keys. -/
  | order (descending restart : Bool)
  /-- `GroupBy`: groups the rows by a key. -/
  | groupBy
  /-- `Join`: pairs rows with equal keys. -/
  | join
  /-- `Take`: keeps the first rows. -/
  | take
  /-- `Distinct`: keeps one of equal rows. -/
  | distinct
  /-- `First` and `FirstOrDefault`: the first row, of those that meet a condition. -/
  | first
  /-- `Count` and `LongCount`: the number of rows, of those that meet a condition. -/
  | count
  /-- `Sum`, `Min`, `Max`, `Average`: folds a value of every row. -/
  | fold (f : Aggregate)
deriving DecidableEq, Repr

namespace QueryOperator

/-- The operators with one name each. -/
def named : List (String × QueryOperator) :=
  [("Where", .filter), ("Select", .select),
    ("OrderBy", .order false true), ("OrderByDescending", .order true true),
    ("ThenBy", .order false false), ("ThenByDescending", .order true false),
    ("GroupBy", .groupBy), ("Join", .join), ("Take", .take), ("Distinct", .distinct),
    ("First", .first), ("FirstOrDefault", .first), ("Count", .count), ("LongCount", .count),
    ("Sum", .fold .sum), ("Min", .fold .min), ("Max", .fold .max), ("Average", .fold .average)]

/-- The operator that a name stands for. -/
def ofName (name : String) : Option QueryOperator :=
  named.lookup name

end QueryOperator

/-- An aggregate over the rows of one group. -/
inductive GroupFold where
  | count
  | fold (f : Aggregate)
deriving DecidableEq, Repr

/-- `GROUP_AGGREGATES`: the group aggregate that a name stands for; `LongCount` is none. -/
def GroupFold.ofName (name : String) : Option GroupFold :=
  if name = "Count" then some .count else (Aggregate.ofName name).map .fold

end QueryChain
