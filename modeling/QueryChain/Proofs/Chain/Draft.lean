import QueryChain.Chain
import QueryChain.Grammar.Resolve

/-!
# Chains of operators, before they are written or built

A chain of query operators over a table can be written as a query text, or be built by a program one operator at a
time. A draft is such a chain on its own: the operators with the functions they are given, and for each function the
names that its writer chose for the parameters.

* `Draft.written`: the syntax tree of a draft, which a query text has.
* `Draft.built`: the same chain, built by a program.
* `Draft.IsWellFormed`: drafts that mean something in a schema.
-/

namespace QueryChain

open Grammar

/-! ## Functions -/

/-- The body of a function of a chain. -/
inductive Body where
  /-- A parameter. -/
  | name (s : String)
  | literal (v : Value)
  | member (target : Body) (field : String)
  | binary (op : BinaryOp) (left right : Body)
  /-- A method of a value. -/
  | method (target : Body) (m : String) (args : List Body)
  /-- A new object with named members. -/
  | object (members : List (String × Body))
  /-- The number of rows of a group, which is a parameter. -/
  | groupCount (group : String)
  /-- A fold over the rows of a group, of what a function of the row gives. -/
  | groupFold (f : Aggregate) (group param : String) (selector : Body)

namespace Body

mutual

/-- The syntax tree of a body. -/
def written : Body → Syntax
  | .name s => .name s
  | .literal v => .literal v
  | .member target field => .member target.written field
  | .binary op left right => .binary op left.written right.written
  | .method target m args => .call target.written m (writtenAll args)
  | .object members => .object (writtenMembers members)
  | .groupCount group => .call (.name group) "Count" []
  | .groupFold f group param selector => .call (.name group) f.name [.lambda [param] selector.written]

/-- The syntax trees of several bodies. -/
def writtenAll : List Body → List Syntax
  | [] => []
  | body :: rest => body.written :: writtenAll rest

/-- The syntax trees of members. -/
def writtenMembers : List (String × Body) → List (String × Syntax)
  | [] => []
  | entry :: rest => writtenMember entry :: writtenMembers rest

/-- The syntax tree of a member. -/
def writtenMember : String × Body → String × Syntax
  | (label, body) => (label, body.written)

end

/-- The expressions that stand for the parameters in scope, innermost first. -/
abbrev Scope := List (String × Expr)

/-- The expression that stands for a parameter. -/
def Scope.find (scope : Scope) (s : String) : Expr :=
  (scope.lookup s).getD (.param s .unknown)

mutual

/-- What a program builds for a body, from the expressions that it is given for the parameters. -/
def built (scope : Scope) : Body → Expr
  | .name s => scope.find s
  | .literal v => .ofValue v
  | .member target field => (target.built scope).member field
  | .binary op left right => .applyOp op (left.built scope) (right.built scope)
  | .method target m args => (target.built scope).callMethod m (builtAll scope args)
  | .object members =>
    .newObject (.anonymous .projection (Expr.memberTypes (builtMembers scope members))) .named
      (builtMembers scope members)
  | .groupCount group => (scope.find group).groupCount
  | .groupFold f group param selector =>
    (scope.find group).groupAggregate f.name fun row => selector.built ((param, row) :: scope)

/-- What a program builds for several bodies. -/
def builtAll (scope : Scope) : List Body → List Expr
  | [] => []
  | body :: rest => body.built scope :: builtAll scope rest

/-- What a program builds for members. -/
def builtMembers (scope : Scope) : List (String × Body) → List (String × Expr)
  | [] => []
  | entry :: rest => builtMember scope entry :: builtMembers scope rest

/-- What a program builds for a member. -/
def builtMember (scope : Scope) : String × Body → String × Expr
  | (label, body) => (label, body.built scope)

end

end Body

/-- Whether the static type of an expression is that of a group. -/
def Expr.isGrouped (e : Expr) : Bool :=
  match e.ty with
  | .grouping _ _ => true
  | _ => false

namespace Body

mutual

/-- Names are parameters in scope, and the aggregates of a group are called on groups and on nothing else: a method of
a group does not have the name of one. -/
def IsWellFormed (scope : Scope) : Body → Prop
  | .name s => (scope.lookup s).isSome = true
  | .literal _ => True
  | .member target _ => target.IsWellFormed scope
  | .binary _ left right => left.IsWellFormed scope ∧ right.IsWellFormed scope
  | .method target m args =>
    target.IsWellFormed scope ∧ ((target.built scope).isGrouped = true → GroupFold.ofName m = none) ∧
      AreWellFormed scope args
  | .object members => AreWellFormedMembers scope members
  | .groupCount group => (scope.lookup group).isSome = true ∧ (scope.find group).isGrouped = true
  | .groupFold _ group param selector =>
    (scope.lookup group).isSome = true ∧ (scope.find group).isGrouped = true ∧
      selector.IsWellFormed ((param, .param "e" (scope.find group).groupElement) :: scope)

/-- All of these bodies are well formed. -/
def AreWellFormed (scope : Scope) : List Body → Prop
  | [] => True
  | body :: rest => body.IsWellFormed scope ∧ AreWellFormed scope rest

/-- The values of all of these members are well formed. -/
def AreWellFormedMembers (scope : Scope) : List (String × Body) → Prop
  | [] => True
  | entry :: rest => IsWellFormedMember scope entry ∧ AreWellFormedMembers scope rest

/-- The value of a member is well formed. -/
def IsWellFormedMember (scope : Scope) : String × Body → Prop
  | (_, body) => body.IsWellFormed scope

end

end Body

/-- A function of a row. -/
structure RowFunction where
  param : String
  body : Body

namespace RowFunction

/-- The syntax tree of a function. -/
def written (f : RowFunction) : Syntax := .lambda [f.param] f.body.written

/-- The function as a program gives it. -/
def built (f : RowFunction) (row : Expr) : Expr := f.body.built [(f.param, row)]

end RowFunction

/-- A function of a pair of rows. -/
structure PairFunction where
  left : String
  right : String
  body : Body

namespace PairFunction

/-- The syntax tree of a function of a pair. -/
def written (f : PairFunction) : Syntax := .lambda [f.left, f.right] f.body.written

/-- The function as a program gives it; of two parameters of one name the right one counts. -/
def built (f : PairFunction) (left right : Expr) : Expr := f.body.built [(f.right, right), (f.left, left)]

end PairFunction

/-! ## Operators -/

/-- A query operator with all that it is given besides its source; joins are none of these. -/
inductive Step where
  | filter (predicate : RowFunction)
  | select (projection : RowFunction)
  | orderBy (key : RowFunction)
  | orderByDesc (key : RowFunction)
  | thenBy (key : RowFunction)
  | thenByDesc (key : RowFunction)
  | groupBy (key : RowFunction)
  | take (n : Int64)
  | distinct
  | first
  | firstOrDefault
  | firstWhere (predicate : RowFunction)
  | count
  | countWhere (predicate : RowFunction)
  | fold (f : Aggregate) (selector : RowFunction)

namespace Step

/-- The name of an operator. -/
def name : Step → String
  | .filter _ => "Where"
  | .select _ => "Select"
  | .orderBy _ => "OrderBy"
  | .orderByDesc _ => "OrderByDescending"
  | .thenBy _ => "ThenBy"
  | .thenByDesc _ => "ThenByDescending"
  | .groupBy _ => "GroupBy"
  | .take _ => "Take"
  | .distinct => "Distinct"
  | .first | .firstWhere _ => "First"
  | .firstOrDefault => "FirstOrDefault"
  | .count | .countWhere _ => "Count"
  | .fold f _ => f.name

/-- The function that an operator is given. -/
def function? : Step → Option RowFunction
  | .filter f | .select f | .orderBy f | .orderByDesc f | .thenBy f | .thenByDesc f | .groupBy f
  | .firstWhere f | .countWhere f | .fold _ f => some f
  | .take _ | .distinct | .first | .firstOrDefault | .count => none

/-- The syntax trees of what an operator is given. -/
def written (s : Step) : List Syntax :=
  match s with
  | .take n => [.literal (.int n)]
  | s => (s.function?.map RowFunction.written).toList

/-- The operator after a chain that a program builds. -/
def built (q : Chain) : Step → Chain
  | .filter f => q.filter f.built
  | .select f => q.select f.built
  | .orderBy f => q.orderBy f.built
  | .orderByDesc f => q.orderByDesc f.built
  | .thenBy f => q.thenBy f.built
  | .thenByDesc f => q.thenByDesc f.built
  | .groupBy f => q.groupBy f.built
  | .take n => q.take n
  | .distinct => q.distinct
  | .first => q.first
  | .firstOrDefault => q.firstOrDefault
  | .firstWhere f => q.firstWhere f.built
  | .count => q.count
  | .countWhere f => q.countWhere f.built
  | .fold .sum f => q.sum f.built
  | .fold .min f => q.min f.built
  | .fold .max f => q.max f.built
  | .fold .average f => q.average f.built

/-- Whether an operator ends a chain: what it yields is no sequence. -/
def isLast : Step → Bool
  | .first | .firstOrDefault | .firstWhere _ | .count | .countWhere _ | .fold _ _ => true
  | _ => false

end Step

/-! ## Chains -/

/-- A chain of query operators over the table of a model. -/
inductive Draft where
  | table (name : String)
  | step (source : Draft) (s : Step)
  | join (source inner : Draft) (outerKey innerKey : RowFunction) (result : PairFunction)

namespace Draft

/-- The syntax tree of a draft. -/
def written : Draft → Syntax
  | .table name => .name name
  | .step source s => .call source.written s.name s.written
  | .join source inner outerKey innerKey result =>
    .call source.written "Join" [inner.written, outerKey.written, innerKey.written, result.written]

/-- The chain that a program builds. -/
def built (schema : Schema) : Draft → Chain
  | .table name => .ofModel ((schema.find name).getD default)
  | .step source s => s.built (source.built schema)
  | .join source inner outerKey innerKey result =>
    (source.built schema).join (inner.built schema) outerKey.built innerKey.built result.built

/-- Whether another operator may come after a draft. -/
def isOpen : Draft → Bool
  | .step _ s => !s.isLast
  | _ => true

/-- Tables are found in the schema, nothing comes after the end of a chain, and functions are well formed. -/
def IsWellFormed (schema : Schema) : Draft → Prop
  | .table name => (schema.find name).isSome = true
  | .step source s =>
    source.IsWellFormed schema ∧ source.isOpen = true ∧ ∀ f, s.function? = some f →
      f.body.IsWellFormed [(f.param, .param "x" (source.built schema).elementType)]
  | .join source inner outerKey innerKey result =>
    source.IsWellFormed schema ∧ source.isOpen = true ∧ inner.IsWellFormed schema ∧
      outerKey.body.IsWellFormed [(outerKey.param, .param "x" (source.built schema).elementType)] ∧
      innerKey.body.IsWellFormed [(innerKey.param, .param "y" (inner.built schema).elementType)] ∧
      result.body.IsWellFormed [(result.right, .param "i" (inner.built schema).elementType),
        (result.left, .param "o" (source.built schema).elementType)]

end Draft

end QueryChain
