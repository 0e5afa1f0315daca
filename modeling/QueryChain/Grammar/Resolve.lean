import QueryChain.Grammar.Query
import QueryChain.QueryOperator
import QueryChain.Schema
import QueryChain.Tree.Build

/-!
# Resolving names

A syntax tree becomes an expression tree when its names are looked up: a name is a parameter of an enclosing
function, the innermost first, or a model of the schema. The static type of a target decides what a call on it
is: on a sequence a query operator, on a group an aggregate of its rows, on anything else a method.

Arguments beyond those that an operator takes are left out.

* `Expr.ofSyntax`: the expression tree of a syntax tree.
* `Expr.ofText`: the expression tree of a query text.
-/

namespace QueryChain.Grammar

/-- The parameters in scope with their types, innermost first. -/
abbrev TypeScope := List (String × StaticType)

/-- `name`: a name in scope is a parameter, any other must be a model of the schema. -/
def resolveName (schema : Schema) (scope : TypeScope) (name : String) : Except Fault Expr :=
  match scope.lookup name with
  | some ty => .ok (.param name ty)
  | none => match schema.find name with
    | some m => .ok (.ofTable m)
    | none => .error (.unbound name)

/-- `aggregate_type`: the static type of an aggregate: counts are integers, averages floats, and the rest have the
type of what they fold. -/
def foldType (name : String) (selector : Option Expr) (fallback : StaticType) : StaticType :=
  if name = "Count" then .scalar .int
  else if name = "Average" then .scalar .float
  else match selector with
    | some e => e.ty
    | none => fallback

/-- The scope of the body of a function whose parameters have these names and types. -/
def TypeScope.enter (scope : TypeScope) (names : List String) (types : List StaticType) : TypeScope :=
  (names.zip types).reverse ++ scope

/-! ## Calls -/

/-- An argument of a call, in the two ways it may be used. -/
structure Argument where
  /-- As a value. -/
  value : Except Fault Expr
  /-- As a function whose parameters have the given types. -/
  function : List StaticType → Except Fault Expr

/-- The argument at a position, counted from one. -/
def requireArgument (method : String) (args : List Argument) (position : Nat) :
    Except Fault Argument :=
  match args[position - 1]? with
  | some arg => .ok arg
  | none => .error (.form (.argumentMissing method position))

/-- `optional_lambda`: the first argument as a function of a row, if there is one. -/
def rowFunction? (element : StaticType) (args : List Argument) : Except Fault (List Expr) :=
  match args with
  | [] => .ok []
  | arg :: _ => do
    let f ← arg.function [element]
    pure [f]

/-- The first argument as a function of a row. -/
def rowFunction (method : String) (element : StaticType) (args : List Argument) :
    Except Fault Expr := do
  let arg ← requireArgument method args 1
  arg.function [element]

/-- `operator`: a query operator on a source with elements of the given type. -/
def resolveOperator (source : Expr) (element : StaticType) (method : String) (args : List Argument) :
    QueryOperator → Except Fault Expr
  | .filter | .order _ _ => do
    let f ← rowFunction method element args
    pure (.operator method [source, f] source.ty)
  | .select => do
    let projection ← rowFunction method element args
    pure (.operator method [source, projection] (.sequence projection.ty))
  | .groupBy => do
    let key ← rowFunction method element args
    pure (.operator method [source, key] (.sequence (.grouping key.ty element)))
  | .join => do
    let inner ← requireArgument method args 1
    let inner ← inner.value
    let innerElement := inner.ty.element
    let outerKey ← requireArgument method args 2
    let outerKey ← outerKey.function [element]
    let innerKey ← requireArgument method args 3
    let innerKey ← innerKey.function [innerElement]
    let result ← requireArgument method args 4
    let result ← result.function [element, innerElement]
    pure (.operator method [source, inner, outerKey, innerKey, result] (.sequence result.ty))
  | .take => do
    let count ← requireArgument method args 1
    let count ← count.value
    pure (.operator method [source, count] source.ty)
  | .distinct => .ok (.operator method [source] source.ty)
  | .first => do
    let predicate ← rowFunction? element args
    pure (.operator method (source :: predicate) element)
  | .count => do
    let predicate ← rowFunction? element args
    pure (.operator method (source :: predicate) (.scalar .int))
  | .fold _ => do
    let selector ← rowFunction? element args
    pure (.operator method (source :: selector) (foldType method selector.head? element))

/-- A method of a value. -/
def resolveMethod (target : Expr) (method : String) (args : List Argument) : Except Fault Expr := do
  let args ← args.mapM Argument.value
  pure (target.callMethod method args)

/-- `call`: a call on a target: a query operator on a sequence, an aggregate on a group, else a method. -/
def resolveCall (target : Expr) (method : String) (args : List Argument) : Except Fault Expr :=
  match target.ty with
  | .sequence element =>
    match QueryOperator.ofName method with
    | some op => resolveOperator target element method args op
    | none => .error (.form (.unknownOperator method))
  | .grouping _ element =>
    if (GroupFold.ofName method).isSome then do
      let selector ← rowFunction? element args
      pure (.operator method (target :: selector) (foldType method selector.head? .unknown))
    else resolveMethod target method args
  | _ => resolveMethod target method args

/-! ## Trees -/

mutual

/-- `resolve`: the expression of a syntax tree. -/
def resolve (schema : Schema) (scope : TypeScope) : Syntax → Except Fault Expr
  | .literal v => .ok (.ofValue v)
  | .name name => resolveName schema scope name
  | .member target field => do
    let target ← resolve schema scope target
    pure (target.member field)
  | .binary op left right => do
    let left ← resolve schema scope left
    let right ← resolve schema scope right
    pure (.applyOp op left right)
  | .object members => do
    let members ← resolveMembers schema scope members
    pure (.newObject (.anonymous .projection (Expr.memberTypes members)) .named members)
  | .lambda _ _ => .error (.form .lambdaOutsideOperator)
  | .call target method args => do
    let target ← resolve schema scope target
    resolveCall target method (argumentsOf schema scope args)
  | .freeCall method args =>
    match args with
    | [] => .error (.form (.sourceMissing method))
    | first :: rest => do
      let target ← resolve schema scope first
      resolveCall target method (argumentsOf schema scope rest)

/-- `lambda`: a function whose parameters have the given types. -/
def resolveFunction (schema : Schema) (scope : TypeScope) (types : List StaticType) :
    Syntax → Except Fault Expr
  | .lambda names body =>
    if names.length = types.length then do
      let body ← resolve schema (scope.enter names types) body
      pure (Expr.function names body).quoted
    else .error (.form (.lambdaArity names.length types.length))
  | _ => .error (.form .lambdaArgumentExpected)

/-- The arguments of a call. -/
def argumentsOf (schema : Schema) (scope : TypeScope) : List Syntax → List Argument
  | [] => []
  | arg :: rest =>
    ⟨resolve schema scope arg, fun types => resolveFunction schema scope types arg⟩ ::
      argumentsOf schema scope rest

/-- `new_object`: the members of a new object. -/
def resolveMembers (schema : Schema) (scope : TypeScope) :
    List (String × Syntax) → Except Fault (List (String × Expr))
  | [] => .ok []
  | member :: rest => do
    let member ← resolveMember schema scope member
    let rest ← resolveMembers schema scope rest
    pure (member :: rest)

/-- A member of a new object. -/
def resolveMember (schema : Schema) (scope : TypeScope) :
    String × Syntax → Except Fault (String × Expr)
  | (name, value) => do
    let value ← resolve schema scope value
    pure (name, value)

end

end QueryChain.Grammar

namespace QueryChain

/-- The expression tree of a syntax tree. -/
def Expr.ofSyntax (schema : Schema) (tree : Syntax) : Except Fault Expr :=
  Grammar.resolve schema [] tree

/-- `parse`: the expression tree of a query text. -/
def Expr.ofText (schema : Schema) (text : String) : Except Fault Expr := do
  let tree ← Syntax.ofText text
  Expr.ofSyntax schema tree

end QueryChain
