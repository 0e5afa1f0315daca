import QueryChain.CommandLine.Transcript
import QueryChain.Grammar.Resolve
import QueryChain.Lowering.Compiled
import QueryChain.Tree.Outline

/-!
# Explaining a query

The tree of a query, and what it is compiled to. Below a query that cannot be read stands a caret at the reported
position.

* `RowShape.describe`: the shape of rows in words.
* `CommandLine.explain`: prints the explanation of a query.
-/

namespace QueryChain

/-- `describe_shape`: the shape of rows in words. -/
def RowShape.describe : RowShape → String
  | .entity m => "entity " ++ m.typeName
  | .named m members => m.typeName ++ " \x7b " ++ ", ".intercalate members ++ " \x7d"
  | .positional m => m.typeName ++ "(..) positional"
  | .scalar (some t) => "scalar " ++ t.name
  | .scalar none => "scalar"

/-- What a query returns, in a word. -/
def ResultMode.name : ResultMode → String
  | .rows => "Rows"
  | .first => "First"
  | .count => "Count"
  | .aggregate => "Aggregate"

namespace CommandLine

open Session

/-- A number of blanks. -/
def blanks (n : Nat) : String := String.ofList (List.replicate n ' ')

/-- The lines below a query that cannot be read: the query, and a caret at the reported position. -/
def caretLines (query : String) (e : Fault) : List String :=
  match e with
  | .parse position _ => ["  " ++ query, "  " ++ blanks position ++ "^"]
  | _ => []

/-- The lines about a compiled query. -/
def compiledLines (o : Options) (c : Compiled) : List String :=
  ["Result:",
    "  Dialect: " ++ o.dialect.name,
    "  Mode: " ++ c.mode.name,
    "  Shape: " ++ c.shape.describe] ++
  (c.top.map fun n => "  Top: " ++ toString n).toList ++
  (if c.distinct then ["  Distinct"] else []) ++
  ["", "Generated SQL:", "  " ++ c.sql]

variable {m : Type → Type} [Monad m]

/-- `explain_query`: prints the explanation of a query. -/
def explain (query : String) (schema : Schema) (o : Options) : Session m Unit := do
  sayAll ["exql query explanation", "", "Query: " ++ query, ""]
  match Expr.ofText schema query with
  | .error e => do
    (caretLines query e).forM warn
    throw (.fault none e)
  | .ok e => do
    sayAll ["Expression Tree:", e.outline.render 0, ""]
    let c ← require (e.compile o)
    sayAll (compiledLines o c)

end CommandLine

end QueryChain
