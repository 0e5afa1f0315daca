import QueryChain.Rows.Materialize
import QueryChain.Rows.Source

/-!
# Running queries

A query owns a tree, options and the compiled statement, once there is one. Running it opens the source, runs the
statement, reads the cursor to its end and closes the source; the source is closed even if reading fails, and
a failure to read comes before a failure to close.

* `Query.compile`: compiles once, and gives the same answer from then on.
* `Query.sql`: the text of the statement.
* `Query.execute`: runs a query on a source.
* `Query.fetchAll`, `fetchFirst`, `fetchCount`, `fetchScalar`: one kind of result each.
* `fetchRaw`: runs a given statement.
-/

namespace QueryChain

/-- `Query`: a query that is compiled when it is first needed. -/
structure Query where
  expr : Expr
  options : Options
  compiled : Option Compiled

/-- `QueryOutput`: what running a query yields. -/
inductive QueryOutput where
  | rows (rows : List RowValue)
  | first (row : Option RowValue)
  | count (n : Int64)
  | scalar (v : Value)
deriving Inhabited

/-- `describe`: what a query yields, in messages. -/
def QueryOutput.name : QueryOutput → String
  | .rows _ => "rows"
  | .first _ => "a single row"
  | .count _ => "a count"
  | .scalar _ => "a scalar"

/-! ## Reading cursors -/

/-- A step of a run on a source. -/
abbrev Run (σ : Type) (α : Type) := ExceptT Fault (StateM σ) α

section

variable {σ : Type} [RowSource σ]

/-- A step of the source as a step of a run. -/
def Run.ofSource {α : Type} (step : SourceStep σ α) : Run σ α := fun s =>
  match step s with
  | (.ok a, s) => (.ok a, s)
  | (.error message, s) => (.error (.source message), s)

/-- A step that fails or yields, and leaves the source alone. -/
def Run.require {α : Type} (r : Except Fault α) : Run σ α := fun s => (r, s)

/-- `advance`: goes to the next row. -/
def Run.advance (c : Cursor) : Run σ (Bool × Cursor) := do
  Run.ofSource RowSource.beforeAdvance
  pure c.advance

/-- Reads every row that remains, at most `fuel` of them. -/
def Run.eachRow {α : Type} (read : Cursor → Except Fault α) : Nat → Cursor → Run σ (List α × Cursor)
  | fuel, c => do
    let (more, c) ← Run.advance c
    if more then
      let a ← Run.require (read c)
      match fuel with
      | 0 => pure ([a], c)
      | fuel + 1 => do
        let (rest, c) ← Run.eachRow read fuel c
        pure (a :: rest, c)
    else pure ([], c)

/-- Reads every row that remains. -/
def Run.allRows {α : Type} (read : Cursor → Except Fault α) (c : Cursor) : Run σ (List α × Cursor) :=
  Run.eachRow read c.remaining.length c

/-- `drain`: goes past the rows that remain. -/
def Run.drain (c : Cursor) : Run σ Cursor := do
  let (_, c) ← Run.allRows (fun _ => .ok ()) c
  pure c

/-- Reads one row if there is one, and goes past the rest. -/
def Run.firstRow {α : Type} (read : Cursor → Except Fault α) (c : Cursor) :
    Run σ (Option α × Cursor) := do
  let (more, c) ← Run.advance c
  if more then
    let a ← Run.require (read c)
    let c ← Run.drain c
    pure (some a, c)
  else
    let c ← Run.drain c
    pure (none, c)

/-- `next_value`: the value at the start of the first row, null if there is none. -/
def Run.firstValue (c : Cursor) : Run σ (Value × Cursor) := do
  let (v, c) ← Run.firstRow (fun c => c.readAt 0 none) c
  pure (v.getD .null, c)

/-- The count that a value stands for; null counts as zero. -/
def countOf (v : Value) : Except Fault Int64 := do
  match ← v.coerce .int with
  | .int n => pure n
  | _ => pure 0

/-- `read_output`: reads what a statement of some mode yields. -/
def Run.output (T : RowType) (shape : RowShape) (mode : ResultMode) (c : Cursor) :
    Run σ (QueryOutput × Cursor) :=
  match mode with
  | .count => do
    let (v, c) ← Run.firstValue c
    let n ← Run.require (countOf v)
    pure (.count n, c)
  | .aggregate => do
    let (v, c) ← Run.firstValue c
    pure (.scalar v, c)
  | .first => do
    let (row, c) ← Run.firstRow (fun c => c.materialize shape T) c
    pure (.first row, c)
  | .rows => do
    let (rows, c) ← Run.allRows (fun c => c.materialize shape T) c
    pure (.rows rows, c)

/-! ## Whole runs -/

/-- Opens the source, runs a statement and reads its cursor, and closes the source whatever happened. -/
def Run.statement {α : Type} (sql : String) (read : Cursor → Run σ α) : Run σ α := do
  Run.ofSource RowSource.connect
  let reading : Run σ α := do
    let c ← Run.ofSource (RowSource.run sql)
    read c
  fun s =>
    let ((), s) := RowSource.prepare sql s
    let (outcome, s) := reading s
    let (closed, s) := Run.ofSource RowSource.disconnect s
    match outcome, closed with
    | .error e, _ => (.error e, s)
    | .ok _, .error e => (.error e, s)
    | .ok a, .ok () => (.ok a, s)

/-- Runs a compiled query. -/
def Compiled.execute (compiled : Compiled) (T : RowType) : Run σ QueryOutput :=
  Run.statement compiled.sql fun c => do
    let (output, _) ← Run.output T compiled.shape compiled.mode c
    pure output

/-- `fetch_raw`: runs a given statement and reads its whole result; every row is as wide as the columns. -/
def fetchRaw (sql : String) : Run σ ResultSet :=
  Run.statement sql fun c => do
    let (rows, _) ← Run.allRows (fun c => .ok ((List.range c.columnCount).map c.value)) c
    pure ⟨c.set.columns, rows⟩

end

/-! ## Queries -/

namespace Query

/-- `new`: a query of a tree with the standard options. -/
def ofExpr (e : Expr) : Query := ⟨e, .standard, none⟩

/-- `with_options`: the query with other options; it has to be compiled anew. -/
def withOptions (q : Query) (o : Options) : Query := { q with options := o, compiled := none }

/-- `compile`: compiles the query, unless that is done. -/
def compile (q : Query) : Except Fault Compiled × Query :=
  match q.compiled with
  | some c => (.ok c, q)
  | none =>
    match q.expr.compile q.options with
    | .ok c => (.ok c, { q with compiled := some c })
    | .error e => (.error e, q)

/-- `sql`: the text of the statement of the query. -/
def sql (q : Query) : Except Fault String × Query :=
  let (result, q) := q.compile
  (result.map (·.sql), q)

variable {σ : Type} [RowSource σ]

/-- A run of a query. It changes the query, which is compiled, and the source. -/
abbrev Step (σ : Type) (α : Type) := Query → σ → Except Fault α × Query × σ

/-- Compiles the query, and goes on on the source. -/
def withCompiled {α : Type} (f : Compiled → Run σ α) : Step σ α := fun q s =>
  match q.compile with
  | (.error e, q) => (.error e, q, s)
  | (.ok c, q) =>
    let (outcome, s) := f c s
    (outcome, q, s)

/-- `execute`: runs the query. -/
def execute (T : RowType) : Step σ QueryOutput :=
  withCompiled fun c => c.execute T

/-- Converts what a run of the query yields. -/
def fetch {α : Type} (T : RowType) (convert : QueryOutput → Except Fault α) : Step σ α := fun q s =>
  let (outcome, q, s) := execute T q s
  (outcome.bind convert, q, s)

/-- The fault of a query that yields something else. -/
def wrongResult {α : Type} (expected : String) (output : QueryOutput) : Except Fault α :=
  .error (.shape (.wrongResult expected output.name))

/-- `fetch_all`: all rows. -/
def fetchAll (T : RowType) : Step σ (List RowValue) :=
  fetch T fun
    | .rows rows => .ok rows
    | .first row => .ok row.toList
    | output => wrongResult "rows" output

/-- `fetch_first`: the first row. -/
def fetchFirst (T : RowType) : Step σ (Option RowValue) :=
  fetch T fun
    | .first row => .ok row
    | .rows rows => .ok rows.head?
    | output => wrongResult "a row" output

/-- `count`: the number of rows. -/
def fetchCount (T : RowType) : Step σ Int64 :=
  fetch T fun
    | .count n => .ok n
    | output => wrongResult "a count" output

/-- `scalar`: the value of a fold, or the number of rows. -/
def fetchScalar (T : RowType) : Step σ Value :=
  fetch T fun
    | .scalar v => .ok v
    | .count n => .ok (.int n)
    | output => wrongResult "a scalar" output

/-- Runs the statement of the query and reads its result as it is. -/
def fetchResultSet : Step σ ResultSet :=
  withCompiled fun c => fetchRaw c.sql

end Query

end QueryChain
