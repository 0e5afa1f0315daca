import QueryChain.CommandLine.Arguments
import QueryChain.CommandLine.Explain
import QueryChain.CommandLine.Files
import QueryChain.Rows.Query
import QueryChain.Settings

/-!
# Runs of the command line tool

A run loads the settings and the schema, and carries out what the arguments ask for: it lists the models of the
schema, explains a query, or shows the statement of a query. With the address of a database it comes to the
point where the statement is to be run there.

* `CommandLine.modelLines`: the listing of a schema.
* `CommandLine.run`: a whole run.
-/

namespace QueryChain.CommandLine

open Session

/-! ## Models -/

/-- The line of a field; its column is named if it has another name. -/
def fieldLine (m : Model) (f : Field) : String :=
  "    " ++ fill 16 f.name ++ " " ++ (f.type.map ScalarType.name).getD "?" ++
    (if m.primaryKey = some f.name then " (key)" else "") ++
    (if f.name = f.column then "" else " column " ++ f.column)

/-- `show_models`: the listing of a schema. -/
def modelLines (schema : Schema) : List String :=
  if schema.models.isEmpty then ["(no models; pass --schema)"]
  else schema.models.flatMap fun m =>
    (m.typeName ++ " → " ++ m.table) :: m.fields.map (fieldLine m)

/-! ## Loading -/

section

variable {m : Type → Type} [Monad m]

/-- How files are read. -/
abbrev FileReader (m : Type → Type) := String → m (Except FileFault String)

/-- The text of a file. -/
def readFile (files : FileReader m) (path : String) : Session m (Except Fault String) := do
  let r ← ExceptT.lift (StateT.lift (files path))
  pure (r.mapError Fault.file)

/-- The settings of a file. -/
def settingsOf (text : Except Fault String) : Except Fault Settings :=
  text.bind Settings.ofToml

/-- The settings of the file at the usual place, standard if there is none. -/
def usualSettings (text : Except Fault String) : Except Fault Settings :=
  match text with
  | .error (.file .missing) | .error (.file .notDirectory) => .ok .standard
  | text => settingsOf text

/-- `load`: loads the settings: from a given file, else from the usual place. -/
def loadSettings (files : FileReader m) (given usual : Option String) : Session m Settings := do
  match given, usual with
  | some path, _ => do
    let text ← readFile files path
    requireDoing "loading configuration" (settingsOf text)
  | none, some path => do
    let text ← readFile files path
    requireDoing "loading configuration" (usualSettings text)
  | none, none => pure .standard

/-- `load_schema`: loads the schema. -/
def loadSchema (files : FileReader m) (path : Option String) : Session m Schema := do
  match path with
  | some path => do
    let text ← readFile files path
    requireDoing ("loading schema " ++ path) (text.bind Schema.ofToml)
  | none => pure .empty

/-! ## Queries -/

/-- Prints the statement of a query. -/
def showStatement (e : Expr) (o : Options) (dryRun : Bool) : Session m Unit := do
  let c ← require (e.compile o)
  sayAll ["Generated SQL:", c.sql]
  if !dryRun then
    sayAll ["", "⚠ No database URL. Use --database-url or set EXQL_DATABASE_URL"]

/-- Comes to the point where a query is to be run on the database at an address, whose dialect counts. -/
def reachDatabase (e : Expr) (o : Options) (url : String) (verbose : Bool) : Session m Unit := do
  let database ← require (DatabaseSource.ofUrl url)
  let c ← require (e.compile { o with dialect := database.dialect })
  if verbose then
    sayAll ["Connecting to: " ++ url, "SQL: " ++ c.sql]
  throw (.connects database c.sql)

/-- `execute_query`: shows the statement of a query, or runs it. -/
def runQuery (query : String) (schema : Schema) (settings : Settings) (a : Arguments) :
    Session m Unit := do
  if a.verbose then
    say ("Input: " ++ query)
  let e ← require (Expr.ofText schema query)
  match if a.dryRun then none else a.databaseUrl <|> settings.databaseUrl with
  | none => showStatement e settings.options a.dryRun
  | some url => reachDatabase e settings.options url a.verbose

/-! ## Runs -/

/-- What is printed when nothing is asked for. -/
def welcome : List String :=
  ["exql: expression-tree query compiler", "", "Usage: exql <QUERY> --schema <FILE> [OPTIONS]", "",
    "Try: exql --help"]

/-- The settings with the dialect of the command line, if it names one. -/
def withArguments (settings : Settings) (a : Arguments) : Settings :=
  match a.dialect with
  | some d => settings.withDialect d
  | none => settings

/-- `run`: a whole run. The settings file at the usual place is optional. -/
def run (files : FileReader m) (usual : Option String) (a : Arguments) : Session m Unit := do
  let settings ← loadSettings files a.config usual
  let settings := withArguments settings a
  let schema ← loadSchema files (a.schema <|> settings.schemaPath)
  match a.command, a.query with
  | some (.explain query), _ => explain query schema settings.options
  | some .models, _ => sayAll (modelLines schema)
  | none, some query => runQuery query schema settings a
  | none, none => sayAll welcome

end

/-- A run on files that are known beforehand: how it ends, and what it has printed. -/
def runOn (files : Files) (usual : Option String) (a : Arguments) : Except Stop Unit × Transcript :=
  Id.run ((run (fun path => pure (files.read path)) usual a).run .empty)

end QueryChain.CommandLine
