import QueryChain.Rows.Listing
import QueryChain.Text.Resemblance

/-!
# Command line arguments

A command line holds options, a query and a command. Options are long, `--name`, `--name value` or `--name=value`,
or short and run together, `-abvalue`. After `--` nothing is an option or a command. An option may be given
once; its value is checked when the next argument has been recognised, so that a fault in the form of the
next argument comes first. What follows a command is read by the rules of the command.

* `CommandLine.Arguments`: what a command line asks for.
* `CommandLine.Arguments.ofList`: reads a command line.
-/

namespace QueryChain.CommandLine

open Text

/-! ## What is asked for -/

/-- `Commands`: a command. -/
inductive Command where
  /-- Shows how a query is compiled. -/
  | explain (query : String)
  /-- Lists the models of the schema. -/
  | models
deriving DecidableEq, Repr

/-- `Cli`: what a command line asks for. -/
structure Arguments where
  query : Option String
  schema : Option String
  dryRun : Bool
  format : ListingFormat
  databaseUrl : Option String
  dialect : Option Dialect
  config : Option String
  verbose : Bool
  command : Option Command
deriving DecidableEq, Repr

/-- An empty command line. -/
def Arguments.empty : Arguments :=
  ⟨none, none, false, .table, none, none, none, false, none⟩

/-- Why a command line is not carried out. -/
inductive UsageFault where
  | unknownArgument
  | unknownCommand
  /-- A value is missing, empty where it may not be, or none of those allowed. -/
  | invalidValue
  /-- A value that its own reader refuses. -/
  | refusedValue
  /-- A value for an option that takes none. -/
  | needlessValue
  | repeatedOption
  | missingArgument
  /-- The help text was asked for. -/
  | helpWanted
  /-- The version was asked for. -/
  | versionWanted
deriving DecidableEq, Repr

/-! ## Options -/

/-- An option. -/
inductive OptionName where
  | schema
  | dryRun
  | format
  | databaseUrl
  | dialect
  | config
  | verbose
  | help
  | version
deriving DecidableEq, Repr

namespace OptionName

/-- All options. -/
def all : List OptionName :=
  [schema, dryRun, format, databaseUrl, dialect, config, verbose, help, version]

/-- The long name of an option. -/
def long : OptionName → String
  | .schema => "schema"
  | .dryRun => "dry-run"
  | .format => "format"
  | .databaseUrl => "database-url"
  | .dialect => "dialect"
  | .config => "config"
  | .verbose => "verbose"
  | .help => "help"
  | .version => "version"

/-- The short name of an option. -/
def short : OptionName → Option Char
  | .schema => some 's'
  | .dryRun => some 'd'
  | .format => some 'f'
  | .databaseUrl | .dialect => none
  | .config => some 'c'
  | .verbose => some 'v'
  | .help => some 'h'
  | .version => some 'V'

/-- Whether an option takes a value. -/
def takesValue : OptionName → Bool
  | .schema | .format | .databaseUrl | .dialect | .config => true
  | .dryRun | .verbose | .help | .version => false

end OptionName

/-- The path that a value names; it may not be empty. -/
def readPath (value : String) : Except UsageFault String :=
  if value = "" then .error .invalidValue else .ok value

/-- The listing format that a value names. -/
def readFormat (value : String) : Except UsageFault ListingFormat :=
  if value = "table" then .ok .table
  else if value = "json" then .ok .json
  else .error .invalidValue

/-- The dialect that a value names. -/
def readDialect (value : String) : Except UsageFault Dialect :=
  match Dialect.ofName value with
  | .ok d => .ok d
  | .error _ => .error .refusedValue

/-- Gives an option a value. -/
def Arguments.give (a : Arguments) (name : OptionName) (value : String) :
    Except UsageFault Arguments :=
  match name with
  | .schema => (readPath value).map fun path => { a with schema := some path }
  | .config => (readPath value).map fun path => { a with config := some path }
  | .format => (readFormat value).map fun format => { a with format }
  | .dialect => (readDialect value).map fun d => { a with dialect := some d }
  | .databaseUrl => .ok { a with databaseUrl := some value }
  | .dryRun | .verbose | .help | .version => .ok a

/-- Sets an option that takes no value. -/
def Arguments.turnOn (a : Arguments) (name : OptionName) : Except UsageFault Arguments :=
  match name with
  | .help => .error .helpWanted
  | .version => .error .versionWanted
  | .dryRun => .ok { a with dryRun := true }
  | .verbose => .ok { a with verbose := true }
  | .schema | .format | .databaseUrl | .dialect | .config => .ok a

/-! ## Reading -/

/-- What may stand at a place of a command line: at its start, or after a command. -/
structure Level where
  options : List OptionName
  takesQuery : Bool
  commands : List String

/-- The start of a command line. -/
def Level.top : Level := ⟨OptionName.all, true, ["explain", "models", "help"]⟩

/-- After `explain`. -/
def Level.explain : Level := ⟨[.help], true, []⟩

/-- After `models`. -/
def Level.models : Level := ⟨[.help], false, []⟩

/-- A command line that has been read in part. -/
structure Draft where
  arguments : Arguments
  /-- The options given so far. -/
  given : List OptionName
  /-- The option given last, and its value if that was given, as long as it has not been checked. -/
  pending : Option (OptionName × Option String)

namespace Draft

/-- Nothing read yet. -/
def empty : Draft := ⟨.empty, [], none⟩

/-- Whether the next argument is the value of an option. -/
def awaitsValue (d : Draft) : Bool :=
  match d.pending with
  | some (_, none) => true
  | _ => false

/-- Notes that an option is given, which it may be once. -/
def once (d : Draft) (name : OptionName) : Except UsageFault Draft :=
  if name ∈ d.given then .error .repeatedOption else .ok { d with given := name :: d.given }

/-- Gives an option a value. -/
def assign (d : Draft) (name : OptionName) (value : String) : Except UsageFault Draft := do
  let d ← d.once name
  let arguments ← d.arguments.give name value
  .ok { d with arguments }

/-- Checks the value of the option given last. -/
def settle (d : Draft) : Except UsageFault Draft :=
  match d.pending with
  | none => .ok d
  | some (_, none) => .error .invalidValue
  | some (name, some value) => { d with pending := none }.assign name value

/-- An option without a value. -/
def turnOn (d : Draft) (name : OptionName) : Except UsageFault Draft := do
  let d ← d.settle
  let arguments ← d.arguments.turnOn name
  let d ← d.once name
  .ok { d with arguments }

/-- An option that takes a value, which may be in the same argument. -/
def begin (d : Draft) (name : OptionName) (value : Option String) : Except UsageFault Draft := do
  let d ← d.settle
  match value with
  | some value => d.assign name value
  | none => .ok { d with pending := some (name, none) }

/-- A long option. -/
def readLong (level : Level) (d : Draft) (name : String) (value : Option String) :
    Except UsageFault Draft :=
  match level.options.find? (·.long = name) with
  | none => .error .unknownArgument
  | some option =>
    if option.takesValue then d.begin option value
    else if value.isSome then .error .needlessValue
    else d.turnOn option

/-- What follows a short option that takes a value: the value, perhaps after `=`, or nothing. -/
def attached : List Char → Option String
  | [] => none
  | '=' :: value => some (String.ofList value)
  | value => some (String.ofList value)

/-- Short options run together. -/
def readShort (level : Level) : Draft → List Char → Except UsageFault Draft
  | d, [] => .ok d
  | d, c :: rest =>
    match level.options.find? (·.short = some c) with
    | none => .error .unknownArgument
    | some option =>
      if option.takesValue then d.begin option (attached rest)
      else do
        let d ← d.turnOn option
        readShort level d rest

/-- An argument for which there is no place. It may be a command with a slip in it, unless it is a command
that `--` keeps from being one. -/
def surplus (level : Level) (afterDashes : Bool) (word : String) : UsageFault :=
  if afterDashes && level.commands.contains word then .unknownArgument
  else if level.commands.any (resembles word) then .unknownCommand
  else .unknownArgument

/-- An argument that is no option. -/
def readWord (level : Level) (d : Draft) (afterDashes : Bool) (word : String) : Except UsageFault Draft :=
  if level.takesQuery && d.arguments.query.isNone then do
    let d ← d.settle
    .ok { d with arguments := { d.arguments with query := some word } }
  else .error (surplus level afterDashes word)

/-- Arguments after `--`. -/
def readWords (level : Level) : Draft → List String → Except UsageFault Draft
  | d, [] => .ok d
  | d, word :: rest => do
    let d ← d.readWord level true word
    readWords level d rest

/-- A long argument cut at its first `=`. -/
def cutLong (cs : List Char) : String × Option String :=
  (String.ofList (cs.takeWhile (· ≠ '=')),
    match cs.dropWhile (· ≠ '=') with
    | [] => none
    | _ :: value => some (String.ofList value))

/-- One argument that is neither a command nor `--`. -/
def readArgument (level : Level) (d : Draft) (word : String) : Except UsageFault Draft :=
  match word.toList with
  | '-' :: '-' :: cs =>
    let (name, value) := cutLong cs
    readLong level d name value
  | '-' :: c :: cs => readShort level d (c :: cs)
  | _ =>
    match d.pending with
    | some (name, none) => .ok { d with pending := some (name, some word) }
    | _ => d.readWord level false word

/-- The arguments of a command that has none of its own commands. -/
def readInner (level : Level) : Draft → List String → Except UsageFault Draft
  | d, [] => d.settle
  | d, word :: rest =>
    if word = "--" then do
      let d ← readWords level d rest
      d.settle
    else do
      let d ← d.readArgument level word
      readInner level d rest

/-- What `help` is wanted on: the names of commands, one within the other. -/
def readHelp : List String → UsageFault
  | [] => .helpWanted
  | word :: rest =>
    if Level.top.commands.contains word && rest.isEmpty then .helpWanted else .unknownCommand

/-- The command with a name and its arguments. -/
def readCommand (name : String) (rest : List String) : Except UsageFault Command :=
  if name = "explain" then do
    let inner ← readInner .explain .empty rest
    match inner.arguments.query with
    | some query => .ok (.explain query)
    | none => .error .missingArgument
  else if name = "models" then do
    let _ ← readInner .models .empty rest
    .ok .models
  else .error (readHelp rest)

/-- The arguments from the start of a command line. -/
def read : Draft → List String → Except UsageFault Draft
  | d, [] => d.settle
  | d, word :: rest =>
    if !d.awaitsValue && Level.top.commands.contains word then do
      let command ← readCommand word rest
      let d ← d.settle
      .ok { d with arguments := { d.arguments with command := some command } }
    else if word = "--" then do
      let d ← readWords .top d rest
      d.settle
    else do
      let d ← d.readArgument .top word
      read d rest

end Draft

/-- Reads a command line. -/
def Arguments.ofList (args : List String) : Except UsageFault Arguments :=
  (Draft.read .empty args).map Draft.arguments

end QueryChain.CommandLine
