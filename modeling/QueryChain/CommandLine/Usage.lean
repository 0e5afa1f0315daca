import QueryChain.CommandLine.Arguments

/-!
# Usage

What is printed when a command line is not carried out: the help text, the version, or what is wrong with it.

* `CommandLine.UsageFault.message`: what is printed.
* `CommandLine.UsageFault.isRequest`: whether it was asked for.
-/

namespace QueryChain.CommandLine

/-- The help text. -/
def helpText : String :=
  "\n".intercalate
    ["Compile expression-tree queries to SQL and run them", "",
      "Usage: exql [OPTIONS] [QUERY] [COMMAND]", "", "Commands:",
      "  explain <QUERY>  Show the expression tree, row shape and SQL of a query",
      "  models           List the models declared in the schema",
      "  help             Print this message or the help of a command", "", "Options:",
      "  -s, --schema <FILE>       Model schema file (TOML)",
      "  -d, --dry-run             Don't execute, just show the generated SQL",
      "  -f, --format <FORMAT>     Output format: table or json",
      "      --database-url <URL>  Database connection URL (sqlite: or postgres:)",
      "      --dialect <DIALECT>   SQL dialect: sqlserver, sqlite or postgres",
      "  -c, --config <FILE>       Configuration file",
      "  -v, --verbose             Verbose output",
      "  -h, --help                Print help",
      "  -V, --version             Print version"]

/-- The version of the tool. -/
def versionText : String := "exql 0.1.0"

namespace UsageFault

/-- What is printed. -/
def message : UsageFault → String
  | .unknownArgument => "error: unexpected argument"
  | .unknownCommand => "error: unrecognized subcommand"
  | .invalidValue => "error: a value is missing or not among the possible values"
  | .refusedValue => "error: invalid value"
  | .needlessValue => "error: unexpected value for an option that takes none"
  | .repeatedOption => "error: an option cannot be used multiple times"
  | .missingArgument => "error: a required argument was not provided"
  | .helpWanted => helpText
  | .versionWanted => versionText

/-- Whether the text was asked for, so that nothing went wrong. -/
def isRequest : UsageFault → Bool
  | .helpWanted | .versionWanted => true
  | _ => false

end UsageFault

/-- The command line with what the surroundings supply where it is silent. -/
def Arguments.withDefaults (a : Arguments) (schema databaseUrl : Option String) : Arguments :=
  { a with schema := a.schema <|> schema, databaseUrl := a.databaseUrl <|> databaseUrl }

end QueryChain.CommandLine
