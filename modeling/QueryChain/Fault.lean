import QueryChain.Value

/-!
# Faults

What can go wrong between a query and its rows, one constructor per cause, and the message of each.

Causes are grouped by what was at fault: the form of an expression (`FormFault`), a combination that has no
statement (`UseFault`), a row that does not fit (`ShapeFault`), a value without a representation
(`ValueFault`), a text that is no query (`ParseFault`), and settings (`SettingsFault`).
-/

namespace QueryChain

open Decimal

/-! ## Causes -/

/-- `UnsupportedExpressionKind`: an expression of a form that cannot be lowered. -/
inductive FormFault where
  | lambdaOutsideOperator
  | lambdaArgumentExpected
  | lambdaExpected (found : String)
  | lambdaArity (found expected : Nat)
  | sourceMissing (operator : String)
  | argumentMissing (operator : String) (position : Nat)
  | unknownOperator (operator : String)
  | joinArity (found : Nat)
  | noTable
deriving DecidableEq

/-- The kind of a row or value that an expression stands for, in messages. -/
inductive RowKind where
  | scalar
  | host
  | column
  | table
  | projected
  | joined
  | group
deriving DecidableEq

/-- `UnsupportedOperation`: a combination of recognised parts that no statement expresses. -/
inductive UseFault where
  | groupsFiltered
  | groupsGrouped
  | groupsJoined
  | groupByShape
  | untypedProjection
  | selection (kind : RowKind)
  | memberSelection (kind : RowKind)
  | notScalar (kind : RowKind)
  | takeCount
  | selectorMissing (function : String)
  | aggregateOver (operator : String) (kind : RowKind)
  | groupSelectorMissing (operator : String)
  | joinAgainst (kind : RowKind)
  | joinResult (kind : RowKind)
  | joinKeyArity
  | columnMember (member : String)
  | method (name : String)
  | methodArity (name : String) (count : Nat)
  | argumentCount (name : String) (count : Nat)
  | noConstructor (typeName : String)
  | missingJoin (index : Nat)
deriving DecidableEq

/-- `MaterializationShapeMismatch`: a row that does not fit the shape it is read into. -/
inductive ShapeFault where
  | notA (typeName : String)
  | notRecord
  | wrongObject (field : String)
  | tooFewArguments
  | unsupplied (parameter typeName : String)
  | noConstruction (typeName : String)
  | missingColumn (column : String)
  | wrongRowType (rowType : String)
  | notScalarRowType (rowType : String)
  | wrongResult (expected found : String)
deriving DecidableEq

/-- What was found where a value of some type was expected. -/
inductive Found where
  /-- A value of another type. -/
  | value (type : ScalarType)
  /-- A null that may not be one. -/
  | sqlNull
  /-- The operand of a method; null has the type `Null`. -/
  | operand (type : Option ScalarType)
  /-- The text operand of a method. -/
  | textOperand (type : Option ScalarType) (method : String)
  /-- A text that is no date. -/
  | unreadable (text : String)
deriving DecidableEq

/-- `InvalidValue`: a value without a representation. -/
inductive ValueFault where
  | noLiteral (x : Float)
  | hostAsSql (typeName : String)
  | hostSelected (typeName : String)
  | sequenceCaptured (path : String)
  | outsideInt32 (n : Int64)
  | overflow (method : String) (amount : Float)

/-- `Parse`: why a query text was refused. -/
inductive ParseFault where
  /-- The grammar expected something else. -/
  | expected (code : String)
  /-- A query was read, and this is left. -/
  | trailing (rest : String)
deriving DecidableEq

/-- `Config`: settings, schemas and addresses that cannot be used. -/
inductive SettingsFault where
  | modelTwice (name : String)
  | strangeKey (key model : String)
  | unknownDialect (name : String)
  | noDriver (url : String)
  | badSchema (detail : String)
  | badSettings (detail : String)
deriving DecidableEq

/-- Why a file could not be read. -/
inductive FileFault where
  | missing
  | notDirectory
  | isDirectory
  | nameTooLong
  | accessDenied
  /-- The path has a null character in it. -/
  | nullInPath
  /-- The bytes of the file are no text. -/
  | noText
deriving DecidableEq

/-- `ExqlError`: anything that can go wrong. -/
inductive Fault where
  | form (cause : FormFault)
  | use (cause : UseFault)
  | noMember (member typeName : String)
  | shape (cause : ShapeFault)
  | typeMismatch (expected : ScalarType) (found : Found)
  | unbound (name : String)
  | value (cause : ValueFault)
  /-- A refused query text; the position counts bytes of the trimmed text. -/
  | parse (position : Nat) (cause : ParseFault)
  | settings (cause : SettingsFault)
  | file (cause : FileFault)
  /-- A failure of the row source, passed on unchanged. -/
  | source (message : String)

/-! ## Messages -/

/-- The message of a form fault. -/
def FormFault.message : FormFault → String
  | .lambdaOutsideOperator => "lambda outside a query operator"
  | .lambdaArgumentExpected => "expected a lambda argument"
  | .lambdaExpected found => "expected a lambda, found " ++ found
  | .lambdaArity found expected =>
    "lambda with " ++ toString found ++ " parameters where " ++ toString expected ++ " expected"
  | .sourceMissing operator => operator ++ "() without a source"
  | .argumentMissing operator position =>
    operator ++ " is missing argument " ++ toString position
  | .unknownOperator operator => "query operator '" ++ operator ++ "'"
  | .joinArity found => "Join takes 5 arguments, found " ++ toString found
  | .noTable => "query without a table source"

/-- `describe`: the name of a row kind. -/
def RowKind.name : RowKind → String
  | .scalar => "scalar"
  | .host => "host object"
  | .column => "column expression"
  | .table => "table row"
  | .projected => "projected row"
  | .joined => "join row"
  | .group => "group"

/-- The message of a use fault. -/
def UseFault.message : UseFault → String
  | .groupsFiltered => "filtering groups"
  | .groupsGrouped => "grouping groups"
  | .groupsJoined => "joining groups"
  | .groupByShape => "GroupBy on a projection shape"
  | .untypedProjection => "projection without a target type"
  | .selection kind => "selecting a " ++ kind.name
  | .memberSelection kind => "selecting a " ++ kind.name ++ " as a single member"
  | .notScalar kind => kind.name ++ " used as a scalar value"
  | .takeCount => "Take with a non-constant count"
  | .selectorMissing function => function ++ " without a selector over rows"
  | .aggregateOver operator kind => operator ++ " over a " ++ kind.name
  | .groupSelectorMissing operator => operator ++ " over a group needs a selector"
  | .joinAgainst kind => "joining against a " ++ kind.name
  | .joinResult kind => "join result selector producing a " ++ kind.name
  | .joinKeyArity => "join keys of different arity"
  | .columnMember member => "member '" ++ member ++ "' of a column expression"
  | .method name => "method '" ++ name ++ "'"
  | .methodArity name count => "method '" ++ name ++ "' with " ++ toString count ++ " arguments"
  | .argumentCount name count => name ++ " with " ++ toString count ++ " arguments"
  | .noConstructor typeName => typeName ++ " has no positional constructor"
  | .missingJoin index => "join row " ++ toString index ++ " that was never formed"

/-- The message of a shape fault. -/
def ShapeFault.message : ShapeFault → String
  | .notA typeName => "object is not a " ++ typeName
  | .notRecord => "object is not a Record"
  | .wrongObject field => "object for '" ++ field ++ "' has the wrong type"
  | .tooFewArguments => "constructor received too few arguments"
  | .unsupplied parameter typeName => "no column supplies '" ++ parameter ++ "' of " ++ typeName
  | .noConstruction typeName => typeName ++ " has no constructor registered"
  | .missingColumn column => "column '" ++ column ++ "' missing from result"
  | .wrongRowType rowType => "row does not materialize as " ++ rowType
  | .notScalarRowType rowType => rowType ++ " is not a scalar row type"
  | .wrongResult expected found => "expected " ++ expected ++ ", query produced " ++ found

/-- The text of what was found. -/
def Found.message : Found → String
  | .value type => type.name
  | .sqlNull => "NULL"
  | .operand type => typeNameOrNull type
  | .textOperand type method => typeNameOrNull type ++ " receiver of " ++ method
  | .unreadable text => "Text '" ++ text ++ "'"

/-- The message of a value fault. -/
def ValueFault.message : ValueFault → String
  | .noLiteral x => layout plainLayout x ++ " has no SQL literal"
  | .hostAsSql typeName => "host object '" ++ typeName ++ "' cannot be used as a SQL value"
  | .hostSelected typeName => "host object '" ++ typeName ++ "' cannot be selected"
  | .sequenceCaptured path => "sequences cannot be captured (" ++ path ++ ")"
  | .outsideInt32 n => toString n.toInt ++ " does not fit in i32"
  | .overflow method amount => method ++ "(" ++ layout plainLayout amount ++ ") overflows"

/-- The message of a refused text. -/
def ParseFault.message : ParseFault → String
  | .expected code => "Parse failed: " ++ code
  | .trailing rest => "Unexpected trailing content: '" ++ rest ++ "'"

/-- The message of a settings fault. -/
def SettingsFault.message : SettingsFault → String
  | .modelTwice name => "model '" ++ name ++ "' declared twice"
  | .strangeKey key model => "primary key '" ++ key ++ "' is not a field of '" ++ model ++ "'"
  | .unknownDialect name => "unknown dialect '" ++ name ++ "'"
  | .noDriver url => "no driver for '" ++ url ++ "': expected a sqlite: or postgres: URL"
  | .badSchema detail => "Failed to parse schema: " ++ detail
  | .badSettings detail => detail

/-- The words for a file fault, with the number that the operating system has for it. -/
def FileFault.message : FileFault → String
  | .missing => "No such file or directory (os error 2)"
  | .notDirectory => "Not a directory (os error 20)"
  | .isDirectory => "Is a directory (os error 21)"
  | .nameTooLong => "File name too long (os error 36)"
  | .accessDenied => "Permission denied (os error 13)"
  | .nullInPath => "file name contained an unexpected NUL byte"
  | .noText => "stream did not contain valid UTF-8"

/-- The message of a fault. -/
def Fault.message : Fault → String
  | .form cause => "Unsupported expression kind: " ++ cause.message
  | .use cause => "Unsupported operation: " ++ cause.message
  | .noMember member typeName => "Member '" ++ member ++ "' not found on '" ++ typeName ++ "'"
  | .shape cause => "Materialization shape mismatch: " ++ cause.message
  | .typeMismatch expected found =>
    "Type mismatch: expected " ++ expected.name ++ ", found " ++ found.message
  | .unbound name => "Unbound parameter: '" ++ name ++ "'"
  | .value cause => "Invalid value: " ++ cause.message
  | .parse position cause =>
    "Parse error at position " ++ toString position ++ ": " ++ cause.message
  | .settings cause => "Configuration error: " ++ cause.message
  | .file cause => "IO error: " ++ cause.message
  | .source message => message

end QueryChain
