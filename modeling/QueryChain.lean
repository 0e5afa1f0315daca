import QueryChain.Chain
import QueryChain.CommandLine.Usage
import QueryChain.Main
import QueryChain.Proofs.Calendar.Written
import QueryChain.Proofs.Chain.Built
import QueryChain.Proofs.Grammar.Token
import QueryChain.Proofs.Grammar.Level
import QueryChain.Proofs.Grammar.Miss
import QueryChain.Proofs.Grammar.Operand
import QueryChain.Proofs.Grammar.Rendering
import QueryChain.Proofs.Grammar.RoundTrip
import QueryChain.Proofs.Lowering.Compiled
import QueryChain.Proofs.Lowering.Constants
import QueryChain.Proofs.Lowering.Run
import QueryChain.Proofs.Lowering.Simulation
import QueryChain.Proofs.Lowering.TextConstants
import QueryChain.Proofs.Lowering.Operate
import QueryChain.Proofs.Meaning.Engine
import QueryChain.Proofs.Meaning.InOrder
import QueryChain.Proofs.Meaning.Lowered
import QueryChain.Proofs.Meaning.Returned
import QueryChain.Proofs.Rows.Lifecycle
import QueryChain.Proofs.Rows.Shape
import QueryChain.Proofs.Scope.Renamed
import QueryChain.Proofs.Scope.Resolved
import QueryChain.Proofs.Columns.InScope
import QueryChain.Proofs.Columns.From
import QueryChain.Proofs.Schema.Growth
import QueryChain.Proofs.Clauses.Interleaving
import QueryChain.Proofs.Clauses.Aggregates
import QueryChain.Proofs.Clauses.Inlining
import QueryChain.Proofs.Clauses.Conditions
import QueryChain.Proofs.Clauses.Grouped
import QueryChain.Proofs.Clauses.Duplicates
import QueryChain.Proofs.Clauses.Around
import QueryChain.Proofs.Clauses.Counted
import QueryChain.Proofs.Text.Pattern
import QueryChain.Proofs.Calendar.Shift
import QueryChain.Proofs.Lowering.Sums
import QueryChain.Proofs.Rows.Record
import QueryChain.Proofs.Rows.Reading
import QueryChain.Proofs.Rows.Declared
import QueryChain.Proofs.Rows.Stored
import QueryChain.Proofs.Grammar.Numeral
import QueryChain.Proofs.Scope.Carried
import QueryChain.Proofs.Lowering.WrittenOut
import QueryChain.Proofs.Grammar.Completeness
import QueryChain.Proofs.Grammar.Position
import QueryChain.Proofs.Formed.Indices
import QueryChain.Proofs.Formed.Lists
import QueryChain.Proofs.CommandLine.Caret
