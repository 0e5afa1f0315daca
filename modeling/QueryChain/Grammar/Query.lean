import QueryChain.Fault
import QueryChain.Grammar.Token
import QueryChain.Text.Blank

/-!
# Query texts

The grammar of query texts, loosest binding first:

* `a || b`, then `a && b`, then one comparison (`==`, `!=`, `<`, `<=`, `>`, `>=`), then `a + b` and `a - b`,
  then `a * b` and `a / b`;
* `a.name` and `a.name(args)`, where an argument may be a function `x => body` or `(x, y) => body`;
* a number, a quoted text, `date'…'`, `true`, `false`, `null`, a name, a call `name(args)`, a new object
  `new` with members `name = value` or `value` in braces, and anything in parentheses.

A name that is followed by something that is no argument list stands for itself. The grammar is written over
a reader for the expressions nested in it; that reader is only ever given a shorter text, so a depth of one
more than the length of the text serves for all of it.

* `Syntax.ofText`: the tree of a query text, or the byte position of the fault.
-/

namespace QueryChain.Grammar

open Reader Calendar

/-! ## Operators -/

/-- Operands joined from the left by operators. -/
def chainOf (operator : Reader BinaryOp) (operand : Reader Syntax) : Reader Syntax := do
  let first ← operand
  let rest ← Reader.many (do
    let op ← spaced operator
    let right ← operand
    pure (op, right))
  pure (first.chain rest)

/-- An operator written as a word. -/
def operatorWord (op : BinaryOp) (w : String) : Reader BinaryOp := do
  word w
  pure op

/-- An operator written as a character. -/
def operatorChar (op : BinaryOp) (c : Char) : Reader BinaryOp := do
  char c
  pure op

/-- `parse_comparison_op`: a comparison operator. -/
def comparisonOperator : Reader BinaryOp :=
  (operatorWord .eq "==").orElse <| (operatorWord .ne "!=").orElse <|
    (operatorWord .le "<=").orElse <| (operatorWord .ge ">=").orElse <|
    (operatorChar .lt '<').orElse (operatorChar .gt '>')

/-- `parse_multiplicative`: products of operands. -/
def product (operand : Reader Syntax) : Reader Syntax :=
  chainOf ((operatorChar .mul '*').orElse (operatorChar .div '/')) operand

/-- `parse_additive`: sums of products. -/
def sum (operand : Reader Syntax) : Reader Syntax :=
  chainOf ((operatorChar .add '+').orElse (operatorChar .sub '-')) (product operand)

/-- `parse_comparison`: a sum, or two of them compared. -/
def comparison (operand : Reader Syntax) : Reader Syntax := do
  let left ← sum operand
  let tail ← Reader.optional (do
    let op ← spaced comparisonOperator
    let right ← sum operand
    pure (op, right))
  pure (left.chain tail.toList)

/-- `parse_and`: comparisons joined by `&&`. -/
def conjunction (operand : Reader Syntax) : Reader Syntax :=
  chainOf (operatorWord .and "&&") (comparison operand)

/-- `parse_expr`: conjunctions joined by `||`. -/
def disjunction (operand : Reader Syntax) : Reader Syntax :=
  chainOf (operatorWord .or "||") (conjunction operand)

/-! ## Calls and objects -/

/-- The separator of lists. -/
def comma : Reader Unit := spaced (char ',')

/-- The parameters of a function. -/
def parameters : Reader (List String) :=
  Reader.orElse (do
      let p ← identifier
      pure [p])
    (do
      char '('
      let ps ← separated1 comma (spaced identifier)
      char ')'
      pure ps)

/-- `parse_lambda`: a function of one or more parameters. -/
def lambda (expression : Reader Syntax) : Reader Syntax := do
  let ps ← spaced parameters
  word "=>"
  let body ← expression
  pure (.lambda ps body)

/-- `parse_call_args`: arguments in parentheses. -/
def arguments (expression : Reader Syntax) : Reader (List Syntax) := do
  spaces
  char '('
  let args ← separated comma ((lambda expression).orElse expression)
  spaced (char ')')
  pure args

/-- `parse_member`: a member of a new object: `name = value`, or a value whose last member is its name. -/
def objectMember (expression : Reader Syntax) : Reader (String × Syntax) :=
  Reader.orElse (do
      let name ← spaced identifier
      char '='
      absent (char '=')
      let value ← expression
      pure (name, value))
    (expression.convert fun value => value.impliedName.map fun name => (name, value))

/-- The members of a new object, in braces. -/
def objectMembers (expression : Reader Syntax) : Reader (List (String × Syntax)) := do
  spaced (char '\x7b')
  let members ← separated comma (objectMember expression)
  spaced (char '\x7d')
  pure members

/-! ## Operands -/

/-- A quote after blanks. -/
def quoteAhead (s : List Char) : Bool :=
  match s.dropWhile isSpace with
  | '\'' :: _ => true
  | _ => false

/-- A quoted date; `start` is the text from the word `date` on. -/
def dateText (start : List Char) : Reader Syntax := do
  spaces
  let text ← quoted
  match Moment.readLiteral text.toList with
  | some t => pure (.literal (.dateTime t))
  | none => fun _ => .halt start .verify

/-- What a name becomes with what follows it: a call if that is an argument list. -/
def callOrName (expression : Reader Syntax) (name : String) : Reader Syntax := fun s =>
  match arguments expression s with
  | .read args rest => .read (.freeCall name args) rest
  | _ => .read (.name name) s

/-- `parse_word`: a literal word, a new object, a date, a call or a name. -/
def wordOperand (expression : Reader Syntax) : Reader Syntax := fun start =>
  match identifier start with
  | .miss rest e => .miss rest e
  | .halt rest e => .halt rest e
  | .read name s =>
    if name = "true" then .read (.literal (.bool true)) s
    else if name = "false" then .read (.literal (.bool false)) s
    else if name = "null" then .read (.literal .null) s
    else if name = "new" then (do
      let members ← objectMembers expression
      pure (Syntax.object members)) s
    else if name = "date" ∧ quoteAhead s = true then dateText start s
    else callOrName expression name s

/-- A number. -/
def numberOperand : Reader Syntax := do
  let v ← number
  pure (.literal v)

/-- A quoted text. -/
def textOperand : Reader Syntax := do
  let s ← quoted
  pure (.literal (.text s))

/-- An expression in parentheses. -/
def parenthesized (expression : Reader Syntax) : Reader Syntax := do
  char '('
  let e ← expression
  char ')'
  pure e

/-- `parse_primary`: an operand before its members. -/
def primary (expression : Reader Syntax) : Reader Syntax :=
  spaced <| numberOperand.orElse <| textOperand.orElse <|
    (parenthesized expression).orElse (wordOperand expression)

/-- A point and the name of a member. -/
def memberName : Reader String := do
  spaces
  char '.'
  spaced identifier

/-- The members and calls after an operand, at most `fuel` of them. -/
def membersFrom (expression : Reader Syntax) : Nat → Syntax → Reader Syntax
  | 0, node, s => .read node s
  | fuel + 1, node, s =>
    match memberName s with
    | .read name rest => match arguments expression rest with
      | .read args after => membersFrom expression fuel (.call node name args) after
      | _ => membersFrom expression fuel (.member node name) rest
    | _ => .read node s

/-- `parse_postfix`: an operand with its members and calls. -/
def operand (expression : Reader Syntax) : Reader Syntax := fun s =>
  match primary expression s with
  | .read node rest => membersFrom expression rest.length node rest
  | outcome => outcome

/-! ## Expressions -/

/-- An expression, given a reader for the expressions nested in it. -/
def expressionOver (nested : Reader Syntax) : Reader Syntax :=
  disjunction (operand nested)

/-- An expression with at most `depth` levels of nesting. -/
def expression : Nat → Reader Syntax
  | 0 => fun s => .miss s .satisfy
  | depth + 1 => expressionOver (expression depth)

/-- Number of bytes of a text in UTF-8. -/
def byteLength : List Char → Nat
  | [] => 0
  | c :: rest => c.utf8Size + byteLength rest

/-- The byte position, in the whole text, of what is left of it. -/
def positionOf (whole rest : List Char) : Nat :=
  byteLength whole - byteLength rest

end QueryChain.Grammar

namespace QueryChain

open Grammar

/-- The tree of trimmed characters. -/
def Syntax.ofChars (cs : List Char) : Except Fault Syntax :=
  match expression (cs.length + 1) cs with
  | .read tree [] => .ok tree
  | .read _ rest => .error (.parse (positionOf cs rest) (.trailing (String.ofList rest)))
  | .miss rest e => .error (.parse (positionOf cs rest) (.expected e.name))
  | .halt rest e => .error (.parse (positionOf cs rest) (.expected e.name))

/-- `parse_syntax`: the tree of a query text; blanks at its ends do not count. -/
def Syntax.ofText (text : String) : Except Fault Syntax :=
  Syntax.ofChars (Text.trim text.toList)

end QueryChain
