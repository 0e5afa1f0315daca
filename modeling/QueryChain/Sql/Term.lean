import QueryChain.Operator
import QueryChain.QueryOperator
import QueryChain.Sql.Dialect

/-!
# SQL terms

The expressions of a statement as data, and their text. A term refers to a table by the number of its alias;
the prefix of aliases and the dialect come in when it is written.

* `Term.isColumn`: a bare column, which a select list writes in a way of its own.
* `Term.mentionsAggregate`: whether a term folds rows anywhere.
* `Term.columns`: the columns that a term refers to.
-/

namespace QueryChain

/-- `CompilerOptions`: the options that change the text of statements. -/
structure Options where
  /-- Aliases of tables are this and a number. -/
  aliasPrefix : String
  /-- Chained joins are nested to the left in parentheses. -/
  nestJoins : Bool
  dialect : Dialect
deriving DecidableEq

namespace Options

/-- `default`: aliases `t0`, `t1`, …, nested joins and the first dialect. -/
def standard : Options := ⟨"t", true, .sqlServer⟩

instance : Inhabited Options := ⟨standard⟩

/-- The alias with a number. -/
def label (o : Options) (n : Nat) : String :=
  o.aliasPrefix ++ toString n

end Options

/-- An SQL expression. -/
inductive Term where
  /-- A column of the table with this alias. -/
  | column (label : Nat) (name : String)
  | literal (v : Value)
  /-- `IS NULL`, or `IS NOT NULL`. -/
  | nullTest (negated : Bool) (t : Term)
  | binary (op : BinaryOp) (l r : Term)
  /-- Two texts joined. -/
  | concat (l r : Term)
  | length (t : Term)
  | toText (t : Term)
  | change (c : TextChange) (t : Term)
  /-- `LIKE` a known text. -/
  | likeText (t : Term) (affix : Affix) (needle : String)
  /-- `LIKE` a text that the query computes. -/
  | likeTerm (t : Term) (affix : Affix) (needle : Term)
  | dateAdd (part : DatePart) (amount t : Term)
  | countAll
  | countWhere (condition : Term)
  | fold (f : Aggregate) (t : Term)
deriving Inhabited

namespace Affix

/-- What a pattern has before the text looked for. -/
def before : Affix → String
  | .anywhere | .atEnd => "%"
  | .atStart => ""

/-- What a pattern has after the text looked for. -/
def after : Affix → String
  | .anywhere | .atStart => "%"
  | .atEnd => ""

/-- `like_pattern`: the pattern of a known text. -/
def pattern (a : Affix) (needle : String) : String :=
  a.before ++ needle ++ a.after

/-- A part of a pattern as a literal, nothing if it is empty. -/
def quotedPart (s : String) : List String :=
  if s = "" then [] else [quoteText s]

/-- `like_pattern`: the parts of the pattern of a text that the query computes. -/
def parts (a : Affix) (needle : String) : List String :=
  quotedPart a.before ++ [needle] ++ quotedPart a.after

end Affix

/-- A conversion of a text in SQL. -/
def TextChange.sql (c : TextChange) (t : String) : String :=
  match c with
  | .upper => "UPPER(" ++ t ++ ")"
  | .lower => "LOWER(" ++ t ++ ")"
  | .trimmed => "LTRIM(RTRIM(" ++ t ++ "))"

namespace Term

/-- The text of a term. -/
def render (o : Options) : Term → String
  | .column label name => o.label label ++ "." ++ name
  | .literal v => v.literalText o.dialect.boolLiteral
  | .nullTest negated t =>
    "(" ++ render o t ++ (if negated then " IS NOT NULL)" else " IS NULL)")
  | .binary op l r => "(" ++ render o l ++ " " ++ op.sql ++ " " ++ render o r ++ ")"
  | .concat l r => "(" ++ o.dialect.concat [render o l, render o r] ++ ")"
  | .length t => o.dialect.length (render o t)
  | .toText t => o.dialect.toText (render o t)
  | .change c t => c.sql (render o t)
  | .likeText t affix needle =>
    "(" ++ render o t ++ " LIKE " ++ quoteText (affix.pattern needle) ++ ")"
  | .likeTerm t affix needle =>
    "(" ++ render o t ++ " LIKE (" ++ o.dialect.concat (affix.parts (render o needle)) ++ "))"
  | .dateAdd part amount t => o.dialect.dateAdd part.sql (render o amount) (render o t)
  | .countAll => "COUNT(*)"
  | .countWhere condition => "SUM(CASE WHEN " ++ render o condition ++ " THEN 1 ELSE 0 END)"
  | .fold f t => f.sql ++ "(" ++ render o t ++ ")"

/-- A value in a select list; bare columns are written as the dialect has it. -/
def renderSelected (o : Options) (joined : Bool) : Term → String
  | .column label name => o.dialect.columnItem (o.label label) name joined
  | t => t.render o

/-- Whether a term is a bare column. -/
def isColumn : Term → Bool
  | .column _ _ => true
  | _ => false

/-- Whether a term folds rows anywhere. -/
def mentionsAggregate : Term → Bool
  | .column _ _ | .literal _ => false
  | .nullTest _ t | .length t | .toText t | .change _ t | .likeText t _ _ => mentionsAggregate t
  | .binary _ l r | .concat l r | .likeTerm l _ r | .dateAdd _ l r =>
    mentionsAggregate l || mentionsAggregate r
  | .countAll | .countWhere _ | .fold _ _ => true

/-- The columns that a term refers to, as aliases and names. -/
def columns : Term → List (Nat × String)
  | .column label name => [(label, name)]
  | .literal _ | .countAll => []
  | .nullTest _ t | .length t | .toText t | .change _ t | .likeText t _ _ | .countWhere t
  | .fold _ t => columns t
  | .binary _ l r | .concat l r | .likeTerm l _ r | .dateAdd _ l r => columns l ++ columns r

end Term

end QueryChain
