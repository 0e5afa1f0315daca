import QueryChain.Sql.Term

/-!
# What lowering makes

Lowering a tree makes SQL expressions out of smaller ones, and an alias for every table that is bound. What these are is
left open. They can be terms and the numbers of aliases: then a statement is data, which can be reasoned about. Or they
can be text, which is what queries are compiled to: then everything is spelled as soon as it is met, and the options are
asked for every alias, literal, joined text, length, conversion and sum of dates.

* `SqlAlgebra`: how expressions are made, with terms and text (`Fragment`) as instances.
* `SqlText`, `SqlAlias`: how expressions and aliases stand in a statement.
-/

namespace QueryChain

/-- How SQL expressions and aliases are made. -/
class SqlAlgebra (τ : Type) (ν : outParam Type) where
  /-- The alias with a number. -/
  label (τ) : Nat → ν
  column : ν → String → τ
  /-- The literal of a value, if it has one. -/
  literal : Value → Except Fault τ
  /-- `IS NULL`, or `IS NOT NULL`. -/
  nullTest : Bool → τ → τ
  binary : BinaryOp → τ → τ → τ
  /-- Two texts joined. -/
  concat : τ → τ → τ
  length : τ → τ
  toText : τ → τ
  change : TextChange → τ → τ
  /-- `LIKE` a known text. -/
  likeText : τ → Affix → String → τ
  /-- `LIKE` a text that the query computes. -/
  likeTerm : τ → Affix → τ → τ
  dateAdd : DatePart → τ → τ → τ
  countAll : τ
  countWhere : τ → τ
  fold : Aggregate → τ → τ

/-- How SQL expressions stand in the text of a statement. -/
class SqlText (τ : Type) where
  text : Options → τ → String
  /-- In a select list; the flag tells whether the statement has joins. -/
  selected : Options → Bool → τ → String

/-- How aliases stand in the text of a statement. -/
class SqlAlias (ν : Type) where
  text : Options → ν → String

/-! ## Terms -/

@[default_instance] instance : SqlAlgebra Term Nat where
  label n := n
  column := .column
  literal v := do
    v.requireLiteral
    pure (.literal v)
  nullTest := .nullTest
  binary := .binary
  concat := .concat
  length := .length
  toText := .toText
  change := .change
  likeText := .likeText
  likeTerm := .likeTerm
  dateAdd := .dateAdd
  countAll := .countAll
  countWhere := .countWhere
  fold := .fold

instance : SqlText Term where
  text := Term.render
  selected := Term.renderSelected

instance : SqlAlias Nat where
  text := Options.label

/-! ## Text -/

/-- `Fragment`: SQL text under options, and the alias and the name of the column that it is, if it is a bare one. -/
structure Fragment (o : Options) where
  sql : String
  column : Option (String × String)

/-- `computed`: text that is no bare column. -/
def Fragment.computed {o : Options} (sql : String) : Fragment o :=
  ⟨sql, none⟩

instance (o : Options) : SqlAlgebra (Fragment o) String where
  label n := o.aliasPrefix ++ toString n
  column label name := ⟨label ++ "." ++ name, some (label, name)⟩
  literal v := do
    let sql ← o.dialect.literal v
    pure (.computed sql)
  nullTest negated t := .computed ("(" ++ t.sql ++ (if negated then " IS NOT NULL)" else " IS NULL)"))
  binary op l r := .computed ("(" ++ l.sql ++ " " ++ op.sql ++ " " ++ r.sql ++ ")")
  concat l r := .computed ("(" ++ o.dialect.concat [l.sql, r.sql] ++ ")")
  length t := .computed (o.dialect.length t.sql)
  toText t := .computed (o.dialect.toText t.sql)
  change c t := .computed (c.sql t.sql)
  likeText t affix needle := .computed ("(" ++ t.sql ++ " LIKE " ++ quoteText (affix.pattern needle) ++ ")")
  likeTerm t affix needle := .computed ("(" ++ t.sql ++ " LIKE (" ++ o.dialect.concat (affix.parts needle.sql) ++ "))")
  dateAdd part amount t := .computed (o.dialect.dateAdd part.sql amount.sql t.sql)
  countAll := .computed "COUNT(*)"
  countWhere condition := .computed ("SUM(CASE WHEN " ++ condition.sql ++ " THEN 1 ELSE 0 END)")
  fold f t := .computed (f.sql ++ "(" ++ t.sql ++ ")")

instance (o : Options) : SqlText (Fragment o) where
  text _ t := t.sql
  selected _ joined t :=
    match t.column with
    | some (label, name) => o.dialect.columnItem label name joined
    | none => t.sql

instance : SqlAlias String where
  text _ label := label

end QueryChain
