import QueryChain.Model
import QueryChain.Sql.Expression

/-!
# SQL statements

A statement as data, and its text. Clauses come in a fixed order: `SELECT`, `DISTINCT`, a limit, the select
list, `FROM` with its joins, `WHERE`, `GROUP BY`, `ORDER BY`, and a limit at the end.

* `Select.render`: the text of one block.
* `Statement.render`: a block by itself, its row count, or a fold over its rows.
-/

namespace QueryChain

/-! ## Parts -/

/-- `TableRef`: a table under an alias. -/
structure TableRef (ν : Type := Nat) where
  model : Model
  label : ν
deriving Inhabited

/-- An inner join: the table on its right, and the keys of either side. -/
structure JoinClause (τ : Type := Term) (ν : Type := Nat) where
  table : TableRef ν
  outerKeys : List τ
  innerKeys : List τ
deriving Inhabited

/-- A key to sort by. -/
structure OrderKey (τ : Type := Term) where
  term : τ
  descending : Bool
deriving Inhabited

/-- An item of a select list. -/
inductive SelectItem (τ : Type := Term) (ν : Type := Nat) where
  /-- A column of a whole row. -/
  | entity (label : ν) (column : String)
  /-- A value without a name. -/
  | bare (t : τ)
  /-- A value under the name of a member. -/
  | named (t : τ) (name : String)
  /-- What an outer statement folds. -/
  | folded (t : τ)
  /-- A term as it stands: a count or a fold. -/
  | plain (t : τ)

/-- A select list: the items of a query, what is folded besides them, or both. -/
inductive SelectList (τ : Type := Term) (ν : Type := Nat) where
  | items (list : List (SelectItem τ ν))
  /-- All items, and then what an outer statement folds. -/
  | withFolded (list : List (SelectItem τ ν)) (t : τ)

/-- One `SELECT` block. -/
structure Select (τ : Type := Term) (ν : Type := Nat) where
  distinct : Bool
  top : Option Nat
  list : SelectList τ ν
  root : TableRef ν
  joins : List (JoinClause τ ν)
  filters : List τ
  groupKeys : List τ
  order : List (OrderKey τ)

/-- A statement. -/
inductive Statement (τ : Type := Term) (ν : Type := Nat) where
  | plain (s : Select τ ν)
  /-- The number of rows of a block. -/
  | countOf (s : Select τ ν)
  /-- A fold of the folded column of a block. -/
  | foldOf (f : Aggregate) (s : Select τ ν)

/-! ## Text -/

variable {τ ν : Type} [SqlText τ] [SqlAlias ν]

/-- The text of a table under its alias. -/
def TableRef.render (o : Options) (t : TableRef ν) : String :=
  t.model.table ++ " " ++ SqlAlias.text o t.label

namespace JoinClause

/-- The key pairs that a join compares. -/
def pairs (j : JoinClause τ ν) : List (τ × τ) :=
  j.outerKeys.zip j.innerKeys

/-- `predicate`: the condition of a join: one equality, or all of them joined by `AND`. -/
def condition (o : Options) (j : JoinClause τ ν) : String :=
  match j.pairs.map fun (l, r) => "(" ++ SqlText.text o l ++ " = " ++ SqlText.text o r ++ ")" with
  | [single] => single
  | several => "(" ++ " AND ".intercalate several ++ ")"

/-- The text of a join. -/
def render (o : Options) (j : JoinClause τ ν) : String :=
  " INNER JOIN " ++ j.table.render o ++ " ON " ++ j.condition o

end JoinClause

/-- Joins one after another; nested, all but the last are followed by a parenthesis. -/
def renderJoins (o : Options) (nested : Bool) : List (JoinClause τ ν) → String
  | [] => ""
  | [j] => j.render o
  | j :: rest => j.render o ++ (if nested then ")" else "") ++ renderJoins o nested rest

/-- `render_from`: the text after `FROM`. -/
def renderFrom (o : Options) (root : TableRef ν) (joins : List (JoinClause τ ν)) : String :=
  let nested := o.nestJoins && 1 < joins.length
  (if nested then String.ofList (List.replicate (joins.length - 1) '(') else "") ++
    root.render o ++ renderJoins o nested joins

/-- The text of a key to sort by. -/
def OrderKey.render (o : Options) (k : OrderKey τ) : String :=
  SqlText.text o k.term ++ (if k.descending then " DESC" else "")

/-- The name of the column that an outer statement folds. -/
def foldedName : String := "value"

/-- `select_expr`: the text of an item. -/
def SelectItem.render (o : Options) (joined : Bool) : SelectItem τ ν → String
  | .entity label column => o.dialect.entityItem (SqlAlias.text o label) column
  | .bare t => SqlText.selected o joined t
  | .named t name => SqlText.selected o joined t ++ " AS " ++ o.dialect.quoteIdentifier name
  | .folded t => SqlText.text o t ++ " AS " ++ o.dialect.quoteIdentifier foldedName
  | .plain t => SqlText.text o t

/-- The text of a select list. -/
def SelectList.render (o : Options) (joined : Bool) : SelectList τ ν → String
  | .items list => ", ".intercalate (list.map (·.render o joined))
  | .withFolded list t =>
    ", ".intercalate (list.map (·.render o joined)) ++ ", " ++ (SelectItem.folded t : SelectItem τ ν).render o joined

/-- A keyword and a list after it, nothing if the list is empty. -/
def clause (keyword separator : String) (parts : List String) : String :=
  if parts.isEmpty then "" else keyword ++ separator.intercalate parts

/-- `statement`: the text of a block. -/
def Select.render (o : Options) (s : Select τ ν) : String :=
  "SELECT " ++ (if s.distinct then "DISTINCT " else "") ++
    (match s.top with
      | some n => o.dialect.top n
      | none => "") ++
    s.list.render o (!s.joins.isEmpty) ++ " FROM " ++ renderFrom o s.root s.joins ++
    clause " WHERE " " AND " (s.filters.map (SqlText.text o)) ++
    clause " GROUP BY " ", " (s.groupKeys.map (SqlText.text o)) ++
    clause " ORDER BY " ", " (s.order.map (·.render o)) ++
    (match s.top with
      | some n => o.dialect.limit n
      | none => "")

/-- `generate`: the text of a statement. -/
def Statement.render (o : Options) : Statement τ ν → String
  | .plain s => s.render o
  | .countOf s => "SELECT COUNT(*) FROM (" ++ s.render o ++ ") AS q"
  | .foldOf f s => "SELECT " ++ f.sql ++ "(q." ++ foldedName ++ ") FROM (" ++ s.render o ++ ") AS q"

end QueryChain
