import QueryChain.Captured
import QueryChain.Sql.Statement

/-!
# What an expression stands for

Lowering an expression yields what it stands for in the statement: a known scalar, a captured object, an SQL
term, a row of a table, a projected row, a row of a join, or a group.

* `Row.kind`: the name of each in messages.
* `Entries.find`: the value of a member, the first of its name.
-/

namespace QueryChain

/-- `Eval`: what an expression stands for. -/
inductive Row (τ : Type := Term) (ν : Type := Nat) where
  /-- A scalar known before the query runs. -/
  | scalar (v : Value)
  /-- A captured object, of use for its members only. -/
  | host (c : Captured)
  | term (t : τ)
  | table (t : TableRef ν)
  /-- A projected row: named members. -/
  | projected (typeName : String) (entries : List (String × Row τ ν))
  /-- A row of the join with this number. -/
  | joined (index : Nat)
  /-- A group of rows. -/
  | group (key : τ) (element : Row τ ν)
deriving Inhabited

/-- `FieldMap`: the members of a projected row. -/
structure Entries (τ : Type := Term) (ν : Type := Nat) where
  /-- The name of what was projected onto, in messages. -/
  typeName : String
  list : List (String × Row τ ν)
deriving Inhabited

variable {τ ν : Type}

namespace Entries

/-- `get`: the value of a member, the first of its name. -/
def find (e : Entries τ ν) (name : String) : Except Fault (Row τ ν) :=
  match e.list.lookup name with
  | some r => .ok r
  | none => .error (.noMember name e.typeName)

/-- `names`: the names of the members. -/
def names (e : Entries τ ν) : List String :=
  e.list.map (·.1)

/-- `of_table`: every column of a table, under the names of the fields. -/
def ofTable [SqlAlgebra τ ν] (t : TableRef ν) : Entries τ ν where
  typeName := t.model.typeName
  list := t.model.fields.map fun f => (f.name, .term (SqlAlgebra.column t.label f.column))

end Entries

namespace Row

/-- A captured value: scalars are known scalars. -/
def ofCaptured : Captured → Row τ ν
  | .scalar v => .scalar v
  | c => .host c

/-- `describe`: the name of what an expression stands for. -/
def kind : Row τ ν → RowKind
  | .scalar _ => .scalar
  | .host _ => .host
  | .term _ => .column
  | .table _ => .table
  | .projected _ _ => .projected
  | .joined _ => .joined
  | .group _ _ => .group

/-- `sql_text`: the SQL term of what can be a scalar value. -/
def toTerm [SqlAlgebra τ ν] : Row τ ν → Except Fault τ
  | .term t => .ok t
  | .scalar v => SqlAlgebra.literal v
  | .host c => .error (.value (.hostAsSql c.typeName))
  | r => .error (.use (.notScalar r.kind))

/-- The known scalar, if this is one. -/
def asScalar : Row τ ν → Option Value
  | .scalar v => some v
  | _ => none

/-- Whether this is a group. -/
def isGroup : Row τ ν → Bool
  | .group _ _ => true
  | _ => false

end Row

end QueryChain
