import QueryChain.Sql.Dialect
import QueryChain.Value.Conversion

/-!
# Result sets and cursors

A result set holds named columns and rows, which may be shorter or longer than the columns. A cursor stands
before the first row, on a row, or past the last; where there is no value it reads null.

* `Cursor.advance_fst`: a step leads to a row exactly while rows remain.
* `Cursor.current_advance`: the row after a step is the next of the rows that remained.
-/

namespace QueryChain

/-- `ResultSet`: a table of values. -/
structure ResultSet where
  columns : List String
  rows : List (List Value)
deriving BEq, Inhabited

/-- `BufferedCursor`: a position in a result set. -/
structure Cursor where
  set : ResultSet
  /-- The number of steps made, as far as they led to rows, and one past the end. -/
  steps : Nat
deriving Inhabited

/-- `cursor`: the cursor before the first row. -/
def ResultSet.cursor (s : ResultSet) : Cursor := ⟨s, 0⟩

namespace Cursor

/-- `current`: the current row. -/
def current (c : Cursor) : Option (List Value) :=
  match c.steps with
  | 0 => none
  | n + 1 => c.set.rows[n]?

/-- `advance`: goes to the next row, and says whether there is one. -/
def advance (c : Cursor) : Bool × Cursor :=
  (c.steps < c.set.rows.length, ⟨c.set, Nat.min (c.steps + 1) (c.set.rows.length + 1)⟩)

/-- The rows after the current one. -/
def remaining (c : Cursor) : List (List Value) := c.set.rows.drop c.steps

/-- `ordinal`: the position of a column: by its exact name, else by its name in any case of ASCII. -/
def ordinal (c : Cursor) (column : String) : Option Nat :=
  c.set.columns.findIdx? (· = column) <|>
    c.set.columns.findIdx? fun name => Dialect.asciiLower name = Dialect.asciiLower column

/-- `value`: the value of the current row at a position. -/
def value (c : Cursor) (index : Nat) : Value :=
  ((c.current.bind (·[index]?))).getD .null

/-- `is_null`: whether the value of the current row at a position is null. -/
def isNull (c : Cursor) (index : Nat) : Bool :=
  (c.value index).isNull

/-- `column_count`: the number of columns. -/
def columnCount (c : Cursor) : Nat := c.set.columns.length

/-- `column_name`: the name of the column at a position. -/
def columnName (c : Cursor) (index : Nat) : Option String := c.set.columns[index]?

/-- A step leads to a row exactly while rows remain. -/
theorem advance_fst (c : Cursor) : c.advance.1 = !c.remaining.isEmpty := by
  by_cases h : c.steps < c.set.rows.length
  · have : c.set.rows.drop c.steps ≠ [] := by simp [List.drop_eq_nil_iff]; omega
    simp [advance, remaining, h, this]
  · simp [advance, remaining, h, List.drop_eq_nil_of_le (Nat.le_of_not_lt h)]

/-- The row after a step is the next of the rows that remained. -/
theorem current_advance {c : Cursor} {row : List Value} {rest : List (List Value)}
    (h : c.remaining = row :: rest) :
    c.advance.2.current = some row ∧ c.advance.2.remaining = rest := by
  have hlt : c.steps < c.set.rows.length := by
    have : c.remaining.length = rest.length + 1 := by simp [h]
    simp only [remaining, List.length_drop] at this
    omega
  have hmin : Nat.min (c.steps + 1) (c.set.rows.length + 1) = c.steps + 1 := by
    simp [Nat.min_def]; omega
  have hdrop := List.drop_eq_getElem_cons hlt
  simp only [remaining] at h
  rw [hdrop] at h
  injection h with h₁ h₂
  constructor
  · simp only [advance, current, hmin]
    rw [List.getElem?_eq_getElem hlt, h₁]
  · simp only [advance, remaining, hmin, h₂]

end Cursor

end QueryChain
