import QueryChain.Json
import QueryChain.Rows.Cursor

/-!
# Listings of result sets

A result set as text: a table with a header, a rule and a line for each row, or a JSON array of objects. The width
of a table column is the greatest length of its cells in bytes, while cells are filled up by characters.

* `ResultSet.listing`: the text of a result set.
* `fill_length`: a filled cell has at least the wanted width.
-/

namespace QueryChain

/-- `OutputFormat`: how results are listed. -/
inductive ListingFormat where
  | table
  | json
deriving DecidableEq, Repr, Inhabited

/-- Fills a text up with blanks on the right. -/
def fill (width : Nat) (s : String) : String :=
  s ++ String.ofList (List.replicate (width - s.length) ' ')

/-- A filled cell has at least the wanted width. -/
theorem fill_length (width : Nat) (s : String) : width ≤ (fill width s).length := by
  simp [fill]; omega

namespace ResultSet

/-! ## Tables -/

/-- Widths grown to hold the cells of a row. -/
def widen : List Nat → List String → List Nat
  | width :: widths, cell :: cells => Nat.max width cell.utf8ByteSize :: widen widths cells
  | widths, _ => widths

/-- `cell`: the cells of the rows. -/
def cells (s : ResultSet) : List (List String) :=
  s.rows.map fun row => row.map Value.display

/-- The width of each column. -/
def widths (s : ResultSet) : List Nat :=
  s.cells.foldl widen (s.columns.map String.utf8ByteSize)

/-- A line of cells, at most one per width. -/
def tableLine (widths : List Nat) (cells : List String) : String :=
  " │ ".intercalate (List.zipWith fill widths cells)

/-- The rule below the header. -/
def tableRule (widths : List Nat) : String :=
  "─┼─".intercalate (widths.map fun width => String.ofList (List.replicate width '─'))

/-- The lines of a table. -/
def tableLines (s : ResultSet) : List String :=
  [tableLine s.widths s.columns, tableRule s.widths] ++
    s.cells.map (tableLine s.widths) ++
    ["", toString s.rows.length ++ " row(s) returned"]

/-! ## JSON -/

/-- A row as an object; of columns with one name the last counts. -/
def rowObject (s : ResultSet) (row : List Value) : Json :=
  .object (Json.sortMembers (List.zip s.columns (row.map Value.toJson)))

/-- The rows as an array of objects. -/
def toJson (s : ResultSet) : Json := .array (s.rows.map s.rowObject)

/-! ## Listings -/

/-- `format_output`: the lines of a listing. -/
def listing (s : ResultSet) (format : ListingFormat) : List String :=
  if s.rows.isEmpty then ["(no results)"]
  else match format with
    | .json => [s.toJson.pretty 0]
    | .table => s.tableLines

end ResultSet

end QueryChain
