import QueryChain.Rows.Cursor
import QueryChain.Lowering.Compiled

/-!
# From rows to objects

The current row of a cursor becomes an object of a model, or a scalar. Drivers without types for dates and truth
values hand back texts and integers, which are decoded by the type that is wanted.

* `Cursor.read`: the value of a column in a wanted type.
* `Cursor.materialize`: the current row in the shape of a query, as a value of the wanted row type.
-/

namespace QueryChain

open Calendar

/-! ## Reading columns -/

/-- `parse_datetime`: the moment that a stored text denotes. -/
def readMoment (text : String) : Except Fault Moment :=
  let trimmed := Text.trim text.toList
  match Moment.readAny trimmed with
  | some t => .ok t
  | none => .error (.typeMismatch .dateTime (.unreadable (String.ofList trimmed)))

/-- Decodes a value that a driver hands back, and brings it into the wanted type. -/
def Value.decode (v : Value) (wanted : Option ScalarType) : Except Fault Value :=
  match v, wanted with
  | .null, _ => .ok .null
  | .text s, some .dateTime => do
    let t ← readMoment s
    pure (.dateTime t)
  | .int n, some .bool => .ok (.bool (n != 0))
  | v, wanted => v.coerceTo wanted

namespace Cursor

/-- `read_index`: the value at a position of the current row in the wanted type. -/
def readAt (c : Cursor) (index : Nat) (wanted : Option ScalarType) : Except Fault Value :=
  (c.value index).decode wanted

/-- `read_value`: the value of a column of the current row in the wanted type. -/
def read (c : Cursor) (column : String) (wanted : Option ScalarType) : Except Fault Value :=
  match c.ordinal column with
  | some index => c.readAt index wanted
  | none => .error (.shape (.missingColumn column))

end Cursor

/-! ## Row types -/

/-- What a caller wants rows to be. -/
inductive RowTypeKind where
  /-- Records. -/
  | record
  /-- Scalars of any type. -/
  | scalar
  /-- Scalars that fit a slot. -/
  | slot (s : Slot)
  /-- Objects of a typed model. -/
  | typed (typeName : String)
  /-- Something that no row is. -/
  | foreign
deriving DecidableEq

/-- A row type, with the name that messages have for it. -/
structure RowType where
  name : String
  kind : RowTypeKind

/-- A row as a value of its type. -/
inductive RowValue where
  | scalar (v : Value)
  | object (o : RowObject)
deriving Inhabited

/-- Whether an object is of a row type. -/
def RowType.accepts (T : RowType) (o : RowObject) : Bool :=
  match T.kind, o.kind with
  | .record, .record _ => true
  | .typed typeName, .typed found => typeName = found
  | _, _ => false

/-- `downcast`: an object as a value of a row type. -/
def RowType.ofObject (T : RowType) (o : RowObject) : Except Fault RowValue :=
  if T.accepts o then .ok (.object o) else .error (.shape (.wrongRowType T.name))

/-- Integers count as floats where floats are wanted. -/
def Value.widen (kind : SlotKind) (v : Value) : Value :=
  match kind, v with
  | .float, .int n => .float (Decimal.ofInt64 n)
  | _, v => v

/-- `scalar`: a scalar as a value of a row type. -/
def RowType.ofScalar (T : RowType) (v : Value) : Except Fault RowValue :=
  match T.kind with
  | .scalar => .ok (.scalar v)
  | .slot s => do
    let w ← s.read (v.widen s.kind)
    pure (.scalar w)
  | _ => .error (.shape (.notScalarRowType T.name))

/-! ## Objects -/

namespace Cursor

/-- Assigns fields from columns, one after the other. -/
def assignFields (c : Cursor) (m : Model) : List (String × String) → RowObject → Except Fault RowObject
  | [], o => .ok o
  | (field, column) :: rest, o => do
    let v ← c.read column (m.typeOf field)
    let o ← m.set o field v
    c.assignFields m rest o

/-- The values of parameters from columns. -/
def readParams (c : Cursor) (m : Model) (columns : List (String × String)) :
    List String → Except Fault (List Value)
  | [] => .ok []
  | param :: rest =>
    match columns.lookup param with
    | none => .error (.shape (.unsupplied param m.typeName))
    | some column => do
      let v ← c.read column (m.typeOf param)
      let vs ← c.readParams m columns rest
      pure (v :: vs)

/-- `build`: an object of a model from pairs of fields and columns. -/
def build (c : Cursor) (m : Model) (columns : List (String × String)) : Except Fault RowObject :=
  match m.construction with
  | .initial => c.assignFields m columns m.initialObject
  | .positional constructor => do
    let values ← c.readParams m columns constructor.params
    m.construct constructor values
  | .none => .error (.shape (.noConstruction m.typeName))

end Cursor

/-- The fields of a model with the columns that hold them in a row of its table. -/
def Model.tableColumns (m : Model) : List (String × String) :=
  m.fields.map fun f => (f.name, f.column)

/-- The fields of a model with columns of the same names. -/
def Model.namedColumns (m : Model) : List (String × String) :=
  m.fields.map fun f => (f.name, f.name)

namespace Cursor

/-- An object of a model as a value of a row type. -/
def buildAs (c : Cursor) (T : RowType) (m : Model) (columns : List (String × String)) :
    Except Fault RowValue := do
  let o ← c.build m columns
  T.ofObject o

/-- `materialize`: the current row as a value of a row type. -/
def materialize (c : Cursor) (shape : RowShape) (T : RowType) : Except Fault RowValue :=
  match shape with
  | .entity m => c.buildAs T m m.tableColumns
  | .named m members => c.buildAs T m (members.map fun name => (name, name))
  | .positional m => c.buildAs T m m.namedColumns
  | .scalar type => do
    let v ← c.readAt 0 type
    T.ofScalar v

end Cursor

end QueryChain
