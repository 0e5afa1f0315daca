import QueryChain.Value.Conversion

/-!
# Models and row objects

A model says how the fields of a row type map to the columns of a table, and how a row object is made. Rows of a
*dynamic* model are records, which keep any value under any name. Rows of a *typed* model are objects with one
slot per field, each for values of one type.

Two models are the same when they were described at one place: a model carries the identity of its
description. Models that the library makes on the fly, for the target of a projection, have none, and are told
apart by content.

* `RowObject.get_set`, `RowObject.get_set_ne`: an assignment is read back, and leaves other fields alone.
* `Model.columnOf_eq_error`: a field without a column is a field that the model does not have.
-/

namespace QueryChain

/-! ## Row objects -/

/-- What a row object is made for. -/
inductive ObjectKind where
  /-- A record, named after its model. -/
  | record (model : String)
  /-- An object of a typed model. -/
  | typed (typeName : String)
  /-- Anything else, of no use to a model. -/
  | foreign
deriving DecidableEq, Inhabited

/-- `Record`: a row as an object: named values in the order of their first assignment. -/
structure RowObject where
  kind : ObjectKind
  values : List (String × Value)
deriving Inhabited

namespace RowObject

/-- `new`: a record without values. -/
def record (model : String) : RowObject := ⟨.record model, []⟩

/-- `get`: the value under a name. -/
def get (o : RowObject) (name : String) : Option Value :=
  o.values.lookup name

/-- Replaces the value under a name, or adds it at the end. -/
def setIn (name : String) (v : Value) : List (String × Value) → List (String × Value)
  | [] => [(name, v)]
  | (n, w) :: rest => if n = name then (n, v) :: rest else (n, w) :: setIn name v rest

/-- `set`: assigns the value under a name. -/
def set (o : RowObject) (name : String) (v : Value) : RowObject :=
  { o with values := setIn name v o.values }

theorem lookup_setIn (name : String) (v : Value) (l : List (String × Value)) :
    (setIn name v l).lookup name = some v := by
  induction l with
  | nil => simp [setIn]
  | cons p rest ih =>
    obtain ⟨n, w⟩ := p
    by_cases h : n = name
    · simp [setIn, h]
    · have : (name == n) = false := by simpa using Ne.symm h
      simp [setIn, h, List.lookup_cons, this, ih]

theorem lookup_setIn_ne {name other : String} (h : other ≠ name) (v : Value)
    (l : List (String × Value)) : (setIn name v l).lookup other = l.lookup other := by
  have hne : (other == name) = false := by simpa using h
  induction l with
  | nil => simp [setIn, List.lookup_cons, hne]
  | cons p rest ih =>
    obtain ⟨n, w⟩ := p
    by_cases hn : n = name
    · subst hn
      simp [setIn, List.lookup_cons, hne]
    · cases ho : other == n <;> simp [setIn, hn, List.lookup_cons, ho, ih]

/-- An assignment is read back. -/
@[simp] theorem get_set (o : RowObject) (name : String) (v : Value) :
    (o.set name v).get name = some v := lookup_setIn name v o.values

/-- An assignment leaves other names alone. -/
theorem get_set_ne (o : RowObject) {name other : String} (h : other ≠ name) (v : Value) :
    (o.set name v).get other = o.get other := lookup_setIn_ne h v o.values

end RowObject

/-! ## Models -/

/-- `FieldMeta`: a field of a model. -/
structure Field where
  name : String
  /-- The column of the table that holds the field. -/
  column : String
  type : Option ScalarType
  /-- The place of the field in a typed object; records need none. -/
  slot : Option Slot
  /-- Fields of typed objects may be filled by the constructor only. -/
  settable : Bool
deriving DecidableEq

/-- `constructor`: a constructor that takes values by position. -/
structure Constructor where
  /-- The fields whose values are passed, in order. -/
  params : List String
  /-- The slots that the constructor fills from the values passed, one after the other. -/
  takes : List (String × Slot)
  /-- The fields that it sets by itself. -/
  presets : List (String × Value)
deriving BEq

/-- `Factory`: how the row objects of a model are made. -/
inductive Construction where
  /-- They are not. -/
  | none
  /-- An initial object, whose fields are assigned one by one. -/
  | initial
  /-- By a constructor. -/
  | positional (constructor : Constructor)
deriving BEq

/-- Where a model was described. -/
inductive Identity where
  /-- In a schema, under a name. -/
  | schema (name : String)
  /-- For a typed row object. -/
  | typed (typeName : String)
  /-- By itself; the number tells such models apart. -/
  | single (number : Nat)
  /-- On the fly, as the target of a projection. -/
  | projection
deriving DecidableEq

/-- `ModelMeta`: the mapping of a row type to a table. -/
structure Model where
  identity : Identity
  typeName : String
  table : String
  fields : List Field
  primaryKey : Option String
  construction : Construction
  /-- Whether row objects are typed objects; else they are records. -/
  isTyped : Bool
deriving BEq

instance : Inhabited Model := ⟨⟨.projection, "", "", [], none, .none, false⟩⟩

namespace Model

/-! ## Making models -/

/-- `record_field`: a field of records. -/
def recordField (name column : String) (type : Option ScalarType) : Field :=
  ⟨name, column, type, none, true⟩

/-- `dynamic`: a model whose rows are records. -/
def dynamic (identity : Identity) (typeName table : String)
    (fields : List (String × String × Option ScalarType)) (primaryKey : Option String) : Model where
  identity
  typeName
  table
  fields := fields.map fun (name, column, type) => recordField name column type
  primaryKey
  construction := .initial
  isTyped := false

/-- The name of models without a name. -/
def anonymousName : String := "<anonymous>"

/-- `anonymous`: the target of a projection onto the given members; it has no table. -/
def anonymous (identity : Identity) (members : List (String × Option ScalarType)) : Model :=
  dynamic identity anonymousName "" (members.map fun (name, type) => (name, name, type)) none

/-- `field`, `readonly_field`: a field of typed objects. -/
def typedField (name column : String) (slot : Slot) (settable : Bool) : Field :=
  ⟨name, column, some slot.scalarType, some slot, settable⟩

/-- `eq`: whether two models are the same one. -/
def same (a b : Model) : Bool :=
  match a.identity, b.identity with
  | .projection, .projection => a == b
  | i, j => i == j

/-! ## Fields -/

/-- `field`: the field with a name, the first if there are several. -/
def field (m : Model) (name : String) : Option Field :=
  m.fields.find? (·.name = name)

/-- `column_of`: the column of a field. -/
def columnOf (m : Model) (name : String) : Except Fault String :=
  match m.field name with
  | some f => .ok f.column
  | none => .error (.noMember name m.typeName)

/-- The declared type of a field. -/
def typeOf (m : Model) (name : String) : Option ScalarType :=
  (m.field name).bind (·.type)

/-- `constructor_params`: the parameters of the constructor, if objects are made by one. -/
def constructorParams (m : Model) : Option (List String) :=
  match m.construction with
  | .positional c => some c.params
  | _ => none

/-- A field without a column is a field that the model does not have. -/
theorem columnOf_eq_error {m : Model} {name : String} {e : Fault} (h : m.columnOf name = .error e) :
    m.field name = none ∧ e = .noMember name m.typeName := by
  unfold columnOf at h
  split at h <;> simp_all

/-! ## Reading and assigning fields -/

/-- The kind of the row objects of a model. -/
def objectKind (m : Model) : ObjectKind :=
  if m.isTyped then .typed m.typeName else .record m.typeName

/-- A new row object: a record is empty, and the slots of a typed object hold their initial values. -/
def initialObject (m : Model) : RowObject :=
  ⟨m.objectKind, m.fields.filterMap fun f => f.slot.map fun slot => (f.name, slot.initial)⟩

/-- Whether an object is one whose fields a field of the model can reach. -/
def reaches (m : Model) (f : Field) (o : RowObject) : Bool :=
  match f.slot, o.kind with
  | none, .record _ => true
  | some _, .typed typeName => typeName = m.typeName
  | _, _ => false

/-- `get`: reads a field of a row object; a record without it reads null. -/
def get (m : Model) (o : RowObject) (name : String) : Except Fault Value :=
  match m.field name with
  | none => .error (.noMember name m.typeName)
  | some f =>
    if m.reaches f o then .ok ((o.get name).getD .null) else .error (.shape (.notA m.typeName))

/-- `set`: assigns a field of a row object, after bringing the value into the declared type of the field. -/
def set (m : Model) (o : RowObject) (name : String) (v : Value) : Except Fault RowObject := do
  match m.field name with
  | none => .error (.noMember name m.typeName)
  | some f =>
    if f.settable then
      let v ← v.coerceTo f.type
      match f.slot with
      | none =>
        if m.reaches f o then .ok (o.set name v) else .error (.shape .notRecord)
      | some slot =>
        if m.reaches f o then
          let v ← slot.read v
          .ok (o.set name v)
        else .error (.shape (.wrongObject name))
    else .error (.noMember name m.typeName)

/-! ## Constructors -/

/-- `CtorArgs`: fills slots from values, in order. -/
def fill : List (String × Slot) → List Value → RowObject → Except Fault RowObject
  | [], _, o => .ok o
  | _ :: _, [], _ => .error (.shape .tooFewArguments)
  | (name, slot) :: slots, v :: values, o => do
    let v ← slot.read v
    fill slots values (o.set name v)

/-- Calls the constructor with values. -/
def construct (m : Model) (c : Constructor) (values : List Value) : Except Fault RowObject := do
  let o ← fill c.takes values m.initialObject
  .ok (c.presets.foldl (fun o (name, v) => o.set name v) o)

end Model

end QueryChain
