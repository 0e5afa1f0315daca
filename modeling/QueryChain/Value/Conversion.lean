import QueryChain.Fault

/-!
# Conversions between scalar types

A value enters a field or a result of a declared type by `coerce`: null stays null, a value of the type
stays as it is, and anything becomes a text where a text is wanted. A `Slot` is a place for values of one
type in a row object; it may accept null, and may be narrower than the type.

* `Value.coerce_idem`: coercing twice is coercing once.
* `Slot.read_null`: exactly the optional slots accept null.
-/

namespace QueryChain

/-- `coerce`: brings a value into a declared type. -/
def Value.coerce (v : Value) (target : ScalarType) : Except Fault Value :=
  match v.scalarType with
  | none => .ok v
  | some found =>
    if found = target then .ok v
    else if target = .text then .ok (.text v.display)
    else .error (.typeMismatch target (.value found))

/-- Brings a value into a declared type, if there is one. -/
def Value.coerceTo (v : Value) : Option ScalarType → Except Fault Value
  | some t => v.coerce t
  | none => .ok v

/-- Coercing twice is coercing once. -/
theorem Value.coerce_idem {v w : Value} {t : ScalarType} (h : v.coerce t = .ok w) :
    w.coerce t = .ok w := by
  cases v <;> cases t <;> simp_all [coerce, scalarType] <;> subst h <;> rfl

/-! ## Slots -/

/-- The kinds of value that a slot of a row object holds. -/
inductive SlotKind where
  | bool
  | int32
  | int64
  | float
  | text
  | dateTime
deriving DecidableEq

/-- `FromValue`: a place in a row object. -/
structure Slot where
  kind : SlotKind
  /-- The slot may be left empty: it accepts null. -/
  optional : Bool
deriving DecidableEq

/-- The scalar type of a slot. -/
def SlotKind.scalarType : SlotKind → ScalarType
  | .bool => .bool
  | .int32 | .int64 => .int
  | .float => .float
  | .text => .text
  | .dateTime => .dateTime

/-- `TYPE`: the scalar type of a slot. -/
def Slot.scalarType (slot : Slot) : ScalarType :=
  slot.kind.scalarType

/-- The value of a slot that nothing was put into. -/
def Slot.initial (slot : Slot) : Value :=
  if slot.optional then .null
  else match slot.kind with
    | .bool => .bool false
    | .int32 | .int64 => .int 0
    | .float => .float 0.0
    | .text => .text ""
    | .dateTime => .dateTime default

/-- Whether an integer fits into 32 bits with a sign. -/
def fitsInt32 (n : Int64) : Bool :=
  -2147483648 ≤ n.toInt && n.toInt ≤ 2147483647

/-- What a slot of a kind holds after a value is put into it. -/
def SlotKind.read (kind : SlotKind) (v : Value) : Except Fault Value := do
  let w ← v.coerce kind.scalarType
  match w with
  | .null => .error (.typeMismatch kind.scalarType .sqlNull)
  | .int n =>
    if kind = .int32 ∧ ¬ fitsInt32 n then .error (.value (.outsideInt32 n)) else .ok (.int n)
  | w => .ok w

/-- `from_value`: what a slot holds after a value is put into it. -/
def Slot.read (slot : Slot) (v : Value) : Except Fault Value :=
  if slot.optional && v.isNull then .ok .null else slot.kind.read v

/-- Exactly the optional slots accept null. -/
theorem Slot.read_null (slot : Slot) :
    slot.read .null =
      if slot.optional then .ok .null else .error (.typeMismatch slot.scalarType .sqlNull) := by
  cases h : slot.optional with
  | true => simp [Slot.read, h, Value.isNull]
  | false =>
    simp only [Slot.read, h, Slot.scalarType]
    rfl

end QueryChain
