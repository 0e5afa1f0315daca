import QueryChain.Model

/-!
# Static types

The type that a node of an expression tree carries. It decides how members are typed, whether `+` joins texts,
and which calls are query operators.

* `StaticType.element_sequence`: the element type of a sequence.
-/

namespace QueryChain

/-- `TypeRef`: the static type of an expression. -/
inductive StaticType where
  /-- Not known where the expression was built. -/
  | unknown
  | scalar (t : ScalarType)
  /-- A row of a model, or a projection onto one. -/
  | model (m : Model)
  /-- A captured object of the calling program. -/
  | host (typeName : String)
  /-- A sequence that query operators apply to. -/
  | sequence (element : StaticType)
  /-- A group of rows with a key. -/
  | grouping (key element : StaticType)
deriving Inhabited

namespace StaticType

/-- The type of a scalar, unknown for null. -/
def ofScalar (t : Option ScalarType) : StaticType :=
  match t with
  | some t => .scalar t
  | none => .unknown

/-- `element`: the type of the elements of a sequence, unknown for anything else. -/
def element : StaticType → StaticType
  | .sequence e => e
  | _ => .unknown

/-- `scalar`: the scalar type, if this is one. -/
def asScalar : StaticType → Option ScalarType
  | .scalar t => some t
  | _ => none

/-- `model`: the model, if this is the type of its rows. -/
def asModel : StaticType → Option Model
  | .model m => some m
  | _ => none

/-- `member`: the type of a member. -/
def member (t : StaticType) (field : String) : StaticType :=
  match t with
  | .model m => ofScalar (m.typeOf field)
  | .grouping key _ => if field = "Key" then key else .unknown
  | .scalar .text => if field = "Length" then .scalar .int else .unknown
  | _ => .unknown

@[simp] theorem element_sequence (e : StaticType) : (sequence e).element = e := rfl

@[simp] theorem asScalar_ofScalar (t : Option ScalarType) : (ofScalar t).asScalar = t := by
  cases t <;> rfl

/-- Equality of types; models are equal when they are the same one. -/
def beq : StaticType → StaticType → Bool
  | .unknown, .unknown => true
  | .scalar t, .scalar u => t == u
  | .model m, .model n => m.same n
  | .host t, .host u => t == u
  | .sequence e, .sequence f => beq e f
  | .grouping k e, .grouping l f => beq k l && beq e f
  | _, _ => false

instance : BEq StaticType := ⟨beq⟩

end StaticType

end QueryChain
