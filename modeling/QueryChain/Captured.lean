import QueryChain.Fault
import QueryChain.Json

/-!
# Captured host values

Values of the calling program that a query refers to: scalars, and objects whose members are looked up by
name. Plain data of the program is captured by `Captured.ofData`, which sorts the members of an object by name,
keeps the last of a name, reads a whole number beyond 64 bits with a sign as a float and a float that is not
finite as null.

* `Captured.member_withMember`: a member that was added last is found unless one of its name came before.
-/

namespace QueryChain

/-- `HostValue`: a captured value. -/
inductive Captured where
  | scalar (v : Value)
  | object (typeName : String) (fields : List (String × Captured))
deriving Inhabited

namespace Captured

/-- `with`: adds a member; scalars have none. -/
def withMember (c : Captured) (name : String) (value : Captured) : Captured :=
  match c with
  | .object typeName fields => .object typeName (fields ++ [(name, value)])
  | .scalar v => .scalar v

/-- `type_name`: the name of the type of a captured value. -/
def typeName : Captured → String
  | .scalar v => typeNameOrNull v.scalarType
  | .object typeName _ => typeName

/-- `member`: the member with a name, the first if there are several. -/
def member (c : Captured) (name : String) : Except Fault Captured :=
  match c with
  | .object typeName fields =>
    match fields.lookup name with
    | some value => .ok value
    | none => .error (.noMember name typeName)
  | .scalar v => .error (.noMember name (typeNameOrNull v.scalarType))

/-- A member that was added last is found unless one of its name came before. -/
theorem member_withMember {typeName : String} {fields : List (String × Captured)} {name : String}
    (h : fields.lookup name = none) (value : Captured) :
    ((object typeName fields).withMember name value).member name = .ok value := by
  simp [withMember, member, List.lookup_append, h]

mutual

/-- Equality of captured values; floats compare as numbers. -/
def beq : Captured → Captured → Bool
  | .scalar v, .scalar w => v == w
  | .object t fs, .object u gs => t == u && beqFields fs gs
  | _, _ => false

/-- Equality of members. -/
def beqFields : List (String × Captured) → List (String × Captured) → Bool
  | [], [] => true
  | f :: fs, g :: gs => beqField f g && beqFields fs gs
  | _, _ => false

/-- Equality of one member. -/
def beqField : String × Captured → String × Captured → Bool
  | (n, c), (m, d) => n == m && beq c d

end

instance : BEq Captured := ⟨beq⟩

end Captured

/-! ## Capturing data -/

/-- Plain data of the calling program. -/
inductive HostData where
  | null
  | bool (b : Bool)
  | int (n : Int64)
  | natural (n : UInt64)
  | float (x : Float)
  | text (s : String)
  | sequence (items : List HostData)
  | fields (members : List (String × HostData))
deriving Inhabited

mutual

/-- `from_serialize`: captures data under the name of its type; members are named `type.member`. Sequences cannot be
captured. -/
def Captured.ofData (typeName : String) : HostData → Except Fault Captured
  | .null => .ok (.scalar .null)
  | .bool b => .ok (.scalar (.bool b))
  | .int n => .ok (.scalar (.int n))
  | .natural n =>
    if n.toNat < 9223372036854775808 then .ok (.scalar (.int (Int64.ofNat n.toNat)))
    else .ok (.scalar (.float n.toFloat))
  | .float x =>
    if (Decimal.Binary.ofBits x.toBits).isSome then .ok (.scalar (.float x)) else .ok (.scalar .null)
  | .text s => .ok (.scalar (.text s))
  | .sequence _ => .error (.value (.sequenceCaptured typeName))
  | .fields members => do
    let captured := Json.sortMembers (Captured.ofMembers typeName members)
    let fields ← captured.mapM fun (name, result) => do
      let value ← result
      pure (name, value)
    .ok (.object typeName fields)

/-- Captures members, each with its own outcome. -/
def Captured.ofMembers (typeName : String) :
    List (String × HostData) → List (String × Except Fault Captured)
  | [] => []
  | member :: rest => Captured.ofMember typeName member :: Captured.ofMembers typeName rest

/-- Captures one member. -/
def Captured.ofMember (typeName : String) : String × HostData → String × Except Fault Captured
  | (name, data) => (name, Captured.ofData (typeName ++ "." ++ name) data)

end

end QueryChain
