import QueryChain.Text.Escape
import QueryChain.Value

/-!
# JSON

Values as JSON, on one line or with two spaces per level. The members of an object are kept in order of their
names by code point, and of members with one name the last counts.

-/

namespace QueryChain

open Text Decimal

/-- A JSON value; numbers are kept as their text. -/
inductive Json where
  | null
  | bool (b : Bool)
  | number (text : String)
  | string (s : String)
  | array (items : List Json)
  | object (members : List (String × Json))

namespace Json

/-- Puts a member in its place; it replaces one of its name. -/
def insertMember {α : Type} (name : String) (value : α) : List (String × α) → List (String × α)
  | [] => [(name, value)]
  | (n, v) :: rest =>
    if name < n then (name, value) :: (n, v) :: rest
    else if n < name then (n, v) :: insertMember name value rest
    else (name, value) :: rest

/-- Members in the order of their names, the last of each name. -/
def sortMembers {α : Type} (members : List (String × α)) : List (String × α) :=
  members.foldl (fun sorted (name, value) => insertMember name value sorted) []

/-! ## On one line -/

mutual

/-- A value on one line, without spaces. -/
def compact : Json → String
  | .null => "null"
  | .bool b => if b then "true" else "false"
  | .number text => text
  | .string s => dataQuoted s
  | .array items => "[" ++ ",".intercalate (compactItems items) ++ "]"
  | .object members => "\x7b" ++ ",".intercalate (compactMembers members) ++ "\x7d"

/-- The items of an array, each on one line. -/
def compactItems : List Json → List String
  | [] => []
  | item :: rest => compact item :: compactItems rest

/-- The members of an object, each on one line. -/
def compactMembers : List (String × Json) → List String
  | [] => []
  | member :: rest => compactMember member :: compactMembers rest

/-- A member of an object on one line. -/
def compactMember : String × Json → String
  | (name, value) => dataQuoted name ++ ":" ++ compact value

end

/-! ## Indented -/

/-- A line break and the indent of a level. -/
def lineBreak (level : Nat) : String :=
  "\n" ++ String.ofList (List.replicate (2 * level) ' ')

/-- Parts between brackets, each on a line of its own; brackets alone if there are none. -/
def block (level : Nat) (opening closing : String) (parts : List String) : String :=
  if parts.isEmpty then opening ++ closing
  else
    opening ++ lineBreak (level + 1) ++ ("," ++ lineBreak (level + 1)).intercalate parts ++
      lineBreak level ++ closing

mutual

/-- A value over several lines, at a level of indentation. -/
def pretty (level : Nat) : Json → String
  | .null => "null"
  | .bool b => if b then "true" else "false"
  | .number text => text
  | .string s => dataQuoted s
  | .array items => block level "[" "]" (prettyItems (level + 1) items)
  | .object members => block level "\x7b" "\x7d" (prettyMembers (level + 1) members)

/-- The items of an array, each over several lines. -/
def prettyItems (level : Nat) : List Json → List String
  | [] => []
  | item :: rest => pretty level item :: prettyItems level rest

/-- The members of an object, each over several lines. -/
def prettyMembers (level : Nat) : List (String × Json) → List String
  | [] => []
  | member :: rest => prettyMember level member :: prettyMembers level rest

/-- A member of an object over several lines. -/
def prettyMember (level : Nat) : String × Json → String
  | (name, value) => dataQuoted name ++ ": " ++ pretty level value

end

end Json

/-- `to_json`: a value as JSON: moments are texts, and a float that is not finite is null. -/
def Value.toJson : Value → Json
  | .null => .null
  | .bool b => .bool b
  | .int n => .number (toString n.toInt)
  | .float x =>
    if (Binary.ofBits x.toBits).isSome then .number (layout dataLayout x) else .null
  | .text s => .string s
  | v@(.dateTime _) => .string v.display

end QueryChain
