import QueryChain.Toml.Document

/-!
# Decoding TOML values

Settings are decoded from TOML values by their type. A group of settings is a table with a key for each, or an
array of them in order; keys that are not known are passed over, and a date counts as a table with a key that is
not known. One of several words is a string, or a table with the word as its only key and an empty table or array
under it.
-/

namespace QueryChain.Toml

namespace Value

/-- A string. -/
def asString : Value → Option String
  | .string s => some s
  | _ => none

/-- A truth value. -/
def asBool : Value → Option Bool
  | .boolean b => some b
  | _ => none

/-- An array. -/
def asArray : Value → Option (List Value)
  | .array items => some items
  | _ => none

/-- Nothing in a table or an array. -/
def isEmpty : Value → Bool
  | .array items => items.isEmpty
  | .table entries => entries.isEmpty
  | _ => false

/-- One of several words. -/
def asWord {α : Type} (ofWord : String → Option α) : Value → Option α
  | .string s => ofWord s
  | .table [(s, v)] => if v.isEmpty then ofWord s else none
  | _ => none

end Value

/-- A group of settings: its values by key, and by position. -/
structure Group where
  byKey : String → Option Value
  byPosition : Nat → Option Value

/-- A value as a group of settings. -/
def Value.asGroup : Value → Option Group
  | .table entries => some ⟨fun key => entries.lookup key, fun _ => none⟩
  | .array items => some ⟨fun _ => none, fun n => items[n]?⟩
  | .dateTime => some ⟨fun _ => none, fun _ => none⟩
  | _ => none

namespace Group

/-- The value of a setting, if it is there. -/
def value (g : Group) (key : String) (position : Nat) : Option Value :=
  g.byKey key <|> g.byPosition position

/-- A setting that must be there. -/
def required {α : Type} (g : Group) (key : String) (position : Nat) (decode : Value → Option α) :
    Option α :=
  (g.value key position).bind decode

/-- A setting that may be left out; one that is there must be right. -/
def optional {α : Type} (g : Group) (key : String) (position : Nat) (decode : Value → Option α) :
    Option (Option α) :=
  match g.value key position with
  | none => some none
  | some v => (decode v).map some

end Group

/-- The message of a text that is no TOML, or holds other settings than it should. -/
def faultText : String := "TOML parse error"

end QueryChain.Toml
