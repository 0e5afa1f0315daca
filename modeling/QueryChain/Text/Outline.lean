import QueryChain.Text.Escape

/-!
# Outlines

An outline is a tree of words, wrappers, records and lists. It is written over many lines: every part stands on a
line of its own, four blanks deeper than what holds it, and ends in a comma.

* `Outline.render`: the text of an outline at a depth.
* `Outline.render_items_nil`: an empty list stays on one line.
-/

namespace QueryChain.Text

/-- A tree to be written over many lines. -/
inductive Outline where
  /-- A word or a number as it stands. -/
  | word (s : String)
  /-- One part in parentheses after a name. -/
  | wrap (name : String) (part : Outline)
  /-- Parts in parentheses. -/
  | tuple (parts : List Outline)
  /-- Named parts in braces after a name. -/
  | record (name : String) (fields : List (String × Outline))
  /-- Parts in brackets. -/
  | items (parts : List Outline)

namespace Outline

/-- A text in quotes. -/
def text (s : String) : Outline := .word (treeQuoted s)

/-- A part that may be absent. -/
def ofOption : Option Outline → Outline
  | some part => .wrap "Some" part
  | none => .word "None"

/-- The blanks before a line at a depth. -/
def indent (depth : Nat) : String :=
  String.ofList (List.replicate (4 * depth) ' ')

/-- Lines at a depth, each with a comma, between an opening and a closing line; nothing stays between them. -/
def enclosed (depth : Nat) (opening closing : String) (lines : List String) : String :=
  match lines with
  | [] => opening ++ closing
  | lines =>
    opening ++ "\n" ++
      String.join (lines.map fun line => indent (depth + 1) ++ line ++ ",\n") ++
      indent depth ++ closing

mutual

/-- The text of an outline whose first line starts at a depth. -/
def render (depth : Nat) : Outline → String
  | .word s => s
  | .wrap name part => enclosed depth (name ++ "(") ")" [render (depth + 1) part]
  | .tuple parts => enclosed depth "(" ")" (renderAll (depth + 1) parts)
  | .record name fields => enclosed depth (name ++ " \x7b") "\x7d" (renderFields (depth + 1) fields)
  | .items parts => enclosed depth "[" "]" (renderAll (depth + 1) parts)

/-- The texts of parts. -/
def renderAll (depth : Nat) : List Outline → List String
  | [] => []
  | part :: rest => render depth part :: renderAll depth rest

/-- The texts of named parts. -/
def renderFields (depth : Nat) : List (String × Outline) → List String
  | [] => []
  | field :: rest => renderField depth field :: renderFields depth rest

/-- The text of a named part. -/
def renderField (depth : Nat) : String × Outline → String
  | (name, part) => name ++ ": " ++ render depth part

end

/-- An empty list stays on one line. -/
theorem render_items_nil (depth : Nat) : render depth (.items []) = "[]" := rfl

end Outline

end QueryChain.Text
