import QueryChain.Text.Outline
import QueryChain.Tree.Basic

/-!
# Outlines of expression trees

An expression tree in full: every node with its static type, and every model with its fields. Values are written
so that they can be told apart: texts in quotes and floats with a point or an exponent.

* `Expr.outline`: the outline of a tree.
-/

namespace QueryChain

open Text Decimal

/-! ## Values and models -/

/-- The outline of a type of scalars. -/
def ScalarType.outline (t : ScalarType) : Outline := .word t.name

/-- The outline of a scalar. -/
def Value.outline : Value → Outline
  | .null => .word "Null"
  | .bool b => .wrap "Bool" (.word (if b then "true" else "false"))
  | .int n => .wrap "Int" (.word (toString n.toInt))
  | .float x => .wrap "Float" (.word (layout exactLayout x))
  | .text s => .wrap "Text" (.text s)
  | .dateTime t => .wrap "DateTime" (.word t.writeFull)

/-- The outline of a field. -/
def Field.outline (f : Field) : Outline :=
  .record "FieldMeta" [("name", .text f.name), ("column", .text f.column),
    ("value_type", .ofOption (f.type.map ScalarType.outline))]

/-- The outline of a model. -/
def Model.outline (m : Model) : Outline :=
  .record "ModelMeta" [("type_name", .text m.typeName), ("table", .text m.table),
    ("fields", .items (m.fields.map Field.outline)),
    ("primary_key", .ofOption (m.primaryKey.map Outline.text))]

/-- The outline of a static type. -/
def StaticType.outline : StaticType → Outline
  | .unknown => .word "Unknown"
  | .scalar t => .wrap "Scalar" t.outline
  | .model m => .wrap "Model" m.outline
  | .host typeName => .wrap "Host" (.text typeName)
  | .sequence e => .wrap "Sequence" (outline e)
  | .grouping k e => .record "Grouping" [("key", outline k), ("element", outline e)]

mutual

/-- The outline of a captured value. -/
def Captured.outline : Captured → Outline
  | .scalar v => .wrap "Scalar" v.outline
  | .object typeName fields =>
    .record "Object" [("type_name", .text typeName), ("fields", .items (Captured.outlines fields))]

/-- The outlines of members. -/
def Captured.outlines : List (String × Captured) → List Outline
  | [] => []
  | field :: rest => Captured.memberOutline field :: Captured.outlines rest

/-- The outline of a member. -/
def Captured.memberOutline : String × Captured → Outline
  | (name, c) => .tuple [.text name, Captured.outline c]

end

/-! ## Trees -/

/-- The name of a kind of shape. -/
def ShapeKind.name : ShapeKind → String
  | .named => "Named"
  | .positional => "Positional"

namespace Expr

/-- The outline of a node: what it is, and its static type. -/
def nodeOutline (kind : Outline) (ty : StaticType) : Outline :=
  .record "Expr" [("kind", kind), ("ty", ty.outline)]

/-- The outline of a call. -/
def callOutline (target : Option Outline) (name : String) (args : List Outline) : Outline :=
  .record "Call" [("target", .ofOption target), ("method", .text name), ("args", .items args)]

mutual

/-- The outline of a tree. -/
def outline : Expr → Outline
  | .value v t => nodeOutline (.wrap "Constant" (.wrap "Value" v.outline)) t
  | .captured c t => nodeOutline (.wrap "Constant" (.wrap "Host" c.outline)) t
  | .table m t => nodeOutline (.wrap "Constant" (.wrap "Table" m.outline)) t
  | .param name t => nodeOutline (.wrap "Parameter" (.text name)) t
  | .field e name t =>
    nodeOutline (.record "FieldAccess" [("target", outline e), ("field", .text name)]) t
  | .binary op l r t =>
    nodeOutline
      (.record "Binary" [("op", .word op.name), ("left", outline l), ("right", outline r)]) t
  | .method e name args t => nodeOutline (callOutline (some (outline e)) name (outlines args)) t
  | .operator name args t => nodeOutline (callOutline none name (outlines args)) t
  | .lambda params body t =>
    nodeOutline
      (.record "Lambda" [("params", .items (params.map Outline.text)), ("body", outline body)]) t
  | .quote e t => nodeOutline (.wrap "Quote" (outline e)) t
  | .object shape members t =>
    nodeOutline
      (.record "New" [("shape", .word shape.name), ("members", .items (memberOutlines members))]) t

/-- The outlines of trees. -/
def outlines : List Expr → List Outline
  | [] => []
  | e :: rest => outline e :: outlines rest

/-- The outlines of members. -/
def memberOutlines : List (String × Expr) → List Outline
  | [] => []
  | member :: rest => memberOutline member :: memberOutlines rest

/-- The outline of a member. -/
def memberOutline : String × Expr → Outline
  | (name, e) => .tuple [.text name, outline e]

end

end Expr

end QueryChain
