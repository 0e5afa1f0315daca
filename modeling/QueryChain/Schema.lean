import QueryChain.Model

/-!
# Schemas

A schema is a list of models with distinct names, built up one by one. A model is found by its name, and where
there is none, by its table.

* `Schema.declare`: adds a model.
* `Schema.find_of_name`: a model name comes before a table name.
-/

namespace QueryChain

/-- `FieldDef`: the declaration of a field. -/
structure FieldSpec where
  name : String
  type : ScalarType
  /-- The column, named like the field if not given. -/
  column : Option String
deriving DecidableEq

/-- `ModelDef`: the declaration of a model. -/
structure ModelSpec where
  name : String
  /-- The table, named like the model if not given. -/
  table : Option String
  primaryKey : Option String
  fields : List FieldSpec
deriving DecidableEq

/-- The model that a declaration describes. -/
def ModelSpec.toModel (spec : ModelSpec) : Model :=
  Model.dynamic (.schema spec.name) spec.name (spec.table.getD spec.name)
    (spec.fields.map fun f => (f.name, f.column.getD f.name, some f.type)) spec.primaryKey

/-- `Schema`: a set of models. -/
structure Schema where
  models : List Model
deriving Inhabited

namespace Schema

/-- `new`: the schema without models. -/
def empty : Schema := ⟨[]⟩

/-- `find`: the model with a name, or else with a table. -/
def find (s : Schema) (name : String) : Option Model :=
  s.models.find? (·.typeName = name) <|> s.models.find? (·.table = name)

/-- `get`: the model with a name or table. -/
def get (s : Schema) (name : String) : Except Fault Model :=
  match s.find name with
  | some m => .ok m
  | none => .error (.noMember name "schema")

/-- `add_model`: a declaration as a step on a schema: it is refused if its name is taken or its key is no field, and
only then the model is added. -/
def declare (spec : ModelSpec) : ExceptT Fault (StateM Schema) Unit := do
  let s ← getThe Schema
  if (s.find spec.name).isSome then
    throw (.settings (.modelTwice spec.name))
  else
    match spec.primaryKey with
    | some key =>
      if spec.fields.any (·.name = key) then set (⟨s.models ++ [spec.toModel]⟩ : Schema)
      else throw (.settings (.strangeKey key spec.name))
    | none => set (⟨s.models ++ [spec.toModel]⟩ : Schema)

/-- The schema with a model added, if its declaration is not refused. -/
def add (s : Schema) (spec : ModelSpec) : Except Fault Schema :=
  let (outcome, t) := ExceptT.run (declare spec) s
  outcome.map fun _ => t

/-- The schema of a list of declarations. -/
def ofSpecs (specs : List ModelSpec) : Except Fault Schema :=
  specs.foldlM add empty

/-- A model name comes before a table name. -/
theorem find_of_name {s : Schema} {name : String} {m : Model}
    (h : s.models.find? (·.typeName = name) = some m) : s.find name = some m := by
  simp [find, h]

end Schema

end QueryChain
