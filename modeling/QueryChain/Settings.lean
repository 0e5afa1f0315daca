import QueryChain.Schema
import QueryChain.Sql.Term
import QueryChain.Toml.Decode

/-!
# Settings files

Schemas and settings are kept in TOML files.

* `Schema.ofToml`: the schema of a text with an array of tables `model`.
* `Settings.ofToml`: address, schema file and options of statements, each with a default.
-/

namespace QueryChain

open Toml

/-! ## Schemas -/

/-- The declaration of a field. -/
def FieldSpec.ofToml (v : Toml.Value) : Option FieldSpec := do
  let g ← v.asGroup
  let name ← g.required "name" 0 Toml.Value.asString
  let type ← g.required "type" 1 (Toml.Value.asWord ScalarType.ofKeyword)
  let column ← g.optional "column" 2 Toml.Value.asString
  some ⟨name, type, column⟩

/-- The declaration of a model. -/
def ModelSpec.ofToml (v : Toml.Value) : Option ModelSpec := do
  let g ← v.asGroup
  let name ← g.required "name" 0 Toml.Value.asString
  let table ← g.optional "table" 1 Toml.Value.asString
  let primaryKey ← g.optional "primary_key" 2 Toml.Value.asString
  let items ← g.required "fields" 3 Toml.Value.asArray
  let fields ← items.mapM FieldSpec.ofToml
  some ⟨name, table, primaryKey, fields⟩

/-- The declarations of a schema file. -/
def ModelSpec.listOfToml (text : String) : Option (List ModelSpec) := do
  let entries ← Toml.read text
  match entries.lookup "model" with
  | none => some []
  | some v => do
    let items ← v.asArray
    items.mapM ModelSpec.ofToml

/-- `from_toml`: the schema of a file. -/
def Schema.ofToml (text : String) : Except Fault Schema :=
  match ModelSpec.listOfToml text with
  | some specs => Schema.ofSpecs specs
  | none => .error (.settings (.badSchema Toml.faultText))

/-! ## Settings -/

/-- `ExqlConfig`: what can be set. -/
structure Settings where
  databaseUrl : Option String
  schemaPath : Option String
  options : Options
deriving DecidableEq

namespace Settings

/-- Nothing set. -/
def standard : Settings := ⟨none, none, .standard⟩

instance : Inhabited Settings := ⟨standard⟩

/-- `database`: with the address of a database. -/
def withDatabase (s : Settings) (url : String) : Settings := { s with databaseUrl := some url }

/-- `schema`: with a schema file. -/
def withSchema (s : Settings) (path : String) : Settings := { s with schemaPath := some path }

/-- With other options. -/
def withOptions (s : Settings) (change : Options → Options) : Settings :=
  { s with options := change s.options }

/-- `alias_prefix`: with a prefix of aliases. -/
def withAliasPrefix (s : Settings) (word : String) : Settings :=
  s.withOptions fun o => { o with aliasPrefix := word }

/-- `nest_joins`: with nested or flat joins. -/
def withNestJoins (s : Settings) (nest : Bool) : Settings :=
  s.withOptions fun o => { o with nestJoins := nest }

/-- `dialect`: with a dialect. -/
def withDialect (s : Settings) (d : Dialect) : Settings :=
  s.withOptions fun o => { o with dialect := d }

end Settings

/-- The options of a settings file; those left out are standard. -/
def Options.ofToml (v : Toml.Value) : Option Options := do
  let g ← v.asGroup
  let word ← g.optional "alias_prefix" 0 Toml.Value.asString
  let nest ← g.optional "nest_joins" 1 Toml.Value.asBool
  let dialect ← g.optional "dialect" 2 (Toml.Value.asWord Dialect.ofExactName)
  let s := Options.standard
  some ⟨word.getD s.aliasPrefix, nest.getD s.nestJoins, dialect.getD s.dialect⟩

/-- The settings of the entries of a file; those left out are standard. -/
def Settings.ofEntries (entries : List (String × Toml.Value)) : Option Settings := do
  let g ← (Toml.Value.table entries).asGroup
  let databaseUrl ← g.optional "database_url" 0 Toml.Value.asString
  let schemaPath ← g.optional "schema_path" 1 Toml.Value.asString
  let options ← g.optional "compiler" 2 Options.ofToml
  some ⟨databaseUrl, schemaPath, options.getD .standard⟩

/-- `from_toml`: the settings of a file. -/
def Settings.ofToml (text : String) : Except Fault Settings :=
  match (Toml.read text).bind Settings.ofEntries with
  | some s => .ok s
  | none => .error (.settings (.badSettings Toml.faultText))

end QueryChain
