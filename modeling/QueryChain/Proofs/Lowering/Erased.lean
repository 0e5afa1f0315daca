import QueryChain.Proofs.Lowering.Compiled
import QueryChain.Tree.Build

/-!
# Scalar types, forgotten

Models, static types and clauses with their scalar types forgotten. What a statement is put together from hardly looks
at these: they only end up in the shape of the rows. Texts are told apart from other scalars by the operator that joins
them, so that their type can be forgotten or kept.

* `StaticType.erase_member`: the type of a member is settled by what is left of the type.
* `StaticType.erase_of_erase`: what is the same but for some scalar types is the same but for all.
* `Clauses.assemble_erase`: clauses make up the same statement without scalar types.
-/

namespace QueryChain

/-! ## Types -/

/-- Forgets a scalar type; that of a text only if texts are forgotten too. -/
def eraseScalar (texts : Bool) (t : Option ScalarType) : Option ScalarType :=
  t.filter fun t => t = .text && !texts

theorem eraseScalar_eraseScalar (a b : Bool) (t : Option ScalarType) :
    eraseScalar b (eraseScalar a t) = eraseScalar (a || b) t := by
  rw [eraseScalar, eraseScalar, eraseScalar, Option.filter_filter]
  congr 1
  funext t
  cases a <;> cases b <;> simp

namespace Field

/-- Forgets the scalar type of a field. -/
def erase (texts : Bool) (f : Field) : Field :=
  { f with type := eraseScalar texts f.type }

end Field

namespace Model

/-- Forgets the scalar types of the fields. -/
def erase (texts : Bool) (m : Model) : Model :=
  { m with fields := m.fields.map (Field.erase texts) }

variable (texts : Bool) (m : Model)

theorem field_erase (name : String) : (m.erase texts).field name = (m.field name).map (Field.erase texts) := by
  rw [field, field, erase, List.find?_map]
  rfl

theorem typeOf_erase (name : String) : (m.erase texts).typeOf name = eraseScalar texts (m.typeOf name) := by
  rw [typeOf, typeOf, field_erase]
  cases m.field name <;> rfl

theorem erase_erase (a b : Bool) : (m.erase a).erase b = m.erase (a || b) := by
  have hfield : Field.erase b ∘ Field.erase a = Field.erase (a || b) := by
    funext f
    simp only [Function.comp_apply, Field.erase, eraseScalar_eraseScalar]
  simp only [erase, List.map_map, hfield]

@[simp] theorem typeName_erase : (m.erase texts).typeName = m.typeName := rfl

@[simp] theorem constructorParams_erase : (m.erase texts).constructorParams = m.constructorParams := rfl

end Model

namespace StaticType

/-- Forgets the scalar types in a type. -/
def erase (texts : Bool) : StaticType → StaticType
  | .scalar t => .ofScalar (eraseScalar texts (some t))
  | .model m => .model (m.erase texts)
  | .sequence e => .sequence (e.erase texts)
  | .grouping key e => .grouping (key.erase texts) (e.erase texts)
  | t => t

theorem erase_ofScalar (texts : Bool) (t : Option ScalarType) :
    (ofScalar t).erase texts = ofScalar (eraseScalar texts t) := by
  cases t <;> rfl

theorem asModel_ofScalar (t : Option ScalarType) : (ofScalar t).asModel = none := by
  cases t <;> rfl

theorem erase_erase (a b : Bool) (t : StaticType) : (t.erase a).erase b = t.erase (a || b) := by
  induction t with
  | scalar t => rw [erase, erase_ofScalar, eraseScalar_eraseScalar, erase]
  | model m => rw [erase, erase, m.erase_erase, erase]
  | sequence e ih => rw [erase, erase, ih, erase]
  | grouping key e ihkey ihe => rw [erase, erase, ihkey, ihe, erase]
  | unknown | host _ => rfl

theorem asModel_erase (texts : Bool) (t : StaticType) :
    (t.erase texts).asModel = t.asModel.map (Model.erase texts) := by
  cases t with
  | scalar t => exact asModel_ofScalar _
  | _ => rfl

/-- Where texts are kept, it is still known what a text is. -/
theorem asScalar_erase_eq_text (t : StaticType) : (t.erase false).asScalar = some .text ↔ t.asScalar = some .text := by
  cases t with
  | scalar t => cases t <;> decide
  | _ => exact Iff.rfl

/-- The type of a member is settled by what is left of the type. -/
theorem erase_member (texts : Bool) (t : StaticType) (name : String) :
    ((t.erase texts).member name).erase texts = (t.member name).erase texts := by
  cases t with
  | model m =>
    rw [erase, member, member, m.typeOf_erase, erase_ofScalar, erase_ofScalar, eraseScalar_eraseScalar, Bool.or_self]
  | grouping key e =>
    rw [erase, member, member]
    split
    · rw [erase_erase, Bool.or_self]
    · rfl
  | scalar t =>
    cases t with
    | text =>
      cases texts with
      | false => rfl
      | true =>
        show unknown = (if name = "Length" then scalar .int else unknown).erase true
        split <;> rfl
    | _ => rfl
  | unknown | host _ | sequence _ => rfl

section

variable {texts : Bool} {t u : StaticType}

/-- What is the same but for some scalar types is the same but for all of them. -/
theorem erase_of_erase (h : t.erase texts = u.erase texts) : t.erase true = u.erase true := by
  rw [← Bool.or_true texts, ← erase_erase, ← erase_erase, h]

theorem member_congr (h : t.erase texts = u.erase texts) (name : String) :
    (t.member name).erase texts = (u.member name).erase texts := by
  rw [← erase_member, h, erase_member]

theorem asScalar_eq_text_congr (h : t.erase false = u.erase false) :
    t.asScalar = some .text ↔ u.asScalar = some .text := by
  rw [← asScalar_erase_eq_text t, h, asScalar_erase_eq_text]

end

end StaticType

/-! ## Clauses -/

/-- Forgets the scalar types of what each row is turned into. -/
def Projection.erase : Projection → Projection
  | .object positional m fields => .object positional (m.erase true) fields
  | .scalar _ value => .scalar none value

/-- Forgets the scalar types of the rows of a join. -/
def Join.erase (j : Join) : Join :=
  { j with model := j.model.erase true }

/-- Forgets the scalar types of the rows that come out. -/
def Clauses.erase (c : Clauses) : Clauses :=
  { c with projection := c.projection.map Projection.erase, joins := c.joins.map Join.erase }

/-- Forgets the scalar types of what is projected; whole rows are those of their table. -/
def RowShape.erase : RowShape → RowShape
  | .entity m => .entity m
  | .named m members => .named (m.erase true) members
  | .positional m => .positional (m.erase true)
  | .scalar _ => .scalar none

/-- Forgets the scalar types of the shape. -/
def Lowered.erase (t : Lowered) : Lowered :=
  { t with shape := t.shape.erase }

/-- Forgets the scalar types of the shape. -/
def Compiled.erase (q : Compiled) : Compiled :=
  { q with shape := q.shape.erase }

namespace Clauses

variable (c : Clauses) (m : Model)

theorem erase_join (j : Join) : (c.join j).erase = c.erase.join j.erase := by
  simp only [join, erase, List.map_append, List.map_cons, List.map_nil, Option.map_none]

theorem requireSettable_erase (names : List String) :
    requireSettable (m.erase true) names = requireSettable m names := by
  induction names with
  | nil => rfl
  | cons name rest ih =>
    rw [requireSettable, requireSettable, m.field_erase, ih]
    cases m.field name <;> rfl

theorem requireSupplied_erase (names params : List String) :
    requireSupplied (m.erase true) names params = requireSupplied m names params := by
  induction params with
  | nil => rfl
  | cons param rest ih => rw [requireSupplied, requireSupplied, ih, Model.typeName_erase]

theorem namedShape_erase (fields : Entries) :
    namedShape (m.erase true) fields = (namedShape m fields).map RowShape.erase := by
  rw [namedShape, namedShape, requireSettable_erase]
  cases requireSettable m fields.names <;> rfl

theorem positionalShape_erase (fields : Entries) :
    positionalShape (m.erase true) fields = (positionalShape m fields).map RowShape.erase := by
  rw [positionalShape, positionalShape, Model.constructorParams_erase]
  cases m.constructorParams with
  | none => rfl
  | some params =>
    simp only [requireSupplied_erase]
    cases requireSupplied m fields.names params <;> rfl

/-- The items of the members of an object, and its shape. -/
theorem objects_erase (positional : Bool) (fields : Entries) :
    (do
      let items ← memberItems fields.list
      let shape ← if positional then positionalShape (m.erase true) fields else namedShape (m.erase true) fields
      pure (items, shape)) =
    Except.map (Prod.map id RowShape.erase) (do
      let items ← memberItems fields.list
      let shape ← if positional then positionalShape m fields else namedShape m fields
      pure (items, shape)) := by
  cases memberItems fields.list with
  | error f => rfl
  | ok items =>
    rw [positionalShape_erase, namedShape_erase]
    cases positional with
    | true => cases positionalShape m fields <;> rfl
    | false => cases namedShape m fields <;> rfl

/-- The same is selected without scalar types. -/
theorem selection_erase (root : TableRef) :
    c.erase.selection root = (c.selection root).map (Prod.map id RowShape.erase) := by
  simp only [selection, erase, List.getLast?_map]
  rcases c.projection with _ | (⟨positional, m, fields⟩ | ⟨type, value⟩)
  · cases c.joins.getLast? with
    | none => cases c.groupKeys.getLast? <;> rfl
    | some j => exact objects_erase j.model j.model.constructorParams.isSome j.fields
  · exact objects_erase m positional fields
  · dsimp only [Option.map_some, Projection.erase]
    cases selectedTerm value <;> rfl

theorem projectsObject_erase : c.erase.projectsObject = c.projectsObject := by
  rw [projectsObject, projectsObject, erase]
  rcases c.projection with _ | (_ | _) <;> rfl

theorem block_erase (root : TableRef) (list : SelectList) (limited ordered : Bool) :
    c.erase.block root list limited ordered = c.block root list limited ordered := by
  have hjoins : c.erase.joins.map (·.clause) = c.joins.map (·.clause) := List.map_map
  rw [block, block, hjoins]
  rfl

theorem statement_erase (root : TableRef) (items : List SelectItem) :
    c.erase.statement root items = c.statement root items := by
  have hmode : c.erase.mode = c.mode := rfl
  have hwrapped : c.erase.isWrapped = c.isWrapped := rfl
  simp only [statement, hmode, hwrapped, block_erase, foldedList, projectsObject_erase]
  rfl

/-- Clauses make up the same statement without scalar types. -/
theorem assemble_erase : c.erase.assemble = c.assemble.map Lowered.erase := by
  have hroot : c.erase.root = c.root := rfl
  rw [assemble, assemble, hroot]
  cases c.root with
  | none => rfl
  | some root =>
    simp only [selection_erase, statement_erase]
    cases c.selection root <;> rfl

end Clauses

end QueryChain
