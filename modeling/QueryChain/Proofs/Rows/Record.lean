import QueryChain.Proofs.Rows.Shape

/-!
# Records hold the row

A record is made from a row field by field: the column of the field is decoded to the type that the model declares,
and the field is assigned, which brings the value into that type once more. The second conversion finds the work
done, so that what stands in the record is what the column reads.

* `Value.coerceTo_decode`: what was decoded to a type is of that type.
* `Cursor.assignFields_eq`: fields that the record has not yet are added in order.
* `Cursor.materialize_record`: a row becomes a record exactly if all wanted columns can be read, the record holds
  what they read and nothing else, and the first column that cannot be read decides on the failure.
-/

namespace QueryChain

/-! ## Models of records -/

/-- A model whose row objects are records, under its own name or without a name. -/
inductive Model.OfRecords : Model → Prop
  | dynamic (identity : Identity) (typeName table : String) (fields : List (String × String × Option ScalarType))
      (primaryKey : Option String) : OfRecords (.dynamic identity typeName table fields primaryKey)
  | anonymous (identity : Identity) (members : List (String × Option ScalarType)) :
      OfRecords (.anonymous identity members)

namespace Model.OfRecords

variable {m : Model}

/-- A model without a name is made like one with a name. -/
theorem exists_dynamic (h : m.OfRecords) :
    ∃ identity typeName table fields primaryKey, m = .dynamic identity typeName table fields primaryKey := by
  cases h with
  | dynamic identity typeName table fields primaryKey => exact ⟨_, _, _, _, _, rfl⟩
  | anonymous identity members => exact ⟨_, _, _, _, _, rfl⟩

/-- Making a record starts from a record without values. -/
theorem build_eq (h : m.OfRecords) (c : Cursor) (columns : List (String × String)) :
    c.build m columns = c.assignFields m columns (.record m.typeName) := by
  obtain ⟨identity, typeName, table, fields, primaryKey, rfl⟩ := h.exists_dynamic
  have hinitial : (Model.dynamic identity typeName table fields primaryKey).initialObject = .record typeName := by
    simp [Model.initialObject, objectKind, Model.dynamic, recordField, RowObject.record, List.filterMap_map]
  rw [Cursor.build, hinitial]
  rfl

/-- A field of records can be assigned, and has no slot. -/
theorem field_eq (h : m.OfRecords) {name : String} {f : Field} (hf : m.field name = some f) :
    f.settable = true ∧ f.slot = none := by
  obtain ⟨identity, typeName, table, fields, primaryKey, rfl⟩ := h.exists_dynamic
  obtain ⟨p, -, rfl⟩ := List.mem_map.1 (mem_fields_of_field hf).1
  exact ⟨rfl, rfl⟩

/-- A field of a record reads the value under its name, or null. -/
theorem get_eq (h : m.OfRecords) {name : String} {f : Field} (hf : m.field name = some f)
    (values : List (String × Value)) :
    m.get ⟨.record m.typeName, values⟩ name = .ok ((values.lookup name).getD .null) := by
  have hreaches : m.reaches f ⟨.record m.typeName, values⟩ = true := by rw [reaches, (h.field_eq hf).2]
  rw [get, hf]
  exact if_pos hreaches

end Model.OfRecords

/-! ## Converting twice -/

/-- What was decoded to a type is of that type. -/
theorem Value.coerceTo_decode {v w : Value} {wanted : Option ScalarType} (h : v.decode wanted = .ok w) :
    w.coerceTo wanted = .ok w := by
  have hcoerced : ∀ {u : Value}, u.coerceTo wanted = .ok w → w.coerceTo wanted = .ok w := by
    intro u hu
    cases wanted with
    | none => rfl
    | some type => exact Value.coerce_idem hu
  unfold Value.decode at h
  split at h
  · cases h
    cases wanted <;> rfl
  · obtain ⟨t, -, ⟨⟩⟩ := bind_eq_ok.mp h
    rfl
  · cases h
    rfl
  · exact hcoerced h

/-- A column that was read was decoded to the wanted type. -/
theorem Cursor.read_eq_ok_iff {c : Cursor} {column : String} {wanted : Option ScalarType} {v : Value} :
    c.read column wanted = .ok v ↔
      ∃ index, c.ordinal column = some index ∧ (c.value index).decode wanted = .ok v := by
  unfold read
  cases c.ordinal column <;> simp [readAt]

/-- The value that was read for a field of a record is assigned as it is. -/
theorem Model.OfRecords.set_read {m : Model} (h : m.OfRecords) {c : Cursor} {name column : String} {f : Field}
    (hf : m.field name = some f) {v : Value} (hv : c.read column (m.typeOf name) = .ok v)
    (values : List (String × Value)) :
    m.set ⟨.record m.typeName, values⟩ name v = .ok ⟨.record m.typeName, RowObject.setIn name v values⟩ := by
  obtain ⟨hsettable, hslot⟩ := h.field_eq hf
  obtain ⟨index, -, hdecode⟩ := Cursor.read_eq_ok_iff.mp hv
  have hcoerce : v.coerceTo f.type = .ok v := by
    rw [Model.typeOf, hf, Option.bind_some] at hdecode
    exact Value.coerceTo_decode hdecode
  rw [Model.set, hf]
  simp only [hsettable, if_true, hcoerce, hslot, Model.reaches]
  rfl

/-! ## Assigning fields in order -/

/-- A value under a new name comes last. -/
theorem RowObject.setIn_of_not_mem {name : String} {values : List (String × Value)} (h : name ∉ values.map (·.1))
    (v : Value) : setIn name v values = values ++ [(name, v)] := by
  induction values with
  | nil => rfl
  | cons p rest ih =>
    obtain ⟨n, w⟩ := p
    rw [List.map_cons, List.mem_cons, not_or] at h
    rw [setIn, if_neg (Ne.symm h.1), ih h.2, List.cons_append]

/-- A field with what its column reads, in the type that the model declares for the field. -/
def Cursor.readField (c : Cursor) (m : Model) (p : String × String) : Except Fault (String × Value) := do
  let v ← c.read p.2 (m.typeOf p.1)
  pure (p.1, v)

/-- Fields that the record has not yet are added in order, with what their columns read. -/
theorem Cursor.assignFields_eq {c : Cursor} {m : Model} (hm : m.OfRecords) {columns : List (String × String)}
    {values : List (String × Value)} (hfields : ∀ p ∈ columns, ∃ f, m.field p.1 = some f)
    (hnodup : (values.map (·.1) ++ columns.map (·.1)).Nodup) :
    c.assignFields m columns ⟨.record m.typeName, values⟩ =
      (do let more ← columns.mapM (c.readField m); pure ⟨.record m.typeName, values ++ more⟩) := by
  induction columns generalizing values with
  | nil =>
    rw [List.mapM_nil]
    exact congrArg (fun values => Except.ok (RowObject.mk (.record m.typeName) values)) (List.append_nil values).symm
  | cons p rest ih =>
    obtain ⟨name, column⟩ := p
    obtain ⟨⟨f, hf⟩, hrest⟩ := List.forall_mem_cons.1 hfields
    rw [assignFields, List.mapM_cons, readField]
    cases hread : c.read column (m.typeOf name) with
    | error fault => rfl
    | ok v =>
      have hnew : name ∉ values.map (·.1) := fun h =>
        (List.nodup_append.1 hnodup).2.2 name h name List.mem_cons_self rfl
      have hmore : ((values ++ [(name, v)]).map (·.1) ++ rest.map (·.1)).Nodup := by
        rw [List.map_append, List.append_assoc]
        exact hnodup
      show (m.set _ name v >>= c.assignFields m rest) = _
      rw [hm.set_read hf hread, RowObject.setIn_of_not_mem hnew]
      show c.assignFields m rest _ = _
      rw [ih hrest hmore]
      cases hall : rest.mapM (c.readField m) with
      | error fault => rfl
      | ok more =>
        exact congrArg (fun values => Except.ok (RowObject.mk (.record m.typeName) values))
          (List.append_assoc values [(name, v)] more)

/-! ## Columns that can be read -/

section ReadFields

variable {c : Cursor} {m : Model} {columns : List (String × String)}

theorem Cursor.readField_eq_ok_iff {p : String × String} {q : String × Value} :
    c.readField m p = .ok q ↔ q.1 = p.1 ∧ c.read p.2 (m.typeOf p.1) = .ok q.2 := by
  rw [readField, bind_eq_ok]
  constructor
  · rintro ⟨v, hv, ⟨⟩⟩
    exact ⟨rfl, hv⟩
  · rintro ⟨hname, hv⟩
    exact ⟨q.2, hv, by rw [← hname]; rfl⟩

/-- Fields are read exactly if all their columns can be. -/
theorem Cursor.readFields_eq_ok_iff {values : List (String × Value)} :
    columns.mapM (c.readField m) = .ok values ↔
      List.Forall₂ (fun p q => q.1 = p.1 ∧ c.read p.2 (m.typeOf p.1) = .ok q.2) columns values := by
  simp only [mapM_eq_ok_iff, readField_eq_ok_iff]

theorem Cursor.exists_readField_iff {p : String × String} :
    (∃ q, c.readField m p = .ok q) ↔ ∃ v, c.read p.2 (m.typeOf p.1) = .ok v := by
  simp only [readField_eq_ok_iff]
  exact ⟨fun ⟨q, _, hq⟩ => ⟨q.2, hq⟩, fun ⟨v, hv⟩ => ⟨(p.1, v), rfl, hv⟩⟩

/-- The fault of a column is that of its field. -/
theorem Cursor.readField_eq_error {p : String × String} {fault : Fault}
    (hp : c.read p.2 (m.typeOf p.1) = .error fault) : c.readField m p = .error fault := by
  rw [readField, hp]
  rfl

end ReadFields

/-! ## What a row becomes -/

/-- Whole rows of a table, or rows with distinct members, each a field of the model. -/
def RowShape.IsOf (m : Model) : RowShape → Prop
  | .entity m' => m' = m
  | .named m' members => m' = m ∧ members.Nodup ∧ members ⊆ m.fields.map (·.name)
  | .positional _ | .scalar _ => False

/-- A record of a model with exactly the wanted fields of a row, in order: each reads what its column reads in the
declared type of the field, and every other field of the model reads null. -/
structure RowObject.Holds (o : RowObject) (c : Cursor) (m : Model) (columns : List (String × String)) : Prop where
  kind_eq : o.kind = .record m.typeName
  names_eq : o.values.map (·.1) = columns.map (·.1)
  get_wanted : ∀ p ∈ columns, ∃ v, c.read p.2 (m.typeOf p.1) = .ok v ∧ m.get o p.1 = .ok v
  get_other : ∀ f ∈ m.fields, f.name ∉ columns.map (·.1) → m.get o f.name = .ok .null

section Records

variable {m : Model} {c : Cursor} {shape : RowShape}

theorem RowShape.IsOf.nodup_columns (hshape : shape.IsOf m) (hnodup : (m.fields.map (·.name)).Nodup) :
    (shape.columns.map (·.1)).Nodup := by
  cases shape with
  | entity m' =>
    cases hshape
    rw [columns, Model.tableColumns, List.map_map]
    exact hnodup
  | named m' members =>
    rw [columns, List.map_map]
    exact (List.map_id' members).symm ▸ hshape.2.1
  | positional m' => cases hshape
  | scalar type => cases hshape

theorem RowShape.IsOf.exists_field (hshape : shape.IsOf m) : ∀ p ∈ shape.columns, ∃ f, m.field p.1 = some f := by
  have hnames : ∀ p ∈ shape.columns, p.1 ∈ m.fields.map (·.name) := by
    intro p hp
    cases shape with
    | entity m' =>
      cases hshape
      obtain ⟨f, hf, rfl⟩ := List.mem_map.1 hp
      exact List.mem_map_of_mem hf
    | named m' members =>
      obtain ⟨name, hname, rfl⟩ := List.mem_map.1 hp
      exact hshape.2.2 hname
    | positional m' => cases hshape
    | scalar type => cases hshape
  intro p hp
  obtain ⟨f, hf, hname⟩ := List.mem_map.1 (hnames p hp)
  obtain ⟨g, hg, -⟩ := Model.exists_field hf
  exact ⟨g, hname ▸ hg⟩

theorem RowShape.IsOf.materialize_eq (hshape : shape.IsOf m) (T : RowType) :
    c.materialize shape T = c.buildAs T m shape.columns := by
  cases shape with
  | entity m' =>
    cases hshape
    rfl
  | named m' members =>
    cases hshape.1
    rfl
  | positional m' => cases hshape
  | scalar type => cases hshape

/-- A row becomes the record of its wanted fields, in order, with what their columns read. -/
theorem Cursor.materialize_eq (hm : m.OfRecords) (hnodup : (m.fields.map (·.name)).Nodup)
    (hshape : shape.IsOf m) {T : RowType} (hT : T.kind = .record) :
    c.materialize shape T =
      (do let values ← shape.columns.mapM (c.readField m); pure (.object ⟨.record m.typeName, values⟩)) := by
  have hassign : c.assignFields m shape.columns (.record m.typeName) =
      (do let values ← shape.columns.mapM (c.readField m); pure ⟨.record m.typeName, [] ++ values⟩) :=
    assignFields_eq hm hshape.exists_field (hshape.nodup_columns hnodup)
  rw [hshape.materialize_eq, buildAs, hm.build_eq, hassign]
  cases shape.columns.mapM (c.readField m) with
  | error fault => rfl
  | ok values =>
    have haccepts : T.accepts ⟨.record m.typeName, values⟩ = true := by rw [RowType.accepts, hT]
    exact if_pos haccepts

/-- The values that were read are those of the fields in order. -/
theorem names_of_readFields {columns : List (String × String)} {values : List (String × Value)}
    (h : columns.mapM (c.readField m) = .ok values) : values.map (·.1) = columns.map (·.1) := by
  have hnames := (Cursor.readFields_eq_ok_iff.mp h).imp fun _ _ hpq => hpq.1
  rw [← List.forall₂_eq_eq_eq, List.forall₂_map_left_iff, List.forall₂_map_right_iff]
  exact hnames.flip

theorem lookup_of_forall₂ {R : String × String → Value → Prop} {columns : List (String × String)}
    {values : List (String × Value)} (h : List.Forall₂ (fun p q => q.1 = p.1 ∧ R p q.2) columns values)
    (hnodup : (columns.map (·.1)).Nodup) : ∀ p ∈ columns, ∃ v, values.lookup p.1 = some v ∧ R p v := by
  induction h with
  | nil => simp
  | @cons p q columns values hpq _ ih =>
    obtain ⟨name, v⟩ := q
    obtain ⟨rfl, hv⟩ := hpq
    rw [List.map_cons, List.nodup_cons] at hnodup
    rintro p' (_ | ⟨_, hp'⟩)
    · exact ⟨v, by rw [List.lookup_cons, beq_self_eq_true], hv⟩
    · have hne : (p'.1 == p.1) = false :=
        beq_eq_false_iff_ne.2 fun heq => hnodup.1 (heq ▸ List.mem_map_of_mem hp')
      rw [List.lookup_cons, hne]
      exact ih hnodup.2 p' hp'

/-- The record of the values that were read holds the row. -/
theorem RowObject.holds_of_readFields (hm : m.OfRecords) (hnodup : (m.fields.map (·.name)).Nodup)
    (hshape : shape.IsOf m) {values : List (String × Value)}
    (h : shape.columns.mapM (c.readField m) = .ok values) :
    (RowObject.mk (.record m.typeName) values).Holds c m shape.columns where
  kind_eq := rfl
  names_eq := names_of_readFields h
  get_wanted p hp := by
    obtain ⟨f, hf⟩ := hshape.exists_field p hp
    obtain ⟨v, hlookup, hv⟩ :=
      lookup_of_forall₂ (R := fun p v => c.read p.2 (m.typeOf p.1) = .ok v)
        (Cursor.readFields_eq_ok_iff.mp h) (hshape.nodup_columns hnodup) p hp
    refine ⟨v, hv, ?_⟩
    rw [hm.get_eq hf, hlookup, Option.getD_some]
  get_other f hf hother := by
    obtain ⟨g, hg, -⟩ := Model.exists_field hf
    have hlookup : values.lookup f.name = none := by
      rw [← names_of_readFields h] at hother
      exact List.lookup_eq_none_iff.2 fun q hq =>
        bne_iff_ne.2 fun heq => hother (heq ▸ List.mem_map_of_mem hq)
    rw [hm.get_eq hg, hlookup]
    rfl

/-- A row becomes a record exactly if every wanted column is there and decodes to the declared type of its field. The
record then holds the row; else the first field whose column cannot be read decides on the failure. -/
theorem Cursor.materialize_record {m : Model} (hm : m.OfRecords) (hnodup : (m.fields.map (·.name)).Nodup)
    {shape : RowShape} (hshape : shape.IsOf m) (c : Cursor) {T : RowType} (hT : T.kind = .record) :
    ((∃ row, c.materialize shape T = .ok row) ↔
        ∀ p ∈ shape.columns, ∃ v, c.read p.2 (m.typeOf p.1) = .ok v) ∧
      (∀ row, c.materialize shape T = .ok row → ∃ o, row = .object o ∧ o.Holds c m shape.columns) ∧
      ∀ before p after fault, shape.columns = before ++ p :: after →
        (∀ q ∈ before, ∃ v, c.read q.2 (m.typeOf q.1) = .ok v) → c.read p.2 (m.typeOf p.1) = .error fault →
          c.materialize shape T = .error fault := by
  rw [materialize_eq hm hnodup hshape hT]
  refine ⟨?_, ?_, ?_⟩
  · simp only [← Cursor.exists_readField_iff, ← exists_mapM_eq_ok_iff]
    constructor
    · rintro ⟨row, h⟩
      obtain ⟨values, hvalues, -⟩ := bind_eq_ok.mp h
      exact ⟨values, hvalues⟩
    · rintro ⟨values, hvalues⟩
      exact ⟨_, bind_eq_ok.mpr ⟨values, hvalues, rfl⟩⟩
  · intro row h
    obtain ⟨values, hvalues, ⟨⟩⟩ := bind_eq_ok.mp h
    exact ⟨_, rfl, RowObject.holds_of_readFields hm hnodup hshape hvalues⟩
  · intro before p after fault hcolumns hbefore hp
    rw [hcolumns, mapM_append_eq_error (fun q hq => exists_readField_iff.mpr (hbefore q hq)) (readField_eq_error hp)]
    rfl

end Records

namespace Model

/-- A model of records with a column of another name, and a truth value that a driver may hand back as an integer. -/
def guest : Model :=
  .dynamic (.schema "Guest") "Guest" "guests"
    [("Id", "id", some .int), ("Name", "full_name", some .text), ("Active", "active", some .bool)] (some "Id")

/-- A guest is made of a row whose columns come in another order and in another case. Of the two members that the
second row has no column for, the first is named. -/
theorem materialize_record_guest :
    (∃ o, (onlyRow ["ACTIVE", "ID", "full_name"] [.int 1, .int 7, .int 30]).materialize (.entity guest)
        ⟨"Record", .record⟩ = .ok (.object o) ∧
      o.Holds (onlyRow ["ACTIVE", "ID", "full_name"] [.int 1, .int 7, .int 30]) guest guest.tableColumns) ∧
      (onlyRow ["Id", "full_name"] [.int 7, .text "Ada"]).materialize (.named guest ["Id", "Name", "Active"])
        ⟨"Record", .record⟩ = .error (.shape (.missingColumn "Name")) := by
  have hguest : guest.OfRecords := .dynamic _ _ _ _ _
  have hnodup : (guest.fields.map (·.name)).Nodup := by decide
  constructor
  · obtain ⟨hreads, hholds, -⟩ := Cursor.materialize_record hguest hnodup (show (RowShape.entity guest).IsOf guest from rfl)
      (onlyRow ["ACTIVE", "ID", "full_name"] [.int 1, .int 7, .int 30]) (T := ⟨"Record", .record⟩) rfl
    have hcolumns : ∀ p ∈ (RowShape.entity guest).columns, ∃ v,
        (onlyRow ["ACTIVE", "ID", "full_name"] [.int 1, .int 7, .int 30]).read p.2 (guest.typeOf p.1) = .ok v := by
      rintro p (_ | ⟨_, _ | ⟨_, _ | ⟨_, ⟨⟩⟩⟩⟩)
      · exact ⟨.int 7, rfl⟩
      · exact ⟨.text "30", rfl⟩
      · exact ⟨.bool true, rfl⟩
    obtain ⟨row, hrow⟩ := hreads.mpr hcolumns
    obtain ⟨o, rfl, ho⟩ := hholds row hrow
    exact ⟨o, hrow, ho⟩
  · obtain ⟨-, -, hfails⟩ := Cursor.materialize_record hguest hnodup
      (show (RowShape.named guest ["Id", "Name", "Active"]).IsOf guest from ⟨rfl, by decide, by decide⟩)
      (onlyRow ["Id", "full_name"] [.int 7, .text "Ada"]) (T := ⟨"Record", .record⟩) rfl
    refine hfails [("Id", "Id")] ("Name", "Name") [("Active", "Active")] _ rfl ?_ rfl
    rintro q (_ | ⟨_, ⟨⟩⟩)
    exact ⟨.int 7, rfl⟩

end Model

end QueryChain
