import Mathlib.Data.List.Forall2
import QueryChain.Proofs.Lowering.Compiled
import QueryChain.Rows.Materialize
import QueryChain.Tree.Build

/-!
# The shape of a compiled query is enough for its rows

A query is compiled to a statement and a shape: the names of the select list are agreed on then, and objects are
made from rows by those names later. What is checked when a query is compiled is that the members of an object can
be assigned and that its constructor gets its parameters; whether whole rows of a table can be made into objects is
left to the model.

* `Clauses.covers_selection`: the select list has every name that the shape reads.
* `Cursor.assignFields_eq_ok`, `Cursor.readParams_eq_ok`: reading goes well on a row that supplies its names.
* `Expr.materialize_compiled`: so a row that supplies the names of the select list becomes an object, if the model
  can be made in the shape.
* `Model.not_materialize_compiled`: rows of a model that cannot be made in the shape become nothing.
-/

namespace QueryChain

/-! ## Models as they are described -/

/-- The fields of typed objects have slots for values of their declared types; fields of records have none. -/
def Model.IsDescribed (m : Model) : Prop :=
  ∀ f ∈ m.fields,
    if m.isTyped then ∃ slot, f.slot = some slot ∧ f.type = some slot.scalarType else f.slot = none

/-- The row type of the objects of a model. -/
def Model.rowType (m : Model) : RowType :=
  if m.isTyped then ⟨m.typeName, .typed m.typeName⟩ else ⟨"Record", .record⟩

/-- The constructor takes one value for each of its parameters, which are fields of the model, into a slot of the
kind of that field. -/
def Constructor.Consumes (k : Constructor) (m : Model) : Prop :=
  List.Forall₂ (fun param take => ∃ f, m.field param = some f ∧ f.slot.map (·.kind) = some take.2.kind)
    k.params k.takes

/-- A value that is not null, of the declared type of the field if there is one, and in the range of its slot. -/
structure Field.Fits (f : Field) (v : Value) : Prop where
  isNull_eq_false : v.isNull = false
  scalarType_eq : ∀ type, f.type = some type → v.scalarType = some type
  fitsInt32 : ∀ n, v = .int n → f.slot.map (·.kind) = some .int32 → fitsInt32 n = true

/-! ## Shapes -/

namespace RowShape

/-- The model of the objects that rows become. -/
def model? : RowShape → Option Model
  | .entity m | .named m _ | .positional m => some m
  | .scalar _ => none

/-- The fields that are read from a row, and the names that they are read under. -/
def columns : RowShape → List (String × String)
  | .entity m => m.tableColumns
  | .named _ members => members.map fun name => (name, name)
  | .positional m => m.namedColumns
  | .scalar _ => []

/-- The model can be made in the shape. Nothing is asked here of what compiling a query checks: that named members
can be assigned, and that the parameters of a constructor are supplied by what is projected onto it. -/
def IsMakeable : RowShape → Prop
  | .entity m =>
    match m.construction with
    | .initial => ∀ f ∈ m.fields, f.settable = true
    | .positional k => k.Consumes m
    | .none => False
  | .named m members =>
    match m.construction with
    | .initial => True
    | .positional k => k.Consumes m ∧ ∀ param ∈ k.params, param ∈ members
    | .none => False
  | .positional m =>
    match m.construction with
    | .positional k => k.Consumes m
    | _ => True
  | .scalar _ => False

/-- The names of a select list have what the shape reads, and what was checked holds. -/
def Covers : RowShape → List String → Prop
  | .entity m, names => ∀ f ∈ m.fields, f.column ∈ names
  | .named m members, names =>
    ∀ name ∈ members, name ∈ names ∧ ∃ f, m.field name = some f ∧ f.settable = true
  | .positional m, names => ∃ k, m.construction = .positional k ∧ ∀ param ∈ k.params, param ∈ names
  | .scalar _, _ => True

end RowShape

/-! ## Select lists -/

/-- The name of an item that has one. -/
def SelectItem.name? : SelectItem → Option String
  | .entity _ column => some column
  | .named _ name => some name
  | _ => none

/-- The names of a select list. -/
def SelectList.names : SelectList → List String
  | .items list | .withFolded list _ => list.filterMap SelectItem.name?

/-- The names of the select list of a statement. -/
def Statement.selectNames : Statement → List String
  | .plain s | .countOf s | .foldOf _ s => s.list.names

/-- The names of the select list of the statement of a tree. -/
def Expr.selectNames (e : Expr) : List String :=
  match e.lower with
  | .ok t => t.statement.selectNames
  | .error _ => []

namespace Clauses

theorem names_of_memberItems {members : List (String × Row)} {items : List SelectItem}
    (h : memberItems members = .ok items) : items.filterMap SelectItem.name? = members.map (·.1) := by
  induction members generalizing items with
  | nil =>
    cases h
    rfl
  | cons member members ih =>
    obtain ⟨name, r⟩ := member
    obtain ⟨t, -, h⟩ := bind_eq_ok.mp h
    obtain ⟨more, hmore, ⟨⟩⟩ := bind_eq_ok.mp h
    rw [List.filterMap_cons, SelectItem.name?, ih hmore, List.map_cons]

theorem settable_of_requireSettable {m : Model} {names : List String} (h : requireSettable m names = .ok ()) :
    ∀ name ∈ names, ∃ f, m.field name = some f ∧ f.settable = true := by
  induction names with
  | nil => simp
  | cons name names ih =>
    rw [requireSettable] at h
    split at h
    · next f hf =>
      split at h
      · next hsettable =>
        rintro other (_ | ⟨_, hother⟩)
        · exact ⟨f, hf, hsettable⟩
        · exact ih h other hother
      · cases h
    · cases h

theorem supplied_of_requireSupplied {m : Model} {names params : List String}
    (h : requireSupplied m names params = .ok ()) : ∀ param ∈ params, param ∈ names := by
  induction params with
  | nil => simp
  | cons param params ih =>
    rw [requireSupplied] at h
    split at h
    · next hcontains =>
      rintro other (_ | ⟨_, hother⟩)
      · simpa using hcontains
      · exact ih h other hother
    · cases h

theorem covers_namedShape {m : Model} {fields : Entries} {shape : RowShape}
    (h : namedShape m fields = .ok shape) : shape.Covers fields.names := by
  obtain ⟨_, hsettable, ⟨⟩⟩ := bind_eq_ok.mp h
  exact fun name hname => ⟨hname, settable_of_requireSettable hsettable name hname⟩

theorem covers_positionalShape {m : Model} {fields : Entries} {shape : RowShape}
    (h : positionalShape m fields = .ok shape) : shape.Covers fields.names := by
  rw [positionalShape] at h
  split at h
  · next params hparams =>
    obtain ⟨_, hsupplied, ⟨⟩⟩ := bind_eq_ok.mp h
    rw [Model.constructorParams] at hparams
    split at hparams
    · next k hk =>
      cases hparams
      exact ⟨k, hk, supplied_of_requireSupplied hsupplied⟩
    · cases hparams
  · cases h

/-- The select list of a query has every name that the shape of its rows reads. -/
theorem covers_selection {c : Clauses} {root : TableRef} {items : List SelectItem} {shape : RowShape}
    (h : c.selection root = .ok (items, shape)) : shape.Covers (items.filterMap SelectItem.name?) := by
  rw [selection] at h
  split at h
  · obtain ⟨_, -, ⟨⟩⟩ := bind_eq_ok.mp h
    trivial
  · next fields _ =>
    obtain ⟨_, hitems, hshape⟩ := bind_eq_ok.mp h
    split at hshape
    · obtain ⟨_, hshape, ⟨⟩⟩ := bind_eq_ok.mp hshape
      exact names_of_memberItems hitems ▸ covers_positionalShape hshape
    · obtain ⟨_, hshape, ⟨⟩⟩ := bind_eq_ok.mp hshape
      exact names_of_memberItems hitems ▸ covers_namedShape hshape
  · next j _ _ =>
    obtain ⟨_, hitems, hshape⟩ := bind_eq_ok.mp h
    split at hshape
    · obtain ⟨_, hshape, ⟨⟩⟩ := bind_eq_ok.mp hshape
      exact names_of_memberItems hitems ▸ covers_positionalShape hshape
    · obtain ⟨_, hshape, ⟨⟩⟩ := bind_eq_ok.mp hshape
      exact names_of_memberItems hitems ▸ covers_namedShape hshape
  · cases h
    trivial
  · cases h
    intro f hf
    exact List.mem_filterMap.2 ⟨_, List.mem_map.2 ⟨f, hf, rfl⟩, rfl⟩

/-- A statement that yields rows, or the first of them, has the items of the query as its select list. -/
theorem selectNames_statement {c : Clauses} (h : c.mode = .rows ∨ c.mode = .first) (root : TableRef)
    (items : List SelectItem) : (c.statement root items).selectNames = items.filterMap SelectItem.name? := by
  rw [statement]
  split
  · next hcount =>
    rw [hcount] at h
    rcases h with ⟨⟨⟩⟩ | ⟨⟨⟩⟩
  · next hfold _ =>
    rw [hfold] at h
    rcases h with ⟨⟨⟩⟩ | ⟨⟨⟩⟩
  · rfl

end Clauses

/-- The select list of a compiled query that yields rows has every name that their shape reads. -/
theorem Expr.covers_of_compile {e : Expr} {o : Options} {q : Compiled} (h : e.compile o = .ok q)
    (hmode : q.mode = .rows ∨ q.mode = .first) : q.shape.Covers e.selectNames := by
  obtain ⟨t, hlower, rfl⟩ := Expr.lower_of_compile_eq_ok h
  obtain ⟨r, c, -, hassemble⟩ := Expr.lower_eq_ok hlower
  obtain ⟨root, items, shape, -, hselection, rfl⟩ := Clauses.assemble_eq_ok_iff.mp hassemble
  rw [Expr.selectNames, hlower]
  have hnames : (c.statement root items).selectNames = _ := Clauses.selectNames_statement hmode root items
  show shape.Covers (c.statement root items).selectNames
  rw [hnames]
  exact Clauses.covers_selection hselection

/-! ## Reading rows -/

namespace Cursor

/-- The row has under a name a value that fits every field of the model which these columns read from there. -/
def Supplies (c : Cursor) (m : Model) (columns : List (String × String)) (name : String) : Prop :=
  ∃ index, c.ordinal name = some index ∧
    ∀ field f, (field, name) ∈ columns → m.field field = some f → f.Fits (c.value index)

end Cursor

theorem Value.coerceTo_eq_ok {v : Value} {wanted : Option ScalarType}
    (h : ∀ type, wanted = some type → v.scalarType = some type) : v.coerceTo wanted = .ok v := by
  cases wanted with
  | none => rfl
  | some type =>
    rw [Value.coerceTo, Value.coerce, h type rfl]
    exact if_pos rfl

/-- A value of the wanted type is read as it is. -/
theorem Value.decode_eq_ok {v : Value} {wanted : Option ScalarType} (hnull : v.isNull = false)
    (h : ∀ type, wanted = some type → v.scalarType = some type) : v.decode wanted = .ok v := by
  have hcoerce := Value.coerceTo_eq_ok h
  unfold Value.decode
  split
  · cases hnull
  · cases h _ rfl
  · cases h _ rfl
  · exact hcoerce

/-- A slot takes a value of its type that is not null and in range. -/
theorem Slot.read_eq_ok {slot : Slot} {v : Value} (hnull : v.isNull = false)
    (htype : v.scalarType = some slot.scalarType)
    (hfits : ∀ n, v = .int n → slot.kind = .int32 → fitsInt32 n = true) : slot.read v = .ok v := by
  have hcoerce : v.coerce slot.kind.scalarType = .ok v := by
    rw [Value.coerce, htype]
    exact if_pos rfl
  rw [Slot.read, hnull, Bool.and_false, if_neg Bool.false_ne_true, SlotKind.read, hcoerce]
  cases v with
  | null => cases hnull
  | int n =>
    refine if_neg fun h => h.2 (hfits n rfl h.1)
  | _ => rfl

theorem Model.mem_fields_of_field {m : Model} {name : String} {f : Field} (h : m.field name = some f) :
    f ∈ m.fields ∧ f.name = name :=
  ⟨List.mem_of_find?_eq_some h, by simpa using List.find?_some h⟩

/-- A field is there under the name of each of the fields. -/
theorem Model.exists_field {m : Model} {f : Field} (h : f ∈ m.fields) :
    ∃ g, m.field f.name = some g ∧ g ∈ m.fields := by
  cases hg : m.field f.name with
  | none => simpa using List.find?_eq_none.1 hg f h
  | some g => exact ⟨g, rfl, (mem_fields_of_field hg).1⟩

/-- A field that can be assigned takes a value that fits it. -/
theorem Model.set_eq_ok {m : Model} (hm : m.IsDescribed) {name : String} {f : Field} (hf : m.field name = some f)
    (hsettable : f.settable = true) {v : Value} (hv : f.Fits v) {o : RowObject} (ho : o.kind = m.objectKind) :
    m.set o name v = .ok (o.set name v) := by
  have hdescribed := hm f (mem_fields_of_field hf).1
  have hcoerce := Value.coerceTo_eq_ok hv.scalarType_eq
  rw [Model.set, hf]
  simp only [hsettable, if_true, hcoerce]
  split at hdescribed
  · next htyped =>
    obtain ⟨slot, hslot, htype⟩ := hdescribed
    have hread := Slot.read_eq_ok hv.isNull_eq_false (hv.scalarType_eq _ htype) fun n hn hkind =>
      hv.fitsInt32 n hn (by rw [hslot, Option.map_some, hkind])
    simp only [hslot, Model.reaches, ho, Model.objectKind, htyped, if_true, decide_true]
    show (slot.read v >>= fun v => Except.ok (o.set name v)) = _
    rw [hread]
    rfl
  · next htyped =>
    simp only [hdescribed, Model.reaches, ho, Model.objectKind, htyped]
    rfl

@[simp] theorem RowObject.kind_set (o : RowObject) (name : String) (v : Value) : (o.set name v).kind = o.kind := rfl

/-! ## Making objects -/

namespace Cursor

variable {c : Cursor} {m : Model} {columns : List (String × String)}

theorem read_eq_ok {field column : String} {f : Field} (hc : c.Supplies m columns column)
    (hmem : (field, column) ∈ columns) (hf : m.field field = some f) :
    ∃ v, c.read column (m.typeOf field) = .ok v ∧ f.Fits v := by
  obtain ⟨index, hindex, hfits⟩ := hc
  have hv := hfits field f hmem hf
  refine ⟨c.value index, ?_, hv⟩
  have htype : m.typeOf field = f.type := by rw [Model.typeOf, hf, Option.bind_some]
  rw [read, hindex, htype]
  exact Value.decode_eq_ok hv.isNull_eq_false hv.scalarType_eq

/-- Fields that can be assigned are assigned from the names that a row supplies. -/
theorem assignFields_eq_ok (hm : m.IsDescribed) {some : List (String × String)} (hsome : some ⊆ columns)
    (hc : ∀ p ∈ some, c.Supplies m columns p.2)
    (hsettable : ∀ p ∈ some, ∃ f, m.field p.1 = .some f ∧ f.settable = true) {o : RowObject}
    (ho : o.kind = m.objectKind) : ∃ o', c.assignFields m some o = .ok o' ∧ o'.kind = m.objectKind := by
  induction some generalizing o with
  | nil => exact ⟨o, rfl, ho⟩
  | cons p rest ih =>
    obtain ⟨field, column⟩ := p
    obtain ⟨hp, hrest⟩ := List.cons_subset.1 hsome
    obtain ⟨f, hf, hset⟩ := hsettable _ List.mem_cons_self
    obtain ⟨v, hread, hv⟩ := read_eq_ok (hc _ List.mem_cons_self) hp hf
    obtain ⟨o', hmore, ho'⟩ := ih hrest (fun p hp => hc p (List.mem_cons_of_mem _ hp))
      (fun p hp => hsettable p (List.mem_cons_of_mem _ hp)) (o := o.set field v) ho
    refine ⟨o', ?_, ho'⟩
    rw [assignFields, hread]
    show (m.set o field v >>= fun o => c.assignFields m rest o) = .ok o'
    rw [Model.set_eq_ok hm hf hset hv ho]
    exact hmore

theorem mem_of_lookup {field column : String} (h : columns.lookup field = some column) :
    (field, column) ∈ columns := by
  obtain ⟨before, after, rfl, -⟩ := List.lookup_eq_some_iff.mp h
  exact List.mem_append_right _ List.mem_cons_self

/-- The parameters of a constructor are read from the names that a row supplies. -/
theorem readParams_eq_ok {params : List String}
    (hc : ∀ param ∈ params, ∃ column f, columns.lookup param = some column ∧ m.field param = some f ∧
      c.Supplies m columns column) :
    ∃ values, c.readParams m columns params = .ok values ∧
      List.Forall₂ (fun param v => ∃ f, m.field param = some f ∧ f.Fits v) params values := by
  induction params with
  | nil => exact ⟨[], rfl, .nil⟩
  | cons param rest ih =>
    obtain ⟨column, f, hcolumn, hf, hsupplies⟩ := hc param List.mem_cons_self
    obtain ⟨v, hread, hv⟩ := read_eq_ok hsupplies (mem_of_lookup hcolumn) hf
    obtain ⟨values, hvalues, hfits⟩ := ih fun param hparam => hc param (List.mem_cons_of_mem _ hparam)
    refine ⟨v :: values, ?_, .cons ⟨f, hf, hv⟩ hfits⟩
    rw [readParams, hcolumn]
    simp only [hread, hvalues]
    rfl

end Cursor

/-- Slots of the kinds of fields take values that fit those fields. -/
theorem Model.fill_eq_ok {m : Model} (hm : m.IsDescribed) {params : List String} {takes : List (String × Slot)}
    {values : List Value}
    (htakes : List.Forall₂ (fun param take => ∃ f, m.field param = some f ∧ f.slot.map (·.kind) = some take.2.kind)
      params takes)
    (hvalues : List.Forall₂ (fun param v => ∃ f, m.field param = some f ∧ f.Fits v) params values) (o : RowObject) :
    ∃ o', fill takes values o = .ok o' ∧ o'.kind = o.kind := by
  induction htakes generalizing values o with
  | nil => exact ⟨o, rfl, rfl⟩
  | @cons param take params takes htake _ ih =>
    cases hvalues with
    | @cons _ v _ values hv hmore =>
      obtain ⟨f, hf, hkind⟩ := htake
      obtain ⟨g, hg, hfits⟩ := hv
      obtain rfl : f = g := Option.some.inj (hf.symm.trans hg)
      obtain ⟨slot, hslot, hsame⟩ := Option.map_eq_some_iff.1 hkind
      have htype : f.type = some take.2.scalarType := by
        have hdescribed := hm f (mem_fields_of_field hf).1
        split at hdescribed
        · obtain ⟨slot', hslot', htype⟩ := hdescribed
          obtain rfl : slot = slot' := Option.some.inj (hslot.symm.trans hslot')
          rw [htype, Slot.scalarType, Slot.scalarType, hsame]
        · rw [hslot] at hdescribed
          cases hdescribed
      have hread : take.2.read v = .ok v := Slot.read_eq_ok hfits.isNull_eq_false (hfits.scalarType_eq _ htype)
        fun n hn h => hfits.fitsInt32 n hn (by rw [hkind, h])
      obtain ⟨o', hfill, ho'⟩ := ih hmore (o.set take.1 v)
      refine ⟨o', ?_, ho'⟩
      rw [fill, hread]
      exact hfill

theorem kind_foldl_set (presets : List (String × Value)) (o : RowObject) :
    (presets.foldl (fun o (name, v) => o.set name v) o).kind = o.kind := by
  induction presets generalizing o with
  | nil => rfl
  | cons p rest ih => exact ih _

/-- Objects of a model are of its row type. -/
theorem Model.ofObject_rowType {m : Model} {o : RowObject} (h : o.kind = m.objectKind) :
    m.rowType.ofObject o = .ok (.object o) := by
  have haccepts : m.rowType.accepts o = true := by
    by_cases htyped : m.isTyped = true <;> simp [RowType.accepts, Model.rowType, h, Model.objectKind, htyped]
  rw [RowType.ofObject, if_pos haccepts]

/-- What a constructor consumes are fields of the model. -/
theorem Constructor.Consumes.exists_field {k : Constructor} {m : Model} (h : k.Consumes m) :
    ∀ param ∈ k.params, ∃ f, m.field param = some f := by
  rw [Constructor.Consumes] at h
  generalize k.params = params, k.takes = takes at h ⊢
  induction h with
  | nil => simp
  | cons hhead _ ih =>
    obtain ⟨f, hf, -⟩ := hhead
    rintro param (_ | ⟨_, hparam⟩)
    · exact ⟨f, hf⟩
    · exact ih param hparam

/-- A constructor whose parameters a row supplies makes an object. -/
theorem Cursor.build_positional_eq_ok {c : Cursor} {m : Model} (hm : m.IsDescribed) {k : Constructor}
    (hk : m.construction = .positional k) (hconsumes : k.Consumes m) {columns : List (String × String)}
    (hc : ∀ param ∈ k.params, ∃ column, columns.lookup param = some column ∧ c.Supplies m columns column) :
    ∃ o, c.build m columns = .ok o ∧ o.kind = m.objectKind := by
  obtain ⟨values, hread, hfits⟩ := readParams_eq_ok fun param hparam =>
    have ⟨column, hcolumn, hsupplies⟩ := hc param hparam
    have ⟨f, hf⟩ := hconsumes.exists_field param hparam
    ⟨column, f, hcolumn, hf, hsupplies⟩
  obtain ⟨o, hfill, ho⟩ := Model.fill_eq_ok hm hconsumes hfits m.initialObject
  refine ⟨k.presets.foldl (fun o (name, v) => o.set name v) o, ?_, (kind_foldl_set k.presets o).trans ho⟩
  rw [build, hk]
  show (c.readParams m columns k.params >>= fun values => m.construct k values) = _
  rw [hread]
  show m.construct k values = _
  rw [Model.construct, hfill]
  rfl

/-- The pair of a field among pairs of all fields. -/
theorem Model.lookup_fields {m : Model} {name : String} {f : Field} (h : m.field name = some f)
    (g : Field → String) : (m.fields.map fun f => (f.name, g f)).lookup name = some (g f) := by
  rw [Model.field] at h
  generalize m.fields = fields at h ⊢
  induction fields with
  | nil => cases h
  | cons d fields ih =>
    rw [List.map_cons, List.lookup_cons]
    by_cases hd : d.name = name
    · have hfind : d = f := by simpa [hd] using h
      simp [← hfind, hd]
    · have hne : (name == d.name) = false := by simpa using Ne.symm hd
      rw [hne]
      exact ih (by simpa [hd] using h)

theorem lookup_map_self {names : List String} {name : String} (h : name ∈ names) :
    (names.map fun name => (name, name)).lookup name = some name := by
  induction names with
  | nil => cases h
  | cons head names ih =>
    rw [List.map_cons, List.lookup_cons]
    by_cases hhead : name = head
    · simp [hhead]
    · have hne : (name == head) = false := by simpa using hhead
      rw [hne]
      exact ih ((List.mem_cons.1 h).resolve_left hhead)

/-! ## Compiled shapes -/

section Shapes

variable {c : Cursor} {m : Model} {names : List String}

/-- A row that supplies every column of the table becomes an object. -/
theorem Cursor.build_entity_eq_ok (hm : m.IsDescribed) (hmakeable : (RowShape.entity m).IsMakeable)
    (hcovers : (RowShape.entity m).Covers names) (hc : ∀ name ∈ names, c.Supplies m m.tableColumns name) :
    ∃ o, c.build m m.tableColumns = .ok o ∧ o.kind = m.objectKind := by
  rw [RowShape.IsMakeable] at hmakeable
  have hsupplies : ∀ f ∈ m.fields, c.Supplies m m.tableColumns f.column := fun f hf => hc _ (hcovers f hf)
  split at hmakeable
  · next hk =>
    rw [build, hk]
    refine assignFields_eq_ok hm (List.Subset.refl _) ?_ ?_ rfl
    · intro p hp
      obtain ⟨f, hf, rfl⟩ := List.mem_map.1 hp
      exact hsupplies f hf
    · intro p hp
      obtain ⟨f, hf, rfl⟩ := List.mem_map.1 hp
      obtain ⟨g, hg, hmem⟩ := Model.exists_field hf
      exact ⟨g, hg, hmakeable g hmem⟩
  · next k hk =>
    refine build_positional_eq_ok hm hk hmakeable fun param hparam => ?_
    obtain ⟨f, hf⟩ := hmakeable.exists_field param hparam
    exact ⟨f.column, Model.lookup_fields hf Field.column, hsupplies f (Model.mem_fields_of_field hf).1⟩
  · exact hmakeable.elim

/-- A row that supplies every member becomes an object. -/
theorem Cursor.build_named_eq_ok {members : List String} (hm : m.IsDescribed)
    (hmakeable : (RowShape.named m members).IsMakeable) (hcovers : (RowShape.named m members).Covers names)
    (hc : ∀ name ∈ names, c.Supplies m (members.map fun name => (name, name)) name) :
    ∃ o, c.build m (members.map fun name => (name, name)) = .ok o ∧ o.kind = m.objectKind := by
  rw [RowShape.IsMakeable] at hmakeable
  split at hmakeable
  · next hk =>
    rw [build, hk]
    refine assignFields_eq_ok hm (List.Subset.refl _) ?_ ?_ rfl
    · intro p hp
      obtain ⟨name, hname, rfl⟩ := List.mem_map.1 hp
      exact hc name (hcovers name hname).1
    · intro p hp
      obtain ⟨name, hname, rfl⟩ := List.mem_map.1 hp
      exact (hcovers name hname).2
  · next k hk =>
    refine build_positional_eq_ok hm hk hmakeable.1 fun param hparam => ?_
    have hmember := hmakeable.2 param hparam
    exact ⟨param, lookup_map_self hmember, hc param (hcovers param hmember).1⟩
  · exact hmakeable.elim

/-- A row that supplies every parameter of the constructor becomes an object. -/
theorem Cursor.build_parameters_eq_ok (hm : m.IsDescribed) (hmakeable : (RowShape.positional m).IsMakeable)
    (hcovers : (RowShape.positional m).Covers names) (hc : ∀ name ∈ names, c.Supplies m m.namedColumns name) :
    ∃ o, c.build m m.namedColumns = .ok o ∧ o.kind = m.objectKind := by
  obtain ⟨k, hk, hparams⟩ := hcovers
  rw [RowShape.IsMakeable, hk] at hmakeable
  refine build_positional_eq_ok hm hk hmakeable fun param hparam => ?_
  obtain ⟨f, hf⟩ := hmakeable.exists_field param hparam
  have hname := (Model.mem_fields_of_field hf).2
  exact ⟨param, (Model.lookup_fields hf Field.name).trans (congrArg some hname), hc param (hparams param hparam)⟩

end Shapes

/-- A row that supplies the names of the select list becomes an object of the model, where the model can be made in
the shape that the query was compiled to. -/
theorem Expr.materialize_compiled {e : Expr} {o : Options} {q : Compiled} (h : e.compile o = .ok q)
    (hmode : q.mode = .rows ∨ q.mode = .first) {m : Model} (hmodel : q.shape.model? = some m)
    (hm : m.IsDescribed) (hmakeable : q.shape.IsMakeable) {c : Cursor}
    (hc : ∀ name ∈ e.selectNames, c.Supplies m q.shape.columns name) :
    ∃ object, c.materialize q.shape m.rowType = .ok (.object object) := by
  have hcovers := Expr.covers_of_compile h hmode
  generalize q.shape = shape at hmodel hmakeable hc hcovers ⊢
  have hbuilds : ∃ object, c.build m shape.columns = .ok object ∧ object.kind = m.objectKind := by
    cases shape with
    | entity m =>
      cases hmodel
      exact Cursor.build_entity_eq_ok hm hmakeable hcovers hc
    | named m members =>
      cases hmodel
      exact Cursor.build_named_eq_ok hm hmakeable hcovers hc
    | positional m =>
      cases hmodel
      exact Cursor.build_parameters_eq_ok hm hmakeable hcovers hc
    | scalar type => cases hmodel
  obtain ⟨object, hobject, hkind⟩ := hbuilds
  have hbuildAs : c.materialize shape m.rowType = c.buildAs m.rowType m shape.columns := by
    cases shape <;> cases hmodel <;> rfl
  refine ⟨object, ?_⟩
  rw [hbuildAs, Cursor.buildAs, hobject]
  exact Model.ofObject_rowType hkind

/-! ### Models that can and cannot be made -/

namespace Model

/-- A model of typed objects that has no key. -/
def typed (name : String) (fields : List Field) (construction : Construction) : Model :=
  ⟨.typed name, name, name, fields, none, construction, true⟩

/-- A model without construction. -/
def bare : Model := typed "Bare" [typedField "Flag" "Flag" ⟨.bool, false⟩ true] .none

/-- A model whose objects start empty, with a field that cannot be assigned. -/
def half : Model :=
  typed "Half" [typedField "Open" "Open" ⟨.int64, false⟩ true, typedField "Shut" "Shut" ⟨.int64, false⟩ false]
    .initial

/-- A model whose constructor takes two of its three fields. -/
def badge : Model :=
  typed "Badge" [typedField "Label" "label_text" ⟨.text, false⟩ false,
      typedField "Number" "Number" ⟨.int32, true⟩ true, typedField "Extra" "Extra" ⟨.bool, false⟩ false]
    (.positional ⟨["Number", "Label"], [("Number", ⟨.int32, true⟩), ("Label", ⟨.text, false⟩)],
      [("Extra", .bool true)]⟩)

/-- A model whose constructor has a parameter that is no field. -/
def ghostly : Model :=
  typed "Ghostly" [typedField "A" "A" ⟨.int64, false⟩ false]
    (.positional ⟨["A", "Ghost"], [("A", ⟨.int64, false⟩), ("Ghost", ⟨.int64, false⟩)], []⟩)

/-- A new object for each row of the table of a model, with these members, each a field of the row. -/
def objectsWith (m : Model) (shape : ShapeKind) (members : List (String × String)) : Expr :=
  .operator "Select" [.ofTable m, .function ["x"]
    (.newObject m shape (members.map fun (name, field) => (name, (Expr.param "x" (.model m)).member field)))] .unknown

/-- A cursor on the only row of a result. -/
def onlyRow (columns : List String) (row : List Value) : Cursor := ⟨⟨columns, [row]⟩, 1⟩

/-- A row supplies a name under which only one field is read, with a value of its slot. -/
theorem supplies_of_slot {c : Cursor} {m : Model} {name : String} (columns : List (String × String)) (field : String)
    (index : Nat) (slot : Slot) {column : String} {settable : Bool} (hindex : c.ordinal name = some index)
    (hf : m.field field = some (typedField field column slot settable))
    (honly : ∀ p ∈ columns, p.2 = name → p.1 = field) (hnull : (c.value index).isNull = false)
    (htype : (c.value index).scalarType = some slot.scalarType)
    (hfits : ∀ n, c.value index = .int n → slot.kind = .int32 → fitsInt32 n = true) : c.Supplies m columns name := by
  refine ⟨index, hindex, fun other g hmem hg => ?_⟩
  obtain rfl := honly _ hmem rfl
  cases hf.symm.trans hg
  exact ⟨hnull, fun _ h => htype.trans h, fun n hn h => hfits n hn (Option.some.inj h)⟩

/-- The tree compiles to rows of the model, the row supplies the names of its select list, and yet it becomes
nothing. -/
def NotMade (m : Model) (e : Expr) (c : Cursor) (f : Fault) : Prop :=
  ∃ q, e.compile .standard = .ok q ∧ q.mode = .rows ∧ q.shape.model? = some m ∧ m.IsDescribed ∧
    (∀ name ∈ e.selectNames, c.Supplies m q.shape.columns name) ∧ c.materialize q.shape m.rowType = .error f

theorem isDescribed_typed {name : String} {fields : List Field} {construction : Construction}
    (h : ∀ f ∈ fields, ∃ slot, f.slot = some slot ∧ f.type = some slot.scalarType) :
    (typed name fields construction).IsDescribed :=
  fun f hf => h f hf

/-- Whole rows of a model without construction, whole rows with a field that cannot be assigned, members that are not
all that the constructor of their model takes, and a parameter that is no field. Last, an integer that its field has
no room for is of the declared type too. -/
theorem not_materialize_compiled :
    bare.NotMade (.ofTable bare) (onlyRow ["Flag"] [.bool true]) (.shape (.noConstruction "Bare")) ∧
      half.NotMade (.ofTable half) (onlyRow ["Open", "Shut"] [.int 1, .int 2]) (.noMember "Shut" "Half") ∧
      badge.NotMade (badge.objectsWith .named [("Number", "Number")]) (onlyRow ["Number"] [.int 7])
        (.shape (.unsupplied "Label" "Badge")) ∧
      ghostly.NotMade (ghostly.objectsWith .positional [("A", "A"), ("Ghost", "A")])
        (onlyRow ["A", "Ghost"] [.int 1, .int 2]) (.shape (.unsupplied "Ghost" "Ghostly")) ∧
      ∃ q, (badge.objectsWith .positional [("Number", "Number"), ("Label", "Label")]).compile .standard = .ok q ∧
        q.mode = .rows ∧
        (onlyRow ["Number", "Label"] [.int 2147483648, .text "Oslo"]).materialize q.shape badge.rowType =
          .error (.value (.outsideInt32 2147483648)) := by
  refine ⟨⟨_, rfl, rfl, rfl, ?_, ?_, rfl⟩, ⟨_, rfl, rfl, rfl, ?_, ?_, rfl⟩, ⟨_, rfl, rfl, rfl, ?_, ?_, rfl⟩,
    ⟨_, rfl, rfl, rfl, ?_, ?_, rfl⟩, _, rfl, rfl, rfl⟩
  · exact isDescribed_typed (by simp [typedField])
  · intro name hname
    obtain rfl := List.mem_singleton.1 hname
    exact supplies_of_slot [("Flag", "Flag")] "Flag" 0 ⟨.bool, false⟩ rfl rfl (by decide) rfl rfl
      (by rintro n ⟨⟩)
  · exact isDescribed_typed (by simp [typedField])
  · rintro name (_ | ⟨_, _ | ⟨_, ⟨⟩⟩⟩)
    · exact supplies_of_slot [("Open", "Open"), ("Shut", "Shut")] "Open" 0 ⟨.int64, false⟩ rfl rfl
        (by decide) rfl rfl (by rintro n - ⟨⟩)
    · exact supplies_of_slot [("Open", "Open"), ("Shut", "Shut")] "Shut" 1 ⟨.int64, false⟩ rfl rfl
        (by decide) rfl rfl (by rintro n - ⟨⟩)
  · exact isDescribed_typed (by simp [typedField])
  · intro name hname
    obtain rfl := List.mem_singleton.1 hname
    exact supplies_of_slot [("Number", "Number")] "Number" 0 ⟨.int32, true⟩ rfl rfl (by decide) rfl rfl
      (by rintro n ⟨⟩ -; decide)
  · exact isDescribed_typed (by simp [typedField])
  · rintro name (_ | ⟨_, _ | ⟨_, ⟨⟩⟩⟩)
    · exact supplies_of_slot [("A", "A")] "A" 0 ⟨.int64, false⟩ rfl rfl (by decide) rfl rfl
        (by rintro n - ⟨⟩)
    · refine ⟨1, rfl, fun field f hfield => ?_⟩
      have hname : "Ghost" = "A" := congrArg Prod.snd (List.mem_singleton.1 hfield)
      exact absurd hname (by decide)

/-- Badges made by their constructor, of a row that has its parameters in another order. -/
theorem materialize_compiled_badge :
    ∃ q object, (badge.objectsWith .positional [("Label", "Label"), ("Number", "Number")]).compile .standard = .ok q ∧
      (onlyRow ["Label", "Number"] [.text "Oslo", .int 7]).materialize q.shape badge.rowType =
        .ok (.object object) := by
  have hnames : ∀ name ∈ ["Label", "Number"],
      (onlyRow ["Label", "Number"] [.text "Oslo", .int 7]).Supplies badge badge.namedColumns name := by
    rintro name (_ | ⟨_, _ | ⟨_, ⟨⟩⟩⟩)
    · exact supplies_of_slot _ "Label" 0 ⟨.text, false⟩ rfl rfl (by decide) rfl rfl (by rintro n ⟨⟩)
    · exact supplies_of_slot _ "Number" 1 ⟨.int32, true⟩ rfl rfl (by decide) rfl rfl (by rintro n ⟨⟩ -; decide)
  obtain ⟨object, h⟩ := Expr.materialize_compiled (o := .standard) (m := badge)
    (e := badge.objectsWith .positional [("Label", "Label"), ("Number", "Number")])
    (c := onlyRow ["Label", "Number"] [.text "Oslo", .int 7]) rfl (.inl rfl) rfl
    (isDescribed_typed (by simp [typedField])) (.cons ⟨_, rfl, rfl⟩ (.cons ⟨_, rfl, rfl⟩ .nil)) hnames
  exact ⟨_, object, rfl, h⟩

end Model

end QueryChain
