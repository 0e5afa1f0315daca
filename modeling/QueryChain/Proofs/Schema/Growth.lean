import Mathlib
import QueryChain.Grammar.Resolve
import QueryChain.Proofs.Lowering.Run

/-!
# Schemas that grow

A schema grows by declarations, one after another, and some of them are refused. A name is looked up among the names of
models first and then among the tables, and a declaration is refused if its name is found in either way. So no later
model takes over a name that stood for another one, and a query text goes on to mean what it meant.

* `Schema.run_declare`: a declaration adds its model, or leaves the schema alone.
* `Schema.WellFormed.declared`: what every sequence of declarations preserves.
* `Grammar.resolve_extends`: trees are resolved alike in a schema that extends another.
* `Schema.declared_wellFormed`: schemas after any declarations, and texts before and after more of them.
-/

namespace QueryChain

/-! ## Looking up names -/

namespace Schema

/-- Every name that stands for a model stands for the same one in the other schema. -/
def Extends (s t : Schema) : Prop :=
  ∀ name m, s.find name = some m → t.find name = some m

theorem Extends.refl (s : Schema) : s.Extends s := fun _ _ h => h

theorem Extends.trans {s t u : Schema} (h : s.Extends t) (h' : t.Extends u) : s.Extends u :=
  fun name m hm => h' name m (h name m hm)

/-- A name is that of a model, or else that of the table of one and of no model. -/
theorem find_eq_some {s : Schema} {name : String} {m : Model} :
    s.find name = some m ↔ s.models.find? (·.typeName = name) = some m ∨
      s.models.find? (·.typeName = name) = none ∧ s.models.find? (·.table = name) = some m := by
  rw [find]
  cases s.models.find? (·.typeName = name) <;> simp

/-- A name that is not found is the name of no model. -/
theorem typeName_ne_of_find_eq_none {s : Schema} {name : String} (h : s.find name = none) :
    ∀ m ∈ s.models, m.typeName ≠ name := by
  intro m hm hname
  have hsome : (s.models.find? (·.typeName = name)).isSome := List.find?_isSome.mpr ⟨m, hm, by simpa using hname⟩
  obtain ⟨n, hn⟩ := Option.isSome_iff_exists.mp hsome
  rw [find_of_name hn] at h
  cases h

/-- What a declaration can do: it is refused and leaves the schema alone, or its name is not found, its key is one of its
fields, and its model is added. -/
theorem run_declare_cases (spec : ModelSpec) (s : Schema) :
    (∃ fault, ExceptT.run (declare spec) s = (.error fault, s)) ∨
      s.find spec.name = none ∧ (∀ key, spec.primaryKey = some key → ∃ f ∈ spec.fields, f.name = key) ∧
        ExceptT.run (declare spec) s = (.ok (), ⟨s.models ++ [spec.toModel]⟩) := by
  have hrun : ExceptT.run (declare spec) s = ExceptT.run (ite _ _ _ : ExceptT Fault (StateM Schema) Unit) s := rfl
  rw [hrun]
  cases hname : s.find spec.name with
  | some m => exact Or.inl ⟨_, rfl⟩
  | none =>
    cases hkey : spec.primaryKey with
    | none => exact Or.inr ⟨rfl, nofun, rfl⟩
    | some key =>
      have hfree : ¬ (none : Option Model).isSome = true := nofun
      simp only [if_neg hfree]
      cases hany : spec.fields.any (·.name = key) with
      | false => exact Or.inl ⟨_, rfl⟩
      | true =>
        refine Or.inr ⟨trivial, fun _ hsome => ?_, rfl⟩
        cases hsome
        simpa using hany

/-- A declaration adds its model, or leaves the schema alone. -/
theorem run_declare (spec : ModelSpec) (s : Schema) :
    ExceptT.run (declare spec) s =
      match s.add spec with
      | .ok t => (.ok (), t)
      | .error f => (.error f, s) := by
  rw [add]
  rcases run_declare_cases spec s with ⟨fault, h⟩ | ⟨-, -, h⟩ <;> rw [h] <;> rfl

/-- A declaration is accepted if its name is not found and its key is one of its fields. -/
theorem add_eq_ok {s t : Schema} {spec : ModelSpec} (h : s.add spec = .ok t) :
    s.find spec.name = none ∧ (∀ key, spec.primaryKey = some key → ∃ f ∈ spec.fields, f.name = key) ∧
      t = ⟨s.models ++ [spec.toModel]⟩ := by
  rw [add] at h
  rcases run_declare_cases spec s with ⟨fault, hrun⟩ | ⟨hname, hkey, hrun⟩
  · rw [hrun] at h
    cases h
  · rw [hrun] at h
    cases h
    exact ⟨hname, hkey, rfl⟩

/-- A model that is added takes no name over: its own name stood for nothing, and tables are searched in order. -/
theorem extends_of_add {s t : Schema} {spec : ModelSpec} (h : s.add spec = .ok t) : s.Extends t := by
  obtain ⟨hfresh, -, rfl⟩ := add_eq_ok h
  intro name m hm
  rw [find_eq_some] at hm ⊢
  rcases hm with hname | ⟨hnone, htable⟩
  · exact Or.inl (by simp [List.find?_append, hname])
  · have hne : spec.name ≠ name := by
      rintro rfl
      rw [find, hnone, htable] at hfresh
      cases hfresh
    have hmodel : spec.toModel.typeName = spec.name := rfl
    refine Or.inr ⟨?_, by simp [List.find?_append, htable]⟩
    simp [List.find?_append, hnone, hmodel, hne]

/-! ## Declarations one after another -/

/-- The schema after declarations, some of which may have been refused. -/
def declared (s : Schema) (specs : List ModelSpec) : Schema :=
  specs.foldl (fun s spec => (ExceptT.run (declare spec) s).2) s

/-- A schema whose models have names of their own, and whose keys are fields. -/
structure WellFormed (s : Schema) : Prop where
  names : (s.models.map (·.typeName)).Nodup
  keys : ∀ m ∈ s.models, ∀ key, m.primaryKey = some key → ∃ f ∈ m.fields, f.name = key

theorem wellFormed_empty : empty.WellFormed :=
  ⟨List.nodup_nil, nofun⟩

/-- The fields of a declared model have the names of the declaration. -/
theorem exists_field_of_spec {spec : ModelSpec} {key : String} (h : ∃ f ∈ spec.fields, f.name = key) :
    ∃ f ∈ spec.toModel.fields, f.name = key := by
  obtain ⟨f, hf, rfl⟩ := h
  exact ⟨_, List.mem_map_of_mem (List.mem_map_of_mem hf), rfl⟩

theorem WellFormed.add {s t : Schema} {spec : ModelSpec} (hs : s.WellFormed) (h : s.add spec = .ok t) :
    t.WellFormed := by
  obtain ⟨hfresh, hkey, rfl⟩ := add_eq_ok h
  constructor
  · rw [List.map_append, List.map_singleton, List.nodup_append]
    refine ⟨hs.names, List.pairwise_singleton .., List.forall_mem_map.mpr fun m hm => ?_⟩
    exact List.forall_mem_singleton.mpr (typeName_ne_of_find_eq_none hfresh m hm)
  · exact List.forall_mem_append.mpr ⟨hs.keys, List.forall_mem_singleton.mpr fun key hsome =>
      exists_field_of_spec (hkey key hsome)⟩

/-- A model is found under its own name. -/
theorem WellFormed.find_typeName {s : Schema} (hs : s.WellFormed) {m : Model} (hm : m ∈ s.models) :
    s.find m.typeName = some m := by
  refine find_of_name ?_
  obtain ⟨before, after, hmodels⟩ := List.append_of_mem hm
  have hnames := hs.names
  rw [hmodels, List.map_append, List.nodup_append] at hnames
  have hbefore : before.find? (·.typeName = m.typeName) = none := by
    refine List.find?_eq_none.mpr fun n hn => ?_
    simpa using hnames.2.2 _ (List.mem_map_of_mem hn) _ List.mem_cons_self
  rw [hmodels, List.find?_append, hbefore, Option.none_or, List.find?_cons_of_pos (by simp)]

/-- What one declaration preserves, accepted or refused. -/
theorem WellFormed.declare {s : Schema} (hs : s.WellFormed) (spec : ModelSpec) :
    (ExceptT.run (declare spec) s).2.WellFormed ∧ s.Extends (ExceptT.run (declare spec) s).2 := by
  rw [run_declare]
  cases h : s.add spec with
  | ok t => exact ⟨hs.add h, extends_of_add h⟩
  | error f => exact ⟨hs, .refl s⟩

/-- What declarations one after another preserve. -/
theorem WellFormed.declared {s : Schema} (hs : s.WellFormed) (specs : List ModelSpec) :
    (s.declared specs).WellFormed ∧ s.Extends (s.declared specs) := by
  induction specs generalizing s with
  | nil => exact ⟨hs, .refl s⟩
  | cons spec specs ih =>
    obtain ⟨hwell, hextends⟩ := hs.declare spec
    obtain ⟨hwell', hextends'⟩ := ih hwell
    exact ⟨hwell', hextends.trans hextends'⟩

theorem declared_append (s : Schema) (specs later : List ModelSpec) :
    s.declared (specs ++ later) = (s.declared specs).declared later :=
  List.foldl_append ..

end Schema

/-! ## Resolving in a schema that extends another -/

/-- What the one accepts, the other accepts with the same outcome. -/
def AcceptsAs {α : Type} (r r' : Except Fault α) : Prop :=
  ∀ a, r = .ok a → r' = .ok a

theorem AcceptsAs.refl {α : Type} (r : Except Fault α) : AcceptsAs r r := fun _ h => h

theorem AcceptsAs.bind {α β : Type} {r r' : Except Fault α} {f f' : α → Except Fault β} (h : AcceptsAs r r')
    (hf : ∀ a, AcceptsAs (f a) (f' a)) : AcceptsAs (r >>= f) (r' >>= f') := by
  intro b hb
  obtain ⟨a, ha, hb⟩ := bind_eq_ok.mp hb
  exact bind_eq_ok.mpr ⟨a, h a ha, hf a b hb⟩

/-- What comes after a result that both accept. -/
theorem AcceptsAs.then {α β : Type} {r r' : Except Fault α} (h : AcceptsAs r r') (f : α → Except Fault β) :
    AcceptsAs (r >>= f) (r' >>= f) :=
  h.bind fun _ => .refl _

namespace Grammar

/-- An argument that is accepted in more cases than another, as a value and as a function. -/
structure Argument.Extends (a b : Argument) : Prop where
  value : AcceptsAs a.value b.value
  function : ∀ types, AcceptsAs (a.function types) (b.function types)

section Calls

variable {args args' : List Argument} {β : Type}

/-- What is done with the argument at a position. -/
theorem requireArgument_extends (h : List.Forall₂ Argument.Extends args args') (method : String) (position : Nat)
    {f f' : Argument → Except Fault β} (hf : ∀ a b : Argument, a.Extends b → AcceptsAs (f a) (f' b)) :
    AcceptsAs (requireArgument method args position >>= f) (requireArgument method args' position >>= f') := by
  rw [requireArgument, requireArgument]
  generalize position - 1 = i
  induction h generalizing i with
  | nil => exact .refl _
  | cons hab _ ih =>
    cases i with
    | zero => exact hf _ _ hab
    | succ i =>
      rw [List.getElem?_cons_succ, List.getElem?_cons_succ]
      exact ih i

theorem rowFunction_extends (h : List.Forall₂ Argument.Extends args args') (method : String) (element : StaticType) :
    AcceptsAs (rowFunction method element args) (rowFunction method element args') :=
  requireArgument_extends h method 1 fun _ _ hab => hab.function [element]

theorem rowFunction?_extends (h : List.Forall₂ Argument.Extends args args') (element : StaticType) :
    AcceptsAs (rowFunction? element args) (rowFunction? element args') := by
  cases h with
  | nil => exact .refl _
  | cons hab _ => exact (hab.function [element]).then _

theorem resolveOperator_extends (h : List.Forall₂ Argument.Extends args args') (source : Expr) (element : StaticType)
    (method : String) (op : QueryOperator) :
    AcceptsAs (resolveOperator source element method args op) (resolveOperator source element method args' op) := by
  cases op with
  | filter | order _ _ | select | groupBy => exact (rowFunction_extends h method element).then _
  | take => exact requireArgument_extends h method 1 fun _ _ hab => hab.value.then _
  | distinct => exact .refl _
  | first | count | fold _ => exact (rowFunction?_extends h element).then _
  | join =>
    refine requireArgument_extends h method 1 fun _ _ hinner => hinner.value.bind fun inner => ?_
    refine requireArgument_extends h method 2 fun _ _ houter => (houter.function _).bind fun outerKey => ?_
    refine requireArgument_extends h method 3 fun _ _ hkey => (hkey.function _).bind fun innerKey => ?_
    exact requireArgument_extends h method 4 fun _ _ hresult => (hresult.function _).then _

theorem values_extend (h : List.Forall₂ Argument.Extends args args') :
    AcceptsAs (args.mapM Argument.value) (args'.mapM Argument.value) := by
  induction h with
  | nil => exact .refl _
  | cons hab _ ih =>
    rw [List.mapM_cons, List.mapM_cons]
    exact hab.value.bind fun _ => ih.then _

theorem resolveCall_extends (h : List.Forall₂ Argument.Extends args args') (target : Expr) (method : String) :
    AcceptsAs (resolveCall target method args) (resolveCall target method args') := by
  have hmethod : AcceptsAs (resolveMethod target method args) (resolveMethod target method args') :=
    (values_extend h).then _
  rw [resolveCall, resolveCall]
  split
  · split
    · exact resolveOperator_extends h target _ method _
    · exact .refl _
  · split
    · exact (rowFunction?_extends h _).then _
    · exact hmethod
  · exact hmethod

end Calls

section Trees

variable {s t : Schema}

theorem resolveName_extends (h : s.Extends t) (scope : TypeScope) (name : String) :
    AcceptsAs (resolveName s scope name) (resolveName t scope name) := by
  rw [resolveName, resolveName]
  split
  · exact .refl _
  · cases hm : s.find name with
    | none => exact nofun
    | some m =>
      rw [h name m hm]
      exact .refl _

mutual

/-- Trees are resolved alike in a schema that extends another. -/
theorem resolve_extends (h : s.Extends t) (scope : TypeScope) (tree : Syntax) :
    AcceptsAs (resolve s scope tree) (resolve t scope tree) := by
  cases tree with
  | literal v => exact .refl _
  | name name => exact resolveName_extends h scope name
  | member target field => exact (resolve_extends h scope target).then _
  | binary op left right =>
    exact (resolve_extends h scope left).bind fun _ => (resolve_extends h scope right).then _
  | object members => exact (resolveMembers_extends h scope members).then _
  | lambda params body => exact .refl _
  | call target method args =>
    exact (resolve_extends h scope target).bind fun e => resolveCall_extends (argumentsOf_extend h scope args) e method
  | freeCall method args =>
    cases args with
    | nil => exact .refl _
    | cons first rest =>
      exact (resolve_extends h scope first).bind fun e =>
        resolveCall_extends (argumentsOf_extend h scope rest) e method

theorem resolveFunction_extends (h : s.Extends t) (scope : TypeScope) (types : List StaticType) (tree : Syntax) :
    AcceptsAs (resolveFunction s scope types tree) (resolveFunction t scope types tree) := by
  cases tree with
  | lambda names body =>
    rw [resolveFunction, resolveFunction]
    split
    · exact (resolve_extends h _ body).then _
    · exact .refl _
  | _ => exact .refl _

theorem argumentsOf_extend (h : s.Extends t) (scope : TypeScope) (trees : List Syntax) :
    List.Forall₂ Argument.Extends (argumentsOf s scope trees) (argumentsOf t scope trees) := by
  cases trees with
  | nil => exact .nil
  | cons tree rest =>
    rw [argumentsOf, argumentsOf]
    exact .cons ⟨resolve_extends h scope tree, fun types => resolveFunction_extends h scope types tree⟩
      (argumentsOf_extend h scope rest)

theorem resolveMembers_extends (h : s.Extends t) (scope : TypeScope) (members : List (String × Syntax)) :
    AcceptsAs (resolveMembers s scope members) (resolveMembers t scope members) := by
  cases members with
  | nil => exact .refl _
  | cons member rest =>
    exact (resolveMember_extends h scope member).bind fun _ => (resolveMembers_extends h scope rest).then _

theorem resolveMember_extends (h : s.Extends t) (scope : TypeScope) (member : String × Syntax) :
    AcceptsAs (resolveMember s scope member) (resolveMember t scope member) := by
  cases member with
  | mk name value => exact (resolve_extends h scope value).then _

end

end Trees

end Grammar

/-- A query text that is accepted means the same in a schema that extends the one it was written for. -/
theorem Expr.ofText_extends {s t : Schema} (h : s.Extends t) (text : String) :
    AcceptsAs (Expr.ofText s text) (Expr.ofText t text) :=
  (AcceptsAs.refl _).bind fun tree => Grammar.resolve_extends h [] tree

namespace Schema

/-- After any declarations, some of them refused: the names of the models are distinct, every model is found under its
own name, keys are fields, a declaration that is refused changes nothing, and after any further declarations every name
stands for the model that it stood for and every text for the tree that it stood for. -/
theorem declared_wellFormed (specs : List ModelSpec) :
    ((empty.declared specs).models.map (·.typeName)).Nodup ∧
      (∀ m ∈ (empty.declared specs).models, (empty.declared specs).find m.typeName = some m) ∧
      (∀ m ∈ (empty.declared specs).models, ∀ key, m.primaryKey = some key → ∃ f ∈ m.fields, f.name = key) ∧
      (∀ spec f, (ExceptT.run (declare spec) (empty.declared specs)).1 = .error f →
        (ExceptT.run (declare spec) (empty.declared specs)).2 = empty.declared specs) ∧
      ∀ later,
        (∀ name m, (empty.declared specs).find name = some m →
          (empty.declared (specs ++ later)).find name = some m) ∧
        ∀ text e, Expr.ofText (empty.declared specs) text = .ok e →
          Expr.ofText (empty.declared (specs ++ later)) text = .ok e := by
  obtain ⟨hwell, -⟩ := wellFormed_empty.declared specs
  refine ⟨hwell.names, fun m hm => hwell.find_typeName hm, hwell.keys, fun spec f hf => ?_, fun later => ?_⟩
  · rw [run_declare] at hf ⊢
    cases hadd : (empty.declared specs).add spec with
    | ok t =>
      rw [hadd] at hf
      cases hf
    | error g => rfl
  · have hextends : (empty.declared specs).Extends (empty.declared (specs ++ later)) := by
      rw [declared_append]
      exact (hwell.declared later).2
    exact ⟨hextends, Expr.ofText_extends hextends⟩

/-- Customers, whose table is not named like the model. -/
def customers : ModelSpec :=
  ⟨"Customer", some "Customers", some "Id", [⟨"Id", .int, none⟩, ⟨"Name", .text, none⟩]⟩

/-- A second model of the same table. -/
def formerCustomers : ModelSpec :=
  ⟨"Former", some "Customers", none, [⟨"Id", .int, none⟩]⟩

/-- A model cannot take over the name of the table of customers, nor does a second model of that table. -/
theorem declared_wellFormed_customers :
    ((empty.declared [customers]).find "Customer" = some customers.toModel ∧
      (∃ f ∈ customers.toModel.fields, f.name = "Id")) ∧
      ((ExceptT.run (declare { customers with name := "Customers" }) (empty.declared [customers])).1 =
          .error (.settings (.modelTwice "Customers")) ∧
        (ExceptT.run (declare { customers with name := "Customers" }) (empty.declared [customers])).2 =
          empty.declared [customers]) ∧
      (empty.declared [customers, formerCustomers]).find "Customers" = some customers.toModel ∧
      ∃ e, Expr.ofText (empty.declared [customers]) "Customers.Take(1)" = .ok e ∧
        Expr.ofText (empty.declared [customers, formerCustomers]) "Customers.Take(1)" = .ok e := by
  obtain ⟨-, hfind, hkeys, hrefused, hlater⟩ := declared_wellFormed [customers]
  obtain ⟨hname, htext⟩ := hlater [formerCustomers]
  have hmem : customers.toModel ∈ (empty.declared [customers]).models := List.mem_singleton.mpr rfl
  have hread : ∃ e, Expr.ofText (empty.declared [customers]) "Customers.Take(1)" = .ok e := by
    have hsyntax : Syntax.ofText "Customers.Take(1)" =
        .ok (.call (.name "Customers") "Take" [.literal (.int 1)]) := by cbv
    rw [Expr.ofText, hsyntax]
    exact ⟨_, rfl⟩
  obtain ⟨e, he⟩ := hread
  exact ⟨⟨hfind _ hmem, hkeys _ hmem "Id" rfl⟩, ⟨rfl, hrefused _ _ rfl⟩, hname "Customers" _ rfl, e, he, htext _ _ he⟩

end Schema

end QueryChain
