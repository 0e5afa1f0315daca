import QueryChain.Proofs.Columns.Within
import QueryChain.Proofs.Lowering.Operators
import QueryChain.Proofs.Lowering.Traversal
import QueryChain.Proofs.Scope.WellScoped

/-!
# Trees without joins

All operators but joins leave the tables and joins of the statement alone, apart from the first table that is bound,
which becomes the root. What they add to the other clauses refers to what the rows refer to that they are given. So a
tree without joins keeps to what is visible.

* `Clauses.Within`: clauses that refer to some columns only.
* `Visible.Holds`: the same, with a condition on the root, the aliases and the joins.
* `keeps_callOperator`: operators other than joins.
* `Expr.Every`: conditions on the tables and operators of a tree.
* `Expr.keeps_rowOf`: a tree keeps an invariant if its tables and operators do.
-/

namespace QueryChain

open Lowering Lower

/-! ## Clauses -/

/-- A projection that refers to some columns only; one onto a scalar holds a term or a known scalar. -/
def Projection.Within (column : Nat × String → Prop) : Projection → Prop
  | .object _ _ fields => ∀ name t, (name, .term t) ∈ fields.list → t.Within column
  | .scalar _ value => (∃ t, value = .term t ∧ t.Within column) ∨ ∃ v, value = .scalar v

/-- Clauses that refer to some columns only, leaving joins aside. -/
structure Clauses.Within (column : Nat × String → Prop) (c : Clauses) : Prop where
  projection : ∀ p, c.projection = some p → p.Within column
  filters : ∀ t ∈ c.filters, t.Within column
  order : ∀ k ∈ c.order, k.term.Within column
  groupKeys : ∀ t ∈ c.groupKeys, t.Within column
  fold : ∀ f t, c.fold = some (f, t) → t.Within column

/-- A join takes the projection away. -/
theorem Clauses.Within.join {column : Nat × String → Prop} {c : Clauses} (hc : c.Within column) (j : Join) :
    (c.join j).Within column := by
  refine ⟨fun p hp => ?_, hc.filters, hc.order, hc.groupKeys, hc.fold⟩
  cases hp

theorem Clauses.within_empty (column : Nat × String → Prop) : Clauses.empty.Within column :=
  ⟨nofun, nofun, nofun, nofun, nofun⟩

section

variable {V : Visible}

theorem Projection.within_object (positional : Bool) (m : Model) (typeName : String) {list : List (String × Row)}
    (h : ∀ p ∈ list, p.2.Within V) : (Projection.object positional m ⟨typeName, list⟩).Within V.column := by
  intro name t ht
  cases h _ ht with
  | term hterm => exact hterm

theorem Projection.within_term (type : Option ScalarType) {t : Term} (ht : t.Within V.column) :
    (Projection.scalar type (.term t)).Within V.column :=
  Or.inl ⟨t, rfl, ht⟩

theorem Projection.within_known (type : Option ScalarType) (v : Value) :
    (Projection.scalar type (.scalar v)).Within V.column :=
  Or.inr ⟨v, rfl⟩

end

theorem Projection.Within.mono {column column' : Nat × String → Prop} (h : ∀ x, column x → column' x)
    {p : Projection} (hp : p.Within column) : p.Within column' := by
  cases p with
  | object positional m fields => exact fun name t ht x hx => h x (hp name t ht x hx)
  | scalar type value =>
    rcases hp with ⟨t, rfl, ht⟩ | hv
    · exact Or.inl ⟨t, rfl, fun x hx => h x (ht x hx)⟩
    · exact Or.inr hv

theorem Clauses.Within.mono {column column' : Nat × String → Prop} (h : ∀ x, column x → column' x) {c : Clauses}
    (hc : c.Within column) : c.Within column' where
  projection p hp := (hc.projection p hp).mono h
  filters t ht x hx := h x (hc.filters t ht x hx)
  order k hk x hx := h x (hc.order k hk x hx)
  groupKeys t ht x hx := h x (hc.groupKeys t ht x hx)
  fold f t ht x hx := h x (hc.fold f t ht x hx)

/-- The part of the clauses that only tables and joins change. -/
structure Frame where
  root : Option TableRef
  aliases : Nat
  joins : List Join

def Clauses.frame (c : Clauses) : Frame := ⟨c.root, c.aliases, c.joins⟩

/-- Clauses that refer to visible columns only, with a condition on the root, the aliases and the joins. -/
def Visible.Holds (V : Visible) (F : Frame → Prop) (c : Clauses) : Prop :=
  c.Within V.column ∧ F c.frame

section Updates

variable {V : Visible} {F : Frame → Prop}

theorem keeps_filter {t : Term} (ht : t.Within V.column) :
    Keeps (V.Holds F) (fun _ => True) (update (·.filter t)) :=
  keeps_update fun _ hc => ⟨⟨hc.1.projection,
    List.forall_mem_append.mpr ⟨hc.1.filters, List.forall_mem_singleton.mpr ht⟩, hc.1.order, hc.1.groupKeys,
    hc.1.fold⟩, hc.2⟩

theorem keeps_sort {ts : List Term} (hts : ∀ t ∈ ts, t.Within V.column) (descending restart : Bool) :
    Keeps (V.Holds F) (fun _ => True) (update (·.sort ts descending restart)) := by
  refine keeps_update fun c hc => ⟨⟨hc.1.projection, hc.1.filters, ?_, hc.1.groupKeys, hc.1.fold⟩, hc.2⟩
  refine List.forall_mem_append.mpr ⟨?_, List.forall_mem_map.mpr hts⟩
  cases restart with
  | true => exact List.forall_mem_nil _
  | false => exact hc.1.order

theorem keeps_group {t : Term} (ht : t.Within V.column) :
    Keeps (V.Holds F) (fun _ => True) (update (·.group t)) :=
  keeps_update fun _ hc => ⟨⟨hc.1.projection, hc.1.filters, hc.1.order,
    List.forall_mem_append.mpr ⟨hc.1.groupKeys, List.forall_mem_singleton.mpr ht⟩, hc.1.fold⟩, hc.2⟩

theorem keeps_project {p : Projection} (hp : p.Within V.column) :
    Keeps (V.Holds F) (fun _ => True) (update (·.project p)) := by
  refine keeps_update fun c hc => ⟨⟨fun q hq => ?_, hc.1.filters, hc.1.order, hc.1.groupKeys, hc.1.fold⟩, hc.2⟩
  cases hq
  exact hp

theorem keeps_setFold (f : Aggregate) {t : Term} (ht : t.Within V.column) :
    Keeps (V.Holds F) (fun _ => True) (update fun c => { c with fold := some (f, t) }) := by
  refine keeps_update fun c hc =>
    ⟨⟨hc.1.projection, hc.1.filters, hc.1.order, hc.1.groupKeys, fun g u hu => ?_⟩, hc.2⟩
  cases hu
  exact ht

/-- Limits and flags refer to nothing. -/
theorem keeps_flag {g : Clauses → Clauses}
    (hg : ∀ c, ∃ top distinct first count, g c = { c with top, distinct, first, count }) :
    Keeps (V.Holds F) (fun _ => True) (update g) := by
  refine keeps_update fun c hc => ?_
  obtain ⟨top, distinct, first, count, hgc⟩ := hg c
  rw [hgc]
  exact ⟨⟨hc.1.projection, hc.1.filters, hc.1.order, hc.1.groupKeys, hc.1.fold⟩, hc.2⟩

/-- A bound table is visible, and may become the root. -/
theorem keeps_bindTable {m : Model} (h : ∀ f : Frame, F f →
    V.table ⟨m, f.aliases⟩ ∧ F { f with root := some (f.root.getD ⟨m, f.aliases⟩) }) :
    Keeps (V.Holds F) V.table (bindTable m) := by
  intro c t c' hc hrun
  rw [run_bindTable] at hrun
  cases hrun
  obtain ⟨htable, hframe⟩ := h c.frame hc.2
  exact ⟨htable, ⟨hc.1.projection, hc.1.filters, hc.1.order, hc.1.groupKeys, hc.1.fold⟩, hframe⟩

end Updates

/-! ## Query operators -/

/-- An operand that keeps an invariant, evaluated or applied, and stays within what is visible. -/
structure Lowering.Operand.Keeps (V : Visible) (I : Clauses → Prop) (operand : Operand) : Prop where
  row : Lower.Keeps I (Row.Within V) operand.row
  apply : ∀ rows, (∀ r ∈ rows, r.Within V) → Lower.Keeps I (Row.Within V) (operand.apply rows)

section Groups

variable {V : Visible} {I : Clauses → Prop} {source : Operand}

theorem Lowering.Operand.Keeps.apply_one {operand : Operand} (h : operand.Keeps V I) {r : Row} (hr : r.Within V) :
    Lower.Keeps I (Row.Within V) (operand.apply [r]) :=
  h.apply [r] (List.forall_mem_singleton.mpr hr)

theorem Visible.foldsGroups (V : Visible) : FoldsGroups (Row.Within V) (Term.Within V.column) where
  element h := by
    cases h with
    | group _ helement => exact helement
  countAll _ := .term (List.forall_mem_nil _)
  countWhere _ ht := .term ht
  fold _ _ ht := .term ht

theorem keeps_foldGroup (name : String) (f : GroupFold) (hsource : Keeps I (Row.Within V) source.row)
    {selector : Option Operand} (h : ∀ operand, selector = some operand → operand.Keeps V I) :
    Keeps I (Row.Within V) (foldGroup name f source selector) :=
  keeps_rules.judged_foldGroup V.closed V.foldsGroups name f hsource fun operand hoperand _ =>
    (h operand hoperand).apply_one

/-- An aggregate of a group adds nothing to the clauses, so it keeps any invariant. -/
theorem keeps_callGroupFold {name : String} {rest : List Operand} (hname : (GroupFold.ofName name).isSome)
    (hrow : source.expr.isRowDerived) (hsource : Keeps I (Row.Within V) source.row)
    (h : ∀ operand ∈ rest, operand.Keeps V I) : Keeps I (Row.Within V) (callOperator name (source :: rest)) := by
  obtain ⟨f, hf⟩ := Option.isSome_iff_exists.mp hname
  rw [callOperator_eq, hrow, if_pos rfl, hf]
  exact keeps_foldGroup name f hsource fun operand hoperand => h operand (List.mem_of_getElem? hoperand)

end Groups

section Operators

variable {V : Visible} {F : Frame → Prop} {source : Operand}

theorem keeps_restrict? {predicate : Option Operand}
    (h : ∀ operand, predicate = some operand → operand.Keeps V (V.Holds F)) (rows : Row) (hrows : rows.Within V) :
    Keeps (V.Holds F) (fun _ => True) (restrict? rows predicate) :=
  keeps_rules.judged_restrict? V.closed (fun operand hoperand => (h operand hoperand).apply_one hrows)
    fun _ => keeps_filter

/-- What is projected refers to what the rows refer to. -/
theorem keeps_select {projection : Operand} (hsource : Keeps (V.Holds F) (Row.Within V) source.row)
    (h : projection.Keeps V (V.Holds F)) : Keeps (V.Holds F) (Row.Within V) (select source projection) := by
  refine keeps_rules.judged_select hsource (keeps_functionBody _) (fun _ => h.apply_one) ?_ ?_ fun type v => ?_
  · intro positional m typeName list hlist
    have hmembers := V.closed.ofProjected hlist
    exact ⟨.projected _ hmembers, keeps_project (Projection.within_object _ _ _ hmembers)⟩
  · exact fun type t ht => keeps_project (Projection.within_term type (V.closed.ofTerm ht))
  · exact keeps_project (Projection.within_known type v)

/-- The projected scalar refers to visible columns, for the clauses do. -/
theorem keeps_projectedScalar (f : Aggregate) : Keeps (V.Holds F) (Row.Within V) (projectedScalar f) := by
  refine keeps_get.bind fun c hc => ?_
  split
  · rename_i type value hprojection
    rcases hc.1.projection _ hprojection with ⟨t, rfl, ht⟩ | ⟨v, rfl⟩
    · exact keeps_pure (.term ht)
    · exact keeps_pure (.scalar v)
  · exact keeps_throw _

variable {name : String} {rest : List Operand} {op : QueryOperator}

theorem keeps_operate (hI : V.Sees (V.Holds F)) (hop : op ≠ .join)
    (hsource : Keeps (V.Holds F) (Row.Within V) source.row) (h : ∀ operand ∈ rest, operand.Keeps V (V.Holds F)) :
    Keeps (V.Holds F) (Row.Within V) (operate name source (source :: rest) op) := by
  have hoptional : ∀ operand, (source :: rest)[1]? = some operand → operand.Keeps V (V.Holds F) :=
    fun operand hoperand => h operand (List.mem_of_getElem? hoperand)
  have hsecond : Keeps (V.Holds F) (Operand.Keeps V (V.Holds F)) (operandAt name (source :: rest) 1) :=
    keeps_operandAt hoptional
  cases op with
  | filter =>
    exact hsecond.bind fun predicate hpredicate => hsource.bind fun rows hrows =>
      (keeps_rules.judged_restrict V.closed (hpredicate.apply_one hrows) fun _ => keeps_filter).bind fun _ _ =>
        keeps_pure hrows
  | select => exact hsecond.bind fun projection hprojection => keeps_select hsource hprojection
  | order descending restart =>
    exact hsecond.bind fun key hkey => hI.joinsAre.looks.judged_order V.closed hsource (fun _ => hkey.apply_one)
      fun _ hts => keeps_sort hts descending restart
  | groupBy =>
    exact hsecond.bind fun key hkey => keeps_rules.judged_groupBy V.closed hsource (keeps_functionBody _)
      (fun _ => hkey.apply_one) fun ht hrows => ⟨.group ht hrows, keeps_group ht⟩
  | join => exact absurd rfl hop
  | take =>
    exact hsecond.bind fun count hcount =>
      keeps_rules.judged_take hsource hcount.row fun _ => keeps_flag fun _ => ⟨_, _, _, _, rfl⟩
  | distinct =>
    exact hsource.bind fun rows hrows => (keeps_flag fun _ => ⟨_, _, _, _, rfl⟩).bind fun _ _ => keeps_pure hrows
  | first =>
    exact keeps_rules.judged_first hsource (keeps_restrict? hoptional) (keeps_flag fun _ => ⟨_, _, _, _, rfl⟩)
      (keeps_flag fun _ => ⟨_, _, _, _, rfl⟩)
  | count =>
    exact keeps_rules.judged_count hsource (keeps_restrict? hoptional) (keeps_flag fun _ => ⟨_, _, _, _, rfl⟩)
  | fold f =>
    exact keeps_rules.judged_fold V.closed hsource (keeps_projectedScalar f)
      (fun operand hoperand _ => (hoptional operand hoperand).apply_one) fun t ht => ⟨.term ht, keeps_setFold f ht⟩

/-- Operators other than joins stay within what is visible. -/
theorem keeps_callOperator (hI : V.Sees (V.Holds F)) (hname : QueryOperator.ofName name ≠ some .join)
    (hsource : Keeps (V.Holds F) (Row.Within V) source.row) (h : ∀ operand ∈ rest, operand.Keeps V (V.Holds F)) :
    Keeps (V.Holds F) (Row.Within V) (callOperator name (source :: rest)) := by
  rw [callOperator_eq]
  split
  · exact keeps_foldGroup name _ hsource fun operand hoperand => h operand (List.mem_of_getElem? hoperand)
  · rename_i op _ hop
    refine keeps_operate hI (fun hjoin => hname ?_) hsource h
    rw [hop, hjoin]
  · exact keeps_throw _

/-- The source is evaluated first, and the rest goes by what it yields and the clauses that it leaves behind. -/
theorem run_operate_source (hop : op ≠ .join) {c c' : Clauses} {r : Row}
    (h : ExceptT.run (operate name source (source :: rest) op) c = (.ok r, c')) :
    ∃ rows c₁, ExceptT.run source.row c = (.ok rows, c₁) ∧
      ∀ source' : Operand, source'.row = pure rows →
        ExceptT.run (operate name source' (source' :: rest) op) c₁ = (.ok r, c') := by
  have hfirst {k : Row → Lower Row} (hrun : ExceptT.run (source.row >>= k) c = (.ok r, c')) :
      ∃ rows c₁, ExceptT.run source.row c = (.ok rows, c₁) ∧
        ∀ source' : Operand, source'.row = pure rows → ExceptT.run (source'.row >>= k) c₁ = (.ok r, c') := by
    obtain ⟨rows, c₁, hsource, hrest⟩ := run_bind_eq_ok.mp hrun
    refine ⟨rows, c₁, hsource, fun source' hsource' => ?_⟩
    rwa [hsource', pure_bind]
  -- an operator that looks for its second operand first finds the same one behind another source
  have hsecond {k : Operand → Operand → Lower Row} (hk : ∀ o, ∃ k', ∀ s : Operand, k s o = s.row >>= k')
      (hrun : ExceptT.run (operandAt name (source :: rest) 1 >>= k source) c = (.ok r, c')) :
      ∃ rows c₁, ExceptT.run source.row c = (.ok rows, c₁) ∧ ∀ source' : Operand, source'.row = pure rows →
        ExceptT.run (operandAt name (source' :: rest) 1 >>= k source') c₁ = (.ok r, c') := by
    cases rest with
    | nil => cases hrun
    | cons operand rest =>
      obtain ⟨k', hk'⟩ := hk operand
      replace hrun : ExceptT.run (k source operand) c = (.ok r, c') := hrun
      rw [hk'] at hrun
      obtain ⟨rows, c₁, hsource, hrest⟩ := hfirst hrun
      refine ⟨rows, c₁, hsource, fun source' hsource' => ?_⟩
      show ExceptT.run (k source' operand) c₁ = _
      rw [hk']
      exact hrest source' hsource'
  cases op with
  | filter => exact hsecond (fun _ => ⟨_, fun _ => rfl⟩) h
  | select => exact hsecond (fun _ => ⟨_, fun _ => rfl⟩) h
  | order descending restart => exact hsecond (fun _ => ⟨_, fun _ => rfl⟩) h
  | groupBy => exact hsecond (fun _ => ⟨_, fun _ => rfl⟩) h
  | join => exact absurd rfl hop
  | take => exact hsecond (fun _ => ⟨_, fun _ => rfl⟩) h
  | distinct => exact hfirst h
  | first => exact hfirst h
  | count => exact hfirst h
  | fold f => exact hfirst h

theorem run_callOperator_source (hname : QueryOperator.ofName name ≠ some .join) {c c' : Clauses} {r : Row}
    (h : ExceptT.run (callOperator name (source :: rest)) c = (.ok r, c')) :
    ∃ rows c₁, ExceptT.run source.row c = (.ok rows, c₁) ∧
      ExceptT.run (callOperator name (⟨source.expr, pure rows, source.apply⟩ :: rest)) c₁ = (.ok r, c') := by
  rw [callOperator_eq] at h
  split at h
  · rename_i f _ hf
    obtain ⟨rows, c₁, hsource, hrest⟩ := run_bind_eq_ok.mp h
    refine ⟨rows, c₁, hsource, ?_⟩
    rw [callOperator_eq, hf]
    exact hrest
  · rename_i op hf hop
    obtain ⟨rows, c₁, hsource, hrest⟩ := run_operate_source (fun hjoin => hname (by rw [hop, hjoin])) h
    refine ⟨rows, c₁, hsource, ?_⟩
    rw [callOperator_eq, hf, hop]
    exact hrest _ rfl
  · cases h

end Operators

/-! ## Trees -/

namespace Expr

/-- The tables and operators that meet a condition keep an invariant. -/
structure NodesKeep (V : Visible) (I : Clauses → Prop) (table : Model → Prop)
    (operator : String → List Expr → Prop) : Prop where
  sees : V.Sees I
  table : ∀ m, table m → Keeps I V.table (bindTable m)
  operator : ∀ name args env, operator name args → (∀ operand ∈ operandsOf env args, operand.Keeps V I) →
    Keeps I (Row.Within V) (callOperator name (operandsOf env args))

/-- Operators other than joins keep to visible columns. -/
theorem nodesKeep_isNoJoin {V : Visible} {F : Frame → Prop} {table : Model → Prop} (hI : V.Sees (V.Holds F))
    (htable : ∀ m, table m → Keeps (V.Holds F) V.table (bindTable m)) :
    NodesKeep V (V.Holds F) table IsNoJoin where
  sees := hI
  table := htable
  operator name args env hname h := by
    cases args with
    | nil => exact keeps_throw _
    | cons source rest =>
      obtain ⟨hsource, hrest⟩ := List.forall_mem_cons.mp h
      exact keeps_callOperator hI hname hsource.row hrest

/-- Group aggregates keep any invariant. -/
theorem nodesKeep_isGroupFold {V : Visible} {I : Clauses → Prop} (hI : V.Sees I) :
    NodesKeep V I (fun _ => False) IsGroupFold where
  sees := hI
  table _ h := h.elim
  operator name args env hname h := by
    cases args with
    | nil => exact hname.elim
    | cons source rest =>
      obtain ⟨hsource, hrest⟩ := List.forall_mem_cons.mp h
      exact keeps_callGroupFold hname.1 hname.2 hsource.row hrest

section Trees

variable {V : Visible} {I : Clauses → Prop} {table : Model → Prop} {operator : String → List Expr → Prop}

/-- Rows within what is visible are what is said of the nodes of a tree. -/
theorem NodesKeep.nodes (h : NodesKeep V I table operator) :
    Nodes (fun _ => Keeps I) (Row.Within V) table operator where
  toJudgement := keeps_judgement
  scalar := .scalar
  captured := Row.within_ofCaptured
  projected typeName _ := .projected typeName
  table m hm := (h.table m hm).bind fun _ ht => keeps_pure (.table ht)
  memberOf _ name hr := h.sees.joinsAre.looks.judged_memberOf V.closed hr name
  combine op concat _ _ := keeps_rules.judged_combine V.closed op concat
  callMethod name _ _ hreceiver hargs := keeps_rules.judged_callMethod V.closed name hreceiver hargs
  operator name args env hname hargs :=
    h.operator name args env hname fun operand hoperand =>
      ⟨(hargs operand hoperand).row, (hargs operand hoperand).apply⟩

/-- A tree keeps an invariant if its tables and operators do. -/
theorem keeps_rowOf (hnodes : NodesKeep V I table operator) (e : Expr) (h : e.Every table operator) (env : Env)
    (henv : ∀ p ∈ env, p.2.Within V) : Keeps I (Row.Within V) (rowOf env e) :=
  hnodes.nodes.rowOf e h env henv

/-- So does a function, whatever visible rows it is applied to. -/
theorem keeps_applyTo (hnodes : NodesKeep V I table operator) (e : Expr) (h : e.Every table operator) (env : Env)
    (henv : ∀ p ∈ env, p.2.Within V) (rows : List Row) (hrows : ∀ r ∈ rows, r.Within V) :
    Keeps I (Row.Within V) (applyTo env rows e) :=
  hnodes.nodes.applyTo e h env henv rows hrows

theorem keeps_rowsOf (hnodes : NodesKeep V I table operator) (es : List Expr)
    (h : EveryArgument table operator es) (env : Env) (henv : ∀ p ∈ env, p.2.Within V) :
    Keeps I (fun rows => ∀ r ∈ rows, r.Within V) (rowsOf env es) :=
  hnodes.nodes.rowsOf es h env henv

theorem keeps_operandsOf (hnodes : NodesKeep V I table operator) (es : List Expr)
    (h : EveryArgument table operator es) (env : Env) (henv : ∀ p ∈ env, p.2.Within V) :
    ∀ operand ∈ operandsOf env es, operand.Keeps V I := fun operand hoperand =>
  ⟨(hnodes.nodes.operandsOf es h env henv operand hoperand).row,
    (hnodes.nodes.operandsOf es h env henv operand hoperand).apply⟩

end Trees

end Expr

end QueryChain
