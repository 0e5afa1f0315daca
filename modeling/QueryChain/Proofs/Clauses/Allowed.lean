import QueryChain.Proofs.Clauses.Reading
import QueryChain.Proofs.Lowering.Operators

/-!
# Rows without aggregates, rows without groups

Terms with aggregates come from operators that fold rows, and groups from `GroupBy`. From there they travel: through
members of projections, rows of joins, and the functions of later operators. A tree without the operators that they come
from has none of them anywhere, neither in what it yields nor in conditions and keys.

* `Row.Meets`, `Clauses.Meets`: rows and clauses with what is allowed only.
* `keepsMet_join`, `keepsMet_operate`: what each operator leaves behind is allowed, if its operator is.
* `Expr.nodes_meets`: the same for trees.
-/

namespace QueryChain

open Lowering Lower

/-- Whether there may be aggregates in terms, and groups of rows. -/
structure Allowed where
  aggregates : Prop
  groups : Prop

/-! ## Terms, rows and clauses -/

/-- A term mentions an aggregate only where that is allowed. -/
def Term.Meets (P : Allowed) (t : Term) : Prop :=
  t.mentionsAggregate = true → P.aggregates

/-- All terms of a row meet what is allowed, and it is a group only where that is allowed. The rows of tables and joins
are met elsewhere. -/
inductive Row.Meets (P : Allowed) : Row → Prop
  | scalar (v : Value) : Meets P (.scalar v)
  | host (c : Captured) : Meets P (.host c)
  | term {t : Term} (h : t.Meets P) : Meets P (.term t)
  | table (t : TableRef) : Meets P (.table t)
  | projected (typeName : String) {list : List (String × Row)} (h : ∀ p ∈ list, Meets P p.2) :
      Meets P (.projected typeName list)
  | joined (index : Nat) : Meets P (.joined index)
  | group {key : Term} {element : Row} (hgroups : P.groups) (hkey : key.Meets P) (helement : Meets P element) :
      Meets P (.group key element)

/-- The keys of a join meet what is allowed, and so do its rows. -/
structure Join.Meets (P : Allowed) (j : Join) : Prop where
  keys : ∀ t ∈ j.clause.outerKeys ++ j.clause.innerKeys, t.Meets P
  fields : ∀ p ∈ j.fields.list, p.2.Meets P

/-- Conditions, group keys and joins meet what is allowed. -/
structure Clauses.Meets (P : Allowed) (c : Clauses) : Prop where
  filters : ∀ t ∈ c.filters, t.Meets P
  groupKeys : ∀ t ∈ c.groupKeys, t.Meets P
  joins : ∀ j ∈ c.joins, j.Meets P

section

variable {P : Allowed}

theorem Clauses.meets_empty : Clauses.empty.Meets P :=
  ⟨List.forall_mem_nil _, List.forall_mem_nil _, List.forall_mem_nil _⟩

theorem Term.Meets.or {l r : Term} (hl : l.Meets P) (hr : r.Meets P)
    (h : (l.mentionsAggregate || r.mentionsAggregate) = true) : P.aggregates :=
  (Bool.or_eq_true_iff.mp h).elim hl hr

theorem Row.meets_ofCaptured (c : Captured) : (Row.ofCaptured c).Meets P := by
  cases c with
  | scalar v => exact .scalar v
  | object typeName fields => exact .host _

theorem Row.Meets.isGroup {r : Row} (h : r.Meets P) (hr : r.isGroup = true) : P.groups := by
  cases h with
  | group hgroups _ _ => exact hgroups
  | _ => cases hr

end

/-- Terms without aggregates are made of such terms. -/
theorem Allowed.closed (P : Allowed) : Lower.Closed (Row.Meets P) (Term.Meets P) where
  scalar := .scalar
  captured := Row.meets_ofCaptured
  term := .term
  ofTerm h := by
    cases h with
    | term ht => exact ht
  ofTable _ _ _ := nofun
  ofProjected h := by
    cases h with
    | projected _ hlist => exact hlist
  ofGroup h := by
    cases h with
    | group _ hkey _ => exact hkey
  literal _ := nofun
  nullTest _ _ ht := ht
  binary _ _ _ := Term.Meets.or
  concat := Term.Meets.or
  length ht := ht
  toText ht := ht
  change _ _ ht := ht
  likeText _ _ _ ht := ht
  likeTerm _ _ _ := Term.Meets.or
  dateAdd _ _ _ := Term.Meets.or

theorem Allowed.joinsAre (P : Allowed) : JoinsAre (Clauses.Meets P) (Row.Meets P) :=
  fun _ hc _ j _ hj => (hc.joins j (List.mem_of_getElem? hj)).fields

/-- Where groups bring aggregates about, what comes of a group meets what is allowed. -/
theorem Allowed.foldsGroups (P : Allowed) (h : P.groups → P.aggregates) :
    FoldsGroups (Row.Meets P) (Term.Meets P) where
  element hrows := by
    cases hrows with
    | group _ _ helement => exact helement
  countAll hrows := .term fun _ => h (hrows.isGroup rfl)
  countWhere hrows _ := .term fun _ => h (hrows.isGroup rfl)
  fold _ hrows _ := .term fun _ => h (hrows.isGroup rfl)

/-! ## Changes of the clauses -/

section Changes

variable {P : Allowed}

/-- What is changed besides conditions, group keys and joins does not matter. -/
theorem keepsMet_update {g : Clauses → Clauses}
    (hg : ∀ c, (g c).filters = c.filters ∧ (g c).groupKeys = c.groupKeys ∧ (g c).joins = c.joins) :
    Keeps (Clauses.Meets P) (fun _ => True) (update g) := by
  refine keeps_update fun c hc => ?_
  obtain ⟨hfilters, hgroupKeys, hjoins⟩ := hg c
  exact ⟨hfilters ▸ hc.filters, hgroupKeys ▸ hc.groupKeys, hjoins ▸ hc.joins⟩

theorem keepsMet_project (p : Projection) : Keeps (Clauses.Meets P) (fun _ => True) (update (·.project p)) :=
  keepsMet_update fun _ => ⟨rfl, rfl, rfl⟩

theorem keepsMet_filter {t : Term} (ht : t.Meets P) :
    Keeps (Clauses.Meets P) (fun _ => True) (update (·.filter t)) :=
  keeps_update fun _ hc =>
    ⟨List.forall_mem_append.mpr ⟨hc.filters, List.forall_mem_singleton.mpr ht⟩, hc.groupKeys, hc.joins⟩

theorem keepsMet_group {t : Term} (ht : t.Meets P) :
    Keeps (Clauses.Meets P) (fun _ => True) (update (·.group t)) :=
  keeps_update fun _ hc =>
    ⟨hc.filters, List.forall_mem_append.mpr ⟨hc.groupKeys, List.forall_mem_singleton.mpr ht⟩, hc.joins⟩

theorem keepsMet_addJoin {j : Join} (hj : j.Meets P) :
    Keeps (Clauses.Meets P) (fun _ => True) (update (·.join j)) :=
  keeps_update fun _ hc =>
    ⟨hc.filters, hc.groupKeys, List.forall_mem_append.mpr ⟨hc.joins, List.forall_mem_singleton.mpr hj⟩⟩

/-- A step that only reads changes the root at most. -/
theorem keepsMet_of_reads {α : Type} {m : Lower α} (h : ∀ n js, Reads n js (fun _ => True) m) :
    Keeps (Clauses.Meets P) (fun _ => True) m := by
  intro c a c' hc hrun
  obtain ⟨x, t, -, hread⟩ := h c.aliases c.joins
  rw [hread c rfl rfl] at hrun
  cases hrun
  exact ⟨trivial, hc.filters, hc.groupKeys, hc.joins⟩

theorem keepsMet_projectedScalar (f : Aggregate) : Keeps (Clauses.Meets P) (fun _ => True) (projectedScalar f) := by
  refine keeps_get.bind fun c _ => ?_
  split
  · exact keeps_pure trivial
  · exact keeps_throw _

end Changes

/-! ## Operators -/

/-- Whatever is said of rows besides: an operand of which it can be said, evaluated or applied to such rows. -/
abbrev Lowering.Operand.KeepsMet (P : Allowed) (R : Row → Prop) (operand : Operand) : Prop :=
  operand.Judged (fun _ => Keeps (Clauses.Meets P)) R

/-- An operand that yields what is allowed, evaluated or applied. -/
abbrev Lowering.Operand.Meets (P : Allowed) (operand : Operand) : Prop :=
  operand.KeepsMet P (Row.Meets P)

theorem Lowering.Operand.Judged.apply_one {P : Allowed} {R : Row → Prop} {operand : Operand}
    (h : operand.KeepsMet P R) {r : Row} (hr : R r) : Keeps (Clauses.Meets P) R (operand.apply [r]) :=
  h.apply [r] (List.forall_mem_singleton.mpr hr)

section Operators

variable {P : Allowed} {R : Row → Prop} {source : Operand}

/-- A projection is no condition and no key, whatever is projected. -/
theorem keepsMet_select (hR : ∀ typeName typeName' list, R (.projected typeName list) → R (.projected typeName' list))
    (hsource : Keeps (Clauses.Meets P) R source.row) {projection : Operand} (h : projection.KeepsMet P R) :
    Keeps (Clauses.Meets P) R (select source projection) :=
  keeps_rules.judged_select hsource (keeps_functionBody _) (fun _ => h.apply_one)
    (fun _ _ _ _ hlist => ⟨hR _ _ _ hlist, keepsMet_project _⟩) (fun _ _ _ => keepsMet_project _)
    fun _ _ => keepsMet_project _

/-- A fold yields an aggregate, whatever it folds. -/
theorem keepsMet_fold {f : Aggregate} (hR : ∀ t, R (.term (.fold f t)))
    (hsource : Keeps (Clauses.Meets P) R source.row) {selector : Option Operand}
    (h : ∀ operand, selector = some operand → operand.KeepsMet P R) :
    Keeps (Clauses.Meets P) R (fold f source selector) := by
  refine keeps_rules.judged_fold .nothing hsource (keepsMet_projectedScalar f)
    (fun operand hoperand rows hrows => ?_) fun t _ => ⟨hR t, keepsMet_update fun _ => ⟨rfl, rfl, rfl⟩⟩
  exact ((h operand hoperand).apply_one hrows).weaken fun _ _ => trivial

theorem keepsMet_bindTable (m : Model) : Keeps (Clauses.Meets P) (fun _ => True) (bindTable m) :=
  keepsMet_of_reads fun _ _ => reads_bindTable trivial

theorem keepsMet_restrict? {predicate : Option Operand} (h : ∀ operand, predicate = some operand → operand.Meets P)
    (rows : Row) (hrows : rows.Meets P) : Keeps (Clauses.Meets P) (fun _ => True) (restrict? rows predicate) :=
  keeps_rules.judged_restrict? P.closed (fun operand hoperand => (h operand hoperand).apply_one hrows)
    fun _ => keepsMet_filter

theorem keepsMet_join {outer inner outerKey innerKey result : Operand} (houter : outer.Meets P) (hinner : inner.Meets P)
    (houterKey : outerKey.Meets P) (hinnerKey : innerKey.Meets P) (hresult : result.Meets P) :
    Keeps (Clauses.Meets P) (Row.Meets P) (join outer inner outerKey innerKey result) := by
  refine P.joinsAre.looks.judged_join P.closed houter.row ?_ hinner.row (fun _ => houterKey.apply_one)
    (fun _ => hinnerKey.apply_one) (fun rows rows' hrows hrows' => ?_) (fun _ => P.joinsAre.keeps_joinFields P.closed)
    (fun _ _ _ _ _ hkeys hfields => keepsMet_addJoin ⟨hkeys, hfields⟩) (keeps_get.weaken fun c _ => .joined _)
  · exact keepsMet_update fun _ => ⟨rfl, rfl, rfl⟩
  · exact hresult.apply _ (List.forall_mem_cons.mpr ⟨hrows, List.forall_mem_singleton.mpr hrows'⟩)

theorem Row.Meets.projected_as {typeName : String} (typeName' : String) {list : List (String × Row)}
    (h : (Row.projected typeName list).Meets P) : (Row.projected typeName' list).Meets P := by
  cases h with
  | projected _ hlist => exact .projected _ hlist

theorem keepsMet_operate {name : String} {rest : List Operand} {op : QueryOperator}
    (hgroups : op = .groupBy → P.groups) (haggregates : ∀ f, op = .fold f → P.aggregates)
    (h : ∀ operand ∈ source :: rest, operand.Meets P) :
    Keeps (Clauses.Meets P) (Row.Meets P) (operate name source (source :: rest) op) := by
  have hsource := (h source List.mem_cons_self).row
  have hoptional : ∀ operand, (source :: rest)[1]? = some operand → operand.Meets P :=
    fun operand hoperand => h operand (List.mem_of_getElem? hoperand)
  have hsecond : Keeps (Clauses.Meets P) (Operand.Meets P) (operandAt name (source :: rest) 1) :=
    keeps_operandAt hoptional
  cases op with
  | filter =>
    exact hsecond.bind fun predicate hpredicate => hsource.bind fun rows hrows =>
      (keeps_rules.judged_restrict P.closed (hpredicate.apply_one hrows) fun _ => keepsMet_filter).bind fun _ _ =>
        keeps_pure hrows
  | select =>
    exact hsecond.bind fun projection hprojection => keepsMet_select (fun _ typeName _ => .projected_as typeName)
      hsource hprojection
  | order descending restart =>
    exact hsecond.bind fun key hkey => P.joinsAre.looks.judged_order P.closed hsource (fun _ => hkey.apply_one)
      fun _ _ => keepsMet_update fun _ => ⟨rfl, rfl, rfl⟩
  | groupBy =>
    exact hsecond.bind fun key hkey => keeps_rules.judged_groupBy P.closed hsource (keeps_functionBody _)
      (fun _ => hkey.apply_one) fun ht hrows => ⟨.group (hgroups rfl) ht hrows, keepsMet_group ht⟩
  | join =>
    rcases rest with _ | ⟨inner, _ | ⟨outerKey, _ | ⟨innerKey, _ | ⟨result, _ | ⟨_, _⟩⟩⟩⟩⟩
    case cons.cons.cons.cons.nil =>
      exact keepsMet_join (h source (by simp)) (h inner (by simp)) (h outerKey (by simp)) (h innerKey (by simp))
        (h result (by simp))
    all_goals exact keeps_throw _
  | take =>
    exact hsecond.bind fun count hcount => keeps_rules.judged_take hsource hcount.row fun _ =>
      keepsMet_update fun _ => ⟨rfl, rfl, rfl⟩
  | distinct =>
    exact hsource.bind fun rows hrows =>
      (keepsMet_update fun _ => by exact ⟨rfl, rfl, rfl⟩).bind fun _ _ => keeps_pure hrows
  | first =>
    exact keeps_rules.judged_first hsource (keepsMet_restrict? hoptional) (keepsMet_update fun _ => ⟨rfl, rfl, rfl⟩)
      (keepsMet_update fun _ => ⟨rfl, rfl, rfl⟩)
  | count =>
    exact keeps_rules.judged_count hsource (keepsMet_restrict? hoptional) (keepsMet_update fun _ => ⟨rfl, rfl, rfl⟩)
  | fold f => exact keepsMet_fold (fun _ => .term fun _ => haggregates f rfl) hsource hoptional

end Operators

/-! ## Trees -/

namespace Expr

/-- What an operator can bring about is allowed: groups, or aggregates of all rows or of groups. -/
structure Allows (P : Allowed) (name : String) (args : List Expr) : Prop where
  groups : QueryOperator.ofName name = some .groupBy → P.groups
  aggregates : ∀ f, QueryOperator.ofName name = some (.fold f) → P.aggregates
  groupAggregates : IsGroupFold name args → P.groups → P.aggregates

/-- What a tree yields and leaves behind is allowed, if its operators are. -/
theorem nodes_meets (P : Allowed) :
    Nodes (fun _ => Keeps (Clauses.Meets P)) (Row.Meets P) (fun _ => True) (Allows P) where
  toJudgement := keeps_judgement
  scalar := .scalar
  captured := Row.meets_ofCaptured
  projected typeName _ := .projected typeName
  table m _ := (keepsMet_bindTable m).bind fun t _ => keeps_pure (.table t)
  memberOf _ name hr := P.joinsAre.looks.judged_memberOf P.closed hr name
  combine op concat _ _ := keeps_rules.judged_combine P.closed op concat
  callMethod name _ _ hreceiver hargs := keeps_rules.judged_callMethod P.closed name hreceiver hargs
  operator name args env hallows h := by
    cases args with
    | nil => exact keeps_throw _
    | cons source rest =>
      rw [operandsOf, callOperator_eq]
      split
      · rename_i f hf
        have hfold : IsGroupFold name (source :: rest) := by
          cases hrow : source.isRowDerived with
          | true =>
            simp only [hrow, if_true] at hf
            exact ⟨Option.isSome_of_eq_some hf, hrow⟩
          | false =>
            simp only [hrow, Bool.false_eq_true, if_false] at hf
            cases hf
        have hrest (operand : Operand) (hoperand : (operandsOf env rest)[0]? = some operand) : operand.Meets P :=
          h operand (List.mem_cons_of_mem _ (List.mem_of_getElem? hoperand))
        exact keeps_rules.judged_foldGroup P.closed (P.foldsGroups (hallows.groupAggregates hfold)) name f
          (h _ List.mem_cons_self).row fun operand hoperand _ => (hrest operand hoperand).apply_one
      · rename_i op _ hop
        exact keepsMet_operate (fun hgroupBy => hallows.groups (by rw [hop, hgroupBy]))
          (fun f hf => hallows.aggregates f (by rw [hop, hf])) h
      · exact keeps_throw _

end Expr

end QueryChain
