import QueryChain.Proofs.Clauses.Allowed
import QueryChain.Proofs.Clauses.Interleaving

/-!
# Aggregates in conditions

SQL evaluates conditions, join keys and group keys row by row, so none of them may fold rows. Groups cannot be filtered,
grouped or joined, but what was projected from groups can, and a fold of other rows can stand in a condition. Where
aggregates come last, in what is selected, sorted by and folded, none gets into conditions and keys.

* `Select.conditions`: the terms in which there must be no aggregate.
* `Expr.FoldsLast`: trees whose aggregates come after all filters, joins and groupings.
* `Expr.FoldsLast.no_aggregate`: their statements have no aggregates in conditions and keys.
* `Expr.Shop.aggregate_in_condition`: what is projected from groups and then filtered by.
-/

namespace QueryChain

open Lowering Lower

/-- The terms of a block that are evaluated row by row: its conditions, the keys of its joins and its group keys. -/
def Select.conditions (q : Select) : List Term :=
  q.filters ++ q.joins.flatMap (fun j => j.outerKeys ++ j.innerKeys) ++ q.groupKeys

/-- No aggregate is allowed, but groups are. -/
def Allowed.noAggregate : Allowed := ⟨False, True⟩

theorem Term.Meets.noAggregate {t : Term} (h : t.Meets .noAggregate) : t.mentionsAggregate = false :=
  Bool.eq_false_iff.mpr h

theorem Clauses.Meets.conditions {c : Clauses} (h : c.Meets .noAggregate) {t : Lowered} (ht : c.assemble = .ok t) :
    ∀ u ∈ t.statement.block.conditions, u.mentionsAggregate = false := by
  obtain ⟨root, list, limited, ordered, hblock, -⟩ := Clauses.block_of_assemble ht
  rw [hblock, Select.conditions, Clauses.block, List.flatMap_map]
  have hjoins : ∀ u ∈ c.joins.flatMap (fun j => j.clause.outerKeys ++ j.clause.innerKeys), u.Meets .noAggregate := by
    intro u hu
    obtain ⟨j, hj, hu⟩ := List.mem_flatMap.mp hu
    exact (h.joins j hj).keys u hu
  intro u hu
  exact (List.forall_mem_append.mpr ⟨List.forall_mem_append.mpr ⟨h.filters, hjoins⟩, h.groupKeys⟩ u hu).noAggregate

/-! ## Aggregates that come last -/

namespace Expr

/-- An operator does not fold rows, neither all rows nor those of a group. -/
def IsNoFold (name : String) (args : List Expr) : Prop :=
  (∀ f, QueryOperator.ofName name ≠ some (.fold f)) ∧ ¬ IsGroupFold name args

theorem IsNoFold.allows {name : String} {args : List Expr} (h : IsNoFold name args) :
    Allows .noAggregate name args where
  groups _ := trivial
  aggregates f hf := h.1 f hf
  groupAggregates hfold _ := h.2 hfold

/-- Operators that add no condition, join or group key of their own: projections, sorts, limits, folds, and the first
row or the number of rows if there is no condition on them. -/
def addsNoCondition (rest : List Expr) : QueryOperator → Bool
  | .select | .order _ _ | .take | .distinct | .fold _ => true
  | .first | .count => rest.isEmpty
  | .filter | .groupBy | .join => false

/-- A tree whose aggregates come last: nothing in it folds rows until only operators are left that add no conditions,
and whose functions have no operators but aggregates of groups. -/
inductive FoldsLast : Expr → Prop
  | plain {e : Expr} (h : e.Every (fun _ => True) IsNoFold) : FoldsLast e
  | step {source : Expr} {rest : List Expr} {name : String} {op : QueryOperator} (h : FoldsLast source)
      (hop : QueryOperator.ofName name = some op) (hadds : addsNoCondition rest op = true)
      (hrest : EveryArgument (fun _ => True) IsGroupFold rest) (ty : StaticType) :
      FoldsLast (.operator name (source :: rest) ty)

section

variable {P : Allowed}

/-- Functions without operators, aggregates of groups apart, keep what is said of conditions and keys. -/
theorem keepsMet_operandsOf {es : List Expr} (h : EveryArgument (fun _ => True) IsGroupFold es) :
    ∀ operand ∈ operandsOf [] es, operand.KeepsMet P fun _ => True := by
  induction es with
  | nil => exact List.forall_mem_nil _
  | cons e rest ih =>
    rw [operandsOf]
    exact List.forall_mem_cons.mpr ⟨⟨keepsMet_of_reads fun _ _ => reads_rowOf e h.1 [],
      fun rows _ => keepsMet_of_reads fun _ _ => reads_applyTo e h.1 [] rows⟩, ih h.2⟩

/-- So do operators that add no condition. -/
theorem keepsMet_callOperator {name : String} {source : Expr} {rest : List Expr} {op : QueryOperator}
    (hop : QueryOperator.ofName name = some op) (hadds : addsNoCondition rest op = true)
    (hrest : EveryArgument (fun _ => True) IsGroupFold rest)
    (hsource : Keeps (Clauses.Meets P) (fun _ => True) (rowOf [] source)) :
    Keeps (Clauses.Meets P) (fun _ => True) (callOperator name (operandsOf [] (source :: rest))) := by
  have hoperands := keepsMet_operandsOf (P := P) hrest
  have hoptional : ∀ operand, (operandsOf [] (source :: rest))[1]? = some operand →
      operand.KeepsMet P fun _ => True := by
    rw [operandsOf]
    exact fun operand hoperand => hoperands operand (List.mem_of_getElem? hoperand)
  have hsecond : Keeps (Clauses.Meets P) (fun operand => operand.KeepsMet P fun _ => True)
      (operandAt name (operandsOf [] (source :: rest)) 1) :=
    keeps_operandAt hoptional
  have hunconditional (hnone : rest.isEmpty = true) (rows : Row) :
      Keeps (Clauses.Meets P) (fun _ => True) (restrict? rows (operandsOf [] (source :: rest))[1]?) := by
    obtain rfl := List.isEmpty_iff.mp hnone
    exact keeps_pure trivial
  rw [operandsOf, callOperator_eq, hop]
  split
  · exact keeps_rules.judged_foldGroup .nothing .nothing name _ hsource
      fun operand hoperand _ => (hoptional operand hoperand).apply_one
  · rename_i hop'
    cases hop'
    cases op with
    | select =>
      exact hsecond.bind fun _ hprojection => keepsMet_select (fun _ _ _ _ => trivial) hsource hprojection
    | order descending restart =>
      exact hsecond.bind fun _ hkey => JoinsAre.nothing.looks.judged_order .nothing hsource
        (fun _ => hkey.apply_one) fun _ _ => keepsMet_update fun _ => ⟨rfl, rfl, rfl⟩
    | take =>
      exact hsecond.bind fun _ hcount => keeps_rules.judged_take hsource hcount.row fun _ =>
        keepsMet_update fun _ => ⟨rfl, rfl, rfl⟩
    | distinct =>
      exact hsource.bind fun _ _ => (keepsMet_update fun _ => by exact ⟨rfl, rfl, rfl⟩).bind fun _ _ =>
        keeps_pure trivial
    | fold f => exact keepsMet_fold (fun _ => trivial) hsource hoptional
    | first =>
      exact keeps_rules.judged_first hsource (fun rows _ => hunconditional hadds rows)
        (keepsMet_update fun _ => ⟨rfl, rfl, rfl⟩) (keepsMet_update fun _ => ⟨rfl, rfl, rfl⟩)
    | count =>
      exact keeps_rules.judged_count hsource (fun rows _ => hunconditional hadds rows)
        (keepsMet_update fun _ => ⟨rfl, rfl, rfl⟩)
    | filter | groupBy | join => cases hadds
  · exact keeps_throw _

end

/-- Trees whose aggregates come last leave none behind in conditions and keys. -/
theorem FoldsLast.keeps {e : Expr} (h : e.FoldsLast) :
    Keeps (Clauses.Meets .noAggregate) (fun _ => True) (rowOf [] e) := by
  induction h with
  | @plain e h =>
    intro c r c' hc hrun
    have hallows : e.Every (fun _ => True) (Allows .noAggregate) :=
      Every.mono (fun _ => id) (fun _ _ => IsNoFold.allows) e h
    exact ⟨trivial, ((nodes_meets .noAggregate).rowOf e hallows [] nofun c r c' hc hrun).2⟩
  | step h hop hadds hrest ty ih => exact keepsMet_callOperator hop hadds hrest ih

/-- In a statement whose aggregates come last, no condition, join key or group key has an aggregate. -/
theorem FoldsLast.no_aggregate {e : Expr} (h : e.FoldsLast) {o : Options} {compiled : Compiled}
    (hcompile : e.compile o = .ok compiled) :
    ∃ t, e.lower = .ok t ∧ compiled = t.compiled o ∧
      ∀ u ∈ t.statement.block.conditions, u.mentionsAggregate = false := by
  obtain ⟨t, ht, hcompiled⟩ := lower_of_compile_eq_ok hcompile
  obtain ⟨r, c, hrun, hassemble⟩ := lower_eq_ok ht
  obtain ⟨-, hmeets⟩ := h.keeps _ r c Clauses.meets_empty hrun
  exact ⟨t, ht, hcompiled, hmeets.conditions hassemble⟩

/-! ## Orders by customer -/

namespace Shop

/-- `Orders.GroupBy(o => o.CustomerId).Select(g => new { Customer = g.Key, N = g.Count() })`. -/
def ordersByCustomer : Expr :=
  .operator "Select" [.operator "GroupBy" [ofTable order, memberOf order "CustomerId"] .unknown,
    function ["g"] (.newObject (.anonymous .projection [("Customer", none), ("N", some .int)]) .named
      [("Customer", (param "g" .unknown).member "Key"), ("N", (param "g" .unknown).groupCount)])] .unknown

/-- The number of orders of a customer, as a function. -/
def numberOf : Expr :=
  function ["x"] ((param "x" .unknown).member "N")

/-- `ordersByCustomer.OrderByDescending(x => x.N).Take(5)`. -/
def busiest : Expr :=
  .operator "Take" [.operator "OrderByDescending" [ordersByCustomer, numberOf] .unknown, .ofValue (.int 5)] .unknown

theorem no_aggregate_busiest :
    busiest.FoldsLast ∧ ∃ t compiled, busiest.compile .standard = .ok compiled ∧ busiest.lower = .ok t ∧
      ∀ u ∈ t.statement.block.conditions, u.mentionsAggregate = false := by
  have hgroups : (Expr.operator "GroupBy" [ofTable order, memberOf order "CustomerId"] .unknown).FoldsLast := by
    refine .plain ⟨⟨fun f => ?_, fun h => ?_⟩, trivial, trivial, trivial⟩
    · cases f <;> decide
    · cases h.2
  have hlast : busiest.FoldsLast := by
    refine .step (.step (.step hgroups rfl rfl ?_ _) rfl rfl ?_ _) rfl rfl ?_ _
    · exact ⟨⟨trivial, ⟨⟨rfl, rfl⟩, trivial, trivial⟩, trivial⟩, trivial⟩
    · exact ⟨trivial, trivial⟩
    · exact ⟨trivial, trivial⟩
  obtain ⟨t, ht, -, hconditions⟩ := hlast.no_aggregate (show busiest.compile .standard = .ok _ from rfl)
  exact ⟨hlast, t, _, rfl, ht, hconditions⟩

/-- `ordersByCustomer.Where(x => x.N > 1)`. -/
def filteredByNumber : Expr :=
  .operator "Where" [ordersByCustomer,
    function ["x"] (.applyOp .gt ((param "x" .unknown).member "N") (.ofValue (.int 1)))] .unknown

/-- `ordersByCustomer.GroupBy(x => x.N)`. -/
def groupedByNumber : Expr :=
  .operator "GroupBy" [ordersByCustomer, numberOf] .unknown

/-- `ordersByCustomer.Join(Customers, x => x.N, c => c.Id, (x, c) => c)`. -/
def joinedByNumber : Expr :=
  .operator "Join" [ordersByCustomer, ofTable customer, numberOf, memberOf customer "Id",
    function ["x", "c"] (param "c" (.model customer))] .unknown

/-- What is projected from groups can be filtered, grouped and joined by, and then its aggregates are in the conditions
and keys. -/
theorem aggregate_in_condition :
    (∃ t, filteredByNumber.lower = .ok t ∧ ∃ u ∈ t.statement.block.filters, u.mentionsAggregate = true) ∧
      (∃ t, groupedByNumber.lower = .ok t ∧ ∃ u ∈ t.statement.block.groupKeys, u.mentionsAggregate = true) ∧
      ∃ t, joinedByNumber.lower = .ok t ∧ ∃ j ∈ t.statement.block.joins, ∃ u ∈ j.outerKeys,
        u.mentionsAggregate = true := by
  refine ⟨⟨_, rfl, _, List.mem_singleton_self _, rfl⟩, ⟨_, rfl, .countAll, ?_, rfl⟩,
    ⟨_, rfl, _, List.mem_singleton_self _, _, List.mem_singleton_self _, rfl⟩⟩
  exact List.mem_cons_of_mem _ (List.mem_singleton_self _)

end Shop

end Expr

end QueryChain
