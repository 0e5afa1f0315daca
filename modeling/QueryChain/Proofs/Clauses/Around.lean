import QueryChain.Proofs.Clauses.Inlining

/-!
# What stands around a query

A statement is made of the clauses that a tree leaves behind; what the tree stands for is not looked at. So whatever is
computed from the result of a query changes nothing about its statement. It is refused where the query stands for rows,
which are no operands of an operator and no receivers of a method. It is not where the query stands for a scalar, as a
fold does, and a member is taken of anything that has it.

* `Expr.YieldsRows`: chains of operators that stand for rows.
* `Expr.Around`: expressions in which a query is an operand, a receiver, or what a member is taken of.
* `Expr.compile_around`: an expression around a query fails, or its statement is that of the query.
* `Expr.Shop.ignores_around`: an operator, a member and a method that are ignored.
-/

namespace QueryChain

open Lowering Lower

/-! ## Rows -/

/-- Whether this stands for rows: those of a table or a join, projected ones, or groups. -/
def Row.isRows : Row → Bool
  | .table _ | .projected _ _ | .joined _ | .group _ _ => true
  | _ => false

section

variable {r x v : Row} {c c' : Clauses}

/-- Rows are no scalars. -/
theorem Row.toTerm_ne_ok (h : r.isRows = true) (t : Term) : r.toTerm ≠ .ok t := by
  cases r with
  | scalar _ | host _ | term _ => cases h
  | table _ | projected _ _ | joined _ | group _ _ => exact nofun

theorem run_scalarTerm_ne_ok (h : r.isRows = true) (t : Term) : ExceptT.run (scalarTerm r) c ≠ (.ok t, c') :=
  fun hrun => r.toTerm_ne_ok h t (run_require_eq_ok.mp hrun).1

theorem Row.isNull_of_isRows (h : r.isRows = true) : isNull r = false := by
  cases r with
  | scalar _ => cases h
  | _ => rfl

/-- Rows are no operands, neither on the left nor on the right. -/
theorem run_combine_ne_ok (op : BinaryOp) (concat : Bool) (h : r.isRows = true) :
    ExceptT.run (combine op concat r x) c ≠ (.ok v, c') ∧ ExceptT.run (combine op concat x r) c ≠ (.ok v, c') := by
  have hnull := Row.isNull_of_isRows h
  constructor
  · intro hrun
    simp only [combine, hnull, Bool.false_eq_true, and_false, if_false] at hrun
    split at hrun
    all_goals
      obtain ⟨t, _, ht, -⟩ := run_bind_eq_ok.mp hrun
      exact run_scalarTerm_ne_ok h t ht
  · intro hrun
    simp only [combine, hnull, Bool.false_eq_true, and_false, if_false] at hrun
    split at hrun
    · obtain ⟨t, _, ht, -⟩ := run_bind_eq_ok.mp hrun
      exact run_scalarTerm_ne_ok h t ht
    · obtain ⟨_, _, -, hrest⟩ := run_bind_eq_ok.mp hrun
      obtain ⟨t, _, ht, -⟩ := run_bind_eq_ok.mp hrest
      exact run_scalarTerm_ne_ok h t ht

/-- Rows are no receivers of methods. -/
theorem run_callMethod_ne_ok (name : String) (args : List Row) (h : r.isRows = true) :
    ExceptT.run (Lowering.callMethod name r args) c ≠ (.ok v, c') := by
  intro hrun
  have hscalar : r.asScalar = none := by
    cases r with
    | scalar _ => cases h
    | _ => rfl
  rw [Lowering.callMethod, hscalar] at hrun
  obtain ⟨t, _, ht, -⟩ := run_bind_eq_ok.mp hrun
  exact run_scalarTerm_ne_ok h t ht

end

/-! ## Chains that stand for rows -/

namespace Expr

/-- Chains of operators that stand for rows: those of a table, of a join, groups, new objects, and rows that are handed
on. -/
inductive YieldsRows : Expr → Prop
  | table (m : Model) (ty : StaticType) : YieldsRows (.table m ty)
  | handsOn {name : String} {op : QueryOperator} {source : Expr} (h : YieldsRows source)
      (hsource : source.isRowDerived = false) (hname : QueryOperator.ofName name = some op)
      (hop : op.handsOn = true) (rest : List Expr) (ty : StaticType) :
      YieldsRows (.operator name (source :: rest) ty)
  | select {projection body : Expr} (hbody : functionBody? projection = some body) (hobject : isObject body = true)
      (source : Expr) (rest : List Expr) (ty : StaticType) :
      YieldsRows (.operator "Select" (source :: projection :: rest) ty)
  | groupBy (source key : Expr) (rest : List Expr) (ty : StaticType) :
      YieldsRows (.operator "GroupBy" (source :: key :: rest) ty)
  | join (outer inner outerKey innerKey result : Expr) (ty : StaticType) :
      YieldsRows (.operator "Join" [outer, inner, outerKey, innerKey, result] ty)

/-- Whatever runs before such a chain, the chain stands for rows. -/
theorem YieldsRows.isRows {e : Expr} (h : e.YieldsRows) {c c' : Clauses} {r : Row}
    (hrun : ExceptT.run (rowOf [] e) c = (.ok r, c')) : r.isRows = true := by
  induction h generalizing c c' r with
  | table m ty =>
    obtain ⟨t, _, -, ⟨⟩⟩ := run_bind_eq_ok.mp hrun
    rfl
  | handsOn h hsource hname hop rest ty ih =>
    rw [rowOf_operator hname hsource] at hrun
    obtain ⟨c₁, hrows⟩ := run_source_of_handsOn hop hrun
    exact ih hrows
  | select hbody hobject source rest ty =>
    have hname : QueryOperator.ofName "Select" = some .select := rfl
    rw [rowOf, operandsOf, operandsOf, callOperator_cons hname (by decide)] at hrun
    obtain ⟨_, _, _, _, _, -, hfound, -, hselects⟩ :=
      run_select (fun _ _ _ _ _ hbody hobject h => projected_of_isObject hbody hobject h) hrun
    obtain rfl := Option.some.inj (hfound.symm.trans hbody)
    cases hselects with
    | object => rfl
    | scalar hother => exact absurd (hobject.symm.trans hother) (by decide)
    | row hother => exact absurd (hobject.symm.trans hother) (by decide)
  | groupBy source key rest ty =>
    have hname : QueryOperator.ofName "GroupBy" = some .groupBy := rfl
    rw [rowOf, operandsOf, operandsOf, callOperator_cons hname (by decide)] at hrun
    obtain ⟨_, _, _, _, _, _, -, -, -, -, rfl, -⟩ := run_groupBy hrun
    rfl
  | join outer inner outerKey innerKey result ty =>
    have hname : QueryOperator.ofName "Join" = some .join := rfl
    rw [rowOf, operandsOf_eq_map, List.map_cons, callOperator_cons hname (by decide)] at hrun
    obtain ⟨_, _, _, _, _, _, _, _, _, _, _, _, _, _, _, _, _, _, -, -, -, -, -, -, -, -, -, -, -, rfl⟩ := run_join hrun
    rfl

/-- What does not run from the start does not compile. -/
theorem exists_compile_eq_error {e : Expr} (h : ∀ r c, ExceptT.run (rowOf [] e) Clauses.empty ≠ (.ok r, c)) :
    ∃ f, ∀ o, e.compile o = .error f := by
  cases ht : e.lower with
  | error f => exact ⟨f, fun o => compile_eq_error ht⟩
  | ok t =>
    obtain ⟨r, c, hrun, -⟩ := lower_eq_ok ht
    exact absurd hrun (h r c)

/-- A chain that stands for rows is no operand of an operator and no receiver of a method. -/
theorem YieldsRows.compile_eq_error {q : Expr} (h : q.YieldsRows) :
    (∀ op e ty, (∃ f, ∀ o, (binary op q e ty).compile o = .error f) ∧
      ∃ f, ∀ o, (binary op e q ty).compile o = .error f) ∧
    ∀ name args ty, ∃ f, ∀ o, (method q name args ty).compile o = .error f := by
  refine ⟨fun op e ty => ⟨exists_compile_eq_error fun v d hrun => ?_, exists_compile_eq_error fun v d hrun => ?_⟩,
    fun name args ty => exists_compile_eq_error fun v d hrun => ?_⟩
  · obtain ⟨r, c, hq, hrest⟩ := run_bind_eq_ok.mp hrun
    obtain ⟨x, c₁, -, hcombine⟩ := run_bind_eq_ok.mp hrest
    exact (run_combine_ne_ok op _ (h.isRows hq)).1 hcombine
  · obtain ⟨x, c, -, hrest⟩ := run_bind_eq_ok.mp hrun
    obtain ⟨r, c₁, hq, hcombine⟩ := run_bind_eq_ok.mp hrest
    exact (run_combine_ne_ok op _ (h.isRows hq)).2 hcombine
  · obtain ⟨r, c, hq, hrest⟩ := run_bind_eq_ok.mp hrun
    obtain ⟨xs, c₁, -, hcall⟩ := run_bind_eq_ok.mp hrest
    exact run_callMethod_ne_ok name xs (h.isRows hq) hcall

/-! ## Expressions around a query -/

/-- Expressions in which a query is an operand, a receiver, or what a member is taken of. What else is in them has no
operators but aggregates of groups, and what is evaluated before the query mentions no table. -/
inductive Around (q : Expr) : Expr → Prop
  | query : Around q q
  | member {e : Expr} (h : Around q e) (name : String) (ty : StaticType) : Around q (.field e name ty)
  | method {e : Expr} {args : List Expr} (h : Around q e) (hargs : EveryArgument (fun _ => True) IsGroupFold args)
      (name : String) (ty : StaticType) : Around q (.method e name args ty)
  | left {e other : Expr} (h : Around q e) (hother : other.Every (fun _ => True) IsGroupFold) (op : BinaryOp)
      (ty : StaticType) : Around q (.binary op e other ty)
  | right {e other : Expr} (h : Around q e) (hother : other.Every (fun _ => False) IsGroupFold) (op : BinaryOp)
      (ty : StaticType) : Around q (.binary op other e ty)

theorem reads_rowsOf {n : Nat} {js : List Join} {table : Model → Prop} {es : List Expr}
    (h : EveryArgument table IsGroupFold es) (env : Env) : Reads n js table (rowsOf env es) :=
  (nodes_reads.rowsOf es h env fun _ _ => trivial).1

/-- What stands around a query leaves the clauses of the query behind. -/
theorem Around.clauses_eq {q e : Expr} (h : Around q e) {r : Row} {c : Clauses}
    (hq : ExceptT.run (rowOf [] q) Clauses.empty = (.ok r, c)) (hread : c.ReadFrom c.aliases c.joins fun _ => True)
    {v : Row} {d : Clauses}
    (hrun : ExceptT.run (rowOf [] e) Clauses.empty = (.ok v, d)) : d = c := by
  induction h generalizing v d with
  | query =>
    rw [hq] at hrun
    exact (congrArg Prod.snd hrun).symm
  | member h name ty ih =>
    obtain ⟨w, c₁, he, hmember⟩ := run_bind_eq_ok.mp hrun
    obtain rfl := ih he
    exact ((reads_memberOf w name).run_readFrom hmember hread).1.symm
  | method h hargs name ty ih =>
    obtain ⟨w, c₁, he, hrest⟩ := run_bind_eq_ok.mp hrun
    obtain ⟨xs, c₂, hxs, hcall⟩ := run_bind_eq_ok.mp hrest
    obtain rfl := ih he
    obtain ⟨rfl, -⟩ := (reads_rowsOf hargs []).run_readFrom hxs hread
    exact ((reads_callMethod name w xs).run_readFrom hcall hread).1.symm
  | left h hother op ty ih =>
    obtain ⟨w, c₁, he, hrest⟩ := run_bind_eq_ok.mp hrun
    obtain ⟨x, c₂, hx, hcombine⟩ := run_bind_eq_ok.mp hrest
    obtain rfl := ih he
    obtain ⟨rfl, -⟩ := (reads_rowOf _ hother []).run_readFrom hx hread
    exact ((reads_combine op _ w x).run_readFrom hcombine hread).1.symm
  | right h hother op ty ih =>
    obtain ⟨x, c₁, hx, hrest⟩ := run_bind_eq_ok.mp hrun
    obtain ⟨w, c₂, he, hcombine⟩ := run_bind_eq_ok.mp hrest
    -- what comes first finds no clauses and leaves none behind
    obtain ⟨rfl, -⟩ := (reads_rowOf _ hother []).run_readFrom hx ⟨rfl, rfl, Or.inr fun _ => id⟩
    obtain rfl := ih he
    exact ((reads_combine op _ x w).run_readFrom hcombine hread).1.symm

/-- A chain that stands for rows cannot be an operand of an operator or the receiver of a method. And whatever stands
around a query that compiles, a chain or not, fails, or compiles to the statement of the query by itself. -/
theorem compile_around (q : Expr) :
    (q.YieldsRows →
      (∀ op e ty, (∃ f, ∀ o, (binary op q e ty).compile o = .error f) ∧
        ∃ f, ∀ o, (binary op e q ty).compile o = .error f) ∧
      ∀ name args ty, ∃ f, ∀ o, (method q name args ty).compile o = .error f) ∧
    ∀ e, Around q e → ∀ o compiled, q.compile o = .ok compiled →
      (∃ f, e.compile o = .error f) ∨ e.compile o = .ok compiled := by
  refine ⟨YieldsRows.compile_eq_error, fun e he o compiled hcompile => ?_⟩
  obtain ⟨t, ht, -⟩ := lower_of_compile_eq_ok hcompile
  obtain ⟨r, c, hrun, hassemble⟩ := lower_eq_ok ht
  cases haround : e.compile o with
  | error f => exact Or.inl ⟨f, rfl⟩
  | ok compiled' =>
    obtain ⟨t', ht', -⟩ := lower_of_compile_eq_ok haround
    obtain ⟨v, d, hrun', -⟩ := lower_eq_ok ht'
    obtain rfl := he.clauses_eq hrun (Clauses.readFrom_of_assemble hassemble _) hrun'
    rw [compile_of_run hrun' hrun, hcompile] at haround
    exact Or.inr haround.symm

/-! ### Orders -/

namespace Shop

/-- `Orders.First()`. -/
def someOrder : Expr := .operator "First" [ofTable order] (.model order)

/-- `Orders.Sum(o => o.Total)`. -/
def totalOfAll : Expr := .operator "Sum" [ofTable order, memberOf order "Total"] (.scalar .float)

/-- `Orders.First() == 3` is refused, and `Orders.Sum(o => o.Total) + 1` is the sum. -/
theorem compile_around_totalOfAll :
    someOrder.YieldsRows ∧ (∃ f, ∀ o, (applyOp .eq someOrder (.ofValue (.int 3))).compile o = .error f) ∧
      Around totalOfAll (applyOp .add totalOfAll (.ofValue (.int 1))) ∧
      ∃ compiled, totalOfAll.compile .standard = .ok compiled ∧
        (applyOp .add totalOfAll (.ofValue (.int 1))).compile .standard = .ok compiled := by
  have hrows : someOrder.YieldsRows := .handsOn (.table order _) rfl rfl rfl _ _
  have hvalue : (ofValue (.int 1)).Every (fun _ => True) IsGroupFold := trivial
  have haround : Around totalOfAll (applyOp .add totalOfAll (.ofValue (.int 1))) := .left .query hvalue _ _
  have hcompile : totalOfAll.compile .standard = .ok _ := rfl
  refine ⟨hrows, (((compile_around someOrder).1 hrows).1 _ _ _).1, haround, _, hcompile, ?_⟩
  rcases (compile_around totalOfAll).2 _ haround .standard _ hcompile with ⟨f, hfails⟩ | hignored
  · cases hfails
  · exact hignored

/-- An operator and a method on a sum, a member of the first row, and the key of groups: none of them is in the
statement. -/
theorem ignores_around :
    (∃ compiled, totalOfAll.compile .standard = .ok compiled ∧
      (applyOp .add totalOfAll (.ofValue (.int 1))).compile .standard = .ok compiled ∧
      (applyOp .add (.ofValue (.int 1)) totalOfAll).compile .standard = .ok compiled ∧
      (totalOfAll.callMethod "ToString" []).compile .standard = .ok compiled) ∧
    (∃ compiled, someOrder.compile .standard = .ok compiled ∧
      (someOrder.member "Total").compile .standard = .ok compiled) ∧
    ∃ compiled, (operator "GroupBy" [ofTable order, memberOf order "CustomerId"] .unknown).compile .standard =
        .ok compiled ∧
      ((operator "GroupBy" [ofTable order, memberOf order "CustomerId"] .unknown).member "Key").compile .standard =
        .ok compiled :=
  ⟨⟨_, rfl, rfl, rfl, rfl⟩, ⟨_, rfl, rfl⟩, _, rfl, rfl⟩

end Shop

end Expr

end QueryChain
