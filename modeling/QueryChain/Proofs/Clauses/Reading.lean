import QueryChain.Proofs.Lowering.Operators
import QueryChain.Proofs.Lowering.Traversal

/-!
# What expressions look at

An expression whose only operators are aggregates of groups looks at two things in the clauses: the number of the next
alias, for a table that it binds, and the rows of the joins. It changes one: the first table that is bound becomes the
root, if there is none. So such expressions can be evaluated in any order, with any other clauses around them.

* `Lower.Reads`: steps that look at aliases and joins only.
* `Expr.reads_rowOf`: expressions without operators, aggregates of groups apart.
* `Lower.Reads.run_eq`: where nothing is changed at all.
-/

namespace QueryChain

open Lowering Lower

/-! ## Tables that become the root -/

/-- The clauses after a table was bound, or none: it is the root if there was no root. -/
def Clauses.rooted (c : Clauses) (t : Option TableRef) : Clauses :=
  { c with root := c.root.or t }

section

variable {c : Clauses} {t u : Option TableRef}

@[simp] theorem Clauses.rooted_none : c.rooted none = c := by
  rw [rooted, Option.or_none]

theorem Clauses.rooted_rooted : (c.rooted t).rooted u = c.rooted (t.or u) := by
  rw [rooted, rooted, rooted, Option.or_assoc]

theorem Clauses.rooted_of_root (h : c.root.isSome) : c.rooted t = c := by
  rw [rooted, Option.or_of_isSome h]

/-- No table of these can become the root: there is a root, or there is no such table. -/
def Clauses.RootSettled (table : Model → Prop) (c : Clauses) : Prop :=
  c.root.isSome ∨ ∀ m, ¬ table m

end

/-! ## Steps that read -/

/-- A step that looks at aliases and joins only: for all clauses with these aliases and joins its outcome is the same,
and so is the first table that it binds, which is one of certain tables. It changes nothing but the root. -/
def Lower.Reads {α : Type} (aliases : Nat) (joins : List Join) (table : Model → Prop) (m : Lower α) : Prop :=
  ∃ r t, (∀ u, t = some u → table u.model) ∧
    ∀ c : Clauses, c.aliases = aliases → c.joins = joins → ExceptT.run m c = (r, c.rooted t)

section Steps

variable {α β : Type} {n : Nat} {js : List Join} {table : Model → Prop} {m : Lower α}

/-- A step that yields or fails, and does nothing else. -/
theorem reads_of_run (r : Except Fault α)
    (h : ∀ c : Clauses, c.aliases = n → c.joins = js → ExceptT.run m c = (r, c)) : Reads n js table m :=
  ⟨r, none, nofun, fun c hn hjs => by rw [h c hn hjs, Clauses.rooted_none]⟩

theorem reads_pure (a : α) : Reads n js table (pure a : Lower α) :=
  reads_of_run (.ok a) fun _ _ _ => rfl

theorem reads_throw (f : Fault) : Reads n js table (throw f : Lower α) :=
  reads_of_run (.error f) fun _ _ _ => rfl

theorem reads_require (r : Except Fault α) : Reads n js table (require r) :=
  reads_of_run r fun c _ _ => run_require r c

/-- Steps that read one after another; what comes second matters for what the first can yield only. -/
theorem Lower.Reads.bind_of_yields {k : α → Lower β} {S : α → Prop} (hm : Reads n js table m)
    (hyields : Keeps (fun _ => True) S m) (hk : ∀ a, S a → Reads n js table (k a)) :
    Reads n js table (m >>= k) := by
  obtain ⟨r, t, ht, hrun⟩ := hm
  cases r with
  | error f => exact ⟨.error f, t, ht, fun c hn hjs => run_bind_of_error (hrun c hn hjs)⟩
  | ok a =>
    have ha : S a := (hyields _ a _ trivial (hrun { Clauses.empty with aliases := n, joins := js } rfl rfl)).1
    obtain ⟨r', u, hu, hrun'⟩ := hk a ha
    refine ⟨r', t.or u, fun v hv => ?_, fun c hn hjs => ?_⟩
    · rcases Option.or_eq_some_iff.mp hv with hv | ⟨-, hv⟩
      · exact ht v hv
      · exact hu v hv
    · rw [run_bind_of_ok (hrun c hn hjs), hrun' (c.rooted t) hn hjs, Clauses.rooted_rooted]

theorem Lower.Reads.bind {k : α → Lower β} (hm : Reads n js table m) (hk : ∀ a, Reads n js table (k a)) :
    Reads n js table (m >>= k) :=
  hm.bind_of_yields keeps_trivial fun a _ => hk a

/-- The table that is bound stands under the next alias. -/
theorem reads_bindTable {m : Model} (h : table m) : Reads n js table (bindTable m) := by
  refine ⟨.ok ⟨m, n⟩, some ⟨m, n⟩, fun u hu => ?_, fun c hn _ => ?_⟩
  · cases hu
    exact h
  · subst hn
    rw [run_bindTable, Clauses.rooted, Option.or_some]

theorem reads_joinAt (index : Nat) : Reads n js table (joinAt index) := by
  refine reads_of_run ((js[index]?).elim (.error (.use (.missingJoin index))) .ok) fun c _ hjs => ?_
  rw [joinAt, run_bind_of_ok (run_get c), hjs]
  cases js[index]? <;> rfl

/-- Where no table can become the root, nothing is changed. -/
theorem Lower.Reads.run_eq (hm : Reads n js table m) :
    ∃ r, ∀ c : Clauses, c.aliases = n → c.joins = js → c.RootSettled table → ExceptT.run m c = (r, c) := by
  obtain ⟨r, t, ht, hrun⟩ := hm
  refine ⟨r, fun c hn hjs hsettled => ?_⟩
  rw [hrun c hn hjs]
  cases t with
  | none => rw [Clauses.rooted_none]
  | some u =>
    rcases hsettled with hroot | hnone
    · rw [Clauses.rooted_of_root hroot]
    · exact absurd (ht u rfl) (hnone u.model)

end Steps

/-! ## Members, scalars and methods -/

section Scalars

variable {n : Nat} {js : List Join} {table : Model → Prop}

/-- Steps that look at rows look at the rows of joins only. -/
theorem looks_reads : Looks (fun _ S m => Reads n js table m ∧ Keeps (fun _ => True) S m) fun _ => True :=
  looks_of_yields (Q := fun _ => Reads n js table) reads_pure (fun _ => reads_throw _)
    (fun hm hyields hk => hm.bind_of_yields hyields hk) fun hk => (reads_joinAt _).bind fun j => hk j.fields

theorem reads_memberOf (target : Row) (field : String) : Reads n js table (memberOf target field) :=
  (looks_reads.judged_memberOf .nothing trivial field).1

theorem reads_scalarTerm (r : Row) : Reads n js table (scalarTerm r) :=
  reads_require _

theorem reads_keyTerms (key : Row) : Reads n js table (keyTerms key) :=
  (looks_reads.judged_keyTerms .nothing trivial).1

theorem reads_combine (op : BinaryOp) (concat : Bool) (l r : Row) : Reads n js table (combine op concat l r) :=
  (looks_reads.judged_combine .nothing op concat trivial trivial).1

theorem reads_callMethod (name : String) (receiver : Row) (args : List Row) :
    Reads n js table (Lowering.callMethod name receiver args) :=
  (looks_reads.judged_callMethod .nothing name trivial fun _ _ => trivial).1

end Scalars

/-! ## Aggregates of groups -/

/-- An operand that only reads, evaluated or applied. -/
structure Lowering.Operand.Reads (n : Nat) (js : List Join) (table : Model → Prop) (operand : Operand) : Prop where
  row : Lower.Reads n js table operand.row
  apply : ∀ rows, Lower.Reads n js table (operand.apply rows)

section Groups

variable {n : Nat} {js : List Join} {table : Model → Prop} {source : Operand}

theorem reads_foldGroup (name : String) (f : GroupFold) (hsource : Reads n js table source.row)
    {selector : Option Operand} (h : ∀ operand, selector = some operand → operand.Reads n js table) :
    Reads n js table (foldGroup name f source selector) :=
  (looks_reads.judged_foldGroup .nothing .nothing name f ⟨hsource, keeps_trivial⟩ fun operand hoperand rows _ =>
    ⟨(h operand hoperand).apply [rows], keeps_trivial⟩).1

theorem reads_callGroupFold {name : String} {rest : List Operand} (hname : (GroupFold.ofName name).isSome)
    (hrow : source.expr.isRowDerived) (hsource : Reads n js table source.row)
    (h : ∀ operand ∈ rest, operand.Reads n js table) : Reads n js table (callOperator name (source :: rest)) := by
  obtain ⟨f, hf⟩ := Option.isSome_iff_exists.mp hname
  rw [callOperator_eq, hrow, if_pos rfl, hf]
  exact reads_foldGroup name f hsource fun operand hoperand => h operand (List.mem_of_getElem? hoperand)

end Groups

/-! ## Expressions -/

namespace Expr

section Trees

variable {n : Nat} {js : List Join} {table : Model → Prop}

/-- Whatever the rows, the nodes of an expression without operators only read, and so do aggregates of groups. -/
theorem nodes_reads :
    Nodes (fun _ S m => Reads n js table m ∧ Keeps (fun _ => True) S m) (fun _ => True) table IsGroupFold := by
  have hany {m : Lower Row} (h : Reads n js table m) :
      Reads n js table m ∧ Keeps (fun _ => True) (fun _ => True) m := ⟨h, keeps_trivial⟩
  constructor
  case toJudgement =>
    exact ⟨fun ha => ⟨reads_pure _, keeps_pure ha⟩, fun f => ⟨reads_throw f, keeps_throw f⟩, fun hm hk =>
      ⟨hm.1.bind_of_yields hm.2 fun a ha => (hk a ha).1, hm.2.bind fun a ha => (hk a ha).2⟩⟩
  case scalar => exact fun _ => trivial
  case captured => exact fun _ => trivial
  case projected => exact fun _ _ _ => trivial
  case table => exact fun m hm => hany ((reads_bindTable hm).bind fun _ => reads_pure _)
  case memberOf => exact fun r name _ => hany (reads_memberOf r name)
  case combine => exact fun op concat l r _ _ => hany (reads_combine op concat l r)
  case callMethod => exact fun name receiver args _ _ => hany (reads_callMethod name receiver args)
  case operator =>
    intro name args env h hargs
    cases args with
    | nil => exact h.elim
    | cons source rest =>
      obtain ⟨hsource, hrest⟩ := List.forall_mem_cons.mp hargs
      exact hany (reads_callGroupFold h.1 h.2 hsource.row.1 fun operand hoperand =>
        ⟨(hrest operand hoperand).row.1, fun rows => ((hrest operand hoperand).apply rows fun _ _ => trivial).1⟩)

/-- An expression without operators only reads, aggregates of groups apart. -/
theorem reads_rowOf (e : Expr) (h : e.Every table IsGroupFold) (env : Env) : Reads n js table (rowOf env e) :=
  (nodes_reads.rowOf e h env fun _ _ => trivial).1

/-- So does a function, whatever rows it is applied to. -/
theorem reads_applyTo (e : Expr) (h : e.Every table IsGroupFold) (env : Env) (rows : List Row) :
    Reads n js table (applyTo env rows e) :=
  (nodes_reads.applyTo e h env (fun _ _ => trivial) rows fun _ _ => trivial).1

end Trees

end Expr

end QueryChain
