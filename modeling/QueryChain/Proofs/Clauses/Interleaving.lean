import Mathlib.Tactic.Choose
import QueryChain.Proofs.Clauses.Reading
import QueryChain.Proofs.Columns.InScope

/-!
# Steps in another order

Filters, sorts, limits, `Distinct` and `First` hand on the rows of their source. Each leaves one mark on the clauses,
and what the mark is depends on those rows and on the joins only. So such steps can be interleaved as one likes, as long
as the filters stay in order and so do the sorts.

* `ClauseStep.mark`: what a step leaves behind, given the rows.
* `Clauses.marked_eq`: what several marks come to, clause by clause.
* `Stacked.run_eq`: steps on top of a tree run if each of them has a mark, and leave their marks behind.
* `Stacked.compile_interleaved`: two interleavings fail alike or compile to the same.
-/

namespace QueryChain

open Lowering Lower

/-! ## Marks -/

/-- What a step leaves behind on the clauses. -/
inductive Mark where
  | condition (t : Term)
  | sort (restart : Bool) (keys : List OrderKey)
  | limit (n : Nat)
  | distinct
  | first
deriving Inhabited

namespace Mark

/-- The clauses with a mark. -/
def on (c : Clauses) : Mark → Clauses
  | condition t => c.filter t
  | sort restart keys => { c with order := (if restart then [] else c.order) ++ keys }
  | limit n => c.limit n
  | distinct => { c with distinct := true }
  | first => { c.limit 1 with first := true }

/-- The condition that is added to the filters, if any. -/
def conditions : Mark → List Term
  | condition t => [t]
  | _ => []

/-- The keys that are added to the sort keys, if any, and whether the earlier ones are forgotten. -/
def sorts : Mark → List (Bool × List OrderKey)
  | sort restart keys => [(restart, keys)]
  | _ => []

/-- The limit that is set, if any; the first row is a limit of one. -/
def limits : Mark → List Nat
  | limit n => [n]
  | first => [1]
  | _ => []

def isDistinct : Mark → Bool
  | distinct => true
  | _ => false

def isFirst : Mark → Bool
  | first => true
  | _ => false

end Mark

/-- Sort keys after some sorts, each of which adds to the earlier ones or forgets them. -/
def sorted (order : List OrderKey) (sorts : List (Bool × List OrderKey)) : List OrderKey :=
  sorts.foldl (fun order s => (if s.1 then [] else order) ++ s.2) order

theorem sorted_of_forall {order : List OrderKey} {sorts : List (Bool × List OrderKey)}
    (h : ∀ s ∈ sorts, s.1 = false) : sorted order sorts = order ++ sorts.flatMap (·.2) := by
  induction sorts generalizing order with
  | nil => simp [sorted]
  | cons s rest ih =>
    obtain ⟨hs, hrest⟩ := List.forall_mem_cons.mp h
    rw [sorted, List.foldl_cons, ← sorted, ih hrest, hs, List.flatMap_cons]
    simp

/-- Only the keys from the last restart on are left. -/
theorem sorted_of_restart {order : List OrderKey} (earlier : List (Bool × List OrderKey)) (keys : List OrderKey)
    {later : List (Bool × List OrderKey)} (h : ∀ s ∈ later, s.1 = false) :
    sorted order (earlier ++ (true, keys) :: later) = keys ++ later.flatMap (·.2) := by
  rw [sorted, List.foldl_append, List.foldl_cons, ← sorted, ← sorted, sorted_of_forall h]
  simp

namespace Clauses

/-- Clauses with marks, one after another. -/
def marked (c : Clauses) (marks : List Mark) : Clauses :=
  marks.foldl Mark.on c

theorem marked_append (c : Clauses) (marks later : List Mark) :
    c.marked (marks ++ later) = (c.marked marks).marked later :=
  List.foldl_append ..

/-- A limit that is set is one more limit to take the least of. -/
theorem min?_limit (c : Clauses) (n : Nat) (ns : List Nat) :
    ((c.limit n).top.toList ++ ns).min? = (c.top.toList ++ n :: ns).min? := by
  rw [limit]
  cases c.top <;> rfl

/-- What marks come to, clause by clause. -/
theorem marked_eq (c : Clauses) (marks : List Mark) :
    c.marked marks = { c with
      filters := c.filters ++ marks.flatMap Mark.conditions
      order := sorted c.order (marks.flatMap Mark.sorts)
      top := (c.top.toList ++ marks.flatMap Mark.limits).min?
      distinct := c.distinct || marks.any Mark.isDistinct
      first := c.first || marks.any Mark.isFirst } := by
  have htop (c : Clauses) : c.top.toList.min? = c.top := by cases c.top <;> rfl
  induction marks generalizing c with
  | nil => simp [marked, sorted, htop]
  | cons mark rest ih =>
    rw [marked, List.foldl_cons, ← marked, ih]
    cases mark with
    | condition t =>
      simp [Mark.on, filter, Mark.conditions, Mark.sorts, Mark.limits, Mark.isDistinct, Mark.isFirst]
    | sort restart keys =>
      simp [Mark.on, sorted, Mark.conditions, Mark.sorts, Mark.limits, Mark.isDistinct, Mark.isFirst]
    | distinct =>
      simp [Mark.on, Mark.conditions, Mark.sorts, Mark.limits, Mark.isDistinct, Mark.isFirst]
    | limit n =>
      rw [Mark.on, min?_limit]
      simp [limit, Mark.conditions, Mark.sorts, Mark.limits, Mark.isDistinct, Mark.isFirst]
    | first =>
      rw [Mark.on, min?_limit]
      simp [limit, Mark.conditions, Mark.sorts, Mark.limits, Mark.isDistinct, Mark.isFirst]

theorem rooted_marked (c : Clauses) (t : Option TableRef) (marks : List Mark) :
    (c.rooted t).marked marks = (c.marked marks).rooted t := by
  rw [marked_eq, marked_eq]
  rfl

end Clauses

/-! ## Steps -/

/-- An operator that hands on the rows of its source, with its function or count. -/
inductive ClauseStep where
  | filter (predicate : Expr)
  | sort (descending restart : Bool) (key : Expr)
  | take (count : Expr)
  | distinct
  | first (orDefault : Bool)

namespace ClauseStep

def name : ClauseStep → String
  | filter _ => "Where"
  | sort false true _ => "OrderBy"
  | sort true true _ => "OrderByDescending"
  | sort false false _ => "ThenBy"
  | sort true false _ => "ThenByDescending"
  | take _ => "Take"
  | distinct => "Distinct"
  | first false => "First"
  | first true => "FirstOrDefault"

def operator : ClauseStep → QueryOperator
  | filter _ => .filter
  | sort descending restart _ => .order descending restart
  | take _ => .take
  | distinct => .distinct
  | first _ => .first

/-- What comes after the source. -/
def args : ClauseStep → List Expr
  | filter e | sort _ _ e | take e => [e]
  | distinct | first _ => []

def isFilter : ClauseStep → Bool
  | filter _ => true
  | _ => false

def isSort : ClauseStep → Bool
  | sort _ _ _ => true
  | _ => false

/-- Whether the function or count of a step has no operators but aggregates of groups. -/
def OnlyReads (table : Model → Prop) (s : ClauseStep) : Prop :=
  Expr.EveryArgument table Expr.IsGroupFold s.args

/-- Whether a table is mentioned in the function or count of a step. -/
def mentionsTable (s : ClauseStep) : Bool :=
  s.args.any fun e => ¬ e.Every (fun _ => False) Expr.IsGroupFold

/-- What a step leaves behind, given the rows of its source. -/
def mark (rows : Row) : ClauseStep → Lower Mark
  | filter predicate => do
    if rows.isGroup then throw (.use .groupsFiltered)
    let condition ← Expr.applyTo [] [rows] predicate
    let t ← scalarTerm condition
    pure (.condition t)
  | sort descending restart key => do
    let key ← Expr.applyTo [] [rows] key
    let keys ← keyTerms key
    pure (.sort restart (keys.map fun t => ⟨t, descending⟩))
  | take count => do
    match ← Expr.rowOf [] count with
    | .scalar (.int n) => pure (.limit n.toInt.toNat)
    | _ => throw (.use .takeCount)
  | distinct => pure .distinct
  | first _ => pure .first

@[simp] theorem ofName_name (s : ClauseStep) : QueryOperator.ofName s.name = some s.operator := by
  rcases s with _ | ⟨_ | _, _ | _, _⟩ | _ | _ | (_ | _) <;> rfl

theorem groupFold_ofName_name (s : ClauseStep) : GroupFold.ofName s.name = none := by
  rcases s with _ | ⟨_ | _, _ | _, _⟩ | _ | _ | (_ | _) <;> rfl

/-- A step evaluates its source, reads its mark, leaves it behind, and hands on the rows. -/
theorem rowOf_step (s : ClauseStep) (source : Expr) (ty : StaticType) :
    Expr.rowOf [] (.operator s.name (source :: s.args) ty) = (do
      let rows ← Expr.rowOf [] source
      let m ← s.mark rows
      update (m.on ·)
      pure rows) := by
  rw [Expr.rowOf, Expr.operandsOf, callOperator_cons s.ofName_name s.groupFold_ofName_name]
  cases s with
  | filter predicate =>
    show (Expr.rowOf [] source >>= fun rows => _ : Lower Row) = _
    refine bind_congr fun rows => ?_
    rw [restrict, mark]
    cases rows.isGroup with
    | true => rfl
    | false =>
      simp only [Bool.false_eq_true, if_false, pure_bind, bind_assoc]
      rfl
  | sort descending restart key =>
    show (Expr.rowOf [] source >>= fun rows => _ : Lower Row) = _
    refine bind_congr fun rows => ?_
    rw [mark]
    simp only [bind_assoc, pure_bind]
    rfl
  | take count =>
    show (Expr.rowOf [] source >>= fun rows => _ : Lower Row) = _
    refine bind_congr fun rows => ?_
    rw [mark, bind_assoc]
    show (Expr.rowOf [] count >>= fun value => _ : Lower Row) = _
    refine bind_congr fun value => ?_
    cases value with
    | scalar v => cases v <;> rfl
    | _ => rfl
  | distinct => rfl
  | first orDefault => rfl

/-- A step that mentions no table has no operators but aggregates of groups, and no tables. -/
theorem onlyReads_of_mentionsTable {s : ClauseStep} (h : s.mentionsTable = false) : s.OnlyReads fun _ => False := by
  cases s with
  | filter e | sort _ _ e | take e =>
    refine ⟨?_, trivial⟩
    simpa [mentionsTable, args] using h
  | distinct => exact trivial
  | first _ => exact trivial

/-- What a step leaves behind is read off the rows, the aliases and the joins. -/
theorem reads_mark {n : Nat} {js : List Join} {table : Model → Prop} {s : ClauseStep} (h : s.OnlyReads table)
    (rows : Row) : Reads n js table (s.mark rows) := by
  cases s with
  | filter predicate =>
    rw [mark]
    cases rows.isGroup with
    | true => exact reads_throw _
    | false => exact (Expr.reads_applyTo _ h.1 [] _).bind fun _ => (reads_scalarTerm _).bind fun _ => reads_pure _
  | sort descending restart key =>
    exact (Expr.reads_applyTo _ h.1 [] _).bind fun _ => (reads_keyTerms _).bind fun _ => reads_pure _
  | take count =>
    refine (Expr.reads_rowOf _ h.1 []).bind fun value => ?_
    split
    · exact reads_pure _
    · exact reads_throw _
  | distinct => exact reads_pure _
  | first orDefault => exact reads_pure _

/-- Only filters leave conditions behind, and only sorts leave keys behind. -/
theorem kind_of_mark {s : ClauseStep} {rows : Row} {c c' : Clauses} {m : Mark}
    (h : ExceptT.run (s.mark rows) c = (.ok m, c')) :
    (s.isFilter = false → m.conditions = []) ∧ (s.isSort = false → m.sorts = []) := by
  cases s with
  | filter predicate =>
    rw [mark] at h
    cases hgroup : rows.isGroup with
    | true =>
      rw [hgroup] at h
      cases h
    | false =>
      rw [hgroup] at h
      obtain ⟨_, _, -, h⟩ := run_bind_eq_ok.mp h
      obtain ⟨_, _, -, ⟨⟩⟩ := run_bind_eq_ok.mp h
      exact ⟨nofun, fun _ => rfl⟩
  | sort descending restart key =>
    obtain ⟨_, _, -, h⟩ := run_bind_eq_ok.mp h
    obtain ⟨_, _, -, ⟨⟩⟩ := run_bind_eq_ok.mp h
    exact ⟨fun _ => rfl, nofun⟩
  | take count =>
    obtain ⟨_, _, -, h⟩ := run_bind_eq_ok.mp h
    split at h
    · cases h
      exact ⟨fun _ => rfl, fun _ => rfl⟩
    · cases h
  | distinct =>
    cases h
    exact ⟨fun _ => rfl, fun _ => rfl⟩
  | first orDefault =>
    cases h
    exact ⟨fun _ => rfl, fun _ => rfl⟩

end ClauseStep

/-! ## Steps on top of a tree -/

/-- A tree is another tree with steps on top of it, the first of them innermost. -/
inductive Stacked (q : Expr) : List ClauseStep → Expr → Prop
  | nil : Stacked q [] q
  | snoc {steps : List ClauseStep} {e : Expr} (h : Stacked q steps e) (s : ClauseStep) (ty : StaticType) :
      Stacked q (steps ++ [s]) (.operator s.name (e :: s.args) ty)

namespace Stacked

variable {q e e' : Expr} {steps steps' : List ClauseStep} {r : Row} {c c₀ : Clauses}

/-- Steps on top of a tree run if each of them has a mark, and leave their marks behind. Which marks, is settled once
the tree has run; and the first table that a step binds may become the root. -/
theorem run_eq (h : Stacked q steps e) (hq : ExceptT.run (q.rowOf []) c = (.ok r, c₀))
    {x : ClauseStep → Except Fault Mark} {t : ClauseStep → Option TableRef}
    (hread : ∀ s ∈ steps, ∀ c : Clauses, c.aliases = c₀.aliases → c.joins = c₀.joins →
      ExceptT.run (s.mark r) c = (x s, c.rooted (t s))) :
    ∃ c', ExceptT.run (e.rowOf []) c = ((steps.mapM x).map fun _ => r, c') ∧
      ∀ marks, steps.mapM x = .ok marks →
        c' = (c₀.marked marks).rooted (steps.flatMap fun s => (t s).toList).head? := by
  induction h with
  | nil =>
    refine ⟨c₀, hq, fun marks hmarks => ?_⟩
    cases hmarks
    exact Clauses.rooted_none.symm
  | @snoc steps e _ s ty ih =>
    obtain ⟨hsteps, hs⟩ := List.forall_mem_append.mp hread
    obtain ⟨c₁, hrun, hc₁⟩ := ih hsteps
    rw [ClauseStep.rowOf_step, List.mapM_append, List.mapM_cons, List.mapM_nil]
    cases hmarks : steps.mapM x with
    | error f =>
      rw [hmarks] at hrun
      exact ⟨c₁, run_bind_of_error hrun, nofun⟩
    | ok marks =>
      rw [hmarks] at hrun
      rw [run_bind_of_ok hrun]
      replace hc₁ := hc₁ marks hmarks
      have hmark := hs s (List.mem_singleton_self s) c₁ (by rw [hc₁, Clauses.marked_eq]; rfl)
        (by rw [hc₁, Clauses.marked_eq]; rfl)
      cases hx : x s with
      | error f =>
        rw [hx] at hmark
        exact ⟨_, run_bind_of_error hmark, nofun⟩
      | ok m =>
        rw [hx] at hmark
        rw [run_bind_of_ok hmark]
        refine ⟨_, rfl, fun marks' hmarks' => ?_⟩
        cases hmarks'
        show (c₁.rooted (t s)).marked [m] = _
        rw [hc₁, Clauses.rooted_rooted, Clauses.rooted_marked, ← Clauses.marked_append, List.flatMap_append,
          List.head?_append, List.flatMap_singleton, Option.head?_toList]

/-- If the tree below fails, so does the tree. -/
theorem run_eq_error (h : Stacked q steps e) {f : Fault} (hq : ExceptT.run (q.rowOf []) c = (.error f, c₀)) :
    ExceptT.run (e.rowOf []) c = (.error f, c₀) := by
  induction h with
  | nil => exact hq
  | snoc _ s ty ih =>
    rw [ClauseStep.rowOf_step]
    exact run_bind_of_error ih

end Stacked

/-! ## Two interleavings -/

theorem flatMap_filter_eq {α β : Type} {p : α → Bool} {g : α → List β} {l : List α}
    (h : ∀ a ∈ l, p a = false → g a = []) : (l.filter p).flatMap g = l.flatMap g := by
  induction l with
  | nil => rfl
  | cons a rest ih =>
    obtain ⟨ha, hrest⟩ := List.forall_mem_cons.mp h
    cases hp : p a with
    | true => rw [List.filter_cons_of_pos hp, List.flatMap_cons, List.flatMap_cons, ih hrest]
    | false =>
      rw [List.filter_cons_of_neg (by simp [hp]), List.flatMap_cons, ha hp, ih hrest, List.nil_append]

theorem min?_eq_of_perm {ns ns' : List Nat} (h : ns.Perm ns') : ns.min? = ns'.min? :=
  Option.ext fun n => by simp [List.min?_eq_some_iff, h.mem_iff]

/-- Results that are all there, one after another. -/
theorem mapM_eq_ok {α β : Type} {x : α → Except Fault β} {f : α → β} {l : List α} (h : ∀ a ∈ l, x a = .ok (f a)) :
    l.mapM x = .ok (l.map f) := by
  rw [mapM_eq_ok_iff, List.forall₂_map_right_iff]
  exact List.forall₂_same.mpr h

theorem mapM_eq_error {α β : Type} {x : α → Except Fault β} {l : List α} {a : α} (ha : a ∈ l) {f : Fault}
    (h : x a = .error f) : ∃ f', l.mapM x = .error f' := by
  cases hl : l.mapM x with
  | error f' => exact ⟨f', rfl⟩
  | ok bs =>
    obtain ⟨b, hb⟩ := exists_mapM_eq_ok_iff.mp ⟨bs, hl⟩ a ha
    rw [h] at hb
    cases hb

/-- The same steps, with the filters in the same order, and the sorts. -/
structure Interleaved (steps steps' : List ClauseStep) : Prop where
  perm : steps.Perm steps'
  filters : steps.filter ClauseStep.isFilter = steps'.filter ClauseStep.isFilter
  sorts : steps.filter ClauseStep.isSort = steps'.filter ClauseStep.isSort

/-- The order of marks does not matter, apart from that of the filters and that of the sorts. -/
theorem Interleaved.marked_eq {steps steps' : List ClauseStep} (h : Interleaved steps steps') (c : Clauses)
    {f : ClauseStep → Mark} (hfilter : ∀ s ∈ steps, s.isFilter = false → (f s).conditions = [])
    (hsort : ∀ s ∈ steps, s.isSort = false → (f s).sorts = []) :
    c.marked (steps.map f) = c.marked (steps'.map f) := by
  have hconditions : (steps.map f).flatMap Mark.conditions = (steps'.map f).flatMap Mark.conditions := by
    rw [List.flatMap_map, List.flatMap_map, ← flatMap_filter_eq hfilter, h.filters,
      flatMap_filter_eq fun s hs => hfilter s (h.perm.mem_iff.mpr hs)]
  have hkeys : (steps.map f).flatMap Mark.sorts = (steps'.map f).flatMap Mark.sorts := by
    rw [List.flatMap_map, List.flatMap_map, ← flatMap_filter_eq hsort, h.sorts,
      flatMap_filter_eq fun s hs => hsort s (h.perm.mem_iff.mpr hs)]
  have hmarks := h.perm.map f
  rw [Clauses.marked_eq, Clauses.marked_eq, hconditions, hkeys,
    min?_eq_of_perm ((hmarks.flatMap_right Mark.limits).append_left c.top.toList), hmarks.any_eq (f := Mark.isDistinct),
    hmarks.any_eq (f := Mark.isFirst)]

/-! ## Statements -/

theorem Expr.lower_of_clausesOf_error {e : Expr} {f : Fault} {c : Clauses} (h : e.clausesOf = (.error f, c)) :
    e.lower = .error f := by
  rw [lower, h]

theorem Expr.lower_of_clausesOf_ok {e : Expr} {r : Row} {c : Clauses} (h : e.clausesOf = (.ok r, c)) :
    e.lower = c.assemble := by
  rw [lower, h]

/-- Whether the rows of a statement are sorted: those of a count are not, and those of a fold only if they are
limited. -/
def Lowered.IsSorted (t : Lowered) : Prop :=
  t.mode ≠ .count ∧ (t.mode = .aggregate → t.top.isSome)

/-- The block of a statement has the clauses, leaving out the limit only where there is none. -/
theorem Clauses.block_of_assemble {c : Clauses} {t : Lowered} (h : c.assemble = .ok t) :
    ∃ root list limited ordered, t.statement.block = c.block root list limited ordered ∧ t.top = c.top ∧
      (limited = false → c.top = none) ∧ (t.IsSorted → ordered = true) := by
  obtain ⟨root, items, shape, -, -, rfl⟩ := assemble_eq_ok_iff.mp h
  have hunlimited (hwrapped : ¬ c.isWrapped = true) : c.top = none := by
    rw [isWrapped] at hwrapped
    cases htop : c.top with
    | none => rfl
    | some n => simp [htop] at hwrapped
  simp only [Lowered.IsSorted, statement, true_and]
  split
  · rename_i hmode
    split
    · exact ⟨_, _, _, _, rfl, fun h => Bool.noConfusion h, fun hsorted => absurd hmode hsorted.1⟩
    · rename_i hwrapped
      exact ⟨_, _, _, _, rfl, fun _ => hunlimited hwrapped, fun hsorted => absurd hmode hsorted.1⟩
  · rename_i hmode _
    split
    · exact ⟨_, _, _, _, rfl, fun h => Bool.noConfusion h, fun hsorted => hsorted.2 hmode⟩
    · rename_i hwrapped
      refine ⟨_, _, _, _, rfl, fun _ => hunlimited hwrapped, fun hsorted => ?_⟩
      have hlimited := hsorted.2 hmode
      rw [hunlimited hwrapped] at hlimited
      cases hlimited
  · exact ⟨_, _, _, _, rfl, fun h => Bool.noConfusion h, fun _ => rfl⟩

/-- A lowered query that has the clauses of its source and marks. -/
structure Lowered.IsMarked (t : Lowered) (c : Clauses) (marks : List Mark) : Prop where
  /-- The conditions stand after those of the source, in their order. -/
  filters : t.statement.block.filters = c.filters ++ marks.flatMap Mark.conditions
  /-- Rows are sorted by the keys from the last restart on. -/
  restarted : t.IsSorted → ∀ earlier keys later, marks.flatMap Mark.sorts = earlier ++ (true, keys) :: later →
    (∀ s ∈ later, s.1 = false) → t.statement.block.order = keys ++ later.flatMap (·.2)
  /-- Without a restart, the keys of the source are kept. -/
  continued : t.IsSorted → (∀ s ∈ marks.flatMap Mark.sorts, s.1 = false) →
    t.statement.block.order = c.order ++ (marks.flatMap Mark.sorts).flatMap (·.2)
  /-- The least of all limits. -/
  top : t.top = (c.top.toList ++ marks.flatMap Mark.limits).min?
  limit : t.statement.block.top = t.top

theorem Clauses.isMarked_of_assemble {c : Clauses} {marks : List Mark} {root : Option TableRef} {t : Lowered}
    (h : ((c.marked marks).rooted root).assemble = .ok t) : t.IsMarked c marks := by
  obtain ⟨table, list, limited, ordered, hblock, htop, hlimited, hordered⟩ := block_of_assemble h
  rw [marked_eq] at hblock htop hlimited
  have horder (hsorted : t.IsSorted) : t.statement.block.order = sorted c.order (marks.flatMap Mark.sorts) := by
    rw [hblock, hordered hsorted]
    rfl
  refine ⟨by rw [hblock]; rfl, fun hsorted earlier keys later hsorts hlater => ?_, fun hsorted hsorts => ?_, htop, ?_⟩
  · rw [horder hsorted, hsorts, sorted_of_restart earlier keys hlater]
  · rw [horder hsorted, sorted_of_forall hsorts]
  · rw [hblock, htop]
    cases limited with
    | true => rfl
    | false => exact (hlimited rfl).symm

/-- The mark of a step whose function or count only reads is settled by the rows, and so is the table that it binds, if
it mentions one. -/
theorem ClauseStep.run_mark {s : ClauseStep} (h : s.OnlyReads fun _ => True) (r : Row) (c : Clauses) :
    ∃ t : Option TableRef, (s.mentionsTable = false → t = none) ∧
      ∀ c' : Clauses, c'.aliases = c.aliases → c'.joins = c.joins →
        ExceptT.run (s.mark r) c' = ((ExceptT.run (s.mark r) c).1, c'.rooted t) := by
  cases htable : s.mentionsTable with
  | false =>
    obtain ⟨x, hrun⟩ := (reads_mark (onlyReads_of_mentionsTable htable) r).run_eq
    refine ⟨none, fun _ => rfl, fun c' hn hjs => ?_⟩
    rw [hrun c' hn hjs (Or.inr fun _ => id), hrun c rfl rfl (Or.inr fun _ => id), Clauses.rooted_none]
  | true =>
    obtain ⟨x, t, -, hrun⟩ := reads_mark h r
    refine ⟨t, nofun, fun c' hn hjs => ?_⟩
    rw [hrun c' hn hjs, hrun c rfl rfl]

namespace Stacked

variable {q e e' : Expr} {steps steps' : List ClauseStep} {r : Row} {c : Clauses}

/-- Two interleavings fail if a mark is missing, and else they leave the same clauses behind. -/
theorem run_interleaved (he : Stacked q steps e) (he' : Stacked q steps' e') (h : Interleaved steps steps')
    (hreads : ∀ s ∈ steps, s.OnlyReads fun _ => True)
    (hq : ExceptT.run (q.rowOf []) Clauses.empty = (.ok r, c))
    (hroot : c.root.isSome ∨ steps.filter ClauseStep.mentionsTable = steps'.filter ClauseStep.mentionsTable) :
    (∃ f f' c₁ c₂, ExceptT.run (e.rowOf []) Clauses.empty = (.error f, c₁) ∧
      ExceptT.run (e'.rowOf []) Clauses.empty = (.error f', c₂)) ∨
    ∃ marks root, steps.mapM (fun s => (ExceptT.run (s.mark r) c).1) = .ok marks ∧
      ExceptT.run (e.rowOf []) Clauses.empty = (.ok r, (c.marked marks).rooted root) ∧
      ExceptT.run (e'.rowOf []) Clauses.empty = (.ok r, (c.marked marks).rooted root) := by
  have hmark (s : ClauseStep) (hs : s ∈ steps) := ClauseStep.run_mark (hreads s hs) r c
  choose! t htable hrun using hmark
  obtain ⟨c₁, he₁, hc₁⟩ := he.run_eq hq hrun
  obtain ⟨c₂, he₂, hc₂⟩ := he'.run_eq hq fun s hs => hrun s (h.perm.mem_iff.mpr hs)
  generalize hx : (fun s : ClauseStep => (ExceptT.run (s.mark r) c).1) = x at he₁ hc₁ he₂ hc₂ ⊢
  by_cases hmissing : ∃ s ∈ steps, ∃ f, x s = .error f
  · obtain ⟨s, hs, f, hf⟩ := hmissing
    obtain ⟨f₁, hf₁⟩ := mapM_eq_error hs hf
    obtain ⟨f₂, hf₂⟩ := mapM_eq_error (h.perm.mem_iff.mp hs) hf
    rw [hf₁] at he₁
    rw [hf₂] at he₂
    exact Or.inl ⟨f₁, f₂, c₁, c₂, he₁, he₂⟩
  · have hok (s : ClauseStep) (hs : s ∈ steps) : ∃ m, x s = .ok m := by
      cases hxs : x s with
      | error f => exact absurd ⟨s, hs, f, hxs⟩ hmissing
      | ok m => exact ⟨m, rfl⟩
    choose! f hf using hok
    have hkind (s : ClauseStep) (hs : s ∈ steps) :
        (s.isFilter = false → (f s).conditions = []) ∧ (s.isSort = false → (f s).sorts = []) := by
      have hrun : ExceptT.run (s.mark r) c = (.ok (f s), (ExceptT.run (s.mark r) c).2) := by
        rw [← hf s hs, ← hx]
        rfl
      exact ClauseStep.kind_of_mark hrun
    have hmapM := mapM_eq_ok hf
    have hmapM' := mapM_eq_ok fun s hs => hf s (h.perm.mem_iff.mpr hs)
    have hsame : c.marked (steps.map f) = c.marked (steps'.map f) :=
      h.marked_eq c (fun s hs => (hkind s hs).1) fun s hs => (hkind s hs).2
    -- the root is that of the source, or the first table of the steps that mention one
    have hrooted : c₂ = c₁ := by
      rw [hc₁ _ hmapM, hc₂ _ hmapM', ← hsame]
      rcases hroot with hroot | hmentions
      · rw [← Clauses.rooted_marked, ← Clauses.rooted_marked, Clauses.rooted_of_root hroot,
          Clauses.rooted_of_root hroot]
      · have hnone (s : ClauseStep) (hs : s ∈ steps) (h : s.mentionsTable = false) : (t s).toList = [] := by
          rw [htable s hs h, Option.toList_none]
        rw [← flatMap_filter_eq hnone, hmentions, flatMap_filter_eq fun s hs => hnone s (h.perm.mem_iff.mpr hs)]
    rw [hmapM, hc₁ _ hmapM] at he₁
    rw [hmapM', hrooted, hc₁ _ hmapM] at he₂
    exact Or.inr ⟨_, _, hmapM, he₁, he₂⟩

/-- Steps can be interleaved as one likes if the filters stay in order and the sorts do: both trees fail, or they
compile to the same under all options, and the statement has the conditions, sort keys and limits of the source and the
steps. If nothing below is the root, the first table that a step mentions is, so steps that mention a table stay in
order, too. -/
theorem compile_interleaved (he : Stacked q steps e) (he' : Stacked q steps' e') (h : Interleaved steps steps')
    (hreads : ∀ s ∈ steps, s.OnlyReads fun _ => True)
    (hroot : q.clausesOf.2.root.isSome ∨
      steps.filter ClauseStep.mentionsTable = steps'.filter ClauseStep.mentionsTable) :
    (∃ f f', ∀ o, e.compile o = .error f ∧ e'.compile o = .error f') ∨
      ∃ r c marks, ∃ t : Lowered, q.clausesOf = (.ok r, c) ∧
        steps.mapM (fun s => (ExceptT.run (s.mark r) c).1) = .ok marks ∧ t.IsMarked c marks ∧
        ∀ o, e.compile o = .ok (t.compiled o) ∧ e'.compile o = .ok (t.compiled o) := by
  rcases hq : q.clausesOf with ⟨x, c⟩
  rw [hq] at hroot
  cases x with
  | error f =>
    exact Or.inl ⟨f, f, fun o => ⟨Expr.compile_eq_error (Expr.lower_of_clausesOf_error (he.run_eq_error hq)),
      Expr.compile_eq_error (Expr.lower_of_clausesOf_error (he'.run_eq_error hq))⟩⟩
  | ok r =>
    rcases run_interleaved he he' h hreads hq hroot with
      ⟨f, f', c₁, c₂, hrun, hrun'⟩ | ⟨marks, root, hmarks, hrun, hrun'⟩
    · exact Or.inl ⟨f, f', fun o => ⟨Expr.compile_eq_error (Expr.lower_of_clausesOf_error hrun),
        Expr.compile_eq_error (Expr.lower_of_clausesOf_error hrun')⟩⟩
    · have hlower : e.lower = ((c.marked marks).rooted root).assemble := Expr.lower_of_clausesOf_ok hrun
      have hlower' : e'.lower = ((c.marked marks).rooted root).assemble := Expr.lower_of_clausesOf_ok hrun'
      cases hassemble : ((c.marked marks).rooted root).assemble with
      | error f =>
        exact Or.inl ⟨f, f, fun o => ⟨Expr.compile_eq_error (hlower.trans hassemble),
          Expr.compile_eq_error (hlower'.trans hassemble)⟩⟩
      | ok t =>
        exact Or.inr ⟨r, c, marks, t, rfl, hmarks, Clauses.isMarked_of_assemble hassemble,
          fun o => ⟨Expr.compile_eq_ok (hlower.trans hassemble), Expr.compile_eq_ok (hlower'.trans hassemble)⟩⟩

/-! ## Orders and customers -/

open Expr.Shop (customer order memberOf)

/-- `Where(o => o.Total > 1)`. -/
def isBig : ClauseStep :=
  .filter (.function ["o"] (.applyOp .gt ((Expr.param "o" (.model order)).member "Total") (.ofValue (.int 1))))

/-- `OrderByDescending(o => o.Total)`. -/
def biggestFirst : ClauseStep :=
  .sort true true (memberOf order "Total")

/-- `Take(5)`. -/
def five : ClauseStep :=
  .take (.ofValue (.int 5))

/-- Steps on top of a tree, whose nodes have no static type. -/
def stack (q : Expr) (steps : List ClauseStep) : Expr :=
  steps.foldl (fun e s => .operator s.name (e :: s.args) .unknown) q

theorem stacked_stack_append {q e : Expr} {steps : List ClauseStep} (h : Stacked q steps e) (later : List ClauseStep) :
    Stacked q (steps ++ later) (stack e later) := by
  induction later generalizing steps e with
  | nil => rwa [List.append_nil]
  | cons s rest ih =>
    rw [List.append_cons]
    exact ih (.snoc h s .unknown)

theorem stacked_stack (q : Expr) (steps : List ClauseStep) : Stacked q steps (stack q steps) :=
  stacked_stack_append .nil steps

/-- The five biggest orders over one are asked for in one way or another. -/
theorem compile_interleaved_isBig :
    Interleaved [isBig, biggestFirst, five] [five, biggestFirst, isBig] ∧
      ∃ marks, ∃ t : Lowered, t.IsMarked (Expr.ofTable order).clausesOf.2 marks ∧ ∀ o,
        (stack (.ofTable order) [isBig, biggestFirst, five]).compile o = .ok (t.compiled o) ∧
        (stack (.ofTable order) [five, biggestFirst, isBig]).compile o = .ok (t.compiled o) := by
  have hinterleaved : Interleaved [isBig, biggestFirst, five] [five, biggestFirst, isBig] :=
    ⟨List.reverse_perm [five, biggestFirst, isBig], rfl, rfl⟩
  have hreads : ∀ s ∈ [isBig, biggestFirst, five], s.OnlyReads fun _ => True := by
    simp only [List.forall_mem_cons]
    exact ⟨⟨⟨trivial, trivial⟩, trivial⟩, ⟨trivial, trivial⟩, ⟨trivial, trivial⟩, nofun⟩
  refine ⟨hinterleaved, ?_⟩
  rcases compile_interleaved (stacked_stack (.ofTable order) _) (stacked_stack _ _) hinterleaved hreads
    (Or.inl rfl) with ⟨f, f', hfails⟩ | ⟨r, c, marks, t, hq, -, ht, hcompile⟩
  · cases (hfails .standard).1
  · rw [hq]
    exact ⟨marks, t, ht, hcompile⟩

/-- `Where(x => Customers.Id == 1)`. -/
def firstCustomer : ClauseStep :=
  .filter (.function ["x"] (.applyOp .eq ((Expr.ofTable customer).member "Id") (.ofValue (.int 1))))

/-- `OrderBy(x => Orders.Total)`. -/
def smallestFirst : ClauseStep :=
  .sort false true (.function ["x"] ((Expr.ofTable order).member "Total"))

/-- `Take(Orders.OrderBy(o => o.Id).Select(x => 3))`. -/
def three : ClauseStep :=
  .take (.operator "Select" [.operator "OrderBy" [.ofTable order, memberOf order "Id"] .unknown,
    .function ["x"] (.ofValue (.int 3))] .unknown)

/-- `Orders.Count()`. -/
def orderCount : Expr :=
  .operator "Count" [.ofTable order] (.scalar .int)

/-- On top of a number, the first step that mentions a table settles the table of the statement; a limit that is
itself sorted sorts the statement; and a count is not sorted at all. -/
theorem not_compile_interleaved :
    (Interleaved [firstCustomer, smallestFirst] [smallestFirst, firstCustomer] ∧
      (∀ s ∈ [firstCustomer, smallestFirst], s.OnlyReads fun _ => True) ∧
      ∃ a b, (stack (.ofValue (.int 3)) [firstCustomer, smallestFirst]).compile .standard = .ok a ∧
        (stack (.ofValue (.int 3)) [smallestFirst, firstCustomer]).compile .standard = .ok b ∧ a.sql ≠ b.sql) ∧
    (Interleaved [biggestFirst, three] [three, biggestFirst] ∧
      ∃ a b, (stack (.ofTable order) [biggestFirst, three]).compile .standard = .ok a ∧
        (stack (.ofTable order) [three, biggestFirst]).compile .standard = .ok b ∧ a.sql ≠ b.sql) ∧
    ∃ t, (stack orderCount [biggestFirst]).lower = .ok t ∧ t.statement.block.order = [] := by
  refine ⟨⟨⟨List.reverse_perm [smallestFirst, firstCustomer], rfl, rfl⟩, ?_, _, _, rfl, rfl, by decide⟩,
    ⟨⟨List.reverse_perm [three, biggestFirst], rfl, rfl⟩, _, _, rfl, rfl, by decide⟩, _, rfl, rfl⟩
  simp only [List.forall_mem_cons]
  exact ⟨⟨⟨trivial, trivial⟩, trivial⟩, ⟨trivial, trivial⟩, nofun⟩

end Stacked

end QueryChain
