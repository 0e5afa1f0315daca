import Mathlib.Logic.Function.Basic
import QueryChain.Proofs.Meaning.Settle

/-!
# What a statement returns

A block is read clause by clause: the tables of `FROM` from left to right, each pair of rows kept if the keys of
its join are equal, then `WHERE`, then the select list, `DISTINCT`, `ORDER BY`, and the limit last.

* `Engine.scopes`: the rows of `FROM`, as what its aliases stand for.
* `Select.Returns`: what a block returns.
-/

namespace QueryChain

namespace Engine

variable (E : Engine) (db : E.Database)

/-- An alias stands for each row of its table in turn. -/
def bind (s : E.Scope) (t : TableRef) : List E.Scope :=
  (db t.model.table).map (Function.update s t.label)

/-- Whether the keys of a join are equal. -/
def joins (s : E.Scope) (j : JoinClause) : Bool :=
  j.pairs.all fun (l, r) => E.holds (E.binary .eq (l.value E s) (r.value E s))

/-- Another table is joined to the rows so far. -/
def joinScopes (scopes : List E.Scope) (j : JoinClause) : List E.Scope :=
  scopes.flatMap fun s => (E.bind db s j.table).filter fun s' => E.joins s' j

/-- The rows of a table and of those that are joined to it. -/
def scopes (s : E.Scope) (root : TableRef) (joins : List JoinClause) : List E.Scope :=
  joins.foldl (E.joinScopes db) (E.bind db s root)

/-- No alias stands for anything yet. -/
def blank : E.Scope := fun _ _ => E.null

/-- Whether a row meets all conditions. -/
def meets (conditions : List Term) (s : E.Scope) : Bool :=
  conditions.all fun t => E.holds (t.value E s)

/-- The keys that a row is sorted by. -/
def keys (order : List OrderKey) (s : E.Scope) : List E.Key :=
  order.map fun k => (k.term.value E s, k.descending)

/-- The value of an item of a select list. -/
def selected (s : E.Scope) : SelectItem → E.Datum
  | .entity label column => s label column
  | .bare t | .named t _ | .folded t | .plain t => t.value E s

/-- The values of a select list. -/
def selection (s : E.Scope) : SelectList → List E.Datum
  | .items list => list.map (E.selected s)
  | .withFolded list t => list.map (E.selected s) ++ [t.value E s]

end Engine

/-- What a block without groups returns. -/
def Select.Returns (E : Engine) (db : E.Database) (q : Select) (result : List (List E.Datum)) : Prop :=
  q.groupKeys = [] ∧
    Settles (fun s => E.selection s q.list) (fun s => E.keys q.order s) q.distinct q.top
      ((E.scopes db E.blank q.root q.joins).filter (E.meets q.filters)) result

namespace Engine

variable {E : Engine} {db : E.Database} {s : E.Scope}

@[simp] theorem scopes_nil (root : TableRef) : E.scopes db s root [] = E.bind db s root := rfl

theorem scopes_append (root : TableRef) (js : List JoinClause) (j : JoinClause) :
    E.scopes db s root (js ++ [j]) = E.joinScopes db (E.scopes db s root js) j := by
  simp [scopes]

theorem meets_append (conditions conditions' : List Term) :
    E.meets (conditions ++ conditions') s = (E.meets conditions s && E.meets conditions' s) := by
  simp [meets]

theorem mem_bind {t : TableRef} {s' : E.Scope} (h : s' ∈ E.bind db s t) :
    ∃ row, s' = Function.update s t.label row := by
  obtain ⟨row, -, rfl⟩ := List.mem_map.mp h
  exact ⟨row, rfl⟩

end Engine

end QueryChain
