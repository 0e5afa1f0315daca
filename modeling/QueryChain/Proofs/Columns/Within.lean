import QueryChain.Proofs.Lowering.Keeping

/-!
# What a row may refer to

A row is within what is visible if its tables, columns and joins are. Members, scalars and methods of rows within what
is visible stay within it, if the rows of the visible joins do.

* `Row.Within`: rows within what is visible.
* `Visible.closed`: what is made of such rows stays within what is visible.
* `Visible.Sees`: an invariant under which the rows of visible joins are within what is visible.
-/

namespace QueryChain

open Lowering Lower

/-! ## Terms and rows -/

/-- A table has a column under its alias: some field of its model is mapped to it. -/
def TableRef.Provides (t : TableRef) (x : Nat × String) : Prop :=
  x.1 = t.label ∧ ∃ f ∈ t.model.fields, f.column = x.2

/-- What rows and terms may refer to. -/
structure Visible where
  table : TableRef → Prop
  column : Nat × String → Prop
  joined : Nat → Prop
  column_of_table : ∀ t x, table t → t.Provides x → column x

/-- A term refers to these columns only. -/
def Term.Within (column : Nat × String → Prop) (t : Term) : Prop :=
  ∀ x ∈ t.columns, column x

theorem Term.within_append {column : Nat × String → Prop} {l r : Term} (hl : l.Within column)
    (hr : r.Within column) : ∀ x ∈ l.columns ++ r.columns, column x :=
  List.forall_mem_append.mpr ⟨hl, hr⟩

/-- A row refers to what is visible only. -/
inductive Row.Within (V : Visible) : Row → Prop
  | scalar (v : Value) : Within V (.scalar v)
  | host (c : Captured) : Within V (.host c)
  | term {t : Term} (h : t.Within V.column) : Within V (.term t)
  | table {t : TableRef} (h : V.table t) : Within V (.table t)
  | projected (typeName : String) {list : List (String × Row)} (h : ∀ p ∈ list, Within V p.2) :
      Within V (.projected typeName list)
  | joined {index : Nat} (h : V.joined index) : Within V (.joined index)
  | group {key : Term} {element : Row} (hkey : key.Within V.column) (helement : Within V element) :
      Within V (.group key element)

section

variable {V : Visible}

theorem Row.within_ofCaptured (c : Captured) : (Row.ofCaptured c).Within V := by
  cases c with
  | scalar v => exact .scalar v
  | object typeName fields => exact .host _

/-- More may be visible. -/
theorem Row.Within.mono {V' : Visible} {r : Row} (h : r.Within V) (htable : ∀ t, V.table t → V'.table t)
    (hcolumn : ∀ x, V.column x → V'.column x) (hjoined : ∀ i, V.joined i → V'.joined i) : r.Within V' := by
  induction h with
  | scalar v => exact .scalar v
  | host c => exact .host c
  | term ht => exact .term fun x hx => hcolumn x (ht x hx)
  | table ht => exact .table (htable _ ht)
  | projected typeName _ ih => exact .projected typeName ih
  | joined hi => exact .joined (hjoined _ hi)
  | group hkey _ ih => exact .group (fun x hx => hcolumn x (hkey x hx)) ih

end

/-- What is made of rows and terms within what is visible stays within it. -/
theorem Visible.closed (V : Visible) : Lower.Closed (Row.Within V) (Term.Within V.column) where
  scalar := .scalar
  captured := Row.within_ofCaptured
  term := .term
  ofTerm h := by
    cases h with
    | term ht => exact ht
  ofTable h f hf x hx := by
    cases h with
    | table ht =>
      rw [List.mem_singleton.mp hx]
      exact V.column_of_table _ _ ht ⟨rfl, f, hf, rfl⟩
  ofProjected h := by
    cases h with
    | projected _ hlist => exact hlist
  ofGroup h := by
    cases h with
    | group hkey _ => exact hkey
  literal _ := List.forall_mem_nil _
  nullTest _ _ ht := ht
  binary _ _ _ := Term.within_append
  concat := Term.within_append
  length ht := ht
  toText ht := ht
  change _ _ ht := ht
  likeText _ _ _ ht := ht
  likeTerm _ _ _ := Term.within_append
  dateAdd _ _ _ := Term.within_append

/-- Under an invariant, the rows of visible joins are within what is visible. -/
def Visible.Sees (V : Visible) (I : Clauses → Prop) : Prop :=
  ∀ c, I c → ∀ i j, V.joined i → c.joins[i]? = some j → ∀ p ∈ j.fields.list, p.2.Within V

theorem Visible.Sees.joinsAre {V : Visible} {I : Clauses → Prop} (h : V.Sees I) : JoinsAre I (Row.Within V) := by
  intro c hc i j hi
  cases hi with
  | joined hi => exact h c hc i j hi

end QueryChain
