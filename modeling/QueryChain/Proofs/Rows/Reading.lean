import QueryChain.Chain
import QueryChain.Proofs.Lowering.Run
import QueryChain.Proofs.Rows.Lifecycle
import QueryChain.Proofs.Rows.Shape

/-!
# Every row is read once and in order

What a statement yields is read off a cursor that goes from row to row, and what a row becomes depends on that row
alone. So the loops over the cursor come down to the rows of the result: all of them, or the first one, and whatever
is read, the cursor is past the last row afterwards.

* `Cursor.SameRow.materialize`: a row becomes the same wherever it stands in a result.
* `Run.eachRow_apply`: the loop over the rows that remain, row by row.
* `Query.reads_rows`: what a query yields on a source in memory, in each mode, and where the cursor is left.
-/

namespace QueryChain

open Model (onlyRow)

/-! ## What a row becomes depends on the row -/

/-- Cursors with the same columns on the same row. -/
structure Cursor.SameRow (c d : Cursor) : Prop where
  columns_eq : c.set.columns = d.set.columns
  current_eq : c.current = d.current

namespace Cursor.SameRow

variable {c d : Cursor}

theorem onlyRow {row : List Value} (h : c.current = some row) : c.SameRow (onlyRow c.set.columns row) :=
  ⟨rfl, h⟩

theorem value (h : c.SameRow d) (index : Nat) : c.value index = d.value index := by
  rw [Cursor.value, Cursor.value, h.current_eq]

theorem readAt (h : c.SameRow d) (index : Nat) (wanted : Option ScalarType) :
    c.readAt index wanted = d.readAt index wanted := by
  rw [Cursor.readAt, Cursor.readAt, h.value]

theorem read (h : c.SameRow d) (column : String) (wanted : Option ScalarType) :
    c.read column wanted = d.read column wanted := by
  have hordinal : c.ordinal column = d.ordinal column := by rw [Cursor.ordinal, Cursor.ordinal, h.columns_eq]
  rw [Cursor.read, Cursor.read, hordinal]
  cases d.ordinal column with
  | none => rfl
  | some index => exact h.readAt index wanted

theorem assignFields (h : c.SameRow d) (m : Model) (columns : List (String × String)) (o : RowObject) :
    c.assignFields m columns o = d.assignFields m columns o := by
  induction columns generalizing o with
  | nil => rfl
  | cons p rest ih => simp only [Cursor.assignFields, h.read, ih]

theorem readParams (h : c.SameRow d) (m : Model) (columns : List (String × String)) (params : List String) :
    c.readParams m columns params = d.readParams m columns params := by
  induction params with
  | nil => rfl
  | cons param rest ih => simp only [Cursor.readParams, h.read, ih]

theorem buildAs (h : c.SameRow d) (T : RowType) (m : Model) (columns : List (String × String)) :
    c.buildAs T m columns = d.buildAs T m columns := by
  simp only [Cursor.buildAs, Cursor.build, h.assignFields, h.readParams]

/-- A row becomes the same wherever it stands in a result. -/
theorem materialize (h : c.SameRow d) (shape : RowShape) (T : RowType) :
    c.materialize shape T = d.materialize shape T := by
  cases shape with
  | entity m | named m members | positional m => exact h.buildAs T m _
  | scalar type => simp only [Cursor.materialize, h.readAt]

end Cursor.SameRow

/-! ## Loops over a cursor -/

/-- The cursor past the last row: its last step led to none. -/
def ResultSet.finished (s : ResultSet) : Cursor := ⟨s, s.rows.length + 1⟩

/-- Where no rows remain, a step leads past the last row. -/
theorem Cursor.advance_finished {c : Cursor} (h : c.remaining = []) : c.advance = (false, c.set.finished) := by
  have hsteps : c.set.rows.length ≤ c.steps := List.drop_eq_nil_iff.mp h
  have hmin : Nat.min (c.steps + 1) (c.set.rows.length + 1) = c.set.rows.length + 1 := Nat.min_eq_right (by omega)
  rw [advance, hmin, decide_eq_false (by omega)]
  rfl

/-- Where rows remain, a step leads to the next of them. -/
theorem Cursor.advance_of_remaining {c : Cursor} {row : List Value} {rest : List (List Value)}
    (h : c.remaining = row :: rest) :
    c.advance.1 = true ∧ c.advance.2.set = c.set ∧ c.advance.2.current = some row ∧ c.advance.2.remaining = rest :=
  ⟨by rw [advance_fst, h]; rfl, rfl, current_advance h⟩

namespace Run

variable {α : Type} {read : Cursor → Except Fault α} {f : List Value → Except Fault α} {set : ResultSet}

/-- The reader makes this of the rows of the result. -/
def ReadsRow (read : Cursor → Except Fault α) (set : ResultSet) (f : List Value → Except Fault α) : Prop :=
  ∀ c row, c.set = set → c.current = some row → read c = f row

theorem readsRow_materialize (shape : RowShape) (T : RowType) (set : ResultSet) :
    ReadsRow (fun c => c.materialize shape T) set fun row => (onlyRow set.columns row).materialize shape T := by
  rintro c row rfl hrow
  exact (Cursor.SameRow.onlyRow hrow).materialize shape T

theorem readsRow_readAt (set : ResultSet) :
    ReadsRow (fun c => c.readAt 0 none) set fun row => .ok (row[0]?.getD .null) := by
  rintro c row - hrow
  have hvalue : c.value 0 = row[0]?.getD .null := by rw [Cursor.value, hrow, Option.bind_some]
  simp only [Cursor.readAt, hvalue]
  cases row[0]?.getD .null <;> rfl

/-- The loop reads the rows that remain one by one, up to the first that cannot be read, and ends past the last. -/
theorem eachRow_apply (hread : ReadsRow read set f) {fuel : Nat} {c : Cursor} (hset : c.set = set)
    (hfuel : c.remaining.length ≤ fuel) (s : MemorySource) :
    eachRow read fuel c s = ((c.remaining.mapM f).map fun as => (as, set.finished), s) := by
  have hstep (p : Bool × Cursor) (hp : c.advance = p) : (advance c : Run MemorySource _) s = (.ok p, s) := by
    rw [← hp]
    rfl
  induction hrows : c.remaining generalizing fuel c with
  | nil =>
    have hend := Cursor.advance_finished hrows
    rw [eachRow, bind_apply, hstep _ hend, hset]
    rfl
  | cons row rest ih =>
    obtain ⟨hmore, hset', hrow, hrest⟩ := Cursor.advance_of_remaining hrows
    obtain ⟨fuel, rfl⟩ : ∃ n, fuel = n + 1 := ⟨fuel - 1, by rw [hrows, List.length_cons] at hfuel; omega⟩
    have hfuel' : c.advance.2.remaining.length ≤ fuel := by
      rw [hrows, List.length_cons] at hfuel
      rw [hrest]
      omega
    have hadvance : c.advance = (true, c.advance.2) := by rw [← hmore]
    have hloop := ih (hset'.trans hset) hfuel' (fun p hp => by rw [← hp]; rfl) hrest
    rw [eachRow, bind_apply, hstep _ hadvance]
    simp only [if_true]
    rw [bind_apply, hread _ row (hset'.trans hset) hrow, List.mapM_cons]
    cases f row with
    | error fault => rfl
    | ok a =>
      show (eachRow read fuel c.advance.2 >>= fun p => pure (a :: p.1, p.2) : Run MemorySource _) s = _
      rw [bind_apply, hloop]
      cases rest.mapM f <;> rfl

theorem allRows_apply (hread : ReadsRow read set f) {c : Cursor} (hset : c.set = set) (s : MemorySource) :
    allRows read c s = ((c.remaining.mapM f).map fun as => (as, set.finished), s) :=
  eachRow_apply hread hset (Nat.le_refl _) s

theorem drain_apply {c : Cursor} (hset : c.set = set) (s : MemorySource) : drain c s = (.ok set.finished, s) := by
  have hnothing (rows : List (List Value)) : ∃ as, rows.mapM (fun _ => (.ok () : Except Fault Unit)) = .ok as := by
    induction rows with
    | nil => exact ⟨[], rfl⟩
    | cons row rest ih =>
      obtain ⟨as, has⟩ := ih
      exact ⟨() :: as, by rw [List.mapM_cons, has]; rfl⟩
  obtain ⟨as, has⟩ := hnothing c.remaining
  have hread : ReadsRow (fun _ => .ok ()) set fun _ => .ok () := fun _ _ _ _ => rfl
  have hall := allRows_apply hread hset s
  rw [has] at hall
  rw [drain, bind_apply, hall]
  rfl

/-- The first row is read alone, and the others are passed. -/
theorem firstRow_apply (hread : ReadsRow read set f) (s : MemorySource) :
    firstRow read set.cursor s =
      (match set.rows with
        | [] => .ok (none, set.finished)
        | row :: _ => (f row).map fun a => (some a, set.finished), s) := by
  have hstep (p : Bool × Cursor) (hp : set.cursor.advance = p) :
      (advance set.cursor : Run MemorySource _) s = (.ok p, s) := by
    rw [← hp]
    rfl
  have hremaining : set.cursor.remaining = set.rows := rfl
  cases hrows : set.rows with
  | nil =>
    rw [firstRow, bind_apply, hstep _ (Cursor.advance_finished (hremaining.trans hrows))]
    simp only [Bool.false_eq_true, if_false]
    rw [bind_apply, drain_apply rfl]
    rfl
  | cons row rest =>
    obtain ⟨hmore, hset, hrow, -⟩ := Cursor.advance_of_remaining (hremaining.trans hrows)
    have hadvance : set.cursor.advance = (true, set.cursor.advance.2) := by rw [← hmore]
    rw [firstRow, bind_apply, hstep _ hadvance]
    simp only [if_true]
    rw [bind_apply, hread _ row hset hrow]
    cases f row with
    | error fault => rfl
    | ok a =>
      show (drain set.cursor.advance.2 >>= fun c => pure (some a, c) : Run MemorySource _) s = _
      rw [bind_apply, drain_apply hset]
      rfl

end Run

/-- The value at the start of the first row, null if there is none. -/
def ResultSet.firstValue (s : ResultSet) : Value :=
  (s.rows.head?.bind (·[0]?)).getD .null

theorem Run.firstValue_apply (set : ResultSet) (s : MemorySource) :
    firstValue set.cursor s = (.ok (set.firstValue, set.finished), s) := by
  rw [firstValue, bind_apply, firstRow_apply (readsRow_readAt set), ResultSet.firstValue]
  cases set.rows <;> rfl

/-! ## What a mode yields -/

/-- What a statement of some mode yields on a result. -/
def ResultSet.yields (set : ResultSet) (T : RowType) (shape : RowShape) : ResultMode → Except Fault QueryOutput
  | .rows => do
    let rows ← set.rows.mapM fun row => (onlyRow set.columns row).materialize shape T
    pure (.rows rows)
  | .first =>
    match set.rows with
    | [] => .ok (.first none)
    | row :: _ => do
      let v ← (onlyRow set.columns row).materialize shape T
      pure (.first (some v))
  | .count => do
    let n ← countOf set.firstValue
    pure (.count n)
  | .aggregate => .ok (.scalar set.firstValue)

/-- Whatever the mode, the cursor is past the last row once something was read. -/
theorem Run.output_apply (T : RowType) (shape : RowShape) (mode : ResultMode) (set : ResultSet) (s : MemorySource) :
    output T shape mode set.cursor s = ((set.yields T shape mode).map fun out => (out, set.finished), s) := by
  have hread := readsRow_materialize shape T set
  cases mode with
  | rows =>
    rw [output, bind_apply, allRows_apply hread rfl, show set.cursor.remaining = set.rows from rfl]
    simp only [ResultSet.yields]
    cases set.rows.mapM fun row => (onlyRow set.columns row).materialize shape T <;> rfl
  | first =>
    rw [output, bind_apply, firstRow_apply hread, ResultSet.yields]
    cases set.rows with
    | nil => rfl
    | cons row rest =>
      simp only
      cases (onlyRow set.columns row).materialize shape T <;> rfl
  | count =>
    rw [output, bind_apply, firstValue_apply, ResultSet.yields]
    simp only [bind_apply, require]
    cases countOf set.firstValue <;> rfl
  | aggregate =>
    rw [output, bind_apply, firstValue_apply]
    rfl

theorem Query.execute_eq {q : Query} {compiled : Compiled} (hq : q.compile.1 = .ok compiled) {s : MemorySource}
    (hs : s.failure = none) (T : RowType) :
    (execute T q s).1 = s.result.yields T compiled.shape compiled.mode := by
  have hexecute : (execute T q s).1 = (compiled.execute T s).1 := by
    rw [execute, withCompiled]
    rcases hcompile : q.compile with ⟨r, q'⟩
    rw [hcompile] at hq
    cases hq
    rfl
  rw [hexecute, Compiled.execute, Run.statement_apply, hs]
  simp only [Run.bind_apply, Run.output_apply]
  cases s.result.yields T compiled.shape compiled.mode <;> rfl

/-! ## Queries -/

theorem countOf_eq_ok_iff {v : Value} {n : Int64} :
    countOf v = .ok n ↔ (v = .null ∧ n = 0) ∨ v.coerce .int = .ok (.int n) := by
  cases v <;> simp [countOf, Value.coerce, Value.scalarType, bind, Except.bind, pure, Except.pure, eq_comm]

theorem countOf_eq_error_iff {v : Value} {fault : Fault} : countOf v = .error fault ↔ v.coerce .int = .error fault := by
  cases v <;> simp [countOf, Value.coerce, Value.scalarType, bind, Except.bind, pure, Except.pure]

/-- A query on a source in memory, by its mode. All rows: what each row becomes, once and in order, and if some row
becomes nothing, the fault of the first such row. The first row: what that row becomes, whatever the others hold, and
nothing exactly if there is none. The count: the integer at the start of the first row, zero if there is none or a
null, and the fault of any other value there. And where something is yielded, the cursor has been read to its end. -/
theorem Query.reads_rows {q : Query} {compiled : Compiled} (hq : q.compile.1 = .ok compiled) {s : MemorySource}
    (hs : s.failure = none) (T : RowType) :
    let becomes := fun row => (onlyRow s.result.columns row).materialize compiled.shape T
    (compiled.mode = .rows →
      (∀ values, List.Forall₂ (fun row v => becomes row = .ok v) s.result.rows values →
        (fetchAll T q s).1 = .ok values) ∧
      ∀ before row after fault, s.result.rows = before ++ row :: after → (∀ r ∈ before, ∃ v, becomes r = .ok v) →
        becomes row = .error fault → (fetchAll T q s).1 = .error fault) ∧
    (compiled.mode = .first →
      (s.result.rows = [] → (execute T q s).1 = .ok (.first none)) ∧
      ∀ row rest, s.result.rows = row :: rest →
        (execute T q s).1 = (becomes row).map fun v => .first (some v)) ∧
    (compiled.mode = .count →
      (∀ n, (execute T q s).1 = .ok (.count n) ↔
        (s.result.firstValue = .null ∧ n = 0) ∨ s.result.firstValue.coerce .int = .ok (.int n)) ∧
      ∀ fault, (execute T q s).1 = .error fault ↔ s.result.firstValue.coerce .int = .error fault) ∧
    ∀ out, (execute T q s).1 = .ok out → ∀ source : MemorySource,
      Run.output T compiled.shape compiled.mode s.result.cursor source = (.ok (out, s.result.finished), source) := by
  have hexecute := execute_eq hq hs T
  refine ⟨fun hmode => ?_, fun hmode => ?_, fun hmode => ?_, fun out hout source => ?_⟩
  · have hfetch : (fetchAll T q s).1 = s.result.rows.mapM fun row =>
        (onlyRow s.result.columns row).materialize compiled.shape T := by
      have hfetched : (fetchAll T q s).1 = (execute T q s).1.bind _ := rfl
      rw [hfetched, hexecute, hmode]
      simp only [ResultSet.yields]
      cases s.result.rows.mapM fun row => (onlyRow s.result.columns row).materialize compiled.shape T <;> rfl
    refine ⟨fun values hvalues => ?_, fun before row after fault hrows hbefore hrow => ?_⟩
    · rw [hfetch, mapM_eq_ok_iff.mpr hvalues]
    · rw [hfetch, hrows, mapM_append_eq_error hbefore hrow]
  · rw [hexecute, hmode]
    refine ⟨fun hrows => ?_, fun row rest hrows => ?_⟩
    · rw [ResultSet.yields, hrows]
    · rw [ResultSet.yields, hrows]
      simp only
      cases (onlyRow s.result.columns row).materialize compiled.shape T <;> rfl
  · rw [hexecute, hmode]
    refine ⟨fun n => ?_, fun fault => ?_⟩
    · rw [← countOf_eq_ok_iff, ResultSet.yields]
      cases countOf s.result.firstValue <;> simp [bind, Except.bind, pure, Except.pure]
    · rw [← countOf_eq_error_iff, ResultSet.yields]
      cases countOf s.result.firstValue <;> simp [bind, Except.bind, pure, Except.pure]
  · rw [Run.output_apply, ← hexecute, hout]
    rfl

/-- The ages of people, of whom only the age is known. -/
def Query.ages : Chain :=
  (Chain.ofModel (.dynamic (.schema "Person") "Person" "People" [("Age", "Age", some .int)] none)).select (·.member "Age")

/-- A row that is too wide does no harm, a row without values stops the reading of all rows, and is passed where the
first row is read or counted by. -/
theorem Query.reads_rows_ages :
    let age : RowType := ⟨"i64", .slot ⟨.int64, false⟩⟩
    (fetchAll age (ofExpr ages.expr) (MemorySource.ofResult ⟨["Age"], [[.int 30], [.int 41, .null]]⟩)).1 =
        .ok [.scalar (.int 30), .scalar (.int 41)] ∧
      (fetchAll age (ofExpr ages.expr) (MemorySource.ofResult ⟨["Age"], [[.int 30], [], [.text "old"]]⟩)).1 =
        .error (.typeMismatch .int .sqlNull) ∧
      (execute age (ofExpr ages.first.expr) (MemorySource.ofResult ⟨["Age"], [[.int 30], []]⟩)).1 =
        .ok (.first (some (.scalar (.int 30)))) ∧
      (execute age (ofExpr ages.count.expr) (MemorySource.ofResult ⟨["Age"], [[], [.text "old"]]⟩)).1 =
        .ok (.count 0) := by
  refine ⟨?_, ?_, ?_, ?_⟩
  · obtain ⟨hrows, -⟩ := reads_rows (q := ofExpr ages.expr) rfl
      (s := MemorySource.ofResult ⟨["Age"], [[.int 30], [.int 41, .null]]⟩) rfl ⟨"i64", .slot ⟨.int64, false⟩⟩
    exact (hrows rfl).1 _ (.cons rfl (.cons rfl .nil))
  · obtain ⟨hrows, -⟩ := reads_rows (q := ofExpr ages.expr) rfl
      (s := MemorySource.ofResult ⟨["Age"], [[.int 30], [], [.text "old"]]⟩) rfl ⟨"i64", .slot ⟨.int64, false⟩⟩
    refine (hrows rfl).2 [[.int 30]] [] [[.text "old"]] _ rfl ?_ rfl
    rintro r (_ | ⟨_, ⟨⟩⟩)
    exact ⟨.scalar (.int 30), rfl⟩
  · obtain ⟨-, hfirst, -⟩ := reads_rows (q := ofExpr ages.first.expr) rfl
      (s := MemorySource.ofResult ⟨["Age"], [[.int 30], []]⟩) rfl ⟨"i64", .slot ⟨.int64, false⟩⟩
    exact (hfirst rfl).2 [.int 30] [[]] rfl
  · obtain ⟨-, -, hcount, -⟩ := reads_rows (q := ofExpr ages.count.expr) rfl
      (s := MemorySource.ofResult ⟨["Age"], [[], [.text "old"]]⟩) rfl ⟨"i64", .slot ⟨.int64, false⟩⟩
    exact ((hcount rfl).1 0).mpr (.inl ⟨rfl, rfl⟩)

end QueryChain
