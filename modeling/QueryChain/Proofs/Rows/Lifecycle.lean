import QueryChain.Rows.Query

/-!
# Queries and sources over whole runs

A query and a source in memory are used over and over: the options are replaced, the query is compiled, run in one way
or another, or a statement of the caller is run; any of this may fail, for any reason. However it goes, the source is
left closed, with one closing for each opening, and the query holds nothing but what its tree compiles to under the
options that are now in force.

* `Run.statement_keeps`: a statement that is run leaves one mark on the source, whatever comes of it.
* `Use.step_settled`: what one use of a query and a source preserves.
* `Use.run_settled`: what every run preserves, and what the source has been asked by then.
-/

namespace QueryChain

/-! ## Reading leaves a source in memory alone -/

namespace Run

variable {α β : Type}

theorem bind_apply {σ : Type} (m : Run σ α) (f : α → Run σ β) (s : σ) :
    (m >>= f) s =
      match m s with
      | (.ok a, s') => f a s'
      | (.error e, s') => (.error e, s') := by
  simp only [bind, ExceptT.bind, ExceptT.mk, StateT.bind, ExceptT.bindCont]
  rcases m s with ⟨_ | _, s'⟩ <;> rfl

/-- A step that may fail, but leaves the source as it is. -/
def Keeps (m : Run MemorySource α) : Prop :=
  ∀ s, (m s).2 = s

theorem keeps_pure (a : α) : Keeps (pure a) := fun _ => rfl

theorem keeps_require (r : Except Fault α) : Keeps (require r) := fun _ => rfl

theorem Keeps.bind {m : Run MemorySource α} {f : α → Run MemorySource β} (hm : Keeps m) (hf : ∀ a, Keeps (f a)) :
    Keeps (m >>= f) := by
  intro s
  have hs := hm s
  rw [bind_apply]
  rcases h : m s with ⟨r, s'⟩
  rw [h] at hs
  cases r with
  | error e => exact hs
  | ok a => rw [← hs]; exact hf a s'

/-- A cursor over a source in memory asks the source for nothing. -/
theorem keeps_advance (c : Cursor) : Keeps (advance c) := fun _ => rfl

theorem keeps_eachRow (read : Cursor → Except Fault α) (fuel : Nat) (c : Cursor) :
    Keeps (eachRow read fuel c) := by
  induction fuel generalizing c with
  | zero =>
    rw [eachRow]
    refine (keeps_advance c).bind fun (more, c) => ?_
    cases more with
    | false => exact keeps_pure _
    | true => exact (keeps_require _).bind fun a => keeps_pure _
  | succ fuel ih =>
    rw [eachRow]
    refine (keeps_advance c).bind fun (more, c) => ?_
    cases more with
    | false => exact keeps_pure _
    | true => exact (keeps_require _).bind fun a => (ih c).bind fun _ => keeps_pure _

theorem keeps_allRows (read : Cursor → Except Fault α) (c : Cursor) : Keeps (allRows read c) :=
  keeps_eachRow read _ c

theorem keeps_drain (c : Cursor) : Keeps (drain c) :=
  (keeps_allRows _ c).bind fun _ => keeps_pure _

theorem keeps_firstRow (read : Cursor → Except Fault α) (c : Cursor) : Keeps (firstRow read c) := by
  refine (keeps_advance c).bind fun (more, c) => ?_
  cases more with
  | false => exact (keeps_drain c).bind fun _ => keeps_pure _
  | true => exact (keeps_require _).bind fun a => (keeps_drain c).bind fun _ => keeps_pure _

theorem keeps_firstValue (c : Cursor) : Keeps (firstValue c) :=
  (keeps_firstRow _ c).bind fun _ => keeps_pure _

theorem keeps_output (T : RowType) (shape : RowShape) (mode : ResultMode) (c : Cursor) :
    Keeps (output T shape mode c) := by
  cases mode with
  | rows => exact (keeps_allRows _ c).bind fun _ => keeps_pure _
  | first => exact (keeps_firstRow _ c).bind fun _ => keeps_pure _
  | count => exact (keeps_firstValue c).bind fun _ => (keeps_require _).bind fun _ => keeps_pure _
  | aggregate => exact (keeps_firstValue c).bind fun _ => keeps_pure _

end Run

/-! ## Statements -/

namespace MemorySource

/-- The source after it was opened, a statement was prepared and run, and the source was closed. -/
def afterStatement (s : MemorySource) (sql : String) : MemorySource :=
  { s with opened := s.opened + 1, closed := s.closed + 1, isOpen := false, executed := s.executed ++ [sql] }

end MemorySource

open MemorySource

theorem Run.connect_apply (s : MemorySource) :
    (ofSource RowSource.connect : Run MemorySource Unit) s = (.ok (), s.afterConnect) := rfl

theorem Run.disconnect_apply (s : MemorySource) :
    (ofSource RowSource.disconnect : Run MemorySource Unit) s = (.ok (), s.afterDisconnect) := rfl

theorem prepare_apply (sql : String) (s : MemorySource) :
    (RowSource.prepare sql : StateM MemorySource Unit) s = ((), s.afterPrepare) := rfl

/-- An open source answers with its result set, or fails with its message. -/
theorem Run.run_apply {s : MemorySource} (h : s.isOpen = true) (sql : String) :
    (ofSource (RowSource.run sql) : Run MemorySource Cursor) s =
      match s.failure with
      | some message => (.error (.source message), s.afterRun sql)
      | none => (.ok s.result.cursor, s.afterRun sql) := by
  have hrun : (RowSource.run sql : SourceStep MemorySource Cursor) s = (s.answer, s.afterRun sql) := rfl
  rw [ofSource, hrun, answer, if_pos h]
  cases s.failure <;> rfl

/-- What is read after a statement was run is read from an open source, and the source is closed whatever comes of
it. -/
theorem Run.statement_apply {α : Type} (sql : String) (read : Cursor → Run MemorySource α) (s : MemorySource) :
    statement sql read s =
      match s.failure with
      | some message => (.error (.source message), s.afterStatement sql)
      | none =>
        ((read s.result.cursor (s.afterConnect.afterRun sql)).1,
          (read s.result.cursor (s.afterConnect.afterRun sql)).2.afterDisconnect) := by
  have hopen : s.afterConnect.isOpen = true := rfl
  have hprepare : s.afterConnect.afterPrepare = s.afterConnect := rfl
  have hfailure : s.afterConnect.failure = s.failure := rfl
  have hresult : s.afterConnect.result = s.result := rfl
  simp only [statement, bind_apply, connect_apply, prepare_apply, hprepare, run_apply hopen, hfailure, hresult,
    disconnect_apply]
  cases s.failure with
  | some message => rfl
  | none =>
    rcases h : read s.result.cursor (s.afterConnect.afterRun sql) with ⟨outcome, s'⟩
    cases outcome <;> simp only [h]

/-- A statement leaves its mark on the source, no matter whether it fails, or reading what it answers does. -/
theorem Run.statement_keeps {α : Type} (sql : String) {read : Cursor → Run MemorySource α}
    (hread : ∀ c, Keeps (read c)) (s : MemorySource) : (statement sql read s).2 = s.afterStatement sql := by
  rw [statement_apply]
  cases s.failure with
  | some message => rfl
  | none =>
    show (read s.result.cursor (s.afterConnect.afterRun sql)).2.afterDisconnect = _
    rw [hread]
    rfl

theorem Compiled.execute_source (compiled : Compiled) (T : RowType) (s : MemorySource) :
    (compiled.execute T s).2 = s.afterStatement compiled.sql :=
  Run.statement_keeps _ (fun c => (Run.keeps_output T _ _ c).bind fun _ => Run.keeps_pure _) s

theorem fetchRaw_source (sql : String) (s : MemorySource) : (fetchRaw sql s).2 = s.afterStatement sql :=
  Run.statement_keeps _ (fun c => (Run.keeps_allRows _ c).bind fun _ => Run.keeps_pure _) s

/-! ## Queries -/

namespace Query

variable {e : Expr} {o : Options} {q : Query}

/-- A query of this tree and these options that holds nothing, or what the tree compiles to under the options. -/
structure Holds (q : Query) (e : Expr) (o : Options) : Prop where
  expr : q.expr = e
  options : q.options = o
  compiled : q.compiled = none ∨ ∃ c, q.compiled = some c ∧ e.compile o = .ok c

theorem holds_mk (e : Expr) (o : Options) : Holds ⟨e, o, none⟩ e o := ⟨rfl, rfl, Or.inl rfl⟩

theorem Holds.withOptions (h : q.Holds e o) (o' : Options) : (q.withOptions o').Holds e o' :=
  ⟨h.expr, rfl, Or.inl rfl⟩

/-- Compiling answers what the tree compiles to under the options in force, whether it was compiled before or not, and
the query goes on to hold nothing else. -/
theorem Holds.compile (h : q.Holds e o) : q.compile.1 = e.compile o ∧ q.compile.2.Holds e o := by
  obtain ⟨rfl, rfl, hcompiled⟩ := h
  rcases hcompiled with hnone | ⟨c, hsome, hc⟩
  · cases hc : q.expr.compile q.options with
    | error f =>
      have hq : q.compile = (.error f, q) := by simp only [Query.compile, hnone, hc]
      rw [hq]
      exact ⟨rfl, rfl, rfl, Or.inl hnone⟩
    | ok c =>
      have hq : q.compile = (.ok c, { q with compiled := some c }) := by simp only [Query.compile, hnone, hc]
      rw [hq]
      exact ⟨rfl, rfl, rfl, Or.inr ⟨c, rfl, hc⟩⟩
  · have hq : q.compile = (.ok c, q) := by simp only [Query.compile, hsome]
    rw [hq]
    exact ⟨hc.symm, rfl, rfl, Or.inr ⟨c, hsome, hc⟩⟩

/-- A query that is run is compiled, and the source is left alone unless that succeeds. -/
theorem execute_snd (T : RowType) (q : Query) (s : MemorySource) :
    (execute T q s).2 =
      (q.compile.2, match q.compile.1 with
        | .ok c => s.afterStatement c.sql
        | .error _ => s) := by
  rw [execute, withCompiled]
  rcases q.compile with ⟨r, q'⟩
  cases r with
  | error f => rfl
  | ok c =>
    show (q', (c.execute T s).2) = _
    rw [Compiled.execute_source]

end Query

/-! ## Uses of a query and a source -/

/-- A source at rest: closed, with one closing for each opening, never asked for anything while it was closed, and
with these statements behind it. -/
structure MemorySource.IsIdle (s : MemorySource) (log : List String) : Prop where
  balanced : s.opened = s.closed
  isOpen : s.isOpen = false
  prepared : s.preparedWhileClosed = 0
  executed : s.executed = log

theorem MemorySource.IsIdle.afterStatement {s : MemorySource} {log : List String} (h : s.IsIdle log) (sql : String) :
    (s.afterStatement sql).IsIdle (log ++ [sql]) :=
  ⟨congrArg (· + 1) h.balanced, rfl, h.prepared, congrArg (· ++ [sql]) h.executed⟩

/-- A new source, which answers with a result set or fails with a message. -/
def MemorySource.start : ResultSet ⊕ String → MemorySource :=
  Sum.elim ofResult failing

theorem MemorySource.isIdle_start (answer : ResultSet ⊕ String) : (start answer).IsIdle [] := by
  cases answer <;> exact ⟨rfl, rfl, rfl, rfl⟩

/-- One use of a query and a source. -/
inductive Use where
  | withOptions (o : Options)
  | compile
  | sql
  | execute (T : RowType)
  | fetchAll (T : RowType)
  | fetchFirst (T : RowType)
  | fetchCount (T : RowType)
  | fetchScalar (T : RowType)
  /-- Runs a statement of the caller, which has nothing to do with the query. -/
  | fetchRaw (text : String)

namespace Use

/-- What becomes of the query and the source; how the use ends is for the caller only. -/
def step (u : Use) (q : Query) (s : MemorySource) : Query × MemorySource :=
  match u with
  | .withOptions o => (q.withOptions o, s)
  | .compile => (q.compile.2, s)
  | .sql => (q.sql.2, s)
  | .execute T => (Query.execute T q s).2
  | .fetchAll T => (Query.fetchAll T q s).2
  | .fetchFirst T => (Query.fetchFirst T q s).2
  | .fetchCount T => (Query.fetchCount T q s).2
  | .fetchScalar T => (Query.fetchScalar T q s).2
  | .fetchRaw text => (q, (QueryChain.fetchRaw text s).2)

/-- One use after another. -/
def run : List Use → Query → MemorySource → Query × MemorySource
  | [], q, s => (q, s)
  | u :: us, q, s => run us (u.step q s).1 (u.step q s).2

/-- Whether the query is compiled for this use. -/
def compiles : Use → Bool
  | .withOptions _ | .fetchRaw _ => false
  | _ => true

/-- The statement that the source is asked for, of a query of this tree under these options. -/
def statement? (e : Expr) (o : Options) : Use → Option String
  | .withOptions _ | .compile | .sql => none
  | .fetchRaw text => some text
  | .execute _ | .fetchAll _ | .fetchFirst _ | .fetchCount _ | .fetchScalar _ =>
    (e.compile o).toOption.map (·.sql)

/-- The options in force after a use. -/
def optionsAfter (o : Options) : Use → Options
  | .withOptions o' => o'
  | _ => o

/-- The options in force after one use after another. -/
def optionsAfterAll (o : Options) (us : List Use) : Options :=
  us.foldl optionsAfter o

/-- The statements that the source is asked for, each under the options in force by then. -/
def statements (e : Expr) : Options → List Use → List String
  | _, [] => []
  | o, u :: us => (u.statement? e o).toList ++ statements e (u.optionsAfter o) us

variable {e : Expr} {o : Options} {q : Query} {s : MemorySource} {log : List String}

/-- Running the query leaves the mark of the statement that it compiles to, or none. -/
theorem execute_settled (hq : q.Holds e o) (hs : s.IsIdle log) (T : RowType) :
    (Query.execute T q s).2.1.Holds e o ∧
      (Query.execute T q s).2.2.IsIdle (log ++ ((e.compile o).toOption.map (·.sql)).toList) := by
  obtain ⟨hresult, hholds⟩ := hq.compile
  rw [Query.execute_snd, hresult]
  refine ⟨hholds, ?_⟩
  cases e.compile o with
  | error f =>
    show s.IsIdle (log ++ [])
    rw [List.append_nil]
    exact hs
  | ok c => exact hs.afterStatement c.sql

/-- What one use of a query and a source preserves. -/
theorem step_settled (hq : q.Holds e o) (hs : s.IsIdle log) (u : Use) :
    (u.step q s).1.Holds e (u.optionsAfter o) ∧
      (u.step q s).2.IsIdle (log ++ (u.statement? e o).toList) := by
  have hidle : s.IsIdle (log ++ []) := by rwa [List.append_nil]
  cases u with
  | withOptions o' => exact ⟨hq.withOptions o', hidle⟩
  | compile | sql => exact ⟨hq.compile.2, hidle⟩
  | execute T | fetchAll T | fetchFirst T | fetchCount T | fetchScalar T => exact execute_settled hq hs T
  | fetchRaw text =>
    refine ⟨hq, ?_⟩
    rw [step, fetchRaw_source]
    exact hs.afterStatement text

/-- What one use after another preserves. -/
theorem run_preserves (hq : q.Holds e o) (hs : s.IsIdle log) (us : List Use) :
    (run us q s).1.Holds e (optionsAfterAll o us) ∧ (run us q s).2.IsIdle (log ++ statements e o us) := by
  induction us generalizing q s o log with
  | nil => exact ⟨hq, by simpa [run, statements] using hs⟩
  | cons u us ih =>
    obtain ⟨hq', hs'⟩ := step_settled hq hs u
    rw [statements, ← List.append_assoc]
    exact ih hq' hs'

/-- A use for which the query does not compile leaves the source as it is. -/
theorem step_of_compile_eq_error (hq : q.Holds e o) {f : Fault} (hf : e.compile o = .error f) {u : Use}
    (hu : u.compiles = true) (s : MemorySource) : (u.step q s).2 = s := by
  have hresult : q.compile.1 = .error f := hq.compile.1.trans hf
  have hexecute (T : RowType) : (Query.execute T q s).2.2 = s := by
    rw [Query.execute_snd, hresult]
  cases u with
  | withOptions _ | fetchRaw _ => cases hu
  | compile | sql => rfl
  | execute T | fetchAll T | fetchFirst T | fetchCount T | fetchScalar T => exact hexecute T

/-- However a new query and a new source are used, and whatever fails on the way: the query holds nothing but what its
tree compiles to under the options in force, the source is closed with one closing for each opening and was asked for
nothing while closed, it has run the statements that the uses compiled to under the options of their time and those of
the caller, in order, and a use for which the query does not compile leaves it as it is. -/
theorem run_settled (e : Expr) (o : Options) (answer : ResultSet ⊕ String) (us : List Use) :
    (run us ⟨e, o, none⟩ (.start answer)).1.Holds e (optionsAfterAll o us) ∧
      (run us ⟨e, o, none⟩ (.start answer)).2.IsIdle (statements e o us) ∧
      ∀ (u : Use) (f : Fault), u.compiles = true → e.compile (optionsAfterAll o us) = .error f →
        (u.step (run us ⟨e, o, none⟩ (.start answer)).1 (run us ⟨e, o, none⟩ (.start answer)).2).2 =
          (run us ⟨e, o, none⟩ (.start answer)).2 := by
  obtain ⟨hq, hs⟩ := run_preserves (Query.holds_mk e o) (MemorySource.isIdle_start answer) us
  rw [List.nil_append] at hs
  exact ⟨hq, hs, fun u f hu hf => step_of_compile_eq_error hq hf hu _⟩

/-- A query that never compiles never reaches the source, which goes on with the statements of the caller. -/
theorem run_settled_unbound :
    (Expr.param "x" .unknown).compile .standard = .error (.unbound "x") ∧
      (run [.sql, .fetchRaw "SELECT 1"] ⟨.param "x" .unknown, .standard, none⟩ (.start (.inr "lost"))).2.IsIdle
        ["SELECT 1"] ∧
      (step (.fetchFirst ⟨"Value", .scalar⟩)
        (run [.sql, .fetchRaw "SELECT 1"] ⟨.param "x" .unknown, .standard, none⟩ (.start (.inr "lost"))).1
        (run [.sql, .fetchRaw "SELECT 1"] ⟨.param "x" .unknown, .standard, none⟩ (.start (.inr "lost"))).2).2 =
        (run [.sql, .fetchRaw "SELECT 1"] ⟨.param "x" .unknown, .standard, none⟩ (.start (.inr "lost"))).2 := by
  have hsettled := run_settled (.param "x" .unknown) .standard (.inr "lost") [.sql, .fetchRaw "SELECT 1"]
  exact ⟨rfl, hsettled.2.1, hsettled.2.2 (.fetchFirst ⟨"Value", .scalar⟩) (.unbound "x") rfl rfl⟩

end Use

end QueryChain
