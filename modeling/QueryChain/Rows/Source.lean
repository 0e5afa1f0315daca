import QueryChain.Rows.Cursor

/-!
# Row sources

A row source is opened, runs statements that yield cursors, and is closed. Every step may fail, and changes the
source whether it fails or not.

* `RowSource`: what a source can do.
* `MemorySource`: a source that answers every statement with one result set, or one failure, and keeps count
  of what it was asked.
* `DatabaseSource`: a source at an address, of which nothing is modelled but that it must be opened first.
-/

namespace QueryChain

/-- A step of a source: it changes the source, and may fail with a message. -/
abbrev SourceStep (σ : Type) (α : Type) := ExceptT String (StateM σ) α

/-- `RowSource`: what a row source can do. -/
class RowSource (σ : Type) where
  /-- Opens the connection. -/
  connect : SourceStep σ Unit
  /-- Prepares a statement. -/
  prepare : String → StateM σ Unit
  /-- Runs a statement. -/
  run : String → SourceStep σ Cursor
  /-- What happens before a cursor goes to its next row. -/
  beforeAdvance : SourceStep σ Unit
  /-- Closes the connection. -/
  disconnect : SourceStep σ Unit

/-! ## In memory -/

/-- `MemorySource`: a source that answers every statement alike. -/
structure MemorySource where
  result : ResultSet
  /-- The message of the failure that every statement meets, if there is one. -/
  failure : Option String
  /-- The statements run, in order. -/
  executed : List String
  opened : Nat
  closed : Nat
  isOpen : Bool
  /-- The number of statements prepared while the source was closed. -/
  preparedWhileClosed : Nat
deriving Inhabited

namespace MemorySource

/-- A source that answers with a result set. -/
def ofResult (result : ResultSet) : MemorySource := ⟨result, none, [], 0, 0, false, 0⟩

/-- `failing`: a source on which every statement fails. -/
def failing (message : String) : MemorySource := ⟨⟨[], []⟩, some message, [], 0, 0, false, 0⟩

/-- `open`: the source after it was opened. -/
def afterConnect (s : MemorySource) : MemorySource :=
  { s with opened := s.opened + 1, isOpen := true }

/-- `create_command`: the source after a statement was prepared. -/
def afterPrepare (s : MemorySource) : MemorySource :=
  if s.isOpen then s else { s with preparedWhileClosed := s.preparedWhileClosed + 1 }

/-- `execute`: the source after a statement was run. -/
def afterRun (s : MemorySource) (sql : String) : MemorySource :=
  if s.isOpen then { s with executed := s.executed ++ [sql] } else s

/-- `close`: the source after it was closed. -/
def afterDisconnect (s : MemorySource) : MemorySource :=
  { s with closed := s.closed + 1, isOpen := false }

/-- The answer to a statement. -/
def answer (s : MemorySource) : Except String Cursor :=
  if s.isOpen then
    match s.failure with
    | some message => .error message
    | none => .ok s.result.cursor
  else .error "source is not open"

end MemorySource

instance : RowSource MemorySource where
  connect := modify MemorySource.afterConnect
  prepare _ := modify MemorySource.afterPrepare
  run sql := fun s => (s.answer, s.afterRun sql)
  beforeAdvance := pure ()
  disconnect := modify MemorySource.afterDisconnect

/-! ## Databases -/

/-- `DatabaseSource`: a database that can be reached through its address. -/
structure DatabaseSource where
  url : String
  dialect : Dialect
deriving DecidableEq

namespace DatabaseSource

/-- `new`: the database at an address, if there is a driver for it. -/
def ofUrl (url : String) : Except Fault DatabaseSource :=
  match Dialect.ofUrl url with
  | some .sqlite => .ok ⟨url, .sqlite⟩
  | some .postgres => .ok ⟨url, .postgres⟩
  | _ => .error (.settings (.noDriver url))

/-- The failure of a statement on a database that was not opened. -/
def notOpen : String := "database source is not open"

end DatabaseSource

end QueryChain
