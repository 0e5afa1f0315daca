import QueryChain.Rows.Source

/-!
# Transcripts

What a run of the command line tool prints, and how it ends. A run is a `Session` over a monad in which files are
read: over the identity it is a pure function of the files.

* `Fault.causes`: a fault and what lies behind it, outermost first.
* `Stop.message`: the line that a run ends with if it does not end well.
-/

namespace QueryChain

/-- The message of a fault and of what lies behind it, outermost first. -/
def Fault.causes (e : Fault) : List String :=
  match e with
  | .file cause => [e.message, cause.message]
  | e => [e.message]

namespace CommandLine

/-- What a run has printed. -/
structure Transcript where
  out : String
  err : String
deriving DecidableEq, Repr, Inhabited

/-- Nothing printed. -/
def Transcript.empty : Transcript := ⟨"", ""⟩

/-- Why a run ends early. -/
inductive Stop where
  /-- A fault, while something was done that has a name or not. -/
  | fault (activity : Option String) (e : Fault)
  /-- The statement is to be run on a database. -/
  | connects (database : DatabaseSource) (sql : String)

/-- The line that a run ends with. -/
def Stop.message : Stop → String
  | .fault activity e => ": ".intercalate (activity.toList ++ e.causes)
  | .connects database _ => "no connection to '" ++ database.url ++ "'"

/-- A run, over the monad in which files are read. -/
abbrev Session (m : Type → Type) (α : Type) := ExceptT Stop (StateT Transcript m) α

namespace Session

variable {m : Type → Type} [Monad m]

/-- Prints a line. -/
def say (line : String) : Session m Unit :=
  modify fun t => { t with out := t.out ++ line ++ "\n" }

/-- Prints lines. -/
def sayAll (lines : List String) : Session m Unit :=
  lines.forM say

/-- Prints a line among the errors. -/
def warn (line : String) : Session m Unit :=
  modify fun t => { t with err := t.err ++ line ++ "\n" }

/-- What a step yields; its fault ends the run. -/
def require {α : Type} (r : Except Fault α) : Session m α :=
  match r with
  | .ok a => pure a
  | .error e => throw (.fault none e)

/-- What a step with a name yields; its fault ends the run. -/
def requireDoing {α : Type} (activity : String) (r : Except Fault α) : Session m α :=
  match r with
  | .ok a => pure a
  | .error e => throw (.fault (some activity) e)

end Session

end CommandLine

end QueryChain
