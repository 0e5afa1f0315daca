import QueryChain.Toml.Token

/-!
# TOML documents

A document is read line by line into a tree of tables. A table is defined once: by a header, by dotted keys within
another table, or in braces. Tables on the way to a header or a dotted key are made as needed; a header may
define one that was made for a longer header, and dotted keys may only extend what dotted keys made.

* `Toml.Value`: a document once its tables are settled.
* `Toml.Table.assign`, `Toml.Table.define`: a key and value, and a header.
* `Toml.read`: the table of a document.
-/

namespace QueryChain.Toml

open Reader

/-! ## Values -/

/-- A TOML value. -/
inductive Value where
  | string (s : String)
  | integer (n : Int64)
  | float (x : Float)
  | boolean (b : Bool)
  | dateTime
  | array (items : List Value)
  | table (entries : List (String × Value))
deriving Inhabited

/-- A scalar as a value. -/
def Value.ofScalar : Scalar → Value
  | .string s => .string s
  | .integer n => .integer n
  | .float x => .float x
  | .boolean b => .boolean b
  | .dateTime => .dateTime

/-- How a table came to be. -/
structure Origin where
  /-- It was made on the way to another. -/
  implicit : Bool
  /-- It was made by dotted keys. -/
  dotted : Bool

mutual

/-- What a key of a table under construction stands for. -/
inductive Node where
  | value (v : Value)
  | table (t : Table)
  /-- An array of tables, the last one last. -/
  | tables (ts : List Table)

/-- A table under construction. -/
inductive Table where
  | mk (origin : Origin) (entries : List (String × Node))

end

namespace Table

/-- How the table came to be. -/
def origin : Table → Origin
  | .mk o _ => o

/-- The entries of the table. -/
def entries : Table → List (String × Node)
  | .mk _ es => es

/-- An empty table of a header, or a whole document. -/
def explicit : Table := .mk ⟨false, false⟩ []

/-- An empty table on the way to another. -/
def onTheWay (dotted : Bool) : Table := .mk ⟨true, dotted⟩ []

/-- Replaces an entry, or adds it at the end. -/
def putIn (key : String) (n : Node) : List (String × Node) → List (String × Node)
  | [] => [(key, n)]
  | (k, m) :: rest => if k = key then (k, n) :: rest else (k, m) :: putIn key n rest

/-- Replaces an entry, or adds it at the end. -/
def put (t : Table) (key : String) (n : Node) : Table :=
  .mk t.origin (putIn key n t.entries)

/-- The entry of a key. -/
def find (t : Table) (key : String) : Option Node := t.entries.lookup key

/-- Changes the table at the end of a path, and makes those on the way that are not there. Dotted keys may
not enter tables that were defined otherwise. -/
def changeAt (dotted : Bool) (change : Table → Option Table) : List String → Table → Option Table
  | [], t => change t
  | key :: path, t =>
    match t.find key with
    | none => do
      let inner ← changeAt dotted change path (onTheWay dotted)
      some (t.put key (.table inner))
    | some (.table inner) =>
      if dotted && !inner.origin.implicit then none
      else do
        let inner ← changeAt dotted change path inner
        some (t.put key (.table inner))
    | some (.tables ts) => do
      let last ← ts.getLast?
      let last ← changeAt dotted change path last
      some (t.put key (.tables (ts.dropLast ++ [last])))
    | some (.value _) => none

/-- Gives a key a value, once. -/
def insertOnce (path : List String) (key : String) (v : Value) (t : Table) : Option Table :=
  if t.origin.dotted = path.isEmpty then none
  else match t.find key with
    | some _ => none
    | none => some (t.put key (.value v))

/-- A line with a key and a value, within the table of a header. -/
def assign (t : Table) (keys : List String) (v : Value) : Option Table :=
  match keys.getLast? with
  | some key => changeAt true (insertOnce keys.dropLast key v) keys.dropLast t
  | none => none

/-- What the header of a table starts from: nothing, or a table made on the way to another. -/
def startOf (t : Table) (key : String) : Option Table :=
  match t.find key with
  | none => some explicit
  | some (.table inner) =>
    if inner.origin.implicit && !inner.origin.dotted then some (.mk ⟨false, false⟩ inner.entries)
    else none
  | some _ => none

/-- Appends a table to an array of tables. -/
def appendTo (key : String) (t : Table) : Option Table :=
  match t.find key with
  | none => some (t.put key (.tables [explicit]))
  | some (.tables ts) => some (t.put key (.tables (ts ++ [explicit])))
  | some _ => none

/-- The header of a table, or of the next table of an array. -/
def define (t : Table) (path : List String) (array : Bool) : Option Table :=
  match path.getLast? with
  | none => none
  | some key =>
    changeAt false (fun parent =>
      if array then appendTo key parent
      else do
        let start ← startOf parent key
        some (parent.put key (.table start))) path.dropLast t

/-- Changes the table of a header, which is the last of an array of tables. -/
def changeHeader (change : Table → Option Table) : List String → Table → Option Table :=
  changeAt false change

end Table

mutual

/-- What a key of a finished table stands for. -/
def Node.settle : Node → Value
  | .value v => v
  | .table t => .table (Table.settle t)
  | .tables ts => .array (settleAll ts)

/-- The entries of a finished table. -/
def Table.settle : Table → List (String × Value)
  | .mk _ es => settleEntries es

/-- The tables of an array. -/
def settleAll : List Table → List Value
  | [] => []
  | t :: rest => .table (Table.settle t) :: settleAll rest

/-- The entries of a table. -/
def settleEntries : List (String × Node) → List (String × Value)
  | [] => []
  | e :: rest => settleEntry e :: settleEntries rest

/-- An entry of a table. -/
def settleEntry : String × Node → String × Value
  | (key, n) => (key, n.settle)

end

/-! ## Reading values -/

/-- The table of pairs in braces. -/
def inlineTable (pairs : List (List String × Value)) : Option Value :=
  (pairs.foldlM (fun (t : Table) (keys, v) => t.assign keys v) Table.explicit).map
    fun (t : Table) => Value.table (Table.settle t)

/-- An array, given a reader for its items. -/
def arrayOf (item : Reader Value) : Reader Value := do
  char '['
  gap
  let items ← separated (do gap; char ','; gap) item
  gap
  let _ ← (char ',').optional
  gap
  char ']'
  pure (.array items)

/-- A table in braces, given a reader for its values. -/
def bracedOf (item : Reader Value) : Reader Value :=
  (do
    char '\x7b'
    blanks
    let pairs ← separated (char ',') (do
      let keys ← key
      char '='
      blanks
      let v ← item
      blanks
      pure (keys, v))
    blanks
    char '\x7d'
    pure pairs).convert inlineTable

/-- A value with at most so many levels of nesting. -/
def value : Nat → Reader Value
  | 0 => do
    let v ← scalar
    pure (.ofScalar v)
  | depth + 1 =>
    (do
      let v ← scalar
      pure (Value.ofScalar v)).orElse <|
      (arrayOf (value depth)).orElse (bracedOf (value depth))

/-! ## Reading lines -/

/-- A line that is not blank. -/
inductive Line where
  | assign (keys : List String) (v : Value)
  | header (path : List String) (array : Bool)

/-- A key and a value. -/
def assignment : Reader Line := do
  let keys ← key
  char '='
  blanks
  let v ← value (depthLimit - 1)
  lineRest
  pure (.assign keys v)

/-- A header of an array of tables. -/
def arrayHeader : Reader Line := do
  word "[["
  let path ← key
  word "]]"
  lineRest
  pure (.header path true)

/-- A header of a table. -/
def tableHeader : Reader Line := do
  char '['
  let path ← key
  char ']'
  lineRest
  pure (.header path false)

/-- One line, or a blank one. -/
def line : Reader (Option Line) := do
  blanks
  let l ← ((do newline; pure none).orElse <| (do comment; newline.orElse endOfText; pure none).orElse <|
    (do let l ← arrayHeader.orElse tableHeader; pure (some l)).orElse
    (do let l ← assignment; pure (some l)) : Reader (Option Line))
  pure l

/-- A document under construction: its root, and the path of the last header. -/
structure Draft where
  root : Table
  path : List String

/-- Takes a line into a document. -/
def Draft.add (d : Draft) : Line → Option Draft
  | .assign keys v => do
    let root ← Table.changeHeader (·.assign keys v) d.path d.root
    some { d with root }
  | .header path array => do
    let root ← d.root.define path array
    some ⟨root, path⟩

/-- The mark that may stand at the start of a text. -/
def dropByteOrderMark : List Char → List Char
  | c :: rest => if c = Char.ofNat 0xfeff then rest else c :: rest
  | [] => []

/-- The entries of a document. -/
def read (text : String) : Option (List (String × Value)) := do
  let document : Reader (List (Option Line)) := do
    let lines ← line.many
    blanks
    endOfText
    pure lines
  match document (dropByteOrderMark text.toList) with
  | .read lines _ =>
    let d ← (lines.filterMap id).foldlM Draft.add ⟨Table.explicit, []⟩
    some d.root.settle
  | _ => none

end QueryChain.Toml
