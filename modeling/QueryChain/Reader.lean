/-!
# Readers of text

A reader takes characters and ends in one of three ways: it has read a value and leaves the rest, it has
missed, so that an alternative may be tried from the start, or it halts, so that none may. A miss and a halt
name what was expected, and the rest from where it was.

* `Reader.many`: repeats a reader until it misses.
* `Reader.separated`: a list with separators; a separator with nothing after it is left unread.
-/

namespace QueryChain

/-- What a reader expected and did not find. -/
inductive Expected where
  /-- A character of a class. -/
  | satisfy
  /-- A given character. -/
  | char
  /-- A given word. -/
  | tag
  /-- A digit. -/
  | digit
  /-- A character outside a set. -/
  | noneOf
  /-- A text with a meaning, such as a date. -/
  | verify
  /-- The absence of something. -/
  | not
  /-- A value that can be converted. -/
  | mapOpt
  /-- Progress in a repetition. -/
  | many0
  /-- Progress in a list. -/
  | separatedList
deriving DecidableEq, Repr

/-- The name of an expectation in messages. -/
def Expected.name : Expected → String
  | .satisfy => "Satisfy"
  | .char => "Char"
  | .tag => "Tag"
  | .digit => "Digit"
  | .noneOf => "NoneOf"
  | .verify => "Verify"
  | .not => "Not"
  | .mapOpt => "MapOpt"
  | .many0 => "Many0"
  | .separatedList => "SeparatedList"

/-- How a reader ends. -/
inductive Outcome (α : Type) where
  /-- A value was read, and the rest is left. -/
  | read (value : α) (rest : List Char)
  /-- Nothing was read; an alternative may be tried. -/
  | miss (rest : List Char) (expected : Expected)
  /-- Nothing was read; no alternative is tried. -/
  | halt (rest : List Char) (expected : Expected)

/-- A function that reads a value off the front of a text. -/
def Reader (α : Type) := List Char → Outcome α

namespace Reader

variable {α β : Type}

/-! ## Sequence and choice -/

/-- Reads nothing. -/
protected def pure (a : α) : Reader α := fun s => .read a s

/-- Reads one thing after another. -/
protected def bind (p : Reader α) (f : α → Reader β) : Reader β := fun s =>
  match p s with
  | .read a rest => f a rest
  | .miss rest e => .miss rest e
  | .halt rest e => .halt rest e

instance : Monad Reader where
  pure := Reader.pure
  bind := Reader.bind

/-- Tries the second reader where the first misses. -/
def orElse (p q : Reader α) : Reader α := fun s =>
  match p s with
  | .miss _ _ => q s
  | outcome => outcome

/-- Reads something or nothing. -/
def optional (p : Reader α) : Reader (Option α) := fun s =>
  match p s with
  | .read a rest => .read (some a) rest
  | .miss _ _ => .read none s
  | .halt rest e => .halt rest e

/-- Misses where the reader reads something, and reads nothing where it misses. -/
def absent (p : Reader α) : Reader Unit := fun s =>
  match p s with
  | .read _ _ => .miss s .not
  | .miss _ _ => .read () s
  | .halt rest e => .halt rest e

/-- Converts what was read, and misses at the start where that fails. -/
def convert (p : Reader α) (f : α → Option β) : Reader β := fun s =>
  match p s with
  | .read a rest => match f a with
    | some b => .read b rest
    | none => .miss s .mapOpt
  | .miss rest e => .miss rest e
  | .halt rest e => .halt rest e

/-! ## Characters -/

/-- A character of a class. -/
def satisfy (p : Char → Bool) : Reader Char
  | c :: rest => if p c then .read c rest else .miss (c :: rest) .satisfy
  | [] => .miss [] .satisfy

/-- A given character. -/
def char (c : Char) : Reader Unit
  | d :: rest => if d = c then .read () rest else .miss (d :: rest) .char
  | [] => .miss [] .char

/-- The rest after a word that a text begins with. -/
def dropWord : List Char → List Char → Option (List Char)
  | [], s => some s
  | _ :: _, [] => none
  | c :: word, d :: s => if c = d then dropWord word s else none

/-- A given word. -/
def word (w : String) : Reader Unit := fun s =>
  match dropWord w.toList s with
  | some rest => .read () rest
  | none => .miss s .tag

/-- As many characters of a class as there are. -/
def takeWhile (p : Char → Bool) : Reader (List Char) := fun s =>
  .read (s.takeWhile p) (s.dropWhile p)

/-- Blanks between tokens: spaces, tabs and line ends. -/
def isSpace (c : Char) : Bool :=
  c = ' ' || c = '\t' || c = '\r' || c = '\n'

/-- Skips blanks. -/
def spaces : Reader Unit := fun s => .read () (s.dropWhile isSpace)

/-- `ws`: skips blanks on both sides. -/
def spaced (p : Reader α) : Reader α := do
  spaces
  let a ← p
  spaces
  pure a

/-! ## Repetition -/

/-- Repeats a reader at most `fuel + 1` times; one that reads nothing is a miss. -/
def manyUpTo (p : Reader α) : Nat → Reader (List α)
  | fuel, s =>
    match p s with
    | .miss _ _ => .read [] s
    | .halt rest e => .halt rest e
    | .read a rest =>
      if rest.length < s.length then
        match fuel with
        | 0 => .read [a] rest
        | fuel + 1 => match manyUpTo p fuel rest with
          | .read more rest => .read (a :: more) rest
          | outcome => outcome
      else .miss s .many0

/-- Repeats a reader until it misses. -/
def many (p : Reader α) : Reader (List α) := fun s => manyUpTo p s.length s

/-- A separator and an item, repeated at most `fuel` times. -/
def moreUpTo (separator : Reader Unit) (item : Reader α) : Nat → Reader (List α)
  | 0, s => .read [] s
  | fuel + 1, s =>
    match separator s with
    | .miss _ _ => .read [] s
    | .halt rest e => .halt rest e
    | .read () rest =>
      if rest.length < s.length then
        match item rest with
        | .miss _ _ => .read [] s
        | .halt rest e => .halt rest e
        | .read a rest => match moreUpTo separator item fuel rest with
          | .read more rest => .read (a :: more) rest
          | outcome => outcome
      else .miss rest .separatedList

/-- One item or more, with separators between them. -/
def separated1 (separator : Reader Unit) (item : Reader α) : Reader (List α) := fun s =>
  match item s with
  | .read a rest => match moreUpTo separator item rest.length rest with
    | .read more rest => .read (a :: more) rest
    | outcome => outcome
  | .miss rest e => .miss rest e
  | .halt rest e => .halt rest e

/-- Any number of items, with separators between them. -/
def separated (separator : Reader Unit) (item : Reader α) : Reader (List α) := fun s =>
  match separated1 separator item s with
  | .miss _ _ => .read [] s
  | outcome => outcome

end Reader

end QueryChain
