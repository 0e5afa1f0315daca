import QueryChain.Calendar.Date
import QueryChain.Decimal.Reading
import QueryChain.Reader

/-!
# Tokens of TOML

Keys, strings, numbers, truth values and dates of TOML 1.0.

* `Toml.Scalar`: the values that are written as one token.
* `Toml.scalar`: reads one.
-/

namespace QueryChain.Toml

open Reader Decimal

/-- A value that is written as one token. Dates and times keep no content. -/
inductive Scalar where
  | string (s : String)
  | integer (n : Int64)
  | float (x : Float)
  | boolean (b : Bool)
  | dateTime

/-! ## Blanks, comments and line ends -/

/-- A blank within a line. -/
def isBlankInLine (c : Char) : Bool := c = ' ' || c = '\t'

/-- Blanks within a line. -/
def blanks : Reader Unit := fun s => .read () (s.dropWhile isBlankInLine)

/-- A character beyond ASCII. -/
def isWide (c : Char) : Bool := 0x80 ≤ c.toNat

/-- A character that may stand in a comment: no control but the tab. -/
def isCommentChar (c : Char) : Bool :=
  c = '\t' || (0x20 ≤ c.toNat && c.toNat ≤ 0x7e) || isWide c

/-- A line end. -/
def newline : Reader Unit :=
  (char '\n').orElse (do char '\r'; char '\n')

/-- A comment up to the end of its line. -/
def comment : Reader Unit := do
  char '#'
  let _ ← Reader.takeWhile isCommentChar
  pure ()

/-- The end of the text. -/
def endOfText : Reader Unit
  | [] => .read () []
  | s => .miss s .not

/-- What may follow on a line: blanks, a comment, and the line end or the end of the text. -/
def lineRest : Reader Unit := do
  blanks
  let _ ← comment.optional
  newline.orElse endOfText

/-- Blanks, line ends and comments. -/
def gap : Reader Unit := do
  let _ ← Reader.many <|
    (do let _ ← Reader.satisfy isBlankInLine; pure ()).orElse <| newline.orElse comment
  pure ()

/-! ## Strings -/

/-- A hexadecimal digit. -/
def isHexDigit (c : Char) : Bool :=
  c.isDigit || ('a' ≤ c && c ≤ 'f') || ('A' ≤ c && c ≤ 'F')

/-- The number that a digit of any base up to sixteen stands for. -/
def digitValue (c : Char) : Nat :=
  if c.isDigit then c.toNat - '0'.toNat
  else if 'a' ≤ c ∧ c ≤ 'f' then c.toNat - 'a'.toNat + 10
  else c.toNat - 'A'.toNat + 10

/-- The number that digits of a base denote. -/
def ofDigits (base : Nat) (ds : List Char) : Nat :=
  ds.foldl (fun n d => base * n + digitValue d) 0

/-- A given number of hexadecimal digits. -/
def hexRun : Nat → Reader (List Char)
  | 0 => pure []
  | n + 1 => do
    let d ← Reader.satisfy isHexDigit
    let ds ← hexRun n
    pure (d :: ds)

/-- The character with a given number of hexadecimal digits. -/
def unicodeEscape (digits : Nat) : Reader Char :=
  (hexRun digits).convert fun ds =>
    let n := ofDigits 16 ds
    if n < 0xd800 ∨ (0xdfff < n ∧ n < 0x110000) then some (Char.ofNat n) else none

/-- The character that stands after a backslash in an escape. -/
def escapeLetter : Reader Char :=
  (Reader.satisfy fun c => "btnfr\"\\".toList.contains c).convert fun c =>
    [('b', Char.ofNat 8), ('t', '\t'), ('n', '\n'), ('f', Char.ofNat 12), ('r', '\r'),
      ('\"', '\"'), ('\\', '\\')].lookup c

/-- An escape. -/
def escape : Reader Char := do
  char '\\'
  escapeLetter.orElse <| (do char 'u'; unicodeEscape 4).orElse (do char 'U'; unicodeEscape 8)

/-- A character that stands for itself between double quotes. -/
def isBasicChar (c : Char) : Bool :=
  isCommentChar c && c ≠ '\"' && c ≠ '\\'

/-- A character that stands for itself between single quotes. -/
def isLiteralChar (c : Char) : Bool :=
  isCommentChar c && c ≠ '\''

/-- A string between double quotes on one line. -/
def basicString : Reader String := do
  char '\"'
  let cs ← Reader.many ((Reader.satisfy isBasicChar).orElse escape)
  char '\"'
  pure (String.ofList cs)

/-- A string between single quotes on one line. -/
def literalString : Reader String := do
  char '\''
  let cs ← Reader.takeWhile isLiteralChar
  char '\''
  pure (String.ofList cs)

/-- A line end in a string; it is read as a line feed. -/
def stringNewline : Reader (List Char) := do
  newline
  pure ['\n']

/-- A backslash at the end of a line; all blanks and line ends after it are left out. -/
def joinedLine : Reader (List Char) := do
  char '\\'
  blanks
  newline
  let _ ← Reader.many <| (do let _ ← Reader.satisfy isBlankInLine; pure ()).orElse newline
  pure []

/-- Up to two quotes that are not followed by a further one. -/
def looseQuotes (quote : Char) : Reader (List Char) := fun s =>
  let run := s.takeWhile (· = quote)
  if run.length = 1 ∨ run.length = 2 then .read run (s.drop run.length) else .miss s .not

/-- The closing quotes of a string over several lines; up to two more before them belong to it. -/
def closingQuotes (quote : Char) : Reader (List Char) := fun s =>
  let run := s.takeWhile (· = quote)
  if 3 ≤ run.length ∧ run.length ≤ 5 then .read (run.drop 3) (s.drop run.length) else .miss s .not

/-- A string over several lines, from its parts. -/
def manyLines (quote : Char) (part : Reader (List Char)) : Reader String := do
  word (String.ofList [quote, quote, quote])
  let _ ← newline.optional
  let parts ← Reader.many (part.orElse (looseQuotes quote))
  let final ← closingQuotes quote
  pure (String.ofList (parts.flatten ++ final))

/-- One character as a part of a string. -/
def one (p : Reader Char) : Reader (List Char) := do
  let c ← p
  pure [c]

/-- A string over several lines between double quotes. -/
def basicLines : Reader String :=
  manyLines '\"' <| (one (Reader.satisfy isBasicChar)).orElse <| stringNewline.orElse <|
    joinedLine.orElse (one escape)

/-- A string over several lines between single quotes. -/
def literalLines : Reader String :=
  manyLines '\'' <| (one (Reader.satisfy isLiteralChar)).orElse stringNewline

/-- A string. -/
def string : Reader String :=
  basicLines.orElse <| basicString.orElse <| literalLines.orElse literalString

/-! ## Keys -/

/-- A character of a key without quotes. -/
def isBareKeyChar (c : Char) : Bool :=
  c.isAlphanum || c = '-' || c = '_'

/-- A key without quotes. -/
def bareKey : Reader String := do
  let c ← Reader.satisfy isBareKeyChar
  let more ← Reader.takeWhile isBareKeyChar
  pure (String.ofList (c :: more))

/-- A part of a key, with blanks around it. -/
def keyPart : Reader String := do
  blanks
  let key ← basicString.orElse <| literalString.orElse bareKey
  blanks
  pure key

/-- The greatest depth of nested keys and values. -/
def depthLimit : Nat := 80

/-- A key of one part, or several with points between them. -/
def key : Reader (List String) :=
  (separated1 (char '.') keyPart).convert fun parts =>
    if parts.length < depthLimit then some parts else none

/-! ## Numbers -/

/-- Digits of a class, with single underscores between them. -/
def digitsWith (isDigit : Char → Bool) : Reader (List Char) := do
  let d ← Reader.satisfy isDigit
  let ds ← Reader.many <| (Reader.satisfy isDigit).orElse (do char '_'; Reader.satisfy isDigit)
  pure (d :: ds)

/-- A sign. -/
def sign : Reader Bool :=
  (do char '-'; pure true).orElse <| (do char '+'; pure false).orElse (pure false)

/-- Digits without a leading zero. -/
def wholeDigits : Reader (List Char) :=
  (digitsWith Char.isDigit).convert fun ds =>
    if ds.length = 1 ∨ ds.head? ≠ some '0' then some ds else none

/-- An integer of 64 bits. -/
def int64? (n : Int) : Option Int64 :=
  if -9223372036854775808 ≤ n ∧ n ≤ 9223372036854775807 then some (Int64.ofInt n) else none

/-- An integer in a base, after its prefix. -/
def basedInteger (base : Nat) (w : String) (isDigit : Char → Bool) : Reader Int64 :=
  (do word w; digitsWith isDigit).convert fun ds => int64? (ofDigits base ds)

/-- A decimal integer. -/
def decimalInteger : Reader Int64 :=
  (do
    let negative ← sign
    let ds ← wholeDigits
    pure (negative, ds)).convert fun (negative, ds) =>
      int64? (if negative then -(natOfDigits ds : Int) else natOfDigits ds)

/-- An integer. -/
def integer : Reader Int64 :=
  (basedInteger 16 "0x" isHexDigit).orElse <|
    (basedInteger 8 "0o" fun c => '0' ≤ c && c ≤ '7').orElse <|
    (basedInteger 2 "0b" fun c => c = '0' || c = '1').orElse decimalInteger

/-- The decimals of a float. -/
def fraction : Reader (List Char) := do
  char '.'
  digitsWith Char.isDigit

/-- The exponent of a float. -/
def exponent : Reader Int := do
  let _ ← Reader.satisfy fun c => c = 'e' || c = 'E'
  let negative ← sign
  let ds ← digitsWith Char.isDigit
  pure (if negative then -(natOfDigits ds : Int) else natOfDigits ds)

/-- A float with digits; one beyond the greatest is refused. -/
def decimalFloat : Reader Float :=
  (do
    let negative ← sign
    let ds ← wholeDigits
    let places ← fraction.optional
    let e ← exponent.optional
    pure (negative, ds, places, e)).convert fun (negative, ds, places, e) =>
      if places.isNone && e.isNone then none
      else
        let decimals := places.getD []
        let x := ofDecimal (natOfDigits (ds ++ decimals)) (e.getD 0 - (decimals.length : Int))
        let x := if negative then -x else x
        if x == 1.0 / 0.0 then none else some x

/-- An infinity or NaN. -/
def specialFloat : Reader Float := do
  let negative ← sign
  let x ← (do word "inf"; pure (1.0 / 0.0 : Float)).orElse (do word "nan"; pure (0.0 / 0.0 : Float))
  pure (if negative then -x else x)

/-! ## Dates and times -/

/-- A number of exactly so many digits within bounds. -/
def fixedNumber (digits low high : Nat) : Reader Nat := fun s =>
  let ds := s.take digits
  let n := natOfDigits ds
  if ds.length = digits ∧ ds.all Char.isDigit ∧ low ≤ n ∧ n ≤ high then .read n (s.drop digits)
  else .miss s .digit

/-- A date. -/
def date : Reader Unit :=
  (do
    let y ← fixedNumber 4 0 9999
    char '-'
    let m ← fixedNumber 2 1 12
    char '-'
    let d ← fixedNumber 2 1 31
    pure (y, m, d)).convert fun (y, m, d) =>
      if d ≤ Calendar.daysInMonth y m then some () else none

/-- A time of day. -/
def timeOfDay : Reader Unit := do
  let _ ← fixedNumber 2 0 23
  char ':'
  let _ ← fixedNumber 2 0 59
  char ':'
  let _ ← fixedNumber 2 0 60
  let _ ← Reader.optional do
    char '.'
    let _ ← Reader.satisfy Char.isDigit
    Reader.takeWhile Char.isDigit
  pure ()

/-- An offset from universal time. -/
def offset : Reader Unit :=
  (do let _ ← Reader.satisfy fun c => c = 'Z' || c = 'z'; pure ()).orElse do
    let _ ← Reader.satisfy fun c => c = '+' || c = '-'
    let _ ← fixedNumber 2 0 23
    char ':'
    let _ ← fixedNumber 2 0 59
    pure ()

/-- A date, a time of day, or both, then possibly with an offset. -/
def dateTime : Reader Unit :=
  (do
    date
    let _ ← Reader.optional do
      let _ ← Reader.satisfy fun c => c = 'T' || c = 't' || c = ' '
      timeOfDay
      offset.optional
    pure ()).orElse timeOfDay

/-! ## Scalars -/

/-- A value that is written as one token. -/
def scalar : Reader Scalar :=
  (do let s ← string; pure (Scalar.string s)).orElse <|
    (do dateTime; pure Scalar.dateTime).orElse <|
    (do let x ← decimalFloat; pure (Scalar.float x)).orElse <|
    (do let x ← specialFloat; pure (Scalar.float x)).orElse <|
    (do let n ← integer; pure (Scalar.integer n)).orElse <|
    (do word "true"; pure (Scalar.boolean true)).orElse
    (do word "false"; pure (Scalar.boolean false))

end QueryChain.Toml
