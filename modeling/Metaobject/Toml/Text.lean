import Metaobject.Toml.Value

/-!
Texts and keys of TOML, read and written. A text stands in single or in double quotes, one of each
or three; in double quotes a backslash starts an escape, in single quotes every character stands for
itself. Three quotes let the text run over several lines.
-/
namespace Metaobject.Toml

/-- The number that a hexadecimal digit stands for. -/
def hexDigit? (c : Char) : Option Nat :=
  if '0' ≤ c && c ≤ '9' then some (c.toNat - 0x30)
  else if 'a' ≤ c && c ≤ 'f' then some (c.toNat - 0x57)
  else if 'A' ≤ c && c ≤ 'F' then some (c.toNat - 0x37)
  else none

/-- The number that hexadecimal digits stand for. -/
def hexNumber? (n : Nat) : List Char → Option Nat
  | [] => some n
  | c :: r => (hexDigit? c).bind fun d => hexNumber? (16 * n + d) r

/-- The character of a code point that is written in hexadecimal digits. -/
def codePoint? (digits : List Char) : Option Char :=
  (hexNumber? 0 digits).bind fun n => if n.isValidChar then some (Char.ofNat n) else none

/-- The character that a letter stands for behind a backslash. -/
def shortEscape? : Char → Option Char
  | 'b' => some '\x08'
  | 't' => some '\t'
  | 'n' => some '\n'
  | 'f' => some '\x0c'
  | 'r' => some '\r'
  | '"' => some '"'
  | '\\' => some '\\'
  | _ => none

/-- A character that may stand for itself in double quotes. -/
def isPlain (c : Char) : Bool :=
  (isPrinting c && c != '"' && c != '\\') || isWide c

/-- A character that may stand for itself in single quotes. -/
def isLiteral (c : Char) : Bool :=
  (isPrinting c && c != '\'') || isWide c

/-- One more character in front of what a reader read. -/
def consRead (c : Char) : Option (List Char × List Char) → Option (List Char × List Char)
  | some (s, r) => some (c :: s, r)
  | none => none

/-- The text up to a closing double quote. -/
def readBasic : Reader (List Char)
  | '"' :: r => some ([], r)
  | '\\' :: 'u' :: a :: b :: c :: d :: r =>
    (codePoint? [a, b, c, d]).bind fun x => consRead x (readBasic r)
  | '\\' :: 'U' :: a :: b :: c :: d :: e :: f :: g :: h :: r =>
    (codePoint? [a, b, c, d, e, f, g, h]).bind fun x => consRead x (readBasic r)
  | '\\' :: c :: r => (shortEscape? c).bind fun x => consRead x (readBasic r)
  | c :: r => if isPlain c then consRead c (readBasic r) else none
  | [] => none

/-- The text up to a closing single quote. -/
def readLiteral : Reader (List Char)
  | '\'' :: r => some ([], r)
  | c :: r => if isLiteral c then consRead c (readLiteral r) else none
  | [] => none

/-- Only blanks stand in front of the end of the line. -/
def endsLine (s : List Char) : Bool :=
  (newline? (skipBlanks s)).isSome

/-- The text up to three closing double quotes, of which up to two more belong to the text. Behind a
backslash that ends a line, blanks and ends of lines are left out. -/
def readBasicLines (skipping : Bool) : Reader (List Char)
  | '"' :: '"' :: '"' :: '"' :: '"' :: r => some (['"', '"'], r)
  | '"' :: '"' :: '"' :: '"' :: r => some (['"'], r)
  | '"' :: '"' :: '"' :: r => some ([], r)
  | '"' :: r => consRead '"' (readBasicLines false r)
  | '\n' :: r => if skipping then readBasicLines true r else consRead '\n' (readBasicLines false r)
  | '\r' :: '\n' :: r =>
    if skipping then readBasicLines true r else consRead '\n' (readBasicLines false r)
  | '\\' :: 'u' :: a :: b :: c :: d :: r =>
    (codePoint? [a, b, c, d]).bind fun x => consRead x (readBasicLines false r)
  | '\\' :: 'U' :: a :: b :: c :: d :: e :: f :: g :: h :: r =>
    (codePoint? [a, b, c, d, e, f, g, h]).bind fun x => consRead x (readBasicLines false r)
  | '\\' :: c :: r =>
    if endsLine (c :: r) then readBasicLines true (c :: r)
    else (shortEscape? c).bind fun x => consRead x (readBasicLines false r)
  | c :: r =>
    if skipping && isBlank c then readBasicLines true r
    else if isPlain c then consRead c (readBasicLines false r)
    else none
  | [] => none

/-- The text up to three closing single quotes, of which up to two more belong to the text. -/
def readLiteralLines : Reader (List Char)
  | '\'' :: '\'' :: '\'' :: '\'' :: '\'' :: r => some (['\'', '\''], r)
  | '\'' :: '\'' :: '\'' :: '\'' :: r => some (['\''], r)
  | '\'' :: '\'' :: '\'' :: r => some ([], r)
  | '\n' :: r => consRead '\n' (readLiteralLines r)
  | '\r' :: '\n' :: r => consRead '\n' (readLiteralLines r)
  | c :: r => if isLiteral c || c == '\'' then consRead c (readLiteralLines r) else none
  | [] => none

/-- The text without an end of a line at its front. -/
def dropNewline (s : List Char) : List Char :=
  (newline? s).getD s

/-- A text in quotes on one line. -/
def readQuoted : Reader String
  | '"' :: r => (readBasic r).map fun p => (String.ofList p.1, p.2)
  | '\'' :: r => (readLiteral r).map fun p => (String.ofList p.1, p.2)
  | _ => none

/-- A text in quotes. -/
def readText : Reader String
  | '"' :: '"' :: '"' :: r =>
    (readBasicLines false (dropNewline r)).map fun p => (String.ofList p.1, p.2)
  | '\'' :: '\'' :: '\'' :: r =>
    (readLiteralLines (dropNewline r)).map fun p => (String.ofList p.1, p.2)
  | s => readQuoted s

/-- A character of a key without quotes. -/
def isBare (c : Char) : Bool :=
  c.isAlphanum || c == '_' || c == '-'

/-- One key. -/
def readKey (s : List Char) : Option (String × List Char) :=
  match s.takeWhile isBare with
  | [] => readQuoted s
  | key => some (String.ofList key, s.dropWhile isBare)

/-- Keys with dots between them. The bound is on their number. -/
def readPath : Nat → Reader (List String)
  | 0, _ => none
  | bound + 1, s =>
    (readKey s).bind fun (key, r) =>
      match skipBlanks r with
      | '.' :: r' => (readPath bound (skipBlanks r')).map fun (keys, r'') => (key :: keys, r'')
      | _ => some ([key], r)

/-! ## Writing -/

/-- The longest run of a character, counting one that goes on from the front. -/
def longestRun (c : Char) (run : Nat) : List Char → Nat
  | [] => run
  | d :: r => if d == c then longestRun c (run + 1) r else max run (longestRun c 0 r)

/-- A character that cannot be written without an escape. -/
def needsEscape (c : Char) : Bool :=
  (c.toNat < 0x20 && c != '\t' && c != '\n') || c.toNat == 0x7F

/-- Four upper case hexadecimal digits of a number below 65536. -/
def fourDigits (n : Nat) : List Char :=
  let digits := (Nat.toDigits 16 n).map Char.toUpper
  List.replicate (4 - digits.length) '0' ++ digits

/-- A character in double quotes. -/
def escaped (c : Char) : List Char :=
  if c == '\x08' then ['\\', 'b']
  else if c == '\t' then ['\\', 't']
  else if c == '\n' then ['\\', 'n']
  else if c == '\x0c' then ['\\', 'f']
  else if c == '\r' then ['\\', 'r']
  else if c == '"' then ['\\', '"']
  else if c == '\\' then ['\\', '\\']
  else if needsEscape c then '\\' :: 'u' :: fourDigits c.toNat
  else [c]

/-- Characters in three double quotes, where an end of a line stands for itself, and so do two
double quotes in a row. -/
def escapedLines (quotes : Nat) : List Char → List Char
  | [] => []
  | c :: r =>
    if c == '"' && quotes < 2 then c :: escapedLines (quotes + 1) r
    else if c == '"' then escaped c ++ escapedLines 0 r
    else if c == '\n' then c :: escapedLines 0 r
    else escaped c ++ escapedLines 0 r

/-- A text in quotes: in the first of one double, one single, three double and three single quotes
in which no character needs an escape, and where there is none in double quotes, three if the text
runs over several lines. -/
def writeText (text : String) : String :=
  let s := text.toList
  let control := s.any needsEscape
  let backslash := s.contains '\\'
  let lines := s.contains '\n'
  let doubles := longestRun '"' 0 s
  let singles := longestRun '\'' 0 s
  let opening : List Char := if lines then ['\n'] else []
  let threeDouble := ['"', '"', '"']
  let threeSingle := ['\'', '\'', '\'']
  String.ofList <|
    if !control && !backslash && doubles == 0 && !lines then '"' :: s.flatMap escaped ++ ['"']
    else if !control && singles == 0 && !lines then '\'' :: s ++ ['\'']
    else if !control && !backslash && doubles ≤ 2 then
      threeDouble ++ opening ++ escapedLines 0 s ++ threeDouble
    else if !control && singles ≤ 2 then threeSingle ++ opening ++ s ++ threeSingle
    else if lines then threeDouble ++ opening ++ escapedLines 0 s ++ threeDouble
    else '"' :: s.flatMap escaped ++ ['"']

example : writeText "it's" = "\"it's\"" := by decide +kernel

example : writeText "a\\b" = "'a\\b'" := by decide +kernel

example : writeText "\x01\t" = "\"\\u0001\\t\"" := by decide +kernel

end Metaobject.Toml
