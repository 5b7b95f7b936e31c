/-!
Values of TOML documents. A number with a fraction or exponent and a date or time keep the text
that they were written with.
-/
namespace Metaobject.Toml

/-- Values. The entries of a table have different keys. -/
inductive Value where
  | string (s : String)
  | integer (n : Int)
  | float (text : String)
  | boolean (b : Bool)
  | dateTime (text : String)
  | array (items : List Value)
  | table (entries : List (String × Value))

/-- A reader: what it reads from the front of a text, and the rest. -/
abbrev Reader (α : Type) := List Char → Option (α × List Char)

/-- A blank within a line. -/
def isBlank (c : Char) : Bool :=
  c == ' ' || c == '\t'

/-- A character outside ASCII. Every one may stand in comments and texts. -/
def isWide (c : Char) : Bool :=
  0x80 ≤ c.toNat

/-- A printing character of ASCII, a blank included. -/
def isPrinting (c : Char) : Bool :=
  c == '\t' || (0x20 ≤ c.toNat && c.toNat ≤ 0x7E)

/-- The text behind the blanks at its front. -/
def skipBlanks (s : List Char) : List Char :=
  s.dropWhile isBlank

/-- The text behind the end of a line at its front. -/
def newline? : List Char → Option (List Char)
  | '\n' :: r => some r
  | '\r' :: '\n' :: r => some r
  | _ => none

/-- The text behind a comment at its front. -/
def skipComment : List Char → List Char
  | '#' :: r => r.dropWhile fun c => isPrinting c || isWide c
  | s => s

/-- The text behind the rest of a line that holds nothing but blanks and a comment. -/
def lineEnd? (s : List Char) : Option (List Char) :=
  match skipComment (skipBlanks s) with
  | [] => some []
  | r => newline? r

/-- The text behind blanks, ends of lines and whole comments at its front. -/
def skipFiller (inComment : Bool) : List Char → Option (List Char)
  | [] => if inComment then none else some []
  | '\n' :: r => skipFiller false r
  | '\r' :: '\n' :: r => skipFiller false r
  | c :: r =>
    if inComment then if isPrinting c || isWide c then skipFiller true r else none
    else if c == '#' then skipFiller true r
    else if isBlank c then skipFiller false r
    else some (c :: r)

end Metaobject.Toml
