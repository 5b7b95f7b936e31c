import Metaobject.Toml.Scalar
import Metaobject.Toml.Text
import Metaobject.Toml.Tree

/-!
Reading TOML documents. A document is read into lines, each a header or a key with its value, and
the lines are then put together. Arrays and tables written as values nest less than eighty deep, and
a dotted key has fewer than eighty parts.
-/
namespace Metaobject.Toml

/-- How deep values nest, and how many parts a key has: fewer than this. -/
def nestingLimit : Nat := 80

/-- The last of a list and the ones in front of it. -/
def splitLast? (path : List String) : Option (List String × String) :=
  path.getLast?.map fun key => (path.dropLast, key)

/-- A key with dots, as the path to a table and the key there. -/
def readDotted : Reader (List String × String) := fun s =>
  (readPath (nestingLimit - 1) s).bind fun (path, r) => (splitLast? path).map fun p => (p, r)

mutual

/-- A value. The first bound is on the steps, the second on the nesting. -/
def readValue (steps nesting : Nat) (s : List Char) : Option (Value × List Char) :=
  match steps with
  | 0 => none
  | steps + 1 =>
    match s with
    | '"' :: _ => (readText s).map fun (t, r) => (.string t, r)
    | '\'' :: _ => (readText s).map fun (t, r) => (.string t, r)
    | '[' :: r =>
      if nesting ≤ 1 then none
      else
        (skipFiller false r).bind fun r' =>
          (readItems steps (nesting - 1) r').map fun (items, r'') => (.array items, r'')
    | '{' :: r =>
      if nesting ≤ 1 then none
      else
        match skipBlanks r with
        | '}' :: r' => some (.table [], r')
        | r' =>
          (readPairs steps (nesting - 1) [] r').map fun (es, r'') =>
            (.table (Node.toEntries es), r'')
    | s => readScalar s

/-- The items of an array up to its closing bracket. A comma may stand behind the last. -/
def readItems (steps nesting : Nat) (s : List Char) : Option (List Value × List Char) :=
  match steps with
  | 0 => none
  | steps + 1 =>
    match s with
    | ']' :: r => some ([], r)
    | s =>
      (readValue steps nesting s).bind fun (v, r) =>
        (skipFiller false r).bind fun
          | ',' :: r' =>
            (skipFiller false r').bind fun r'' =>
              (readItems steps nesting r'').map fun (items, rest) => (v :: items, rest)
          | ']' :: r' => some ([v], r')
          | _ => none

/-- The entries of a table written as a value, up to its closing brace. -/
def readPairs (steps nesting : Nat) (es : Entries) (s : List Char) :
    Option (Entries × List Char) :=
  match steps with
  | 0 => none
  | steps + 1 =>
    (readDotted s).bind fun ((path, key), r) =>
      match skipBlanks r with
      | '=' :: r' =>
        (readValue steps nesting (skipBlanks r')).bind fun (v, r'') =>
          (es.enterAt [] path key v).bind fun es' =>
            match skipBlanks r'' with
            | ',' :: rest => readPairs steps nesting es' (skipBlanks rest)
            | '}' :: rest => some (es', rest)
            | _ => none
      | _ => none

end

/-- What a line of a document says. -/
inductive Line where
  | blank
  | header (path : List String) (key : String)
  | element (path : List String) (key : String)
  | pair (path : List String) (key : String) (v : Value)

/-- A line with its end. Its value may run over several lines. -/
def readLine (s : List Char) : Option (Line × List Char) :=
  let ended (l : Line) (r : List Char) : Option (Line × List Char) :=
    (lineEnd? r).map fun r' => (l, r')
  match skipBlanks s with
  | [] => some (.blank, [])
  | '\n' :: r => some (.blank, r)
  | '\r' :: r => (newline? ('\r' :: r)).map fun r' => (.blank, r')
  | '#' :: r => ended .blank ('#' :: r)
  | '[' :: '[' :: r =>
    (readDotted (skipBlanks r)).bind fun ((path, key), r') =>
      match skipBlanks r' with
      | ']' :: ']' :: r'' => ended (.element path key) r''
      | _ => none
  | '[' :: r =>
    (readDotted (skipBlanks r)).bind fun ((path, key), r') =>
      match skipBlanks r' with
      | ']' :: r'' => ended (.header path key) r''
      | _ => none
  | s =>
    (readDotted s).bind fun ((path, key), r) =>
      match skipBlanks r with
      | '=' :: r' =>
        (readValue (2 * r'.length + 2) nestingLimit (skipBlanks r')).bind fun (v, r'') =>
          ended (.pair path key v) r''
      | _ => none

/-- The lines of a document. The bound is on their number. -/
def readLines : Nat → List Char → Option (List Line)
  | _, [] => some []
  | 0, _ => none
  | bound + 1, s =>
    (readLine s).bind fun (l, r) => (readLines bound r).map (l :: ·)

/-- The entries of a document after some lines: under the headers, in the table of the last. -/
def assemble (place : List String) (es : Entries) : List Line → Option Entries
  | [] => some es
  | .blank :: rest => assemble place es rest
  | .header path key :: rest =>
    (es.openTable path key).bind fun es' => assemble (path ++ [key]) es' rest
  | .element path key :: rest =>
    (es.openElement path key).bind fun es' => assemble (path ++ [key]) es' rest
  | .pair path key v :: rest =>
    (es.enterAt place path key v).bind fun es' => assemble place es' rest

/-- The text without a byte order mark at its front. -/
def dropMark : List Char → List Char
  | '\uFEFF' :: r => r
  | s => s

/-- The entries of a document; none if it is malformed. -/
def parse (text : String) : Option (List (String × Value)) :=
  let s := dropMark text.toList
  (readLines (s.length + 1) s).bind fun lines => (assemble [] [] lines).map Node.toEntries

end Metaobject.Toml
