import Metaobject.Toml.Value

/-!
How headers and dotted keys put tables together. A table is defined once: by a header, by dotted
keys, or as a value. A table that only came up on the way to another may still get its header, and
dotted keys go through tables that dotted keys made.
-/
namespace Metaobject.Toml

/-- How a table came about. -/
inductive Origin where
  | header
  /-- On the way to the table of a header. -/
  | implied
  | dotted
deriving DecidableEq, Repr

/-- What a key of a document leads to. -/
inductive Node where
  | value (v : Value)
  | table (origin : Origin) (entries : List (String × Node))
  | tables (elements : List (List (String × Node)))

/-- What the keys of a table lead to. -/
abbrev Entries := List (String × Node)

namespace Entries

/-- What a key leads to. -/
def find? (es : Entries) (key : String) : Option Node :=
  (List.find? (fun e => e.1 == key) es).map Prod.snd

/-- Let a key that is there lead to something else. -/
def replace (es : Entries) (key : String) (n : Node) : Entries :=
  es.map fun e => if e.1 == key then (key, n) else e

/-- Change the table at the end of a path, making tables that are not there on the way. The last
table of an array of tables stands for the array. The change is told how its table came about. -/
def alterAt (dotted : Bool) (change : Origin → Entries → Option Entries) :
    List String → Origin → Entries → Option Entries
  | [], origin, es => change origin es
  | key :: path, _, es =>
    match find? es key with
    | none =>
      let made : Origin := if dotted then .dotted else .implied
      (alterAt dotted change path made []).map fun inner => es ++ [(key, .table made inner)]
    | some (.table origin inner) =>
      if dotted && origin == .header then none
      else (alterAt dotted change path origin inner).map fun t => replace es key (.table origin t)
    | some (.tables elements) =>
      match elements.getLast? with
      | some inner =>
        (alterAt dotted change path .header inner).map fun t =>
          replace es key (.tables (elements.dropLast ++ [t]))
      | none => none
    | some (.value _) => none

/-- Enter a value under a key that is not there yet. -/
def enter (key : String) (v : Value) (es : Entries) : Option Entries :=
  if (find? es key).isSome then none else some (es ++ [(key, .value v)])

/-- Enter a value under a dotted key, given by its path and its last part, in the table at a place.
Only tables that dotted keys made can be entered in this way. -/
def enterAt (place path : List String) (key : String) (v : Value) (es : Entries) :
    Option Entries :=
  alterAt false (fun _ =>
    alterAt true (fun origin t =>
      if path.isEmpty || origin == .dotted then enter key v t else none) path .header)
    place .header es

/-- Open the table of a header. -/
def openTable (path : List String) (key : String) (es : Entries) : Option Entries :=
  alterAt false (fun _ t =>
    match find? t key with
    | none => some (t ++ [(key, .table .header [])])
    | some (.table .implied inner) => some (replace t key (.table .header inner))
    | some _ => none) path .header es

/-- Open one more table of an array of tables. -/
def openElement (path : List String) (key : String) (es : Entries) : Option Entries :=
  alterAt false (fun _ t =>
    match find? t key with
    | none => some (t ++ [(key, .tables [[]])])
    | some (.tables elements) => some (replace t key (.tables (elements ++ [[]])))
    | some _ => none) path .header es

end Entries

namespace Node

mutual

/-- What a key leads to, as a value. -/
def toValue (n : Node) : Value :=
  match n with
  | .value v => v
  | .table _ entries => .table (toEntries entries)
  | .tables elements => .array (toItems elements)

/-- The entries of a table, as values. -/
def toEntries (es : List (String × Node)) : List (String × Value) :=
  match es with
  | [] => []
  | e :: rest => toEntry e :: toEntries rest

/-- An entry of a table, as a value. -/
def toEntry (e : String × Node) : String × Value :=
  match e with
  | (key, n) => (key, toValue n)

/-- The tables of an array of tables, as values. -/
def toItems (elements : List (List (String × Node))) : List Value :=
  match elements with
  | [] => []
  | es :: rest => .table (toEntries es) :: toItems rest

end

end Node

end Metaobject.Toml
