import Metaobject.Call

/-!
Instances of annotation types. An instance is its values: it equals what is of the same annotation
type and answers every accessor with an equal value, its hash is a sum over its members, and its
text lists them in order.
-/
namespace Metaobject

variable {σ : Type} (serve : Serve σ)

/-- The share of one member in the hash of an instance. -/
def memberShare (name : String) (valueHash : Int32) : Int32 :=
  Text.memberHash name ^^^ valueHash

/-- The hash of named values: the sum of the shares, in wrapping arithmetic. -/
def membersHash (start : Int32) : List (String × Value) → Run ProxyError σ Int32
  | [] => pure start
  | (name, v) :: rest => do membersHash (start + memberShare name (← v.hashCode serve)) rest

namespace Instance

variable (x : Instance)

/-- The value of a member: the one assigned, or else its default. -/
def valueOf (m : Member) : Value :=
  ((Table.find? x.assigned m.name).or m.default?).getD .null

/-- The members with their values, in order. -/
def values : List (String × Value) :=
  x.contract.members.map fun m => (m.name, x.valueOf m)

/-- An object answers every accessor of some members with an equal value. -/
def agrees (other : ObjectRef) : List Member → Run ProxyError σ Bool
  | [] => pure true
  | m :: rest => do
    let theirs ← other.invoke serve m.accessor []
    if ← (x.valueOf m).equals serve theirs then agrees other rest else return false

/-- Whether an instance equals a value: itself, or an object of the same annotation type that agrees
in every member. -/
def equalTo (receiver? : Option ObjectRef) (other : Value) : Run ProxyError σ Bool := do
  match other with
  | .object o =>
    if receiver?.any (·.same o) then return true
    else if !(← Run.hierarchy).isSubtype o.cls .annotations then return false
    else
      let type ← o.invoke serve .annotationType []
      if ← type.same serve (.token (.ofClass x.contract.cls)) then
        x.agrees serve o x.contract.members
      else return false
  | _ => return false

/-- The hash of an instance, computed anew. -/
def computeHash : Run ProxyError σ Int32 :=
  membersHash serve 0 x.values

/-- The hash of an instance, kept once it has been computed if it has a cell. -/
def hash : Run ProxyError σ Int32 :=
  Shelf.hashes.onceIf x.hashCell? (x.computeHash serve)

/-- Members as they are written in the text of an instance. -/
def memberTexts : List (String × Value) → Run ProxyError σ (List String)
  | [] => pure []
  | (name, v) :: rest => do
    let s ← v.text serve
    return (name ++ "=" ++ s) :: (← memberTexts rest)

/-- The text of an instance, computed anew. -/
def computeText : Run ProxyError σ String := do
  let members ← memberTexts serve x.values
  return "@" ++ (← Run.hierarchy).className x.contract.cls ++ "(" ++ ", ".intercalate members ++ ")"

/-- The text of an instance, kept once it has been computed if it has a cell. -/
def text : Run ProxyError σ String :=
  Shelf.texts.onceIf x.textCell? (x.computeText serve)

/-- What an instance makes of an invocation. -/
def answer (i : Invocation) : Run ProxyError σ Answer := do
  if i.method = .equals then
    return some (.boolean (← x.equalTo serve i.receiver? (i.arguments.head?.getD .null)))
  else if i.method = .hashCode then return some (.int (← x.hash serve))
  else if i.method = .toText then return some (.string (← x.text serve))
  else if i.method = .annotationType then return some (.token (.ofClass x.contract.cls))
  else return (x.contract.memberFor? i.method).map x.valueOf

end Instance

end Metaobject
