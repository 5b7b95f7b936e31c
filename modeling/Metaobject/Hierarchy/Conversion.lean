import Metaobject.Hierarchy.Search

/-!
When a value may stand in a slot of a type. A type is assignable from another if every value made
with the other may stand in its slots; a value is an instance of a type if it may stand there as it
is; and it converts to a type if it may stand there after widening a number, or after converting the
items of an array one by one.
-/
namespace Metaobject

/-- A number in a wider numeric type. A character counts as its code point. -/
def Value.widen? : Value → Primitive → Option Value
  | .byte n, .short => some (.short (Int16.ofInt n.toInt))
  | .byte n, .int => some (.int (Int32.ofInt n.toInt))
  | .byte n, .long => some (.long (Int64.ofInt n.toInt))
  | .byte n, .float => some (.float (.ofInt .single n.toInt))
  | .byte n, .double => some (.double (.ofInt .double n.toInt))
  | .short n, .int => some (.int (Int32.ofInt n.toInt))
  | .short n, .long => some (.long (Int64.ofInt n.toInt))
  | .short n, .float => some (.float (.ofInt .single n.toInt))
  | .short n, .double => some (.double (.ofInt .double n.toInt))
  | .char c, .int => some (.int (Int32.ofNat c.toNat))
  | .char c, .long => some (.long (Int64.ofNat c.toNat))
  | .char c, .float => some (.float (.ofInt .single c.toNat))
  | .char c, .double => some (.double (.ofInt .double c.toNat))
  | .int n, .long => some (.long (Int64.ofInt n.toInt))
  | .int n, .float => some (.float (.ofInt .single n.toInt))
  | .int n, .double => some (.double (.ofInt .double n.toInt))
  | .long n, .float => some (.float (.ofInt .single n.toInt))
  | .long n, .double => some (.double (.ofInt .double n.toInt))
  | .float x, .double => some (.double (x.convert .double))
  | _, _ => none

namespace Hierarchy

variable (h : Hierarchy)

/-- Slots of the first type take every value made with the second. Items of primitive type do not
mix with others, and the root class takes whatever `any` takes. -/
def isAssignable : Ty → Ty → Bool
  | .any, _ => true
  | .primitive p, .primitive q => p == q
  | .string, .string => true
  | .token, .token => true
  | .array t, .array u =>
    if t.isPrimitive || u.isPrimitive then t == u else isAssignable t u
  | .ofClass c, .ofClass d => h.isSubtype d c
  | .ofClass c, _ => c == .object
  | _, _ => false

mutual

/-- The value may stand in a slot of the type. An array may do so by its element type or, between
types that are not primitive, by all its items. -/
def isInstance : Value → Ty → Bool
  | _, .any => true
  | .null, t => !t.isPrimitive
  | .array u items, .array t =>
    h.isAssignable (.array t) (.array u) ||
      (!t.isPrimitive && !u.isPrimitive && allInstances items t)
  | .object o, .ofClass c => h.isSubtype o.cls c
  | .boolean _, .primitive p => p == .boolean
  | .byte _, .primitive p => p == .byte
  | .char _, .primitive p => p == .char
  | .short _, .primitive p => p == .short
  | .int _, .primitive p => p == .int
  | .long _, .primitive p => p == .long
  | .float _, .primitive p => p == .float
  | .double _, .primitive p => p == .double
  | .string _, .string => true
  | .token _, .token => true
  | _, .ofClass c => c == .object
  | _, _ => false

/-- Every value of the list may stand in a slot of the type. -/
def allInstances : List Value → Ty → Bool
  | [], _ => true
  | v :: rest, t => isInstance v t && allInstances rest t

end

mutual

/-- The value as it stands in a slot of the type, if it can. An array of another element type is
made anew from its converted items; otherwise a number is widened where the type asks for it. -/
def convert? (v : Value) (t : Ty) : Option Value :=
  match v, t with
  | .array u items, .array t =>
    if u = t then some (.array u items) else (convertAll? items t).map (.array t ·)
  | v, .primitive p =>
    (v.widen? p).or (if h.isInstance v (.primitive p) then some v else none)
  | v, t => if h.isInstance v t then some v else none

/-- The values of the list, each as it stands in a slot of the type. -/
def convertAll? (vs : List Value) (t : Ty) : Option (List Value) :=
  match vs with
  | [] => some []
  | v :: rest =>
    match convert? v t with
    | some w => (convertAll? rest t).map (w :: ·)
    | none => none

end

end Hierarchy

end Metaobject
