import Metaobject.Ty
import Metaobject.Number.Decimal
import Metaobject.Text.CodeUnits

/-!
Values, with the views and hashes that need nothing but the value itself. An array carries the
element type it was made with, and its items need not be of that type. An object is known by its
number; its class never changes and travels with it.
-/
namespace Metaobject

/-- A reference to an object: its number, and its class. -/
structure ObjectRef where
  id : Nat
  cls : ClassId
deriving DecidableEq, Repr

namespace ObjectRef

/-- Objects lie sixty-four bytes apart, from a place far from zero on. -/
def address (o : ObjectRef) : Nat :=
  0x7F5C3A6E1000 + 64 * o.id

/-- Two references lead to one object. -/
def same (o p : ObjectRef) : Bool :=
  o.id == p.id

end ObjectRef

/-- Values that calls take and give. -/
inductive Value where
  | null
  | boolean (b : Bool)
  | byte (n : Int8)
  | char (c : Char)
  | short (n : Int16)
  | int (n : Int32)
  | long (n : Int64)
  | float (x : Binary32)
  | double (x : Binary64)
  | string (s : String)
  | array (element : Ty) (items : List Value)
  | token (t : Ty)
  | object (o : ObjectRef)

/-- Both halves of a long number in one 32 bit number, by exclusive or. -/
def foldLong (n : Int64) : Int32 :=
  (n.toUInt64 ^^^ (n.toUInt64 >>> 32)).toInt64.toInt32

/-- The hash of an object that is equal to itself alone. -/
def ObjectRef.identityHash (o : ObjectRef) : Int32 :=
  foldLong (Int64.ofNat o.address)

namespace Primitive

/-- The value that a slot of a primitive type starts with. -/
def zero : Primitive → Value
  | boolean => .boolean false
  | byte => .byte 0
  | char => .char '\x00'
  | short => .short 0
  | int => .int 0
  | long => .long 0
  | float => .float .zero
  | double => .double .zero
  | void => .null

end Primitive

/-- The value that a slot of a type starts with: null unless the type is primitive. -/
def Ty.zero : Ty → Value
  | primitive p => p.zero
  | _ => .null

namespace Value

/-- The value is null. -/
def isNull : Value → Bool
  | null => true
  | _ => false

/-- The boolean that the value is. -/
def boolean? : Value → Option Bool
  | boolean b => some b
  | _ => none

/-- The 32 bit integer that the value is. -/
def int? : Value → Option Int32
  | int n => some n
  | _ => none

/-- The 64 bit integer that the value is. -/
def long? : Value → Option Int64
  | long n => some n
  | _ => none

/-- The 64 bit floating point number that the value is. -/
def double? : Value → Option Binary64
  | double x => some x
  | _ => none

/-- The text that the value is. -/
def string? : Value → Option String
  | string s => some s
  | _ => none

/-- The element type and items of the array that the value is. -/
def array? : Value → Option (Ty × List Value)
  | array t items => some (t, items)
  | _ => none

/-- The type that the value is a token of. -/
def token? : Value → Option Ty
  | token t => some t
  | _ => none

/-- The object that the value is. -/
def object? : Value → Option ObjectRef
  | object o => some o
  | _ => none

/-- The type of the value as it was made; null is of type `any`. -/
def runtimeType : Value → Ty
  | null => .any
  | boolean _ => .primitive .boolean
  | byte _ => .primitive .byte
  | char _ => .primitive .char
  | short _ => .primitive .short
  | int _ => .primitive .int
  | long _ => .primitive .long
  | float _ => .primitive .float
  | double _ => .primitive .double
  | string _ => .string
  | array t _ => .array t
  | token _ => .token
  | object o => .ofClass o.cls

end Value

/-- The hash of a floating point number of 32 bits: its canonical pattern. -/
def Binary.hash32 (x : Binary32) : Int32 :=
  Int32.ofNat x.canonical.bits.toNat

/-- The hash of a floating point number of 64 bits: its canonical pattern, folded. -/
def Binary.hash64 (x : Binary64) : Int32 :=
  foldLong (Int64.ofNat x.canonical.bits.toNat)

end Metaobject
