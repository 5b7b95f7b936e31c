/-!
Types of values: the primitive types, texts, type tokens, arrays, classes, and `any`, which holds
every value. A class is named by its place in a hierarchy; what the place holds is not known here.
-/
namespace Metaobject

/-- The primitive types. -/
inductive Primitive where
  | boolean
  | byte
  | char
  | short
  | int
  | long
  | float
  | double
  | void
deriving DecidableEq, Repr

namespace Primitive

/-- How a primitive type is written. -/
def name : Primitive → String
  | boolean => "bool"
  | byte => "i8"
  | char => "char"
  | short => "i16"
  | int => "i32"
  | long => "i64"
  | float => "f32"
  | double => "f64"
  | void => "()"

/-- The primitive type written so. -/
def ofName? (s : String) : Option Primitive :=
  if s = "bool" then some boolean
  else if s = "i8" then some byte
  else if s = "char" then some char
  else if s = "i16" then some short
  else if s = "i32" then some int
  else if s = "i64" then some long
  else if s = "f32" then some float
  else if s = "f64" then some double
  else if s = "()" then some void
  else none

theorem ofName?_name (p : Primitive) : ofName? p.name = some p := by
  cases p <;> rfl

theorem name_of_ofName? {s : String} {p : Primitive} (h : ofName? s = some p) : p.name = s := by
  unfold ofName? at h
  grind [name]

end Primitive

/-- A class, by its place in the hierarchy that declares it. -/
structure ClassId where
  index : Nat
deriving DecidableEq, Repr

namespace ClassId

/-- The root of every hierarchy. -/
def object : ClassId := ⟨0⟩

/-- The root of the annotation types. -/
def annotations : ClassId := ⟨1⟩

/-- The interface of objects that are made when first used. -/
def lazyProxy : ClassId := ⟨2⟩

end ClassId

/-- The types of values. -/
inductive Ty where
  | primitive (p : Primitive)
  | string
  | any
  | token
  | array (element : Ty)
  | ofClass (c : ClassId)
deriving DecidableEq, Repr

namespace Ty

/-- The type of a call that yields nothing. -/
abbrev void : Ty := .primitive .void

/-- The type is primitive. -/
def isPrimitive : Ty → Bool
  | primitive _ => true
  | _ => false

/-- The type of the items of an array type. -/
def element? : Ty → Option Ty
  | array t => some t
  | _ => none

/-- The classes that a type mentions. -/
def classes : Ty → List ClassId
  | array t => classes t
  | ofClass c => [c]
  | _ => []

end Ty

end Metaobject
