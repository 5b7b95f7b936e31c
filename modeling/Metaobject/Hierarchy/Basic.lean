import Metaobject.Value

/-!
Classes and their methods. A hierarchy only grows: a class is named by the place at which it was
declared, its declaration never changes, and its supertypes were all declared before it. Three
classes open every hierarchy: the root `object`, the root `annotation` of the annotation types, and
the interface `lazy_proxy`. Every annotation type names the root of its kind among its supertypes.
Methods are known by the class that declares them and their place there, so two methods of one name
and parameter list are still told apart.
-/
namespace Metaobject

/-- A piece of code that belongs to the client of the library, by its number. -/
structure Hook where
  id : Nat
deriving DecidableEq, Repr

/-- Classes, interfaces, and the annotation types among the interfaces. -/
inductive ClassKind where
  | concrete
  | interface
  | annotationType
deriving DecidableEq, Repr

/-- How a method is called: on an object, on its class, or to make an object. -/
inductive MethodKind where
  | ofInstance
  | static
  | constructor
deriving DecidableEq, Repr

/-- The word for a kind of method in messages. -/
def MethodKind.label : MethodKind → String
  | ofInstance => "Instance"
  | static => "Static"
  | constructor => "Constructor"

/-- A declared parameter. -/
structure Parameter where
  name : String
  type : Ty
deriving DecidableEq, Repr

/-- A declared method. The result type of a constructor is its class, whatever is written here. -/
structure MethodDecl where
  name : String
  kind : MethodKind := .ofInstance
  parameters : List Parameter := []
  result : Ty := .void
  default? : Option Value := none
  synthetic : Bool := false
  body? : Option Hook := none

/-- A declared class. -/
structure ClassDecl where
  name : String
  kind : ClassKind := .concrete
  supertypes : List ClassId := []
  methods : List MethodDecl := []
  synthetic : Bool := false

instance : Inhabited MethodDecl := ⟨⟨"", .ofInstance, [], .void, none, false, none⟩⟩

instance : Inhabited ClassDecl := ⟨⟨"", .concrete, [], [], false⟩⟩

/-- A method, by its class and its place among the methods that the class declares. -/
structure MethodRef where
  owner : ClassId
  index : Nat
deriving DecidableEq, Repr

namespace MethodRef

/-- The method that asks an object whether it equals a value. -/
def equals : MethodRef := ⟨.object, 0⟩

/-- The method that asks an object for its hash. -/
def hashCode : MethodRef := ⟨.object, 1⟩

/-- The method that asks an object for its text. -/
def toText : MethodRef := ⟨.object, 2⟩

/-- The method that asks an instance of an annotation type for that type. -/
def annotationType : MethodRef := ⟨.annotations, 0⟩

/-- The method that asks a lazy proxy for its target without making it. -/
def extractInstance : MethodRef := ⟨.lazyProxy, 0⟩

/-- The method belongs to the root class. -/
def isObjectMethod (m : MethodRef) : Bool :=
  m.owner == .object

end MethodRef

/-- The classes that open every hierarchy. -/
def builtinClasses : List ClassDecl :=
  [{ name := "object"
     methods :=
      [{ name := "equals", parameters := [⟨"other", .any⟩], result := .primitive .boolean },
       { name := "hash_code", result := .primitive .int },
       { name := "to_string", result := .string }] },
   { name := "annotation", kind := .interface
     methods := [{ name := "annotation_type", result := .token }] },
   { name := "lazy_proxy", kind := .interface
     methods := [{ name := "extract_instance", result := .any }] }]

/-- The declared classes, in the order of their declaration. -/
structure Hierarchy where
  classes : Array ClassDecl
  opening : classes.toList.take 3 = builtinClasses
  ordered : ∀ (i : Nat) (h : i < classes.size), ∀ s ∈ classes[i].supertypes, s.index < i
  rooted : ∀ (i : Nat) (h : i < classes.size), classes[i].kind = .annotationType →
    ClassId.annotations ∈ classes[i].supertypes

namespace Hierarchy

/-- The hierarchy of the opening classes alone. -/
def builtin : Hierarchy where
  classes := builtinClasses.toArray
  opening := rfl
  ordered := by
    intro i h s hs
    have h3 : i < 3 := h
    have : i = 0 ∨ i = 1 ∨ i = 2 := by omega
    rcases this with rfl | rfl | rfl <;> simp [builtinClasses] at hs
  rooted := by
    intro i h hKind
    have h3 : i < 3 := h
    have : i = 0 ∨ i = 1 ∨ i = 2 := by omega
    rcases this with rfl | rfl | rfl <;> simp [builtinClasses] at hKind

instance : Inhabited Hierarchy := ⟨builtin⟩

variable (h : Hierarchy)

/-- The opening classes are always there. -/
theorem three_le_size : 3 ≤ h.classes.size := by
  have hLength := congrArg List.length h.opening
  simp only [List.length_take, builtinClasses, List.length_cons, List.length_nil,
    Array.length_toList] at hLength
  omega

/-- The class has been declared. -/
def Declared (c : ClassId) : Prop :=
  c.index < h.classes.size

instance (c : ClassId) : Decidable (h.Declared c) :=
  inferInstanceAs (Decidable (c.index < h.classes.size))

/-- The declaration of a class; an empty one where there is none. -/
def decl (c : ClassId) : ClassDecl :=
  h.classes[c.index]?.getD default

/-- The name of a class. -/
def className (c : ClassId) : String :=
  (h.decl c).name

/-- The direct supertypes of a class. -/
def supertypes (c : ClassId) : List ClassId :=
  (h.decl c).supertypes

/-- Direct supertypes come before the class. -/
theorem index_lt_of_mem_supertypes {c s : ClassId} (hs : s ∈ h.supertypes c) :
    s.index < c.index := by
  unfold supertypes decl at hs
  by_cases hc : c.index < h.classes.size
  · rw [Array.getElem?_eq_getElem hc] at hs
    exact h.ordered c.index hc s hs
  · rw [Array.getElem?_eq_none (Nat.le_of_not_lt hc)] at hs
    simp [default] at hs

/-- The class is an interface or an annotation type. -/
def isInterface (c : ClassId) : Bool :=
  (h.decl c).kind != .concrete

/-- The class is an annotation type. -/
def isAnnotationType (c : ClassId) : Bool :=
  (h.decl c).kind == .annotationType

/-- The declaration of a method; an empty one where there is none. -/
def method (m : MethodRef) : MethodDecl :=
  (h.decl m.owner).methods[m.index]?.getD default

/-- The number of parameters of a method. -/
def arity (m : MethodRef) : Nat :=
  (h.method m).parameters.length

/-- The types of the parameters of a method. -/
def parameterTypes (m : MethodRef) : List Ty :=
  (h.method m).parameters.map Parameter.type

/-- The type of what a method yields: a constructor yields an object of its class. -/
def resultType (m : MethodRef) : Ty :=
  match (h.method m).kind with
  | .constructor => .ofClass m.owner
  | _ => (h.method m).result

/-- The method at a place of a class. -/
def declaredMethod? (c : ClassId) (index : Nat) : Option MethodRef :=
  if index < (h.decl c).methods.length then some ⟨c, index⟩ else none

/-- The methods that a class declares, in order. -/
def declaredMethods (c : ClassId) : List MethodRef :=
  (List.range (h.decl c).methods.length).map (⟨c, ·⟩)

/-- The methods of one name that a class declares, in order. -/
def declaredNamed (c : ClassId) (name : String) : List MethodRef :=
  (h.declaredMethods c).filter fun m => (h.method m).name == name

/-- How a type is written. -/
def tyText : Ty → String
  | .primitive p => p.name
  | .string => "string"
  | .any => "any"
  | .token => "type"
  | .array t => "[" ++ tyText t ++ "]"
  | .ofClass c => h.className c

/-- How a parameter list is written, without its parentheses. -/
def parametersText (types : List Ty) : String :=
  ", ".intercalate (types.map h.tyText)

/-- How a method is written: its class, name, parameter types and result type. -/
def methodText (m : MethodRef) : String :=
  h.className m.owner ++ "." ++ (h.method m).name ++ "(" ++ h.parametersText (h.parameterTypes m) ++
    ") -> " ++ h.tyText (h.resultType m)

/-- The name of the type of a value; null has none of its own. -/
def typeName : Value → String
  | .null => "null"
  | v => h.tyText v.runtimeType

end Hierarchy

end Metaobject
