import Metaobject.Signature.Reader

/-!
References to methods in a form that can be passed on: every class is named, and the method is given
by its name and its written signature. A function that stands for a method carries such a form.
-/
namespace Metaobject

/-- How the code behind a reference is called. -/
inductive ReferenceKind where
  | static
  | virtual
  | interface
  | special
  | newInstance
deriving DecidableEq, Repr

/-- A reference to a method by names, with the values it was given in advance. -/
structure ReferenceForm where
  capturingClass : String
  kind : ReferenceKind
  cls : String
  method : String
  signature : String
  captures : List Value

/-- The form of a reference to a method, made in a class. -/
def ReferenceForm.describe (h : Hierarchy) (kind : ReferenceKind) (m : MethodRef)
    (capturing : ClassId) (captures : List Value) : ReferenceForm where
  capturingClass := h.className capturing
  kind := kind
  cls := h.className m.owner
  method := (h.method m).name
  signature := (Signature.ofMethod h m).text h
  captures := captures

/-- A function with the form of the method that it stands for, if it stands for one. -/
structure Reference (φ : Type) where
  function : φ
  form? : Option ReferenceForm

namespace Reference

variable {φ : Type} (h : Hierarchy)

/-- A reference whose form was made in the class of the method. -/
def describing (kind : ReferenceKind) (m : MethodRef) (captures : List Value) (f : φ) :
    Reference φ where
  function := f
  form? := some (.describe h kind m m.owner captures)

/-- Methods of classes and of interfaces are called in different ways. -/
def instanceKind (m : MethodRef) : ReferenceKind :=
  if h.isInterface m.owner then .interface else .virtual

/-- A reference to a static method. -/
def ofStatic (m : MethodRef) (f : φ) : Reference φ :=
  describing h .static m [] f

/-- A reference to a method whose receiver comes with each call. -/
def ofInstance (m : MethodRef) (f : φ) : Reference φ :=
  describing h (instanceKind h m) m [] f

/-- A reference to a method of one receiver. -/
def bound (m : MethodRef) (receiver : Value) (f : φ) : Reference φ :=
  describing h (instanceKind h m) m [receiver] f

/-- A reference to a constructor. -/
def ofConstructor (m : MethodRef) (f : φ) : Reference φ :=
  describing h .newInstance m [] f

/-- A function written in a class, whose code is a method that takes the captured values first. -/
def lambda (capturing : ClassId) (body : MethodRef) (captures : List Value) (f : φ) :
    Reference φ where
  function := f
  form? := some (.describe h .special body capturing captures)

/-- A function that stands for no method. -/
def synthetic (f : φ) : Reference φ := ⟨f, none⟩

/-- A function with a form made elsewhere. -/
def ofForm (form : ReferenceForm) (f : φ) : Reference φ := ⟨f, some form⟩

end Reference

end Metaobject
