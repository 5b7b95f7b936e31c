import Metaobject.Hierarchy.Search

/-!
The members that an implementation of an interface has to supply. For an annotation type they are
the instance methods without parameters that it and the annotation types above it declare, one of
each name; for any other class they are all its instance methods.
-/
namespace Metaobject

/-- A member: the method that reads it, with the name, type and default that the method gives it. -/
structure Member where
  name : String
  type : Ty
  default? : Option Value
  accessor : MethodRef

/-- The members of a class. -/
structure Contract where
  cls : ClassId
  members : List Member

namespace Hierarchy

variable (h : Hierarchy)

/-- The method reads a member of an annotation type. -/
def isAnnotationMember (m : MethodRef) : Bool :=
  (h.method m).kind == .ofInstance && h.arity m == 0 && h.isAnnotationType m.owner

/-- Of methods with one name, only the first. -/
def firstOfEachName (kept : List MethodRef) : List MethodRef → List MethodRef
  | [] => kept
  | m :: rest =>
    if kept.any fun k => (h.method k).name == (h.method m).name then firstOfEachName kept rest
    else firstOfEachName (kept ++ [m]) rest

/-- The methods that read the members of a class. -/
def accessors (c : ClassId) : List MethodRef :=
  if h.isAnnotationType c then
    h.firstOfEachName [] ((h.allMethods c).filter h.isAnnotationMember)
  else
    (h.allMethods c).filter fun m => (h.method m).kind == .ofInstance

/-- The member that a method reads. -/
def memberOf (m : MethodRef) : Member where
  name := (h.method m).name
  type := h.resultType m
  default? := (h.method m).default?
  accessor := m

/-- The members of a class, as they are declared. -/
def contract (c : ClassId) : Contract where
  cls := c
  members := (h.accessors c).map h.memberOf

end Hierarchy

namespace Contract

variable (k : Contract)

/-- The first member of a name. -/
def member? (name : String) : Option Member :=
  k.members.find? fun m => m.name == name

/-- The member that a method reads. -/
def memberFor? (accessor : MethodRef) : Option Member :=
  k.members.find? fun m => m.accessor == accessor

/-- The members without a default. -/
def required : List Member :=
  k.members.filter fun m => m.default?.isNone

/-- Every member has a default. -/
def isMarker : Bool :=
  k.required.isEmpty

end Contract

end Metaobject
