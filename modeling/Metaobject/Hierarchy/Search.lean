import Metaobject.Hierarchy.Basic

/-!
Searching a hierarchy: subtyping, the order in which the classes above a class are visited, and the
methods found on the way. Every search ends because supertypes come before their class.
-/
namespace Metaobject.Hierarchy

variable (h : Hierarchy)

/-- A class is a subtype of itself, of the root, and of all that its supertypes are subtypes of. -/
def isSubtype (a b : ClassId) : Bool :=
  a == b || b == .object || (h.supertypes a).attach.any fun ⟨s, hs⟩ =>
    have := h.index_lt_of_mem_supertypes hs
    isSubtype s b
termination_by a.index

/-- Visit a class and then, in order, all that is above it, passing by what has been visited. -/
def visit (visited : List ClassId) (c : ClassId) : List ClassId :=
  if c ∈ visited then visited
  else
    (h.supertypes c).attach.foldl (fun visited ⟨s, hs⟩ =>
      have := h.index_lt_of_mem_supertypes hs
      visit visited s) (visited ++ [c])
termination_by c.index

/-- A class and all classes above it, each once, in depth-first order of the first visit. -/
def linearization (c : ClassId) : List ClassId :=
  h.visit [] c

/-- The methods that a class declares and then those that it inherits. -/
def allMethods (c : ClassId) : List MethodRef :=
  (h.linearization c).flatMap h.declaredMethods

/-- The first method of a name and a number of parameters that a class declares. -/
def declaredWith? (c : ClassId) (name : String) (arity : Nat) : Option MethodRef :=
  (h.declaredNamed c name).find? fun m => h.arity m == arity

/-- The first method of a name and a number of parameters that a class declares or inherits, its own
before those of its supertypes in order. -/
def declaredOrInherited? (c : ClassId) (name : String) (arity : Nat) : Option MethodRef :=
  (h.declaredWith? c name arity).or <|
    (h.supertypes c).attach.findSome? fun ⟨s, hs⟩ =>
      have := h.index_lt_of_mem_supertypes hs
      declaredOrInherited? s name arity
termination_by c.index

/-- The method that a name and a number of parameters find from a class: one that it declares or
inherits, or else one of the root. -/
def findMethod? (c : ClassId) (name : String) (arity : Nat) : Option MethodRef :=
  (h.declaredOrInherited? c name arity).or (h.declaredWith? .object name arity)

theorem isSubtype_refl (c : ClassId) : h.isSubtype c c = true := by
  unfold isSubtype
  simp

theorem isSubtype_object (c : ClassId) : h.isSubtype c .object = true := by
  unfold isSubtype
  simp

end Metaobject.Hierarchy
