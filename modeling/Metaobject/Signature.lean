import Metaobject.Hierarchy.Search

/-!
Signatures: the types of the parameters of a method and the type of its result. A signature is
written `(T, U) -> R`, and matches a method when all of these are the method's own.
-/
namespace Metaobject

/-- Parameter types and a result type. -/
structure Signature where
  parameters : List Ty
  result : Ty
deriving DecidableEq, Repr

namespace Signature

/-- The signature of a method. -/
def ofMethod (h : Hierarchy) (m : MethodRef) : Signature :=
  ⟨h.parameterTypes m, h.resultType m⟩

/-- How a signature is written. -/
def text (h : Hierarchy) (s : Signature) : String :=
  "(" ++ h.parametersText s.parameters ++ ") -> " ++ h.tyText s.result

/-- The method has this signature. -/
def isOf (h : Hierarchy) (s : Signature) (m : MethodRef) : Bool :=
  h.parameterTypes m == s.parameters && h.resultType m == s.result

theorem isOf_iff (h : Hierarchy) (s : Signature) (m : MethodRef) :
    s.isOf h m = true ↔ ofMethod h m = s := by
  obtain ⟨ps, t⟩ := s
  simp [isOf, ofMethod]

end Signature

end Metaobject
