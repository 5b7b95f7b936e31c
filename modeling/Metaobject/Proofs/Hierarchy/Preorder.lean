import Metaobject.Proofs.Hierarchy.Assignability

/-!
Assignability as an order of types. It is reflexive and transitive, and it is antisymmetric but for
one thing: `any` and the root class take the same values, on their own and as the items of arrays. A
type in which the root class stands for `any` is one of the types that can be told apart.
-/
namespace Metaobject

/-- The type with the root class in the place of `any`, however deep inside arrays. -/
def Ty.rootForAny : Ty → Ty
  | .any => .ofClass .object
  | .array t => .array t.rootForAny
  | t => t

theorem Ty.isPrimitive_rootForAny (t : Ty) : t.rootForAny.isPrimitive = t.isPrimitive := by
  cases t <;> rfl

namespace Hierarchy

variable {h : Hierarchy} {s t : Ty}

/-- An array takes what its items take, provided that both sorts of items are primitive or neither.
-/
theorem Takes.array (hTakes : h.Takes t s) (hPrimitive : s.isPrimitive = t.isPrimitive) :
    h.Takes (.array t) (.array s) := by
  cases ht : t.isPrimitive with
  | false => exact .items ht (hPrimitive.trans ht) hTakes
  | true =>
      cases hTakes with
      | same => exact .same
      | _ => cases ht

/-- Where the root class stands for `any`, slots take what they took before. -/
theorem rootForAny_takes (h : Hierarchy) (t : Ty) : h.Takes t.rootForAny t := by
  induction t with
  | any => exact .root
  | array t ih => exact ih.array t.isPrimitive_rootForAny.symm
  | _ => exact .same

/-- They take nothing else. -/
theorem takes_rootForAny (h : Hierarchy) (t : Ty) : h.Takes t t.rootForAny := by
  induction t with
  | any => exact .any
  | array t ih => exact ih.array t.isPrimitive_rootForAny
  | _ => exact .same

/-- Types that take each other's values are the same up to `any` and the root class. -/
theorem Takes.rootForAny_eq (first : h.Takes s t) (second : h.Takes t s) :
    s.rootForAny = t.rootForAny := by
  induction first with
  | any =>
      cases second with
      | any => rfl
      | root => rfl
      | same => rfl
  | root =>
      cases second with
      | any => rfl
      | root => rfl
      | same => rfl
      | above hSubtype => rw [eq_object_of_isSubtype hSubtype]
  | same => rfl
  | above hSubtype =>
      cases second with
      | root => rw [eq_object_of_isSubtype hSubtype]
      | same => rfl
      | above hBack => rw [isSubtype_antisymm hSubtype hBack]
  | items ht hs hTakes ih =>
      cases second with
      | same => rfl
      | items _ _ hBack => exact congrArg Ty.array (ih hBack)

theorem takes_of_rootForAny_eq (hSame : s.rootForAny = t.rootForAny) : h.Takes s t :=
  (h.takes_rootForAny s).trans (hSame ▸ h.rootForAny_takes t)

/-- Assignability is a preorder of types. Slots of `any` and of the root class take all that there
is. Two types are assignable from each other if and only if they are the same once the root class
stands for `any` in both, on its own and as the element type of arrays at any depth. -/
theorem preorder_of_types (h : Hierarchy) (r s t : Ty) :
    h.isAssignable t t = true ∧
    (h.isAssignable t s = true → h.isAssignable s r = true → h.isAssignable t r = true) ∧
    h.isAssignable .any t = true ∧
    h.isAssignable (.ofClass .object) t = true ∧
    (h.isAssignable s t = true ∧ h.isAssignable t s = true ↔ s.rootForAny = t.rootForAny) := by
  simp only [isAssignable_iff_takes]
  refine ⟨.same, Takes.trans, .any, .root, ?_⟩
  constructor
  · rintro ⟨first, second⟩
    exact first.rootForAny_eq second
  · intro hSame
    exact ⟨takes_of_rootForAny_eq hSame, takes_of_rootForAny_eq hSame.symm⟩

/-- Lists of lists of texts go where lists of lists of anything do, and these go where lists of
lists of objects do, and back; but the last step does not lead back to lists of lists of texts. -/
theorem preorder_of_lists :
    builtin.isAssignable (.array (.array (.ofClass .object))) (.array (.array .any)) = true ∧
    builtin.isAssignable (.array (.array .any)) (.array (.array .string)) = true ∧
    builtin.isAssignable (.array (.array (.ofClass .object))) (.array (.array .string)) = true ∧
    builtin.isAssignable (.array (.array .any)) (.array (.array (.ofClass .object))) = true ∧
    builtin.isAssignable (.array (.array .string)) (.array (.array .any)) = false := by
  obtain ⟨-, hTrans, -, -, hSame⟩ := builtin.preorder_of_types (.array (.array .string))
    (.array (.array .any)) (.array (.array (.ofClass .object)))
  obtain ⟨hBack, hThere⟩ := hSame.mpr rfl
  have hTexts : builtin.isAssignable (.array (.array .any)) (.array (.array .string)) = true := rfl
  exact ⟨hThere, hTexts, hTrans hThere hTexts, hBack, rfl⟩

end Hierarchy

end Metaobject
