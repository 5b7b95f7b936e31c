import Metaobject.Hierarchy.Definition
import Metaobject.Proofs.Hierarchy.Subtyping

/-!
Growing hierarchies. A hierarchy that has grown has the same classes at the same places, so what was
said of a declared class is still true of it: its declaration, the classes above it, its methods and
its members. Subtype tests, instance tests and conversions that succeed keep succeeding.
-/
namespace Metaobject.Hierarchy

/-- One hierarchy has grown into another: classes were only added, at the end. -/
def GrowsTo (h k : Hierarchy) : Prop :=
  h.classes.toList <+: k.classes.toList

variable {h k l : Hierarchy}

theorem GrowsTo.refl (h : Hierarchy) : h.GrowsTo h := List.prefix_rfl

theorem GrowsTo.trans (first : h.GrowsTo k) (second : k.GrowsTo l) : h.GrowsTo l :=
  List.IsPrefix.trans first second

/-- Declaring a class lets the hierarchy grow. -/
theorem growsTo_define (h : Hierarchy) (b : ClassBuilder) : h.GrowsTo (h.define b).1 := by
  simp [GrowsTo, define, declare]

theorem declared_define (h : Hierarchy) (b : ClassBuilder) :
    (h.define b).1.Declared (h.define b).2 := by
  simp [Declared, define, declare]

theorem declared_define_iff {b : ClassBuilder} {c : ClassId} :
    (h.define b).1.Declared c ↔ h.Declared c ∨ c = (h.define b).2 := by
  obtain ⟨i⟩ := c
  simp only [Declared, define, declare, Array.size_push, ClassId.mk.injEq]
  omega

/-- The declaration of a class that has just been declared. -/
theorem decl_define (h : Hierarchy) (b : ClassBuilder) :
    (h.define b).1.decl (h.define b).2 =
      { name := b.name, kind := b.kind, synthetic := b.synthetic
        supertypes := b.supertypes.filter (·.index < h.classes.size)
        methods := b.methods.map h.fitDefault } := by
  simp [decl, define, declare]

theorem declared_of_mem_supertypes {c s : ClassId} (hc : h.Declared c)
    (hs : s ∈ h.supertypes c) : h.Declared s :=
  Nat.lt_trans (h.index_lt_of_mem_supertypes hs) hc

theorem decl_of_not_declared {c : ClassId} (hc : ¬ h.Declared c) : h.decl c = default := by
  rw [decl, Array.getElem?_eq_none (Nat.le_of_not_lt hc)]
  rfl

theorem declared_of_isInterface {c : ClassId} (hc : h.isInterface c = true) : h.Declared c := by
  by_contra hNot
  rw [isInterface, decl_of_not_declared hNot] at hc
  cases hc

theorem isInterface_of_isAnnotationType {c : ClassId} (hc : h.isAnnotationType c = true) :
    h.isInterface c = true := by
  rw [isInterface, eq_of_beq hc]
  rfl

theorem declared_of_isAnnotationType {c : ClassId} (hc : h.isAnnotationType c = true) :
    h.Declared c :=
  declared_of_isInterface (isInterface_of_isAnnotationType hc)

theorem Reaches.declared {c d : ClassId} (hReaches : h.Reaches c d) (hc : h.Declared c) :
    h.Declared d := by
  induction hReaches with
  | refl => exact hc
  | tail _ hs ih => exact declared_of_mem_supertypes ih hs

theorem declared_of_isSubtype {c d : ClassId} (hcd : h.isSubtype c d = true) (hc : h.Declared c) :
    h.Declared d := by
  rcases isSubtype_iff_reaches.mp hcd with rfl | rfl | hReaches
  · exact hc
  · exact h.declared_object
  · exact hReaches.declared hc

namespace GrowsTo

variable {c : ClassId} {m : MethodRef}

theorem declared (hk : h.GrowsTo k) (hc : h.Declared c) : k.Declared c :=
  Nat.lt_of_lt_of_le hc hk.length_le

/-- The declaration of a class never changes. -/
theorem decl_eq (hk : h.GrowsTo k) (hc : h.Declared c) : k.decl c = h.decl c := by
  obtain ⟨added, hAdded⟩ := hk
  rw [decl, decl, ← Array.getElem?_toList, ← hAdded, List.getElem?_append_left hc,
    Array.getElem?_toList]

theorem className_eq (hk : h.GrowsTo k) (hc : h.Declared c) : k.className c = h.className c := by
  rw [className, hk.decl_eq hc, className]

theorem isAnnotationType_eq (hk : h.GrowsTo k) (hc : h.Declared c) :
    k.isAnnotationType c = h.isAnnotationType c := by
  rw [isAnnotationType, hk.decl_eq hc, isAnnotationType]

theorem supertypes_eq (hk : h.GrowsTo k) (hc : h.Declared c) : k.supertypes c = h.supertypes c := by
  rw [supertypes, hk.decl_eq hc, supertypes]

theorem method_eq (hk : h.GrowsTo k) (hm : h.Declared m.owner) : k.method m = h.method m := by
  rw [method, hk.decl_eq hm, method]

theorem arity_eq (hk : h.GrowsTo k) (hm : h.Declared m.owner) : k.arity m = h.arity m := by
  rw [arity, hk.method_eq hm, arity]

theorem resultType_eq (hk : h.GrowsTo k) (hm : h.Declared m.owner) :
    k.resultType m = h.resultType m := by
  rw [resultType, hk.method_eq hm, resultType]

/-- No class loses a supertype, not even one that has not been declared. -/
theorem mem_supertypes (hk : h.GrowsTo k) {s : ClassId} (hs : s ∈ h.supertypes c) :
    s ∈ k.supertypes c := by
  by_cases hc : h.Declared c
  · rwa [hk.supertypes_eq hc]
  · rw [supertypes, decl_of_not_declared hc] at hs
    cases hs

theorem isSubtype (hk : h.GrowsTo k) {a b : ClassId} (hab : h.isSubtype a b = true) :
    k.isSubtype a b = true := by
  induction a using supertypes_induction h with
  | step a ih =>
      rcases isSubtype_iff.mp hab with rfl | rfl | ⟨s, hs, hsb⟩
      · exact k.isSubtype_refl a
      · exact k.isSubtype_object a
      · exact isSubtype_iff.mpr (.inr (.inr ⟨s, hk.mem_supertypes hs, ih s hs hsb⟩))

theorem visit_eq (hk : h.GrowsTo k) (hc : h.Declared c) (visited : List ClassId) :
    k.visit visited c = h.visit visited c := by
  induction c using supertypes_induction h generalizing visited with
  | step c ih =>
      rw [Hierarchy.visit_eq, Hierarchy.visit_eq, hk.supertypes_eq hc]
      split
      · rfl
      · apply List.foldl_ext
        intro before s hs
        exact ih s hs (declared_of_mem_supertypes hc hs) before

theorem linearization_eq (hk : h.GrowsTo k) (hc : h.Declared c) :
    k.linearization c = h.linearization c :=
  hk.visit_eq hc []

theorem declaredMethods_eq (hk : h.GrowsTo k) (hc : h.Declared c) :
    k.declaredMethods c = h.declaredMethods c := by
  rw [declaredMethods, hk.decl_eq hc, declaredMethods]

theorem allMethods_eq (hk : h.GrowsTo k) (hc : h.Declared c) : k.allMethods c = h.allMethods c := by
  rw [allMethods, hk.linearization_eq hc, allMethods]
  apply List.flatMap_congr
  intro d hd
  exact hk.declaredMethods_eq ((mem_linearization.mp hd).declared hc)

end GrowsTo

end Metaobject.Hierarchy
