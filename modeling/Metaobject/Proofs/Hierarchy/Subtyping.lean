import Metaobject.Proofs.Hierarchy.Enumeration

/-!
Searches of a hierarchy as their laws: subtyping is a partial order, and what a search of all that
is above a class comes upon is what can be reached through direct supertypes.
-/
namespace Metaobject.Hierarchy

variable (h : Hierarchy)

/-- The opening classes are declared. -/
theorem declared_opening (i : Nat) (hi : i < builtinClasses.length) : h.Declared ⟨i⟩ :=
  Nat.lt_of_lt_of_le hi h.three_le_size

/-- They are declared as in the list of them. -/
theorem decl_opening (i : Nat) (hi : i < builtinClasses.length) :
    h.decl ⟨i⟩ = builtinClasses[i] := by
  have hThree : i < 3 := hi
  have hSame : h.classes.toList[i]? = builtinClasses[i]? := by
    rw [← h.opening, List.getElem?_take_of_lt hThree]
  rw [Array.getElem?_toList, List.getElem?_eq_getElem hi] at hSame
  rw [decl, hSame, Option.getD_some]

theorem declared_object : h.Declared .object := h.declared_opening 0 (by decide)

theorem decl_object : h.decl .object = builtinClasses[0] := h.decl_opening 0 (by decide)

theorem decl_annotations : h.decl .annotations = builtinClasses[1] :=
  h.decl_opening 1 (by decide)

theorem decl_lazyProxy : h.decl .lazyProxy = builtinClasses[2] := h.decl_opening 2 (by decide)

theorem isAnnotationType_object : h.isAnnotationType .object = false := by
  rw [isAnnotationType, decl_object]
  rfl

theorem isAnnotationType_annotations : h.isAnnotationType .annotations = false := by
  rw [isAnnotationType, decl_annotations]
  rfl

theorem supertypes_object : h.supertypes .object = [] := by
  rw [supertypes, decl_object]
  rfl

variable {h}

/-- The methods of the root are called on an object. -/
theorem kind_of_mem_declaredMethods_object {m : MethodRef}
    (hm : m ∈ h.declaredMethods .object) : (h.method m).kind = .ofInstance := by
  obtain ⟨hOwner, hIndex⟩ := mem_declaredMethods.mp hm
  rw [decl_object] at hIndex
  have hAll : ∀ d ∈ builtinClasses[0].methods, d.kind = .ofInstance := by decide
  rw [method, hOwner, decl_object, List.getElem?_eq_getElem hIndex]
  exact hAll _ (List.getElem_mem hIndex)

/-- One step of a subtype test. -/
theorem isSubtype_iff {a b : ClassId} :
    h.isSubtype a b = true ↔
      a = b ∨ b = .object ∨ ∃ s ∈ h.supertypes a, h.isSubtype s b = true := by
  rw [isSubtype]
  simp [or_assoc]

theorem isSubtype_of_mem_supertypes {a s : ClassId} (hs : s ∈ h.supertypes a) :
    h.isSubtype a s = true :=
  isSubtype_iff.mpr (.inr (.inr ⟨s, hs, h.isSubtype_refl s⟩))

/-- The root is a subtype of itself alone. -/
theorem eq_object_of_isSubtype {b : ClassId} (hb : h.isSubtype .object b = true) : b = .object := by
  rcases isSubtype_iff.mp hb with hEq | hEq | ⟨s, hs, _⟩
  · exact hEq.symm
  · exact hEq
  · rw [supertypes_object] at hs
    cases hs

theorem isSubtype_trans {a b c : ClassId} (hab : h.isSubtype a b = true)
    (hbc : h.isSubtype b c = true) : h.isSubtype a c = true := by
  induction a using supertypes_induction h with
  | step a ih =>
      rcases isSubtype_iff.mp hab with rfl | rfl | ⟨s, hs, hsb⟩
      · exact hbc
      · rw [eq_object_of_isSubtype hbc]
        exact h.isSubtype_object a
      · exact isSubtype_iff.mpr (.inr (.inr ⟨s, hs, ih s hs hsb⟩))

/-- Supertypes were declared before, or are the class itself. -/
theorem index_le_of_isSubtype (hcd : h.isSubtype c d = true) : d.index ≤ c.index := by
  induction c using supertypes_induction h with
  | step c ih =>
      rcases isSubtype_iff.mp hcd with rfl | rfl | ⟨s, hs, hsd⟩
      · exact Nat.le_refl _
      · exact Nat.zero_le _
      · exact Nat.le_trans (ih s hs hsd) (Nat.le_of_lt (h.index_lt_of_mem_supertypes hs))

theorem isSubtype_antisymm (hcd : h.isSubtype c d = true) (hdc : h.isSubtype d c = true) :
    c = d :=
  ClassId.mk.injEq .. ▸
    Nat.le_antisymm (index_le_of_isSubtype hdc) (index_le_of_isSubtype hcd)

theorem Reaches.isSubtype {c d : ClassId} (hReaches : h.Reaches c d) : h.isSubtype c d = true := by
  induction hReaches with
  | refl => exact h.isSubtype_refl c
  | tail _ hs ih => exact isSubtype_trans ih (isSubtype_of_mem_supertypes hs)

/-- All that a class is a subtype of can be reached from it but, perhaps, the root. -/
theorem reaches_of_isSubtype {c d : ClassId} (hcd : h.isSubtype c d = true) (hd : d ≠ .object) :
    h.Reaches c d := by
  induction c using supertypes_induction h with
  | step c ih =>
      rcases isSubtype_iff.mp hcd with rfl | hRoot | ⟨s, hs, hsd⟩
      · exact .refl
      · exact absurd hRoot hd
      · exact .head hs (ih s hs hsd)

/-- What is above a class: itself, the root, and all that can be reached from it. -/
theorem isSubtype_iff_reaches {c d : ClassId} :
    h.isSubtype c d = true ↔ d = c ∨ d = .object ∨ h.Reaches c d := by
  constructor
  · intro hcd
    by_cases hRoot : d = .object
    · exact .inr (.inl hRoot)
    · exact .inr (.inr (reaches_of_isSubtype hcd hRoot))
  · rintro (rfl | rfl | hReaches)
    · exact h.isSubtype_refl d
    · exact h.isSubtype_object c
    · exact hReaches.isSubtype

/-- Every annotation type is below the root of its kind. -/
theorem isSubtype_annotations {c : ClassId} (hc : h.isAnnotationType c = true) :
    h.isSubtype c .annotations = true := by
  apply isSubtype_of_mem_supertypes
  rw [isAnnotationType, decl] at hc
  rw [supertypes, decl]
  by_cases hDeclared : c.index < h.classes.size
  · rw [Array.getElem?_eq_getElem hDeclared] at hc ⊢
    exact h.rooted c.index hDeclared (eq_of_beq hc)
  · rw [Array.getElem?_eq_none (Nat.le_of_not_lt hDeclared)] at hc
    cases hc

theorem isSubtype_owner_of_mem_allMethods {c : ClassId} {m : MethodRef}
    (hm : m ∈ h.allMethods c) : h.isSubtype c m.owner = true := by
  obtain ⟨d, hReaches, hDeclared⟩ := mem_allMethods.mp hm
  rw [(mem_declaredMethods.mp hDeclared).1]
  exact hReaches.isSubtype

end Metaobject.Hierarchy
