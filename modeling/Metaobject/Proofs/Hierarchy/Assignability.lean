import Metaobject.Proofs.Hierarchy.Conversion
import Metaobject.Proofs.Hierarchy.Subtyping

/-!
Assignability and instance tests. The two overlap, and each has rules of its own for the root class
and for arrays; besides, null is an instance of all but the primitive types, and an array may pass
by its items. Still a value passes for all types that are assignable from one that it passes for,
and apart from null and arrays it passes for no others than those assignable from the type that it
was made with.
-/
namespace Metaobject.Hierarchy

/-- Slots of the first type take what slots of the second take, for one of five reasons. -/
inductive Takes (h : Hierarchy) : Ty → Ty → Prop where
  | any {t : Ty} : Takes h .any t
  | root {t : Ty} : Takes h (.ofClass .object) t
  | same {t : Ty} : Takes h t t
  | above {c d : ClassId} (hSubtype : h.isSubtype d c = true) : Takes h (.ofClass c) (.ofClass d)
  | items {t u : Ty} (ht : t.isPrimitive = false) (hu : u.isPrimitive = false)
      (hTakes : Takes h t u) : Takes h (.array t) (.array u)

variable {h : Hierarchy} {s t u : Ty}

theorem isAssignable_root (h : Hierarchy) (t : Ty) :
    h.isAssignable (.ofClass .object) t = true := by
  cases t with
  | ofClass c => exact h.isSubtype_object c
  | _ => rfl

theorem Takes.isAssignable (hTakes : h.Takes t u) : h.isAssignable t u = true := by
  induction hTakes with
  | any => rfl
  | root => exact h.isAssignable_root _
  | same => exact h.isAssignable_refl _
  | above hSubtype => exact hSubtype
  | items ht hu _ ih => simpa [Hierarchy.isAssignable, ht, hu] using ih

theorem takes_of_isAssignable (hAssignable : h.isAssignable t u = true) : h.Takes t u := by
  induction t generalizing u with
  | any => exact .any
  | array t ih =>
      cases u with
      | array u =>
          rw [isAssignable] at hAssignable
          split at hAssignable
          · rw [eq_of_beq hAssignable]
            exact .same
          · next hPrimitive =>
              simp only [Bool.or_eq_true, not_or, Bool.not_eq_true] at hPrimitive
              exact .items hPrimitive.1 hPrimitive.2 (ih hAssignable)
      | _ => cases hAssignable
  | ofClass c =>
      cases u with
      | ofClass d => exact .above hAssignable
      | _ =>
          rw [eq_of_beq (a := c) hAssignable]
          exact .root
  | primitive p =>
      cases u with
      | primitive q =>
          rw [eq_of_beq (a := p) hAssignable]
          exact .same
      | _ => cases hAssignable
  | string =>
      cases u with
      | string => exact .same
      | _ => cases hAssignable
  | token =>
      cases u with
      | token => exact .same
      | _ => cases hAssignable

theorem isAssignable_iff_takes : h.isAssignable t u = true ↔ h.Takes t u :=
  ⟨takes_of_isAssignable, Takes.isAssignable⟩

theorem Takes.trans (first : h.Takes t u) (second : h.Takes u s) : h.Takes t s := by
  induction first generalizing s with
  | any => exact .any
  | root => exact .root
  | same => exact second
  | above hSubtype =>
      cases second with
      | root =>
          rw [eq_object_of_isSubtype hSubtype]
          exact .root
      | same => exact .above hSubtype
      | above hSubtype' => exact .above (isSubtype_trans hSubtype' hSubtype)
  | items ht hu hTakes ih =>
      cases second with
      | same => exact .items ht hu hTakes
      | items _ hs hTakes' => exact .items ht hs (ih hTakes')

theorem isInstance_any (h : Hierarchy) (v : Value) : h.isInstance v .any = true := by
  cases v <;> rfl

theorem isInstance_root (h : Hierarchy) (v : Value) :
    h.isInstance v (.ofClass .object) = true := by
  cases v with
  | object o => exact h.isSubtype_object o.cls
  | _ => rfl

/-- Every value is an instance of the type that it was made with. -/
theorem isInstance_runtimeType (h : Hierarchy) (v : Value) :
    h.isInstance v v.runtimeType = true := by
  cases v with
  | array t items => exact h.isInstance_array t items
  | object o => exact h.isSubtype_refl o.cls
  | _ => rfl

/-- An array is an instance of an array type by its element type or by its items. -/
theorem isInstance_array_iff {items : List Value} :
    h.isInstance (.array u items) (.array t) = true ↔ h.Takes (.array t) (.array u) ∨
      t.isPrimitive = false ∧ u.isPrimitive = false ∧ h.allInstances items t = true := by
  simp only [isInstance, Bool.or_eq_true, Bool.and_eq_true, Bool.not_eq_true', and_assoc,
    isAssignable_iff_takes]

/-- Lists are tested item by item. -/
theorem allInstances_iff {vs : List Value} :
    h.allInstances vs t = true ↔ ∀ v ∈ vs, h.isInstance v t = true := by
  induction vs with
  | nil => simp [allInstances]
  | cons v vs ih => simp [allInstances, ih]

/-- Apart from null and arrays, values pass for what the type that they were made with passes
for. -/
theorem isInstance_eq_isAssignable {v : Value} (hNull : v.isNull = false)
    (hArray : v.array? = none) : h.isInstance v t = h.isAssignable t v.runtimeType := by
  cases v with
  | null => cases hNull
  | array t items => cases hArray
  | _ => cases t <;> rfl

namespace Takes

mutual

theorem isInstance {t s : Ty} (hTakes : h.Takes t s) (v : Value) (hv : h.isInstance v s = true) :
    h.isInstance v t = true := by
  cases hTakes with
  | any => exact h.isInstance_any v
  | root => exact h.isInstance_root v
  | same => exact hv
  | @above c d hSubtype =>
      cases v with
      | null => rfl
      | object o => exact isSubtype_trans hv hSubtype
      | _ =>
          -- the value passes for the root alone, and nothing else is above the root
          rw [eq_of_beq (a := d) hv] at hSubtype
          rw [eq_object_of_isSubtype hSubtype]
          exact h.isInstance_root _
  | items ht hs hItems =>
      cases v with
      | null => rfl
      | array u vs =>
          rw [isInstance_array_iff] at hv ⊢
          rcases hv with hType | ⟨_, hu, hAll⟩
          · exact .inl ((items ht hs hItems).trans hType)
          · exact .inr ⟨ht, hu, hItems.allInstances vs hAll⟩
      | _ => exact hv

theorem allInstances {t s : Ty} (hTakes : h.Takes t s) (vs : List Value)
    (hvs : h.allInstances vs s = true) : h.allInstances vs t = true := by
  cases vs with
  | nil => rfl
  | cons v rest =>
      simp only [Hierarchy.allInstances, Bool.and_eq_true] at hvs ⊢
      exact ⟨hTakes.isInstance v hvs.1, hTakes.allInstances rest hvs.2⟩

end

end Takes

/-- A value is an instance of every type that is assignable from one it is an instance of, so from
the type that it was made with. Unless it is null or an array, these are all that it is an instance
of. -/
theorem isInstance_of_isAssignable (h : Hierarchy) (v : Value) :
    (∀ s t, h.isInstance v s = true → h.isAssignable t s = true → h.isInstance v t = true) ∧
    (∀ t, h.isAssignable t v.runtimeType = true → h.isInstance v t = true) ∧
    (v.isNull = false → v.array? = none →
      ∀ t, h.isInstance v t = true ↔ h.isAssignable t v.runtimeType = true) := by
  have hRespects (s t : Ty) (hv : h.isInstance v s = true) (hts : h.isAssignable t s = true) :
      h.isInstance v t = true := (isAssignable_iff_takes.mp hts).isInstance v hv
  refine ⟨hRespects, fun t ht => hRespects _ t (h.isInstance_runtimeType v) ht, ?_⟩
  intro hNull hArray t
  rw [isInstance_eq_isAssignable hNull hArray]

/-- Names in a list, and nothing in the place of a list, in an array of anything. -/
def nameLists : Value :=
  .array .any [.array .string [.string "a"], .null]

/-- The array is an array of lists of names, by its items alone, hence one of lists of anything. -/
theorem isInstance_nameLists :
    Hierarchy.builtin.isInstance nameLists (.array (.array .string)) = true ∧
    Hierarchy.builtin.isAssignable (.array (.array .string)) nameLists.runtimeType = false ∧
    Hierarchy.builtin.isInstance nameLists (.array (.array (.ofClass .object))) = true ∧
    (Hierarchy.builtin.isInstance (.string "a") (.ofClass .object) = true ↔
      Hierarchy.builtin.isAssignable (.ofClass .object) .string = true) := by
  have hLists : Hierarchy.builtin.isInstance nameLists (.array (.array .string)) = true := rfl
  obtain ⟨hRespects, _, _⟩ := isInstance_of_isAssignable Hierarchy.builtin nameLists
  obtain ⟨_, _, hSame⟩ := isInstance_of_isAssignable Hierarchy.builtin (.string "a")
  exact ⟨hLists, rfl, hRespects _ _ hLists rfl, hSame rfl rfl _⟩

end Metaobject.Hierarchy
