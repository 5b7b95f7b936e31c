import Metaobject.Proofs.Hierarchy.Growth

/-!
Conversions to the type of a slot. What a conversion yields may stand in the slot, and a hierarchy
that grows takes back neither a test that has succeeded nor a conversion.
-/
namespace Metaobject.Hierarchy

variable {h k : Hierarchy}

theorem isAssignable_refl (h : Hierarchy) (t : Ty) : h.isAssignable t t = true := by
  induction t with
  | primitive p => simp [isAssignable]
  | array t ih =>
      rw [isAssignable]
      split
      · simp
      · exact ih
  | ofClass c => exact h.isSubtype_refl c
  | _ => rfl

/-- An array is an instance of its own type, whatever its items are. -/
theorem isInstance_array (h : Hierarchy) (t : Ty) (items : List Value) :
    h.isInstance (.array t items) (.array t) = true := by
  rw [isInstance, isAssignable_refl]
  rfl

theorem isInstance_of_widen? {v w : Value} {p : Primitive} (hWiden : v.widen? p = some w) :
    h.isInstance w (.primitive p) = true := by
  unfold Value.widen? at hWiden
  split at hWiden <;> cases hWiden <;> rfl

/-- A value that is kept as it is may stand in the slot. -/
theorem kept_eq_some_iff {v w : Value} {t : Ty} :
    (if h.isInstance v t then some v else none) = some w ↔ h.isInstance v t = true ∧ v = w := by
  simp

theorem convert?_primitive (h : Hierarchy) (v : Value) (p : Primitive) :
    h.convert? v (.primitive p) =
      (v.widen? p).or (if h.isInstance v (.primitive p) then some v else none) := by
  cases v <;> rfl

/-- There are three ways in which a value is converted. -/
theorem convert?_cases {v w : Value} {t : Ty} (hConvert : h.convert? v t = some w) :
    (w = v ∧ h.isInstance v t = true) ∨
      (∃ p, t = .primitive p ∧ v.widen? p = some w) ∨
      ∃ u items s ws, v = .array u items ∧ t = .array s ∧ h.convertAll? items s = some ws ∧
        w = .array s ws := by
  have hKept (hSome : (if h.isInstance v t then some v else none) = some w) :
      w = v ∧ h.isInstance v t = true :=
    (kept_eq_some_iff.mp hSome).symm.imp_left Eq.symm
  cases t with
  | primitive p =>
      rw [convert?_primitive] at hConvert
      rcases Option.or_eq_some_iff.mp hConvert with hWiden | ⟨_, hSome⟩
      · exact .inr (.inl ⟨p, rfl, hWiden⟩)
      · exact .inl (hKept hSome)
  | array t =>
      cases v with
      | array u items =>
          rw [convert?] at hConvert
          split at hConvert
          · next hSame =>
              cases hConvert
              exact .inl ⟨rfl, hSame ▸ h.isInstance_array u items⟩
          · obtain ⟨ws, hws, hw⟩ := Option.map_eq_some_iff.mp hConvert
            exact .inr (.inr ⟨u, items, t, ws, rfl, rfl, hws, hw.symm⟩)
      | _ => exact .inl (hKept hConvert)
  | _ => cases v <;> exact .inl (hKept hConvert)

/-- A converted value may stand in the slot that it was converted for. -/
theorem isInstance_of_convert? {v w : Value} {t : Ty} (hConvert : h.convert? v t = some w) :
    h.isInstance w t = true := by
  rcases convert?_cases hConvert with
    ⟨rfl, hInstance⟩ | ⟨p, rfl, hWiden⟩ | ⟨u, items, s, ws, -, rfl, -, rfl⟩
  · exact hInstance
  · exact isInstance_of_widen? hWiden
  · exact h.isInstance_array s ws

namespace GrowsTo

theorem isAssignable (hk : h.GrowsTo k) {t u : Ty} (htu : h.isAssignable t u = true) :
    k.isAssignable t u = true := by
  induction t generalizing u with
  | array t ih =>
      cases u with
      | array u =>
          rw [Hierarchy.isAssignable] at htu ⊢
          split at htu
          · next hPrimitive => rwa [if_pos hPrimitive]
          · next hPrimitive =>
              rw [if_neg hPrimitive]
              exact ih htu
      | _ => cases htu
  | ofClass c =>
      cases u with
      | ofClass d => exact hk.isSubtype htu
      | _ => exact htu
  | _ => cases u <;> exact htu

mutual

theorem isInstance (hk : h.GrowsTo k) (v : Value) (t : Ty) (hv : h.isInstance v t = true) :
    k.isInstance v t = true := by
  cases v with
  | array u items =>
      cases t with
      | array t =>
          simp only [Hierarchy.isInstance, Bool.or_eq_true, Bool.and_eq_true] at hv ⊢
          rcases hv with hType | ⟨hPrimitive, hItems⟩
          · exact .inl (hk.isAssignable hType)
          · exact .inr ⟨hPrimitive, hk.allInstances items t hItems⟩
      | _ => exact hv
  | object o =>
      cases t with
      | ofClass c => exact hk.isSubtype hv
      | _ => exact hv
  | _ => cases t <;> exact hv

theorem allInstances (hk : h.GrowsTo k) (vs : List Value) (t : Ty)
    (hvs : h.allInstances vs t = true) : k.allInstances vs t = true := by
  cases vs with
  | nil => rfl
  | cons v rest =>
      simp only [Hierarchy.allInstances, Bool.and_eq_true] at hvs ⊢
      exact ⟨hk.isInstance v t hvs.1, hk.allInstances rest t hvs.2⟩

end

mutual

theorem convert? (hk : h.GrowsTo k) (v : Value) (t : Ty) (w : Value)
    (hConvert : h.convert? v t = some w) : k.convert? v t = some w := by
  have hKept (hSome : (if h.isInstance v t then some v else none) = some w) :
      (if k.isInstance v t then some v else none) = some w :=
    kept_eq_some_iff.mpr ((kept_eq_some_iff.mp hSome).imp_left (hk.isInstance v t))
  cases t with
  | primitive p =>
      rw [convert?_primitive] at hConvert ⊢
      rcases Option.or_eq_some_iff.mp hConvert with hWiden | ⟨hNone, hSome⟩
      · rw [hWiden]
        rfl
      · rw [hNone]
        exact hKept hSome
  | array t =>
      cases v with
      | array u items =>
          rw [Hierarchy.convert?] at hConvert ⊢
          split at hConvert
          · next hSame => rwa [if_pos hSame]
          · next hOther =>
              rw [if_neg hOther]
              obtain ⟨ws, hws, rfl⟩ := Option.map_eq_some_iff.mp hConvert
              rw [hk.convertAll? items t ws hws]
              rfl
      | _ => exact hKept hConvert
  | _ => cases v <;> exact hKept hConvert

theorem convertAll? (hk : h.GrowsTo k) (vs : List Value) (t : Ty) (ws : List Value)
    (hConvert : h.convertAll? vs t = some ws) : k.convertAll? vs t = some ws := by
  cases vs with
  | nil => exact hConvert
  | cons v rest =>
      rw [Hierarchy.convertAll?] at hConvert ⊢
      split at hConvert
      · next w hw =>
          rw [hk.convert? v t w hw]
          obtain ⟨us, hus, rfl⟩ := Option.map_eq_some_iff.mp hConvert
          rw [hk.convertAll? rest t us hus]
          rfl
      · cases hConvert

end

end GrowsTo

mutual

/-- What a value converts to does not depend on the hierarchy, only whether it converts does. -/
theorem convert?_unique (v : Value) (t : Ty) {a b : Value} (ha : h.convert? v t = some a)
    (hb : k.convert? v t = some b) : a = b := by
  have hKept (hFirst : (if h.isInstance v t then some v else none) = some a)
      (hSecond : (if k.isInstance v t then some v else none) = some b) : a = b :=
    (kept_eq_some_iff.mp hFirst).2.symm.trans (kept_eq_some_iff.mp hSecond).2
  cases t with
  | primitive p =>
      rw [convert?_primitive] at ha hb
      cases hWiden : v.widen? p with
      | some w =>
          rw [hWiden] at ha hb
          exact (Option.some.inj ha).symm.trans (Option.some.inj hb)
      | none =>
          rw [hWiden] at ha hb
          exact hKept ha hb
  | array t =>
      cases v with
      | array u items =>
          rw [convert?] at ha hb
          split at ha
          · next hSame =>
              rw [if_pos hSame] at hb
              exact (Option.some.inj ha).symm.trans (Option.some.inj hb)
          · next hOther =>
              rw [if_neg hOther] at hb
              obtain ⟨xs, hxs, rfl⟩ := Option.map_eq_some_iff.mp ha
              obtain ⟨ys, hys, rfl⟩ := Option.map_eq_some_iff.mp hb
              rw [convertAll?_unique items t hxs hys]
      | _ => exact hKept ha hb
  | _ => cases v <;> exact hKept ha hb

theorem convertAll?_unique (vs : List Value) (t : Ty) {xs ys : List Value}
    (hxs : h.convertAll? vs t = some xs) (hys : k.convertAll? vs t = some ys) : xs = ys := by
  cases vs with
  | nil => exact (Option.some.inj hxs).symm.trans (Option.some.inj hys)
  | cons v rest =>
      rw [convertAll?] at hxs hys
      split at hxs
      · next a ha =>
          split at hys
          · next b hb =>
              obtain ⟨us, hus, rfl⟩ := Option.map_eq_some_iff.mp hxs
              obtain ⟨ws, hws, rfl⟩ := Option.map_eq_some_iff.mp hys
              rw [convert?_unique v t ha hb, convertAll?_unique rest t hus hws]
          · cases hys
      · cases hxs

end

end Metaobject.Hierarchy
