import Mathlib.Data.List.Forall2
import Metaobject.Proofs.Hierarchy.Assignability

/-!
Values that conform to a type all the way down. Where the type has an array, an array that conforms
has just this element type, and every item of it conforms in turn. A conversion makes a value
conform, except for one thing: an array that has the element type of its slot already is taken at
its word, and its items are not looked at. As long as such arrays keep to what they promise, a
conversion yields what conforms, and it does not matter how loosely arrays were typed before.
-/
namespace Metaobject.Hierarchy

/-- A value stands in a slot of the type as it should, and so does everything in it. -/
inductive Conforms (h : Hierarchy) : Value → Ty → Prop where
  | any {v : Value} : Conforms h v .any
  | null {t : Ty} (ht : t.isPrimitive = false) : Conforms h .null t
  | exact {v : Value} (hv : v.array? = none) : Conforms h v v.runtimeType
  | root {v : Value} : Conforms h v (.ofClass .object)
  | object {o : ObjectRef} {c : ClassId} (hSubtype : h.isSubtype o.cls c = true) :
      Conforms h (.object o) (.ofClass c)
  | array {t : Ty} {items : List Value} (hItems : ∀ v ∈ items, Conforms h v t) :
      Conforms h (.array t items) (.array t)

/-- Arrays in a value keep what they promise to a slot of the type: those that have the element type
of their place already hold items that conform to it. Nothing is asked of other arrays but the same
for their items. -/
inductive Reliable (h : Hierarchy) : Value → Ty → Prop where
  | exact {t : Ty} {items : List Value} (hItems : ∀ v ∈ items, h.Conforms v t) :
      Reliable h (.array t items) (.array t)
  | loose {t u : Ty} {items : List Value} (hOther : u ≠ t) (hItems : ∀ v ∈ items, Reliable h v t) :
      Reliable h (.array u items) (.array t)
  | single {v : Value} {t : Ty} (hv : v.array? = none) : Reliable h v t
  | whole {v : Value} {t : Ty} (ht : t.element? = none) : Reliable h v t

/-- Two values for a slot of the type that differ at most in the element types of arrays, where the
slot has arrays. -/
inductive Retyped : Ty → Value → Value → Prop where
  | same {t : Ty} {v : Value} : Retyped t v v
  | array {t u u' : Ty} {items items' : List Value} (hLength : items.length = items'.length)
      (hItems : ∀ v v', (v, v') ∈ items.zip items' → Retyped t v v') :
      Retyped (.array t) (.array u items) (.array u' items')

variable {h : Hierarchy} {v w : Value} {t u : Ty}

/-- Outside the arrays of a slot, conforming is being an instance. -/
theorem conforms_of_isInstance (hInstance : h.isInstance v t = true)
    (hOutside : v.array? = none ∨ t.element? = none) : h.Conforms v t := by
  cases t with
  | any => exact .any
  | primitive p =>
      cases v with
      | null => cases hInstance
      | string _ => cases hInstance
      | array _ _ => cases hInstance
      | token _ => cases hInstance
      | object _ => cases hInstance
      | _ =>
          rw [eq_of_beq (a := p) hInstance]
          exact .exact rfl
  | string =>
      cases v with
      | null => exact .null rfl
      | string _ => exact .exact rfl
      | _ => cases hInstance
  | token =>
      cases v with
      | null => exact .null rfl
      | token _ => exact .exact rfl
      | _ => cases hInstance
  | array t =>
      cases v with
      | null => exact .null rfl
      | array u items =>
          rcases hOutside with hv | ht
          · cases hv
          · cases ht
      | _ => cases hInstance
  | ofClass c =>
      cases v with
      | null => exact .null rfl
      | object o => exact .object hInstance
      | _ =>
          rw [eq_of_beq (a := c) hInstance]
          exact .root

/-- What conforms may stand in the slot. -/
theorem Conforms.isInstance (hv : h.Conforms v t) : h.isInstance v t = true := by
  cases hv with
  | any => exact h.isInstance_any v
  | null ht =>
      cases t with
      | primitive p => cases ht
      | _ => rfl
  | exact _ => exact h.isInstance_runtimeType v
  | root => exact h.isInstance_root v
  | object hSubtype => exact hSubtype
  | array _ => exact h.isInstance_array _ _

/-- Outside the arrays of a slot that is not primitive, a value is kept as it is. -/
theorem convert?_eq_kept (ht : t.isPrimitive = false)
    (hOutside : v.array? = none ∨ t.element? = none) :
    h.convert? v t = if h.isInstance v t then some v else none := by
  cases t with
  | primitive p => cases ht
  | array t =>
      cases v with
      | array u items =>
          rcases hOutside with hv | ht
          · cases hv
          · cases ht
      | _ => rfl
  | _ => cases v <;> rfl

/-- A number is not widened to the type that it has. -/
theorem widen?_of_isInstance {p : Primitive} (hInstance : h.isInstance v (.primitive p) = true) :
    v.widen? p = none := by
  cases v with
  | null => cases hInstance
  | string _ => cases hInstance
  | array _ _ => cases hInstance
  | token _ => cases hInstance
  | object _ => cases hInstance
  | _ =>
      rw [eq_of_beq (a := p) hInstance]
      rfl

/-- What conforms is kept as it is. -/
theorem Conforms.convert?_eq (hv : h.Conforms v t) : h.convert? v t = some v := by
  have hInstance := hv.isInstance
  have hKept (ht : t.isPrimitive = false) (hOutside : v.array? = none ∨ t.element? = none) :
      h.convert? v t = some v := by
    rw [convert?_eq_kept ht hOutside, if_pos hInstance]
  cases t with
  | primitive p =>
      rw [convert?_primitive, widen?_of_isInstance hInstance, if_pos hInstance]
      rfl
  | array t =>
      cases v with
      | array u items =>
          cases hv with
          | exact hv => cases hv
          | array _ => rw [convert?, if_pos rfl]
      | _ => exact hKept rfl (.inl rfl)
  | _ => exact hKept rfl (.inr rfl)

/-- What conforms keeps its promises. -/
theorem Conforms.reliable (hv : h.Conforms v t) : h.Reliable v t := by
  cases hv with
  | any => exact .whole rfl
  | null ht => exact .single rfl
  | exact hv => exact .single hv
  | root => exact .whole rfl
  | object _ => exact .single rfl
  | array hItems => exact .exact hItems

/-- Lists are converted item by item. -/
theorem convertAll?_eq_some_iff {vs ws : List Value} :
    h.convertAll? vs t = some ws ↔ List.Forall₂ (fun v w => h.convert? v t = some w) vs ws := by
  induction vs generalizing ws with
  | nil =>
      rw [convertAll?, List.forall₂_nil_left_iff]
      exact ⟨fun hEq => (Option.some.inj hEq).symm, fun hEq => hEq ▸ rfl⟩
  | cons v vs ih =>
      rw [convertAll?]
      cases hFirst : h.convert? v t with
      | none =>
          refine ⟨nofun, fun hEach => ?_⟩
          cases hEach with
          | cons hw _ => cases hFirst.symm.trans hw
      | some w =>
          rw [List.forall₂_cons_left_iff]
          constructor
          · intro hRest
            obtain ⟨ws, hws, rfl⟩ := Option.map_eq_some_iff.mp hRest
            exact ⟨w, ws, hFirst, ih.mp hws, rfl⟩
          · rintro ⟨w', ws, hw, hEach, rfl⟩
            cases hFirst.symm.trans hw
            exact Option.map_eq_some_iff.mpr ⟨ws, ih.mpr hEach, rfl⟩

theorem Reliable.of_mem {items : List Value} (hReliable : h.Reliable (.array u items) (.array t)) :
    ∀ v ∈ items, h.Reliable v t := by
  cases hReliable with
  | exact hItems => exact fun v hv => (hItems v hv).reliable
  | loose _ hItems => exact hItems
  | single hv => cases hv
  | whole ht => cases ht

/-- An array that keeps its promises is as good as converted from its items, be it or not. -/
theorem Reliable.convert?_array {items : List Value}
    (hReliable : h.Reliable (.array u items) (.array t)) :
    h.convert? (.array u items) (.array t) = (h.convertAll? items t).map (.array t ·) := by
  cases hReliable with
  | exact hItems =>
      have hAll : h.convertAll? items t = some items :=
        convertAll?_eq_some_iff.mpr
          (List.forall₂_same.mpr fun v hv => (hItems v hv).convert?_eq)
      rw [convert?, if_pos rfl, hAll]
      rfl
  | loose hOther _ => rw [convert?, if_neg hOther]
  | single hv => cases hv
  | whole ht => cases ht

theorem exists_of_mem_convertAll? {vs ws : List Value} (hAll : h.convertAll? vs t = some ws)
    (hw : w ∈ ws) : ∃ v ∈ vs, h.convert? v t = some w := by
  have hEach := convertAll?_eq_some_iff.mp hAll
  clear hAll
  induction hEach with
  | nil => cases hw
  | cons hFirst _ ih =>
      rcases List.mem_cons.mp hw with rfl | hRest
      · exact ⟨_, List.mem_cons_self .., hFirst⟩
      · obtain ⟨v, hv, hOne⟩ := ih hRest
        exact ⟨v, List.mem_cons_of_mem _ hv, hOne⟩

/-- Outside the arrays of a slot, whatever a conversion yields conforms. -/
theorem conforms_of_convert? (hOutside : v.array? = none ∨ t.element? = none)
    (hConvert : h.convert? v t = some w) : h.Conforms w t := by
  rcases convert?_cases hConvert with
    ⟨rfl, hInstance⟩ | ⟨p, rfl, hWiden⟩ | ⟨u, items, s, ws, rfl, rfl, -, -⟩
  · exact conforms_of_isInstance hInstance hOutside
  · exact conforms_of_isInstance (isInstance_of_widen? hWiden) (.inr rfl)
  · rcases hOutside with hv | ht
    · cases hv
    · cases ht

/-- A conversion of a value that keeps its promises yields a value that conforms. -/
theorem Reliable.conforms (hReliable : h.Reliable v t) (hConvert : h.convert? v t = some w) :
    h.Conforms w t := by
  induction hReliable generalizing w with
  | exact hItems =>
      rw [(Conforms.array hItems).convert?_eq] at hConvert
      cases hConvert
      exact .array hItems
  | @loose t u items hOther hItems ih =>
      rw [convert?, if_neg hOther] at hConvert
      obtain ⟨ws, hws, rfl⟩ := Option.map_eq_some_iff.mp hConvert
      refine .array fun w hw => ?_
      obtain ⟨v, hv, hOne⟩ := exists_of_mem_convertAll? hws hw
      exact ih v hv hOne
  | single hv => exact conforms_of_convert? (.inl hv) hConvert
  | whole ht => exact conforms_of_convert? (.inr ht) hConvert

/-- In a slot for arrays there is null, or an array of just this element type. -/
theorem array_of_convert? (hConvert : h.convert? v (.array t) = some w) (hNull : w.isNull = false) :
    ∃ items, w = .array t items := by
  cases v with
  | array u items =>
      rw [convert?] at hConvert
      split at hConvert
      · next hSame =>
          cases hConvert
          exact ⟨items, by rw [hSame]⟩
      · obtain ⟨ws, _, rfl⟩ := Option.map_eq_some_iff.mp hConvert
        exact ⟨ws, rfl⟩
  | null =>
      cases hConvert
      cases hNull
  | _ => cases hConvert

/-- How loosely arrays were typed does not matter to a conversion, as long as they keep their
promises: either way it yields the same value, or none. -/
theorem Retyped.convert?_eq {v' : Value} (hRetyped : Retyped t v v') (hv : h.Reliable v t)
    (hv' : h.Reliable v' t) : h.convert? v t = h.convert? v' t := by
  induction hRetyped with
  | same => rfl
  | @array t u u' items items' hLength hItems ih =>
      rw [hv.convert?_array, hv'.convert?_array]
      suffices hAll : h.convertAll? items t = h.convertAll? items' t by rw [hAll]
      have hEach : List.Forall₂ (fun v v' => h.convert? v t = h.convert? v' t) items items' :=
        List.forall₂_iff_zip.mpr ⟨hLength, fun hMem => ih _ _ hMem
          (hv.of_mem _ (List.of_mem_zip hMem).1) (hv'.of_mem _ (List.of_mem_zip hMem).2)⟩
      clear hv hv' hLength hItems ih
      induction hEach with
      | nil => rfl
      | cons hFirst _ ih => rw [convertAll?, convertAll?, hFirst, ih]

end Metaobject.Hierarchy
