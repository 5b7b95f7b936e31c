import Metaobject.Proofs.Hierarchy.Conformance

/-!
Values fitted to the type of a slot. A conversion keeps a value, widens a number, or converts the
items of an array one by one. Where the arrays in a value hold what they promise, so do those in the
value that is made of it, and whatever may stand in the slot as it is can be converted to its type.
-/
namespace Metaobject.Hierarchy

/-- Every item of every array in the value may stand in a slot of the element type of its array. -/
inductive WellTyped (h : Hierarchy) : Value → Prop where
  | single {v : Value} (hv : v.array? = none) : WellTyped h v
  | array {t : Ty} {items : List Value} (hFits : ∀ v ∈ items, h.isInstance v t = true)
      (hItems : ∀ v ∈ items, WellTyped h v) : WellTyped h (.array t items)

/-- What may become of a value in a slot of the type: it is kept, or it is a number and is widened,
or it is an array, gets the element type of the slot, and keeps its items at their places, each as
it becomes in a slot of the element type. -/
inductive Refitted : Ty → Value → Value → Prop where
  | kept {t : Ty} {v : Value} : Refitted t v v
  | widened {p : Primitive} {v w : Value} (hWiden : v.widen? p = some w) :
      Refitted (.primitive p) v w
  | array {t u : Ty} {items items' : List Value} (hLength : items.length = items'.length)
      (hItems : ∀ v w, (v, w) ∈ items.zip items' → Refitted t v w) :
      Refitted (.array t) (.array u items) (.array t items')

variable {h : Hierarchy} {v w : Value} {t u : Ty} {items vs : List Value}

theorem array?_of_widen? {p : Primitive} (hWiden : v.widen? p = some w) : w.array? = none := by
  unfold Value.widen? at hWiden
  split at hWiden <;> cases hWiden <;> rfl

/-- A conversion makes a well typed value of a well typed value, and leaves the items of arrays,
converted, at their places. -/
theorem WellTyped.convert? (hv : h.WellTyped v) (hConvert : h.convert? v t = some w) :
    h.WellTyped w ∧ Refitted t v w := by
  induction hv generalizing t w with
  | single hv =>
      rcases convert?_cases hConvert with
        ⟨rfl, -⟩ | ⟨p, rfl, hWiden⟩ | ⟨u, items, s, ws, rfl, -, -, -⟩
      · exact ⟨.single hv, .kept⟩
      · exact ⟨.single (array?_of_widen? hWiden), .widened hWiden⟩
      · cases hv
  | array hFits hItems ih =>
      rcases convert?_cases hConvert with
        ⟨rfl, -⟩ | ⟨p, rfl, hWiden⟩ | ⟨u, items, s, ws, hv, rfl, hws, rfl⟩
      · exact ⟨.array hFits hItems, .kept⟩
      · cases hWiden
      · cases hv
        obtain ⟨hLength, hEach⟩ := List.forall₂_iff_zip.mp (convertAll?_eq_some_iff.mp hws)
        refine ⟨.array (fun w hw => ?_) fun w hw => ?_, .array hLength fun v w hMem => ?_⟩
        · obtain ⟨v, _, hOne⟩ := exists_of_mem_convertAll? hws hw
          exact isInstance_of_convert? hOne
        · obtain ⟨v, hv, hOne⟩ := exists_of_mem_convertAll? hws hw
          exact (ih v hv hOne).1
        · exact (ih v (List.of_mem_zip hMem).1 (hEach hMem)).2

/-- What has been converted for a slot is not converted any further. -/
theorem convert?_of_convert? (hConvert : h.convert? v t = some w) : h.convert? w t = some w := by
  rcases convert?_cases hConvert with
    ⟨rfl, -⟩ | ⟨p, rfl, hWiden⟩ | ⟨u, items, s, ws, -, rfl, -, rfl⟩
  · exact hConvert
  · have hInstance : h.isInstance w (.primitive p) = true := isInstance_of_widen? hWiden
    rw [convert?_primitive, widen?_of_isInstance hInstance, if_pos hInstance]
    rfl
  · rw [convert?, if_pos rfl]

/-- An array stays an array, with as many items. -/
theorem Refitted.exists_array (hRefitted : Refitted t (.array u items) w) :
    ∃ u' items', w = .array u' items' ∧ items'.length = items.length := by
  cases hRefitted with
  | kept => exact ⟨u, items, rfl, rfl⟩
  | widened hWiden => cases hWiden
  | array hLength _ => exact ⟨_, _, rfl, hLength.symm⟩

/-- If an array may stand in a slot, and its items keep to its own element type, they keep to the
element type of the slot as well. -/
theorem isInstance_of_mem (hFits : ∀ v ∈ items, h.isInstance v u = true)
    (hInstance : h.isInstance (.array u items) (.array t) = true) :
    ∀ v ∈ items, h.isInstance v t = true := by
  rcases isInstance_array_iff.mp hInstance with hType | ⟨_, _, hAll⟩
  · cases hType with
    | same => exact hFits
    | items _ _ hTakes => exact fun v hv => hTakes.isInstance v (hFits v hv)
  · exact allInstances_iff.mp hAll

theorem exists_convertAll? (hEach : ∀ v ∈ vs, ∃ w, h.convert? v t = some w) :
    ∃ ws, h.convertAll? vs t = some ws := by
  induction vs with
  | nil => exact ⟨[], rfl⟩
  | cons v vs ih =>
      obtain ⟨w, hw⟩ := hEach v (List.mem_cons_self ..)
      obtain ⟨ws, hws⟩ := ih fun x hx => hEach x (List.mem_cons_of_mem v hx)
      exact ⟨w :: ws, by rw [convertAll?, hw, hws]; rfl⟩

/-- A well typed value that may stand in a slot as it is can be converted to its type. -/
theorem WellTyped.exists_convert? (hv : h.WellTyped v) (hInstance : h.isInstance v t = true) :
    ∃ w, h.convert? v t = some w := by
  induction hv generalizing t with
  | single hv => exact ⟨_, (conforms_of_isInstance hInstance (.inl hv)).convert?_eq⟩
  | @array u items hFits _ ih =>
      cases t with
      | array t =>
          by_cases hSame : u = t
          · exact ⟨_, by rw [Hierarchy.convert?, if_pos hSame]⟩
          · obtain ⟨ws, hws⟩ := exists_convertAll? fun v hv =>
              ih v hv (isInstance_of_mem hFits hInstance v hv)
            exact ⟨.array t ws, by rw [Hierarchy.convert?, if_neg hSame, hws]; rfl⟩
      | _ => exact ⟨_, (conforms_of_isInstance hInstance (.inr rfl)).convert?_eq⟩

/-- A well typed value in a slot of a type. If it can be converted, the outcome is well typed, may
stand in the slot, and is converted to itself; arrays keep their length and their items, at every
depth, at their places. If it may stand in the slot as it is, it can be converted. -/
theorem conversion_of_wellTyped (hv : h.WellTyped v) (t : Ty) :
    (∀ w, h.convert? v t = some w →
      h.WellTyped w ∧ h.isInstance w t = true ∧ h.convert? w t = some w ∧ Refitted t v w ∧
      ∀ u items, v = .array u items →
        ∃ u' items', w = .array u' items' ∧ items'.length = items.length) ∧
    (h.isInstance v t = true → ∃ w, h.convert? v t = some w) := by
  refine ⟨fun w hConvert => ?_, hv.exists_convert?⟩
  obtain ⟨hTyped, hRefitted⟩ := hv.convert? hConvert
  refine ⟨hTyped, isInstance_of_convert? hConvert, convert?_of_convert? hConvert, hRefitted, ?_⟩
  rintro u items rfl
  exact hRefitted.exists_array

/-- Lists of short numbers, and nothing in the place of one, in an array of anything. -/
def numberLists : Value :=
  .array .any [.array (.primitive .byte) [.byte 1, .byte 2], .null]

/-- The same as an array of lists of longer numbers. -/
def wideLists : Value :=
  .array (.array (.primitive .int)) [.array (.primitive .int) [.int 1, .int 2], .null]

theorem wellTyped_numberLists : builtin.WellTyped numberLists := by
  have hNumbers : ∀ v ∈ [Value.byte 1, .byte 2],
      builtin.isInstance v (.primitive .byte) = true ∧ v.array? = none := by
    simp [isInstance, Value.array?]
  refine .array (fun v _ => builtin.isInstance_any v) fun v hv => ?_
  rcases List.mem_cons.mp hv with rfl | hLast
  · exact .array (fun v hv => (hNumbers v hv).1) fun v hv => .single (hNumbers v hv).2
  · rw [List.mem_singleton.mp hLast]
    exact .single rfl

/-- The numbers are widened, and no further. The lists may also stand in an array of objects, and
are converted for that too. -/
theorem conversion_of_numberLists :
    builtin.WellTyped numberLists ∧
      builtin.convert? numberLists (.array (.array (.primitive .int))) = some wideLists ∧
      builtin.WellTyped wideLists ∧
      builtin.convert? wideLists (.array (.array (.primitive .int))) = some wideLists ∧
      builtin.isInstance numberLists (.array (.ofClass .object)) = true ∧
      ∃ w, builtin.convert? numberLists (.array (.ofClass .object)) = some w := by
  have hWide : builtin.convert? numberLists (.array (.array (.primitive .int))) =
      some wideLists := rfl
  have hObjects : builtin.isInstance numberLists (.array (.ofClass .object)) = true := rfl
  obtain ⟨hTyped, -, hAgain, -, -⟩ := (conversion_of_wellTyped wellTyped_numberLists _).1 _ hWide
  exact ⟨wellTyped_numberLists, hWide, hTyped, hAgain, hObjects,
    (conversion_of_wellTyped wellTyped_numberLists _).2 hObjects⟩

/-- An array that does not hold what it promises may stand in a slot and still not be converted for
it. -/
example :
    builtin.isInstance (.array (.array .string) [.int 5]) (.array (.array .any)) = true ∧
      builtin.convert? (.array (.array .string) [.int 5]) (.array (.array .any)) = none :=
  ⟨rfl, rfl⟩

end Metaobject.Hierarchy
