import Metaobject.Proofs.Hierarchy.Growth

/-!
The members of an annotation type. Each is read by the first of the methods that could read a member
of its name, so a name leads to one member and a method to one member, the same from either side. A
declared type keeps its members while the hierarchy grows.
-/
namespace Metaobject.Hierarchy

variable {h k : Hierarchy} {c : ClassId}

/-- A method is kept if it has been, or if it is the first of a name that is new. -/
theorem mem_firstOfEachName {kept ms : List MethodRef} {m : MethodRef} :
    m ∈ h.firstOfEachName kept ms ↔
      m ∈ kept ∨ (∀ l ∈ kept, (h.method l).name ≠ (h.method m).name) ∧
        (ms.find? fun l => (h.method l).name == (h.method m).name) = some m := by
  induction ms generalizing kept with
  | nil => simp [firstOfEachName]
  | cons n ms ih =>
      have hUsed : (kept.any fun l => (h.method l).name == (h.method n).name) = true ↔
          ∃ l ∈ kept, (h.method l).name = (h.method n).name := by
        simp
      rw [firstOfEachName, List.find?_cons]
      by_cases hOld : ∃ l ∈ kept, (h.method l).name = (h.method n).name
      · rw [if_pos (hUsed.mpr hOld), ih]
        obtain ⟨l, hl, hName⟩ := hOld
        by_cases hSame : (h.method n).name = (h.method m).name
        · have hTaken : ¬ ∀ l ∈ kept, (h.method l).name ≠ (h.method m).name := fun hNew =>
            hNew l hl (hName.trans hSame)
          simp [hTaken]
        · rw [beq_eq_false_iff_ne.mpr hSame]
      · rw [if_neg (fun hAny => hOld (hUsed.mp hAny)), ih]
        by_cases hSame : (h.method n).name = (h.method m).name
        · have hNew : ∀ l ∈ kept, (h.method l).name ≠ (h.method m).name := fun l hl hName =>
            hOld ⟨l, hl, hName.trans hSame.symm⟩
          simp only [List.mem_append, List.mem_singleton, hSame, beq_self_eq_true]
          constructor
          · rintro ((hKept | rfl) | ⟨hNone, _⟩)
            · exact .inl hKept
            · exact .inr ⟨hNew, rfl⟩
            · exact absurd hSame (hNone n (.inr rfl))
          · rintro (hKept | ⟨_, hFirst⟩)
            · exact .inl (.inl hKept)
            · exact .inl (.inr (Option.some.inj hFirst).symm)
        · have hOther : m ≠ n := fun hEq => hSame (by rw [hEq])
          rw [beq_eq_false_iff_ne.mpr hSame]
          simp [hSame, hOther, or_imp, forall_and]

/-- What reads a member of an annotation type: the first method that could read one of its name. -/
theorem mem_accessors (hc : h.isAnnotationType c = true) {m : MethodRef} :
    m ∈ h.accessors c ↔
      (((h.allMethods c).filter h.isAnnotationMember).find? fun l =>
        (h.method l).name == (h.method m).name) = some m := by
  rw [accessors, if_pos hc, mem_firstOfEachName]
  simp

/-- An accessor is a method of the type that could read a member. -/
theorem isAnnotationMember_of_mem_accessors (hc : h.isAnnotationType c = true) {m : MethodRef}
    (hm : m ∈ h.accessors c) : m ∈ h.allMethods c ∧ h.isAnnotationMember m = true :=
  List.mem_filter.mp (List.mem_of_find?_eq_some ((mem_accessors hc).mp hm))

theorem mem_allMethods_of_mem_accessors {m : MethodRef} (hm : m ∈ h.accessors c) :
    m ∈ h.allMethods c := by
  by_cases hKind : h.isAnnotationType c = true
  · exact (isAnnotationMember_of_mem_accessors hKind hm).1
  · rw [accessors, if_neg hKind] at hm
    exact (List.mem_filter.mp hm).1

theorem eq_of_mem_accessors (hc : h.isAnnotationType c = true) {m n : MethodRef}
    (hm : m ∈ h.accessors c) (hn : n ∈ h.accessors c)
    (hName : (h.method m).name = (h.method n).name) : m = n := by
  have hFirst := (mem_accessors hc).mp hm
  rw [hName] at hFirst
  exact Option.some.inj (hFirst.symm.trans ((mem_accessors hc).mp hn))

theorem mem_members {x : Member} :
    x ∈ (h.contract c).members ↔ x.accessor ∈ h.accessors c ∧ x = h.memberOf x.accessor := by
  simp only [contract, List.mem_map]
  constructor
  · rintro ⟨m, hm, rfl⟩
    exact ⟨hm, rfl⟩
  · rintro ⟨hm, hx⟩
    exact ⟨x.accessor, hm, hx.symm⟩

/-- Every method that could read a member has the name of one. -/
theorem exists_member_named (hc : h.isAnnotationType c = true) {n : MethodRef}
    (hn : n ∈ h.allMethods c) (hReads : h.isAnnotationMember n = true) :
    ∃ m ∈ (h.contract c).members, m.name = (h.method n).name := by
  have hFirst : (((h.allMethods c).filter h.isAnnotationMember).find? fun l =>
      (h.method l).name == (h.method n).name).isSome = true := by
    rw [List.find?_isSome]
    exact ⟨n, List.mem_filter.mpr ⟨hn, hReads⟩, beq_self_eq_true _⟩
  obtain ⟨l, hl⟩ := Option.isSome_iff_exists.mp hFirst
  have hSame := List.find?_some hl
  have hName : (h.method l).name = (h.method n).name := eq_of_beq hSame
  rw [← hName] at hl
  exact ⟨h.memberOf l, mem_members.mpr ⟨(mem_accessors hc).mpr hl, rfl⟩, hName⟩

/-- The type of a member is the result type of the method that reads it. -/
theorem type_of_mem_members {x : Member} (hx : x ∈ (h.contract c).members) :
    x.type = h.resultType x.accessor :=
  congrArg Member.type (mem_members.mp hx).2

theorem eq_of_accessor_eq {x y : Member} (hx : x ∈ (h.contract c).members)
    (hy : y ∈ (h.contract c).members) (hAccessor : x.accessor = y.accessor) : x = y := by
  rw [(mem_members.mp hx).2, (mem_members.mp hy).2, hAccessor]

/-- Members of one name are one member. -/
theorem eq_of_name_eq (hc : h.isAnnotationType c = true) {x y : Member}
    (hx : x ∈ (h.contract c).members) (hy : y ∈ (h.contract c).members)
    (hName : x.name = y.name) : x = y := by
  obtain ⟨hxm, hxEq⟩ := mem_members.mp hx
  obtain ⟨hym, hyEq⟩ := mem_members.mp hy
  have hNames : (h.method x.accessor).name = (h.method y.accessor).name := by
    rwa [hxEq, hyEq] at hName
  rw [hxEq, hyEq, eq_of_mem_accessors hc hxm hym hNames]

/-- Of methods that are kept by name no two have one name. -/
theorem nodup_firstOfEachName {kept ms : List MethodRef}
    (hKept : (kept.map fun m => (h.method m).name).Nodup) :
    ((h.firstOfEachName kept ms).map fun m => (h.method m).name).Nodup := by
  induction ms generalizing kept with
  | nil => exact hKept
  | cons n ms ih =>
      rw [firstOfEachName]
      split
      · exact ih hKept
      · next hNew =>
          refine ih ?_
          rw [List.map_append, List.nodup_append]
          refine ⟨hKept, List.pairwise_singleton _ _, ?_⟩
          simpa using hNew

/-- The members of an annotation type have different names. -/
theorem nodup_names (hc : h.isAnnotationType c = true) :
    ((h.contract c).members.map Member.name).Nodup := by
  have hNames : (h.contract c).members.map Member.name =
      (h.accessors c).map fun m => (h.method m).name := List.map_map ..
  rw [hNames, accessors, if_pos hc]
  exact nodup_firstOfEachName List.nodup_nil

/-- The name of a member leads to it. -/
theorem member?_name (hc : h.isAnnotationType c = true) {x : Member}
    (hx : x ∈ (h.contract c).members) : (h.contract c).member? x.name = some x := by
  refine find?_eq_some_of_unique hx (beq_self_eq_true x.name) fun y hy hName => ?_
  exact eq_of_name_eq hc hy hx (eq_of_beq hName)

/-- The method that reads a member leads to it. -/
theorem memberFor?_accessor {x : Member} (hx : x ∈ (h.contract c).members) :
    (h.contract c).memberFor? x.accessor = some x := by
  refine find?_eq_some_of_unique hx (beq_self_eq_true x.accessor) fun y hy hSame => ?_
  exact eq_of_accessor_eq hy hx (eq_of_beq hSame)

theorem memberFor?_mem {m : MethodRef} {x : Member} (hx : (h.contract c).memberFor? m = some x) :
    x ∈ (h.contract c).members ∧ x.accessor = m := by
  have hSame : (x.accessor == m) = true :=
    List.find?_some (p := fun y : Member => y.accessor == m) hx
  exact ⟨List.mem_of_find?_eq_some hx, eq_of_beq hSame⟩

theorem declared_owner {m : MethodRef} (hc : h.Declared c) (hm : m ∈ h.allMethods c) :
    h.Declared m.owner := by
  obtain ⟨d, hReaches, hDeclared⟩ := mem_allMethods.mp hm
  rw [(mem_declaredMethods.mp hDeclared).1]
  exact hReaches.declared hc

theorem firstOfEachName_congr {kept ms : List MethodRef}
    (hSame : ∀ m ∈ kept ++ ms, k.method m = h.method m) :
    k.firstOfEachName kept ms = h.firstOfEachName kept ms := by
  induction ms generalizing kept with
  | nil => rfl
  | cons n ms ih =>
      have hKept : (kept.any fun l => (k.method l).name == (k.method n).name) =
          kept.any fun l => (h.method l).name == (h.method n).name := by
        rw [Bool.eq_iff_iff, List.any_eq_true, List.any_eq_true, hSame n (by simp)]
        refine exists_congr fun l => and_congr_right fun hl => ?_
        rw [hSame l (List.mem_append_left _ hl)]
      rw [firstOfEachName, firstOfEachName, hKept]
      split
      · exact ih fun m hm => hSame m (by
          rcases List.mem_append.mp hm with hOld | hRest
          · exact List.mem_append_left _ hOld
          · exact List.mem_append_right _ (List.mem_cons_of_mem _ hRest))
      · exact ih fun m hm => hSame m (by simpa using hm)

/-- A declared class keeps its members. -/
theorem GrowsTo.contract_eq (hk : h.GrowsTo k) (hc : h.Declared c) :
    k.contract c = h.contract c := by
  have hOwners : ∀ m ∈ h.allMethods c, h.Declared m.owner := fun m hm => declared_owner hc hm
  have hMethods : ∀ m ∈ h.allMethods c, k.method m = h.method m := fun m hm =>
    hk.method_eq (hOwners m hm)
  have hAnnotation : (h.allMethods c).filter k.isAnnotationMember =
      (h.allMethods c).filter h.isAnnotationMember := by
    apply List.filter_congr
    intro m hm
    rw [isAnnotationMember, isAnnotationMember, hMethods m hm, hk.arity_eq (hOwners m hm),
      hk.isAnnotationType_eq (hOwners m hm)]
  have hInstance : ((h.allMethods c).filter fun m => (k.method m).kind == .ofInstance) =
      (h.allMethods c).filter fun m => (h.method m).kind == .ofInstance := by
    apply List.filter_congr
    intro m hm
    rw [hMethods m hm]
  have hAccessors : k.accessors c = h.accessors c := by
    rw [accessors, accessors, hk.isAnnotationType_eq hc, hk.allMethods_eq hc, hAnnotation,
      hInstance, firstOfEachName_congr fun m hm => hMethods m (List.mem_filter.mp hm).1]
  rw [contract, contract, hAccessors]
  congr 1
  apply List.map_congr_left
  intro m hm
  have hm' := mem_allMethods_of_mem_accessors hm
  rw [memberOf, memberOf, hMethods m hm', hk.resultType_eq (hOwners m hm')]

end Metaobject.Hierarchy
