import Metaobject.Proofs.Contract

/-!
Members that are declared again. What is above a type is searched depth first, so a declaration that
has been overridden is come upon before its override only on a way up that goes past the override.
Where the ways up never part there is no such way. Where they part and meet again there may be one,
and then the member is read by the overridden method.
-/
namespace Metaobject.Hierarchy

/-- Wherever the second class stands in the list, the first stands before it. -/
def Precedes (d e : ClassId) (cs : List ClassId) : Prop :=
  ∀ before after, cs = before ++ e :: after → d ∈ before

/-- The second class can be reached from the third through direct supertypes on a way that does not
come upon the first. -/
inductive ReachesPast (h : Hierarchy) (d e : ClassId) : ClassId → Prop where
  | here (hOther : e ≠ d) : ReachesPast h d e e
  | step {c s : ClassId} (hOther : c ≠ d) (hs : s ∈ h.supertypes c)
      (above : ReachesPast h d e s) : ReachesPast h d e c

/-- The class is an annotation type properly below the one whose method reads the member, and it
declares a method that could read a member of this name itself. -/
structure Overrides (h : Hierarchy) (d : ClassId) (m : Member) : Prop where
  kind : h.isAnnotationType d = true
  below : h.isSubtype d m.accessor.owner = true
  proper : d ≠ m.accessor.owner
  declares : ∃ n ∈ h.declaredMethods d,
    (h.method n).kind = .ofInstance ∧ h.arity n = 0 ∧ (h.method n).name = m.name

variable {h : Hierarchy} {c d e : ClassId} {m : Member}

/-- Once the first class has been visited, what is visited later changes nothing. -/
theorem Precedes.append {cs : List ClassId} (hPrecedes : Precedes d e cs) (hd : d ∈ cs)
    (more : List ClassId) : Precedes d e (cs ++ more) := by
  intro before after hSplit
  rcases List.append_eq_append_iff.mp hSplit with ⟨later, hBefore, _⟩ | ⟨rest, hcs, hRest⟩
  · rw [hBefore]
    exact List.mem_append_left _ hd
  · cases rest with
    | nil =>
        rw [List.append_nil] at hcs
        exact hcs ▸ hd
    | cons a rest =>
        obtain ⟨rfl, _⟩ := List.cons.inj hRest
        exact hPrecedes before rest hcs

/-- A visit of any class but the second changes nothing either. -/
theorem Precedes.concat {cs : List ClassId} (hPrecedes : Precedes d e cs) (hc : c ≠ e) :
    Precedes d e (cs ++ [c]) := by
  intro before after hSplit
  rcases split_concat hSplit with ⟨_, hLast⟩ | ⟨between, hBetween⟩
  · exact absurd hLast hc
  · exact hPrecedes before between hBetween

/-- A visit adds to what has been visited before it. -/
theorem prefix_visit (visited : List ClassId) (c : ClassId) : visited <+: h.visit visited c := by
  induction c using supertypes_induction h generalizing visited with
  | step c ih =>
      rw [visit_eq]
      split
      · exact List.prefix_refl visited
      · exact List.foldlRecOn _ _ (List.prefix_append visited [c]) fun later hLater s hs =>
          hLater.trans (ih s hs later)

/-- What a visit adds first is its class. -/
theorem concat_prefix_visit {visited : List ClassId} (hNew : c ∉ visited) :
    visited ++ [c] <+: h.visit visited c := by
  rw [visit_eq, if_neg hNew]
  exact List.foldlRecOn _ _ (List.prefix_refl _) fun later hLater s _ =>
    hLater.trans (prefix_visit later s)

/-- A search from a class that does not lead past the first class to the second comes upon the first
before it comes upon the second. -/
theorem Precedes.visit (hPast : ¬ h.ReachesPast d e c) (hProper : e ≠ d) {visited : List ClassId}
    (hPrecedes : Precedes d e visited) : Precedes d e (h.visit visited c) := by
  induction c using supertypes_induction h generalizing visited with
  | step c ih =>
      have hOther : c ≠ e := by
        rintro rfl
        exact hPast (.here hProper)
      by_cases hOld : c ∈ visited
      · rw [visit_eq, if_pos hOld]
        exact hPrecedes
      · by_cases hHere : c = d
        · obtain ⟨more, hMore⟩ := concat_prefix_visit (h := h) hOld
          rw [← hMore]
          exact (hPrecedes.concat hOther).append (by simp [hHere]) more
        · rw [visit_eq, if_neg hOld]
          exact List.foldlRecOn _ _ (hPrecedes.concat hOther) fun later hLater s hs =>
            ih s hs (fun hWay => hPast (.step hHere hs hWay)) hLater

theorem ReachesPast.isSubtype (hWay : h.ReachesPast d e c) : h.isSubtype c e = true := by
  induction hWay with
  | here => exact h.isSubtype_refl e
  | step _ hs _ ih => exact isSubtype_trans (isSubtype_of_mem_supertypes hs) ih

/-- Where no class leads up to the second in two ways, every way goes through what is between. -/
theorem not_reachesPast_of_single (hSingle : ∀ a, h.isSubtype c a = true →
      ∀ s ∈ h.supertypes a, ∀ t ∈ h.supertypes a,
        h.isSubtype s e = true → h.isSubtype t e = true → s = t)
    (hcd : h.isSubtype c d = true) (hde : h.isSubtype d e = true) (hRoot : d ≠ .object) :
    ¬ h.ReachesPast d e c := by
  intro hWay
  induction hWay with
  | here hOther => exact hOther (isSubtype_antisymm hcd hde)
  | @step a s hOther hs above ih =>
      rcases isSubtype_iff.mp hcd with hHere | hObject | ⟨t, ht, htd⟩
      · exact hOther hHere
      · exact hRoot hObject
      · have hSame : s = t := hSingle a (h.isSubtype_refl a) s hs t ht above.isSubtype
          (isSubtype_trans htd hde)
        refine ih (fun b hb => hSingle b ?_) (hSame ▸ htd)
        exact isSubtype_trans (isSubtype_of_mem_supertypes hs) hb

/-- The method that reads a member is the first that could read one of its name. -/
theorem find?_allMethods_of_mem_members (hc : h.isAnnotationType c = true)
    (hm : m ∈ (h.contract c).members) :
    ((h.allMethods c).find? fun n => h.isAnnotationMember n && (h.method n).name == m.name) =
      some m.accessor := by
  obtain ⟨hAccessor, hMember⟩ := mem_members.mp hm
  have hFirst := (mem_accessors hc).mp hAccessor
  have hName : (h.method m.accessor).name = m.name := congrArg Member.name hMember.symm
  rw [List.find?_filter, hName] at hFirst
  simpa only [Bool.decide_and, Bool.decide_eq_true] using hFirst

/-- Of a list in which one class comes before another, the methods of the second are not the first
to be found if the first class has one that would be found. -/
theorem Precedes.owner_ne_of_find? {cs : List ClassId} (hPrecedes : Precedes d e cs)
    {p : MethodRef → Bool} {n found : MethodRef} (hn : n ∈ h.declaredMethods d) (hp : p n = true)
    (hFound : (cs.flatMap h.declaredMethods).find? p = some found) : found.owner ≠ e := by
  intro hOwner
  have hMem := List.mem_of_find?_eq_some hFound
  obtain ⟨a, ha, hDeclared⟩ := List.mem_flatMap.mp hMem
  obtain rfl : a = e := (mem_declaredMethods.mp hDeclared).1.symm.trans hOwner
  obtain ⟨before, after, rfl, hFirst⟩ := List.eq_append_cons_of_mem ha
  have hd : d ∈ before := hPrecedes before after rfl
  rw [List.flatMap_append, List.find?_append] at hFound
  have hSome : ((before.flatMap h.declaredMethods).find? p).isSome = true :=
    List.find?_isSome.mpr ⟨n, List.mem_flatMap.mpr ⟨d, hd, hn⟩, hp⟩
  rw [Option.or_of_isSome hSome] at hFound
  obtain ⟨b, hb, hThere⟩ := List.mem_flatMap.mp (List.mem_of_find?_eq_some hFound)
  obtain rfl : b = a := (mem_declaredMethods.mp hThere).1.symm.trans hOwner
  exact hFirst hb

/-- A member is read by a method that is overridden above the type only if a way up to the class of
that method goes past the override. -/
theorem Overrides.reachesPast (hOver : h.Overrides d m) (hc : h.isAnnotationType c = true)
    (hm : m ∈ (h.contract c).members) : h.ReachesPast d m.accessor.owner c := by
  by_contra hPast
  obtain ⟨n, hn, hKind, hArity, hName⟩ := hOver.declares
  have hOwner : n.owner = d := (mem_declaredMethods.mp hn).1
  have hNone : Precedes d m.accessor.owner [] := fun before after hSplit => by simp at hSplit
  refine (hNone.visit hPast hOver.proper.symm).owner_ne_of_find? hn ?_
    (find?_allMethods_of_mem_members hc hm) rfl
  simp [isAnnotationMember, hKind, hArity, hOwner, hOver.kind, hName]

/-- Which declaration of a member an annotation type has. It is that of the first method, depth
first, that could read a member of the name, and type and default are that method's. It is passed
over by no override that all ways up to it go through; so an overridden declaration is never chosen
over its override where no class on the way leads up to it in two ways. -/
theorem member_declaration (hc : h.isAnnotationType c = true) (hm : m ∈ (h.contract c).members) :
    m = h.memberOf m.accessor ∧
    ((h.allMethods c).find? fun n => h.isAnnotationMember n && (h.method n).name == m.name) =
      some m.accessor ∧
    (∀ d, h.Overrides d m → h.ReachesPast d m.accessor.owner c) ∧
    ((∀ a, h.isSubtype c a = true → ∀ s ∈ h.supertypes a, ∀ t ∈ h.supertypes a,
        h.isSubtype s m.accessor.owner = true → h.isSubtype t m.accessor.owner = true → s = t) →
      ∀ d, h.isSubtype c d = true → ¬ h.Overrides d m) := by
  refine ⟨(mem_members.mp hm).2, find?_allMethods_of_mem_members hc hm,
    fun d hOver => hOver.reachesPast hc hm, fun hSingle d hcd hOver => ?_⟩
  have hRoot : d ≠ .object := by
    rintro rfl
    cases hOver.kind.symm.trans h.isAnnotationType_object
  exact not_reachesPast_of_single hSingle hcd hOver.below hRoot (hOver.reachesPast hc hm)

/-- An annotation type with one member, two types that extend it, and a type that extends both of
them. The second of the two declares the member again. -/
def diamond : Hierarchy :=
  let base := (ClassBuilder.empty .annotationType "base").method
    { name := "x", result := .primitive .int, default? := some (.int 1) }
  let other := (ClassBuilder.empty .annotationType "other").extend ⟨3⟩
  let near := ((ClassBuilder.empty .annotationType "near").extend ⟨3⟩).method
    { name := "x", result := .primitive .int, default? := some (.int 2) }
  let use := ((ClassBuilder.empty .annotationType "use").extend ⟨4⟩).extend ⟨5⟩
  ((((builtin.define base).1.define other).1.define near).1.define use).1

theorem mem_members_diamond :
    diamond.memberOf ⟨⟨3⟩, 0⟩ ∈ (diamond.contract ⟨6⟩).members :=
  mem_members.mpr ⟨by decide +kernel, rfl⟩

theorem overrides_diamond : diamond.Overrides ⟨5⟩ (diamond.memberOf ⟨⟨3⟩, 0⟩) where
  kind := rfl
  below := by decide +kernel
  proper := by decide
  declares := ⟨⟨⟨5⟩, 0⟩, by decide +kernel, rfl, rfl, rfl⟩

theorem member_declaration_diamond :
    diamond.isAnnotationType ⟨6⟩ = true ∧
    diamond.memberOf ⟨⟨3⟩, 0⟩ ∈ (diamond.contract ⟨6⟩).members ∧
    diamond.ReachesPast ⟨5⟩ ⟨3⟩ ⟨6⟩ :=
  ⟨rfl, mem_members_diamond,
    (member_declaration rfl mem_members_diamond).2.2.1 ⟨5⟩ overrides_diamond⟩

/-- The overridden declaration is chosen over its override: the first of the two types leads up to
it past the second. -/
theorem overridden_declaration_chosen :
    ∃ m ∈ (diamond.contract ⟨6⟩).members, m.default? = some (.int 1) ∧
      diamond.isSubtype ⟨6⟩ ⟨5⟩ = true ∧ diamond.Overrides ⟨5⟩ m :=
  ⟨_, mem_members_diamond, rfl, by decide +kernel, overrides_diamond⟩

end Metaobject.Hierarchy
