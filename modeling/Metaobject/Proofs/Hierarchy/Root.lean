import Metaobject.Proofs.Contract

/-!
Classes that have the methods of the root. The search of all that is above a class does not stop
before the root; it only comes there where some class on its way names the root among its direct
supertypes. No class that a builder makes does so by itself, but a builder can be told to extend
the root as it can be told to extend any other class.
-/
namespace Metaobject.Hierarchy

variable {h k : Hierarchy} {c : ClassId} {b : ClassBuilder}

/-- A class, or some class above it, names the root among its direct supertypes. -/
def NamesRoot (h : Hierarchy) (c : ClassId) : Prop :=
  ∃ d, h.Reaches c d ∧ ClassId.object ∈ h.supertypes d

/-- A class other than the root reaches it only by its name. -/
theorem reaches_object_iff (hc : c ≠ .object) : h.Reaches c .object ↔ h.NamesRoot c := by
  rw [Reaches, Relation.ReflTransGen.cases_tail_iff]
  exact or_iff_right hc.symm

theorem namesRoot_iff :
    h.NamesRoot c ↔ .object ∈ h.supertypes c ∨ ∃ s ∈ h.supertypes c, h.NamesRoot s := by
  constructor
  · rintro ⟨d, hReaches, hRoot⟩
    rcases hReaches.cases_head with rfl | ⟨s, hs, hAbove⟩
    · exact .inl hRoot
    · exact .inr ⟨s, hs, d, hAbove, hRoot⟩
  · rintro (hRoot | ⟨s, hs, d, hAbove, hRoot⟩)
    · exact ⟨c, .refl, hRoot⟩
    · exact ⟨d, .head hs hAbove, hRoot⟩

theorem NamesRoot.declared (hc : h.NamesRoot c) : h.Declared c := by
  by_contra hNot
  have hNone : h.supertypes c = [] := by
    rw [supertypes, decl_of_not_declared hNot]
    rfl
  rw [namesRoot_iff, hNone] at hc
  simp at hc

theorem GrowsTo.namesRoot_iff (hk : h.GrowsTo k) (hc : h.Declared c) :
    k.NamesRoot c ↔ h.NamesRoot c := by
  induction c using supertypes_induction h with
  | step c ih =>
      rw [Hierarchy.namesRoot_iff, Hierarchy.namesRoot_iff, hk.supertypes_eq hc]
      refine or_congr_right (exists_congr fun s => and_congr_right fun hs => ?_)
      exact ih s hs (declared_of_mem_supertypes hc hs)

/-- A new class names the root if its builder extends it, or a class that does. -/
theorem namesRoot_define (h : Hierarchy) (b : ClassBuilder) :
    (h.define b).1.NamesRoot (h.define b).2 ↔
      .object ∈ b.supertypes ∨ ∃ s ∈ b.supertypes, h.NamesRoot s := by
  have hSupertypes {s : ClassId} : s ∈ (h.define b).1.supertypes (h.define b).2 ↔
      s ∈ b.supertypes ∧ h.Declared s := by
    rw [supertypes, decl_define, List.mem_filter, decide_eq_true_iff]
    rfl
  rw [namesRoot_iff, hSupertypes, and_iff_left h.declared_object]
  refine or_congr_right (exists_congr fun s => ?_)
  rw [hSupertypes, and_assoc]
  refine and_congr_right fun _ => ?_
  constructor
  · rintro ⟨hs, hRoot⟩
    exact ((h.growsTo_define b).namesRoot_iff hs).mp hRoot
  · intro hRoot
    exact ⟨hRoot.declared, ((h.growsTo_define b).namesRoot_iff hRoot.declared).mpr hRoot⟩

/-- No class names the root. -/
def Rootless (h : Hierarchy) : Prop :=
  ∀ c, ¬ h.NamesRoot c

theorem rootless_builtin : builtin.Rootless := by
  intro c hc
  have hNone : ∀ i < 3, builtin.supertypes ⟨i⟩ = [] := by decide
  have hLess := hc.declared
  rw [namesRoot_iff, hNone c.index hLess] at hc
  simp at hc

/-- A class that does not extend the root leaves it unnamed. -/
theorem Rootless.define (hNone : h.Rootless) (hb : .object ∉ b.supertypes) :
    (h.define b).1.Rootless := by
  intro c hc
  rcases declared_define_iff.mp hc.declared with hOld | rfl
  · exact hNone c (((h.growsTo_define b).namesRoot_iff hOld).mp hc)
  · rcases (h.namesRoot_define b).mp hc with hRoot | ⟨s, -, hRoot⟩
    · exact hb hRoot
    · exact hNone s hRoot

/-- Declare classes one after another. -/
def defineAll (h : Hierarchy) (bs : List ClassBuilder) : Hierarchy :=
  bs.foldl (fun h b => (h.define b).1) h

theorem Rootless.defineAll {bs : List ClassBuilder} (hNone : h.Rootless)
    (hbs : ∀ b ∈ bs, .object ∉ b.supertypes) : (h.defineAll bs).Rootless := by
  induction bs generalizing h with
  | nil => exact hNone
  | cons b bs ih =>
      exact ih (hNone.define (hbs b (List.mem_cons_self ..)))
        fun d hd => hbs d (List.mem_cons_of_mem b hd)

theorem mem_allMethods_object_iff {m : MethodRef} (hc : c ≠ .object)
    (hm : m ∈ h.declaredMethods .object) : m ∈ h.allMethods c ↔ h.NamesRoot c := by
  rw [← reaches_object_iff hc, mem_allMethods]
  constructor
  · rintro ⟨d, hReaches, hd⟩
    rwa [← (mem_declaredMethods.mp hm).1, (mem_declaredMethods.mp hd).1]
  · intro hReaches
    exact ⟨_, hReaches, hm⟩

/-- Where no builder extends the root, the root alone has its methods. -/
theorem owner_ne_object_of_builders {bs : List ClassBuilder}
    (hbs : ∀ b ∈ bs, .object ∉ b.supertypes) (hc : c ≠ .object) {m : MethodRef}
    (hm : m ∈ (builtin.defineAll bs).allMethods c) : m.owner ≠ .object := by
  intro hOwner
  obtain ⟨d, -, hd⟩ := mem_allMethods.mp hm
  rw [← (mem_declaredMethods.mp hd).1, hOwner] at hd
  exact rootless_builtin.defineAll hbs c ((mem_allMethods_object_iff hc hd).mp hm)

/-- An annotation type has no member that the root declares; any other class that has a method of
the root has it as a member. -/
theorem mem_accessors_object_iff {m : MethodRef} (hc : c ≠ .object)
    (hm : m ∈ h.declaredMethods .object) :
    m ∈ h.accessors c ↔ h.NamesRoot c ∧ h.isAnnotationType c = false := by
  cases hKind : h.isAnnotationType c with
  | true =>
      have hNot : m ∉ h.accessors c := fun hMem => by
        have hOwner := (isAnnotationMember_of_mem_accessors hKind hMem).2
        rw [isAnnotationMember, (mem_declaredMethods.mp hm).1, isAnnotationType_object] at hOwner
        simp at hOwner
      simp [hNot]
  | false =>
      have hInstance := kind_of_mem_declaredMethods_object hm
      simp [accessors, hKind, hInstance, mem_allMethods_object_iff hc hm]

/-- What a class other than the root has of the methods of the root: all of them if it or a class
above it names the root among its supertypes, and none otherwise. They are then members too, unless
the class is an annotation type. Any other member is declared by the class or by a class above it
that is not the root. -/
theorem root_methods_of_class (hc : c ≠ .object) :
    (∀ m ∈ h.declaredMethods .object,
      (m ∈ h.allMethods c ↔ h.NamesRoot c) ∧
      (h.memberOf m ∈ (h.contract c).members ↔
        h.NamesRoot c ∧ h.isAnnotationType c = false)) ∧
    ∀ x ∈ (h.contract c).members, x.accessor ∉ h.declaredMethods .object →
      ∃ d, d ≠ .object ∧ h.Reaches c d ∧ x.accessor ∈ h.declaredMethods d := by
  refine ⟨fun m hm => ⟨mem_allMethods_object_iff hc hm, ?_⟩, fun x hx hOther => ?_⟩
  · rw [mem_members, ← mem_accessors_object_iff hc hm]
    exact and_iff_left rfl
  · obtain ⟨d, hReaches, hd⟩ := mem_allMethods.mp
      (mem_allMethods_of_mem_accessors (mem_members.mp hx).1)
    exact ⟨d, fun hRoot => hOther (hRoot ▸ hd), hReaches, hd⟩

/-- An interface that extends the root, and one that extends this interface. -/
def rootNamed : Hierarchy :=
  let sized := ((ClassBuilder.empty .interface "sized").extend .object).method
    { name := "size", result := .primitive .int }
  let narrow := (ClassBuilder.empty .interface "narrow").extend ⟨3⟩
  ((builtin.define sized).1.define narrow).1

theorem namesRoot_narrow : rootNamed.NamesRoot ⟨4⟩ :=
  ⟨⟨3⟩, .single (by decide), by decide⟩

theorem root_methods_of_narrow :
    (⟨4⟩ : ClassId) ≠ .object ∧ MethodRef.hashCode ∈ rootNamed.allMethods ⟨4⟩ ∧
      rootNamed.memberOf .hashCode ∈ (rootNamed.contract ⟨4⟩).members ∧
      ∃ d, d ≠ .object ∧ rootNamed.Reaches ⟨4⟩ d ∧ ⟨⟨3⟩, 0⟩ ∈ rootNamed.declaredMethods d := by
  have hOther : (⟨4⟩ : ClassId) ≠ .object := by decide
  have hSize : rootNamed.memberOf ⟨⟨3⟩, 0⟩ ∈ (rootNamed.contract ⟨4⟩).members :=
    mem_members.mpr ⟨by decide +kernel, rfl⟩
  obtain ⟨hRoot, hDeclared⟩ := root_methods_of_class (h := rootNamed) hOther
  obtain ⟨hMethod, hMember⟩ := hRoot .hashCode (by decide)
  exact ⟨hOther, hMethod.mpr namesRoot_narrow, hMember.mpr ⟨namesRoot_narrow, rfl⟩,
    hDeclared _ hSize (by decide)⟩

/-- The methods of the root are members of an interface that declares none of them. -/
theorem root_methods_not_left_out :
    (⟨3⟩ : ClassId) ≠ .object ∧ rootNamed.declaredMethods ⟨3⟩ = [⟨⟨3⟩, 0⟩] ∧
      MethodRef.equals ∈ rootNamed.allMethods ⟨3⟩ ∧
      (rootNamed.contract ⟨3⟩).members.map Member.name =
        ["size", "equals", "hash_code", "to_string"] := by
  decide +kernel

end Metaobject.Hierarchy
