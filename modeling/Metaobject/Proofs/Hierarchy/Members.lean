import Metaobject.Proofs.Contract

/-!
The members of a class as a view of its methods. No method reads two members, and the member that a
method reads is found by it. An annotation type has one member for each name that it or an
annotation type above it gives to a method that could read one, and the name leads to it. Any other
class has one member for each method that is called on its objects.
-/
namespace Metaobject.Hierarchy

variable {h : Hierarchy} {c : ClassId} {m : MethodRef} {x : Member} {name : String}

/-- A class, or a class above it, declares the method, and it is called on objects. -/
def Supplies (h : Hierarchy) (c : ClassId) (m : MethodRef) : Prop :=
  (∃ d, h.Reaches c d ∧ m ∈ h.declaredMethods d) ∧ (h.method m).kind = .ofInstance

theorem memberFor?_eq_some_iff :
    (h.contract c).memberFor? m = some x ↔ x ∈ (h.contract c).members ∧ x.accessor = m := by
  refine ⟨memberFor?_mem, ?_⟩
  rintro ⟨hx, rfl⟩
  exact memberFor?_accessor hx

theorem member?_eq_some_iff (hc : h.isAnnotationType c = true) :
    (h.contract c).member? name = some x ↔ x ∈ (h.contract c).members ∧ x.name = name := by
  constructor
  · intro hFound
    have hNamed : (x.name == name) = true :=
      List.find?_some (p := fun y : Member => y.name == name) hFound
    exact ⟨List.mem_of_find?_eq_some hFound, eq_of_beq hNamed⟩
  · rintro ⟨hx, rfl⟩
    exact member?_name hc hx

theorem map_accessor_members (h : Hierarchy) (c : ClassId) :
    (h.contract c).members.map Member.accessor = h.accessors c := by
  rw [contract, List.map_map]
  exact List.map_id _

theorem nodup_accessors (h : Hierarchy) (c : ClassId) : (h.accessors c).Nodup := by
  cases hKind : h.isAnnotationType c with
  | true =>
      have hNames : ((h.accessors c).map fun m => (h.method m).name).Nodup := by
        rw [accessors, if_pos hKind]
        exact nodup_firstOfEachName List.nodup_nil
      exact hNames.of_map
  | false =>
      rw [accessors, if_neg (by simp [hKind])]
      exact (h.nodup_allMethods c).filter _

/-- The names of the members are those of the methods that could read one. -/
theorem exists_member_iff (hc : h.isAnnotationType c = true) :
    (∃ x ∈ (h.contract c).members, x.name = name) ↔
      ∃ m, h.Supplies c m ∧ h.arity m = 0 ∧ h.isAnnotationType m.owner = true ∧
        (h.method m).name = name := by
  have hReads (m : MethodRef) : h.isAnnotationMember m = true ↔
      (h.method m).kind = .ofInstance ∧ h.arity m = 0 ∧ h.isAnnotationType m.owner = true := by
    simp [isAnnotationMember, and_assoc]
  constructor
  · rintro ⟨x, hx, rfl⟩
    obtain ⟨hAccessor, hMember⟩ := mem_members.mp hx
    obtain ⟨hMethod, hRead⟩ := isAnnotationMember_of_mem_accessors hc hAccessor
    obtain ⟨hKind, hArity, hOwner⟩ := (hReads _).mp hRead
    exact ⟨x.accessor, ⟨mem_allMethods.mp hMethod, hKind⟩, hArity, hOwner,
      congrArg Member.name hMember.symm⟩
  · rintro ⟨m, ⟨hDeclared, hKind⟩, hArity, hOwner, rfl⟩
    exact exists_member_named hc (mem_allMethods.mpr hDeclared)
      ((hReads m).mpr ⟨hKind, hArity, hOwner⟩)

/-- Methods of the roots read no members of an annotation type. -/
theorem owner_ne_of_mem_accessors (hc : h.isAnnotationType c = true) (hm : m ∈ h.accessors c) :
    m.owner ≠ .object ∧ m.owner ≠ .annotations := by
  obtain ⟨-, hReads⟩ := isAnnotationMember_of_mem_accessors hc hm
  simp only [isAnnotationMember, Bool.and_eq_true] at hReads
  refine ⟨fun hRoot => ?_, fun hRoot => ?_⟩ <;> rw [hRoot] at hReads
  · cases hReads.2.symm.trans h.isAnnotationType_object
  · cases hReads.2.symm.trans h.isAnnotationType_annotations

theorem mem_accessors_iff_supplies (hc : h.isAnnotationType c = false) :
    m ∈ h.accessors c ↔ h.Supplies c m := by
  rw [accessors, if_neg (by simp [hc]), List.mem_filter, mem_allMethods, beq_iff_eq, Supplies]

/-- The members of a class. No method reads two of them, and each is found by the method that reads
it and by no other.

The members of an annotation type have different names, those of the methods without parameters that
it and the annotation types above it declare to be called on objects; each member is found by its
name, and is read by no method of the root class or of the root of annotation types.

The members of any other class are read by the methods that it and the classes above it declare to
be called on objects, by each of these one. -/
theorem members_of_class (h : Hierarchy) (c : ClassId) :
    ((h.contract c).members.map Member.accessor).Nodup ∧
    (∀ m x, (h.contract c).memberFor? m = some x ↔
      x ∈ (h.contract c).members ∧ x.accessor = m) ∧
    (h.isAnnotationType c = true →
      ((h.contract c).members.map Member.name).Nodup ∧
      (∀ name, name ∈ (h.contract c).members.map Member.name ↔
        ∃ m, h.Supplies c m ∧ h.arity m = 0 ∧ h.isAnnotationType m.owner = true ∧
          (h.method m).name = name) ∧
      (∀ name x, (h.contract c).member? name = some x ↔
        x ∈ (h.contract c).members ∧ x.name = name) ∧
      ∀ x ∈ (h.contract c).members, x.accessor.owner ≠ .object ∧
        x.accessor.owner ≠ .annotations) ∧
    (h.isAnnotationType c = false →
      ∀ m, (∃ x, (h.contract c).memberFor? m = some x) ↔ h.Supplies c m) := by
  rw [map_accessor_members]
  refine ⟨h.nodup_accessors c, fun m x => memberFor?_eq_some_iff, fun hc => ⟨nodup_names hc,
    fun name => ?_, fun name x => member?_eq_some_iff hc, fun x hx => ?_⟩, fun hc m => ?_⟩
  · rw [List.mem_map, exists_member_iff hc]
  · exact owner_ne_of_mem_accessors hc (mem_members.mp hx).1
  · rw [← mem_accessors_iff_supplies hc, ← map_accessor_members, List.mem_map]
    exact exists_congr fun x => memberFor?_eq_some_iff

/-- An annotation type, an interface that extends it, and an annotation type that extends this
interface. It declares one of the names again, and again with a parameter. -/
def labels : Hierarchy :=
  let named := ((ClassBuilder.empty .annotationType "named").method
    { name := "name", result := .string }).method { name := "label", result := .string }
  let marked := ((ClassBuilder.empty .interface "marked").extend ⟨3⟩).method
    { name := "mark", result := .string }
  let tag := (((ClassBuilder.empty .annotationType "tag").extend ⟨4⟩).method
    { name := "name", parameters := [⟨"length", .primitive .int⟩], result := .string }).method
    { name := "name", result := .string }
  (((builtin.define named).1.define marked).1.define tag).1

theorem supplies_label : labels.Supplies ⟨4⟩ ⟨⟨3⟩, 1⟩ ∧ labels.Supplies ⟨5⟩ ⟨⟨3⟩, 1⟩ := by
  have hStep : labels.Reaches ⟨4⟩ ⟨3⟩ := .single (by decide)
  have hDeclared : ⟨⟨3⟩, 1⟩ ∈ labels.declaredMethods ⟨3⟩ := by decide
  exact ⟨⟨⟨_, hStep, hDeclared⟩, rfl⟩, ⟨⟨_, .head (by decide) hStep, hDeclared⟩, rfl⟩⟩

/-- The label is a member of the lower annotation type, under its name, and a member of the
interface between. -/
theorem members_of_tag :
    labels.isAnnotationType ⟨5⟩ = true ∧
      (∃ x ∈ (labels.contract ⟨5⟩).members, (labels.contract ⟨5⟩).member? "label" = some x) ∧
      labels.isAnnotationType ⟨4⟩ = false ∧
      ∃ x, (labels.contract ⟨4⟩).memberFor? ⟨⟨3⟩, 1⟩ = some x := by
  obtain ⟨hInterface, hTag⟩ := supplies_label
  obtain ⟨-, -, hNames, -⟩ := labels.members_of_class ⟨5⟩
  obtain ⟨-, -, -, hFound⟩ := labels.members_of_class ⟨4⟩
  obtain ⟨-, hMem, hNamed, -⟩ := hNames rfl
  obtain ⟨x, hx, hName⟩ := List.mem_map.mp ((hMem "label").mpr ⟨_, hTag, rfl, rfl, rfl⟩)
  exact ⟨rfl, ⟨x, hx, (hNamed "label" x).mpr ⟨hx, hName⟩⟩, rfl, (hFound rfl _).mpr hInterface⟩

end Metaobject.Hierarchy
