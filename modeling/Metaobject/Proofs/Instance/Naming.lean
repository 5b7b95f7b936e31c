import Metaobject.Proofs.Extraction
import Metaobject.Proofs.Instance.ReadBack

/-!
Naming the members of an annotation type: by name, by the method that reads a member, and by a call.
The first two always agree. A call goes by the table of a proxy class, which takes the methods of
the root first and knows nothing of members, so there a member can be hidden behind a method that
reads none.
-/
namespace Metaobject

variable {σ : Type} {client : Client σ} {c : ClassId} {w : World σ}

namespace Hierarchy

variable {h : Hierarchy}

/-- A member is hidden from calls: without parameters, its name belongs to a method of the root, or
to an instance method of a class that is no annotation type and comes before the method that reads
the member. -/
def Hidden (h : Hierarchy) (c : ClassId) (m : Member) : Prop :=
  (∃ l ∈ h.declaredMethods .object, h.isInstanceNamed m.name 0 l = true) ∨
    ∃ l ∈ (h.allMethods c).takeWhile (· != m.accessor),
      h.isAnnotationType l.owner = false ∧ h.isInstanceNamed m.name 0 l = true

instance (h : Hierarchy) (c : ClassId) (m : Member) : Decidable (h.Hidden c m) :=
  inferInstanceAs (Decidable (_ ∨ _))

/-- Before the method that reads a member, no other could read a member of its name. -/
theorem not_isAnnotationMember_of_before (hc : h.isAnnotationType c = true) {m : Member}
    (hm : m ∈ (h.contract c).members) {l : MethodRef}
    (hl : l ∈ (h.allMethods c).takeWhile (· != m.accessor)) (hName : (h.method l).name = m.name) :
    h.isAnnotationMember l = false := by
  obtain ⟨hAccessor, hMember⟩ := mem_members.mp hm
  obtain ⟨hMethod, hReads⟩ := isAnnotationMember_of_mem_accessors hc hAccessor
  have hFirst := (mem_accessors hc).mp hAccessor
  rw [List.find?_filter, find?_eq_some_iff_takeWhile hMethod (by simp [hReads])] at hFirst
  have hOther := hFirst l hl
  have hSame : (h.method l).name = (h.method m.accessor).name := by
    rw [hName, hMember]
    rfl
  simpa [hSame] using hOther

theorem isInstanceNamed_accessor (hc : h.isAnnotationType c = true) {m : Member}
    (hm : m ∈ (h.contract c).members) : h.isInstanceNamed m.name 0 m.accessor = true := by
  obtain ⟨hAccessor, hMember⟩ := mem_members.mp hm
  have hReads := (isAnnotationMember_of_mem_accessors hc hAccessor).2
  simp only [isAnnotationMember, Bool.and_eq_true, beq_iff_eq] at hReads
  exact isInstanceNamed_iff.mpr ⟨hReads.1.1, (congrArg Member.name hMember).symm, hReads.1.2⟩

/-- There is always an entry for the name of a member. -/
theorem exists_entry (hc : h.isAnnotationType c = true) {m : Member}
    (hm : m ∈ (h.contract c).members) :
    ∃ l, Table.find? (ProxyClass.tableOf h [c]) (m.name, 0) = some l := by
  have hMethod := (isAnnotationMember_of_mem_accessors hc (mem_members.mp hm).1).1
  rw [← Option.isSome_iff_exists, ProxyClass.find?_tableOf, List.find?_isSome]
  refine ⟨m.accessor, List.mem_append_right _ ?_, isInstanceNamed_accessor hc hm⟩
  exact List.mem_flatMap.mpr ⟨c, List.mem_singleton_self c, hMethod⟩

/-- The table of a proxy class leads from the name of a member to the method that reads it, unless
the member is hidden. -/
theorem find?_tableOf_member (hc : h.isAnnotationType c = true) {m : Member}
    (hm : m ∈ (h.contract c).members) :
    Table.find? (ProxyClass.tableOf h [c]) (m.name, 0) = some m.accessor ↔ ¬ h.Hidden c m := by
  obtain ⟨hMethod, hReads⟩ := isAnnotationMember_of_mem_accessors hc (mem_members.mp hm).1
  have hOwner : h.isAnnotationType m.accessor.owner = true := by
    simp only [isAnnotationMember, Bool.and_eq_true] at hReads
    exact hReads.2
  have hNamed := isInstanceNamed_accessor hc hm
  rw [ProxyClass.find?_tableOf, ProxyClass.candidates, List.flatMap_singleton, List.find?_append]
  -- The methods of the root are entered first, and none of them reads a member.
  cases hRoot : (h.declaredMethods .object).find? (h.isInstanceNamed m.name 0) with
  | some l =>
      have hl := List.mem_of_find?_eq_some hRoot
      constructor
      · intro hEntry
        have hSame : l = m.accessor := Option.some.inj hEntry
        rw [← hSame, (mem_declaredMethods.mp hl).1, h.isAnnotationType_object] at hOwner
        cases hOwner
      · intro hOpen
        exact absurd (.inl ⟨l, hl, List.find?_some hRoot⟩) hOpen
  | none =>
      rw [Option.none_or, find?_eq_some_iff_takeWhile hMethod hNamed]
      constructor
      · rintro hBefore (⟨l, hl, hRival⟩ | ⟨l, hl, _, hRival⟩)
        · exact List.find?_eq_none.mp hRoot l hl hRival
        · cases hRival.symm.trans (hBefore l hl)
      · intro hOpen l hl
        by_contra hRival
        rw [Bool.not_eq_false] at hRival
        obtain ⟨hKind', hName, hArity'⟩ := isInstanceNamed_iff.mp hRival
        -- It cannot belong to an annotation type, or it would read the member itself.
        have hPlain : h.isAnnotationType l.owner = false := by
          have hNone := not_isAnnotationMember_of_before hc hm hl hName
          simpa [isAnnotationMember, hKind', hArity'] using hNone
        exact hOpen (.inr ⟨l, hl, hPlain, hRival⟩)

end Hierarchy

namespace InstanceBuilder

variable {b : InstanceBuilder} {log : List (Member × Value)} {m : Member}

theorem select_accessor {serve : Serve σ} {h : Hierarchy} (hContract : b.contract = h.contract c)
    (hm : m ∈ b.contract.members) : b.select serve (.accessor m.accessor) w = (.ok m, w) := by
  rw [hContract] at hm
  rw [select, selectAccessor, hContract, Hierarchy.memberFor?_accessor hm]
  rfl

/-- A call of the name of a member selects the member unless it is hidden. -/
theorem select_called (hSound : w.Sound) (hKind : w.hierarchy.isAnnotationType c = true)
    (hContract : b.contract = w.hierarchy.contract c) (hm : m ∈ b.contract.members) (depth : Nat) :
    (b.select (perform client (depth + 1)) (.called fun a => .call a m.name [] .ofResult) w).1 =
      .ok m ↔ ¬ w.hierarchy.Hidden c m := by
  rw [hContract] at hm
  have hClass : b.contract.cls = c := by rw [hContract]; rfl
  obtain ⟨l, hEntry⟩ := Hierarchy.exists_entry hKind hm
  obtain ⟨v, hExtract⟩ : ∃ v, extractMethod (perform client (depth + 1)) b.contract.cls
      (fun a => .call a m.name [] .ofResult) w = (.ok l, v) := by
    rw [hClass]
    exact extractMethod_call hSound (Hierarchy.isInterface_of_isAnnotationType hKind) hEntry depth
  have hSelect : b.select (perform client (depth + 1))
      (.called fun a => .call a m.name [] .ofResult) w = Run.ofExcept id (b.selectAccessor l) v :=
    Run.bind_ok (Run.mapError_ok hExtract)
  rw [hSelect, ← Hierarchy.find?_tableOf_member hKind hm, hEntry]
  constructor
  · intro hMember
    have hFound := selectAccessor_eq_ok_iff.mp (Run.ok_of_ofExcept (Prod.ext hMember rfl)).1
    rw [hContract] at hFound
    rw [(Hierarchy.memberFor?_mem hFound).2]
  · intro hSame
    have hFound : b.selectAccessor l = .ok m := by
      rw [selectAccessor_eq_ok_iff, hContract, Option.some.inj hSame]
      exact Hierarchy.memberFor?_accessor hm
    rw [hFound]
    rfl

/-- A call of the name of a member of a built object is an invocation of the method that reads the
member, unless the member is hidden. -/
theorem Built.call_member {o : ObjectRef} (hBuilt : Built client c log o w)
    (hm : m ∈ (w.hierarchy.contract c).members) (hOpen : ¬ w.hierarchy.Hidden c m)
    (serve : Serve σ) : o.call serve m.name [] w = o.invoke serve m.accessor [] w := by
  obtain ⟨made, x, hObject, _, hMade, hKind, _⟩ := hBuilt.instance_of
  apply ObjectRef.call_apply hObject
  rw [hMade.table]
  exact (Hierarchy.find?_tableOf_member hKind hm).mpr hOpen

end InstanceBuilder

/-- The ways of naming a member. Its name and the method that reads it always select it. The table
of the proxy class leads from its name to that method, a call of its name on a built object gives
its value, and such a call selects it, as long as it is not hidden. -/
theorem naming_of_member (hReach : World.Reachable client w)
    (hKind : w.hierarchy.isAnnotationType c = true) {m : Member}
    (hm : m ∈ (w.hierarchy.contract c).members) :
    (∃ made v, (ProxyClass.forContracts [c] : Run ProxyError σ ProxyClass) w = (.ok made, v) ∧
      (Table.find? made.table (m.name, 0) = some m.accessor ↔ ¬ w.hierarchy.Hidden c m)) ∧
    (∀ log o, InstanceBuilder.Built client c log o w → ¬ w.hierarchy.Hidden c m →
      ∃ answer, w.hierarchy.expected? log m = some answer ∧
        ∀ depth, o.call (perform client (depth + 1)) m.name [] w = (.ok answer, w)) ∧
    ∀ log b, InstanceBuilder.Filled client c log b w →
      (∀ serve : Serve σ, b.select serve (.name m.name) w = (.ok m, w) ∧
        b.select serve (.accessor m.accessor) w = (.ok m, w)) ∧
      ∀ depth, (b.select (perform client (depth + 1))
        (.called fun a => .call a m.name [] .ofResult) w).1 = .ok m ↔ ¬ w.hierarchy.Hidden c m := by
  have hDeclared : ∀ d ∈ [c], w.hierarchy.Declared d := by
    intro d hd
    rw [List.mem_singleton.mp hd]
    exact Hierarchy.declared_of_isAnnotationType hKind
  refine ⟨?_, ?_, ?_⟩
  · obtain ⟨made, v, hRun, hMade, _⟩ := ProxyClass.forContracts_apply (ε := ProxyError)
      hReach.sound (List.pairwise_singleton _ c) hDeclared
    refine ⟨made, v, hRun, ?_⟩
    rw [hMade.implementing.table_eq hMade.hierarchy hDeclared]
    exact Hierarchy.find?_tableOf_member hKind hm
  · intro log o hBuilt hOpen
    obtain ⟨answer, hExpected, _, hInvoke⟩ := hBuilt.invoke_accessor hm
    refine ⟨answer, hExpected, fun depth => ?_⟩
    rw [hBuilt.call_member hm hOpen]
    exact hInvoke depth
  · intro log b hFilled
    have hContract := hFilled.records.2.contract
    have hMember : m ∈ b.contract.members := by rwa [hContract]
    exact ⟨fun serve => ⟨InstanceBuilder.select_name hKind hContract hMember,
        InstanceBuilder.select_accessor hContract hMember⟩,
      InstanceBuilder.select_called hReach.sound hKind hContract hMember⟩

/-- An interface that is no annotation type. -/
def sizedType : ClassBuilder :=
  (ClassBuilder.empty .interface "sized").method { name := "size", result := .primitive .int }

/-- An annotation type with a member of the same name. -/
def scaledType : ClassBuilder :=
  ((ClassBuilder.empty .annotationType "scaled").method
    { name := "scale", result := .primitive .int }).method
    { name := "size", result := .primitive .int }

/-- An annotation type that extends both, and has a member with the name of a method of the root. -/
def tagType : ClassBuilder :=
  (((ClassBuilder.empty .annotationType "tag").extend ⟨3⟩).extend ⟨4⟩).method
    { name := "hash_code", result := .primitive .int }

/-- A world in which the three have just been declared. -/
def tagWorld : World Stub.Stage :=
  (tagType.declare (ε := ProxyError) (scaledType.declare (ε := ProxyError)
    (sizedType.declare (ε := ProxyError) { client := {} }).2).2).2

theorem reachable_tagWorld : World.Reachable Stub.client tagWorld :=
  ⟨{}, .step (.step (.step .refl (.declare sizedType)) (.declare scaledType)) (.declare tagType)⟩

theorem naming_of_tag_members :
    World.Reachable Stub.client tagWorld ∧ tagWorld.hierarchy.isAnnotationType ⟨5⟩ = true ∧
      tagWorld.hierarchy.memberOf ⟨⟨4⟩, 0⟩ ∈ (tagWorld.hierarchy.contract ⟨5⟩).members ∧
      tagWorld.hierarchy.memberOf ⟨⟨4⟩, 1⟩ ∈ (tagWorld.hierarchy.contract ⟨5⟩).members ∧
      ∃ made v, (ProxyClass.forContracts [⟨5⟩] : Run ProxyError Stub.Stage ProxyClass) tagWorld =
          (.ok made, v) ∧
        Table.find? made.table ("scale", 0) = some ⟨⟨4⟩, 0⟩ ∧
        Table.find? made.table ("size", 0) ≠ some ⟨⟨4⟩, 1⟩ := by
  have hKind : tagWorld.hierarchy.isAnnotationType ⟨5⟩ = true := by decide
  have hScale : tagWorld.hierarchy.memberOf ⟨⟨4⟩, 0⟩ ∈
      (tagWorld.hierarchy.contract ⟨5⟩).members :=
    Hierarchy.mem_members.mpr ⟨by decide +kernel, rfl⟩
  have hSize : tagWorld.hierarchy.memberOf ⟨⟨4⟩, 1⟩ ∈
      (tagWorld.hierarchy.contract ⟨5⟩).members :=
    Hierarchy.mem_members.mpr ⟨by decide +kernel, rfl⟩
  obtain ⟨made, v, hRun, hOpen⟩ := (naming_of_member reachable_tagWorld hKind hScale).1
  obtain ⟨made', v', hRun', hHidden⟩ := (naming_of_member reachable_tagWorld hKind hSize).1
  rw [hRun] at hRun'
  cases hRun'
  refine ⟨reachable_tagWorld, hKind, hScale, hSize, made, v, hRun, ?_, ?_⟩
  · exact hOpen.mpr (by decide +kernel)
  · exact fun hEntry => hHidden.mp hEntry (by decide +kernel)

/-- Members can be hidden, both behind a method of the root and behind one of another interface. -/
theorem members_not_entered :
    World.Reachable Stub.client tagWorld ∧ tagWorld.hierarchy.isAnnotationType ⟨5⟩ = true ∧
      ∃ made v, (ProxyClass.forContracts [⟨5⟩] : Run ProxyError Stub.Stage ProxyClass) tagWorld =
          (.ok made, v) ∧
        ∃ hashed ∈ (tagWorld.hierarchy.contract ⟨5⟩).members,
          ∃ sized ∈ (tagWorld.hierarchy.contract ⟨5⟩).members,
            Table.find? made.table (hashed.name, 0) = some .hashCode ∧
            hashed.accessor ≠ .hashCode ∧
            Table.find? made.table (sized.name, 0) = some ⟨⟨3⟩, 0⟩ ∧ sized.accessor ≠ ⟨⟨3⟩, 0⟩ := by
  have hDeclared : ∀ d ∈ [ClassId.mk 5], tagWorld.hierarchy.Declared d := by decide
  obtain ⟨made, v, hRun, hMade, _⟩ := ProxyClass.forContracts_apply (ε := ProxyError)
    reachable_tagWorld.sound (List.pairwise_singleton _ ⟨5⟩) hDeclared
  have hTable := hMade.implementing.table_eq hMade.hierarchy hDeclared
  refine ⟨reachable_tagWorld, by decide, made, v, hRun,
    tagWorld.hierarchy.memberOf ⟨⟨5⟩, 0⟩, Hierarchy.mem_members.mpr ⟨by decide +kernel, rfl⟩,
    tagWorld.hierarchy.memberOf ⟨⟨4⟩, 1⟩, Hierarchy.mem_members.mpr ⟨by decide +kernel, rfl⟩, ?_⟩
  rw [hTable]
  decide +kernel

end Metaobject
