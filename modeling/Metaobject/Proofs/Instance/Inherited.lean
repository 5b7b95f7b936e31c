import Metaobject.Proofs.Instance.Naming

/-!
Using an instance through the annotation types above its own. A method that such a type declares has
the name of exactly one member. It reads that member as long as no nearer type declares the name
again; a method that has been declared again nearer by is not handled any more.
-/
namespace Metaobject

variable {σ : Type} {client : Client σ} {c : ClassId} {w : World σ}

namespace Hierarchy

variable {h : Hierarchy} {m : Member} {n : MethodRef}

/-- A method that an annotation type inherits could be read as a member. -/
theorem mem_allMethods_of_isSubtype {a : ClassId} (ha : h.isAnnotationType a = true)
    (hSubtype : h.isSubtype c a = true) (hn : n ∈ h.declaredMethods a) : n ∈ h.allMethods c := by
  have hRoot : a ≠ .object := by
    rintro rfl
    cases ha.symm.trans h.isAnnotationType_object
  exact mem_allMethods.mpr ⟨a, reaches_of_isSubtype hSubtype hRoot, hn⟩

/-- A method reads the member of its name if it is the first that could. -/
theorem eq_accessor_iff (hc : h.isAnnotationType c = true) (hm : m ∈ (h.contract c).members)
    (hn : n ∈ h.allMethods c) (hReads : h.isAnnotationMember n = true)
    (hName : m.name = (h.method n).name) :
    n = m.accessor ↔ ∀ l ∈ (h.allMethods c).takeWhile (· != n),
      h.isAnnotationMember l = true → (h.method l).name ≠ (h.method n).name := by
  obtain ⟨hAccessor, hMember⟩ := mem_members.mp hm
  have hNames : (h.method n).name = (h.method m.accessor).name := by
    rw [← hName, hMember]
    rfl
  have hSelf : n = m.accessor ↔ n ∈ h.accessors c := by
    constructor
    · rintro rfl
      exact hAccessor
    · exact fun hMem => eq_of_mem_accessors hc hMem hAccessor hNames
  rw [hSelf, mem_accessors hc, List.find?_filter, find?_eq_some_iff_takeWhile hn (by simp [hReads])]
  simp

end Hierarchy

namespace InstanceBuilder

variable {log : List (Member × Value)} {o : ObjectRef} {n : MethodRef}

/-- A built object does not handle a method of an annotation type that reads none of its members. -/
theorem Built.invoke_declined (hBuilt : Built client c log o w)
    (hReads : w.hierarchy.isAnnotationMember n = true)
    (hSubtype : w.hierarchy.isSubtype c n.owner = true)
    (hNone : (w.hierarchy.contract c).memberFor? n = none) (depth : Nat) :
    o.invoke (perform client (depth + 1)) n [] w =
      (.error (.raised (.unhandled ⟨n, some o, []⟩)), w) := by
  obtain ⟨made, x, hObject, hCls, hMade, _, hContract, _⟩ := hBuilt.instance_of
  simp only [Hierarchy.isAnnotationMember, Bool.and_eq_true, beq_iff_eq] at hReads
  obtain ⟨⟨hKind, hArity⟩, hOwner⟩ := hReads
  have hClass : w.hierarchy.isSubtype o.cls n.owner = true := by
    rw [hCls]
    exact hMade.isSubtype (List.mem_singleton_self c) hSubtype
  have hAnswer : (Handler.values x).handle client (perform client depth) ⟨n, some o, []⟩ w =
      (.ok none, w) := by
    show x.answer (perform client depth) _ w = _
    rw [x.answer_apply hOwner, hContract, hNone]
    rfl
  rw [ObjectRef.invoke_nullary hKind hArity hClass, perform_ask hObject]
  have hFirst : Handler.firstAnswer client (perform client depth) [.values x] ⟨n, some o, []⟩ w =
      (.ok none, w) := Run.bind_ok hAnswer
  exact Run.bind_ok hFirst

end InstanceBuilder

/-- An instance that is used through an annotation type above its own. Each method without
parameters that the type declares has the name of exactly one member. Invoking it gives the value of
that member if it is the method that reads it, which it is unless the search of the instance's type
comes upon another method of the name first, of an annotation type again and without parameters.
If it is not, the invocation is made and passed on, and no handler handles it. -/
theorem invoke_inherited {log : List (Member × Value)} {o : ObjectRef}
    (hBuilt : InstanceBuilder.Built client c log o w) {a : ClassId}
    (ha : w.hierarchy.isAnnotationType a = true) (hSubtype : w.hierarchy.isSubtype c a = true)
    {n : MethodRef} (hn : n ∈ w.hierarchy.declaredMethods a)
    (hKind : (w.hierarchy.method n).kind = .ofInstance) (hArity : w.hierarchy.arity n = 0) :
    ∃ m ∈ (w.hierarchy.contract c).members, m.name = (w.hierarchy.method n).name ∧
      (∀ other ∈ (w.hierarchy.contract c).members,
        other.name = (w.hierarchy.method n).name → other = m) ∧
      (n = m.accessor ↔ ∀ l ∈ (w.hierarchy.allMethods c).takeWhile (· != n),
        w.hierarchy.isAnnotationMember l = true →
          (w.hierarchy.method l).name ≠ (w.hierarchy.method n).name) ∧
      ∃ value, w.hierarchy.expected? log m = some value ∧
        ∀ depth, o.invoke (perform client (depth + 1)) n [] w =
          (if n = m.accessor then .ok value
            else .error (.raised (.unhandled ⟨n, some o, []⟩)), w) := by
  obtain ⟨_, _, _, _, _, hc, _⟩ := hBuilt.instance_of
  have hMethod := Hierarchy.mem_allMethods_of_isSubtype ha hSubtype hn
  have hOwner : n.owner = a := (Hierarchy.mem_declaredMethods.mp hn).1
  have hReads : w.hierarchy.isAnnotationMember n = true := by
    simp [Hierarchy.isAnnotationMember, hKind, hArity, hOwner, ha]
  obtain ⟨m, hm, hName⟩ := Hierarchy.exists_member_named hc hMethod hReads
  obtain ⟨value, hExpected, _, hInvoke⟩ := hBuilt.invoke_accessor hm
  refine ⟨m, hm, hName, fun other hOther hSame => ?_,
    Hierarchy.eq_accessor_iff hc hm hMethod hReads hName, value, hExpected, fun depth => ?_⟩
  · exact Hierarchy.eq_of_name_eq hc hOther hm (hSame.trans hName.symm)
  · split
    · next hFirst =>
        rw [hFirst]
        exact hInvoke depth
    · next hRedeclared =>
        refine hBuilt.invoke_declined hReads (hOwner ▸ hSubtype) ?_ depth
        by_contra hSome
        obtain ⟨other, hOther⟩ := Option.ne_none_iff_exists'.mp hSome
        obtain ⟨hMem, hAccessor⟩ := Hierarchy.memberFor?_mem hOther
        have hSame : other = m := by
          refine Hierarchy.eq_of_name_eq hc hMem hm ?_
          rw [hName, (Hierarchy.mem_members.mp hMem).2, hAccessor]
          rfl
        exact hRedeclared (hSame ▸ hAccessor).symm

/-- An annotation type that declares one of the members that it inherits again. -/
def tightType : ClassBuilder :=
  ((ClassBuilder.empty .annotationType "tight").extend ⟨3⟩).method
    { name := "size", result := .primitive .int }

/-- A world in which it has just been declared. -/
def tightWorld : World Stub.Stage :=
  (tightType.declare (ε := ProxyError) limitWorld).2

/-- What is given to its members. -/
def tightLog : List (Member × Value) :=
  [(tightWorld.hierarchy.memberOf ⟨⟨4⟩, 0⟩, .byte 5)]

theorem exists_tight : ∃ o w, InstanceBuilder.Built Stub.client ⟨4⟩ tightLog o w ∧
    tightWorld.hierarchy.GrowsTo w.hierarchy := by
  have hReach : World.Reachable Stub.client tightWorld :=
    reachable_limitWorld.leads (.step .refl (.declare tightType))
  have hOpen : InstanceBuilder.of tightWorld.hierarchy ⟨4⟩ = .ok ⟨_, []⟩ :=
    InstanceBuilder.of_eq_ok (by decide) (Option.isNone_iff_eq_none.mp (by decide +kernel))
  have hSize : tightWorld.hierarchy.memberOf ⟨⟨4⟩, 0⟩ ∈
      (tightWorld.hierarchy.contract ⟨4⟩).members :=
    Hierarchy.mem_members.mpr ⟨by decide +kernel, rfl⟩
  have hFilled : InstanceBuilder.Filled Stub.client ⟨4⟩ tightLog _ tightWorld :=
    (InstanceBuilder.Filled.opened hReach hOpen).assign_name (a := .int 5) hSize rfl rfl
  obtain ⟨o, w, _, hBuilt, hLeads⟩ := hFilled.exists_built (by decide +kernel)
  exact ⟨o, w, hBuilt, (hLeads.evolves hReach.sound).1.hierarchy⟩

theorem invoke_inherited_tight :
    ∃ o w, InstanceBuilder.Built Stub.client ⟨4⟩ tightLog o w ∧
      (o.invoke (perform Stub.client 1) ⟨⟨3⟩, 1⟩ [] w).1 = .ok (.int 2) := by
  obtain ⟨o, w, hBuilt, hGrows⟩ := exists_tight
  have hLimit : tightWorld.hierarchy.Declared ⟨3⟩ := by decide
  have hTight : tightWorld.hierarchy.Declared ⟨4⟩ := by decide
  have hScale : tightWorld.hierarchy.memberOf ⟨⟨3⟩, 1⟩ ∈ (w.hierarchy.contract ⟨4⟩).members := by
    rw [hGrows.contract_eq hTight]
    exact Hierarchy.mem_members.mpr ⟨by decide +kernel, rfl⟩
  have hMethod : w.hierarchy.method ⟨⟨3⟩, 1⟩ = tightWorld.hierarchy.method ⟨⟨3⟩, 1⟩ :=
    hGrows.method_eq hLimit
  have hKind : w.hierarchy.isAnnotationType ⟨3⟩ = true := by
    rw [hGrows.isAnnotationType_eq hLimit]
    decide
  have hDeclares : ⟨⟨3⟩, 1⟩ ∈ w.hierarchy.declaredMethods ⟨3⟩ := by
    rw [hGrows.declaredMethods_eq hLimit]
    decide +kernel
  have hArity : w.hierarchy.arity ⟨⟨3⟩, 1⟩ = 0 := by
    rw [hGrows.arity_eq hLimit]
    rfl
  obtain ⟨m, _, _, hUnique, _, value, hExpected, hInvoke⟩ := invoke_inherited hBuilt hKind
    (hGrows.isSubtype (by decide +kernel)) hDeclares (by rw [hMethod]; rfl) hArity
  obtain rfl := hUnique _ hScale (by rw [hMethod]; rfl)
  cases hExpected
  exact ⟨o, w, hBuilt, congrArg Prod.fst (hInvoke 0)⟩

/-- A member that is declared again is not read by the method that declared it before. -/
theorem redeclared_not_handled :
    ∃ o w, InstanceBuilder.Built Stub.client ⟨4⟩ tightLog o w ∧
      w.hierarchy.isAnnotationType ⟨3⟩ = true ∧ w.hierarchy.isSubtype ⟨4⟩ ⟨3⟩ = true ∧
      ⟨⟨3⟩, 0⟩ ∈ w.hierarchy.declaredMethods ⟨3⟩ ∧
      w.hierarchy.isAnnotationMember ⟨⟨3⟩, 0⟩ = true ∧
      (∃ m ∈ (w.hierarchy.contract ⟨4⟩).members, m.name = (w.hierarchy.method ⟨⟨3⟩, 0⟩).name ∧
        w.hierarchy.expected? tightLog m = some (.int 5)) ∧
      ∀ depth, o.invoke (perform Stub.client (depth + 1)) ⟨⟨3⟩, 0⟩ [] w =
        (.error (.raised (.unhandled ⟨⟨⟨3⟩, 0⟩, some o, []⟩)), w) := by
  obtain ⟨o, w, hBuilt, hGrows⟩ := exists_tight
  have hLimit : tightWorld.hierarchy.Declared ⟨3⟩ := by decide
  have hContract := hGrows.contract_eq (c := ⟨4⟩) (by decide)
  have hMethod : w.hierarchy.method ⟨⟨3⟩, 0⟩ = tightWorld.hierarchy.method ⟨⟨3⟩, 0⟩ :=
    hGrows.method_eq hLimit
  have hKind : w.hierarchy.isAnnotationType ⟨3⟩ = true := by
    rw [hGrows.isAnnotationType_eq hLimit]
    decide
  have hReads : w.hierarchy.isAnnotationMember ⟨⟨3⟩, 0⟩ = true := by
    rw [Hierarchy.isAnnotationMember, hMethod, hGrows.arity_eq hLimit, hKind]
    decide
  have hSubtype : w.hierarchy.isSubtype ⟨4⟩ ⟨3⟩ = true := hGrows.isSubtype (by decide +kernel)
  have hNone : (w.hierarchy.contract ⟨4⟩).memberFor? ⟨⟨3⟩, 0⟩ = none := by
    rw [hContract]
    exact Option.isNone_iff_eq_none.mp (by decide +kernel)
  refine ⟨o, w, hBuilt, hKind, hSubtype, ?_, hReads,
    ⟨tightWorld.hierarchy.memberOf ⟨⟨4⟩, 0⟩, ?_, hMethod ▸ rfl, rfl⟩,
    hBuilt.invoke_declined hReads hSubtype hNone⟩
  · rw [hGrows.declaredMethods_eq hLimit]
    decide +kernel
  · rw [hContract]
    exact Hierarchy.mem_members.mpr ⟨by decide +kernel, rfl⟩

end Metaobject
