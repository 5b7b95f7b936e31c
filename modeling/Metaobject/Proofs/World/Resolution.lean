import Metaobject.Proofs.Invocation
import Metaobject.Proofs.Proxy.Call
import Metaobject.Proofs.Proxy.Dispatch

/-!
Which method a call by name comes to. A proxy has a table of methods that can be called on objects.
Any other object is searched through its class, and the search takes the first method of the name
and the number of parameters, whether it can be called on an object or not.
-/
namespace Metaobject

variable {ε σ α : Type} {client : Client σ} {serve : Serve σ} {u v w : World σ}

namespace Hierarchy

variable {h : Hierarchy} {c : ClassId} {m : MethodRef} {name : String} {arity : Nat}

/-- The methods that a class declares or inherits, and then those of the root. -/
def methodsOf (h : Hierarchy) (c : ClassId) : List MethodRef :=
  h.allMethods c ++ h.declaredMethods .object

theorem isSubtype_of_mem_methodsOf (hm : m ∈ h.methodsOf c) : h.isSubtype c m.owner = true := by
  cases List.mem_append.mp hm with
  | inl hOwn => exact isSubtype_owner_of_mem_allMethods hOwn
  | inr hRoot =>
      rw [(mem_declaredMethods.mp hRoot).1]
      exact h.isSubtype_object c

theorem findMethod?_eq_find? (h : Hierarchy) (c : ClassId) (name : String) (arity : Nat) :
    h.findMethod? c name arity = (h.methodsOf c).find? (h.isNamed name arity) := by
  rw [findMethod?, declaredOrInherited?_eq_find?, declaredWith?_eq_find?, methodsOf,
    List.find?_append]

/-- The first method above a class to pass a test is the same whether a class that is come to again
is passed by or not. -/
theorem find?_allMethods (h : Hierarchy) (c : ClassId) (p : MethodRef → Bool) :
    (h.allMethods c).find? p = ((h.walk c).flatMap h.declaredMethods).find? p := by
  rw [allMethods, linearization_eq_eraseDups, List.find?_flatMap, List.find?_flatMap,
    findSome?_eraseDups]

/-- A class that declares nothing has the methods of its supertypes, in order. -/
theorem find?_allMethods_of_methods_eq_nil (hNone : (h.decl c).methods = [])
    (p : MethodRef → Bool) :
    (h.allMethods c).find? p = ((h.supertypes c).flatMap h.allMethods).find? p := by
  have hOwn : h.declaredMethods c = [] := by
    rw [declaredMethods, hNone]
    rfl
  rw [find?_allMethods, walk_eq, List.flatMap_cons, hOwn, List.nil_append, List.flatMap_assoc,
    List.find?_flatMap, List.find?_flatMap]
  exact findSome?_congr fun s _ => (h.find?_allMethods s p).symm

end Hierarchy

/-! ### Classes of proxies declare nothing -/

/-- The classes of proxies, those kept and those in use, declare no methods. -/
structure World.Bare (w : World σ) : Prop where
  kept : ∀ contracts made, (contracts, made) ∈ w.proxyClasses →
    (w.hierarchy.decl made.cls).methods = []
  used : ∀ made chain, ObjectData.proxy made chain ∈ w.objects.toList →
    (w.hierarchy.decl made.cls).methods = []

namespace World

/-- Declaring classes changes nothing of the classes that there are. -/
theorem Bare.mono (hBare : w.Bare) (hSound : w.Sound) (hGrows : w.hierarchy.GrowsTo v.hierarchy)
    (hClasses : v.proxyClasses = w.proxyClasses) (hObjects : v.objects = w.objects) : v.Bare where
  kept := by
    intro contracts made hMem
    rw [hClasses] at hMem
    rw [hGrows.decl_eq (hSound.kept contracts made hMem).declared]
    exact hBare.kept contracts made hMem
  used := by
    intro made chain hMem
    rw [hObjects] at hMem
    obtain ⟨_, hMade⟩ := hSound.used made chain hMem
    rw [hGrows.decl_eq hMade.declared]
    exact hBare.used made chain hMem

theorem Bare.allocate (hBare : w.Bare) (c : ClassId) {d : ObjectData}
    (hMade : ∀ made chain, d = .proxy made chain → (w.hierarchy.decl made.cls).methods = []) :
    (w.allocate c d).2.Bare where
  kept := hBare.kept
  used := by
    intro made chain hMem
    rw [World.allocate, Array.toList_push, List.mem_append, List.mem_singleton] at hMem
    cases hMem with
    | inl hOld => exact hBare.used made chain hOld
    | inr hNew => exact hMade made chain hNew.symm

/-- From a sound world with bare classes on, the classes of proxies stay bare. -/
def StaysBare (w v : World σ) : Prop :=
  w.Sound → w.Bare → v.Sound ∧ v.Bare

theorem staysBare_of_growsTo (hGrows : w.hierarchy.GrowsTo v.hierarchy)
    (hClasses : v.proxyClasses = w.proxyClasses) (hObjects : v.objects = w.objects) :
    w.StaysBare v :=
  fun hSound hBare => ⟨hSound.mono hGrows hClasses hObjects,
    hBare.mono hSound hGrows hClasses hObjects⟩

theorem Steady.staysBare (hSteady : w.Steady v) : w.StaysBare v :=
  staysBare_of_growsTo (hSteady.hierarchy ▸ .refl _) hSteady.proxyClasses hSteady.objects

end World

/-- Proxies of interfaces get a class that declares nothing. -/
theorem ProxyClass.bare_of_forContracts {contracts : List ClassId} {made : ProxyClass}
    (hSound : w.Sound) (hBare : w.Bare) (hDeclared : ∀ c ∈ contracts, w.hierarchy.Declared c)
    (hRun : (forContracts contracts : Run ε σ ProxyClass) w = (.ok made, v)) :
    (v.hierarchy.decl made.cls).methods = [] ∧ v.Bare := by
  let fixed : World σ := { w with settings? := some w.settings }
  have hMade : ((fixed.hierarchy.define (builderFor fixed contracts)).1.decl
      (fixed.hierarchy.define (builderFor fixed contracts)).2).methods = [] := by
    rw [decl_synthesized (w := fixed) hDeclared]
  have hFixed : fixed.Bare := ⟨hBare.kept, hBare.used⟩
  have hGrows := fixed.hierarchy.growsTo_define (builderFor fixed contracts)
  rw [forContracts, Run.bind_ok (Settings.current_apply w)] at hRun
  split at hRun
  · rw [synthesize_eq] at hRun
    cases hRun
    exact ⟨hMade, hFixed.mono (hSound.mono (.refl _) rfl rfl) hGrows rfl rfl⟩
  · rw [Run.bind_ok (Run.get_apply _)] at hRun
    have hStays : World.Bare { fixed with
        hierarchy := (fixed.hierarchy.define (builderFor fixed contracts)).1 } :=
      hFixed.mono (hSound.mono (.refl _) rfl rfl) hGrows rfl rfl
    cases hOld : Table.find? w.proxyClasses contracts with
    | some kept =>
        dsimp only at hRun
        rw [hOld] at hRun
        cases hRun
        exact ⟨hBare.kept contracts _ (Table.mem_of_find? hOld), hFixed⟩
    | none =>
        rw [hOld] at hRun
        dsimp only at hRun
        rw [Run.bind_ok (synthesize_eq contracts _)] at hRun
        cases hRun
        refine ⟨hMade, fun cs other hMem => ?_, hStays.used⟩
        cases Table.mem_set hMem with
        | inl hKept => exact hStays.kept cs other hKept
        | inr hNew =>
            cases hNew
            exact hMade

theorem ProxyBuilder.staysBare_build (b : ProxyBuilder) :
    Run.Keeps World.StaysBare (b.build : Run ProxyError σ ObjectRef) := by
  intro w hSound hBare
  have hEvolves := b.evolves_build w hSound
  rcases hRun : b.build w with ⟨e | o, v⟩
  · rcases b.build_apply hSound with ⟨_, hSame⟩ | ⟨_, _, _, _, _, hOk, _⟩
    · rw [hRun] at hSame
      cases hSame
      exact ⟨hSound, hBare⟩
    · rw [hRun] at hOk
      cases hOk
  · rw [hRun] at hEvolves
    refine ⟨hEvolves.2, ?_⟩
    rw [build] at hRun
    split at hRun
    · cases hRun
    · rw [Run.bind_ok (Run.hierarchy_apply w)] at hRun
      obtain ⟨contracts, u, hCheck, hRest⟩ := Run.exists_of_bind_ok hRun
      obtain ⟨hContracts, rfl⟩ := Run.ok_of_ofExcept hCheck
      obtain ⟨made, x, hMade, hNew⟩ := Run.exists_of_bind_ok hRest
      obtain ⟨-, hInterfaces⟩ := checkContracts_ok hContracts List.nodup_nil (by simp)
      obtain ⟨hNone, hStays⟩ := ProxyClass.bare_of_forContracts hSound hBare
        (fun c hc => Hierarchy.declared_of_isInterface (hInterfaces c hc)) hMade
      cases hNew
      apply hStays.allocate made.cls
      intro other chain hEq
      cases hEq
      exact hNone

namespace World

theorem StaysBare.trans {u v w : World σ} (first : u.StaysBare v) (second : v.StaysBare w) :
    u.StaysBare w := by
  intro hSound hBare
  obtain ⟨hSound, hBare⟩ := first hSound hBare
  exact second hSound hBare

/-- Each step leaves the classes of proxies bare. -/
theorem staysBare_growth : World.FreeGrowth (World.StaysBare : World σ → World σ → Prop) where
  toSteps := by
    refine .of_resembles (fun _ _ _ => .trans) (fun w v hSame => ?_)
      (fun w b => staysBare_of_growsTo (w.hierarchy.growsTo_define b) rfl rfl)
      (fun w c hook hSound hBare => ⟨?_, ?_⟩)
    · exact staysBare_of_growsTo (hSame.hierarchy ▸ .refl _) hSame.proxyClasses hSame.objects
    · exact hSound.allocate c fun made chain hEq => by cases hEq
    · exact hBare.allocate c fun made chain hEq => by cases hEq
  cells _ _ _ _ := Steady.staysBare ⟨rfl, rfl, rfl, rfl, rfl⟩
  build := ProxyBuilder.staysBare_build

theorem Reachable.bare (hReach : World.Reachable client w) : w.Bare := by
  obtain ⟨state, hLeads⟩ := hReach
  have hStays : World.StaysBare { client := state } w := by
    induction hLeads with
    | refl => exact staysBare_growth.refl _
    | step _ hx ih => exact ih.trans (staysBare_growth.operation hx _)
  refine (hStays (sound_start state) ⟨?_, ?_⟩).2
  · intro _ _ hMem
    cases hMem
  · intro _ _ hMem
    cases hMem

end World

namespace ObjectRef

variable {o : ObjectRef} {name : String} {arguments : List Value} {m : MethodRef}

/-- A method that is not called on objects takes none as its receiver. -/
theorem invoke_of_ne (hKind : (w.hierarchy.method m).kind ≠ .ofInstance) (o : ObjectRef)
    (arguments : List Value) :
    o.invoke serve m arguments w = (.error (.raised (.illegal (.receiverNotTaken m))), w) := by
  have hReceiver : Invocation.checkReceiver w.hierarchy m (some o) =
      .error (.receiverNotTaken m) := by
    rw [Invocation.checkReceiver.eq_def]
    cases hOther : (w.hierarchy.method m).kind with
    | ofInstance => exact absurd hOther hKind
    | «static» => rfl
    | constructor => rfl
  rw [invoke, Run.bind_ok (Run.hierarchy_apply w), Invocation.of, hReceiver]
  rfl

theorem call_of_resolved (hFound : w.resolveMethod? o name arguments.length = some m) :
    o.call serve name arguments w = o.invoke serve m arguments w := by
  rw [call, Run.bind_ok (Run.get_apply w), hFound]

theorem call_of_unresolved (hNone : w.resolveMethod? o name arguments.length = none) :
    o.call serve name arguments w =
      (.error (.raised (.noSuchMethod o.cls name arguments.length)), w) := by
  rw [call, Run.bind_ok (Run.get_apply w), hNone]
  rfl

/-- A call does not know the name of its own accord, whatever its requests come to. -/
def Unknown (o : ObjectRef) (name : String) (arguments : List Value) (w : World σ) : Prop :=
  ∀ serve : Serve σ, o.call serve name arguments w =
    (.error (.raised (.noSuchMethod o.cls name arguments.length)), w)

/-- A call does not know the name only if nothing is found for it. -/
theorem unknown_iff :
    o.Unknown name arguments w ↔ w.resolveMethod? o name arguments.length = none := by
  constructor
  · intro hUnknown
    cases hFound : w.resolveMethod? o name arguments.length with
    | none => rfl
    | some m =>
        have hCall := hUnknown fun _ => pure .null
        rw [call_of_resolved hFound, invoke, Run.bind_ok (Run.hierarchy_apply w)] at hCall
        cases hMade : Invocation.of w.hierarchy m (some o) arguments with
        | error why =>
            rw [hMade] at hCall
            cases hCall
        | ok i =>
            rw [hMade] at hCall
            cases hCall
  · exact fun hNone serve => call_of_unresolved hNone

end ObjectRef

/-- The table of a proxy has the first method that can be called on an object, among those of the
root and those that its class inherits. -/
theorem World.resolveMethod?_proxy (hReach : World.Reachable client w) {o : ObjectRef}
    {made : ProxyClass} {chain : Chain} (ho : w.object? o = some (.proxy made chain))
    (hClass : o.cls = made.cls) (name : String) (arity : Nat) :
    w.resolveMethod? o name arity =
      (w.hierarchy.declaredMethods .object ++ w.hierarchy.allMethods o.cls).find?
        (w.hierarchy.isInstanceNamed name arity) := by
  have hMem : ObjectData.proxy made chain ∈ w.objects.toList := by
    rw [World.object?, ← Array.getElem?_toList] at ho
    exact List.mem_of_getElem? ho
  obtain ⟨contracts, hMade⟩ := hReach.sound.used made chain hMem
  have hNone := hReach.bare.used made chain hMem
  rw [World.resolveMethod?, ho]
  show Table.find? made.table (name, arity) = _
  rw [hMade.table, ProxyClass.find?_tableOf, ProxyClass.candidates, List.find?_append,
    List.find?_append, hClass, Hierarchy.find?_allMethods_of_methods_eq_nil hNone, hMade.supertypes]

theorem World.resolveMethod?_native {o : ObjectRef} {hook : Hook}
    (ho : w.object? o = some (.native hook)) (name : String) (arity : Nat) :
    w.resolveMethod? o name arity =
      (w.hierarchy.methodsOf o.cls).find? (w.hierarchy.isNamed name arity) := by
  rw [World.resolveMethod?, ho]
  exact w.hierarchy.findMethod?_eq_find? o.cls name arity

open ObjectRef in
/-- What a call by name comes to, for every object of a world, by the methods that its class
declares or inherits and those of the root.

A proxy does not know the name only if none of these methods has the name and the number of
parameters and can be called on an object. Otherwise the call comes to such a method, which takes
the proxy as its receiver.

Any other object does not know the name only if none of these methods has the name and the number of
parameters, of whatever kind. Otherwise the call comes to the first that has them. If this is a
method that can be called on an object, it is the first such and takes the object. If it is not,
the call fails on account of its receiver, even if such a method comes later. -/
theorem resolution_of_calls (hReach : World.Reachable client w) (o : ObjectRef) (name : String)
    (arguments : List Value) :
    (∀ made chain, w.object? o = some (.proxy made chain) → o.cls = made.cls →
      (o.Unknown name arguments w ↔ ∀ m ∈ w.hierarchy.methodsOf o.cls,
        w.hierarchy.isInstanceNamed name arguments.length m = false) ∧
      ∀ m, w.resolveMethod? o name arguments.length = some m →
        m ∈ w.hierarchy.methodsOf o.cls ∧
        w.hierarchy.isInstanceNamed name arguments.length m = true ∧
        Invocation.checkReceiver w.hierarchy m (some o) = .ok () ∧
        ∀ serve, o.call serve name arguments w = o.invoke serve m arguments w) ∧
    ∀ hook, w.object? o = some (.native hook) →
      (o.Unknown name arguments w ↔ ∀ m ∈ w.hierarchy.methodsOf o.cls,
        w.hierarchy.isNamed name arguments.length m = false) ∧
      ∀ m, w.resolveMethod? o name arguments.length = some m →
        (w.hierarchy.methodsOf o.cls).find? (w.hierarchy.isNamed name arguments.length) = some m ∧
        ((w.hierarchy.method m).kind = .ofInstance →
          (w.hierarchy.methodsOf o.cls).find?
            (w.hierarchy.isInstanceNamed name arguments.length) = some m ∧
          Invocation.checkReceiver w.hierarchy m (some o) = .ok () ∧
          ∀ serve, o.call serve name arguments w = o.invoke serve m arguments w) ∧
        ((w.hierarchy.method m).kind ≠ .ofInstance → ∀ serve,
          o.call serve name arguments w =
            (.error (.raised (.illegal (.receiverNotTaken m))), w)) := by
  constructor
  · intro made chain ho hClass
    have hResolve := World.resolveMethod?_proxy hReach ho hClass name arguments.length
    have hMem (m : MethodRef) :
        m ∈ w.hierarchy.declaredMethods .object ++ w.hierarchy.allMethods o.cls ↔
          m ∈ w.hierarchy.methodsOf o.cls := by
      rw [Hierarchy.methodsOf, List.mem_append, List.mem_append, or_comm]
    constructor
    · rw [unknown_iff, hResolve, List.find?_eq_none]
      simp only [hMem, Bool.not_eq_true]
    · intro m hFound
      rw [hResolve] at hFound
      have hMethod := (hMem m).mp (List.mem_of_find?_eq_some hFound)
      have hNamed := List.find?_some hFound
      refine ⟨hMethod, hNamed, ?_, fun serve => call_of_resolved (hResolve.trans hFound)⟩
      exact Invocation.checkReceiver_of_isSubtype (Hierarchy.isInstanceNamed_iff.mp hNamed).1
        (Hierarchy.isSubtype_of_mem_methodsOf hMethod)
  · intro hook ho
    have hResolve := World.resolveMethod?_native ho name arguments.length
    constructor
    · rw [unknown_iff, hResolve, List.find?_eq_none]
      simp only [Bool.not_eq_true]
    · intro m hFound
      have hFirst := hResolve.symm.trans hFound
      refine ⟨hFirst, fun hKind => ⟨?_, ?_, fun serve => call_of_resolved hFound⟩,
        fun hKind serve => ?_⟩
      · exact find?_eq_some_of_imp hFirst
          (Hierarchy.isInstanceNamed_of_isNamed hKind (List.find?_some hFirst))
          fun n => Hierarchy.isNamed_of_isInstanceNamed
      · exact Invocation.checkReceiver_of_isSubtype hKind
          (Hierarchy.isSubtype_of_mem_methodsOf (List.mem_of_find?_eq_some hFirst))
      · rw [call_of_resolved hFound, invoke_of_ne hKind]

/-- An interface with a method that is called on the class, and another one of the same name that
is called on objects. -/
def parcelType : ClassBuilder :=
  ((ClassBuilder.empty .interface "parcel").method
    { name := "size", kind := .static, result := .primitive .int }).method
    { name := "size", result := .primitive .int }

/-- An object of the client that answers for its size. -/
def parcel : ObjectRef := ⟨0, ⟨3⟩⟩

/-- A proxy that leaves its size unhandled. -/
def parcelProxy : ObjectRef := ⟨1, ⟨4⟩⟩

/-- A world with both, and nothing else. -/
def parcelWorld : World Stub.Stage :=
  ((ProxyBuilder.build { contracts := [⟨3⟩] }
    (((parcelType.declare (ε := ProxyError)
      { client := { parts := #[.native [("size", .const (.int 1))]] } }).2.allocate
        ⟨3⟩ (.native ⟨0⟩)).2)).2)

theorem reachable_parcelWorld : World.Reachable Stub.client parcelWorld :=
  ⟨_, .step (.step (.step .refl (.declare parcelType))
    (.command (.newNative (τ := ProxyError) ⟨3⟩ ⟨0⟩))) (.newProxy _)⟩

/-- A proxy comes to the method that is called on objects, where an object of the client comes to
the one that is not. -/
theorem resolution_of_parcel_calls :
    World.Reachable Stub.client parcelWorld ∧
    (∀ serve, parcel.call serve "size" [] parcelWorld =
      (.error (.raised (.illegal (.receiverNotTaken ⟨⟨3⟩, 0⟩))), parcelWorld)) ∧
    parcelProxy.call (perform Stub.client 1) "size" [] parcelWorld =
      (.error (.raised (.unhandled ⟨⟨⟨3⟩, 1⟩, some parcelProxy, []⟩)), parcelWorld) ∧
    parcelProxy.Unknown "weight" [] parcelWorld ∧ parcel.Unknown "weight" [] parcelWorld := by
  have hReach : World.Reachable Stub.client parcelWorld := reachable_parcelWorld
  obtain ⟨made, ho, hClass⟩ : ∃ made, parcelWorld.object? parcelProxy = some (.proxy made {}) ∧
      parcelProxy.cls = made.cls := ⟨_, rfl, rfl⟩
  refine ⟨hReach, fun serve => ?_, ?_, ?_, ?_⟩
  · obtain ⟨-, hNative⟩ := resolution_of_calls hReach parcel "size" []
    obtain ⟨-, hFound⟩ := hNative ⟨0⟩ rfl
    exact (hFound ⟨⟨3⟩, 0⟩ (by decide +kernel)).2.2 (by decide +kernel) serve
  · obtain ⟨hProxy, -⟩ := resolution_of_calls hReach parcelProxy "size" []
    obtain ⟨-, hFound⟩ := hProxy made {} ho hClass
    obtain ⟨-, -, -, hCall⟩ := hFound ⟨⟨3⟩, 1⟩ (by decide +kernel)
    rw [hCall, ObjectRef.invoke_nullary (by decide +kernel) (by decide +kernel)
      (by decide +kernel), perform_ask ho]
    rfl
  · obtain ⟨hProxy, -⟩ := resolution_of_calls hReach parcelProxy "weight" []
    exact (hProxy made {} ho hClass).1.mpr (by decide +kernel)
  · obtain ⟨-, hNative⟩ := resolution_of_calls hReach parcel "weight" []
    exact (hNative ⟨0⟩ rfl).1.mpr (by decide +kernel)

/-- An object of the client has a method that can be called on it, and that it answers. Called by
its name it fails, since a method that is called on the class comes first. -/
theorem static_method_hides :
    World.Reachable Stub.client parcelWorld ∧
    parcelWorld.object? parcel = some (.native ⟨0⟩) ∧
    ⟨⟨3⟩, 1⟩ ∈ parcelWorld.hierarchy.allMethods parcel.cls ∧
    parcelWorld.hierarchy.isInstanceNamed "size" 0 ⟨⟨3⟩, 1⟩ = true ∧
    ((parcel.invoke (perform Stub.client 1) ⟨⟨3⟩, 1⟩ [] parcelWorld).1.toOption.bind Value.int? =
      some 1) ∧
    parcel.call (perform Stub.client 1) "size" [] parcelWorld =
      (.error (.raised (.illegal (.receiverNotTaken ⟨⟨3⟩, 0⟩))), parcelWorld) := by
  refine ⟨reachable_parcelWorld, rfl, by decide +kernel, by decide +kernel, by decide +kernel, ?_⟩
  have hFound : parcelWorld.resolveMethod? parcel "size" 0 = some ⟨⟨3⟩, 0⟩ := by decide +kernel
  rw [ObjectRef.call_of_resolved hFound]
  exact ObjectRef.invoke_of_ne (by decide +kernel) parcel []

end Metaobject
