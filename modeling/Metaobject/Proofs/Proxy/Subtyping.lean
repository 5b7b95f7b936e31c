import Metaobject.Proofs.Proxy.Classes

/-!
Subtyping as an order. Above a class are the root and all that the class reaches, and of two classes
at most one is above the other: supertypes come before their class, so that no way up leads back. A
test therefore ends: it never goes further up than there are classes before the one it starts from.
The class of a proxy has above it, besides itself and the root, what is above one of its interfaces.
-/
namespace Metaobject

section Lists

variable {α : Type} {as : List α}

/-- Asking in turn with answers that are all known. -/
theorem anyM_eq_some {f : α → Option Bool} {p : α → Bool} (hKnown : ∀ a ∈ as, f a = some (p a)) :
    as.anyM f = some (as.any p) := by
  induction as with
  | nil => rfl
  | cons a as ih =>
      rw [List.anyM, hKnown a (List.mem_cons_self ..), List.any_cons]
      cases p a with
      | true => rfl
      | false => exact ih fun b hb => hKnown b (List.mem_cons_of_mem a hb)

end Lists

namespace Hierarchy

/-- A subtype test that may go a bounded number of classes up, and gives up where it would have to
go further. The supertypes of a class are tested in turn, up to the first that is a subtype. -/
def testWithin (h : Hierarchy) (b : ClassId) : Nat → ClassId → Option Bool
  | 0, _ => none
  | depth + 1, a =>
    if a == b || b == .object then some true
    else (h.supertypes a).anyM (h.testWithin b depth)

variable {h : Hierarchy} {a b : ClassId}

/-- The test does not give up: every test inside it starts from an earlier class. -/
theorem testWithin_eq {depth : Nat} (hDepth : a.index < depth) :
    h.testWithin b depth a = some (h.isSubtype a b) := by
  induction depth generalizing a with
  | zero => exact absurd hDepth (Nat.not_lt_zero _)
  | succ depth ih =>
      have hAbove : (h.supertypes a).anyM (h.testWithin b depth) =
          some ((h.supertypes a).any (h.isSubtype · b)) := by
        apply anyM_eq_some
        intro s hs
        have hEarlier := h.index_lt_of_mem_supertypes hs
        exact ih (by omega)
      rw [testWithin, hAbove, isSubtype]
      cases a == b || b == .object <;> simp

end Hierarchy

/-- What is above a class made for proxies. -/
theorem ProxyClass.Implements.isSubtype_iff {h : Hierarchy} {contracts : List ClassId}
    {made : ProxyClass} (hMade : made.Implements h contracts) {k : ClassId} :
    h.isSubtype made.cls k = true ↔
      k = made.cls ∨ k = .object ∨ ∃ c ∈ contracts, h.isSubtype c k = true := by
  rw [Hierarchy.isSubtype_iff, hMade.supertypes, eq_comm]

variable {σ : Type}

/-- Subtyping is a partial order of the classes of a hierarchy with the root above all others. It
holds between a class and itself, the root, and all that the class reaches, and a test for it ends
after going up no further than the place of the class allows. An object of a class that was made for
a proxy is an instance of this class, of the root, and of what is above one of the interfaces, now
and at any later time. -/
theorem subtyping_of_classes (h : Hierarchy) (client : Client σ) :
    (∀ a b, h.isSubtype a b = true ↔ b = a ∨ b = .object ∨ h.Reaches a b) ∧
    (∀ a, h.isSubtype a a = true) ∧
    (∀ a b c, h.isSubtype a b = true → h.isSubtype b c = true → h.isSubtype a c = true) ∧
    (∀ a b, h.isSubtype a b = true → h.isSubtype b a = true → a = b) ∧
    (∀ a b depth, a.index < depth → h.testWithin b depth a = some (h.isSubtype a b)) ∧
    ∀ (b : ProxyBuilder) (u v w : World σ) (o : ObjectRef), World.Reachable client u →
      b.build u = (.ok o, v) → World.Leads client v w →
      ∀ k, w.hierarchy.isInstance (.object o) (.ofClass k) = true ↔
        k = o.cls ∨ k = .object ∨ ∃ c ∈ b.contracts, w.hierarchy.isSubtype c k = true := by
  refine ⟨fun a b => Hierarchy.isSubtype_iff_reaches, h.isSubtype_refl,
    fun a b c => Hierarchy.isSubtype_trans, fun a b => Hierarchy.isSubtype_antisymm,
    fun a b depth => Hierarchy.testWithin_eq, ?_⟩
  intro b u v w o hReach hBuild hLeads k
  obtain ⟨contracts, made, hCheck, hYields⟩ := ProxyBuilder.yields_of_build hReach.sound hBuild
  have hMade := hYields.implementing.mono (hLeads.growsTo hYields.sound).hierarchy
  have hSame {c : ClassId} : c ∈ contracts ↔ c ∈ b.contracts := by
    rw [ProxyBuilder.eq_eraseDups_of_checkContracts hCheck, List.mem_eraseDups]
  rw [Hierarchy.isInstance, hYields.cls, hMade.isSubtype_iff]
  simp only [hSame]

/-- Gates that have a latch. -/
def latchType : ClassBuilder :=
  (ClassBuilder.empty .interface "latch").extend ⟨3⟩

/-- A world in which gates have been declared, and then those that have a latch. -/
def latchWorld : World Stub.Stage :=
  (latchType.declare (ε := ProxyError) gateWorld).2

/-- The world after a proxy has been made of a gate with a latch. -/
def latchedWorld : World Stub.Stage :=
  ((ProxyBuilder.single ⟨4⟩ .decline).build latchWorld).2

/-- A gate that has a latch is a gate, and so is a proxy of one; neither is lazy. -/
theorem subtyping_of_latches :
    latchWorld.hierarchy.isSubtype ⟨4⟩ ⟨3⟩ = true ∧
    latchWorld.hierarchy.isSubtype ⟨3⟩ .object = true ∧
    latchWorld.hierarchy.isSubtype ⟨4⟩ .object = true ∧
    latchWorld.hierarchy.isSubtype ⟨3⟩ ⟨4⟩ = false ∧
    latchWorld.hierarchy.testWithin .lazyProxy 5 ⟨4⟩ = some false ∧
    World.Reachable Stub.client latchWorld ∧
    (ProxyBuilder.single ⟨4⟩ .decline).build latchWorld = (.ok ⟨0, ⟨5⟩⟩, latchedWorld) ∧
    latchedWorld.hierarchy.isInstance (.object ⟨0, ⟨5⟩⟩) (.ofClass ⟨3⟩) = true ∧
    latchedWorld.hierarchy.isInstance (.object ⟨0, ⟨5⟩⟩) (.ofClass .lazyProxy) = false := by
  have hReach : World.Reachable Stub.client latchWorld :=
    ⟨{}, .step (.step .refl (.declare gateType)) (.declare latchType)⟩
  have hBuild : (ProxyBuilder.single ⟨4⟩ .decline).build latchWorld =
      (.ok ⟨0, ⟨5⟩⟩, latchedWorld) := rfl
  obtain ⟨hReaches, -, hTrans, hAntisymm, hEnds, hProxy⟩ :=
    subtyping_of_classes latchWorld.hierarchy Stub.client
  have hGate : latchWorld.hierarchy.isSubtype ⟨4⟩ ⟨3⟩ = true :=
    (hReaches _ _).mpr (.inr (.inr (.single (by decide +kernel))))
  have hRoot : latchWorld.hierarchy.isSubtype ⟨3⟩ .object = true :=
    (hReaches _ _).mpr (.inr (.inl rfl))
  have hInstance := hProxy _ _ _ _ _ hReach hBuild .refl
  refine ⟨hGate, hRoot, hTrans _ _ _ hGate hRoot, ?_, ?_, hReach, hBuild, ?_, ?_⟩
  · rw [Bool.eq_false_iff]
    intro hBack
    cases hAntisymm _ _ hGate hBack
  · rw [hEnds _ _ _ (by decide)]
    decide +kernel
  · exact (hInstance ⟨3⟩).mpr (.inr (.inr ⟨⟨4⟩, List.mem_singleton_self _, by decide +kernel⟩))
  · rw [Bool.eq_false_iff, ne_eq, hInstance]
    decide +kernel

end Metaobject
