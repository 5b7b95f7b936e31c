import Metaobject.Invocation
import Metaobject.Proofs.Hierarchy.Conversion

/-!
Well-formed invocations. What makes an invocation well formed is exactly what is checked when one is
made, and when its receiver, its arguments or its method are replaced by others.
-/
namespace Metaobject

namespace Invocation

/-- A method takes a receiver: an object of its class if it is an instance method, and otherwise
none. -/
def Receives (h : Hierarchy) (m : MethodRef) (receiver? : Option ObjectRef) : Prop :=
  ((h.method m).kind = .ofInstance ∧ ∃ o, receiver? = some o ∧ h.isSubtype o.cls m.owner = true) ∨
    ((h.method m).kind ≠ .ofInstance ∧ receiver? = none)

/-- An invocation whose method takes the receiver, with as many arguments as parameters, each of
which may stand in its own. -/
structure WellFormed (h : Hierarchy) (i : Invocation) : Prop where
  receiver : Receives h i.method i.receiver?
  count : i.arguments.length = h.arity i.method
  types : ∀ slot ∈ (h.method i.method).parameters.zip i.arguments,
    h.isInstance slot.2 slot.1.type = true

/-- The outcome of a check: the invocation if it is well formed, and otherwise a cause of
illegality. -/
def Decides (h : Hierarchy) (i : Invocation) (r : Except IllegalInvocation Invocation) : Prop :=
  (i.WellFormed h ∧ r = .ok i) ∨ (¬ i.WellFormed h ∧ ∃ why, r = .error why)

variable {h k : Hierarchy} {m : MethodRef} {receiver? : Option ObjectRef} {arguments : List Value}
  {i j : Invocation} {r : Except IllegalInvocation Invocation}

theorem Decides.wellFormed_of_ok (hDecides : Decides h i r) (hOk : r = .ok j) :
    j = i ∧ j.WellFormed h := by
  rcases hDecides with ⟨hFormed, hResult⟩ | ⟨_, why, hResult⟩
  · cases hResult.symm.trans hOk
    exact ⟨rfl, hFormed⟩
  · cases hResult.symm.trans hOk

theorem checkReceiver_eq_ok_iff :
    checkReceiver h m receiver? = .ok () ↔ Receives h m receiver? := by
  rw [checkReceiver.eq_def, Receives]
  cases hKind : (h.method m).kind <;> cases receiver? <;> simp

theorem checkTypes_eq_ok_iff {ps : List Parameter} {vs : List Value} :
    checkTypes h m ps vs = .ok () ↔
      ∀ slot ∈ ps.zip vs, h.isInstance slot.2 slot.1.type = true := by
  induction ps generalizing vs with
  | nil => simp [checkTypes]
  | cons p ps ih =>
      cases vs with
      | nil => simp [checkTypes]
      | cons v vs =>
          rw [checkTypes, List.zip_cons_cons, List.forall_mem_cons]
          split
          · next hFits => simp [ih, hFits]
          · next hNot => simp [hNot]

theorem checkArguments_eq_ok_iff :
    checkArguments h m arguments = .ok () ↔ arguments.length = h.arity m ∧
      ∀ slot ∈ (h.method m).parameters.zip arguments, h.isInstance slot.2 slot.1.type = true := by
  rw [checkArguments]
  split
  · next hCount => rw [checkTypes_eq_ok_iff, and_iff_right hCount]
  · next hCount => simp [hCount]

/-- Making an invocation checks that it is well formed. -/
theorem decides_of (h : Hierarchy) (m : MethodRef) (receiver? : Option ObjectRef)
    (arguments : List Value) :
    Decides h ⟨m, receiver?, arguments⟩ (of h m receiver? arguments) := by
  have hReceiver : checkReceiver h m receiver? = .ok () ↔ _ := checkReceiver_eq_ok_iff
  have hArguments : checkArguments h m arguments = .ok () ↔ _ := checkArguments_eq_ok_iff
  rw [of]
  cases hFirst : checkReceiver h m receiver? with
  | error why =>
      refine .inr ⟨fun hFormed => ?_, why, rfl⟩
      cases hFirst.symm.trans (hReceiver.mpr hFormed.receiver)
  | ok _ =>
      cases hSecond : checkArguments h m arguments with
      | error why =>
          refine .inr ⟨fun hFormed => ?_, why, rfl⟩
          cases hSecond.symm.trans (hArguments.mpr ⟨hFormed.count, hFormed.types⟩)
      | ok _ =>
          obtain ⟨hCount, hTypes⟩ := hArguments.mp hSecond
          exact .inl ⟨⟨hReceiver.mp hFirst, hCount, hTypes⟩, rfl⟩

/-- Another receiver is checked on its own, which is enough for an invocation that is well
formed. -/
theorem WellFormed.decides_withReceiver (hFormed : i.WellFormed h) (o : ObjectRef) :
    Decides h { i with receiver? := some o } (i.withReceiver h o) := by
  have hReceiver : checkReceiver h i.method (some o) = .ok () ↔ _ := checkReceiver_eq_ok_iff
  rw [withReceiver]
  cases hCheck : checkReceiver h i.method (some o) with
  | error why =>
      refine .inr ⟨fun hOther => ?_, why, rfl⟩
      cases hCheck.symm.trans (hReceiver.mpr hOther.receiver)
  | ok _ => exact .inl ⟨⟨hReceiver.mp hCheck, hFormed.count, hFormed.types⟩, rfl⟩

theorem decides_withArguments (h : Hierarchy) (i : Invocation) (arguments : List Value) :
    Decides h { i with arguments } (i.withArguments h arguments) :=
  decides_of h i.method i.receiver? arguments

theorem decides_withMethod (h : Hierarchy) (i : Invocation) (m : MethodRef) :
    Decides h { i with method := m } (i.withMethod h m) :=
  decides_of h m i.receiver? i.arguments

/-- An invocation of a declared method stays well formed as classes are declared. -/
theorem WellFormed.mono (hFormed : i.WellFormed h) (hk : h.GrowsTo k)
    (hDeclared : h.Declared i.method.owner) : i.WellFormed k where
  receiver := by
    rw [Receives, hk.method_eq hDeclared]
    rcases hFormed.receiver with ⟨hKind, o, ho, hSubtype⟩ | hNone
    · exact .inl ⟨hKind, o, ho, hk.isSubtype hSubtype⟩
    · exact .inr hNone
  count := by rw [hk.arity_eq hDeclared, hFormed.count]
  types := by
    intro slot hSlot
    rw [hk.method_eq hDeclared] at hSlot
    exact hk.isInstance _ _ (hFormed.types slot hSlot)

/-- A property that invocations have by the way they are made: by checks, and from others that have
it. -/
structure Inherited (h : Hierarchy) (P : Invocation → Prop) : Prop where
  of : ∀ m receiver? arguments i, of h m receiver? arguments = .ok i → P i
  withReceiver : ∀ i o j, P i → i.withReceiver h o = .ok j → P j
  withArguments : ∀ i arguments j, P i → i.withArguments h arguments = .ok j → P j
  withMethod : ∀ i m j, P i → i.withMethod h m = .ok j → P j

theorem inherited_wellFormed (h : Hierarchy) : Inherited h (WellFormed h) where
  of m receiver? arguments _ hMade :=
    ((decides_of h m receiver? arguments).wellFormed_of_ok hMade).2
  withReceiver _ o _ hFormed hMade := ((hFormed.decides_withReceiver o).wellFormed_of_ok hMade).2
  withArguments i arguments _ _ hMade :=
    ((decides_withArguments h i arguments).wellFormed_of_ok hMade).2
  withMethod i m _ _ hMade := ((decides_withMethod h i m).wellFormed_of_ok hMade).2

end Invocation

end Metaobject
