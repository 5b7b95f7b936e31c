import Metaobject.Proofs.Reference.RoundTrip

/-!
The values that references bring along. A form that is decoded says how its method is called, in one
of five ways, and each way takes the captured values in its own. What a reference has captured and
what its calls still have to bring make up what its method takes, unless a function written in place
has captured more than that: it keeps all of it, and its calls bring nothing.
-/
namespace Metaobject

/-- How many values the method behind a reference takes, its receiver among them. -/
def Descriptor.inputs (h : Hierarchy) (d : Descriptor) : Nat :=
  match d.kind with
  | .ofInstance | .bound _ => h.arity d.member + 1
  | .static | .constructor | .lambda _ => h.arity d.member

namespace ReferenceForm

/-- The ways in which the method of a form is called, with the type that the reference was made
in. -/
inductive Called (h : Hierarchy) (r : Registry) (f : ReferenceForm) (c : ClassId) (m : MethodRef) :
    CallableKind → Ty → Prop where
  | static (hForm : f.kind = .static) (hKind : (h.method m).kind = .static)
      (hNone : f.captures = []) : Called h r f c m .static (.ofClass c)
  | ofInstance (hForm : f.kind = .virtual ∨ f.kind = .interface)
      (hKind : (h.method m).kind = .ofInstance) (hNone : f.captures = []) :
      Called h r f c m .ofInstance (.ofClass c)
  | bound {receiver : Value} (hForm : f.kind = .virtual ∨ f.kind = .interface)
      (hKind : (h.method m).kind = .ofInstance) (hOne : f.captures = [receiver])
      (hPresent : receiver.isNull = false) (hInstance : h.isInstance receiver (.ofClass c) = true) :
      Called h r f c m (.bound receiver) receiver.runtimeType
  | constructor (hForm : f.kind = .newInstance) (hKind : (h.method m).kind = .constructor) :
      Called h r f c m .constructor (.ofClass c)
  | lambda {capturing : ClassId} (hForm : f.kind = .special)
      (hFound : r.lookup f.capturingClass = some capturing) :
      Called h r f c m (.lambda f.captures) (.ofClass capturing)

variable {h : Hierarchy} {r : Registry} {f : ReferenceForm} {c : ClassId} {m : MethodRef}
  {k : CallableKind} {t : Ty}

theorem requireKind_eq_ok_iff {wanted : MethodKind} {u : Unit} :
    requireKind h m wanted = .ok u ↔ (h.method m).kind = wanted := by
  simp [requireKind]

theorem classNamed_eq_ok_iff {name : String} :
    classNamed r name = .ok c ↔ r.lookup name = some c := by
  rw [classNamed]
  cases r.lookup name <;> simp

/-- A receiver is taken if it is there and is one of the class. -/
theorem not_wrongReceiver_iff {receiver : Value} :
    ¬ (receiver.isNull || !h.isInstance receiver (.ofClass c)) = true ↔
      receiver.isNull = false ∧ h.isInstance receiver (.ofClass c) = true := by
  simp only [Bool.or_eq_true, Bool.not_eq_true', not_or, Bool.not_eq_true, Bool.not_eq_false]

theorem called_of_callable (hCallable : f.callable h r c m = .ok (k, t)) :
    f.Called h r c m k t := by
  unfold callable at hCallable
  split at hCallable
  case h_1 hForm =>
    obtain ⟨_, hKind, hRest⟩ := bind_eq_ok_iff.mp hCallable
    split_ifs at hRest with hNone
    cases hRest
    exact .static hForm (requireKind_eq_ok_iff.mp hKind) (List.isEmpty_iff.mp hNone)
  case h_2 hOwn | h_3 hOwn =>
    have hForm : f.kind = .virtual ∨ f.kind = .interface := by simp [hOwn]
    obtain ⟨_, hKind, hRest⟩ := bind_eq_ok_iff.mp hCallable
    split at hRest
    · next hNone =>
        cases hRest
        exact .ofInstance hForm (requireKind_eq_ok_iff.mp hKind) hNone
    · next receiver hOne =>
        split_ifs at hRest with hWrong
        cases hRest
        obtain ⟨hPresent, hInstance⟩ := not_wrongReceiver_iff.mp hWrong
        exact .bound hForm (requireKind_eq_ok_iff.mp hKind) hOne hPresent hInstance
    · cases hRest
  case h_4 hForm =>
    obtain ⟨_, hKind, hRest⟩ := bind_eq_ok_iff.mp hCallable
    cases hRest
    exact .constructor hForm (requireKind_eq_ok_iff.mp hKind)
  case h_5 hForm =>
    obtain ⟨capturing, hFound, hRest⟩ := bind_eq_ok_iff.mp hCallable
    cases hRest
    exact .lambda hForm (classNamed_eq_ok_iff.mp hFound)

theorem Called.callable_eq (hCalled : f.Called h r c m k t) : f.callable h r c m = .ok (k, t) := by
  cases hCalled with
  | static hForm hKind hNone =>
      simp [callable, hForm, requireKind_eq_ok hKind, hNone, bind, Except.bind]
  | ofInstance hForm hKind hNone =>
      rcases hForm with hForm | hForm <;>
        simp [callable, hForm, requireKind_eq_ok hKind, hNone, bind, Except.bind]
  | bound hForm hKind hOne hPresent hInstance =>
      rcases hForm with hForm | hForm <;>
        simp [callable, hForm, requireKind_eq_ok hKind, hOne, hPresent, hInstance, bind,
          Except.bind]
  | constructor hForm hKind =>
      simp [callable, hForm, requireKind_eq_ok hKind, bind, Except.bind]
  | lambda hForm hFound =>
      simp [callable, hForm, classNamed_eq_ok_iff.mpr hFound, bind, Except.bind]

theorem callable_eq_ok_iff : f.callable h r c m = .ok (k, t) ↔ f.Called h r c m k t :=
  ⟨called_of_callable, Called.callable_eq⟩

/-- A form is decoded once its names are found and its method can be called in some way. -/
theorem decode_of_called (c : ClassId) (s : Signature) (hClass : r.lookup f.cls = some c)
    (hSignature : Signature.parse r f.signature = .ok s)
    (hFirst : (h.declaredNamed c f.method).find? (s.isOf h) = some m)
    (hCalled : f.Called h r c m k t) : f.decode h r = .ok ⟨k, m, t⟩ :=
  decode_eq_ok_iff.mpr
    ⟨c, target_eq_ok_iff.mpr ⟨hClass, s, hSignature, hFirst⟩, hCalled.callable_eq⟩

/-- The captured values are kept, if there are none where an object is made. -/
theorem Called.captures_eq {d : Descriptor} (hCalled : f.Called h r c d.member d.kind d.capturing)
    (hNone : f.kind = .newInstance → f.captures = []) : d.captures = f.captures := by
  obtain ⟨kind, member, capturing⟩ := d
  cases hCalled with
  | static _ _ hEmpty | ofInstance _ _ hEmpty => exact hEmpty.symm
  | bound _ _ hOne _ _ => exact hOne.symm
  | constructor hForm _ => exact (hNone hForm).symm
  | lambda _ _ => rfl

end ReferenceForm

namespace Descriptor

variable {h : Hierarchy} {d : Descriptor}

/-- What a descriptor has captured and what its calls bring are what its method takes, or more if it
is a function written in place. -/
theorem captures_add_parameterCount :
    d.captures.length + d.parameterCount h = max (d.inputs h) d.captures.length := by
  obtain ⟨kind, member, capturing⟩ := d
  cases kind <;> simp [captures, parameterCount, inputs] <;> omega

theorem captures_length_le (hOther : ∀ captures, d.kind ≠ .lambda captures) :
    d.captures.length ≤ d.inputs h := by
  obtain ⟨kind, member, capturing⟩ := d
  cases kind with
  | lambda captures => exact absurd rfl (hOther captures)
  | _ => simp [captures, inputs]

end Descriptor

open ReferenceForm

/-- A form that is decoded keeps all its captured values; one that makes an object should have none.
What is captured and what calls bring make up what the method takes. Only a function written in
place can have captured more, and then its calls bring nothing. -/
theorem captures_of_decode {h : Hierarchy} {r : Registry} {f : ReferenceForm} {d : Descriptor}
    (hDecode : f.decode h r = .ok d) :
    ((f.kind = .newInstance → f.captures = []) → d.captures = f.captures) ∧
      ((∀ captures, d.kind ≠ .lambda captures) ∨ d.captures.length ≤ d.inputs h →
        d.captures.length + d.parameterCount h = d.inputs h) ∧
      ∀ captures, d.kind = .lambda captures → d.inputs h ≤ captures.length →
        d.parameterCount h = 0 := by
  obtain ⟨c, _, hCallable⟩ := decode_eq_ok_iff.mp hDecode
  have hSum := d.captures_add_parameterCount (h := h)
  refine ⟨(called_of_callable hCallable).captures_eq, fun hFits => ?_, ?_⟩
  · have hLess : d.captures.length ≤ d.inputs h := hFits.elim Descriptor.captures_length_le id
    rwa [Nat.max_eq_left hLess] at hSum
  · intro captures hKind hMany
    have hKept : d.captures = captures := by rw [Descriptor.captures, hKind]
    rw [hKept] at hSum
    omega

/-- A function written in place whose method takes an array of points, which it has captured. -/
def curried : ReferenceForm :=
  ⟨"geo.Point", .special, "geo.Point", "moved", "([geo.Point]) -> any", [.array (.ofClass ⟨3⟩) []]⟩

/-- A function written in place that has captured a value which its method does not take. -/
def overfull : ReferenceForm :=
  ⟨"geo.Point", .special, "geo.Point", "moved", "() -> geo.Point", [.int 1]⟩

/-- A reference to a constructor with a captured value. -/
def prepared : ReferenceForm :=
  ⟨"geo.Point", .newInstance, "geo.Point", "new", "(f64) -> geo.Point", [.double .zero]⟩

section Points

/-- The registry in which points have been registered. -/
abbrev pointRegistry : Registry := .register Signature.points .opening ⟨3⟩

theorem decode_curried : curried.decode Signature.points pointRegistry =
    .ok ⟨.lambda curried.captures, ⟨⟨3⟩, 0⟩, .ofClass ⟨3⟩⟩ :=
  decode_of_called ⟨3⟩ ⟨[.array (.ofClass ⟨3⟩)], .any⟩ (by decide +kernel) (by decide +kernel)
    (by decide +kernel) (.lambda rfl (by decide +kernel))

theorem decode_overfull : overfull.decode Signature.points pointRegistry =
    .ok ⟨.lambda overfull.captures, ⟨⟨3⟩, 2⟩, .ofClass ⟨3⟩⟩ :=
  decode_of_called ⟨3⟩ ⟨[], .ofClass ⟨3⟩⟩ (by decide +kernel) (by decide +kernel)
    (by decide +kernel) (.lambda rfl (by decide +kernel))

theorem decode_prepared : prepared.decode Signature.points pointRegistry =
    .ok ⟨.constructor, ⟨⟨3⟩, 1⟩, .ofClass ⟨3⟩⟩ :=
  decode_of_called ⟨3⟩ ⟨[.primitive .double], .ofClass ⟨3⟩⟩ (by decide +kernel)
    (by decide +kernel) (by decide +kernel) (.constructor rfl (by decide +kernel))

/-- An array that is captured is neither lost nor asked for again. -/
theorem captures_of_curried : ∃ d, curried.decode Signature.points pointRegistry = .ok d ∧
    d.captures = curried.captures ∧
      d.captures.length + d.parameterCount Signature.points = d.inputs Signature.points := by
  obtain ⟨hKept, hSum, _⟩ := captures_of_decode decode_curried
  exact ⟨_, decode_curried, hKept (by rintro ⟨⟩), hSum (.inr (by decide +kernel))⟩

/-- Not every form that is decoded accounts for its captured values: one has a value more than its
method takes, and one has a value that is lost. -/
theorem captures_unaccounted :
    (∃ d, overfull.decode Signature.points pointRegistry = .ok d ∧
      d.captures.length + d.parameterCount Signature.points ≠ d.inputs Signature.points) ∧
    ∃ d, prepared.decode Signature.points pointRegistry = .ok d ∧
      d.captures ≠ prepared.captures := by
  refine ⟨⟨_, decode_overfull, by decide +kernel⟩, _, decode_prepared, ?_⟩
  intro hSame
  cases hSame

end Points

end Metaobject
