import Metaobject.Proofs.Reference.Captures

/-!
What a call of a reference has to bring. Of all that the method behind a reference takes, its
receiver first, the captured values fill the front, and a descriptor shows the types of the rest: as
a list, as a number that is worked out without the list, and one at a time. The three agree, also
where more has been captured than the method takes. A form that is decoded settles them by the class
and the signature that it names.
-/
namespace Metaobject

@[simp] theorem Hierarchy.length_parameterTypes {h : Hierarchy} {m : MethodRef} :
    (h.parameterTypes m).length = h.arity m :=
  List.length_map _

namespace Descriptor

/-- The types of what the method behind a reference takes, its receiver among them. -/
def inputTypes (h : Hierarchy) (d : Descriptor) : List Ty :=
  match d.kind with
  | .ofInstance | .bound _ => .ofClass d.member.owner :: h.parameterTypes d.member
  | .static | .constructor | .lambda _ => h.parameterTypes d.member

variable {h : Hierarchy} {d : Descriptor} {i : Nat} {t : Ty}

@[simp] theorem length_inputTypes : (d.inputTypes h).length = d.inputs h := by
  obtain ⟨kind, member, capturing⟩ := d
  cases kind <;> simp [inputTypes, inputs]

/-- Captured values fill the front of what the method takes. -/
theorem parameterTypes_eq_drop :
    d.parameterTypes h = (d.inputTypes h).drop d.captures.length := by
  obtain ⟨kind, member, capturing⟩ := d
  cases kind <;> rfl

theorem parameterCount_eq_sub : d.parameterCount h = d.inputs h - d.captures.length := by
  have hSum := d.captures_add_parameterCount (h := h)
  omega

theorem length_parameterTypes : (d.parameterTypes h).length = d.parameterCount h := by
  rw [parameterTypes_eq_drop, List.length_drop, length_inputTypes, parameterCount_eq_sub]

theorem parameterType_eq_ok_iff :
    d.parameterType h i = .ok t ↔ (d.parameterTypes h)[i]? = some t := by
  rw [parameterType]
  cases (d.parameterTypes h)[i]? <;> simp

theorem parameterType_of_lt (hi : i < d.parameterCount h) :
    ∃ t, (d.parameterTypes h)[i]? = some t ∧ d.parameterType h i = .ok t := by
  simp only [parameterType_eq_ok_iff, and_self]
  rw [← length_parameterTypes] at hi
  exact ⟨_, List.getElem?_eq_getElem hi⟩

theorem parameterType_of_le (hi : d.parameterCount h ≤ i) :
    d.parameterType h i = .error (.parameterOutOfRange i (d.parameterCount h)) := by
  have hNone : (d.parameterTypes h)[i]? = none :=
    List.getElem?_eq_none (Nat.le_trans (Nat.le_of_eq length_parameterTypes) hi)
  rw [parameterType, hNone]

theorem parameterTypes_of_other (hOwn : d.kind ≠ .ofInstance)
    (hWritten : ∀ captures, d.kind ≠ .lambda captures) :
    d.parameterTypes h = h.parameterTypes d.member := by
  obtain ⟨kind, member, capturing⟩ := d
  cases kind with
  | ofInstance => exact absurd rfl hOwn
  | lambda captures => exact absurd rfl (hWritten captures)
  | static | bound _ | constructor => rfl

end Descriptor

namespace ReferenceForm

/-- The types of what a call has to bring, told from a form and what its names mean. -/
def openTypes (f : ReferenceForm) (c : ClassId) (s : Signature) : List Ty :=
  match f.kind with
  | .static | .newInstance => s.parameters
  | .virtual | .interface => (.ofClass c :: s.parameters).drop f.captures.length
  | .special => s.parameters.drop f.captures.length

variable {h : Hierarchy} {r : Registry} {f : ReferenceForm} {c : ClassId} {s : Signature}
  {d : Descriptor}

theorem openTypes_of_own (hForm : f.kind = .virtual ∨ f.kind = .interface) :
    f.openTypes c s = (.ofClass c :: s.parameters).drop f.captures.length := by
  rcases hForm with hForm | hForm <;> rw [openTypes, hForm]

/-- What is told from the form is what the descriptor shows: a method that is called on objects is
decoded with no captured value or with its receiver alone. -/
theorem Called.parameterTypes_eq
    (hCalled : f.Called h r c d.member d.kind d.capturing) (hOwner : d.member.owner = c) :
    d.parameterTypes h = f.openTypes c (Signature.ofMethod h d.member) := by
  obtain ⟨kind, member, capturing⟩ := d
  cases hCalled with
  | static hForm | constructor hForm =>
      rw [openTypes, hForm]
      rfl
  | ofInstance hForm _ hNone =>
      rw [openTypes_of_own hForm, hNone, ← hOwner]
      rfl
  | bound hForm _ hOne =>
      rw [openTypes_of_own hForm, hOne]
      rfl
  | lambda hForm =>
      rw [openTypes, hForm]
      rfl

end ReferenceForm

open ReferenceForm

/-- What a call of a decoded reference has to bring, seen in three ways. The list of types is as
long as the number says. A place below the number has the type that the list has there; at any other
the error tells the place and the number. The list is that of the parameters of the method, with the
class that declares it in front if the receiver comes with the call, and without as many from the
front as a function written in place has captured, be they more than there are. The class and the
signature that the form names, with the number of its captured values, settle the list. -/
theorem parameters_of_decode {h : Hierarchy} {r : Registry} {f : ReferenceForm} {d : Descriptor}
    (hDecode : f.decode h r = .ok d) :
    (d.parameterTypes h).length = d.parameterCount h ∧
      (∀ i < d.parameterCount h,
        ∃ t, (d.parameterTypes h)[i]? = some t ∧ d.parameterType h i = .ok t) ∧
      (∀ i, d.parameterCount h ≤ i →
        d.parameterType h i = .error (.parameterOutOfRange i (d.parameterCount h))) ∧
      (d.kind = .ofInstance →
        d.parameterTypes h = .ofClass d.member.owner :: h.parameterTypes d.member) ∧
      (∀ captures, d.kind = .lambda captures →
        d.parameterTypes h = (h.parameterTypes d.member).drop d.captures.length) ∧
      (d.kind ≠ .ofInstance → (∀ captures, d.kind ≠ .lambda captures) →
        d.parameterTypes h = h.parameterTypes d.member) ∧
      ∃ c s, r.lookup f.cls = some c ∧ Signature.parse r f.signature = .ok s ∧
        d.parameterTypes h = f.openTypes c s := by
  refine ⟨Descriptor.length_parameterTypes, fun i => Descriptor.parameterType_of_lt,
    fun i => Descriptor.parameterType_of_le, fun hKind => ?_, fun captures hKind => ?_,
    Descriptor.parameterTypes_of_other, ?_⟩
  · rw [Descriptor.parameterTypes, hKind]
  · rw [Descriptor.parameterTypes, Descriptor.captures, hKind]
  · obtain ⟨c, hTarget, hCallable⟩ := decode_eq_ok_iff.mp hDecode
    obtain ⟨hLookup, hDeclared, _, hParse⟩ := found_of_target hTarget
    have hOwner : d.member.owner = c := (Hierarchy.mem_declaredMethods.mp hDeclared).1
    exact ⟨c, _, hLookup, hParse, (called_of_callable hCallable).parameterTypes_eq hOwner⟩

/-- A reference to a method that is called on a point and takes an array of points. -/
def unbound : ReferenceForm :=
  ⟨"geo.Point", .virtual, "geo.Point", "moved", "([geo.Point]) -> any", []⟩

theorem decode_unbound : unbound.decode Signature.points pointRegistry =
    .ok ⟨.ofInstance, ⟨⟨3⟩, 0⟩, .ofClass ⟨3⟩⟩ :=
  decode_of_called ⟨3⟩ ⟨[.array (.ofClass ⟨3⟩)], .any⟩ (by decide +kernel) (by decide +kernel)
    (by decide +kernel) (.ofInstance (.inl rfl) (by decide +kernel) rfl)

/-- A call of the first has to bring a point and an array of points. A call of the function that has
captured more than its method takes has to bring nothing. -/
theorem parameters_of_points :
    (∃ d, unbound.decode Signature.points pointRegistry = .ok d ∧
      d.parameterTypes Signature.points = [.ofClass ⟨3⟩, .array (.ofClass ⟨3⟩)] ∧
      (∃ t, (d.parameterTypes Signature.points)[1]? = some t ∧
        d.parameterType Signature.points 1 = .ok t) ∧
      d.parameterType Signature.points 2 = .error (.parameterOutOfRange 2 2)) ∧
    ∃ d, overfull.decode Signature.points pointRegistry = .ok d ∧
      Signature.points.arity d.member < d.captures.length ∧
      d.parameterTypes Signature.points = [] ∧
      d.parameterType Signature.points 0 = .error (.parameterOutOfRange 0 0) := by
  obtain ⟨-, hWithin, hBeyond, hOwn, -⟩ := parameters_of_decode decode_unbound
  obtain ⟨-, -, hNone, -, hLambda, -⟩ := parameters_of_decode decode_overfull
  refine ⟨⟨_, decode_unbound, hOwn rfl, hWithin 1 (by decide +kernel), ?_⟩,
    _, decode_overfull, by decide +kernel, ?_, ?_⟩
  · exact hBeyond 2 (by decide +kernel)
  · exact hLambda _ rfl
  · exact hNone 0 (by decide +kernel)

end Metaobject
