import Metaobject.Proofs.Reference.Captures

/-!
Methods of one name and one signature in one class. A form asks for a method that is called in a
certain way, but it is the first of the methods with its name and signature that is taken, and only
then is it asked how this one is called. So a method that the form could have been made for is found
if it comes first, and is hidden by any method before it that is called in another way.
-/
namespace Metaobject

/-- The kind of method that the code behind a reference has to be. The code of a function written in
place may be any. -/
def ReferenceKind.wanted? : ReferenceKind → Option MethodKind
  | static => some .static
  | virtual | interface => some .ofInstance
  | newInstance => some .constructor
  | special => none

/-- The form fails on account of the values that it has captured. -/
def Unresolvable.OnCaptures : Unresolvable → Prop
  | staticCaptures .. | wrongReceiver .. | manyCaptures .. => True
  | _ => False

namespace ReferenceForm

/-- The methods of a class that have the name in a form, and a signature, as they are declared. -/
def namesakes (h : Hierarchy) (f : ReferenceForm) (c : ClassId) (s : Signature) : List MethodRef :=
  (h.declaredNamed c f.method).filter (s.isOf h)

/-- The captured values can be taken by a method of the kind that the form asks for: none by a
static method, and at the most a receiver by a method that is called on objects. -/
def CapturesFit (h : Hierarchy) (f : ReferenceForm) (c : ClassId) : Prop :=
  match f.kind with
  | .static => f.captures = []
  | .virtual | .interface => f.captures = [] ∨
      ∃ receiver, f.captures = [receiver] ∧ receiver.isNull = false ∧
        h.isInstance receiver (.ofClass c) = true
  | .newInstance | .special => True

variable {h : Hierarchy} {r : Registry} {f : ReferenceForm} {c : ClassId} {s : Signature}
  {m : MethodRef} {k : MethodKind}

theorem target_of_namesakes (hClass : r.lookup f.cls = some c)
    (hSignature : Signature.parse r f.signature = .ok s) :
    f.target h r =
      match f.namesakes h c s with
      | [] => .error (.noSuchMethod c f.method s)
      | m :: _ => .ok (c, m) := by
  have hFirst : (h.declaredNamed c f.method).find? (s.isOf h) = (f.namesakes h c s).head? :=
    List.head?_filter.symm
  simp only [target, classNamed, hClass, hSignature, hFirst, bind, Except.bind, Except.mapError]
  cases f.namesakes h c s <;> rfl

theorem callable_of_kind_ne (hKind : f.kind.wanted? = some k) (hm : (h.method m).kind ≠ k) :
    f.callable h r c m = .error (.wrongKind m k) := by
  have hRefused : requireKind h m k = .error (.wrongKind m k) := if_neg hm
  cases hForm : f.kind <;> rw [hForm] at hKind <;> cases hKind <;>
    simp [callable, hForm, hRefused, bind, Except.bind]

theorem callable_of_fit (hKind : f.kind.wanted? = some k) (hm : (h.method m).kind = k)
    (hFit : f.CapturesFit h c) : ∃ way t, f.callable h r c m = .ok (way, t) := by
  simp only [callable_eq_ok_iff]
  cases hForm : f.kind <;> rw [hForm] at hKind <;> cases hKind <;>
    simp only [CapturesFit, hForm] at hFit
  case static => exact ⟨_, _, .static hForm hm hFit⟩
  case newInstance => exact ⟨_, _, .constructor hForm hm⟩
  case virtual | interface =>
    have hOwn : f.kind = .virtual ∨ f.kind = .interface := by simp [hForm]
    rcases hFit with hNone | ⟨receiver, hOne, hPresent, hInstance⟩
    · exact ⟨_, _, .ofInstance hOwn hm hNone⟩
    · exact ⟨_, _, .bound hOwn hm hOne hPresent hInstance⟩

theorem callable_of_not_fit (hKind : f.kind.wanted? = some k) (hm : (h.method m).kind = k)
    (hFit : ¬ f.CapturesFit h c) :
    ∃ why, Unresolvable.OnCaptures why ∧ f.callable h r c m = .error why := by
  have hTaken : requireKind h m k = .ok () := requireKind_eq_ok hm
  cases hForm : f.kind <;> rw [hForm] at hKind <;> cases hKind <;>
    simp only [CapturesFit, hForm, not_true_eq_false] at hFit
  case static =>
    refine ⟨.staticCaptures m f.captures.length, trivial, ?_⟩
    simp [callable, hForm, hTaken, hFit, bind, Except.bind]
  case virtual | interface =>
    rcases hCaptures : f.captures with _ | ⟨receiver, _ | ⟨second, rest⟩⟩
    · exact absurd (.inl hCaptures) hFit
    · refine ⟨.wrongReceiver receiver c, trivial, ?_⟩
      have hWrong : (receiver.isNull || !h.isInstance receiver (.ofClass c)) = true := by
        by_contra hRight
        exact hFit (.inr ⟨receiver, hCaptures, not_wrongReceiver_iff.mp hRight⟩)
      simp [callable, hForm, hTaken, hCaptures, bind, Except.bind, hWrong]
    · refine ⟨.manyCaptures m f.captures.length, trivial, ?_⟩
      simp [callable, hForm, hTaken, hCaptures, bind, Except.bind]

theorem decode_of_target (hTarget : f.target h r = .ok (c, m)) :
    f.decode h r = (do
      let (way, t) ← f.callable h r c m
      return ⟨way, m, t⟩ : Except Unresolvable Descriptor).mapError .unresolvable := by
  rw [decode, hTarget]
  rfl

end ReferenceForm

open ReferenceForm

/-- What becomes of a form whose class is registered and whose signature can be read, if it asks for
methods of some kind. It fails for want of a method if the class declares none with the name and the
signature, and what it refers to, if anything, is one of these, of the kind that is asked for. Only
the first of them is taken. If it is of another kind the form fails on account of it, whatever
methods come after it; if it is of the kind that is asked for, it is the method that the form refers
to, as long as it can take the captured values. -/
theorem decode_of_namesakes {h : Hierarchy} {r : Registry} {f : ReferenceForm} {c : ClassId}
    {s : Signature} {k : MethodKind} (hClass : r.lookup f.cls = some c)
    (hSignature : Signature.parse r f.signature = .ok s) (hKind : f.kind.wanted? = some k) :
    (f.namesakes h c s = [] →
      f.decode h r = .error (.unresolvable (.noSuchMethod c f.method s))) ∧
    (∀ d, f.decode h r = .ok d →
      d.member ∈ f.namesakes h c s ∧ (h.method d.member).kind = k) ∧
    ∀ m later, f.namesakes h c s = m :: later →
      ((h.method m).kind ≠ k → f.decode h r = .error (.unresolvable (.wrongKind m k))) ∧
      ((h.method m).kind = k →
        (f.CapturesFit h c → ∃ d, f.decode h r = .ok d ∧ d.member = m) ∧
        (¬ f.CapturesFit h c →
          ∃ why, Unresolvable.OnCaptures why ∧ f.decode h r = .error (.unresolvable why))) := by
  have hTarget : f.target h r = _ := target_of_namesakes hClass hSignature
  refine ⟨fun hNone => ?_, fun d hDecode => ?_, fun m later hFirst => ?_⟩
  · rw [hNone] at hTarget
    rw [decode, hTarget]
    rfl
  · obtain ⟨d', hFound, hCallable⟩ := decode_eq_ok_iff.mp hDecode
    rw [hTarget] at hFound
    cases hNamesakes : f.namesakes h c s with
    | nil =>
        rw [hNamesakes] at hFound
        cases hFound
    | cons m later =>
        rw [hNamesakes] at hFound
        cases hFound
        refine ⟨List.mem_cons_self .., ?_⟩
        by_contra hOther
        rw [callable_of_kind_ne hKind hOther] at hCallable
        cases hCallable
  · rw [hFirst] at hTarget
    rw [decode_of_target hTarget]
    refine ⟨fun hOther => ?_, fun hSame => ⟨fun hFit => ?_, fun hFit => ?_⟩⟩
    · rw [callable_of_kind_ne hKind hOther]
      rfl
    · obtain ⟨way, t, hCallable⟩ := callable_of_fit hKind hSame hFit
      rw [hCallable]
      exact ⟨_, rfl, rfl⟩
    · obtain ⟨why, hWhy, hCallable⟩ := callable_of_not_fit (r := r) hKind hSame hFit
      rw [hCallable]
      exact ⟨why, hWhy, rfl⟩

/-- A class with two methods of one name and one signature, the first of them called on objects and
the second on the class. -/
def clocks : Hierarchy :=
  (Hierarchy.builtin.define (((ClassBuilder.empty .concrete "clock").method
    { name := "zone", result := .primitive .int }).method
      { name := "zone", kind := .static, result := .primitive .int })).1

/-- The registry in which the class has been registered. -/
abbrev clockRegistry : Registry := .register clocks .opening ⟨3⟩

/-- The form of a reference to one of the methods, made for methods of a kind. -/
def zoneForm (kind : ReferenceKind) : ReferenceForm :=
  ⟨"clock", kind, "clock", "zone", "() -> i32", []⟩

/-- Both methods have the name and the signature. A form for a method that is called on objects
refers to the first of them; a form for a method that makes an object fails. -/
theorem decode_of_zones :
    clockRegistry.lookup "clock" = some ⟨3⟩ ∧
      Signature.parse clockRegistry "() -> i32" = .ok ⟨[], .primitive .int⟩ ∧
      (∃ d, (zoneForm .virtual).decode clocks clockRegistry = .ok d ∧ d.member = ⟨⟨3⟩, 0⟩) ∧
      (zoneForm .newInstance).decode clocks clockRegistry =
        .error (.unresolvable (.wrongKind ⟨⟨3⟩, 0⟩ .constructor)) := by
  have hClass : clockRegistry.lookup "clock" = some ⟨3⟩ := by decide +kernel
  have hSignature : Signature.parse clockRegistry "() -> i32" = .ok ⟨[], .primitive .int⟩ := by
    decide +kernel
  have hBoth (kind : ReferenceKind) :
      (zoneForm kind).namesakes clocks ⟨3⟩ ⟨[], .primitive .int⟩ = [⟨⟨3⟩, 0⟩, ⟨⟨3⟩, 1⟩] := by
    show namesakes clocks (zoneForm .static) ⟨3⟩ _ = _
    decide +kernel
  refine ⟨hClass, hSignature, ?_, ?_⟩
  · obtain ⟨-, -, hFirst⟩ :=
      decode_of_namesakes (h := clocks) (f := zoneForm .virtual) hClass hSignature rfl
    exact ((hFirst _ _ (hBoth _)).2 (by decide +kernel)).1 (.inl rfl)
  · obtain ⟨-, -, hFirst⟩ :=
      decode_of_namesakes (h := clocks) (f := zoneForm .newInstance) hClass hSignature rfl
    exact (hFirst _ _ (hBoth _)).1 (by decide +kernel)

/-- The class declares a method that is called on the class, with the name and the signature in the
form of a reference to it. The form fails, since a method that is called on objects comes first. -/
theorem hidden_by_namesake :
    clockRegistry.lookup "clock" = some ⟨3⟩ ∧
      Signature.parse clockRegistry "() -> i32" = .ok ⟨[], .primitive .int⟩ ∧
      ⟨⟨3⟩, 1⟩ ∈ (zoneForm .static).namesakes clocks ⟨3⟩ ⟨[], .primitive .int⟩ ∧
      (zoneForm .static).kind.wanted? = some (clocks.method ⟨⟨3⟩, 1⟩).kind ∧
      (zoneForm .static).decode clocks clockRegistry =
        .error (.unresolvable (.wrongKind ⟨⟨3⟩, 0⟩ .static)) := by
  have hClass : clockRegistry.lookup "clock" = some ⟨3⟩ := by decide +kernel
  have hSignature : Signature.parse clockRegistry "() -> i32" = .ok ⟨[], .primitive .int⟩ := by
    decide +kernel
  refine ⟨hClass, hSignature, by decide +kernel, by decide +kernel, ?_⟩
  have hTarget : (zoneForm .static).target clocks clockRegistry = .ok (⟨3⟩, ⟨⟨3⟩, 0⟩) :=
    target_eq_ok_iff.mpr ⟨hClass, _, hSignature, by decide +kernel⟩
  rw [decode_of_target hTarget, callable_of_kind_ne (k := .static) rfl (by decide +kernel)]
  rfl

end Metaobject
