import Metaobject.Proofs.Signature.RoundTrip
import Metaobject.Reference.Descriptor

/-!
References by names, described and decoded. The form of a reference names the class, the method and
the signature; the method itself comes back as long as it is the first of its class with that name
and signature, and the classes can be found by their names.
-/
namespace Metaobject.ReferenceForm

/-- A declared method that its names lead to. -/
structure Recoverable (h : Hierarchy) (r : Registry) (m : MethodRef) : Prop where
  declared : m ∈ h.declaredMethods m.owner
  found : r.lookup (h.className m.owner) = some m.owner
  nameable : ∀ c ∈ (Signature.ofMethod h m).classes, Signature.Nameable h r c
  first : ∀ k ∈ h.declaredMethods m.owner, k.index < m.index →
    (h.method k).name = (h.method m).name → Signature.ofMethod h k ≠ Signature.ofMethod h m

variable {h : Hierarchy} {r : Registry}

/-- What a form names, as a search: a class by its name, a signature by its text, and then the first
method of the class with the name and the signature. -/
theorem target_eq_ok_iff {f : ReferenceForm} {c : ClassId} {m : MethodRef} :
    f.target h r = .ok (c, m) ↔
      r.lookup f.cls = some c ∧ ∃ s, Signature.parse r f.signature = .ok s ∧
        (h.declaredNamed c f.method).find? (s.isOf h) = some m := by
  simp only [target, bind_eq_ok_iff, mapError_eq_ok_iff]
  constructor
  · rintro ⟨d, hClass, s, hParse, hFind⟩
    rw [classNamed] at hClass
    split at hClass
    · next hLookup =>
        cases hClass
        split at hFind
        · next hSome =>
            cases hFind
            exact ⟨hLookup, s, hParse, hSome⟩
        · cases hFind
    · cases hClass
  · rintro ⟨hLookup, s, hParse, hFind⟩
    exact ⟨c, by rw [classNamed, hLookup], s, hParse, by rw [hFind]⟩

/-- Decoding finds the method and then asks how it is to be called. -/
theorem decode_eq_ok_iff {f : ReferenceForm} {d : Descriptor} :
    f.decode h r = .ok d ↔
      ∃ c, f.target h r = .ok (c, d.member) ∧
        f.callable h r c d.member = .ok (d.kind, d.capturing) := by
  obtain ⟨kind, member, capturing⟩ := d
  simp only [decode, mapError_eq_ok_iff, bind_eq_ok_iff]
  constructor
  · rintro ⟨⟨c, m⟩, hTarget, ⟨k, t⟩, hCallable, hEq⟩
    cases hEq
    exact ⟨c, hTarget, hCallable⟩
  · rintro ⟨c, hTarget, hCallable⟩
    exact ⟨(c, member), hTarget, (kind, capturing), hCallable, rfl⟩

/-- The methods of a class up to one of them, and the others. -/
theorem declaredMethods_eq_append {m : MethodRef} (hm : m ∈ h.declaredMethods m.owner) :
    ∃ before after, h.declaredMethods m.owner = before ++ m :: after ∧
      ∀ k ∈ before, k.index < m.index := by
  have hIndex := (Hierarchy.mem_declaredMethods.mp hm).2
  obtain ⟨rest, hRest⟩ := Nat.exists_eq_add_of_lt hIndex
  refine ⟨(List.range m.index).map (⟨m.owner, ·⟩),
    (List.range rest).map fun i => ⟨m.owner, m.index + (i + 1)⟩, ?_, ?_⟩
  · rw [Hierarchy.declaredMethods, hRest, Nat.add_assoc, List.range_add, List.map_append,
      List.range_succ_eq_map]
    simp [Function.comp_def]
  · intro k hk
    obtain ⟨i, hi, rfl⟩ := List.mem_map.mp hk
    exact List.mem_range.mp hi

theorem find?_declaredNamed {m : MethodRef} (hm : Recoverable h r m) :
    (h.declaredNamed m.owner (h.method m).name).find? ((Signature.ofMethod h m).isOf h) =
      some m := by
  obtain ⟨before, after, hSplit, hBefore⟩ := declaredMethods_eq_append hm.declared
  rw [Hierarchy.declaredNamed, List.find?_filter, List.find?_eq_some_iff_append]
  refine ⟨?_, before, after, hSplit, ?_⟩
  · simp [(Signature.isOf_iff h _ m).mpr rfl]
  · intro k hk
    have hMem : k ∈ h.declaredMethods m.owner := by
      rw [hSplit]
      exact List.mem_append_left _ hk
    simp only [Bool.not_eq_true', decide_eq_false_iff_not, not_and]
    intro hName hIs
    exact hm.first k hMem (hBefore k hk) (eq_of_beq hName) ((Signature.isOf_iff h _ k).mp hIs)

/-- A form that names a method by its class, its name and its signature names that method. -/
theorem target_eq_of_recoverable {f : ReferenceForm} {m : MethodRef} (hm : Recoverable h r m)
    (hClass : f.cls = h.className m.owner) (hName : f.method = (h.method m).name)
    (hSignature : f.signature = (Signature.ofMethod h m).text h) :
    f.target h r = .ok (m.owner, m) := by
  rw [target_eq_ok_iff, hClass, hName, hSignature]
  exact ⟨hm.found, Signature.ofMethod h m, Signature.Reader.parse_written _ hm.nameable,
    find?_declaredNamed hm⟩

/-- The form that a method is described by names the method. -/
theorem decode_describe_of_callable {kind : ReferenceKind} {m : MethodRef} {c : ClassId}
    {captures : List Value} {k : CallableKind} {t : Ty} (hm : Recoverable h r m)
    (hCallable : (describe h kind m c captures).callable h r m.owner m = .ok (k, t)) :
    (describe h kind m c captures).decode h r = .ok ⟨k, m, t⟩ :=
  decode_eq_ok_iff.mpr ⟨m.owner, target_eq_of_recoverable hm rfl rfl rfl, hCallable⟩

theorem requireKind_eq_ok {m : MethodRef} {wanted : MethodKind}
    (hKind : (h.method m).kind = wanted) : requireKind h m wanted = .ok () :=
  if_pos hKind

/-- Methods of classes and of interfaces are called in the same way. -/
theorem callable_instanceKind {m : MethodRef} {c : ClassId} {captures : List Value} :
    (describe h (Reference.instanceKind h m) m c captures).callable h r m.owner m =
      (describe h .virtual m c captures).callable h r m.owner m := by
  rw [Reference.instanceKind]
  split <;> rfl

/-- What a form names is declared by the class, with the name and the signature in the form. -/
theorem found_of_target {f : ReferenceForm} {c : ClassId} {m : MethodRef}
    (hTarget : f.target h r = .ok (c, m)) :
    r.lookup f.cls = some c ∧ m ∈ h.declaredMethods c ∧ (h.method m).name = f.method ∧
      Signature.parse r f.signature = .ok (Signature.ofMethod h m) := by
  obtain ⟨hLookup, s, hParse, hFind⟩ := target_eq_ok_iff.mp hTarget
  obtain ⟨hDeclared, hNamed⟩ := List.mem_filter.mp (List.mem_of_find?_eq_some hFind)
  have hSignature : Signature.ofMethod h m = s :=
    (Signature.isOf_iff h s m).mp (List.find?_some hFind)
  exact ⟨hLookup, hDeclared, eq_of_beq hNamed, hSignature ▸ hParse⟩

/-- What was found under a name has that name, so naming it anew leads to it again. -/
theorem target_renamed (hr : Registry.Reached h r) {f : ReferenceForm} {c : ClassId} {m : MethodRef}
    (hTarget : f.target h r = .ok (c, m)) :
    target h r { f with
        cls := h.className m.owner
        method := (h.method m).name
        signature := (Signature.ofMethod h m).text h } = .ok (c, m) := by
  obtain ⟨-, s, hParse, hFind⟩ := target_eq_ok_iff.mp hTarget
  obtain ⟨hLookup, hDeclared, hName, hFound⟩ := found_of_target hTarget
  have hOwner : m.owner = c := (Hierarchy.mem_declaredMethods.mp hDeclared).1
  have hClass : h.className m.owner = f.cls := hOwner ▸ (hr.declared_className hLookup).2
  have hSignature : Signature.ofMethod h m = s := Except.ok.inj (hFound.symm.trans hParse)
  have hWritten := Signature.Reader.parse_written s (Signature.Reader.nameable_of_parse hr hParse)
  rw [target_eq_ok_iff, hClass, hName, hSignature]
  exact ⟨hLookup, s, hWritten, hFind⟩

end ReferenceForm

open ReferenceForm

/-- Every reference to a method that its names lead to is decoded to that very method, called in the
way that the reference was made for; and a form that is decoded is decoded alike when it names what
was found by its own names. -/
theorem introspect_reference {h : Hierarchy} {r : Registry} (hr : Registry.Reached h r) :
    (∀ {φ : Type} (m : MethodRef) (f : φ), Recoverable h r m →
      ((h.method m).kind = .static →
        (Reference.ofStatic h m f).introspect h r = .ok ⟨.static, m, .ofClass m.owner⟩) ∧
      ((h.method m).kind = .ofInstance →
        (Reference.ofInstance h m f).introspect h r = .ok ⟨.ofInstance, m, .ofClass m.owner⟩) ∧
      ((h.method m).kind = .ofInstance → ∀ receiver : Value, receiver.isNull = false →
        h.isInstance receiver (.ofClass m.owner) = true →
        (Reference.bound h m receiver f).introspect h r =
          .ok ⟨.bound receiver, m, receiver.runtimeType⟩) ∧
      ((h.method m).kind = .constructor →
        (Reference.ofConstructor h m f).introspect h r = .ok ⟨.constructor, m, .ofClass m.owner⟩) ∧
      ∀ (c : ClassId) (captures : List Value), r.lookup (h.className c) = some c →
        (Reference.lambda h c m captures f).introspect h r =
          .ok ⟨.lambda captures, m, .ofClass c⟩) ∧
    ∀ (f : ReferenceForm) (d : Descriptor), f.decode h r = .ok d →
      decode h r { f with
          cls := h.className d.member.owner
          method := (h.method d.member).name
          signature := (Signature.ofMethod h d.member).text h } = .ok d := by
  refine ⟨fun m f hm => ⟨fun hKind => ?_, fun hKind => ?_, fun hKind receiver hNull hInstance => ?_,
    fun hKind => ?_, fun c captures hFound => ?_⟩, fun f d hDecode => ?_⟩
  · apply decode_describe_of_callable hm
    simp [callable, describe, requireKind_eq_ok hKind]
    rfl
  · apply decode_describe_of_callable hm
    rw [callable_instanceKind]
    simp [callable, describe, requireKind_eq_ok hKind]
    rfl
  · apply decode_describe_of_callable hm
    rw [callable_instanceKind]
    simp [callable, describe, requireKind_eq_ok hKind, hNull, hInstance]
    rfl
  · apply decode_describe_of_callable hm
    simp [callable, describe, requireKind_eq_ok hKind]
    rfl
  · apply decode_describe_of_callable hm
    simp [callable, describe, classNamed, hFound]
    rfl
  · obtain ⟨c, hTarget, hCallable⟩ := decode_eq_ok_iff.mp hDecode
    exact decode_eq_ok_iff.mpr ⟨c, target_renamed hr hTarget, hCallable⟩

theorem recoverable_moved :
    Recoverable Signature.points (.register Signature.points .opening ⟨3⟩) ⟨⟨3⟩, 2⟩ where
  declared := by decide +kernel
  found := by decide +kernel
  nameable := by
    have hClasses : (Signature.ofMethod Signature.points ⟨⟨3⟩, 2⟩).classes = [⟨3⟩] := by
      decide +kernel
    rw [hClasses]
    intro c hc
    rw [List.mem_singleton.mp hc]
    exact Signature.nameable_point
  first := by decide +kernel

/-- The second of two methods of one name, bound to a point; and the same method named by a text
with blanks, which is decoded like the text without. -/
theorem introspect_reference_points :
    Recoverable Signature.points (.register Signature.points .opening ⟨3⟩) ⟨⟨3⟩, 2⟩ ∧
      (Reference.bound Signature.points ⟨⟨3⟩, 2⟩ (.object ⟨0, ⟨3⟩⟩) ()).introspect Signature.points
          (.register Signature.points .opening ⟨3⟩) =
        .ok ⟨.bound (.object ⟨0, ⟨3⟩⟩), ⟨⟨3⟩, 2⟩, .ofClass ⟨3⟩⟩ ∧
      decode Signature.points (.register Signature.points .opening ⟨3⟩)
          ⟨"", .interface, "geo.Point", "moved", " ( )-> geo.Point ", []⟩ =
        .ok ⟨.ofInstance, ⟨⟨3⟩, 2⟩, .ofClass ⟨3⟩⟩ ∧
      decode Signature.points (.register Signature.points .opening ⟨3⟩)
          ⟨"", .interface, "geo.Point", "moved", "() -> geo.Point", []⟩ =
        .ok ⟨.ofInstance, ⟨⟨3⟩, 2⟩, .ofClass ⟨3⟩⟩ := by
  have hAll := introspect_reference Signature.reached_points
  have hBound := (hAll.1 ⟨⟨3⟩, 2⟩ () recoverable_moved).2.2.1 rfl (.object ⟨0, ⟨3⟩⟩) rfl
    (by decide +kernel)
  have hBlanks : decode Signature.points (.register Signature.points .opening ⟨3⟩)
      ⟨"", .interface, "geo.Point", "moved", " ( )-> geo.Point ", []⟩ =
        .ok ⟨.ofInstance, ⟨⟨3⟩, 2⟩, .ofClass ⟨3⟩⟩ := by
    refine decode_eq_ok_iff.mpr ⟨⟨3⟩, target_eq_ok_iff.mpr ⟨by decide +kernel, ?_⟩, rfl⟩
    exact ⟨⟨[], .ofClass ⟨3⟩⟩, by decide +kernel, by decide +kernel⟩
  have hClass : Signature.points.className ⟨3⟩ = "geo.Point" := by decide +kernel
  have hName : (Signature.points.method ⟨⟨3⟩, 2⟩).name = "moved" := by decide +kernel
  have hText : (Signature.ofMethod Signature.points ⟨⟨3⟩, 2⟩).text Signature.points =
      "() -> geo.Point" := by
    decide +kernel
  have hPlain := hAll.2 _ _ hBlanks
  simp only [hClass, hName, hText] at hPlain
  exact ⟨recoverable_moved, hBound, hBlanks, hPlain⟩

end Metaobject
