import Metaobject.Proofs.Registry
import Metaobject.Proofs.Signature.Reading

/-!
Writing signatures and reading them back. A signature whose classes can be found by their names is
read back as it was. A signature that has been read mentions no other classes, since the reader
makes a class only out of a name under which it is registered.
-/
namespace Metaobject.Signature

namespace Reader

variable {h : Hierarchy} {r : Registry}

/-- Behind the opening parenthesis a type is read as anywhere else. -/
theorem Reads.of_type {text : List Char} {s : State}
    (hReads : Reads r (.type (.parameter []) 0) text s) (hMoved : s ≠ .type (.parameter []) 0) :
    Reads r .opened text s := by
  induction text with
  | nil =>
      cases hReads
      exact absurd rfl hMoved
  | cons c text ih =>
      rw [Reads, List.foldlM_cons] at hReads ⊢
      by_cases hBlank : Text.isBlank c = true
      · simp only [step, hBlank, if_true] at hReads ⊢
        exact ih hReads
      · by_cases hClose : c = ')'
        · subst hClose
          have hRefused : step r (.type (.parameter []) 0) ')' = .error (.expected .type) := by
            have hName := isNameChar_of_mem_separators (c := ')') (by decide)
            simp [step, stepType, hBlank, hName]
          rw [hRefused] at hReads
          cases hReads
        · have hSame : step r .opened c = step r (.type (.parameter []) 0) c := by
            simp [step, hBlank, hClose]
          rw [hSame]
          exact hReads

/-- The written parameters are read behind the opening parenthesis. -/
theorem reads_opened (ts : List Ty) (hClasses : ∀ t ∈ ts, ∀ c ∈ t.classes, Nameable h r c) :
    Reads r .opened ((h.parametersText ts).toList ++ [')']) (.closed ts) := by
  cases ts with
  | nil => rfl
  | cons t ts =>
      refine Reads.of_type (reads_parameters [] ts t hClasses) ?_
      intro hEq
      cases hEq

/-- A written signature is read back. -/
theorem parse_written (s : Signature) (hClasses : ∀ c ∈ s.classes, Nameable h r c) :
    parse r (s.text h) = .ok s := by
  have hParameters : ∀ t ∈ s.parameters, ∀ c ∈ t.classes, Nameable h r c := fun t ht c hc =>
    hClasses c (List.mem_append_left _ (List.mem_flatMap.mpr ⟨t, ht, hc⟩))
  obtain ⟨last, hResult, hHolds⟩ := reads_tyText (.result s.parameters) 0 s.result
    fun c hc => hClasses c (List.mem_append_right _ hc)
  have hArrow : Reads r (.closed s.parameters) [' ', '-', '>', ' ']
      (.type (.result s.parameters) 0) := rfl
  have hReads : Reads r .start (s.text h).toList last := by
    have hWhole := ((reads_opened s.parameters hParameters).append hArrow).append hResult
    simpa [text] using Reads.cons (s := .start) (c := '(') rfl hWhole
  rw [parse, run_eq_ok_iff.mpr hReads]
  exact hHolds.finish_eq

/-- The types in front of the one that is being read. -/
def Slot.types : Slot → List Ty
  | .parameter before => before
  | .result parameters => parameters

/-- All classes that some types mention can be found by their names. -/
def AllNameable (h : Hierarchy) (r : Registry) (ts : List Ty) : Prop :=
  ∀ t ∈ ts, ∀ c ∈ t.classes, Nameable h r c

/-- What the reader holds is made of names that were found. -/
def State.Sound (h : Hierarchy) (r : Registry) : State → Prop
  | .start | .opened => True
  | .type slot _ | .void slot _ => AllNameable h r slot.types
  | .name slot _ read => AllNameable h r slot.types ∧ IsIdentifier (String.ofList read)
  | .after slot _ t => AllNameable h r slot.types ∧ ∀ c ∈ t.classes, Nameable h r c
  | .closed parameters | .shaft parameters => AllNameable h r parameters

theorem AllNameable.append {ts : List Ty} {t : Ty} (hts : AllNameable h r ts)
    (ht : ∀ c ∈ t.classes, Nameable h r c) : AllNameable h r (ts ++ [t]) := by
  intro u hu
  rcases List.mem_append.mp hu with hOld | hNew
  · exact hts u hOld
  · rw [List.mem_singleton.mp hNew]
    exact ht

/-- A name that has ended stands for a type whose class has that name. -/
theorem nameable_of_endName (hr : Registry.Reached h r) {read : List Char} {t : Ty}
    (hRead : IsIdentifier (String.ofList read)) (hEnd : endName r read = .ok t) :
    ∀ c ∈ t.classes, Nameable h r c := by
  have hResolve : resolve r (String.ofList read) = some t := by
    rw [endName] at hEnd
    split at hEnd
    · next hSome =>
        cases hEnd
        exact hSome
    · cases hEnd
  intro c hc
  rcases classes_of_resolve hResolve with hNone | ⟨d, rfl⟩
  · rw [hNone] at hc
    cases hc
  · cases List.mem_singleton.mp hc
    obtain ⟨hUnreserved, hLookup⟩ := unreserved_of_resolve hResolve
    have hName := (hr.declared_className hLookup).2
    rw [← hName] at hLookup hRead hUnreserved
    exact ⟨hLookup, hRead, hUnreserved⟩

theorem sound_of_stepType {slot : Slot} {depth : Nat} {c : Char} {s : State}
    (hSlot : AllNameable h r slot.types) (hStep : stepType slot depth c = .ok s) :
    s.Sound h r := by
  rw [stepType] at hStep
  split at hStep
  · cases hStep
    exact hSlot
  · split at hStep
    · cases hStep
      exact hSlot
    · split at hStep
      · next hc =>
          cases hStep
          refine ⟨hSlot, ?_, ?_⟩
          · simp
          · simpa using hc
      · cases hStep

theorem sound_of_stepAfter {slot : Slot} {depth : Nat} {t : Ty} {c : Char} {s : State}
    (hSlot : AllNameable h r slot.types) (ht : ∀ c ∈ t.classes, Nameable h r c)
    (hStep : stepAfter slot depth t c = .ok s) : s.Sound h r := by
  unfold stepAfter at hStep
  split at hStep
  · cases hStep
    exact ⟨hSlot, ht⟩
  · split at hStep
    · split at hStep
      · cases hStep
        exact ⟨hSlot, ht⟩
      · cases hStep
    · split at hStep
      · cases hStep
        exact hSlot.append ht
      · split at hStep
        · cases hStep
          exact hSlot.append ht
        · cases hStep
    · cases hStep

/-- One more character keeps it so. -/
theorem sound_of_step (hr : Registry.Reached h r) {s t : State} {c : Char} (hs : s.Sound h r)
    (hStep : step r s c = .ok t) : t.Sound h r := by
  cases s with
  | start =>
      simp only [step] at hStep
      split_ifs at hStep <;> cases hStep <;> trivial
  | opened =>
      simp only [step] at hStep
      split_ifs at hStep
      · cases hStep
        trivial
      · cases hStep
        exact fun t ht => absurd ht List.not_mem_nil
      · exact sound_of_stepType (fun t ht => absurd ht List.not_mem_nil) hStep
  | type slot depth =>
      simp only [step] at hStep
      split_ifs at hStep
      · cases hStep
        exact hs
      · exact sound_of_stepType hs hStep
  | void slot depth =>
      simp only [step] at hStep
      split_ifs at hStep
      · cases hStep
        exact hs
      · cases hStep
        exact ⟨hs, fun c hc => absurd hc List.not_mem_nil⟩
  | name slot depth read =>
      obtain ⟨hSlot, hNonempty, hChars⟩ := hs
      simp only [step] at hStep
      split_ifs at hStep with hc
      · cases hStep
        refine ⟨hSlot, by simp, ?_⟩
        intro d hd
        rw [String.toList_ofList, List.mem_append] at hd
        rcases hd with hOld | hNew
        · exact hChars d (by rwa [String.toList_ofList])
        · rw [List.mem_singleton.mp hNew]
          exact hc
      · cases hEnd : endName r read with
        | error fault =>
            rw [hEnd] at hStep
            cases hStep
        | ok u =>
            rw [hEnd] at hStep
            exact sound_of_stepAfter hSlot (nameable_of_endName hr ⟨hNonempty, hChars⟩ hEnd) hStep
  | after slot depth u => exact sound_of_stepAfter hs.1 hs.2 hStep
  | closed parameters =>
      simp only [step] at hStep
      split_ifs at hStep <;> cases hStep <;> exact hs
  | shaft parameters =>
      simp only [step] at hStep
      split_ifs at hStep
      cases hStep
      exact hs

/-- So does a whole text. -/
theorem sound_of_reads (hr : Registry.Reached h r) {s t : State} {text : List Char}
    (hs : s.Sound h r) (hReads : Reads r s text t) : t.Sound h r := by
  induction text generalizing s with
  | nil =>
      cases hReads
      exact hs
  | cons c text ih =>
      rw [Reads, List.foldlM_cons] at hReads
      cases hStep : step r s c with
      | error fault =>
          rw [hStep] at hReads
          cases hReads
      | ok u =>
          rw [hStep] at hReads
          exact ih (sound_of_step hr hs hStep) hReads

theorem nameable_of_finishAfter {slot : Slot} {depth : Nat} {t : Ty} {s : Signature}
    (hSlot : AllNameable h r slot.types) (ht : ∀ c ∈ t.classes, Nameable h r c)
    (hFinish : finishAfter slot depth t = .ok s) : ∀ c ∈ s.classes, Nameable h r c := by
  unfold finishAfter at hFinish
  split at hFinish
  · cases hFinish
    intro c hc
    rcases List.mem_append.mp hc with hParameter | hResult
    · obtain ⟨u, hu, hcu⟩ := List.mem_flatMap.mp hParameter
      exact hSlot u hu c hcu
    · exact ht c hResult
  · cases hFinish

/-- A signature that has been read mentions only classes that can be found by their names. -/
theorem nameable_of_parse (hr : Registry.Reached h r) {text : String} {s : Signature}
    (hParse : parse r text = .ok s) : ∀ c ∈ s.classes, Nameable h r c := by
  rw [parse] at hParse
  cases hRun : run r .start 0 text.toList with
  | error e =>
      rw [hRun] at hParse
      cases hParse
  | ok last =>
      rw [hRun] at hParse
      have hStart : State.start.Sound h r := trivial
      have hSound : last.Sound h r := sound_of_reads hr hStart (run_eq_ok_iff.mp hRun)
      cases last with
      | name slot depth read =>
          simp only [Except.bind, finish] at hParse
          split at hParse
          · next hEnd =>
              have hType := nameable_of_endName hr hSound.2 hEnd
              exact nameable_of_finishAfter hSound.1 hType hParse
          · cases hParse
      | after slot depth t => exact nameable_of_finishAfter hSound.1 hSound.2 hParse
      | _ => cases hParse

end Reader

/-- Reading gives back every signature that was written, as long as its classes are found under
names that can be read; and it gives back whatever it has once given. -/
theorem parse_text {h : Hierarchy} {r : Registry} (hr : Registry.Reached h r) :
    (∀ s : Signature, (∀ c ∈ s.classes, Nameable h r c) → parse r (s.text h) = .ok s) ∧
      ∀ (text : String) (s : Signature), parse r text = .ok s → parse r (s.text h) = .ok s :=
  ⟨Reader.parse_written, fun _ s hParse =>
    Reader.parse_written s (Reader.nameable_of_parse hr hParse)⟩

/-- A hierarchy with a class of points: one may be moved, by others or not at all, and made. -/
def points : Hierarchy :=
  (Hierarchy.builtin.define
    { name := "geo.Point", kind := .concrete
      methods :=
        [{ name := "moved", parameters := [⟨"by", .array (.ofClass ⟨3⟩)⟩], result := .any },
         { name := "new", kind := .constructor, parameters := [⟨"x", .primitive .double⟩] },
         { name := "moved", result := .ofClass ⟨3⟩ }] }).1

theorem reached_points : Registry.Reached points (.register points .opening ⟨3⟩) :=
  .register (.define _ (.opening .builtin)) (by decide)

theorem nameable_point : Nameable points (.register points .opening ⟨3⟩) ⟨3⟩ where
  found := by decide +kernel
  identifier := by
    have hChars : ("geo.Point").toList.all isNameChar = true := by decide +kernel
    exact ⟨by decide +kernel, List.all_eq_true.mp hChars⟩
  unreserved := by decide +kernel

/-- A signature with the class of points in nested arrays, an empty type and a result. -/
theorem parse_text_points :
    Registry.Reached points (.register points .opening ⟨3⟩) ∧
      parse (.register points .opening ⟨3⟩)
          (text points ⟨[.array (.array (.ofClass ⟨3⟩)), .void], .ofClass ⟨3⟩⟩) =
        .ok ⟨[.array (.array (.ofClass ⟨3⟩)), .void], .ofClass ⟨3⟩⟩ := by
  refine ⟨reached_points, (parse_text reached_points).1 _ ?_⟩
  intro c hc
  have hPoint : c = ⟨3⟩ := by simpa [classes, Ty.classes] using hc
  rw [hPoint]
  exact nameable_point

end Metaobject.Signature
