import Metaobject.Proofs.Signature.Token

/-!
Errors of the reader of signatures. Where the reader stops at a character, nothing behind it matters
any more, and what is in front of it could still have become a signature. So could a text that ends
too early. A name is looked up when it has ended; as long as it may go on it may become another.
-/
namespace Metaobject

/-- The byte that an error points at. -/
def SignatureError.offset? : SignatureError → Option Nat
  | expected _ offset | trailingInput offset => some offset
  | unexpectedEnd | unknownType _ => none

namespace Signature

variable {r : Registry}

/-- A name that stands for no type is not reserved, and no class is registered under it. -/
theorem unknown_of_resolve {name : String} (hNone : resolve r name = none) :
    name ∉ reservedNames ∧ r.lookup name = none := by
  have hFree : name ∉ reservedNames := by
    intro hName
    simp only [reservedNames, List.mem_cons, List.not_mem_nil, or_false] at hName
    rcases hName with rfl | rfl | rfl | rfl | rfl | rfl | rfl | rfl | rfl | rfl | rfl | rfl <;>
      cases hNone
  rw [resolve_of_unreserved hFree, Option.map_eq_none_iff] at hNone
  exact ⟨hFree, hNone⟩

namespace Reader

variable {slot : Slot} {depth : Nat} {t : Ty} {s u : State} {c : Char} {fault : Fault}

/-- From here the reader can be led to the end of a signature. -/
def Completable (r : Registry) (s : State) : Prop :=
  ∃ text u signature, Reads r s text u ∧ finish r u = .ok signature

theorem Completable.cons (hStep : step r s c = .ok u) (hRest : Completable r u) :
    Completable r s := by
  obtain ⟨text, v, signature, hReads, hFinish⟩ := hRest
  exact ⟨c :: text, v, signature, .cons hStep hReads, hFinish⟩

/-- Whatever the shaft of an arrow stands behind, a result type may come next. -/
theorem completable_type_result (parameters : List Ty) :
    Completable r (.type (.result parameters) 0) :=
  ⟨['(', ')'], .after (.result parameters) 0 .void, ⟨parameters, .void⟩, rfl, rfl⟩

theorem completable_shaft (parameters : List Ty) : Completable r (.shaft parameters) :=
  (completable_type_result parameters).cons (c := '>') rfl

theorem completable_closed (parameters : List Ty) : Completable r (.closed parameters) :=
  (completable_shaft parameters).cons (c := '-') rfl

/-- Behind a whole type the brackets around it can be closed, one after another. -/
theorem Holds.completable (hs : Holds r slot depth t s) : Completable r s := by
  induction depth generalizing t s with
  | zero =>
      cases slot with
      | parameter before =>
          refine (completable_closed (before ++ [t])).cons (c := ')') ?_
          rw [hs.step_eq (isNameChar_of_mem_separators (by decide))]
          rfl
      | result parameters => exact ⟨[], s, ⟨parameters, t⟩, .nil s, hs.finish_eq⟩
  | succ depth ih =>
      refine Completable.cons (c := ']') ?_ (ih (t := .array t) .after)
      rw [hs.step_eq (isNameChar_of_mem_separators (by decide))]
      rfl

theorem completable_void (slot : Slot) (depth : Nat) : Completable r (.void slot depth) :=
  (Holds.after (t := .void)).completable.cons (c := ')') rfl

theorem completable_type (slot : Slot) (depth : Nat) : Completable r (.type slot depth) :=
  (completable_void slot depth).cons (c := '(') rfl

theorem completable_opened : Completable r .opened :=
  (completable_closed []).cons (c := ')') rfl

theorem completable_start : Completable r .start :=
  completable_opened.cons (c := '(') rfl

/-- Why the reader does not go on from a state. Either what it has read could have become a
signature, and is one if there is only too much text; or it is a name that stands for nothing. -/
inductive Stops (r : Registry) : State → Fault → Prop where
  | expected {s : State} (what : Expected) (hs : Completable r s) : Stops r s (.expected what)
  | trailing {s : State} {signature : Signature} (hs : finish r s = .ok signature) :
      Stops r s .trailing
  | unknown {slot : Slot} {depth : Nat} {read : List Char}
      (hNone : resolve r (String.ofList read) = none) :
      Stops r (.name slot depth read) (.unknownType (String.ofList read))

theorem Stops.of_stepType (hs : Completable r s) (hStep : stepType slot depth c = .error fault) :
    Stops r s fault := by
  rw [stepType] at hStep
  split_ifs at hStep
  cases hStep
  exact .expected _ hs

theorem Stops.of_stepAfter (hs : Holds r slot depth t s)
    (hStep : stepAfter slot depth t c = .error fault) : Stops r s fault := by
  unfold stepAfter at hStep
  split at hStep
  · cases hStep
  · split at hStep
    · split_ifs at hStep
      cases hStep
      exact .expected _ hs.completable
    · split_ifs at hStep
      cases hStep
      exact .expected _ hs.completable
    · cases hStep
      exact .trailing hs.finish_eq

/-- What a character that cannot follow says about what is in front of it. -/
theorem Stops.of_step (hStep : step r s c = .error fault) : Stops r s fault := by
  cases s with
  | start =>
      simp only [step] at hStep
      split_ifs at hStep
      cases hStep
      exact .expected _ completable_start
  | opened =>
      simp only [step] at hStep
      split_ifs at hStep
      exact .of_stepType completable_opened hStep
  | type slot depth =>
      simp only [step] at hStep
      split_ifs at hStep
      exact .of_stepType (completable_type slot depth) hStep
  | void slot depth =>
      simp only [step] at hStep
      split_ifs at hStep
      cases hStep
      exact .expected _ (completable_void slot depth)
  | name slot depth read =>
      simp only [step] at hStep
      split_ifs at hStep
      cases hResolve : resolve r (String.ofList read) with
      | none =>
          rw [endName, hResolve] at hStep
          cases hStep
          exact .unknown hResolve
      | some t =>
          rw [endName, hResolve] at hStep
          exact .of_stepAfter (.name hResolve) hStep
  | after slot depth t => exact .of_stepAfter .after hStep
  | closed parameters =>
      simp only [step] at hStep
      split_ifs at hStep
      cases hStep
      exact .expected _ (completable_closed parameters)
  | shaft parameters =>
      simp only [step] at hStep
      split_ifs at hStep
      cases hStep
      exact .expected _ (completable_shaft parameters)

/-- What an end that cannot be says about what is in front of it. -/
inductive Ends (r : Registry) : State → SignatureError → Prop where
  | early {s : State} (hs : Completable r s) : Ends r s .unexpectedEnd
  | unknown {slot : Slot} {depth : Nat} {read : List Char}
      (hNone : resolve r (String.ofList read) = none) :
      Ends r (.name slot depth read) (.unknownType (String.ofList read))

theorem Ends.of_finishAfter {e : SignatureError} (hs : Holds r slot depth t s)
    (hFinish : finishAfter slot depth t = .error e) : Ends r s e := by
  unfold finishAfter at hFinish
  split at hFinish
  · cases hFinish
  · cases hFinish
    exact .early hs.completable

theorem Ends.of_finish {e : SignatureError} (hFinish : finish r s = .error e) : Ends r s e := by
  have hEarly {s : State} (hs : Completable r s)
      (hEnd : (.error .unexpectedEnd : Except SignatureError Signature) = .error e) :
      Ends r s e := by
    cases hEnd
    exact .early hs
  cases s with
  | start => exact hEarly completable_start hFinish
  | opened => exact hEarly completable_opened hFinish
  | type slot depth => exact hEarly (completable_type slot depth) hFinish
  | void slot depth => exact hEarly (completable_void slot depth) hFinish
  | name slot depth read =>
      cases hResolve : resolve r (String.ofList read) with
      | none =>
          rw [finish, endName, hResolve] at hFinish
          cases hFinish
          exact .unknown hResolve
      | some t =>
          have hs : Holds r slot depth t (.name slot depth read) := .name hResolve
          exact .of_finishAfter hs (hs.finish_eq ▸ hFinish)
  | after slot depth t => exact .of_finishAfter .after hFinish
  | closed parameters => exact hEarly (completable_closed parameters) hFinish
  | shaft parameters => exact hEarly (completable_shaft parameters) hFinish

/-- What has been read ends with the name that may go on. -/
def State.Trails : State → List Char → Prop
  | .name _ _ read, text => (∃ before, text = before ++ read) ∧ IsIdentifier (String.ofList read)
  | _, _ => True

theorem isIdentifier_ofList {cs : List Char} :
    IsIdentifier (String.ofList cs) ↔ cs ≠ [] ∧ ∀ c ∈ cs, isNameChar c = true := by
  rw [IsIdentifier, String.toList_ofList]

/-- A character of a name begins one or goes on in one, and nothing else leads to a name. -/
theorem begins_or_goes_on {read : List Char} (hStep : step r s c = .ok (.name slot depth read)) :
    isNameChar c = true ∧
      (read = [c] ∨ ∃ before, s = .name slot depth before ∧ read = before ++ [c]) := by
  have hBegins {v : State} (hv : v.Rests) (hStep : step r v c = .ok (.name slot depth read)) :
      isNameChar c = true ∧ read = [c] := by
    cases moves_of_step hv hStep with
    | blank _ => exact hv.elim
    | sign _ _ hRests => exact hRests.elim
    | name hc _ => exact ⟨hc, rfl⟩
  cases s with
  | name slot depth before =>
      cases hc : isNameChar c with
      | true =>
          simp only [step, hc, if_true] at hStep
          cases hStep
          exact ⟨rfl, .inr ⟨before, rfl, rfl⟩⟩
      | false =>
          rw [step_eq_settle hc, bind_eq_ok_iff] at hStep
          obtain ⟨v, hSettle, hStep⟩ := hStep
          cases hc.symm.trans (hBegins (rests_of_settle hSettle) hStep).1
  | shaft parameters =>
      simp only [step] at hStep
      split_ifs at hStep
      cases hStep
  | _ =>
      obtain ⟨hc, hRead⟩ := hBegins (by trivial) hStep
      exact ⟨hc, .inl hRead⟩

theorem State.Trails.step {seen : List Char} (hs : s.Trails seen) (hStep : step r s c = .ok u) :
    u.Trails (seen ++ [c]) := by
  cases u with
  | name slot depth read =>
      obtain ⟨hc, rfl | ⟨before, rfl, rfl⟩⟩ := begins_or_goes_on hStep
      · refine ⟨⟨seen, rfl⟩, isIdentifier_ofList.mpr ⟨List.cons_ne_nil c [], ?_⟩⟩
        exact List.forall_mem_singleton.mpr hc
      · obtain ⟨⟨front, rfl⟩, hName⟩ := hs
        obtain ⟨_, hChars⟩ := isIdentifier_ofList.mp hName
        refine ⟨⟨front, List.append_assoc ..⟩, isIdentifier_ofList.mpr ⟨by simp, ?_⟩⟩
        exact List.forall_mem_append.mpr ⟨hChars, List.forall_mem_singleton.mpr hc⟩
  | _ => trivial

theorem State.Trails.reads {seen text : List Char} (hs : s.Trails seen)
    (hReads : Reads r s text u) : u.Trails (seen ++ text) := by
  induction text generalizing s seen with
  | nil =>
      cases hReads
      rwa [List.append_nil]
  | cons c text ih =>
      rw [Reads, List.foldlM_cons, bind_eq_ok_iff] at hReads
      obtain ⟨v, hStep, hRest⟩ := hReads
      rw [List.append_cons]
      exact ih (hs.step hStep) hRest

/-- The name that has been read last stands at the end of the text. -/
theorem name_of_reads {text : String} {read : List Char}
    (hReads : Reads r .start text.toList (.name slot depth read)) :
    IsIdentifier (String.ofList read) ∧ ∃ before, text = before ++ String.ofList read := by
  have hStart : State.start.Trails [] := trivial
  obtain ⟨⟨before, hBefore⟩, hName⟩ := hStart.reads hReads
  refine ⟨hName, String.ofList before, ?_⟩
  rw [← String.ofList_append, ← hBefore, List.nil_append, String.ofList_toList]

/-- A character that cannot follow ends the reading, whatever comes behind it. -/
theorem run_of_stop {before : List Char} (hReads : Reads r s before u)
    (hStep : step r u c = .error fault) (offset : Nat) (after : List Char) :
    run r s offset (before ++ c :: after) =
      .error (fault.at (offset + (String.ofList before).utf8ByteSize)) := by
  induction before generalizing s offset with
  | nil =>
      cases hReads
      rw [List.nil_append, run, hStep]
      rfl
  | cons d before ih =>
      rw [Reads, List.foldlM_cons, bind_eq_ok_iff] at hReads
      obtain ⟨v, hFirst, hRest⟩ := hReads
      have hSize : (String.ofList (d :: before)).utf8ByteSize =
          d.utf8Size + (String.ofList before).utf8ByteSize := by
        rw [String.ofList_cons, String.utf8ByteSize_append, String.utf8ByteSize_singleton]
      rw [List.cons_append, run, hFirst, hSize, ← Nat.add_assoc]
      exact ih hRest _

/-- Nothing else ends it before the text does. -/
theorem exists_stop_of_run {offset : Nat} {text : List Char} {e : SignatureError}
    (hRun : run r s offset text = .error e) :
    ∃ before c after v fault, text = before ++ c :: after ∧ Reads r s before v ∧
      step r v c = .error fault := by
  induction text generalizing s offset with
  | nil => cases hRun
  | cons c text ih =>
      rw [run] at hRun
      cases hStep : step r s c with
      | ok v =>
          rw [hStep] at hRun
          obtain ⟨before, d, after, w, fault, rfl, hReads, hStop⟩ := ih hRun
          exact ⟨c :: before, d, after, w, fault, rfl, .cons hStep hReads, hStop⟩
      | error fault => exact ⟨[], c, text, s, fault, rfl, .nil s, hStep⟩

theorem parse_of_reads {text : String} (hReads : Reads r .start text.toList s) :
    parse r text = finish r s := by
  rw [parse, run_eq_ok_iff.mpr hReads]
  rfl

theorem parse_of_stop {before : String} (hReads : Reads r .start before.toList s)
    (hStep : step r s c = .error fault) (after : String) :
    parse r (before ++ String.singleton c ++ after) = .error (fault.at before.utf8ByteSize) := by
  have hText : (before ++ String.singleton c ++ after).toList =
      before.toList ++ c :: after.toList := by simp
  rw [parse, hText, run_of_stop hReads hStep, Nat.zero_add, String.ofList_toList]
  rfl

/-- What could be led to the end of a signature is the beginning of one. -/
theorem Completable.exists_parse {text : String} (hs : Completable r s)
    (hReads : Reads r .start text.toList s) :
    ∃ more signature, parse r (text ++ more) = .ok signature := by
  obtain ⟨more, u, signature, hMore, hFinish⟩ := hs
  have hWhole : Reads r .start (text ++ String.ofList more).toList u := by
    rw [String.toList_append, String.toList_ofList]
    exact hReads.append hMore
  exact ⟨String.ofList more, signature, (parse_of_reads hWhole).trans hFinish⟩

/-- A text is no signature because of one of its characters or because of its end. -/
theorem stops_or_ends {text : String} {e : SignatureError} (hParse : parse r text = .error e) :
    (∃ before c after s fault, text = before ++ String.singleton c ++ after ∧
        Reads r .start before.toList s ∧ step r s c = .error fault ∧
        e = fault.at before.utf8ByteSize) ∨
      ∃ s, Reads r .start text.toList s ∧ Ends r s e := by
  cases hRun : run r .start 0 text.toList with
  | error e' =>
      obtain ⟨before, c, after, s, fault, hSplit, hReads, hStep⟩ := exists_stop_of_run hRun
      have hText : text = String.ofList before ++ String.singleton c ++ String.ofList after := by
        rw [← String.toList_inj, hSplit]
        simp
      have hFirst : Reads r .start (String.ofList before).toList s := by
        rwa [String.toList_ofList]
      have hStop := parse_of_stop hFirst hStep (String.ofList after)
      rw [← hText, hParse] at hStop
      exact .inl ⟨_, c, _, s, fault, hText, hFirst, hStep, Except.error.inj hStop⟩
  | ok s =>
      have hReads := run_eq_ok_iff.mp hRun
      exact .inr ⟨s, hReads, .of_finish ((parse_of_reads hReads).symm.trans hParse)⟩

end Reader

open Reader

variable {text : String}

/-- A text that ends too early can be gone on with. -/
theorem exists_parse_of_unexpectedEnd (hParse : parse r text = .error .unexpectedEnd) :
    ∃ more s, parse r (text ++ more) = .ok s := by
  rcases stops_or_ends hParse with ⟨_, _, _, _, fault, _, _, _, hFault⟩ | ⟨s, hReads, hEnds⟩
  · cases fault <;> cases hFault
  · cases hEnds with
    | early hs => exact hs.exists_parse hReads

/-- An error with a place is due to the character there: what is in front of it can still become a
signature, and with it nothing can. -/
theorem stop_of_offset? {e : SignatureError} {offset : Nat} (hParse : parse r text = .error e)
    (hOffset : e.offset? = some offset) :
    ∃ before c after, text = before ++ String.singleton c ++ after ∧
      before.utf8ByteSize = offset ∧
      (∃ more s, parse r (before ++ more) = .ok s) ∧
      (e = .trailingInput offset → ∃ s, parse r before = .ok s) ∧
      ∀ more, parse r (before ++ String.singleton c ++ more) = .error e := by
  rcases stops_or_ends hParse with
    ⟨before, c, after, s, fault, rfl, hReads, hStep, rfl⟩ | ⟨s, _, hEnds⟩
  · refine ⟨before, c, after, rfl, ?_⟩
    have hStop := parse_of_stop hReads hStep
    cases Stops.of_step hStep with
    | expected what hs =>
        cases hOffset
        exact ⟨rfl, hs.exists_parse hReads, nofun, hStop⟩
    | @trailing _ signature hs =>
        cases hOffset
        have hDone : parse r before = .ok signature := (parse_of_reads hReads).trans hs
        have hEmpty : parse r (before ++ "") = .ok signature := by rwa [String.append_empty]
        exact ⟨rfl, ⟨"", signature, hEmpty⟩, fun _ => ⟨signature, hDone⟩, hStop⟩
    | unknown _ => cases hOffset
  · cases hEnds <;> cases hOffset

/-- A name at the end of a text is another one if it goes on. -/
theorem parse_of_going_on {slot : Slot} {depth : Nat} {read : List Char}
    (hReads : Reads r .start text.toList (.name slot depth read)) :
    parse r (text ++ "_") ≠ .error (.unknownType (String.ofList read)) := by
  have hLonger : Reads r .start (text ++ "_").toList (.name slot depth (read ++ ['_'])) := by
    rw [String.toList_append]
    exact hReads.append (reads_name read ['_'] (by simp [isNameChar]))
  intro hParse
  have hEnds := Ends.of_finish ((parse_of_reads hLonger).symm.trans hParse)
  generalize hName : String.ofList read = name at hEnds
  cases hEnds with
  | unknown _ =>
      have hLength := congrArg (fun name => name.toList.length) hName
      simp at hLength

/-- A name that stands for nothing is settled as soon as there is something behind it. -/
theorem unknownType_of_parse {name : String} (hParse : parse r text = .error (.unknownType name)) :
    IsIdentifier name ∧ resolve r name = none ∧
      ∃ before after, text = before ++ name ++ after ∧
        (after ≠ "" ↔ ∀ more, parse r (text ++ more) = .error (.unknownType name)) := by
  rcases stops_or_ends hParse with
    ⟨before, c, after, s, fault, rfl, hReads, hStep, hFault⟩ | ⟨s, hReads, hEnds⟩
  · cases Stops.of_step hStep with
    | expected _ _ => cases hFault
    | trailing _ => cases hFault
    | unknown hNone =>
        cases hFault
        obtain ⟨hName, front, rfl⟩ := name_of_reads hReads
        refine ⟨hName, hNone, front, String.singleton c ++ after, String.append_assoc ..,
          fun _ more => ?_, fun _ => by simp⟩
        rw [String.append_assoc]
        exact parse_of_stop hReads hStep (after ++ more)
  · generalize hError : SignatureError.unknownType name = e at hEnds
    cases hEnds with
    | early _ => cases hError
    | unknown hNone =>
        cases hError
        obtain ⟨hName, front, hFront⟩ := name_of_reads hReads
        refine ⟨hName, hNone, front, "", by rwa [String.append_empty], fun hNot => absurd rfl hNot,
          fun hSame => ?_⟩
        exact absurd (hSame "_") (parse_of_going_on hReads)

/-- Where errors point. A text that ends too early is the beginning of a signature. An error with a
place is at a character of the text: what is in front of it is the beginning of a signature, or a
signature where there is only too much behind it, and no continuation changes the error. A name that
is not known is neither reserved nor registered; the error is the same for all continuations exactly
if the name has something behind it. -/
theorem errors_of_parse (r : Registry) (text : String) :
    (parse r text = .error .unexpectedEnd → ∃ more s, parse r (text ++ more) = .ok s) ∧
      (∀ e offset, parse r text = .error e → e.offset? = some offset →
        offset < text.utf8ByteSize ∧ String.Pos.Raw.IsValid text ⟨offset⟩ ∧
        (∀ more, parse r (text ++ more) = .error e) ∧
        ∃ before c after, text = before ++ String.singleton c ++ after ∧
          before.utf8ByteSize = offset ∧ (∃ more s, parse r (before ++ more) = .ok s) ∧
          (e = .trailingInput offset → ∃ s, parse r before = .ok s) ∧
          ∀ more, parse r (before ++ String.singleton c ++ more) = .error e) ∧
      ∀ name, parse r text = .error (.unknownType name) →
        IsIdentifier name ∧ name ∉ reservedNames ∧ r.lookup name = none ∧
        ∃ before after, text = before ++ name ++ after ∧
          (after ≠ "" ↔ ∀ more, parse r (text ++ more) = .error (.unknownType name)) := by
  refine ⟨exists_parse_of_unexpectedEnd, fun e offset hParse hOffset => ?_, fun name hParse => ?_⟩
  · obtain ⟨before, c, after, rfl, rfl, hCompletable, hTrailing, hStop⟩ :=
      stop_of_offset? hParse hOffset
    refine ⟨?_, ?_, fun more => ?_, before, c, after, rfl, rfl, hCompletable, hTrailing, hStop⟩
    · have hSize := c.utf8Size_pos
      rw [String.utf8ByteSize_append, String.utf8ByteSize_append, String.utf8ByteSize_singleton]
      omega
    · rw [String.append_assoc]
      exact String.Pos.Raw.isValid_iff_exists_append.mpr ⟨before, _, rfl, rfl⟩
    · rw [String.append_assoc]
      exact hStop (after ++ more)
  · obtain ⟨hName, hNone, hPlace⟩ := unknownType_of_parse hParse
    obtain ⟨hFree, hLookup⟩ := unknown_of_resolve hNone
    exact ⟨hName, hFree, hLookup, hPlace⟩

/-- A text that ends in brackets, one with a bracket that is missing, one that goes on behind its
end, and one with a name that stands for nothing. -/
theorem errors_of_fragments :
    parse .opening "([i32" = .error .unexpectedEnd ∧
      (∃ more s, parse .opening ("([i32" ++ more) = .ok s) ∧
      parse .opening "(\u3000[object, any]) -> ()" = .error (.expected .closeBracket 11) ∧
      (∀ more, parse .opening ("(\u3000[object, any]) -> ()" ++ more) =
        .error (.expected .closeBracket 11)) ∧
      parse .opening "() -> [any] [" = .error (.trailingInput 12) ∧
      (∃ before, before.utf8ByteSize = 12 ∧ ∃ s, parse .opening before = .ok s) ∧
      parse .opening "(Größe) -> ()" = .error (.unknownType "Größe") ∧
      IsIdentifier "Größe" ∧ "Größe" ∉ reservedNames ∧ Registry.opening.lookup "Größe" = none := by
  have hEarly : parse .opening "([i32" = .error .unexpectedEnd := by rfl
  have hBracket : parse .opening "(\u3000[object, any]) -> ()" =
      .error (.expected .closeBracket 11) := by rfl
  have hTrailing : parse .opening "() -> [any] [" = .error (.trailingInput 12) := by rfl
  have hUnknown : parse .opening "(Größe) -> ()" = .error (.unknownType "Größe") := by rfl
  obtain ⟨_, _, _, before, _, _, _, hSize, _, hBefore, _⟩ :=
    (errors_of_parse .opening "() -> [any] [").2.1 _ _ hTrailing rfl
  obtain ⟨hName, hFree, hNone, _⟩ := (errors_of_parse .opening "(Größe) -> ()").2.2 _ hUnknown
  exact ⟨hEarly, (errors_of_parse .opening _).1 hEarly, hBracket,
    ((errors_of_parse .opening _).2.1 _ _ hBracket rfl).2.2.1, hTrailing,
    ⟨before, hSize, hBefore rfl⟩, hUnknown, hName, hFree, hNone⟩

end Signature

end Metaobject
