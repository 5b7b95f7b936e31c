import Metaobject.Signature.Reader

/-!
What the reader of signatures does with written types. Characters that separate types are no
characters of names, so a written name is read to its end and no further. Behind a name the reader
still waits for more of it: what it holds is settled by the next character, whichever that is.
-/
namespace Metaobject

theorem bind_eq_ok_iff {ε α β : Type} {x : Except ε α} {f : α → Except ε β} {b : β} :
    (x >>= f) = .ok b ↔ ∃ a, x = .ok a ∧ f a = .ok b := by
  cases x with
  | error e => simp [bind, Except.bind]
  | ok a => simp [bind, Except.bind]

theorem mapError_eq_ok_iff {ε δ α : Type} {g : ε → δ} {x : Except ε α} {a : α} :
    x.mapError g = .ok a ↔ x = .ok a := by
  cases x with
  | error e => exact ⟨nofun, nofun⟩
  | ok b =>
      constructor
      · rintro ⟨⟩
        rfl
      · rintro ⟨⟩
        rfl

namespace Signature

/-- The classes that a signature mentions. -/
def classes (s : Signature) : List ClassId :=
  s.parameters.flatMap Ty.classes ++ s.result.classes

/-- Names that are read as a type of their own, whatever is registered under them. -/
def reservedNames : List String :=
  ["bool", "i8", "char", "i16", "i32", "i64", "f32", "f64", "()", "string", "any", "type"]

/-- One or more characters of names. -/
def IsIdentifier (name : String) : Prop :=
  name.toList ≠ [] ∧ ∀ c ∈ name.toList, isNameChar c = true

/-- A class that its own name leads to: it is registered under it, and the reader takes the name as
one that it has to look up. -/
structure Nameable (h : Hierarchy) (r : Registry) (c : ClassId) : Prop where
  found : r.lookup (h.className c) = some c
  identifier : IsIdentifier (h.className c)
  unreserved : h.className c ∉ reservedNames

/-- Code points of the characters that are blank. -/
private def blankCodes : List Nat :=
  [0x9, 0xA, 0xB, 0xC, 0xD, 0x20, 0x85, 0xA0, 0x1680, 0x2000, 0x2001, 0x2002, 0x2003, 0x2004,
   0x2005, 0x2006, 0x2007, 0x2008, 0x2009, 0x200A, 0x2028, 0x2029, 0x202F, 0x205F, 0x3000]

private theorem toNat_mem_blankCodes {c : Char} (h : Text.isBlank c = true) :
    c.toNat ∈ blankCodes := by
  simp only [Text.isBlank, Bool.or_eq_true, Bool.and_eq_true, decide_eq_true_eq, beq_iff_eq] at h
  simp only [blankCodes, List.mem_cons, List.not_mem_nil, or_false]
  omega

/-- No blank is a character of a name. -/
theorem isNameChar_of_isBlank {c : Char} (h : Text.isBlank c = true) : isNameChar c = false := by
  have hAll : ∀ n ∈ blankCodes, isNameChar (Char.ofNat n) = false := by decide +kernel
  have hc := hAll c.toNat (toNat_mem_blankCodes h)
  rwa [Char.ofNat_toNat] at hc

theorem isBlank_of_isNameChar {c : Char} (h : isNameChar c = true) : Text.isBlank c = false := by
  cases hb : Text.isBlank c with
  | false => rfl
  | true => rw [isNameChar_of_isBlank hb] at h; cases h

/-- Characters that stand between and around types. -/
def separators : List Char := ['(', ')', '[', ']', ',', '-', '>']

/-- No separator is a character of a name. -/
theorem isNameChar_of_mem_separators {c : Char} (hc : c ∈ separators) : isNameChar c = false := by
  have hAll : (separators.all fun c => !isNameChar c) = true := by decide +kernel
  simpa using List.all_eq_true.mp hAll c hc

theorem ne_of_isNameChar {c d : Char} (h : isNameChar c = true) (hd : d ∈ separators) : c ≠ d := by
  rintro rfl
  rw [isNameChar_of_mem_separators hd] at h
  cases h

section Names

variable {r : Registry} {name : String}

theorem ofName?_eq_none (h : name ∉ reservedNames) : Primitive.ofName? name = none := by
  simp only [reservedNames, List.mem_cons, List.not_mem_nil, or_false, not_or] at h
  simp [Primitive.ofName?, h]

/-- A name that is not reserved is looked up. -/
theorem resolve_of_unreserved (h : name ∉ reservedNames) :
    resolve r name = (r.lookup name).map .ofClass := by
  simp only [resolve, ofName?_eq_none h]
  simp only [reservedNames, List.mem_cons, List.not_mem_nil, or_false, not_or] at h
  simp [h]

/-- Only a name that is not reserved stands for a class, and then for the one registered. -/
theorem unreserved_of_resolve {c : ClassId} (h : resolve r name = some (.ofClass c)) :
    name ∉ reservedNames ∧ r.lookup name = some c := by
  by_cases hName : name ∈ reservedNames
  · simp only [reservedNames, List.mem_cons, List.not_mem_nil, or_false] at hName
    rcases hName with rfl | rfl | rfl | rfl | rfl | rfl | rfl | rfl | rfl | rfl | rfl | rfl <;>
      cases h
  · rw [resolve_of_unreserved hName, Option.map_eq_some_iff] at h
    obtain ⟨d, hd, hEq⟩ := h
    cases hEq
    exact ⟨hName, hd⟩

/-- The reader never makes an array out of a name. -/
theorem classes_of_resolve {t : Ty} (h : resolve r name = some t) :
    t.classes = [] ∨ ∃ c, t = .ofClass c := by
  cases t with
  | ofClass c => exact .inr ⟨c, rfl⟩
  | array t =>
      simp only [resolve] at h
      split at h
      · cases h
      · repeat' split at h
        all_goals simp at h
  | _ => exact .inl rfl

end Names

namespace Reader

variable {r : Registry}

/-- Characters lead the reader from one state to another. -/
def Reads (r : Registry) (s : State) (text : List Char) (t : State) : Prop :=
  text.foldlM (step r) s = .ok t

theorem Reads.nil (s : State) : Reads r s [] s := rfl

theorem Reads.cons {s t u : State} {c : Char} {text : List Char} (first : step r s c = .ok t)
    (rest : Reads r t text u) : Reads r s (c :: text) u := by
  rw [Reads, List.foldlM_cons, first]
  exact rest

theorem Reads.append {s t u : State} {left right : List Char} (first : Reads r s left t)
    (rest : Reads r t right u) : Reads r s (left ++ right) u := by
  rw [Reads, List.foldlM_append, show left.foldlM (step r) s = .ok t from first]
  exact rest

/-- Where the characters stand in a text matters only to errors. -/
theorem run_eq_ok_iff {s t : State} {offset : Nat} {text : List Char} :
    run r s offset text = .ok t ↔ Reads r s text t := by
  induction text generalizing s offset with
  | nil => simp [run, Reads, pure, Except.pure]
  | cons c text ih =>
      rw [run, Reads, List.foldlM_cons]
      cases hStep : step r s c with
      | ok u => exact ih
      | error fault => simp [bind, Except.bind]

/-- A type has been read to its end, or to where only a name can go on. -/
inductive Holds (r : Registry) (slot : Slot) (depth : Nat) (t : Ty) : State → Prop where
  | after : Holds r slot depth t (.after slot depth t)
  | name {read : List Char} (resolved : resolve r (String.ofList read) = some t) :
      Holds r slot depth t (.name slot depth read)

variable {slot : Slot} {depth : Nat} {t : Ty} {s : State}

/-- A character that no name holds finds the whole type. -/
theorem Holds.step_eq (hs : Holds r slot depth t s) {c : Char} (hc : isNameChar c = false) :
    step r s c = stepAfter slot depth t c := by
  cases hs with
  | after => rfl
  | name resolved => simp [step, hc, endName, resolved, Except.bind]

/-- So does the end of the text. -/
theorem Holds.finish_eq (hs : Holds r slot depth t s) : finish r s = finishAfter slot depth t := by
  cases hs with
  | after => rfl
  | name resolved => simp [finish, endName, resolved]

/-- The rest of a name is read with what there is of it. -/
theorem reads_name (read text : List Char) (h : ∀ c ∈ text, isNameChar c = true) :
    Reads r (.name slot depth read) text (.name slot depth (read ++ text)) := by
  induction text generalizing read with
  | nil => simpa using Reads.nil _
  | cons c text ih =>
      have hc : isNameChar c = true := h c (List.mem_cons_self ..)
      have hRest := ih (read ++ [c]) fun d hd => h d (List.mem_cons_of_mem _ hd)
      rw [List.append_assoc] at hRest
      exact Reads.cons (by simp [step, hc]) hRest

/-- A name is read where a type comes next. -/
theorem reads_identifier {name : String} (hName : IsIdentifier name)
    (hResolve : resolve r name = some t) :
    ∃ s, Reads r (.type slot depth) name.toList s ∧ Holds r slot depth t s := by
  obtain ⟨hNonempty, hChars⟩ := hName
  obtain ⟨c, text, hText⟩ := List.exists_cons_of_ne_nil hNonempty
  have hc : isNameChar c = true := hChars c (by rw [hText]; exact List.mem_cons_self ..)
  have hStep : step r (.type slot depth) c = .ok (.name slot depth [c]) := by
    have hOpen : c ≠ '(' := ne_of_isNameChar hc (by decide)
    have hBracket : c ≠ '[' := ne_of_isNameChar hc (by decide)
    simp [step, stepType, isBlank_of_isNameChar hc, hOpen, hBracket, hc]
  have hRest : Reads r (.name slot depth [c]) text (.name slot depth (c :: text)) :=
    reads_name [c] text fun d hd => hChars d (by rw [hText]; exact List.mem_cons_of_mem _ hd)
  refine ⟨.name slot depth (c :: text), ?_, .name ?_⟩
  · rw [hText]
    exact Reads.cons hStep hRest
  · rwa [← hText, String.ofList_toList]

theorem isIdentifier_of_mem {name : String} (h : name ∈ reservedNames) (hVoid : name ≠ "()") :
    IsIdentifier name := by
  have hAll : (reservedNames.all fun name =>
      name == "()" || (!name.toList.isEmpty && name.toList.all isNameChar)) = true := by
    decide +kernel
  have hName := List.all_eq_true.mp hAll name h
  rw [beq_eq_false_iff_ne.mpr hVoid, Bool.false_or, Bool.and_eq_true] at hName
  exact ⟨by simpa using hName.1, List.all_eq_true.mp hName.2⟩

/-- A written primitive type is read where a type comes next. -/
theorem reads_primitive (slot : Slot) (depth : Nat) (p : Primitive) :
    ∃ s, Reads r (.type slot depth) p.name.toList s ∧ Holds r slot depth (.primitive p) s := by
  by_cases hp : p = .void
  · subst hp
    exact ⟨.after slot depth .void, rfl, .after⟩
  · refine reads_identifier (isIdentifier_of_mem ?_ ?_) ?_
    · cases p <;> decide
    · cases p <;> first | decide | exact absurd rfl hp
    · simp [resolve, Primitive.ofName?_name]

/-- A reserved name other than that of the empty type is read where a type comes next. -/
theorem reads_reserved (name : String) (hName : name ∈ reservedNames) (hVoid : name ≠ "()")
    (hResolve : resolve r name = some t) :
    ∃ s, Reads r (.type slot depth) name.toList s ∧ Holds r slot depth t s :=
  reads_identifier (isIdentifier_of_mem hName hVoid) hResolve

/-- A written type is read where a type comes next, however many brackets are open around it. -/
theorem reads_tyText {h : Hierarchy} (slot : Slot) (depth : Nat) (t : Ty)
    (hClasses : ∀ c ∈ t.classes, Nameable h r c) :
    ∃ s, Reads r (.type slot depth) (h.tyText t).toList s ∧ Holds r slot depth t s := by
  induction t generalizing depth with
  | primitive p => exact reads_primitive slot depth p
  | string => exact reads_reserved "string" (by decide) (by decide) rfl
  | any => exact reads_reserved "any" (by decide) (by decide) rfl
  | token => exact reads_reserved "type" (by decide) (by decide) rfl
  | array t ih =>
      obtain ⟨s, hReads, hHolds⟩ := ih (depth + 1) hClasses
      have hClose : step r s ']' = .ok (.after slot depth (.array t)) := by
        rw [hHolds.step_eq (isNameChar_of_mem_separators (by decide))]
        rfl
      refine ⟨.after slot depth (.array t), ?_, .after⟩
      simp only [Hierarchy.tyText, String.toList_append]
      exact (Reads.cons rfl hReads).append (Reads.cons hClose (Reads.nil _))
  | ofClass c =>
      have hc : Nameable h r c := hClasses c (List.mem_singleton_self c)
      have hResolve : resolve r (h.className c) = some (.ofClass c) := by
        rw [resolve_of_unreserved hc.unreserved, hc.found]
        rfl
      exact reads_identifier hc.identifier hResolve

/-- The parameters that are left are read with the parenthesis behind them. -/
theorem reads_parameters {h : Hierarchy} (before rest : List Ty) (t : Ty)
    (hClasses : ∀ u ∈ t :: rest, ∀ c ∈ u.classes, Nameable h r c) :
    Reads r (.type (.parameter before) 0) ((h.parametersText (t :: rest)).toList ++ [')'])
      (.closed (before ++ t :: rest)) := by
  induction rest generalizing before t with
  | nil =>
      obtain ⟨s, hReads, hHolds⟩ :=
        reads_tyText (.parameter before) 0 t (hClasses t (List.mem_singleton_self t))
      have hClose : step r s ')' = .ok (.closed (before ++ [t])) := by
        rw [hHolds.step_eq (isNameChar_of_mem_separators (by decide))]
        rfl
      simp only [Hierarchy.parametersText, List.map_cons, List.map_nil,
        String.intercalate_singleton]
      exact hReads.append (Reads.cons hClose (Reads.nil _))
  | cons u rest ih =>
      obtain ⟨s, hReads, hHolds⟩ :=
        reads_tyText (.parameter before) 0 t (hClasses t (List.mem_cons_self ..))
      have hComma : step r s ',' = .ok (.type (.parameter (before ++ [t])) 0) := by
        rw [hHolds.step_eq (isNameChar_of_mem_separators (by decide))]
        rfl
      have hRest := ih (before ++ [t]) u fun v hv => hClasses v (List.mem_cons_of_mem _ hv)
      rw [List.append_assoc] at hRest
      simp only [Hierarchy.parametersText, List.map_cons, String.intercalate_cons_cons,
        String.toList_append, List.append_assoc]
      exact hReads.append (Reads.cons hComma (Reads.cons rfl hRest))

end Reader

end Signature

end Metaobject
