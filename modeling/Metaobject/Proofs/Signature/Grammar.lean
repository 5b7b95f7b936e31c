import Metaobject.Proofs.Signature.Token

/-!
The grammar of signatures. A signature is derived from tokens, each rule of the grammar being one
constructor, and the reader accepts the texts that spell a derivation and no others. What the reader
still accepts from a state on is said rule by rule: whatever comes behind a type does not depend on
how the type was written.
-/
namespace Metaobject.Signature

/-- The type that a name denotes: a type of its own if the name is reserved for one, and otherwise
the class that is registered under it. -/
inductive Names (r : Registry) : String → Ty → Prop where
  | primitive (p : Primitive) : Names r p.name (.primitive p)
  | string : Names r "string" .string
  | any : Names r "any" .any
  | token : Names r "type" .token
  | ofClass {name : String} {c : ClassId} (hFree : name ∉ reservedNames)
      (hFound : r.lookup name = some c) : Names r name (.ofClass c)

/-- A type is `()`, a type in brackets, or a name. -/
inductive DerivesType (r : Registry) : List Token → Ty → Prop where
  | void : DerivesType r [.openParenthesis, .closeParenthesis] .void
  | array {ts : List Token} {t : Ty} (element : DerivesType r ts t) :
      DerivesType r (.openBracket :: ts ++ [.closeBracket]) (.array t)
  | name {word : String} {t : Ty} (isName : IsIdentifier word) (names : Names r word t) :
      DerivesType r [.name word isName] t

/-- One type or more, with commas between them. -/
inductive DerivesTypes (r : Registry) : List Token → List Ty → Prop where
  | last {ts : List Token} {t : Ty} (type : DerivesType r ts t) : DerivesTypes r ts [t]
  | more {ts us : List Token} {t : Ty} {types : List Ty} (type : DerivesType r ts t)
      (rest : DerivesTypes r us types) : DerivesTypes r (ts ++ .comma :: us) (t :: types)

/-- The parameter types in parentheses, if there are any, an arrow, and the type of the result. -/
inductive Derives (r : Registry) : List Token → Signature → Prop where
  | plain {ts : List Token} {t : Ty} (result : DerivesType r ts t) :
      Derives r (.openParenthesis :: .closeParenthesis :: .arrow :: ts) ⟨[], t⟩
  | taking {us ts : List Token} {types : List Ty} {t : Ty} (parameters : DerivesTypes r us types)
      (result : DerivesType r ts t) :
      Derives r (.openParenthesis :: us ++ .closeParenthesis :: .arrow :: ts) ⟨types, t⟩

variable {r : Registry}

theorem resolve_eq_some_iff {name : String} {t : Ty} :
    resolve r name = some t ↔ Names r name t := by
  constructor
  · intro hResolve
    have hSame := hResolve
    rw [resolve] at hSame
    split at hSame
    · next p hName =>
        cases hSame
        rw [← Primitive.name_of_ofName? hName]
        exact .primitive p
    · split_ifs at hSame with hString hAny hType
      · cases hSame
        exact hString ▸ .string
      · cases hSame
        exact hAny ▸ .any
      · cases hSame
        exact hType ▸ .token
      · obtain ⟨c, hFound, rfl⟩ := Option.map_eq_some_iff.mp hSame
        exact .ofClass (unreserved_of_resolve hResolve).1 hFound
  · intro hNames
    cases hNames with
    | primitive p => rw [resolve, Primitive.ofName?_name]
    | ofClass hFree hFound =>
        rw [resolve_of_unreserved hFree, hFound]
        rfl
    | _ => rfl

namespace Reader

theorem endName_eq_ok_iff {word : String} {t : Ty} :
    endName r word.toList = .ok t ↔ Names r word t := by
  rw [← resolve_eq_some_iff, endName, String.ofList_toList]
  cases resolve r word <;> simp

/-- From a state on, some tokens are read to their end, as a signature. -/
def Accepts (r : Registry) (s : State) (ts : List Token) (sig : Signature) : Prop :=
  ∃ v, ts.foldlM (advance r) s = .ok v ∧ finish r v = .ok sig

variable {s v : State} {slot : Slot} {depth : Nat} {ts us : List Token} {sig : Signature}

theorem accepts_nil : Accepts r s [] sig ↔ finish r s = .ok sig := by
  simp [Accepts, pure, Except.pure]

theorem accepts_cons {t : Token} :
    Accepts r s (t :: ts) sig ↔ ∃ v, advance r s t = .ok v ∧ Accepts r v ts sig := by
  simp only [Accepts, List.foldlM_cons, bind_eq_ok_iff]
  constructor
  · rintro ⟨u, ⟨v, hAdvance, hRest⟩, hFinish⟩
    exact ⟨v, hAdvance, u, hRest, hFinish⟩
  · rintro ⟨v, hAdvance, u, hRest, hFinish⟩
    exact ⟨u, ⟨v, hAdvance, hRest⟩, hFinish⟩

theorem accepts_append (hFront : us.foldlM (advance r) s = .ok v) :
    Accepts r s (us ++ ts) sig ↔ Accepts r v ts sig := by
  rw [Accepts, List.foldlM_append, hFront]
  rfl

/-- A text is read as the signature that its tokens are accepted as. -/
theorem parse_eq_ok_iff_accepts {text : String} (h : Spells text.toList ts) :
    parse r text = .ok sig ↔ Accepts r .start ts sig := by
  rw [← mapError_eq_ok_iff (g := SignatureError.placeless), parse_placeless h]
  constructor
  · intro hRead
    obtain ⟨v, hTokens, hFinish⟩ := bind_eq_ok_iff.mp hRead
    exact ⟨v, mapError_eq_ok_iff.mp hTokens, hFinish⟩
  · rintro ⟨v, hTokens, hFinish⟩
    rw [hTokens]
    exact hFinish

/-- A name that denotes a type is taken where a type may come next, and nowhere else. -/
theorem advance_name_iff {word : String} {isName : IsIdentifier word} (hs : s.Rests) :
    advance r s (.name word isName) = .ok v ↔
      ∃ slot depth t, s.Awaits slot depth ∧ Names r word t ∧ v = .after slot depth t := by
  rw [advance, Token.text, bind_eq_ok_iff]
  constructor
  · rintro ⟨u, hRun, hSettle⟩
    obtain ⟨slot, depth, hAwaits, rfl⟩ := (foldlM_word_iff hs isName).mp hRun
    cases hEnd : endName r word.toList with
    | error fault =>
        rw [settle, hEnd] at hSettle
        cases hSettle
    | ok t =>
        rw [settle, hEnd] at hSettle
        cases hSettle
        exact ⟨slot, depth, t, hAwaits, endName_eq_ok_iff.mp hEnd, rfl⟩
  · rintro ⟨slot, depth, t, hAwaits, hNames, rfl⟩
    refine ⟨_, (foldlM_word_iff hs isName).mpr ⟨slot, depth, hAwaits, rfl⟩, ?_⟩
    rw [settle, endName_eq_ok_iff.mpr hNames]
    rfl

/-- In some states one sign is due, and nothing else can come next. -/
inductive State.Due : State → Token → State → Prop where
  | start : Due .start .openParenthesis .opened
  | void {slot : Slot} {depth : Nat} :
      Due (.void slot depth) .closeParenthesis (.after slot depth .void)
  | element {slot : Slot} {depth : Nat} {t : Ty} :
      Due (.after slot (depth + 1) t) .closeBracket (.after slot depth (.array t))
  | arrow {parameters : List Ty} :
      Due (.closed parameters) .arrow (.type (.result parameters) 0)

theorem State.Due.advance_eq {t : Token} (hDue : s.Due t v) : advance r s t = .ok v := by
  cases hDue <;> rfl

theorem State.Due.eq_of_advance {t u : Token} {w : State} (hDue : s.Due t v)
    (hAdvance : advance r s u = .ok w) : u = t := by
  cases u with
  | name word isName =>
      have hs : s.Rests := by cases hDue <;> trivial
      obtain ⟨slot, depth, _, hAwaits, _⟩ := (advance_name_iff hs).mp hAdvance
      cases hDue <;> cases hAwaits
  | _ => cases hDue <;> first | rfl | cases hAdvance

theorem State.Due.finish_ne {t : Token} (hDue : s.Due t v) : finish r s ≠ .ok sig := by
  intro hEnd
  cases hDue with
  | @element slot => cases slot <;> cases hEnd
  | _ => cases hEnd

/-- A sign that is due has to come. -/
theorem accepts_due_iff {t : Token} (hDue : s.Due t v) :
    Accepts r s ts sig ↔ ∃ rest, ts = t :: rest ∧ Accepts r v rest sig := by
  constructor
  · intro hAccepts
    cases ts with
    | nil => exact absurd (accepts_nil.mp hAccepts) hDue.finish_ne
    | cons u rest =>
        obtain ⟨w, hAdvance, hRest⟩ := accepts_cons.mp hAccepts
        obtain rfl := hDue.eq_of_advance hAdvance
        cases hDue.advance_eq.symm.trans hAdvance
        exact ⟨rest, rfl, hRest⟩
  · rintro ⟨rest, rfl, hRest⟩
    exact accepts_cons.mpr ⟨v, hDue.advance_eq, hRest⟩

/-- Behind a parameter comes a comma with another, or the end of the parameters. -/
theorem accepts_after_parameter {before : List Ty} {t : Ty} :
    Accepts r (.after (.parameter before) 0 t) ts sig ↔
      (∃ rest, ts = .comma :: rest ∧
        Accepts r (.type (.parameter (before ++ [t])) 0) rest sig) ∨
      ∃ rest, ts = .closeParenthesis :: rest ∧ Accepts r (.closed (before ++ [t])) rest sig := by
  constructor
  · intro hAccepts
    cases ts with
    | nil => cases accepts_nil.mp hAccepts
    | cons u rest =>
        obtain ⟨w, hAdvance, hRest⟩ := accepts_cons.mp hAccepts
        cases u with
        | comma =>
            cases hAdvance
            exact .inl ⟨rest, rfl, hRest⟩
        | closeParenthesis =>
            cases hAdvance
            exact .inr ⟨rest, rfl, hRest⟩
        | name word isName =>
            obtain ⟨_, _, _, ⟨⟩, _⟩ := (advance_name_iff (s := .after _ _ _) trivial).mp hAdvance
        | _ => cases hAdvance
  · rintro (⟨rest, rfl, hRest⟩ | ⟨rest, rfl, hRest⟩)
    · exact accepts_cons.mpr ⟨_, rfl, hRest⟩
    · exact accepts_cons.mpr ⟨_, rfl, hRest⟩

/-- Behind the type of the result comes nothing. -/
theorem accepts_after_result {parameters : List Ty} {t : Ty} :
    Accepts r (.after (.result parameters) 0 t) ts sig ↔ ts = [] ∧ sig = ⟨parameters, t⟩ := by
  constructor
  · intro hAccepts
    cases ts with
    | nil =>
        cases accepts_nil.mp hAccepts
        exact ⟨rfl, rfl⟩
    | cons u rest =>
        obtain ⟨w, hAdvance, _⟩ := accepts_cons.mp hAccepts
        cases u with
        | name word isName =>
            obtain ⟨_, _, _, ⟨⟩, _⟩ := (advance_name_iff (s := .after _ _ _) trivial).mp hAdvance
        | _ => cases hAdvance
  · rintro ⟨rfl, rfl⟩
    exact accepts_nil.mpr rfl

/-- No sign but an opening one begins a type. -/
theorem not_advance_type {t : Token} {c : Char} {text : List Char} (hText : t.text = c :: text)
    (hc : c ∈ separators) (hOpen : c ≠ '(') (hBracket : c ≠ '[') :
    advance r (.type slot depth) t ≠ .ok v := by
  have hBlanks : separators.all (!Text.isBlank ·) = true := rfl
  have hBlank : Text.isBlank c = false := by simpa using List.all_eq_true.mp hBlanks c hc
  have hStep : step r (.type slot depth) c = .error (.expected .type) := by
    simp [step_type_eq hBlank, stepType, hOpen, hBracket, isNameChar_of_mem_separators hc]
  rw [advance, hText, List.foldlM_cons, hStep]
  intro hAdvance
  cases hAdvance

/-- A type begins with a parenthesis that is closed at once, with a bracket, or with a name. -/
theorem accepts_type : Accepts r (.type slot depth) ts sig ↔
    (∃ rest, ts = .openParenthesis :: rest ∧ Accepts r (.void slot depth) rest sig) ∨
    (∃ rest, ts = .openBracket :: rest ∧ Accepts r (.type slot (depth + 1)) rest sig) ∨
    ∃ word isName rest t, ts = .name word isName :: rest ∧ Names r word t ∧
      Accepts r (.after slot depth t) rest sig := by
  have hType : (State.type slot depth).Rests := trivial
  constructor
  · intro hAccepts
    cases ts with
    | nil => cases accepts_nil.mp hAccepts
    | cons u rest =>
        obtain ⟨w, hAdvance, hRest⟩ := accepts_cons.mp hAccepts
        cases u with
        | openParenthesis =>
            cases hAdvance
            exact .inl ⟨rest, rfl, hRest⟩
        | openBracket =>
            cases hAdvance
            exact .inr (.inl ⟨rest, rfl, hRest⟩)
        | name word isName =>
            obtain ⟨_, _, t, ⟨⟩, hNames, rfl⟩ := (advance_name_iff hType).mp hAdvance
            exact .inr (.inr ⟨word, isName, rest, t, rfl, hNames, hRest⟩)
        | _ => exact absurd hAdvance (not_advance_type rfl (by decide) (by decide) (by decide))
  · rintro (⟨rest, rfl, hRest⟩ | ⟨rest, rfl, hRest⟩ | ⟨word, isName, rest, t, rfl, hNames, hRest⟩)
    · exact accepts_cons.mpr ⟨_, rfl, hRest⟩
    · exact accepts_cons.mpr ⟨_, rfl, hRest⟩
    · have hAdvance : advance r (.type slot depth) (.name word isName) =
          .ok (.after slot depth t) :=
        (advance_name_iff hType).mpr ⟨slot, depth, t, .type, hNames, rfl⟩
      exact accepts_cons.mpr ⟨_, hAdvance, hRest⟩

/-- What begins a type does so wherever a type may come next. -/
theorem advance_of_awaits {u : State} {t : Token} (hs : s.Awaits slot depth)
    (hu : u.Awaits slot depth) (hClose : t ≠ .closeParenthesis) :
    advance r s t = advance r u t := by
  have hBegins : ∃ c text, t.text = c :: text ∧ Text.isBlank c = false ∧ c ≠ ')' := by
    cases t with
    | closeParenthesis => exact absurd rfl hClose
    | name word isName =>
        obtain ⟨c, text, hText⟩ := List.exists_cons_of_ne_nil isName.1
        have hc : isNameChar c = true := isName.2 c (hText ▸ List.mem_cons_self ..)
        exact ⟨c, text, hText, isBlank_of_isNameChar hc, ne_of_isNameChar hc (by decide)⟩
    | _ => exact ⟨_, _, rfl, by decide, by decide⟩
  obtain ⟨c, text, hText, hBlank, hOther⟩ := hBegins
  rw [advance, advance, hText, List.foldlM_cons, List.foldlM_cons, hs.step_eq hBlank hOther,
    hu.step_eq hBlank hOther]

/-- Behind the opening parenthesis come the closing one or a first parameter. -/
theorem accepts_opened : Accepts r .opened ts sig ↔
    (∃ rest, ts = .closeParenthesis :: rest ∧ Accepts r (.closed []) rest sig) ∨
      Accepts r (.type (.parameter []) 0) ts sig := by
  cases ts with
  | nil => simp [accepts_nil, finish]
  | cons t rest =>
      by_cases hClose : t = .closeParenthesis
      · subst hClose
        have hNone : ¬ Accepts r (.type (.parameter []) 0) (.closeParenthesis :: rest) sig := by
          rw [accepts_cons]
          rintro ⟨v, hAdvance, _⟩
          exact not_advance_type rfl (by decide) (by decide) (by decide) hAdvance
        have hNext : advance r .opened .closeParenthesis = .ok (.closed []) := rfl
        simp [hNone, accepts_cons, hNext]
      · simp [hClose, accepts_cons, advance_of_awaits .opened .type hClose]

/-- A derived type is read as the type that it derives. -/
theorem foldlM_of_derivesType {t : Ty} (hType : DerivesType r ts t) :
    ts.foldlM (advance r) (.type slot depth) = .ok (.after slot depth t) := by
  induction hType generalizing depth with
  | void => rfl
  | @array ts t element ih =>
      rw [List.cons_append, List.foldlM_cons]
      change (ts ++ [Token.closeBracket]).foldlM (advance r) (.type slot (depth + 1)) = _
      rw [List.foldlM_append, ih]
      rfl
  | name isName names =>
      rw [List.foldlM_cons, (advance_name_iff (by trivial)).mpr ⟨_, _, _, .type, names, rfl⟩]
      rfl

/-- Where a type comes next, the tokens begin with one, and the rest is accepted behind it. The
induction is on the tokens: what is open around the type grows with each bracket. -/
theorem accepts_type_iff : Accepts r (.type slot depth) ts sig ↔
    ∃ front rest t, ts = front ++ rest ∧ DerivesType r front t ∧
      Accepts r (.after slot depth t) rest sig := by
  constructor
  · intro hAccepts
    induction ts generalizing depth with
    | nil => cases accepts_nil.mp hAccepts
    | cons u us ih =>
        rcases accepts_type.mp hAccepts with
          ⟨rest, hEq, hVoid⟩ | ⟨rest, hEq, hElement⟩ | ⟨word, isName, rest, t, hEq, hNames, hRest⟩
        · cases hEq
          obtain ⟨rest, rfl, hRest⟩ := (accepts_due_iff .void).mp hVoid
          exact ⟨_, rest, .void, rfl, .void, hRest⟩
        · cases hEq
          obtain ⟨front, rest, t, rfl, hType, hAfter⟩ := ih hElement
          obtain ⟨rest, rfl, hRest⟩ := (accepts_due_iff .element).mp hAfter
          exact ⟨_, rest, .array t, by simp, .array hType, hRest⟩
        · cases hEq
          exact ⟨_, us, t, rfl, .name isName hNames, hRest⟩
  · rintro ⟨front, rest, t, rfl, hType, hRest⟩
    exact (accepts_append (foldlM_of_derivesType hType)).mpr hRest

/-- Where a parameter comes next, the tokens begin with one or more of them and the parenthesis
behind. -/
theorem accepts_parameters_iff {before : List Ty} :
    Accepts r (.type (.parameter before) 0) ts sig ↔
      ∃ front types rest, ts = front ++ .closeParenthesis :: rest ∧ DerivesTypes r front types ∧
        Accepts r (.closed (before ++ types)) rest sig := by
  constructor
  · intro hAccepts
    induction hLength : ts.length using Nat.strongRecOn generalizing ts before with
    | ind n ih =>
        obtain ⟨front, rest, t, rfl, hType, hAfter⟩ := accepts_type_iff.mp hAccepts
        rcases accepts_after_parameter.mp hAfter with ⟨more, rfl, hMore⟩ | ⟨rest, rfl, hClosed⟩
        · have hLess : more.length < n := by
            simp only [List.length_append, List.length_cons] at hLength
            omega
          obtain ⟨others, types, rest, rfl, hTypes, hClosed⟩ := ih _ hLess hMore rfl
          refine ⟨front ++ .comma :: others, t :: types, rest, by simp, .more hType hTypes, ?_⟩
          rwa [List.append_assoc] at hClosed
        · exact ⟨front, [t], rest, rfl, .last hType, hClosed⟩
  · rintro ⟨front, types, rest, rfl, hTypes, hClosed⟩
    induction hTypes generalizing before with
    | @last us t type =>
        exact accepts_type_iff.mpr ⟨us, _, t, rfl, type,
          accepts_after_parameter.mpr (.inr ⟨rest, rfl, hClosed⟩)⟩
    | @more us others t types type others' ih =>
        rw [List.append_cons] at hClosed
        rw [List.append_assoc]
        exact accepts_type_iff.mpr ⟨us, _, t, rfl, type,
          accepts_after_parameter.mpr (.inl ⟨_, rfl, ih hClosed⟩)⟩

/-- Behind the parameters come an arrow and the type of the result. -/
theorem accepts_closed_iff {parameters : List Ty} : Accepts r (.closed parameters) ts sig ↔
    ∃ rest t, ts = .arrow :: rest ∧ DerivesType r rest t ∧ sig = ⟨parameters, t⟩ := by
  rw [accepts_due_iff .arrow]
  constructor
  · rintro ⟨rest, rfl, hResult⟩
    obtain ⟨front, rest, t, rfl, hType, hAfter⟩ := accepts_type_iff.mp hResult
    obtain ⟨rfl, rfl⟩ := accepts_after_result.mp hAfter
    exact ⟨front, t, by rw [List.append_nil], hType, rfl⟩
  · rintro ⟨rest, t, rfl, hType, rfl⟩
    refine ⟨rest, rfl, accepts_type_iff.mpr ⟨rest, [], t, by simp, hType, ?_⟩⟩
    exact accepts_after_result.mpr ⟨rfl, rfl⟩

/-- The reader accepts what derives a signature, as that signature. -/
theorem accepts_start_iff : Accepts r .start ts sig ↔ Derives r ts sig := by
  rw [accepts_due_iff .start]
  constructor
  · rintro ⟨rest, rfl, hOpened⟩
    rcases accepts_opened.mp hOpened with ⟨rest, rfl, hClosed⟩ | hParameters
    · obtain ⟨rest, t, rfl, hType, rfl⟩ := accepts_closed_iff.mp hClosed
      exact .plain hType
    · obtain ⟨front, types, rest, rfl, hTypes, hClosed⟩ := accepts_parameters_iff.mp hParameters
      obtain ⟨rest, t, rfl, hType, rfl⟩ := accepts_closed_iff.mp hClosed
      exact .taking hTypes hType
  · intro hDerives
    cases hDerives with
    | @plain us t result =>
        refine ⟨_, rfl, accepts_opened.mpr (.inl ⟨_, rfl, ?_⟩)⟩
        exact accepts_closed_iff.mpr ⟨us, t, rfl, result, rfl⟩
    | @taking us vs types t parameters result =>
        refine ⟨_, rfl, accepts_opened.mpr (.inr (accepts_parameters_iff.mpr ?_))⟩
        exact ⟨us, types, _, rfl, parameters, accepts_closed_iff.mpr ⟨vs, t, rfl, result, rfl⟩⟩

end Reader

/-- A text is read as a signature if and only if it spells tokens that derive it: blanks may stand
around tokens, but not in them. Texts that spell the same tokens are read alike, with the same
errors at their own places. -/
theorem parse_eq_ok_iff_derives (r : Registry) (text : String) :
    (∀ s : Signature, parse r text = .ok s ↔ ∃ ts, Spells text.toList ts ∧ Derives r ts s) ∧
      ∀ (other : String) (ts : List Token), Spells text.toList ts → Spells other.toList ts →
        (parse r text).mapError SignatureError.placeless =
          (parse r other).mapError SignatureError.placeless := by
  refine ⟨fun s => ⟨fun hParse => ?_, ?_⟩, fun other ts hText hOther => ?_⟩
  · obtain ⟨ts, hSpells⟩ := exists_spells_of_parse hParse
    have hAccepts := (Reader.parse_eq_ok_iff_accepts hSpells).mp hParse
    exact ⟨ts, hSpells, Reader.accepts_start_iff.mp hAccepts⟩
  · rintro ⟨ts, hSpells, hDerives⟩
    exact (Reader.parse_eq_ok_iff_accepts hSpells).mpr (Reader.accepts_start_iff.mpr hDerives)
  · rw [parse_placeless hText, parse_placeless hOther]

theorem isIdentifier_object : IsIdentifier "object" := by
  have hChars : ("object").toList.all isNameChar = true := by decide +kernel
  exact ⟨by decide +kernel, List.all_eq_true.mp hChars⟩

/-- The tokens of a method that takes an array of objects and yields nothing. -/
def objectsTokens : List Token :=
  [.openParenthesis, .openBracket, .name "object" isIdentifier_object, .closeBracket,
    .closeParenthesis, .arrow, .openParenthesis, .closeParenthesis]

theorem derives_objects : Derives .opening objectsTokens ⟨[.array (.ofClass .object)], .void⟩ := by
  have hName : Names .opening "object" (.ofClass .object) := .ofClass (by decide) (by decide)
  exact .taking (.last (.array (.name isIdentifier_object hName))) .void

theorem spells_objects : Spells "([object])->()".toList objectsTokens := by
  have hBehind : Spells "])->()".toList (objectsTokens.drop 3) :=
    .sign (t := .closeBracket) rfl (.sign (t := .closeParenthesis) rfl (.sign (t := .arrow) rfl
      (.sign (t := .openParenthesis) rfl (.sign (t := .closeParenthesis) rfl .nil))))
  have hEnds : EndsName "])->()".toList :=
    endsName_cons (isNameChar_of_mem_separators (by decide)) _
  exact .sign (t := .openParenthesis) rfl (.sign (t := .openBracket) rfl
    (.name isIdentifier_object hEnds hBehind))

theorem spells_objects_apart : Spells " ( [ object ]) ->\n( )".toList objectsTokens := by
  have hResult : Spells "\n( )".toList (objectsTokens.drop 6) :=
    .blank rfl (.sign (t := .openParenthesis) rfl (.blank rfl
      (.sign (t := .closeParenthesis) rfl .nil)))
  have hBehind : Spells " ]) ->\n( )".toList (objectsTokens.drop 3) :=
    .blank rfl (.sign (t := .closeBracket) rfl (.sign (t := .closeParenthesis) rfl (.blank rfl
      (.sign (t := .arrow) rfl hResult))))
  have hEnds : EndsName " ]) ->\n( )".toList := endsName_cons (isNameChar_of_isBlank rfl) _
  exact .blank rfl (.sign (t := .openParenthesis) rfl (.blank rfl (.sign (t := .openBracket) rfl
    (.blank rfl (.name isIdentifier_object hEnds hBehind)))))

/-- Two texts of one signature, the second with blanks wherever they may stand. -/
theorem parse_objects :
    Spells "([object])->()".toList objectsTokens ∧
      Spells " ( [ object ]) ->\n( )".toList objectsTokens ∧
      parse .opening "([object])->()" = .ok ⟨[.array (.ofClass .object)], .void⟩ ∧
      (parse .opening "([object])->()").mapError SignatureError.placeless =
        (parse .opening " ( [ object ]) ->\n( )").mapError SignatureError.placeless := by
  have hBoth := parse_eq_ok_iff_derives .opening "([object])->()"
  exact ⟨spells_objects, spells_objects_apart,
    (hBoth.1 _).mpr ⟨objectsTokens, spells_objects, derives_objects⟩,
    hBoth.2 _ _ spells_objects spells_objects_apart⟩

end Metaobject.Signature
