import Mathlib.Tactic.SplitIfs
import Metaobject.Proofs.Signature.Reading

/-!
Signatures as tokens. A text spells some tokens if it is made of them, with any blanks before,
between and behind them; a name is as long as can be. The reader takes a text as the tokens that it
spells, so blanks between tokens change nothing but the places of errors. A text that is read to
its end spells some tokens.
-/
namespace Metaobject

/-- An error without its place. -/
def SignatureError.placeless : SignatureError → SignatureError
  | expected what _ => expected what 0
  | trailingInput _ => trailingInput 0
  | e => e

namespace Signature

/-- The signs and names that signatures are made of. -/
inductive Token where
  | openParenthesis
  | closeParenthesis
  | openBracket
  | closeBracket
  | comma
  | arrow
  | name (word : String) (isName : IsIdentifier word)

/-- How a token is written. -/
def Token.text : Token → List Char
  | openParenthesis => ['(']
  | closeParenthesis => [')']
  | openBracket => ['[']
  | closeBracket => [']']
  | comma => [',']
  | arrow => ['-', '>']
  | name word _ => word.toList

/-- The token is a sign. -/
def Token.isSign : Token → Bool
  | name .. => false
  | _ => true

/-- A text that no name in front of it goes on in. -/
def EndsName (text : List Char) : Prop :=
  ∀ c ∈ text.head?, isNameChar c = false

theorem endsName_nil : EndsName [] := fun c hc => absurd hc (Option.not_mem_none c)

theorem endsName_cons {c : Char} (hc : isNameChar c = false) (text : List Char) :
    EndsName (c :: text) := by
  intro d hd
  cases hd
  exact hc

/-- A text is made of some tokens, in order, and of blanks around them. -/
inductive Spells : List Char → List Token → Prop where
  | nil : Spells [] []
  | blank {c : Char} {text : List Char} {ts : List Token} (hBlank : Text.isBlank c = true)
      (rest : Spells text ts) : Spells (c :: text) ts
  | sign {t : Token} {text : List Char} {ts : List Token} (hSign : t.isSign = true)
      (rest : Spells text ts) : Spells (t.text ++ text) (t :: ts)
  | name {word : String} {text : List Char} {ts : List Token} (isName : IsIdentifier word)
      (hEnds : EndsName text) (rest : Spells text ts) :
      Spells (word.toList ++ text) (.name word isName :: ts)

namespace Reader

variable {r : Registry}

/-- The reader is between two tokens, and not behind a name that may go on. -/
def State.Rests : State → Prop
  | .name .. | .shaft _ => False
  | _ => True

/-- What is read is settled: no name goes on. -/
def settle (r : Registry) : State → Except Fault State
  | .name slot depth read => (endName r read).map (.after slot depth)
  | s => .ok s

/-- What one more token does. -/
def advance (r : Registry) (s : State) (t : Token) : Except Fault State :=
  t.text.foldlM (step r) s >>= settle r

/-- A type may come next, in a slot and with some brackets open. -/
inductive State.Awaits : State → Slot → Nat → Prop where
  | type {slot : Slot} {depth : Nat} : Awaits (.type slot depth) slot depth
  | opened : Awaits .opened (.parameter []) 0

theorem step_type_eq {slot : Slot} {depth : Nat} {c : Char} (hc : Text.isBlank c = false) :
    step r (.type slot depth) c = stepType slot depth c := by
  simp [step, hc]

/-- Whatever begins a type does so behind the opening parenthesis as well. -/
theorem State.Awaits.step_eq {s : State} {slot : Slot} {depth : Nat} (hs : s.Awaits slot depth)
    {c : Char} (hc : Text.isBlank c = false) (hClose : c ≠ ')') :
    step r s c = stepType slot depth c := by
  cases hs with
  | type => exact step_type_eq hc
  | opened => simp [step, hc, hClose]

theorem settle_rests {s : State} (hs : s.Rests) : settle r s = .ok s := by
  cases s <;> first | rfl | exact hs.elim

/-- Behind a name that has ended the reader is at rest. -/
theorem rests_of_settle {slot : Slot} {depth : Nat} {read : List Char} {v : State}
    (hSettle : settle r (.name slot depth read) = .ok v) : v.Rests := by
  rw [settle] at hSettle
  cases hEnd : endName r read with
  | error fault =>
      rw [hEnd] at hSettle
      cases hSettle
  | ok t =>
      rw [hEnd] at hSettle
      cases hSettle
      trivial

theorem step_blank {s : State} (hs : s.Rests) {c : Char} (hc : Text.isBlank c = true) :
    step r s c = .ok s := by
  cases s <;> first | exact hs.elim | simp [step, stepAfter, hc]

/-- What a character does in a state of rest: a blank changes nothing; a sign of one character leads
to rest again; and an arrow or a name begins. -/
inductive Moves (s : State) (c : Char) : State → Prop where
  | blank (hBlank : Text.isBlank c = true) : Moves s c s
  | sign {t : Token} {v : State} (hSign : t.isSign = true) (hText : t.text = [c])
      (hRests : v.Rests) : Moves s c v
  | shaft {parameters : List Ty} (hc : c = '-') : Moves s c (.shaft parameters)
  | name {slot : Slot} {depth : Nat} (hc : isNameChar c = true) (hAwaits : s.Awaits slot depth) :
      Moves s c (.name slot depth [c])

theorem moves_of_stepType {s v : State} {slot : Slot} {depth : Nat} {c : Char}
    (hs : s.Awaits slot depth) (hStep : stepType slot depth c = .ok v) : Moves s c v := by
  rw [stepType] at hStep
  split_ifs at hStep with hOpen hBracket hName <;> cases hStep
  · exact .sign (t := .openParenthesis) rfl (by rw [hOpen]; rfl) trivial
  · exact .sign (t := .openBracket) rfl (by rw [hBracket]; rfl) trivial
  · exact .name hName hs

theorem moves_of_stepAfter {v : State} {slot : Slot} {depth : Nat} {t : Ty} {c : Char}
    (hStep : stepAfter slot depth t c = .ok v) : Moves (.after slot depth t) c v := by
  unfold stepAfter at hStep
  split at hStep
  · next hBlank =>
      cases hStep
      exact .blank hBlank
  · split at hStep
    · split_ifs at hStep with hClose
      cases hStep
      exact .sign (t := .closeBracket) rfl (by rw [hClose]; rfl) trivial
    · split_ifs at hStep with hComma hClose <;> cases hStep
      · exact .sign (t := .comma) rfl (by rw [hComma]; rfl) trivial
      · exact .sign (t := .closeParenthesis) rfl (by rw [hClose]; rfl) trivial
    · cases hStep

theorem moves_of_step {s v : State} {c : Char} (hs : s.Rests) (hStep : step r s c = .ok v) :
    Moves s c v := by
  cases s with
  | start =>
      simp only [step] at hStep
      split_ifs at hStep with hBlank hOpen <;> cases hStep
      · exact .blank hBlank
      · exact .sign (t := .openParenthesis) rfl (by rw [hOpen]; rfl) trivial
  | opened =>
      simp only [step] at hStep
      split_ifs at hStep with hBlank hClose
      · cases hStep
        exact .blank hBlank
      · cases hStep
        exact .sign (t := .closeParenthesis) rfl (by rw [hClose]; rfl) trivial
      · exact moves_of_stepType .opened hStep
  | type slot depth =>
      simp only [step] at hStep
      split_ifs at hStep with hBlank
      · cases hStep
        exact .blank hBlank
      · exact moves_of_stepType .type hStep
  | void slot depth =>
      simp only [step] at hStep
      split_ifs at hStep with hBlank hClose <;> cases hStep
      · exact .blank hBlank
      · exact .sign (t := .closeParenthesis) rfl (by rw [hClose]; rfl) trivial
  | name slot depth read => exact hs.elim
  | after slot depth t => exact moves_of_stepAfter hStep
  | closed parameters =>
      simp only [step] at hStep
      split_ifs at hStep with hBlank hDash <;> cases hStep
      · exact .blank hBlank
      · exact .shaft hDash
  | shaft parameters => exact hs.elim

/-- No sign goes on in a name. -/
theorem isNameChar_of_mem_sign {t : Token} (hSign : t.isSign = true) {c : Char}
    (hc : c ∈ t.text) : isNameChar c = false := by
  have hSeparators : t.text.all (separators.contains ·) = true := by
    cases t with
    | name word isName => cases hSign
    | _ => rfl
  have hContains : separators.contains c = true := List.all_eq_true.mp hSeparators c hc
  exact isNameChar_of_mem_separators (List.contains_iff_mem.mp hContains)

/-- Behind a sign the reader is at rest. -/
theorem rests_of_sign {s v : State} {t : Token} (hSign : t.isSign = true) (hs : s.Rests)
    (hRun : t.text.foldlM (step r) s = .ok v) : v.Rests := by
  have hOne {c : Char} (hText : t.text = [c]) (hDash : c ≠ '-') (hBlank : Text.isBlank c = false) :
      v.Rests := by
    rw [hText, List.foldlM_cons, bind_eq_ok_iff] at hRun
    obtain ⟨u, hStep, hEnd⟩ := hRun
    cases hEnd
    cases moves_of_step hs hStep with
    | blank hc => exact hs
    | sign _ _ hRests => exact hRests
    | shaft hc => exact absurd hc hDash
    | name hc _ =>
        rw [isNameChar_of_mem_sign hSign (by rw [hText]; exact List.mem_singleton_self c)] at hc
        cases hc
  cases t with
  | name word isName => cases hSign
  | arrow =>
      rw [Token.text, List.foldlM_cons, bind_eq_ok_iff] at hRun
      obtain ⟨u, hStep, hRun⟩ := hRun
      cases moves_of_step hs hStep with
      | blank hc => cases hc
      | @sign t _ hOther hText _ =>
          cases t with
          | name word isName => cases hOther
          | _ => cases hText
      | shaft _ =>
          cases hRun
          trivial
      | name hc _ =>
          rw [isNameChar_of_mem_separators (by decide)] at hc
          cases hc
  | _ => exact hOne rfl (by decide) (by decide)

/-- A name begins where a type may come next. -/
theorem State.Awaits.step_name {s : State} {slot : Slot} {depth : Nat} (hs : s.Awaits slot depth)
    {c : Char} (hc : isNameChar c = true) : step r s c = .ok (.name slot depth [c]) := by
  have hOpen : c ≠ '(' := ne_of_isNameChar hc (by decide)
  have hBracket : c ≠ '[' := ne_of_isNameChar hc (by decide)
  rw [hs.step_eq (isBlank_of_isNameChar hc) (ne_of_isNameChar hc (by decide)), stepType,
    if_neg hOpen, if_neg hBracket, if_pos hc]

/-- It begins nowhere else. -/
theorem awaits_of_step_name {s v : State} {c : Char} (hs : s.Rests) (hc : isNameChar c = true)
    (hStep : step r s c = .ok v) : ∃ slot depth, s.Awaits slot depth := by
  cases moves_of_step hs hStep with
  | blank hBlank =>
      rw [isNameChar_of_isBlank hBlank] at hc
      cases hc
  | sign hSign hText _ =>
      rw [isNameChar_of_mem_sign hSign (by rw [hText]; exact List.mem_singleton_self c)] at hc
      cases hc
  | shaft hDash =>
      rw [hDash, isNameChar_of_mem_separators (by decide)] at hc
      cases hc
  | name _ hAwaits => exact ⟨_, _, hAwaits⟩

/-- A name is read where a type may come next, and nowhere else. -/
theorem foldlM_word_iff {s v : State} {word : String} (hs : s.Rests) (isName : IsIdentifier word) :
    word.toList.foldlM (step r) s = .ok v ↔
      ∃ slot depth, s.Awaits slot depth ∧ v = .name slot depth word.toList := by
  obtain ⟨hNonempty, hChars⟩ := isName
  obtain ⟨c, chars, hText⟩ := List.exists_cons_of_ne_nil hNonempty
  rw [hText] at hChars ⊢
  obtain ⟨hc, hRest⟩ := List.forall_mem_cons.mp hChars
  have hReads {slot : Slot} {depth : Nat} (hAwaits : s.Awaits slot depth) :
      (c :: chars).foldlM (step r) s = .ok (.name slot depth (c :: chars)) :=
    Reads.cons (hAwaits.step_name hc) (reads_name [c] chars hRest)
  constructor
  · intro hRun
    have hFirst := hRun
    rw [List.foldlM_cons, bind_eq_ok_iff] at hFirst
    obtain ⟨u, hStep, _⟩ := hFirst
    obtain ⟨slot, depth, hAwaits⟩ := awaits_of_step_name hs hc hStep
    exact ⟨slot, depth, hAwaits, Except.ok.inj (hRun.symm.trans (hReads hAwaits))⟩
  · rintro ⟨slot, depth, hAwaits, rfl⟩
    exact hReads hAwaits

/-- What no name goes on in settles what is read. -/
theorem step_eq_settle {s : State} {c : Char} (hc : isNameChar c = false) :
    step r s c = settle r s >>= (step r · c) := by
  cases s with
  | name slot depth read =>
      simp only [step, hc, settle]
      cases endName r read <;> rfl
  | _ => rfl

/-- So does the end. -/
theorem foldlM_settle {s : State} {text : List Char} (hEnds : EndsName text) :
    text.foldlM (step r) s >>= settle r =
      settle r s >>= fun v => text.foldlM (step r) v >>= settle r := by
  cases text with
  | nil =>
      cases s with
      | name slot depth read =>
          simp only [List.foldlM_nil, pure_bind, settle]
          cases endName r read <;> rfl
      | _ => rfl
  | cons c text =>
      rw [List.foldlM_cons, step_eq_settle (hEnds c rfl)]
      simp only [List.foldlM_cons, bind_assoc]

/-- The reader takes a text as the tokens that it spells. -/
theorem foldlM_of_spells {text : List Char} {ts : List Token} (h : Spells text ts) {s : State}
    (hs : s.Rests) : text.foldlM (step r) s >>= settle r = ts.foldlM (advance r) s := by
  induction h generalizing s with
  | nil => exact settle_rests hs
  | blank hBlank rest ih =>
      rw [List.foldlM_cons, step_blank hs hBlank]
      exact ih hs
  | @sign t text ts hSign rest ih =>
      rw [List.foldlM_append, List.foldlM_cons, advance]
      cases hRun : t.text.foldlM (step r) s with
      | error fault => rfl
      | ok v =>
          have hv : v.Rests := rests_of_sign hSign hs hRun
          have hSettled : (Except.ok v >>= settle r : Except Fault State) = .ok v := settle_rests hv
          rw [hSettled]
          exact ih hv
  | @name word text ts isName hEnds rest ih =>
      rw [List.foldlM_append, List.foldlM_cons, advance, Token.text, bind_assoc]
      cases hRun : word.toList.foldlM (step r) s with
      | error fault => rfl
      | ok v =>
          obtain ⟨slot, depth, _, rfl⟩ := (foldlM_word_iff hs isName).mp hRun
          change text.foldlM (step r) (.name slot depth word.toList) >>= settle r =
            settle r (.name slot depth word.toList) >>= fun u => ts.foldlM (advance r) u
          rw [foldlM_settle hEnds, settle]
          cases endName r word.toList with
          | error fault => rfl
          | ok t => exact ih trivial

/-- What may follow in a state, for a text that spells tokens in the end. -/
def State.Follows : State → List Char → Prop
  | .name .., text => ∃ rest ts, (∃ run, text = run ++ rest ∧ ∀ c ∈ run, isNameChar c = true) ∧
      EndsName rest ∧ Spells rest ts
  | .shaft _, text => ∃ rest ts, text = '>' :: rest ∧ Spells rest ts
  | _, text => ∃ ts, Spells text ts

theorem State.Rests.follows_iff {s : State} (hs : s.Rests) {text : List Char} :
    s.Follows text ↔ ∃ ts, Spells text ts := by
  cases s <;> first | exact hs.elim | exact Iff.rfl

theorem exists_spells_of_moves {s v : State} (hs : s.Rests) {c : Char} (hMoves : Moves s c v)
    {text : List Char} (hFollows : v.Follows text) : ∃ ts, Spells (c :: text) ts := by
  cases hMoves with
  | blank hBlank =>
      obtain ⟨ts, hSpells⟩ := hs.follows_iff.mp hFollows
      exact ⟨ts, .blank hBlank hSpells⟩
  | @sign t _ hSign hText hRests =>
      obtain ⟨ts, hSpells⟩ := hRests.follows_iff.mp hFollows
      refine ⟨t :: ts, ?_⟩
      have hSigned := Spells.sign hSign hSpells
      rwa [hText] at hSigned
  | shaft hDash =>
      obtain ⟨rest, ts, rfl, hSpells⟩ := hFollows
      exact ⟨.arrow :: ts, hDash ▸ .sign (t := .arrow) rfl hSpells⟩
  | name hc _ =>
      obtain ⟨rest, ts, ⟨run, rfl, hRun⟩, hEnds, hSpells⟩ := hFollows
      have isName : IsIdentifier (String.ofList (c :: run)) := by
        rw [IsIdentifier, String.toList_ofList]
        exact ⟨List.cons_ne_nil c run, List.forall_mem_cons.mpr ⟨hc, hRun⟩⟩
      refine ⟨.name _ isName :: ts, ?_⟩
      have hNamed := Spells.name isName hEnds hSpells
      rwa [String.toList_ofList] at hNamed

theorem follows_of_reads {s u : State} {text : List Char} (hReads : Reads r s text u)
    (hLast : ∀ parameters, u ≠ .shaft parameters) : s.Follows text := by
  induction text generalizing s with
  | nil =>
      cases hReads
      cases u with
      | name slot depth read => exact ⟨[], [], ⟨[], rfl, by simp⟩, endsName_nil, .nil⟩
      | shaft parameters => exact absurd rfl (hLast parameters)
      | _ => exact ⟨[], .nil⟩
  | cons c text ih =>
      rw [Reads, List.foldlM_cons, bind_eq_ok_iff] at hReads
      obtain ⟨v, hStep, hRest⟩ := hReads
      have hFollows := ih hRest
      have hRests (w : State) (hw : w.Rests) (hStep : step r w c = .ok v) :
          ∃ ts, Spells (c :: text) ts :=
        exists_spells_of_moves hw (moves_of_step hw hStep) hFollows
      cases s with
      | name slot depth read =>
          cases hc : isNameChar c with
          | true =>
              simp only [step, hc, if_true] at hStep
              cases hStep
              obtain ⟨rest, ts, ⟨run, rfl, hRun⟩, hEnds, hSpells⟩ := hFollows
              exact ⟨rest, ts, ⟨c :: run, rfl, List.forall_mem_cons.mpr ⟨hc, hRun⟩⟩, hEnds, hSpells⟩
          | false =>
              rw [step_eq_settle hc, bind_eq_ok_iff] at hStep
              obtain ⟨w, hSettle, hStep⟩ := hStep
              obtain ⟨ts, hSpells⟩ := hRests w (rests_of_settle hSettle) hStep
              exact ⟨c :: text, ts, ⟨[], rfl, by simp⟩, endsName_cons hc text, hSpells⟩
      | shaft parameters =>
          simp only [step] at hStep
          split_ifs at hStep with hc
          cases hStep
          obtain ⟨ts, hSpells⟩ := hFollows
          exact ⟨text, ts, by rw [hc], hSpells⟩
      | _ => exact hRests _ (by trivial) hStep

theorem at_placeless (fault : Fault) (offset : Nat) : (fault.at offset).placeless = fault.at 0 := by
  cases fault <;> rfl

/-- Where a text begins is seen in the places of errors alone. -/
theorem run_placeless (s : State) (offset : Nat) (text : List Char) :
    (run r s offset text).mapError SignatureError.placeless =
      (text.foldlM (step r) s).mapError (Fault.at 0) := by
  induction text generalizing s offset with
  | nil => rfl
  | cons c text ih =>
      rw [run, List.foldlM_cons]
      cases step r s c with
      | ok v => exact ih v _
      | error fault => exact congrArg Except.error (at_placeless fault offset)

/-- The end of a text settles what is read, and its errors have no place. -/
theorem finish_eq (s : State) :
    (finish r s).mapError SignatureError.placeless =
      ((settle r s).mapError (Fault.at 0)).bind (finish r) := by
  have hAfter (slot : Slot) (depth : Nat) (t : Ty) :
      (finishAfter slot depth t).mapError SignatureError.placeless = finishAfter slot depth t := by
    unfold finishAfter
    split <;> rfl
  cases s with
  | name slot depth read =>
      simp only [finish, settle]
      cases endName r read with
      | ok t => exact hAfter slot depth t
      | error fault => exact congrArg Except.error (at_placeless fault 0)
  | after slot depth t => exact hAfter slot depth t
  | _ => rfl

end Reader

/-- What a text is read as, up to the places of errors, depends on the tokens that it spells. -/
theorem parse_placeless {r : Registry} {text : String} {ts : List Token}
    (h : Spells text.toList ts) :
    (parse r text).mapError SignatureError.placeless =
      ((ts.foldlM (Reader.advance r) .start).mapError (Reader.Fault.at 0)).bind
        (Reader.finish r) := by
  rw [← Reader.foldlM_of_spells h (by trivial), parse]
  have hRun := Reader.run_placeless (r := r) .start 0 text.toList
  cases hLast : Reader.run r .start 0 text.toList with
  | error e =>
      rw [hLast] at hRun
      cases hFold : text.toList.foldlM (Reader.step r) .start with
      | error fault =>
          rw [hFold] at hRun
          exact congrArg Except.error (Except.error.inj hRun)
      | ok v =>
          rw [hFold] at hRun
          cases hRun
  | ok v =>
      rw [show text.toList.foldlM (Reader.step r) .start = .ok v from Reader.run_eq_ok_iff.mp hLast]
      exact Reader.finish_eq v

/-- A text that is read spells some tokens. -/
theorem exists_spells_of_parse {r : Registry} {text : String} {s : Signature}
    (hParse : parse r text = .ok s) : ∃ ts, Spells text.toList ts := by
  rw [parse] at hParse
  cases hRun : Reader.run r .start 0 text.toList with
  | error e =>
      rw [hRun] at hParse
      cases hParse
  | ok last =>
      rw [hRun] at hParse
      refine Reader.follows_of_reads (s := .start) (Reader.run_eq_ok_iff.mp hRun) ?_
      rintro parameters rfl
      cases hParse

end Signature

end Metaobject
