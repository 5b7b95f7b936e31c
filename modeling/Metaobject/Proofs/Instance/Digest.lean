import Metaobject.Proofs.Instance.Datum

/-!
Hash and text of what values stand for. Both are functions of the datum, for given names of classes.
A computation that comes to them may give up for want of depth, but it never comes to anything else,
as long as the world keeps what it has remembered right.
-/
namespace Metaobject

namespace Binary

variable {f : FloatFormat}

theorem canonical_canonical (x : Binary f) : x.canonical.canonical = x.canonical := by
  cases hx : x.isNaN with
  | true => simp [canonical, hx]
  | false => rw [canonical_of_not_isNaN hx, canonical_of_not_isNaN hx]

theorem text_of_isNaN {x : Binary f} (hx : x.isNaN = true) : x.text = "NaN" := by
  simp only [isNaN, Bool.and_eq_true, beq_iff_eq, bne_iff_ne] at hx
  rw [text, reading, if_pos hx.1, if_neg hx.2]

/-- The text of a number is that of its canonical pattern. -/
theorem text_canonical (hQuiet : (quietNaN : Binary f).isNaN = true) (x : Binary f) :
    x.canonical.text = x.text := by
  cases hx : x.isNaN with
  | true =>
      rw [canonical, if_pos hx, text_of_isNaN hQuiet, text_of_isNaN hx]
  | false => rw [canonical_of_not_isNaN hx]

end Binary

namespace Value

/-- The hash of an atom. -/
def atomHash (h : Hierarchy) : Value → Int32
  | boolean b => if b then 1231 else 1237
  | byte n => Int32.ofInt n.toInt
  | char c => Int32.ofNat c.toNat
  | short n => Int32.ofInt n.toInt
  | int n => n
  | long n => foldLong n
  | float x => x.hash32
  | double x => x.hash64
  | string s => Text.textHash s
  | token t => Text.textHash (h.tyText t)
  | _ => 0

/-- The text of an atom. -/
def atomText (h : Hierarchy) : Value → String
  | boolean b => if b then "true" else "false"
  | byte n => toString n.toInt
  | char c => String.singleton c
  | short n => toString n.toInt
  | int n => toString n.toInt
  | long n => toString n.toInt
  | float x => x.text
  | double x => x.text
  | string s => s
  | token t => h.tyText t
  | _ => "null"

end Value

namespace Datum

variable (h : Hierarchy)

mutual

/-- The hash of a datum: for an array over its items in order, and for an instance the sum of the
shares of its members. -/
def hash : Datum → Int32
  | atom v => v.atomHash h
  | array _ items => (hashes items).foldl (fun n k => n * 31 + k) 1
  | record _ names values =>
    (names.zip (hashes values)).foldl (fun n share => n + memberShare share.1 share.2) 0

/-- The hashes of some data. -/
def hashes : List Datum → List Int32
  | [] => []
  | d :: rest => hash d :: hashes rest

end

mutual

/-- The text of a datum: the items of an array in brackets, the members of an instance by name. -/
def text : Datum → String
  | atom v => v.atomText h
  | array _ items => "[" ++ ", ".intercalate (texts items) ++ "]"
  | record cls names values =>
    "@" ++ h.className cls ++ "(" ++
      ", ".intercalate ((names.zip (texts values)).map fun member => member.1 ++ "=" ++ member.2) ++
      ")"

/-- The texts of some data. -/
def texts : List Datum → List String
  | [] => []
  | d :: rest => text d :: texts rest

end

end Datum

variable {ε δ σ α β : Type} {client : Client σ} {serve : Serve σ} {w : World σ}

theorem Value.hashCode_atom {v : Value} (hv : v.isAtom = true) :
    v.hashCode serve w = (.ok (v.canonical.atomHash w.hierarchy), w) := by
  cases v with
  | array t items => cases hv
  | object o => cases hv
  | float x =>
      rw [canonical, atomHash, Binary.hash32, Binary.canonical_canonical]
      rfl
  | double x =>
      rw [canonical, atomHash, Binary.hash64, Binary.canonical_canonical]
      rfl
  | _ => rfl

theorem Value.text_atom {v : Value} (hv : v.isAtom = true) :
    v.text serve w = (.ok (v.canonical.atomText w.hierarchy), w) := by
  cases v with
  | array t items => cases hv
  | object o => cases hv
  | float x =>
      rw [canonical, atomText, Binary.text_canonical (by decide +kernel)]
      rfl
  | double x =>
      rw [canonical, atomText, Binary.text_canonical (by decide +kernel)]
      rfl
  | _ => rfl

namespace Run

/-- In worlds with a property a computation comes to a value and maintains the property; it may only
end without a result instead, if the depth of calls is not enough. -/
def Comes (I : World σ → Prop) (enough : Prop) (x : Run ε σ α) (a : α) : Prop :=
  ∀ w, I w → I (x w).2 ∧ ((x w).1 = .ok a ∨ ¬ enough ∧ (x w).1 = .error .exhausted)

variable {I : World σ → Prop} {enough : Prop}

theorem Comes.pure (a : α) : (pure a : Run ε σ α).Comes I enough a :=
  fun _ hw => ⟨hw, .inl rfl⟩

theorem Comes.exhausted (hNot : ¬ enough) (a : α) :
    (throw .exhausted : Run ε σ α).Comes I enough a :=
  fun _ hw => ⟨hw, .inr ⟨hNot, rfl⟩⟩

theorem Comes.bind {x : Run ε σ α} {f : α → Run ε σ β} {a : α} {b : β}
    (hx : x.Comes I enough a) (hf : (f a).Comes I enough b) :
    (x >>= f).Comes I enough b := by
  intro w hw
  obtain ⟨hv, hEnd⟩ := hx w hw
  rcases hRun : x w with ⟨r, v⟩
  rw [hRun] at hv hEnd
  rcases hEnd with rfl | ⟨hNot, rfl⟩
  · rw [bind_ok hRun]
    exact hf v hv
  · rw [bind_error hRun]
    exact ⟨hv, .inr ⟨hNot, rfl⟩⟩

theorem Comes.attempt {x : Run ε σ α} {a : α} (hx : x.Comes I enough a) :
    (attempt x : Run δ σ (Except ε α)).Comes I enough (.ok a) := by
  intro w hw
  obtain ⟨hv, hEnd⟩ := hx w hw
  rcases hRun : x w with ⟨r, v⟩
  rw [hRun] at hv hEnd
  rcases hEnd with rfl | ⟨hNot, rfl⟩
  · rw [attempt_ok hRun]
    exact ⟨hv, .inl rfl⟩
  · rw [attempt_exhausted hRun]
    exact ⟨hv, .inr ⟨hNot, rfl⟩⟩

/-- Less may be enough than is asked for. -/
theorem Comes.weaken {x : Run ε σ α} {a : α} {p : Prop} (hx : x.Comes I p a)
    (hEnough : enough → p) : x.Comes I enough a := by
  intro w hw
  obtain ⟨hv, hEnd⟩ := hx w hw
  exact ⟨hv, hEnd.imp_right fun hShort => ⟨fun hYes => hShort.1 (hEnough hYes), hShort.2⟩⟩

/-- If it comes to a result at all, it is this one. -/
theorem Comes.eq_of_ok {x : Run ε σ α} {a b : α} {v : World σ} (hx : x.Comes I enough a)
    (hw : I w) (hRun : x w = (.ok b, v)) : b = a := by
  obtain ⟨_, hEnd⟩ := hx w hw
  rw [hRun] at hEnd
  rcases hEnd with hSame | ⟨_, hNone⟩
  · exact Except.ok.inj hSame
  · cases hNone

/-- With enough depth, it does come to it. -/
theorem Comes.ok {x : Run ε σ α} {a : α} (hx : x.Comes I enough a) (hEnough : enough)
    (hw : I w) : (x w).1 = .ok a :=
  (hx w hw).2.resolve_right fun hShort => hShort.1 hEnough

end Run

section Lists

variable {I : World σ → Prop} {enough : Prop} {h : Hierarchy}

/-- The hashes of values in a row, each come to from its datum. -/
theorem Value.comes_hashItems {vs : List Value} {ds : List Datum}
    (hEach : List.Forall₂ (fun v d => (v.hashCode serve).Comes I enough (d.hash h)) vs ds)
    (start : Int32) : (hashItems serve start vs).Comes I enough
      ((Datum.hashes h ds).foldl (fun n k => n * 31 + k) start) := by
  induction hEach generalizing start with
  | nil => exact .pure _
  | cons hv _ ih => exact hv.bind (ih _)

theorem Value.comes_texts {vs : List Value} {ds : List Datum}
    (hEach : List.Forall₂ (fun v d => (v.text serve).Comes I enough (d.text h)) vs ds) :
    (texts serve vs).Comes I enough (Datum.texts h ds) := by
  induction hEach with
  | nil => exact .pure _
  | cons hv _ ih => exact hv.bind (ih.bind (.pure _))

theorem comes_membersHash {x : Instance} {ms : List Member} {ds : List Datum}
    (hEach : List.Forall₂ (fun v d => (v.hashCode serve).Comes I enough (d.hash h))
      (ms.map x.valueOf) ds) (start : Int32) :
    (membersHash serve start (ms.map fun m => (m.name, x.valueOf m))).Comes I enough
      (((ms.map Member.name).zip (Datum.hashes h ds)).foldl
        (fun n share => n + memberShare share.1 share.2) start) := by
  induction ms generalizing ds start with
  | nil => exact .pure _
  | cons m ms ih =>
      rw [List.map_cons] at hEach
      cases hEach with
      | cons hv hRest => exact hv.bind (ih hRest _)

theorem Instance.comes_memberTexts {x : Instance} {ms : List Member} {ds : List Datum}
    (hEach : List.Forall₂ (fun v d => (v.text serve).Comes I enough (d.text h))
      (ms.map x.valueOf) ds) :
    (memberTexts serve (ms.map fun m => (m.name, x.valueOf m))).Comes I enough
      (((ms.map Member.name).zip (Datum.texts h ds)).map
        fun member => member.1 ++ "=" ++ member.2) := by
  induction ms generalizing ds with
  | nil => exact .pure _
  | cons m ms ih =>
      rw [List.map_cons] at hEach
      cases hEach with
      | cons hv hRest => exact hv.bind ((ih hRest).bind (.pure _))

end Lists

section Objects

variable {I : World σ → Prop} {enough : Prop} {o : ObjectRef}

theorem ObjectRef.comes_hashCode {n : Int32}
    (hServe : (serve (.ask o ⟨.hashCode, some o, []⟩)).Comes I enough (.int n)) :
    (o.hashCode serve).Comes I enough n := by
  have hInvoke : (o.invoke serve .hashCode []).Comes I enough (.int n) := fun w hw => by
    rw [o.invoke_hashCode w]
    exact hServe w hw
  exact hInvoke.bind (.pure n)

theorem ObjectRef.comes_toText {s : String}
    (hServe : (serve (.ask o ⟨.toText, some o, []⟩)).Comes I enough (.string s)) :
    (o.toText serve).Comes I enough s := by
  have hInvoke : (o.invoke serve .toText []).Comes I enough (.string s) := fun w hw => by
    rw [o.invoke_toText w]
    exact hServe w hw
  exact hInvoke.bind (.pure s)

end Objects

end Metaobject
