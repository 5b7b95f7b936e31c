import Metaobject.Proofs.Instance.Equality
import Metaobject.Proofs.Instance.Digest

/-!
Values without objects. They are compared and hashed without a request to anyone, so both questions
are answered in every world, and leave it as it is. Equality is that of the data they stand for, and
the hash is a function of the datum: hence equality is an equivalence, and equal values have one
hash, although an array is compared with its element type and hashed without it, and a token is
compared by its type and hashed by the name of it.
-/
namespace Metaobject

variable {σ : Type} {serve : Serve σ} {w : World σ}

namespace Value

/-- There is no object in the value, at any depth. -/
inductive Plain : Value → Prop where
  | atom {v : Value} (hAtom : v.isAtom = true) : Plain v
  | array {t : Ty} {items : List Value} (hItems : ∀ v ∈ items, Plain v) : Plain (.array t items)

namespace Plain

variable {v u : Value}

theorem exists_datum (hv : v.Plain) (w : World σ) : ∃ d, w.Denotes v d := by
  induction hv with
  | atom hAtom => exact ⟨_, .atom hAtom⟩
  | array _ ih =>
      obtain ⟨ds, hds⟩ := exists_denoteAll ih
      exact ⟨_, World.denotes_array hds⟩

/-- What a plain value stands for, it stands for in every world. -/
theorem denotes (hv : v.Plain) {d : Datum} (hd : w.Denotes v d) (w' : World σ) :
    w'.Denotes v d := by
  induction hv generalizing d with
  | atom hAtom =>
      cases hd with
      | atom => exact .atom hAtom
      | _ => cases hAtom
  | array _ ih =>
      cases hd with
      | atom hAtom => cases hAtom
      | array hLength hEach =>
          exact .array hLength fun v d hMem => ih v (List.of_mem_zip hMem).1 (hEach v d hMem)

theorem alike_iff (hv : v.Plain) (hu : u.Plain) (w' : World σ) : w.Alike v u ↔ w'.Alike v u :=
  ⟨fun ⟨d, hd, he⟩ => ⟨d, hv.denotes hd w', hu.denotes he w'⟩,
    fun ⟨d, hd, he⟩ => ⟨d, hv.denotes hd w, hu.denotes he w⟩⟩

theorem equals_answers (hv : v.Plain) (hu : u.Plain) :
    (v.equals serve u).Answers w (w.Alike v u) := by
  induction hv generalizing u with
  | atom hAtom => exact (equals_atom hAtom u).congr (World.alike_atom_iff hAtom).symm
  | array _ ih =>
      cases hu with
      | array hItems => exact equals_array fun v hv u hu => ih v hv (hItems u hu)
      | atom hAtom =>
          refine .of_atom rfl hAtom ?_
          cases u with
          | array t items => cases hAtom
          | _ => rfl

/-- Whether plain values are equal is a matter of the values alone. -/
theorem equals_eq (hv : v.Plain) (hu : u.Plain) {b : Bool} (hb : b = true ↔ w.Alike v u)
    (serve' : Serve σ) (w' : World σ) : v.equals serve' u w' = (.ok b, w') := by
  have hAnswers : (v.equals serve' u).Answers w' (w'.Alike v u) := hv.equals_answers hu
  obtain ⟨b', hRun, hb'⟩ := hAnswers
  rw [hRun, Bool.eq_iff_iff.mpr (hb.trans ((hv.alike_iff hu w').trans hb'.symm))]

theorem equals_eq_true_iff (hv : v.Plain) (hu : u.Plain) :
    v.equals serve u w = (.ok true, w) ↔ w.Alike v u := by
  have hAnswers : (v.equals serve u).Answers w (w.Alike v u) := hv.equals_answers hu
  obtain ⟨b, hRun, hb⟩ := hAnswers
  rw [hRun, ← hb, Prod.mk.injEq, Except.ok.injEq, and_iff_left rfl]

theorem comes_hashCode (hv : v.Plain) {d : Datum} (hd : w.Denotes v d) :
    (v.hashCode serve).Comes (w = ·) True (d.hash w.hierarchy) := by
  induction hv generalizing d with
  | atom hAtom =>
      cases hd with
      | atom =>
          rintro _ rfl
          rw [hashCode_atom hAtom]
          exact ⟨rfl, .inl rfl⟩
      | _ => cases hAtom
  | array _ ih =>
      cases hd with
      | atom hAtom => cases hAtom
      | array hLength hEach =>
          refine comes_hashItems (List.forall₂_iff_zip.mpr ⟨hLength, ?_⟩) 1
          exact fun hMem => ih _ (List.of_mem_zip hMem).1 (hEach _ _ hMem)

/-- The hash of a plain value is that of its datum. -/
theorem hashCode_eq (hv : v.Plain) {d : Datum} (hd : w.Denotes v d) :
    v.hashCode serve w = (.ok (d.hash w.hierarchy), w) := by
  have hComes : (v.hashCode serve).Comes (w = ·) True (d.hash w.hierarchy) := hv.comes_hashCode hd
  exact Prod.ext (hComes.ok trivial rfl) (hComes w rfl).1.symm

theorem comes_text (hv : v.Plain) {d : Datum} (hd : w.Denotes v d) :
    (v.text serve).Comes (w = ·) True (d.text w.hierarchy) := by
  induction hv generalizing d with
  | atom hAtom =>
      cases hd with
      | atom =>
          rintro _ rfl
          rw [text_atom hAtom]
          exact ⟨rfl, .inl rfl⟩
      | _ => cases hAtom
  | array _ ih =>
      cases hd with
      | atom hAtom => cases hAtom
      | array hLength hEach =>
          refine (comes_texts (List.forall₂_iff_zip.mpr ⟨hLength, ?_⟩)).bind (.pure _)
          exact fun hMem => ih _ (List.of_mem_zip hMem).1 (hEach _ _ hMem)

/-- So is its text. -/
theorem text_eq (hv : v.Plain) {d : Datum} (hd : w.Denotes v d) :
    v.text serve w = (.ok (d.text w.hierarchy), w) := by
  have hComes : (v.text serve).Comes (w = ·) True (d.text w.hierarchy) := hv.comes_text hd
  exact Prod.ext (hComes.ok trivial rfl) (hComes w rfl).1.symm

end Plain

end Value

/-- Equality and hash of values without objects. Both are always answered. Equality is an
equivalence, numbers that are not numbers included, and values that are equal have the same hash,
whenever they are asked for it. -/
theorem equality_of_plain (serve : Serve σ) (w : World σ) {a b c : Value} (ha : a.Plain)
    (hb : b.Plain) (hc : c.Plain) :
    (∃ same, ∀ (serve' : Serve σ) (w' : World σ), a.equals serve' b w' = (.ok same, w')) ∧
    (∃ n, a.hashCode serve w = (.ok n, w)) ∧
    a.equals serve a w = (.ok true, w) ∧
    a.equals serve b w = b.equals serve a w ∧
    (a.equals serve b w = (.ok true, w) → b.equals serve c w = (.ok true, w) →
      a.equals serve c w = (.ok true, w)) ∧
    (a.equals serve b w = (.ok true, w) → ∀ (serve' : Serve σ) (w' : World σ),
      a.hashCode serve' w' = b.hashCode serve' w') := by
  obtain ⟨d, hd⟩ := ha.exists_datum w
  have hAnswers : (a.equals serve b).Answers w (w.Alike a b) := ha.equals_answers hb
  obtain ⟨same, _, hSame⟩ := hAnswers
  have hSymm : same = true ↔ w.Alike b a := hSame.trans ⟨World.Alike.symm, World.Alike.symm⟩
  refine ⟨⟨same, ha.equals_eq hb hSame⟩, ⟨_, ha.hashCode_eq hd⟩, ?_, ?_, ?_, ?_⟩
  · exact (ha.equals_eq_true_iff ha).mpr ⟨d, hd, hd⟩
  · rw [ha.equals_eq hb hSame, hb.equals_eq ha hSymm]
  · rw [ha.equals_eq_true_iff hb, hb.equals_eq_true_iff hc, ha.equals_eq_true_iff hc]
    exact World.Alike.trans
  · rw [ha.equals_eq_true_iff hb]
    rintro ⟨e, hA, hB⟩ serve' w'
    rw [ha.hashCode_eq (ha.denotes hA w'), hb.hashCode_eq (hb.denotes hB w')]

/-- A number and a class, each in an array of its own. -/
def measurement (x : Binary32) : Value :=
  .array .any [.array (.primitive .float) [.float x], .array .token [.token (.ofClass .object)]]

theorem plain_measurement (x : Binary32) : (measurement x).Plain := by
  refine .array fun v hv => ?_
  rcases List.mem_pair.mp hv with rfl | rfl <;>
    exact .array fun u hu => .atom (by rw [List.mem_singleton.mp hu]; rfl)

theorem equals_measurement {x y : Binary32} (hSame : x.canonical = y.canonical) :
    (measurement x).equals serve (measurement y) w = (.ok true, w) := by
  have hNumber : w.Alike (.float x) (.float y) :=
    (World.alike_atom_iff rfl).mpr ⟨rfl, congrArg Value.float hSame⟩
  have hClass : w.Alike (.token (.ofClass .object)) (.token (.ofClass .object)) :=
    (World.alike_atom_iff rfl).mpr ⟨rfl, rfl⟩
  rw [(plain_measurement x).equals_eq_true_iff (plain_measurement y), measurement, measurement,
    World.alike_array_iff]
  exact ⟨rfl, .cons (World.alike_array_iff.mpr ⟨rfl, .cons hNumber .nil⟩)
    (.cons (World.alike_array_iff.mpr ⟨rfl, .cons hClass .nil⟩) .nil)⟩

/-- Measurements of three patterns that are not numbers are all equal, and hashed alike. -/
theorem equality_of_measurements :
    ((measurement (.ofFields false 255 1)).equals (perform Stub.client 0) (measurement .quietNaN)
      limitWorld = (.ok true, limitWorld)) ∧
    ((measurement (.ofFields false 255 1)).equals (perform Stub.client 0)
      (measurement (.ofFields true 255 7)) limitWorld = (.ok true, limitWorld)) ∧
    (measurement (.ofFields false 255 1)).hashCode (perform Stub.client 0) limitWorld =
      (measurement .quietNaN).hashCode (perform Stub.client 0) limitWorld := by
  have hFirst : (measurement (.ofFields false 255 1)).equals (perform Stub.client 0)
      (measurement .quietNaN) limitWorld = (.ok true, limitWorld) :=
    equals_measurement (by decide +kernel)
  have hSecond : (measurement .quietNaN).equals (perform Stub.client 0)
      (measurement (.ofFields true 255 7)) limitWorld = (.ok true, limitWorld) :=
    equals_measurement (by decide +kernel)
  obtain ⟨_, _, _, _, hTrans, hHash⟩ := equality_of_plain (perform Stub.client 0) limitWorld
    (plain_measurement (.ofFields false 255 1)) (plain_measurement .quietNaN)
    (plain_measurement (.ofFields true 255 7))
  exact ⟨hFirst, hTrans hFirst hSecond, hHash hFirst _ _⟩

end Metaobject
