import Metaobject.Proofs.Instance.Memory
import Metaobject.Proofs.Signature.Reading

/-!
Tidy worlds. In a tidy world the cells of an instance belong to it alone, values refer to objects
and classes that exist, and all that is remembered of instances is right. It stays tidy while it
grows: what an instance stands for was settled when it was built, since it refers to nothing that
was made later, and an instance that is new has cells that are new.
-/
namespace Metaobject

variable {σ β : Type} {v w : World σ}

namespace World

/-- A value refers to no object and to no class that does not exist. -/
inductive Knows (w : World σ) : Value → Prop where
  | atom {a : Value} (hAtom : a.isAtom = true)
      (hClasses : ∀ t, a = .token t → ∀ c ∈ t.classes, w.hierarchy.Declared c) : Knows w a
  | array {t : Ty} {items : List Value} (hItems : ∀ a ∈ items, Knows w a) :
      Knows w (.array t items)
  | object {o : ObjectRef} (ho : o.id < w.objects.size) : Knows w (.object o)

theorem Knows.mono {a : Value} (hGrows : w.GrowsTo v) (ha : w.Knows a) : v.Knows a := by
  induction ha with
  | atom hAtom hClasses =>
      exact .atom hAtom fun t ht c hc => hGrows.hierarchy.declared (hClasses t ht c hc)
  | array _ ih => exact .array ih
  | object ho => exact .object (Nat.lt_of_lt_of_le ho hGrows.objects.length_le)

mutual

/-- Whether a value does can be found out. -/
theorem knows_iff (w : World σ) (a : Value) : w.knows a = true ↔ w.Knows a := by
  cases a with
  | token t =>
      rw [knows, List.all_eq_true]
      simp only [decide_eq_true_iff]
      constructor
      · rintro hAll
        refine .atom rfl fun u hu => ?_
        cases hu
        exact hAll
      · rintro ⟨_, hClasses⟩
        exact hClasses t rfl
  | array t items =>
      rw [knows, knowsAll_iff w items]
      constructor
      · exact .array
      · rintro (⟨hAtom, _⟩ | hItems)
        · cases hAtom
        · exact hItems
  | object o =>
      rw [knows, decide_eq_true_iff]
      constructor
      · exact .object
      · rintro (⟨hAtom, _⟩ | _ | ho)
        · cases hAtom
        · exact ho
  | _ => exact ⟨fun _ => .atom rfl fun _ ht => by (cases ht), fun _ => rfl⟩

theorem knowsAll_iff (w : World σ) (as : List Value) :
    w.knowsAll as = true ↔ ∀ a ∈ as, w.Knows a := by
  cases as with
  | nil => simp [knowsAll]
  | cons a as =>
      rw [knowsAll, Bool.and_eq_true, knows_iff w a, knowsAll_iff w as, List.forall_mem_cons]

end

/-- An instance refers to nothing that does not exist. -/
structure KnowsAll (w : World σ) (x : Instance) : Prop where
  cls : w.hierarchy.Declared x.contract.cls
  values : ∀ m ∈ x.contract.members, w.Knows (x.valueOf m)

theorem KnowsAll.mono {x : Instance} (hGrows : w.GrowsTo v) (hx : w.KnowsAll x) : v.KnowsAll x :=
  ⟨hGrows.hierarchy.declared hx.cls, fun m hm => (hx.values m hm).mono hGrows⟩

/-- What an instance stands for does not change when objects are added. -/
theorem Denotes.mono {a : Value} {d : Datum} (hGrows : w.GrowsTo v) (hd : w.Denotes a d) :
    v.Denotes a d := by
  induction hd with
  | atom hAtom => exact .atom hAtom
  | array hLength _ ih => exact .array hLength ih
  | object ho hLength _ ih =>
      obtain ⟨made, hObject⟩ := ho
      exact .object ⟨made, hGrows.object? hObject⟩ hLength ih

theorem Unfolds.mono {x : Instance} {d : Datum} (hGrows : w.GrowsTo v) (hd : w.Unfolds x d) :
    v.Unfolds x d := by
  obtain ⟨ds, hds, rfl⟩ := hd
  exact ⟨ds, hds.imp fun _ _ => .mono hGrows, rfl⟩

end World

theorem Hierarchy.GrowsTo.tyText_eq {h k : Hierarchy} (hk : h.GrowsTo k) {t : Ty}
    (ht : ∀ c ∈ t.classes, h.Declared c) : k.tyText t = h.tyText t := by
  induction t with
  | array t ih => rw [tyText, ih ht, tyText]
  | ofClass c => exact hk.className_eq (ht c (List.mem_singleton_self c))
  | _ => rfl

namespace World

/-- A value stood for a datum before, and the datum has the same hash and text as then. -/
structure StoodFor (w v : World σ) (a : Value) (d : Datum) : Prop where
  denotes : w.Denotes a d
  hash : d.hash v.hierarchy = d.hash w.hierarchy
  text : d.text v.hierarchy = d.text w.hierarchy

theorem stoodFor_all {as : List Value} {ds : List Datum} (hds : v.DenoteAll as ds)
    (hEach : ∀ a d, (a, d) ∈ as.zip ds → w.StoodFor v a d) :
    w.DenoteAll as ds ∧ Datum.hashes v.hierarchy ds = Datum.hashes w.hierarchy ds ∧
      Datum.texts v.hierarchy ds = Datum.texts w.hierarchy ds := by
  induction hds with
  | nil => exact ⟨.nil, rfl, rfl⟩
  | @cons a d as ds _ _ ih =>
      rw [List.zip_cons_cons] at hEach
      obtain ⟨hFirst, hHash, hText⟩ := hEach a d (List.mem_cons_self ..)
      obtain ⟨hRest, hHashes, hTexts⟩ := ih fun b e hMem => hEach b e (List.mem_cons_of_mem _ hMem)
      refine ⟨.cons hFirst hRest, ?_, ?_⟩
      · rw [Datum.hashes, Datum.hashes, hHash, hHashes]
      · rw [Datum.texts, Datum.texts, hText, hTexts]

/-- An instance unfolded before to what it unfolds to, if its values stood for the same. -/
theorem KnowsAll.unfolds {x : Instance} {ds : List Datum} (hx : w.KnowsAll x)
    (hGrows : w.GrowsTo v) (hds : v.DenoteAll (x.contract.members.map x.valueOf) ds)
    (hEach : ∀ a d, (a, d) ∈ (x.contract.members.map x.valueOf).zip ds → w.Knows a →
      w.StoodFor v a d) {d : Datum}
    (hd : d = .record x.contract.cls (x.contract.members.map Member.name) ds) :
    w.Unfolds x d ∧ d.hash v.hierarchy = d.hash w.hierarchy ∧
      d.text v.hierarchy = d.text w.hierarchy := by
  obtain ⟨hBefore, hHashes, hTexts⟩ := stoodFor_all hds fun a e hMem => by
    obtain ⟨m, hm, rfl⟩ := List.mem_map.mp (List.of_mem_zip hMem).1
    exact hEach _ e hMem (hx.values m hm)
  subst hd
  refine ⟨⟨ds, hBefore, rfl⟩, ?_, ?_⟩
  · rw [Datum.hash, Datum.hash, hHashes]
  · rw [Datum.text, Datum.text, hTexts, hGrows.hierarchy.className_eq hx.cls]

theorem object?_of_later (hGrows : w.GrowsTo v) {o : ObjectRef} {data : ObjectData}
    (ho : o.id < w.objects.size) (hData : v.object? o = some data) : w.object? o = some data := by
  have hThere : w.object? o = some w.objects[o.id] := Array.getElem?_eq_getElem ho
  rw [← hData, hGrows.object? hThere, hThere]

/-- What refers only to what exists stood for the same as it will when the world has grown. -/
theorem stoodFor_of_denotes (hGrows : w.GrowsTo v) (hKnown : ∀ x, w.Has x → w.KnowsAll x)
    {a : Value} {d : Datum} (hd : v.Denotes a d) (ha : w.Knows a) : w.StoodFor v a d := by
  induction hd with
  | @atom a hAtom =>
      cases ha with
      | array _ => cases hAtom
      | object _ => cases hAtom
      | atom _ hClasses =>
          -- only tokens have names of classes in their text
          cases a with
          | token t =>
              have hText := hGrows.hierarchy.tyText_eq (hClasses t rfl)
              exact ⟨.atom hAtom, congrArg Text.textHash hText, hText⟩
          | _ => exact ⟨.atom hAtom, rfl, rfl⟩
  | array hLength hItems ih =>
      cases ha with
      | atom hAtom => cases hAtom
      | array hKnows =>
          obtain ⟨hBefore, hHashes, hTexts⟩ := stoodFor_all (denoteAll_of_zip hLength hItems)
            fun b e hMem => ih b e hMem (hKnows b (List.of_mem_zip hMem).1)
          refine ⟨denotes_array hBefore, ?_, ?_⟩
          · rw [Datum.hash, Datum.hash, hHashes]
          · rw [Datum.text, Datum.text, hTexts]
  | @object o x ds ho hLength hValues ih =>
      cases ha with
      | atom hAtom => cases hAtom
      | object hId =>
          obtain ⟨made, hObject⟩ := ho
          have hStands : w.Stands o x := ⟨made, object?_of_later hGrows hId hObject⟩
          obtain ⟨hUnfolds, hHash, hText⟩ := (hKnown x hStands.has).unfolds hGrows
            (denoteAll_of_zip hLength hValues) ih rfl
          exact ⟨hStands.denotes_iff.mpr hUnfolds, hHash, hText⟩

/-- One world has grown out of another, by one instance at the most. -/
structure Gains (w v : World σ) (new? : Option Instance) : Prop where
  growsTo : w.GrowsTo v
  sound : v.Sound
  has : ∀ x, v.Has x → w.Has x ∨ new? = some x
  known : ∀ x, new? = some x → v.KnowsAll x

end World

namespace Memory

variable {k : Memory σ β} {new? : Option Instance}

/-- What is remembered of the instances of a world stays right while it gains another, whose cell is
new and empty. -/
structure Gained (k : Memory σ β) (w v : World σ) (new? : Option Instance) : Prop
    extends k.Right w v where
  fresh : ∀ x, new? = some x → ∀ c, k.cell? x = some c →
    (k.store v).Holds c ∧ ¬ (k.store w).Holds c ∧ (k.store v).read c = none

theorem Right.gained (hRight : k.Right w w)
    (hStore : (k.store w).Gains (k.store v) (new?.bind k.cell?)) : k.Gained w v new? where
  held := hStore.held
  right x hx c hc n hn d hd := by
    rw [hStore.read] at hn
    exact hRight.right x hx c hc n hn d hd
  fresh x hx c hc := by
    obtain ⟨hHolds, hNew⟩ := hStore.fresh c (by rw [hx, Option.bind_some, hc])
    refine ⟨hHolds, hNew, ?_⟩
    rw [hStore.read, Store.read_of_not_holds hNew]

theorem Right.gained_none (hRight : k.Right w v) : k.Gained w v none where
  toRight := hRight
  fresh _ h := by cases h

/-- An instance whose cell is new shares it with none. -/
theorem Owned.gain (hOwned : k.Owned w) (hGains : w.Gains v new?) (hGained : k.Gained w v new?) :
    k.Owned v := by
  constructor
  · intro x hx c hc
    rcases hGains.has x hx with hOld | hNew
    · exact hGained.held c (hOwned.held x hOld c hc)
    · exact (hGained.fresh x hNew c hc).1
  · intro x y hx hy c d hc hd hSame
    have hHolds : (k.store w).Holds c ↔ (k.store w).Holds d := by
      rw [Store.Holds, Store.Holds, hSame]
    rcases hGains.has x hx with hOld | hNew <;> rcases hGains.has y hy with hOld' | hNew'
    · exact hOwned.alone x y hOld hOld' c d hc hd hSame
    · exact absurd (hHolds.mp (hOwned.held x hOld c hc)) (hGained.fresh y hNew' d hd).2.1
    · exact absurd (hHolds.mpr (hOwned.held y hOld' d hd)) (hGained.fresh x hNew c hc).2.1
    · exact Option.some.inj (hNew.symm.trans hNew')

/-- What was right stays right, since no instance that was there stands for anything new. -/
theorem Gained.right_self (hGained : k.Gained w v new?) (hGains : w.Gains v new?)
    (hBefore : ∀ x, w.Has x → ∀ d, v.Unfolds x d →
      w.Unfolds x d ∧ k.value v.hierarchy d = k.value w.hierarchy d) : k.Right v v := by
  refine ⟨fun _ => id, fun x hx c hc n hn d hd => ?_⟩
  rcases hGains.has x hx with hOld | hNew
  · obtain ⟨hUnfolds, hValue⟩ := hBefore x hOld d hd
    rw [hValue]
    exact hGained.right x hOld c hc n hn d hUnfolds
  · rw [(hGained.fresh x hNew c hc).2.2] at hn
    cases hn

end Memory

namespace World

/-- A world in order: instances share no cells, refer to what exists, and what is remembered of them
is right. -/
structure Tidy (w : World σ) : Prop where
  sound : w.Sound
  separate : w.Separate
  known : ∀ x, w.Has x → w.KnowsAll x
  settled : w.Settled w

/-- What an instance of a tidy world unfolds to later it unfolds to already. -/
theorem Tidy.unfolds_of_later (hw : w.Tidy) (hGrows : w.GrowsTo v) {x : Instance} (hx : w.Has x)
    {d : Datum} (hd : v.Unfolds x d) : w.Unfolds x d ∧ d.hash v.hierarchy = d.hash w.hierarchy ∧
      d.text v.hierarchy = d.text w.hierarchy := by
  obtain ⟨ds, hds, hEq⟩ := hd
  exact (hw.known x hx).unfolds hGrows hds
    (fun a e hMem ha => stoodFor_of_denotes hGrows hw.known (List.forall₂_zip hds hMem) ha) hEq

/-- A world that grows stays in order, if an instance that is new has cells that are new. -/
theorem Tidy.gain (hw : w.Tidy) {new? : Option Instance} (hGains : w.Gains v new?)
    (hHash : Memory.hash.Gained w v new?) (hText : Memory.text.Gained w v new?) : v.Tidy where
  sound := hGains.sound
  separate := ⟨hw.separate.hash.gain hGains hHash, hw.separate.text.gain hGains hText⟩
  known x hx := by
    rcases hGains.has x hx with hOld | hNew
    · exact (hw.known x hOld).mono hGains.growsTo
    · exact hGains.known x hNew
  settled := by
    have hBefore (x : Instance) (hx : w.Has x) (d : Datum) (hd : v.Unfolds x d) :=
      hw.unfolds_of_later hGains.growsTo hx hd
    refine ⟨.refl v, ?_, ?_⟩
    · exact hHash.right_self hGains fun x hx d hd =>
        ⟨(hBefore x hx d hd).1, (hBefore x hx d hd).2.1⟩
    · exact hText.right_self hGains fun x hx d hd =>
        ⟨(hBefore x hx d hd).1, (hBefore x hx d hd).2.2⟩

/-- A world grows without gaining an instance. -/
theorem gains_none (hGrows : w.GrowsTo v) (hSound : v.Sound) (hHas : ∀ x, v.Has x → w.Has x) :
    w.Gains v none where
  growsTo := hGrows
  sound := hSound
  has x hx := .inl (hHas x hx)
  known _ h := by cases h

/-- What is remembered of instances after calls is right, so a tidy world stays so. -/
theorem Settled.tidy (hv : w.Settled v) (hw : w.Tidy) : v.Tidy := by
  obtain ⟨hGrows, hSound⟩ := hv.steady.evolves hw.sound
  exact hw.gain (gains_none hGrows hSound fun _ => .of_objects_eq hv.steady.objects)
    hv.hash.gained_none hv.text.gained_none

end World

end Metaobject
