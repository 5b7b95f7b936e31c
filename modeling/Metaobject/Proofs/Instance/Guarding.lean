import Metaobject.Proofs.Instance.Recollection

/-!
Cells that an object has to itself. Nobody else fills the cells of a new instance: whatever is made
later, in the midst of calls or not, has cells that are new, or none. So what is in them has been
put there by the object of the instance.
-/
namespace Metaobject

variable {σ β : Type} {u v w : World σ} {o : ObjectRef} {x y : Instance}

open World

namespace Recall

/-- Two instances have different cells. -/
def Apart (k : Recall σ β) (x y : Instance) : Prop :=
  ∀ c d, k.cell? x = some c → k.cell? y = some d → d ≠ c

/-- An object keeps things of one kind to itself: no other object has its cell, and what is in it
has a property. -/
structure Guards (k : Recall σ β) (o : ObjectRef) (x : Instance) (P : β → Prop) (w : World σ) :
    Prop where
  held : ∀ c, k.cell? x = some c → (k.store w).Holds c
  kept : ∀ c b, k.cell? x = some c → (k.store w).read c = some b → P b
  alone : ∀ p made chain, p.id ≠ o.id → w.object? p = some (.proxy made chain) →
    ∀ y, chain.Has y → k.Apart x y

variable {k : Recall σ β} {P : β → Prop}

theorem Guards.of_empty {P' : β → Prop} (hw : k.Guards o x P w) (hEmpty : k.Empty x w) :
    k.Guards o x P' w :=
  { hw with kept := fun c _ hc hb => by cases (hEmpty c hc).symm.trans hb }

theorem Guards.empty (hw : k.Guards o x (fun _ => False) w) : k.Empty x w := by
  intro c hc
  cases hRead : (k.store w).read c with
  | none => rfl
  | some b => exact (hw.kept c b hc hRead).elim

/-- Another cell may be filled. -/
theorem Guards.fill_apart (hw : k.Guards o x P w) (hApart : k.Apart x y) {d : Cell β}
    (hd : k.cell? y = some d) {b : β} (hStore : k.store v = (k.store w).fill d b)
    (hObjects : v.objects = w.objects) : k.Guards o x P v where
  held c hc := by
    rw [hStore]
    exact Store.holds_fill.mpr (hw.held c hc)
  kept c a hc ha := by
    rw [hStore, Store.read_fill_of_ne (hApart c d hc hd)] at ha
    exact hw.kept c a hc ha
  alone p made chain hOther hObject := by
    rw [World.object?, hObjects] at hObject
    exact hw.alone p made chain hOther hObject

/-- Its own cell may be filled with something that has the property. -/
theorem Guards.fill_own (hw : k.Guards o x P w) {c : Cell β} (hc : k.cell? x = some c) {b : β}
    (hb : P b) (hStore : k.store v = (k.store w).fill c b) (hObjects : v.objects = w.objects) :
    k.Guards o x P v where
  held d hd := by
    rw [hStore]
    exact Store.holds_fill.mpr (hw.held d hd)
  kept d a hd ha := by
    cases hc.symm.trans hd
    rw [hStore, Store.read_fill _ _ _ _ (hw.held c hc), if_pos rfl] at ha
    cases ha
    exact hb
  alone p made chain hOther hObject := by
    rw [World.object?, hObjects] at hObject
    exact hw.alone p made chain hOther hObject

/-- Something else may happen that leaves the cell alone: objects are added, with other cells. -/
structure Aside (k : Recall σ β) (o : ObjectRef) (w v : World σ) : Prop where
  held : ∀ c, (k.store w).Holds c → (k.store v).Holds c
  read : ∀ x c, w.Stands o x → k.cell? x = some c → (k.store v).read c = (k.store w).read c
  added : ∀ p made chain, w.object? p = none → v.object? p = some (.proxy made chain) →
    ∀ y, chain.Has y → ∀ d, k.cell? y = some d → ¬ (k.store w).Holds d

theorem Aside.trans (first : k.Aside o u v) (hFirst : u.GrowsTo v) (second : k.Aside o v w)
    (hSecond : v.GrowsTo w) : k.Aside o u w where
  held c hc := second.held c (first.held c hc)
  read x c ho hc := (second.read x c (ho.mono hFirst) hc).trans (first.read x c ho hc)
  added p made chain hNone hObject y hy d hd hHolds := by
    cases hBetween : v.object? p with
    | none => exact second.added p made chain hBetween hObject y hy d hd (first.held d hHolds)
    | some data =>
        cases (hSecond.object? hBetween).symm.trans hObject
        exact first.added p made chain hNone hBetween y hy d hd hHolds

theorem Guards.aside (hw : k.Guards o x P w) (ho : w.Stands o x) (hAside : k.Aside o w v)
    (hGrows : w.GrowsTo v) : k.Guards o x P v where
  held c hc := hAside.held c (hw.held c hc)
  kept c b hc hb := by
    rw [hAside.read x c ho hc] at hb
    exact hw.kept c b hc hb
  alone p made chain hOther hObject y hy := by
    cases hOld : w.object? p with
    | none =>
        rintro c d hc hd rfl
        exact hAside.added p made chain hOld hObject y hy d hd (hw.held d hc)
    | some data =>
        cases (hGrows.object? hOld).symm.trans hObject
        exact hw.alone p made chain hOther hOld y hy

/-- Where only a cell has been added, and what is new has no other, all cells are left alone. -/
theorem aside_of_gains {new? : Option (Cell β)} (hStore : (k.store w).Gains (k.store v) new?)
    (hNew : ∀ p made chain, w.object? p = none → v.object? p = some (.proxy made chain) →
      ∀ y, chain.Has y → k.cell? y = new?) : k.Aside o w v where
  held := hStore.held
  read _ c _ _ := hStore.read c
  added p made chain hNone hObject y hy d hd :=
    (hStore.fresh d ((hNew p made chain hNone hObject y hy).symm.trans hd)).2

end Recall

namespace World

/-- An object stands for an instance and has its cells to itself. What is in them has properties. -/
structure Guards (o : ObjectRef) (x : Instance) (P : Int32 → Prop) (Q : String → Prop)
    (w : World σ) : Prop where
  sound : w.Sound
  stands : w.Stands o x
  hash : Recall.hash.Guards o x P w
  text : Recall.text.Guards o x Q w

/-- Something else may happen that leaves the cells of an object alone. -/
structure Aside (o : ObjectRef) (w v : World σ) : Prop where
  hash : Recall.hash.Aside o w v
  text : Recall.text.Aside o w v

/-- From a sound world on, the cells of an object are left alone. -/
def StaysAside (o : ObjectRef) (w v : World σ) : Prop :=
  w.Sound → w.GrowsTo v ∧ v.Sound ∧ w.Aside o v

theorem StaysAside.trans (first : u.StaysAside o v) (second : v.StaysAside o w) :
    u.StaysAside o w := by
  intro hSound
  obtain ⟨hFirst, hMiddle, hThere⟩ := first hSound
  obtain ⟨hSecond, hLast, hHere⟩ := second hMiddle
  exact ⟨hFirst.trans hSecond, hLast, hThere.hash.trans hFirst hHere.hash hSecond,
    hThere.text.trans hFirst hHere.text hSecond⟩

/-- Cells may be added, for what is new. -/
theorem aside_of_gains {hash? : Option (Cell Int32)} {text? : Option (Cell String)}
    (hHashes : w.hashes.Gains v.hashes hash?) (hTexts : w.texts.Gains v.texts text?)
    (hNew : ∀ p made chain, w.object? p = none → v.object? p = some (.proxy made chain) →
      ∀ z, chain.Has z → z.hashCell? = hash? ∧ z.textCell? = text?) : w.Aside o v where
  hash := Recall.aside_of_gains hHashes fun p made chain hNone hObject z hz =>
    (hNew p made chain hNone hObject z hz).1
  text := Recall.aside_of_gains hTexts fun p made chain hNone hObject z hz =>
    (hNew p made chain hNone hObject z hz).2

/-- Nothing else counts if no object of an instance is added. -/
theorem staysAside_of_evolves (hEvolves : w.Evolves v)
    (hNew : ∀ p made chain, w.object? p = none → v.object? p = some (.proxy made chain) →
      ∀ z, ¬ chain.Has z)
    (hHashes : v.hashes = w.hashes) (hTexts : v.texts = w.texts) : w.StaysAside o v := by
  intro hSound
  obtain ⟨hGrows, hLater⟩ := hEvolves hSound
  have hSameHashes : w.hashes.Gains v.hashes none := hHashes ▸ Store.Gains.refl w.hashes
  have hSameTexts : w.texts.Gains v.texts none := hTexts ▸ Store.Gains.refl w.texts
  refine ⟨hGrows, hLater, aside_of_gains hSameHashes hSameTexts ?_⟩
  exact fun p made chain hNone hObject z hz => absurd hz (hNew p made chain hNone hObject z)

theorem staysAside_of_eq (hHierarchy : v.hierarchy = w.hierarchy)
    (hClasses : v.proxyClasses = w.proxyClasses) (hObjects : v.objects = w.objects)
    (hHashes : v.hashes = w.hashes) (hTexts : v.texts = w.texts) : w.StaysAside o v := by
  refine staysAside_of_evolves (evolves_of_eq hHierarchy hClasses hObjects) ?_ hHashes hTexts
  intro p made chain hNone hObject
  rw [object?, hObjects] at hObject
  cases hNone.symm.trans hObject

end World

/-- A proxy without instances leaves their cells alone. -/
theorem ProxyBuilder.staysAside_build (b : ProxyBuilder) (hNone : ∀ z, ¬ b.chain.Has z) :
    w.StaysAside o (b.build w).2 := by
  intro hSound
  rcases b.build_apply hSound with ⟨e, hRun⟩ | ⟨_, p, v, made, _, hRun, hYields⟩
  · rw [hRun]
    exact staysAside_of_eq rfl rfl rfl rfl rfl hSound
  · rw [hRun]
    refine staysAside_of_evolves (fun _ => ⟨hYields.growsTo, hYields.sound⟩) ?_
      hYields.cells.hashes hYields.cells.texts hSound
    intro q other chain hOld hObject
    rcases object?_of_push hYields.objects hObject with hThere | ⟨-, hOwn⟩
    · cases hOld.symm.trans hThere
    · cases hOwn
      exact hNone

/-- Building an instance leaves the cells of others alone. -/
theorem InstanceBuilder.staysAside_build (b : InstanceBuilder) : w.StaysAside o (b.build w).2 := by
  intro hSound
  rcases b.build_apply hSound with ⟨e, v, hRun, hFails⟩ | ⟨p, x, v, hRun, hYields⟩ <;> rw [hRun]
  · refine ⟨hFails.growsTo, hFails.sound, aside_of_gains hFails.hashes hFails.texts ?_⟩
    intro q made chain hOld hObject
    rw [object?, hFails.objects] at hObject
    cases hOld.symm.trans hObject
  · refine ⟨hYields.growsTo, hYields.sound, aside_of_gains hYields.hashes hYields.texts ?_⟩
    intro q made chain hOld hObject z hz
    obtain ⟨_, _, hObjects, _⟩ := hYields.object
    rcases object?_of_push hObjects hObject with hThere | ⟨-, hOwn⟩
    · cases hOld.symm.trans hThere
    · cases hOwn
      cases Chain.has_single_iff.mp hz
      exact ⟨rfl, rfl⟩

namespace World

/-- Each step of a deed leaves the cells of an object alone. -/
theorem staysAside_growth (o : ObjectRef) :
    World.Growth (StaysAside o : World σ → World σ → Prop) where
  toSteps := by
    refine .of_resembles (fun _ _ _ => .trans)
      (fun _ _ hSame => staysAside_of_eq hSame.hierarchy hSame.proxyClasses hSame.objects
        hSame.hashes hSame.texts)
      (fun w b => staysAside_of_evolves (evolves_growth.declared w b) ?_ rfl rfl)
      (fun w c hook => staysAside_of_evolves (evolves_growth.native w c hook) ?_ rfl rfl)
    · exact fun p made chain hNone hObject => by cases hNone.symm.trans hObject
    · intro p made chain hNone hObject
      rcases object?_of_push rfl hObject with hThere | ⟨-, hOwn⟩
      · cases hNone.symm.trans hThere
      · cases hOwn
  proxy b hPlain w := b.staysAside_build hPlain.values
  lazyProxy _ _ :=
    .bind (fun _ _ _ => .trans) (fun _ => staysAside_of_eq rfl rfl rfl rfl rfl) fun _ _ =>
      ProxyBuilder.staysAside_build _ fun x hx => by cases Chain.has_single_iff.mp hx
  inst b w _ := b.staysAside_build

variable {P : Int32 → Prop} {Q : String → Prop}

/-- Who an object stands for is told by its number. -/
theorem Stands.of_id {p : ObjectRef} (ho : w.Stands o x) (hSame : p.id = o.id) : w.Stands p x := by
  obtain ⟨made, hObject⟩ := ho
  refine ⟨made, ?_⟩
  rwa [object?, hSame]

theorem Guards.aside (hw : Guards o x P Q w) (hEvolves : w.Evolves v) (hAside : w.Aside o v) :
    Guards o x P Q v := by
  obtain ⟨hGrows, hSound⟩ := hEvolves hw.sound
  exact ⟨hSound, hw.stands.mono hGrows, hw.hash.aside hw.stands hAside.hash hGrows,
    hw.text.aside hw.stands hAside.text hGrows⟩

/-- An object goes on guarding its cells, whatever client code does beyond its calls. -/
theorem Guards.staysAside (hw : Guards o x P Q w) (hAside : w.StaysAside o v) :
    Guards o x P Q v := by
  obtain ⟨hGrows, hSound, hCells⟩ := hAside hw.sound
  exact hw.aside (fun _ => ⟨hGrows, hSound⟩) hCells

/-- Where only cells of instances are filled, the object guards its cells if each kind is guarded.
-/
theorem Guards.of_eq {P' : Int32 → Prop} {Q' : String → Prop} (hw : Guards o x P Q w)
    (hHierarchy : v.hierarchy = w.hierarchy) (hClasses : v.proxyClasses = w.proxyClasses)
    (hObjects : v.objects = w.objects) (hHash : Recall.hash.Guards o x P' v)
    (hText : Recall.text.Guards o x Q' v) : Guards o x P' Q' v := by
  obtain ⟨hGrows, hSound⟩ := evolves_of_eq hHierarchy hClasses hObjects hw.sound
  exact ⟨hSound, hw.stands.mono hGrows, hHash, hText⟩

end World

end Metaobject
