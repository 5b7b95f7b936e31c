import Metaobject.Proofs.World.Evolution

/-!
What happens elsewhere while there is a lazy proxy. Client code that runs meanwhile, the initializer
itself among it, may have classes declared and objects made, lazy proxies too. None of that reaches
the cell of the proxy, since whatever is made has cells that are new, or none.
-/
namespace Metaobject

variable {σ : Type} {u v w : World σ} {o : ObjectRef}

namespace World

/-- What else may happen while there is a lazy proxy: classes, objects and cells are added, and
other cells and the state of the client change. An object that is added has none of the cells that
have been there before. -/
structure Elsewhere (o : ObjectRef) (w v : World σ) : Prop where
  growsTo : w.GrowsTo v
  sound : w.Sound → v.Sound
  held : ∀ cell, w.lazies.Holds cell → v.lazies.Holds cell
  read : ∀ made hook cell, w.object? o = some (.proxy made (.single (.lazy hook cell))) →
    v.lazies.read cell = w.lazies.read cell
  added : ∀ p made chain, w.object? p = none → v.object? p = some (.proxy made chain) →
    ∀ hook cell, chain.Includes (.lazy hook cell) → ¬ w.lazies.Holds cell

theorem Elsewhere.refl (o : ObjectRef) (w : World σ) : Elsewhere o w w where
  growsTo := .refl w
  sound := id
  held _ := id
  read _ _ _ _ := rfl
  added p made chain hNone hObject := by cases hNone.symm.trans hObject

theorem Elsewhere.trans (first : Elsewhere o u v) (second : Elsewhere o v w) : Elsewhere o u w where
  growsTo := first.growsTo.trans second.growsTo
  sound := second.sound ∘ first.sound
  held cell hc := second.held cell (first.held cell hc)
  read made hook cell ho :=
    (second.read made hook cell (first.growsTo.object? ho)).trans (first.read made hook cell ho)
  added p made chain hNone hObject hook cell hIncludes hHolds := by
    cases hBetween : v.object? p with
    | none =>
        exact second.added p made chain hBetween hObject hook cell hIncludes
          (first.held cell hHolds)
    | some d =>
        cases (second.growsTo.object? hBetween).symm.trans hObject
        exact first.added p made chain hNone hBetween hook cell hIncludes hHolds

/-- Among all that, objects of the client are made. -/
theorem elsewhere_native (o : ObjectRef) (w : World σ) (c : ClassId) (hook : Hook) :
    Elsewhere o w (w.allocate c (.native hook)).2 where
  growsTo := w.growsTo_allocate c _
  sound := fun hSound => hSound.allocate c fun made chain hEq => by cases hEq
  held _ := id
  read _ _ _ _ := rfl
  added p made chain hNew hObject := by
    rcases object?_of_push rfl hObject with hOld | ⟨-, hOwn⟩
    · cases hNew.symm.trans hOld
    · cases hOwn

/-- All that has happened since a sound world is elsewhere. -/
def StaysElsewhere (o : ObjectRef) (w v : World σ) : Prop :=
  w.Sound → Elsewhere o w v

/-- Where no object is added, the cells of lazy proxies are all that counts. -/
theorem staysElsewhere_of_evolves (hEvolves : w.Evolves v) (hObjects : v.objects = w.objects)
    (hLazies : v.lazies = w.lazies) : StaysElsewhere o w v := fun hSound => {
  growsTo := (hEvolves hSound).1
  sound := fun _ => (hEvolves hSound).2
  held := fun cell hc => hLazies ▸ hc
  read := fun _ _ _ _ => by rw [hLazies]
  added := fun p made chain hNone hObject => by
    rw [object?, hObjects] at hObject
    cases hNone.symm.trans hObject }

end World

open World

/-- A proxy may be made if the cells of its lazy handlers are new. There may be new cells in other
stores, too. -/
theorem ProxyBuilder.staysElsewhere_build (b : ProxyBuilder) {new? : Option (Cell ObjectRef)}
    (hHierarchy : u.hierarchy = w.hierarchy) (hClasses : u.proxyClasses = w.proxyClasses)
    (hObjects : u.objects = w.objects) (hLazies : w.lazies.Gains u.lazies new?)
    (hNew : ∀ hook cell, b.chain.Includes (.lazy hook cell) → new? = some cell) :
    StaysElsewhere o w (b.build u).2 := by
  intro hSound
  obtain ⟨hGrows, hReady⟩ := evolves_of_eq hHierarchy hClasses hObjects hSound
  rcases b.build_apply hReady with ⟨e, hRun⟩ | ⟨_, p, v, made, _, hRun, hYields⟩ <;> rw [hRun]
  · refine ⟨hGrows, fun _ => hReady, hLazies.held, fun _ _ cell _ => hLazies.read cell, ?_⟩
    intro q other chain hNone hObject
    rw [object?, hObjects] at hObject
    cases hNone.symm.trans hObject
  · refine ⟨hGrows.trans hYields.growsTo, fun _ => hYields.sound, ?_, ?_, ?_⟩
    · rw [hYields.cells.lazies]
      exact hLazies.held
    · rw [hYields.cells.lazies]
      exact fun _ _ cell _ => hLazies.read cell
    · intro q other chain hNone hObject hook cell hIncludes
      rcases object?_of_push (hObjects ▸ hYields.objects) hObject with hOld | ⟨-, hOwn⟩
      · cases hNone.symm.trans hOld
      · cases hOwn
        exact (hLazies.fresh cell (hNew hook cell hIncludes)).2

/-- All that client code has the library do happens elsewhere. -/
theorem World.staysElsewhere_growth (o : ObjectRef) :
    World.Growth (StaysElsewhere o : World σ → World σ → Prop) where
  toSteps := by
    refine .of_resembles
      (fun u v w first second hSound => (first hSound).trans (second ((first hSound).sound hSound)))
      (fun w v hSame => staysElsewhere_of_evolves ?_ hSame.objects hSame.lazies)
      (fun w b => staysElsewhere_of_evolves (evolves_growth.declared w b) rfl rfl)
      (fun w c hook _ => elsewhere_native o w c hook)
    exact evolves_of_eq hSame.hierarchy hSame.proxyClasses hSame.objects
  proxy b hPlain w := b.staysElsewhere_build rfl rfl rfl (.refl _) fun hook cell hIncludes =>
    absurd hIncludes (hPlain.lazies hook cell)
  lazyProxy c hook w := by
    rw [LazyProxy.create_eq]
    refine ProxyBuilder.staysElsewhere_build _ rfl rfl rfl w.lazies.gains_fresh
      fun other cell hIncludes => ?_
    rcases Chain.includes_single_iff.mp hIncludes with hPart | hLast
    · cases hPart
      rfl
    · cases hLast
  inst b w _ := by
    cases hMissing : b.missing.isEmpty with
    | true =>
        obtain ⟨hash?, text?, hashes, texts, hRun, -, -⟩ := b.build_eq hMissing w
        rw [hRun, Run.mapError_snd]
        refine ProxyBuilder.staysElsewhere_build _ rfl rfl rfl (.refl _)
          fun hook cell hIncludes => ?_
        rcases Chain.includes_single_iff.mp hIncludes with hPart | hLast
        · cases hPart
        · cases hLast
    | false =>
        rw [InstanceBuilder.build, hMissing]
        exact fun _ => .refl o w

end Metaobject
