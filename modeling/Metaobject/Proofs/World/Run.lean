import Metaobject.World

/-!
Laws of computations in the world: what each way of building one does to the world it is run in, and
which of them leave the classes, the settings and the objects alone.
-/
namespace Metaobject

variable {ε δ σ α β : Type}

namespace Run

variable {x : Run ε σ α} {w v : World σ}

theorem pure_apply (a : α) (w : World σ) : (pure a : Run ε σ α) w = (.ok a, w) := rfl

theorem get_apply (w : World σ) : (get : Run ε σ (World σ)) w = (.ok w, w) := rfl

theorem hierarchy_apply (w : World σ) : (hierarchy : Run ε σ Hierarchy) w = (.ok w.hierarchy, w) :=
  rfl

theorem modify_apply (f : World σ → World σ) (w : World σ) :
    (modify f : Run ε σ PUnit) w = (.ok ⟨⟩, f w) := rfl

/-- A computation that yields a value hands it on. -/
theorem bind_ok {f : α → Run ε σ β} {a : α} (hx : x w = (.ok a, v)) : (x >>= f) w = f a v := by
  show ExceptT.bindCont f (x w).1 (x w).2 = f a v
  rw [hx]
  rfl

/-- A computation that stops leaves out what was to follow. -/
theorem bind_error {f : α → Run ε σ β} {e : Stop ε} (hx : x w = (.error e, v)) :
    (x >>= f) w = (.error e, v) := by
  show ExceptT.bindCont f (x w).1 (x w).2 = (.error e, v)
  rw [hx]
  rfl

/-- What follows depends only on the outcome so far. -/
theorem bind_congr_apply {y : Run ε σ α} {f : α → Run ε σ β} (hSame : x w = y v) :
    (x >>= f) w = (y >>= f) v := by
  show ExceptT.bindCont f (x w).1 (x w).2 = ExceptT.bindCont f (y v).1 (y v).2
  rw [hSame]

/-- What yields a value has yielded one at each step. -/
theorem exists_of_bind_ok {f : α → Run ε σ β} {b : β} {u : World σ}
    (hBind : (x >>= f) w = (.ok b, u)) : ∃ a v, x w = (.ok a, v) ∧ f a v = (.ok b, u) := by
  rcases hx : x w with ⟨_ | a, v⟩
  · rw [bind_error hx] at hBind
    cases hBind
  · rw [bind_ok hx] at hBind
    exact ⟨a, v, rfl, hBind⟩

theorem attempt_ok {a : α} (hx : x w = (.ok a, v)) :
    (attempt x : Run δ σ (Except ε α)) w = (.ok (.ok a), v) := by
  rw [attempt, hx]

theorem attempt_raised {e : ε} (hx : x w = (.error (.raised e), v)) :
    (attempt x : Run δ σ (Except ε α)) w = (.ok (.error e), v) := by
  rw [attempt, hx]

theorem attempt_exhausted (hx : x w = (.error .exhausted, v)) :
    (attempt x : Run δ σ (Except ε α)) w = (.error .exhausted, v) := by
  rw [attempt, hx]

theorem mapError_ok {f : ε → δ} {a : α} (hx : x w = (.ok a, v)) :
    mapError f x w = (.ok a, v) :=
  bind_ok (attempt_ok hx)

theorem mapError_raised {f : ε → δ} {e : ε} (hx : x w = (.error (.raised e), v)) :
    mapError f x w = (.error (.raised (f e)), v) :=
  bind_ok (attempt_raised hx)

theorem mapError_exhausted {f : ε → δ} (hx : x w = (.error .exhausted, v)) :
    mapError f x w = (.error .exhausted, v) :=
  bind_error (attempt_exhausted hx)

theorem ok_of_ofExcept {wrap : δ → ε} {r : Except δ α} {a : α}
    (hRun : (ofExcept wrap r : Run ε σ α) w = (.ok a, v)) : r = .ok a ∧ v = w := by
  cases r with
  | error e => cases hRun
  | ok b =>
      cases hRun
      exact ⟨rfl, rfl⟩

theorem ofExcept_snd (wrap : δ → ε) (r : Except δ α) (w : World σ) :
    ((ofExcept wrap r : Run ε σ α) w).2 = w := by
  cases r <;> rfl

/-- A computation that passes errors on changes the world as the one that it runs. -/
theorem mapError_snd (f : ε → δ) (x : Run ε σ α) (w : World σ) : (mapError f x w).2 = (x w).2 := by
  rcases hx : x w with ⟨_ | a, v⟩
  · next e =>
      cases e with
      | raised e => rw [mapError_raised hx]
      | exhausted => rw [mapError_exhausted hx]
  · rw [mapError_ok hx]

end Run

namespace Shelf

variable {k : Shelf σ β} {cell : Cell β} {b : β} {x : Run ε σ β} {w v : World σ}

/-- What is kept is given as it is. -/
theorem once_of_some (hRead : (k.store w).read cell = some b) :
    k.once cell x w = (.ok b, w) := by
  rw [once, Run.bind_ok (Run.get_apply w), hRead]
  rfl

/-- A failure is passed on as it is, and nothing is kept of it. -/
theorem once_of_error (hRead : (k.store w).read cell = none) {e : Stop ε}
    (hx : x w = (.error e, v)) : k.once cell x w = (.error e, v) := by
  rw [once, Run.bind_ok (Run.get_apply w), hRead]
  exact Run.bind_error hx

theorem once_of_ok (hRead : (k.store w).read cell = none) (hx : x w = (.ok b, v)) :
    k.once cell x w = k.keep cell b v := by
  rw [once, Run.bind_ok (Run.get_apply w), hRead]
  exact Run.bind_ok hx

/-- What has been computed is kept if nothing else has been meanwhile. -/
theorem keep_of_none (hRead : (k.store w).read cell = none) :
    (k.keep cell b : Run ε σ β) w = (.ok b, k.put ((k.store w).fill cell b) w) := by
  rw [keep, Run.bind_ok (Run.get_apply w), hRead]
  rfl

theorem keep_of_some {c : β} (hRead : (k.store w).read cell = some c) :
    (k.keep cell b : Run ε σ β) w = (.error .exhausted, w) := by
  rw [keep, Run.bind_ok (Run.get_apply w), hRead]
  rfl

/-- What is given has been kept before, or has been computed now and is kept. -/
theorem eq_of_once_ok (hOnce : k.once cell x w = (.ok b, v)) :
    v = w ∧ (k.store w).read cell = some b ∨
      ∃ u, x w = (.ok b, u) ∧ (k.store u).read cell = none ∧
        v = k.put ((k.store u).fill cell b) u := by
  cases hRead : (k.store w).read cell with
  | some c =>
      cases (once_of_some hRead).symm.trans hOnce
      exact .inl ⟨rfl, rfl⟩
  | none =>
      rcases hx : x w with ⟨e | c, u⟩
      · cases (once_of_error hRead hx).symm.trans hOnce
      · have hKeep := (once_of_ok hRead hx).symm.trans hOnce
        cases hStill : (k.store u).read cell with
        | some d => cases (keep_of_some hStill).symm.trans hKeep
        | none =>
            cases (keep_of_none hStill).symm.trans hKeep
            exact .inr ⟨u, rfl, hStill, rfl⟩

/-- What is given depends only on what computing it comes to. -/
theorem once_congr {y : Run ε σ β} (hSame : x w = y w) : k.once cell x w = k.once cell y w := by
  rw [once, once, Run.bind_ok (Run.get_apply w), Run.bind_ok (Run.get_apply w)]
  cases (k.store w).read cell with
  | some b => rfl
  | none => exact Run.bind_congr_apply hSame

end Shelf

namespace Run

/-- However it ends, a computation leaves behind a world that is related to the world before. -/
def Keeps (R : World σ → World σ → Prop) (x : Run ε σ α) : Prop :=
  ∀ w : World σ, R w (x w).2

variable {R : World σ → World σ → Prop}

theorem Keeps.bind (hTrans : ∀ u v w, R u v → R v w → R u w) {x : Run ε σ α}
    {f : α → Run ε σ β} (hx : Keeps R x) (hf : ∀ a, Keeps R (f a)) : Keeps R (x >>= f) := by
  intro w
  have hFirst := hx w
  rcases hRun : x w with ⟨_ | a, v⟩
  · rw [bind_error hRun]
    rwa [hRun] at hFirst
  · rw [bind_ok hRun]
    rw [hRun] at hFirst
    exact hTrans _ _ _ hFirst (hf a v)

theorem Keeps.ofExcept (hRefl : ∀ w, R w w) (wrap : δ → ε) (r : Except δ α) :
    Keeps R (ofExcept wrap r : Run ε σ α) := by
  cases r with
  | ok a => exact hRefl
  | error e => exact hRefl

theorem Keeps.attempt {x : Run ε σ α} (hx : Keeps R x) :
    Keeps R (attempt x : Run δ σ (Except ε α)) := by
  intro w
  have hFirst := hx w
  rcases hRun : x w with ⟨_ | a, v⟩ <;> rw [hRun] at hFirst
  · next e =>
      cases e with
      | raised e => rwa [attempt_raised hRun]
      | exhausted => rwa [attempt_exhausted hRun]
  · rwa [attempt_ok hRun]

theorem Keeps.mapError {x : Run ε σ α} (hx : Keeps R x) (f : ε → δ) : Keeps R (mapError f x) := by
  intro w
  rw [mapError_snd]
  exact hx w

/-- However it ends, a computation leads from a world with a property to a world with it. -/
abbrev Maintains (I : World σ → Prop) (x : Run ε σ α) : Prop :=
  Keeps (fun w v => I w → I v) x

end Run

/-- Two worlds with the same classes, settings and objects. Cells and the state of the client may be
others. -/
structure World.Steady (w v : World σ) : Prop where
  hierarchy : v.hierarchy = w.hierarchy
  settings? : v.settings? = w.settings?
  proxyClasses : v.proxyClasses = w.proxyClasses
  nextProxy : v.nextProxy = w.nextProxy
  objects : v.objects = w.objects

theorem World.Steady.refl (w : World σ) : w.Steady w := ⟨rfl, rfl, rfl, rfl, rfl⟩

theorem World.Steady.trans {u v w : World σ} (first : u.Steady v) (second : v.Steady w) :
    u.Steady w :=
  ⟨second.hierarchy.trans first.hierarchy, second.settings?.trans first.settings?,
    second.proxyClasses.trans first.proxyClasses, second.nextProxy.trans first.nextProxy,
    second.objects.trans first.objects⟩

end Metaobject
