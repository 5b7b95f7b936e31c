import Metaobject.Proofs.Proxy
import Metaobject.Proofs.World.Agreement

/-!
Growing worlds. Whatever client code has the library do beyond calls comes down to a few steps: a
class is declared, settings are fixed, an object of some kind is made, or cells of handlers change.
So what is true of these steps is true of all deeds, in the midst of calls or not.
-/
namespace Metaobject

variable {ε σ α β : Type} {R : World σ → World σ → Prop}

/-- An instance is among the handlers that a handler consists of. -/
def Handler.Has (inst : Instance) (x : Handler) : Prop :=
  PartOf (.values inst) x

/-- An instance is among the handlers of a chain. -/
def Chain.Has (k : Chain) (inst : Instance) : Prop :=
  k.Includes (.values inst)

theorem Chain.includes_single_iff {x y : Handler} :
    (Chain.single x).Includes y ↔ y.PartOf x ∨ y = .unhandled := by
  constructor
  · rintro (⟨z, hz, hPart⟩ | hLast)
    · exact .inl (List.mem_singleton.mp hz ▸ hPart)
    · cases hLast
      exact .inr rfl
  · rintro (hPart | rfl)
    · exact .inl ⟨x, List.mem_singleton_self x, hPart⟩
    · exact .inr .self

theorem Chain.has_single_iff {x : Handler} {inst : Instance} :
    (Chain.single x).Has inst ↔ x.Has inst := by
  rw [Has, includes_single_iff]
  simp [Handler.Has]

namespace Handler

theorem areOpen_iff {xs : List Handler} : areOpen xs = true ↔ ∀ x ∈ xs, x.isOpen = true := by
  induction xs with
  | nil => simp [areOpen]
  | cons x xs ih => simp [areOpen, ih]

theorem areOpenBound_iff {bs : List (MethodRef × Handler)} :
    areOpenBound bs = true ↔ ∀ b ∈ bs, b.2.isOpen = true := by
  induction bs with
  | nil => simp [areOpenBound]
  | cons b bs ih =>
      obtain ⟨m, x⟩ := b
      simp [areOpenBound, isOpenBound, ih]

/-- The parts of what client code may put together may be put together, too. -/
theorem PartOf.isOpen {x y : Handler} (hPart : PartOf y x) (hx : x.isOpen = true) :
    y.isOpen = true := by
  induction hPart with
  | self => exact hx
  | handler hMem _ ih =>
      rw [Handler.isOpen, Bool.and_eq_true] at hx
      exact ih (areOpen_iff.mp hx.1 _ hMem)
  | last _ ih =>
      rw [Handler.isOpen, Bool.and_eq_true] at hx
      exact ih hx.2
  | bound hMem _ ih =>
      rw [Handler.isOpen, Bool.and_eq_true] at hx
      exact ih (areOpenBound_iff.mp hx.1 _ hMem)
  | unbound _ ih =>
      rw [Handler.isOpen, Bool.and_eq_true] at hx
      exact ih hx.2

end Handler

theorem Chain.Includes.isOpen {k : Chain} {y : Handler} (hy : k.Includes y)
    (hk : k.isOpen = true) : y.isOpen = true := by
  rw [Chain.isOpen, Bool.and_eq_true] at hk
  rcases hy with ⟨x, hx, hPart⟩ | hLast
  · exact hPart.isOpen (Handler.areOpen_iff.mp hk.1 x hx)
  · exact hLast.isOpen hk.2

/-- The chain has no cells that instances or lazy handlers fill. -/
structure Chain.Plain (k : Chain) : Prop where
  values : ∀ inst, ¬ k.Has inst
  lazies : ∀ hook cell, ¬ k.Includes (.lazy hook cell)

theorem Chain.plain_of_isOpen {k : Chain} (hk : k.isOpen = true) : k.Plain where
  values _ hHas := by cases hHas.isOpen hk
  lazies _ _ hLazy := by cases hLazy.isOpen hk

theorem Chain.plain_record (cell : Cell MethodRef) : (Chain.single (.record cell)).Plain where
  values _ hHas := by cases has_single_iff.mp hHas
  lazies _ _ hLazy := by
    rcases includes_single_iff.mp hLazy with hPart | hLast
    · cases hPart
    · cases hLast

/-- A relation between the worlds before and after, however many steps are taken that make neither
proxies nor instances. -/
structure World.Steps (R : World σ → World σ → Prop) : Prop where
  refl : ∀ w, R w w
  trans : ∀ u v w, R u v → R v w → R u w
  state : ∀ w state, R w { w with client := state }
  settings : ∀ w, R w { w with settings? := some w.settings }
  installed : ∀ w s, s.validate = .ok () → w.settings? = none → R w { w with settings? := some s }
  firstMethods : ∀ w firstMethods, R w { w with firstMethods }
  newTarget : ∀ w t, R w { w with targets := w.targets.fresh.2.fill w.targets.fresh.1 t }
  swapped : ∀ w cell t, R w { w with targets := w.targets.fill cell t }
  declared : ∀ w (b : ClassBuilder), R w { w with hierarchy := (w.hierarchy.define b).1 }
  native : ∀ w c hook, R w (w.allocate c (.native hook)).2

/-- Two worlds with the same classes and objects, and with the same in the cells that are filled
once. The state of the client, the settings, targets and methods recorded may be others. -/
structure World.Resembles (w v : World σ) : Prop where
  hierarchy : v.hierarchy = w.hierarchy
  proxyClasses : v.proxyClasses = w.proxyClasses
  objects : v.objects = w.objects
  lazies : v.lazies = w.lazies
  hashes : v.hashes = w.hashes
  texts : v.texts = w.texts

/-- Most of these steps only change what worlds that resemble each other need not share. -/
theorem World.Steps.of_resembles (hTrans : ∀ u v w, R u v → R v w → R u w)
    (hResembles : ∀ w v, w.Resembles v → R w v)
    (hDeclared : ∀ w (b : ClassBuilder), R w { w with hierarchy := (w.hierarchy.define b).1 })
    (hNative : ∀ w c hook, R w (w.allocate c (.native hook)).2) : Steps R where
  refl _ := hResembles _ _ ⟨rfl, rfl, rfl, rfl, rfl, rfl⟩
  trans := hTrans
  state _ _ := hResembles _ _ ⟨rfl, rfl, rfl, rfl, rfl, rfl⟩
  settings _ := hResembles _ _ ⟨rfl, rfl, rfl, rfl, rfl, rfl⟩
  installed _ _ _ _ := hResembles _ _ ⟨rfl, rfl, rfl, rfl, rfl, rfl⟩
  firstMethods _ _ := hResembles _ _ ⟨rfl, rfl, rfl, rfl, rfl, rfl⟩
  newTarget _ _ := hResembles _ _ ⟨rfl, rfl, rfl, rfl, rfl, rfl⟩
  swapped _ _ _ := hResembles _ _ ⟨rfl, rfl, rfl, rfl, rfl, rfl⟩
  declared := hDeclared
  native := hNative

/-- A relation that holds over steps of the kinds that client code takes beyond its calls. -/
structure World.Growth (R : World σ → World σ → Prop) : Prop extends World.Steps R where
  proxy : ∀ b : ProxyBuilder, b.chain.Plain → Run.Keeps R b.build
  lazyProxy : ∀ c hook, Run.Keeps R (LazyProxy.create c hook)
  inst : ∀ (b : InstanceBuilder) w, b.isKnown w = true → R w (b.build w).2

theorem Settings.keeps_current (hSettings : ∀ w, R w { w with settings? := some w.settings }) :
    Run.Keeps R (Settings.current : Run ε σ Settings) := by
  intro w
  rw [Settings.current_apply]
  exact hSettings w

namespace World.Growth

variable (hR : World.Growth R)

include hR

theorem bind {x : Run ε σ α} {f : α → Run ε σ β} (hx : x.Keeps R) (hf : ∀ a, (f a).Keeps R) :
    (x >>= f).Keeps R :=
  .bind hR.trans hx hf

theorem ofExcept {δ : Type} (wrap : δ → ε) (r : Except δ α) :
    (Run.ofExcept wrap r : Run ε σ α).Keeps R :=
  .ofExcept hR.refl wrap r

theorem install (s : Settings) : (s.install : Run SettingsError σ Unit).Keeps R := by
  intro w
  rcases s.install_apply w with ⟨e, hFails⟩ | ⟨hValid, hOpen, hFixes⟩
  · rw [hFails]
    exact hR.refl w
  · rw [hFixes]
    exact hR.installed w s hValid hOpen

theorem recorder (c : ClassId) : (recorder c : Run ProxyError σ _).Keeps R :=
  hR.bind (fun w => hR.firstMethods w _) fun cell =>
    hR.bind (hR.proxy _ (Chain.plain_record cell)) fun _ => hR.refl

theorem buildInstance (c : ClassId) (values : List (String × Value)) :
    (Deed.buildInstance c values : Run ε σ _).Keeps R := by
  intro w
  rw [Deed.buildInstance, Run.bind_ok (Run.get_apply w)]
  cases InstanceBuilder.filled w.hierarchy c values with
  | error e => exact hR.refl w
  | ok b =>
      dsimp only
      split
      · next hKnown =>
          have hBuild : Run.Keeps (fun v z => v = w → R v z) b.build := by
            rintro _ rfl
            exact hR.inst b _ hKnown
          exact hBuild.attempt w rfl
      · exact hR.refl w

/-- Every deed is made of these steps. -/
theorem deed (d : Deed) : (d.run : Run ε σ d.Result).Keeps R := by
  cases d with
  | declare b => exact fun w => hR.declared w b
  | currentSettings => exact Settings.keeps_current hR.settings
  | install s => exact (hR.install s).attempt
  | newNative c hook => exact fun w => hR.native w c hook
  | newProxy b hOpen => exact (hR.proxy b (Chain.plain_of_isOpen hOpen)).attempt
  | newLazyProxy c hook => exact (hR.lazyProxy c hook).attempt
  | newInstance c values => exact hR.buildInstance c values
  | newTarget target => exact fun w => hR.newTarget w target
  | currentTarget cell => exact hR.refl
  | swapTarget cell target => exact fun w => hR.swapped w cell target
  | newRecorder c => exact (hR.recorder c).attempt
  | recorded cell => exact hR.refl

/-- What is related to a world stays related to it, whatever client code does beyond its calls. -/
theorem untouched (w : World σ) : World.Untouched (R w) where
  state v s hv := hR.trans _ _ _ hv (hR.state v s)
  deeds d v hv := hR.trans _ _ _ hv (hR.deed d v)

end World.Growth

end Metaobject
