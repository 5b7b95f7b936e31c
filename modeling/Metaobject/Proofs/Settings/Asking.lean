import Metaobject.Proofs.Proxy.Classes
import Metaobject.Proofs.World.Restraint

/-!
What asks for the settings, and what does not. The making of a proxy that is not refused and the
building of an instance that misses no member ask for the settings before these matter, so they run
as if the settings had been fixed before. What is refused and what is missing a member asks for
nothing.
-/
namespace Metaobject

variable {ε σ α : Type} {client : Client σ} {v w : World σ}

open World

/-- The world with the settings fixed that a question for them would fix. -/
def World.fixed (w : World σ) : World σ :=
  { w with settings? := some w.settings }

/-- A computation asks for the settings before they matter: it runs as if they were fixed. -/
def Run.Asks (w : World σ) (x : Run ε σ α) : Prop :=
  x w = x w.fixed

namespace Run.Asks

variable {x : Run ε σ α}

theorem bind {β : Type} (hx : Asks w x) (f : α → Run ε σ β) : Asks w (x >>= f) :=
  Run.bind_congr_apply hx

/-- What comes before may change anything but the settings. -/
theorem after {β : Type} {v : World σ} {a : α} {f : α → Run ε σ β} (hx : x w = (.ok a, v))
    (hFixed : x w.fixed = (.ok a, v.fixed)) (hf : Asks v (f a)) : Asks w (x >>= f) := by
  rw [Asks, Run.bind_ok hx, Run.bind_ok hFixed]
  exact hf

theorem mapError {δ : Type} (hx : Asks w x) (f : ε → δ) : Asks w (Run.mapError f x) := by
  have hAttempt : Asks w (Run.attempt x : Run δ σ (Except ε α)) := by
    rw [Asks, Run.attempt, Run.attempt, hx]
  exact hAttempt.bind _

theorem current : Asks w (Settings.current : Run ε σ Settings) := by
  rw [Asks, Settings.current_apply, Settings.current_apply]
  rfl

end Run.Asks

theorem ProxyBuilder.build_eq_of_accepted {b : ProxyBuilder}
    (hAccepted : refusal? w.hierarchy b.contracts = none) :
    b.build w = (ProxyClass.forContracts b.contracts.eraseDups >>= fun made =>
      Run.newObject made.cls (.proxy made b.chain)) w := by
  have hSome : b.contracts.isEmpty = false := by
    cases hContracts : b.contracts with
    | nil =>
        rw [hContracts] at hAccepted
        cases hAccepted
    | cons c rest => rfl
  rw [build, hSome, if_neg Bool.false_ne_true, Run.bind_ok (Run.hierarchy_apply w),
    checkContracts_of_not_refused hAccepted]
  rfl

theorem ProxyBuilder.asks_build {b : ProxyBuilder}
    (hAccepted : refusal? w.hierarchy b.contracts = none) : Run.Asks w b.build := by
  rw [Run.Asks, build_eq_of_accepted hAccepted, build_eq_of_accepted (w := w.fixed) hAccepted]
  exact (Run.Asks.current.bind _).bind _

theorem InstanceBuilder.asks_build {b : InstanceBuilder} (hMissing : b.missing.isEmpty = true) :
    Run.Asks w b.build := by
  rw [build, if_pos hMissing]
  exact Run.Asks.current.bind _

/-- The making of a proxy, refused or not, leaves fixed settings as they are. -/
theorem ProxyBuilder.settings?_build (b : ProxyBuilder) {s : Settings} (hSound : w.Sound)
    (hFixed : w.settings? = some s) : (b.build w).2.settings? = some s := by
  cases hRefusal : refusal? w.hierarchy b.contracts with
  | some e => rw [build_of_refused hRefusal, hFixed]
  | none =>
      obtain ⟨o, v, made, hRun, -, -, hSettings⟩ := b.build_of_accepted hSound hRefusal
      rw [hRun, hSettings, World.settings, hFixed]
      rfl

theorem Run.Asks.recorder {c : ClassId}
    (hAccepted : ProxyBuilder.refusal? w.hierarchy [c] = none) : Run.Asks w (recorder c) :=
  .after rfl rfl ((ProxyBuilder.asks_build (w := { w with firstMethods := _ }) hAccepted).bind _)

namespace Settings

/-- What asks for the settings in effect: a question for them, the making of a proxy that is not
refused, and the building of an instance that misses no member. -/
inductive Reads (client : Client σ) (w : World σ) : {ε α : Type} → Run ε σ α → Prop where
  | current {τ : Type} : Reads client w (Settings.current : Run τ σ Settings)
  | creates {ε α : Type} {wrap : ProxyError → ε} {contracts : List ClassId}
      {after : ObjectRef → World σ → World σ} {x : Run ε σ α}
      (hx : Creates client w wrap contracts after x)
      (hAccepted : ProxyBuilder.refusal? w.hierarchy contracts = none) : Reads client w x
  | builds (b : InstanceBuilder) (hMissing : b.missing.isEmpty = true) : Reads client w b.build

/-- Whatever asks for the settings runs as if they were fixed. -/
theorem Reads.asks {x : Run ε σ α} (hx : Reads client w x) : Run.Asks w x := by
  cases hx with
  | current => exact .current
  | builds b hMissing => exact InstanceBuilder.asks_build hMissing
  | creates hx hAccepted =>
      cases hx with
      | proxy b => exact ProxyBuilder.asks_build hAccepted
      | lazy c initializer =>
          exact .after rfl rfl (ProxyBuilder.asks_build (w := { w with lazies := _ }) hAccepted)
      | dispatcher d c => exact ProxyBuilder.asks_build hAccepted
      | built b hMissing => exact InstanceBuilder.asks_build hMissing
      | @marker c b hOf hMarker =>
          refine .after (Run.hierarchy_apply w) (Run.hierarchy_apply w.fixed) ?_
          rw [hOf]
          refine .after rfl rfl ?_
          rw [if_pos hMarker]
          exact InstanceBuilder.asks_build (by
            rw [InstanceBuilder.missing, List.isEmpty_iff.mp hMarker]
            rfl)
      | extractor depth c script => exact (Run.Asks.recorder hAccepted).bind _
      | selector depth b script v =>
          exact (((((Run.Asks.recorder hAccepted).bind _).mapError _).bind _).bind _)

/-- A world is left as it is, unless client code goes on with an object that has been made. -/
def Follows (client : Client σ) (v z : World σ) : Prop :=
  z = v ∨ ∃ depth script o, z = afterCode client depth script o v

theorem follows_after {wrap : ProxyError → ε} {contracts : List ClassId}
    {after : ObjectRef → World σ → World σ} {x : Run ε σ α}
    (hx : Creates client w wrap contracts after x) (o : ObjectRef) (v : World σ) :
    Follows client v (after o v) := by
  cases hx with
  | extractor depth c script => exact .inr ⟨depth, script, o, rfl⟩
  | selector depth b script a => exact .inr ⟨depth, script, o, rfl⟩
  | _ => exact .inl rfl

/-- Whatever asks for the settings leaves them fixed, and has done nothing before. Client code may
follow where a method is extracted. -/
theorem Reads.follows {x : Run ε σ α} (hx : Reads client w x) (hSound : w.Sound) :
    ∃ v, w.fixed.Evolves v ∧ v.settings? = some w.settings ∧ Follows client v (x w).2 := by
  cases hx with
  | current =>
      rw [Settings.current_apply]
      exact ⟨_, .refl _, rfl, .inl rfl⟩
  | builds b hMissing =>
      refine ⟨(b.build w).2, ?_, ?_, .inl rfl⟩
      · rw [InstanceBuilder.asks_build hMissing]
        exact evolves_growth.buildInstance b w.fixed
      · obtain ⟨hash?, text?, hashes, texts, hRun, -⟩ := b.build_eq hMissing w
        rw [hRun, Run.mapError_snd]
        exact ProxyBuilder.settings?_build _ (hSound.mono (.refl _) rfl rfl) rfl
  | creates hx hAccepted =>
      obtain ⟨b, u, hContracts, hPrepared, -, hOk⟩ := hx.makes
      obtain ⟨-, hReady⟩ := hPrepared.beside.evolves hSound
      rw [← hPrepared.hierarchy, ← hContracts] at hAccepted
      obtain ⟨o, v, made, hRun, -, -, hFixed⟩ := b.build_of_accepted hReady hAccepted
      refine ⟨v, ?_, hPrepared.settings ▸ hFixed, hOk o v hRun ▸ follows_after hx o v⟩
      have hBefore : w.fixed.Evolves u.fixed :=
        evolves_of_eq hPrepared.hierarchy hPrepared.proxyClasses hPrepared.objects
      have hBuild := b.evolves_build u.fixed
      rw [← ProxyBuilder.asks_build hAccepted, hRun] at hBuild
      exact hBefore.trans hBuild

end Settings

/-- A deed that has nothing to do with the settings: it makes no proxy, but may add classes, objects
of the client and targets, and swap these. -/
def Deed.Quiet : Deed → Prop
  | declare _ | newNative .. | newTarget _ | currentTarget _ | swapTarget .. | recorded _ => True
  | _ => False

theorem Deed.settings?_run {d : Deed} (hd : d.Quiet) (w : World σ) :
    ((d.run : Run ε σ d.Result) w).2.settings? = w.settings? := by
  cases d with
  | declare | newNative | newTarget | currentTarget | swapTarget | recorded => rfl
  | _ => exact hd.elim

theorem World.spared_settings (w : World σ) :
    World.Spared Deed.Quiet fun v : World σ => v.settings? = w.settings? where
  state _ _ hv := hv
  lazies _ _ hv := hv
  hashes _ _ hv := hv
  texts _ _ hv := hv
  firstMethods _ _ hv := hv
  deeds _ hd v hv := (Deed.settings?_run hd v).trans hv

/-- What leaves the settings alone: quiet deeds, the making of a proxy that is refused, the building
of an instance that misses a member, and calls of client code that does only quiet deeds. -/
inductive Settings.Ignores (client : Client σ) (w : World σ) : {ε α : Type} → Run ε σ α → Prop where
  | deed {τ : Type} (d : Deed) (hd : d.Quiet) : Ignores client w (d.run : Run τ σ d.Result)
  | proxy (b : ProxyBuilder) {e : ProxyError}
      (hRefused : ProxyBuilder.refusal? w.hierarchy b.contracts = some e) : Ignores client w b.build
  | lazy (c : ClassId) (initializer : Hook) {e : ProxyError}
      (hRefused : ProxyBuilder.refusal? w.hierarchy [c, .lazyProxy] = some e) :
      Ignores client w (LazyProxy.create c initializer)
  | extractor (depth : Nat) (c : ClassId) (script : ObjectRef → Script σ Value) {e : ProxyError}
      (hRefused : ProxyBuilder.refusal? w.hierarchy [c] = some e) :
      Ignores client w (extractMethod (perform client depth) c script)
  | assign (depth : Nat) (b : InstanceBuilder) (s : MemberSelector σ) (v : Value)
      (hRefused : ∀ script, s = .called script →
        ∃ e, ProxyBuilder.refusal? w.hierarchy [b.contract.cls] = some e) :
      Ignores client w (b.assign (perform client depth) s v)
  | incomplete (b : InstanceBuilder) (hMissing : b.missing.isEmpty = false) :
      Ignores client w b.build
  | noMarker (c : ClassId) (hNone : ∀ b, InstanceBuilder.of w.hierarchy c = .ok b →
      b.contract.isMarker = false) : Ignores client w (InstanceBuilder.marker c)
  | calls (hClient : client.Does Deed.Quiet) {ε α : Type} {x : Run ε σ α}
      (hx : Restrained client Deed.Quiet x) : Ignores client w x

namespace Settings.Ignores

/-- A recorder is not made for a class that no proxy can be made for. -/
theorem recorder_of_refused {c : ClassId} {e : ProxyError}
    (hRefused : ProxyBuilder.refusal? w.hierarchy [c] = some e) :
    recorder c w = (.error (.raised e), { w with firstMethods := w.firstMethods.fresh.2 }) :=
  recorder_of_error (ProxyBuilder.build_of_refused (w := { w with firstMethods := _ }) hRefused)

/-- Assigning changes the world no further than selecting the member does. -/
theorem assign_snd {serve : Serve σ} (b : InstanceBuilder) (s : MemberSelector σ) (v : Value) :
    (b.assign serve s v w).2 = (b.select serve s w).2 := by
  rw [InstanceBuilder.assign]
  rcases hSelect : b.select serve s w with ⟨e | m, u⟩
  · rw [Run.bind_error hSelect]
  · rw [Run.bind_ok hSelect, Run.bind_ok (Run.hierarchy_apply u)]
    cases InstanceBuilder.fit u.hierarchy m v <;> rfl

theorem settings?_eq {x : Run ε σ α} (hx : Ignores client w x) :
    (x w).2.settings? = w.settings? := by
  cases hx with
  | deed d hd => exact Deed.settings?_run hd w
  | proxy b hRefused => rw [ProxyBuilder.build_of_refused hRefused]
  | lazy c initializer hRefused =>
      rw [LazyProxy.create_eq,
        ProxyBuilder.build_of_refused (w := { w with lazies := _ }) hRefused]
  | extractor depth c script hRefused =>
      rw [extractMethod, Run.bind_error (recorder_of_refused hRefused)]
  | incomplete b hMissing =>
      rw [InstanceBuilder.build, hMissing]
      rfl
  | noMarker c hNone =>
      rw [InstanceBuilder.marker, Run.bind_ok (Run.hierarchy_apply w)]
      cases hOpen : InstanceBuilder.of w.hierarchy c with
      | error e => rfl
      | ok b =>
          rw [Run.ofExcept, Run.bind_ok (Run.pure_apply b w), hNone b hOpen]
          rfl
  | calls hClient hx => exact hx.maintains w.spared_settings hClient w rfl
  | assign depth b s v hRefused =>
      rw [assign_snd]
      cases s with
      | name name => rw [InstanceBuilder.select, Run.ofExcept_snd]
      | accessor m => rw [InstanceBuilder.select, Run.ofExcept_snd]
      | called script =>
          obtain ⟨e, hNone⟩ := hRefused script rfl
          have hExtract : extractMethod (perform client depth) b.contract.cls script w = _ :=
            Run.bind_error (recorder_of_refused hNone)
          rw [InstanceBuilder.select, Run.bind_error (Run.mapError_raised hExtract)]

theorem evolves {x : Run ε σ α} (hx : Ignores client w x) : w.Evolves (x w).2 := by
  cases hx with
  | deed d hd => exact evolves_growth.growth.deed d w
  | proxy b _ => exact b.evolves_build w
  | lazy c initializer _ => exact evolves_growth.create c initializer w
  | extractor depth c script _ => exact (Operation.command (.extract depth c script)).evolves w
  | assign depth b s v _ => exact (Operation.assign depth b s v).evolves w
  | incomplete b _ => exact evolves_growth.buildInstance b w
  | noMarker c _ =>
      have hMarker : Operation client (InstanceBuilder.marker c) := .newMarker c
      exact hMarker.evolves w
  | calls _ hx => exact hx.operation.evolves w

end Settings.Ignores

end Metaobject
