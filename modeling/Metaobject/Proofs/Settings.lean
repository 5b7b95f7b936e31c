import Metaobject.Proofs.Settings.Asking

/-!
The settings are written once: by the first attempt to put valid ones into effect, or, if that comes
first, by whatever first asks for them, which fixes the default. A run of a program is told by the
events that have to do with the settings, each with what came of it, be it client code that they
happen in; what else happens in a run has no part in this.
-/
namespace Metaobject

variable {ε σ α : Type} {client : Client σ} {v w : World σ}

namespace Settings

/-- What happens to the settings in a run: an attempt to put some into effect, with its outcome, or
a question for those in effect. -/
inductive Event where
  | install (s : Settings) (outcome : Except (Stop SettingsError) Unit)
  | read

namespace Event

/-- The settings that an event fixes, if none have been fixed before. -/
def fixes? : Event → Option Settings
  | .install s (.ok _) => some s
  | .install _ (.error _) => none
  | .read => some {}

/-- Settings were put into effect. -/
def isInstalled : Event → Bool
  | .install _ (.ok _) => true
  | _ => false

/-- Settings were not put into effect, although this was asked for. -/
def isRejected : Event → Bool
  | .install _ (.error _) => true
  | _ => false

theorem isInstalled_eq_false {e : Event} (he : e.fixes? = none) : e.isInstalled = false := by
  cases e with
  | install s outcome => cases outcome <;> trivial
  | read => rfl

end Event

/-- The settings in effect after some events: the first that were fixed. -/
def inEffect? (events : List Event) : Option Settings :=
  events.findSome? Event.fixes?

theorem inEffect?_concat (events : List Event) (e : Event) :
    inEffect? (events ++ [e]) = (inEffect? events).or e.fixes? := by
  rw [inEffect?, List.findSome?_append, List.findSome?_singleton, inEffect?]

/-- Before any settings are fixed, none have been installed. -/
theorem countP_isInstalled_of_none {events : List Event} (hNone : inEffect? events = none) :
    events.countP Event.isInstalled = 0 := by
  rw [List.countP_eq_zero]
  intro e he
  rw [Event.isInstalled_eq_false (List.findSome?_eq_none_iff.mp hNone e he)]
  exact Bool.false_ne_true

/-- Whatever is asked for first is fixed for good. -/
theorem inEffect?_read (events more : List Event) :
    inEffect? (events ++ .read :: more) = some ((inEffect? events).getD {}) := by
  rw [inEffect?, List.findSome?_append, ← inEffect?]
  cases inEffect? events <;> rfl

end Settings

open Settings World

namespace World

/-- A run of a program from its start, with what happens to the settings in it. -/
inductive History : List Event → World σ → Prop where
  | start (state : σ) : History [] { client := state }
  | install {events : List Event} {w : World σ} (before : History events w) (s : Settings) :
      History (events ++ [.install s (s.install w).1]) (s.install w).2
  | read {events : List Event} {w : World σ} (before : History events w) :
      History (events ++ [.read]) w.fixed
  | other {events : List Event} {v w : World σ} (before : History events w)
      (hEvolves : w.Evolves v) (hSettings : v.settings? = w.settings?) : History events v

variable {events : List Event}

theorem History.sound (hRun : History events w) : w.Sound := by
  induction hRun with
  | start state => exact sound_start state
  | @install events w _ s ih => exact (evolves_growth.growth.install s w ih).2
  | read _ ih => exact ih.mono (.refl _) rfl rfl
  | other _ hEvolves _ ih => exact (hEvolves ih).2

/-- The settings are those that the first event to fix any has fixed. -/
theorem History.settings?_eq (hRun : History events w) : w.settings? = inEffect? events := by
  induction hRun with
  | start state => rfl
  | @install events w _ s ih =>
      rw [inEffect?_concat]
      rcases install_apply s w with ⟨e, hFails⟩ | ⟨-, hOpen, hFixes⟩
      · rw [hFails, ih]
        exact (Option.or_none).symm
      · rw [hFixes, ← ih, hOpen]
        rfl
  | @read events w _ ih =>
      rw [inEffect?_concat, ← ih, fixed, settings]
      cases w.settings? <;> rfl
  | other _ _ hSettings ih => rw [hSettings, ih]

theorem History.settings_eq (hRun : History events w) :
    w.settings = (inEffect? events).getD {} := by
  rw [settings, hRun.settings?_eq]

/-- Settings are put into effect only while none are fixed, so at most once. -/
theorem History.countP_isInstalled_le (hRun : History events w) :
    events.countP Event.isInstalled ≤ 1 := by
  induction hRun with
  | start state => exact Nat.zero_le 1
  | @install events w before s ih =>
      rw [List.countP_append, List.countP_singleton]
      rcases install_apply s w with ⟨e, hFails⟩ | ⟨-, hOpen, hFixes⟩
      · rw [hFails]
        exact ih
      · rw [countP_isInstalled_of_none (before.settings?_eq ▸ hOpen), hFixes]
        exact Nat.le_refl 1
  | read _ ih =>
      rw [List.countP_append, List.countP_singleton]
      exact ih
  | other _ _ _ ih => exact ih

/-- What came of an attempt to put settings into effect came of it where the run was then. -/
theorem History.exists_install {before after : List Event} {s : Settings}
    {outcome : Except (Stop SettingsError) Unit} (hRun : History events w)
    (hEvents : events = before ++ .install s outcome :: after) :
    ∃ v : World σ, History before v ∧ outcome = (s.install v).1 := by
  induction hRun generalizing after with
  | start state => simp at hEvents
  | @install events w hBefore t ih =>
      rcases split_concat hEvents with ⟨rfl, hSame⟩ | ⟨between, hBetween⟩
      · cases hSame
        exact ⟨w, hBefore, rfl⟩
      · exact ih hBetween
  | read _ ih =>
      rcases split_concat hEvents with ⟨_, hSame⟩ | ⟨between, hBetween⟩
      · cases hSame
      · exact ih hBetween
  | other _ _ _ ih => exact ih hEvents

/-- Attempts that failed might as well not have been made. -/
theorem History.without_rejected (hRun : History events w) :
    History (events.filter fun e => !e.isRejected) w := by
  induction hRun with
  | start state => exact .start state
  | @install events w before s ih =>
      rw [List.filter_append]
      rcases install_apply s w with ⟨e, hFails⟩ | ⟨-, -, hFixes⟩
      · rw [hFails]
        exact (List.append_nil _).symm ▸ ih
      · have hAgain := ih.install s
        rw [hFixes] at hAgain ⊢
        exact hAgain
  | read _ ih =>
      rw [List.filter_append]
      exact ih.read
  | other _ hEvolves hSettings ih => exact ih.other hEvolves hSettings

/-- Every run to a world goes on to another, with more events. -/
def StaysTold (w v : World σ) : Prop :=
  ∀ events, History events w → ∃ more, History (events ++ more) v

theorem StaysTold.trans {u : World σ} (first : u.StaysTold v) (second : v.StaysTold w) :
    u.StaysTold w := by
  intro events hRun
  obtain ⟨between, hBetween⟩ := first events hRun
  obtain ⟨more, hAfter⟩ := second _ hBetween
  exact ⟨between ++ more, List.append_assoc .. ▸ hAfter⟩

/-- What has nothing to do with the settings is no event. -/
theorem Evolves.staysTold (hEvolves : w.Evolves v) (hSettings : v.settings? = w.settings?) :
    w.StaysTold v :=
  fun events hRun => ⟨[], (List.append_nil events).symm ▸ hRun.other hEvolves hSettings⟩

theorem Steady.staysTold (hSteady : w.Steady v) : w.StaysTold v :=
  hSteady.evolves.staysTold hSteady.settings?

theorem staysTold_fixed (w : World σ) : w.StaysTold w.fixed :=
  fun _ hRun => ⟨_, hRun.read⟩

end World

/-- The making of a proxy asks for the settings, unless it is refused. -/
theorem ProxyBuilder.staysTold_build (b : ProxyBuilder) :
    Run.Keeps StaysTold (b.build : Run ProxyError σ ObjectRef) := by
  intro w events hRun
  cases hRefusal : refusal? w.hierarchy b.contracts with
  | some e =>
      rw [build_of_refused hRefusal]
      exact ⟨[], (List.append_nil events).symm ▸ hRun⟩
  | none =>
      obtain ⟨o, v, made, hBuild, -, -, hFixed⟩ := b.build_of_accepted hRun.sound hRefusal
      have hEvolves := b.evolves_build w.fixed
      rw [← asks_build hRefusal] at hEvolves
      refine ⟨_, hRun.read.other hEvolves ?_⟩
      rw [hBuild, hFixed]
      rfl

namespace World

/-- Whatever client code has the library do, its events go on with the history. -/
theorem staysTold_growth : World.FreeGrowth (StaysTold : World σ → World σ → Prop) where
  refl w := (Evolves.refl w).staysTold rfl
  trans _ _ _ := .trans
  state w s := (evolves_growth.state w s).staysTold rfl
  settings := staysTold_fixed
  installed w s hValid hOpen events hRun := by
    have hInstalled := hRun.install s
    rw [install_of_open hValid hOpen] at hInstalled
    exact ⟨_, hInstalled⟩
  firstMethods w firstMethods := (evolves_growth.firstMethods w firstMethods).staysTold rfl
  newTarget w t := (evolves_growth.newTarget w t).staysTold rfl
  swapped w cell t := (evolves_growth.swapped w cell t).staysTold rfl
  declared w b := (evolves_growth.declared w b).staysTold rfl
  native w c hook := (evolves_growth.native w c hook).staysTold rfl
  cells _ _ _ _ := Steady.staysTold ⟨rfl, rfl, rfl, rfl, rfl⟩
  build := ProxyBuilder.staysTold_build

end World

theorem Operation.staysTold {x : Run ε σ α} (hx : Operation client x) : x.Keeps StaysTold :=
  staysTold_growth.operation hx

theorem Settings.Follows.staysTold (hFollows : Follows client v w) : v.StaysTold w := by
  obtain rfl | ⟨depth, script, o, rfl⟩ := hFollows
  · exact staysTold_growth.refl w
  · exact (Operation.command (.call (.script depth (script o)))).staysTold v

namespace World

/-- Every run has a history. -/
theorem Reachable.exists_history (hReach : Reachable client w) : ∃ events, History events w := by
  obtain ⟨state, hLeads⟩ := hReach
  induction hLeads with
  | refl => exact ⟨[], .start state⟩
  | step _ hx ih =>
      obtain ⟨events, hRun⟩ := ih
      obtain ⟨more, hMore⟩ := hx.staysTold _ events hRun
      exact ⟨_, hMore⟩

/-- Whatever asks for the settings is in the history as a question for them. -/
theorem History.reads {x : Run ε σ α} {events : List Event} (hRun : History events w)
    (hx : Reads client w x) :
    ∃ v, History (events ++ [.read]) v ∧ Follows client v (x w).2 := by
  obtain ⟨v, hEvolves, hFixed, hFollows⟩ := hx.follows hRun.sound
  exact ⟨v, hRun.read.other hEvolves hFixed, hFollows⟩

/-- In a world, all that asks for the settings is shown the same ones: a question for them, and all
that runs as if they had been fixed before; the classes of proxies are kept and named as they say,
and so are hashes and texts of instances. -/
structure Shows (client : Client σ) (w : World σ) (s : Settings) : Prop where
  current {τ : Type} :
    (Settings.current : Run τ σ Settings) w = (.ok s, { w with settings? := some s })
  asked {ε α : Type} {x : Run ε σ α} (hx : Reads client w x) :
    x w = x { w with settings? := some s } ∧ (x w).2.settings? = some s
  classes {ε α : Type} {wrap : ProxyError → ε} {contracts : List ClassId}
    {after : ObjectRef → World σ → World σ} {x : Run ε σ α}
    (hx : Creates client w wrap contracts after x)
    (hAccepted : ProxyBuilder.refusal? w.hierarchy contracts = none) :
    ∃ made o v, v.proxies = w.proxies ++ [made] ∧
      { w with settings? := some s }.Obtains contracts.eraseDups v made ∧ (x w).2 = after o v
  instances {b : InstanceBuilder} {o : ObjectRef} {v : World σ} (hBuild : b.build w = (.ok o, v)) :
    ∃ made x, v.object? o = some (.proxy made (.single (.values x))) ∧
      x.hashCell?.isSome = s.cacheHash ∧ x.textCell?.isSome = s.cacheText

theorem History.shows {events : List Event} (hRun : History events w) (client : Client σ) :
    Shows client w w.settings where
  current := Settings.current_apply w
  asked hx := by
    obtain ⟨v, hBetween, hFollows⟩ := hRun.reads hx
    obtain ⟨more, hAfter⟩ := hFollows.staysTold _ hBetween
    rw [List.append_assoc, List.singleton_append] at hAfter
    exact ⟨hx.asks, by rw [hAfter.settings?_eq, inEffect?_read, hRun.settings_eq]⟩
  classes hx hAccepted := by
    obtain ⟨made, o, v, hProxies, -, hObtains, -, hAfter, -⟩ :=
      (hx.apply hRun.sound).2 hAccepted
    exact ⟨made, o, v, hProxies, hObtains.congr ⟨rfl, rfl, rfl, rfl, rfl⟩, hAfter⟩
  instances {b o v} hBuild := by
    obtain ⟨x, hYields⟩ := b.yields_of_build hRun.sound hBuild
    obtain ⟨made, hObject, -⟩ := hYields.object
    exact ⟨made, x, hObject, hYields.hash, hYields.text⟩

end World

/-- The settings are written once. In every run, settings are put into effect at most once. An
attempt fails with the reason where they are invalid; where they are valid it fails if an earlier
attempt succeeded or something has asked for the settings, and it succeeds otherwise. An attempt
that fails changes nothing, so that the run without it leads to the same world. The settings in
effect are those that were put into effect, or the default if something asked for them before; they
stay for the rest of the run, and everything that asks for them is shown these. Whatever a program
has the library do, a run goes on with it: with a question for the settings first if it asks for
them, and with no event if it leaves them alone. -/
theorem settings_written_once (client : Client σ) {events : List Settings.Event}
    (hRun : World.History events w) :
    events.countP Event.isInstalled ≤ 1 ∧
    (∀ before s outcome after, events = before ++ .install s outcome :: after →
      (∀ why, s.validate = .error why → outcome = .error (.raised (.invalid why))) ∧
      (s.validate = .ok () → outcome =
        if (inEffect? before).isSome then .error (.raised .alreadyInstalled) else .ok ())) ∧
    (∀ (s : Settings) e, (s.install w).1 = .error e → (s.install w).2 = w) ∧
    World.History (events.filter fun e => !e.isRejected) w ∧
    w.settings? = inEffect? events ∧
    (∀ t, inEffect? events = some t → ∀ more (v : World σ), World.History (events ++ more) v →
      v.settings? = some t ∧ World.Shows client v t) ∧
    World.Shows client w ((inEffect? events).getD {}) ∧
    ∀ {ε α : Type} (x : Run ε σ α),
      (Operation client x → ∃ more, World.History (events ++ more) (x w).2) ∧
      (Reads client w x →
        ∃ v, World.History (events ++ [.read]) v ∧ Follows client v (x w).2) ∧
      (Ignores client w x → World.History events (x w).2) := by
  have hShows {events : List Settings.Event} {v : World σ} (hRun : World.History events v) :
      World.Shows client v ((inEffect? events).getD {}) := by
    rw [← hRun.settings_eq]
    exact hRun.shows client
  refine ⟨hRun.countP_isInstalled_le, fun before s outcome after hEvents => ?_,
    fun s e hFails => ?_, hRun.without_rejected, hRun.settings?_eq,
    fun t hFixed more v hLater => ?_, hShows hRun, fun x => ⟨fun hx => hx.staysTold w events hRun,
      hRun.reads, fun hx => hRun.other hx.evolves hx.settings?_eq⟩⟩
  · obtain ⟨v, hBefore, rfl⟩ := hRun.exists_install hEvents
    refine ⟨fun why hInvalid => by rw [install_of_invalid hInvalid], fun hValid => ?_⟩
    rw [← hBefore.settings?_eq]
    cases hSettings : v.settings? with
    | some t =>
        rw [install_of_fixed hValid hSettings]
        rfl
    | none =>
        rw [install_of_open hValid hSettings]
        rfl
  · rcases install_apply s w with ⟨_, hRefused⟩ | ⟨-, -, hFixes⟩
    · rw [hRefused]
    · rw [hFixes] at hFails
      cases hFails
  · have hStill : inEffect? (events ++ more) = some t := by
      rw [inEffect?, List.findSome?_append, ← inEffect?, hFixed]
      rfl
    refine ⟨hLater.settings?_eq.trans hStill, ?_⟩
    have hThere := hShows hLater
    rwa [hStill] at hThere

/-- Settings that name the classes of proxies in another way and keep no hashes. -/
def plainSettings : Settings where
  classNamePrefix := "Plain"
  cacheHash := false

theorem settings_written_once_gate :
    ∃ events, ∃ w : World Stub.Stage, World.History events w ∧
      events.map Event.isInstalled = [false, true, false, false] ∧
      w.settings? = some plainSettings ∧ World.Shows Stub.client w plainSettings := by
  have hDeclared : World.History [] gateWorld :=
    .other (.start {}) (World.evolves_growth.declared _ gateType) rfl
  have hAccepted : ProxyBuilder.refusal? gateWorld.hierarchy closedGate.contracts = none :=
    Option.isNone_iff_eq_none.mp (by decide +kernel)
  have hInvalid : ({ classNamePrefix := "" } : Settings).install gateWorld =
      (.error (.raised (.invalid .emptyPrefix)), gateWorld) :=
    install_of_invalid (by decide +kernel)
  have hFixes : plainSettings.install gateWorld =
      (.ok (), { gateWorld with settings? := some plainSettings }) :=
    install_of_open (by decide +kernel) rfl
  have hInstalled := (hDeclared.install { classNamePrefix := "" }).install plainSettings
  rw [hInvalid, hFixes] at hInstalled
  have hReads : Reads Stub.client { gateWorld with settings? := some plainSettings }
      closedGate.build := .creates (.proxy closedGate) hAccepted
  obtain ⟨v, hRead, -⟩ := hInstalled.reads hReads
  have hLate := hRead.install {}
  rw [install_of_fixed (by decide +kernel) hRead.settings?_eq] at hLate
  obtain ⟨-, -, -, -, hSettings, -, hShows, -⟩ := settings_written_once Stub.client hLate
  exact ⟨_, _, hLate, rfl, hSettings, hShows⟩

end Metaobject
