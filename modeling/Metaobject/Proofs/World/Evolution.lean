import Metaobject.Proofs.World.Commands

/-!
What becomes of a world. A program declares classes, puts settings into effect, makes objects and
has client code run, in any order and as often as it likes. Whatever it does, and whether it
succeeds or not, its world only grows, and the classes of its proxies implement their interfaces.
-/
namespace Metaobject

variable {ε σ α β : Type}

namespace World

/-- From a sound world on, one world has grown into another, which is sound as well. -/
def Evolves (w v : World σ) : Prop :=
  w.Sound → w.GrowsTo v ∧ v.Sound

theorem Evolves.refl (w : World σ) : w.Evolves w := fun hSound => ⟨.refl w, hSound⟩

theorem Evolves.trans {u v w : World σ} (first : u.Evolves v) (second : v.Evolves w) :
    u.Evolves w := by
  intro hSound
  obtain ⟨hFirst, hMiddle⟩ := first hSound
  obtain ⟨hSecond, hLast⟩ := second hMiddle
  exact ⟨hFirst.trans hSecond, hLast⟩

/-- Settings and cells may change in any way. -/
theorem evolves_of_eq {w v : World σ} (hHierarchy : v.hierarchy = w.hierarchy)
    (hClasses : v.proxyClasses = w.proxyClasses) (hObjects : v.objects = w.objects) :
    w.Evolves v := by
  intro hSound
  have hGrows : w.hierarchy.GrowsTo v.hierarchy := hHierarchy ▸ .refl _
  exact ⟨⟨hGrows, hObjects ▸ List.prefix_rfl⟩, hSound.mono hGrows hClasses hObjects⟩

theorem Steady.growsTo {w v : World σ} (hSteady : w.Steady v) : w.GrowsTo v :=
  ⟨hSteady.hierarchy ▸ .refl _, hSteady.objects ▸ List.prefix_rfl⟩

theorem Steady.evolves {w v : World σ} (hSteady : w.Steady v) : w.Evolves v :=
  evolves_of_eq hSteady.hierarchy hSteady.proxyClasses hSteady.objects

end World

namespace Run

/-- A computation that lets a sound world grow and leaves it sound. -/
abbrev Evolves (x : Run ε σ α) : Prop :=
  Keeps World.Evolves x

end Run

theorem ProxyBuilder.evolves_build (b : ProxyBuilder) :
    (b.build : Run ProxyError σ ObjectRef).Evolves := by
  intro w hSound
  rcases b.build_apply hSound with ⟨e, hRun⟩ | ⟨_, o, v, made, _, hRun, hYields⟩
  · rw [hRun]
    exact ⟨.refl w, hSound⟩
  · rw [hRun]
    exact ⟨hYields.growsTo, hYields.sound⟩

theorem Store.read_of_not_holds {s : Store β} {c : Cell β} (hc : ¬ s.Holds c) :
    s.read c = none := by
  rw [read, Array.getElem?_eq_none (Nat.le_of_not_lt hc)]
  rfl

/-- One store has grown out of another, by one cell at the most, which is empty. -/
structure Store.Gains (s t : Store β) (new? : Option (Cell β)) : Prop where
  held : ∀ c, s.Holds c → t.Holds c
  read : ∀ c, t.read c = s.read c
  fresh : ∀ c, new? = some c → t.Holds c ∧ ¬ s.Holds c

theorem Store.Gains.refl (s : Store β) : s.Gains s none where
  held _ := id
  read _ := rfl
  fresh _ h := by cases h

theorem Store.gains_fresh (s : Store β) : s.Gains s.fresh.2 (some s.fresh.1) where
  held c hc := by
    rw [Holds, fresh, Array.size_push]
    exact Nat.lt_succ_of_lt hc
  read := s.read_fresh
  fresh c hc := by
    cases hc
    simp [Holds, fresh]

/-- The new cell may be left unused. -/
theorem Store.Gains.unused {s t : Store β} {new? : Option (Cell β)} (hGains : s.Gains t new?) :
    s.Gains t none where
  held := hGains.held
  read := hGains.read
  fresh _ h := by cases h

namespace InstanceBuilder

variable (b : InstanceBuilder)

theorem hashCell_apply (wanted : Bool) (w : World σ) :
    ∃ cell? hashes, (hashCell wanted : Run InstanceError σ _) w = (.ok cell?, { w with hashes }) ∧
      w.hashes.Gains hashes cell? ∧ cell?.isSome = wanted := by
  cases wanted with
  | true => exact ⟨_, _, rfl, Store.gains_fresh _, rfl⟩
  | false => exact ⟨_, _, rfl, .refl _, rfl⟩

theorem textCell_apply (wanted : Bool) (w : World σ) :
    ∃ cell? texts, (textCell wanted : Run InstanceError σ _) w = (.ok cell?, { w with texts }) ∧
      w.texts.Gains texts cell? ∧ cell?.isSome = wanted := by
  cases wanted with
  | true => exact ⟨_, _, rfl, Store.gains_fresh _, rfl⟩
  | false => exact ⟨_, _, rfl, .refl _, rfl⟩

/-- If nothing is missing, building makes a proxy of an instance with cells of its own, as the
settings ask for. -/
theorem build_eq (hMissing : b.missing.isEmpty = true) (w : World σ) :
    ∃ hash? text? hashes texts, b.build w = Run.mapError .proxy
        (ProxyBuilder.single b.contract.cls
          (.values ⟨b.contract, b.assigned, hash?, text?⟩)).build
        { w with settings? := some w.settings, hashes, texts } ∧
      w.hashes.Gains hashes hash? ∧ w.texts.Gains texts text? ∧
      hash?.isSome = w.settings.cacheHash ∧ text?.isSome = w.settings.cacheText := by
  have hSettings := Settings.current_apply (ε := InstanceError) w
  obtain ⟨hash?, hashes, hHash, hHashes, hHash?⟩ :=
    hashCell_apply w.settings.cacheHash { w with settings? := some w.settings }
  obtain ⟨text?, texts, hText, hTexts, hText?⟩ :=
    textCell_apply w.settings.cacheText { w with settings? := some w.settings, hashes }
  refine ⟨hash?, text?, hashes, texts, ?_, hHashes, hTexts, hHash?, hText?⟩
  rw [build, if_pos hMissing, Run.bind_ok hSettings, Run.bind_ok hHash, Run.bind_ok hText]

/-- Nothing has been built. At the most there are cells that nothing uses. -/
structure Fails (w v : World σ) : Prop where
  objects : v.objects = w.objects
  growsTo : w.GrowsTo v
  sound : v.Sound
  hashes : w.hashes.Gains v.hashes none
  texts : w.texts.Gains v.texts none

/-- An instance has been built. Its object is the only new one, and its cells, which are as the
settings ask for, are its own. -/
structure Yields (b : InstanceBuilder) (w : World σ) (o : ObjectRef) (x : Instance) (v : World σ) :
    Prop where
  contract : x.contract = b.contract
  assigned : x.assigned = b.assigned
  hash : x.hashCell?.isSome = w.settings.cacheHash
  text : x.textCell?.isSome = w.settings.cacheText
  object : ∃ made, v.object? o = some (.proxy made (.single (.values x))) ∧
    v.objects = w.objects.push (.proxy made (.single (.values x))) ∧
    made.Implements v.hierarchy [b.contract.cls]
  growsTo : w.GrowsTo v
  sound : v.Sound
  hashes : w.hashes.Gains v.hashes x.hashCell?
  texts : w.texts.Gains v.texts x.textCell?
  client : v.client = w.client

theorem build_apply {w : World σ} (hSound : w.Sound) :
    (∃ e v, b.build w = (.error (.raised e), v) ∧ Fails w v) ∨
      ∃ o x v, b.build w = (.ok o, v) ∧ b.Yields w o x v := by
  cases hMissing : b.missing.isEmpty with
  | false =>
      rw [build, hMissing]
      exact .inl ⟨_, w, rfl, rfl, .refl w, hSound, .refl _, .refl _⟩
  | true =>
      obtain ⟨hash?, text?, hashes, texts, hRun, hHashes, hTexts, hHash, hText⟩ :=
        b.build_eq hMissing w
      let u : World σ := { w with settings? := some w.settings, hashes, texts }
      obtain ⟨hGrows, hFixed⟩ : w.GrowsTo u ∧ u.Sound := World.evolves_of_eq rfl rfl rfl hSound
      rw [hRun]
      rcases ProxyBuilder.build_apply _ hFixed with
        ⟨e, hProxy⟩ | ⟨contracts, o, v, made, hCheck, hProxy, hYields⟩
      · exact .inl ⟨_, u, Run.mapError_raised hProxy, rfl, hGrows, hFixed, hHashes.unused,
          hTexts.unused⟩
      · have hContracts : contracts = [b.contract.cls] := by
          rw [ProxyBuilder.single, ProxyBuilder.withHandler, ProxyBuilder.checkContracts] at hCheck
          split at hCheck
          · cases hCheck
          · cases hCheck
            rfl
        subst hContracts
        refine .inr ⟨o, ⟨b.contract, b.assigned, hash?, text?⟩, v, Run.mapError_ok hProxy, ?_⟩
        exact {
          contract := rfl
          assigned := rfl
          hash := hHash
          text := hText
          object := ⟨made, hYields.object, hYields.objects, hYields.implementing⟩
          growsTo := hGrows.trans hYields.growsTo
          sound := hYields.sound
          hashes := hYields.cells.hashes ▸ hHashes
          texts := hYields.cells.texts ▸ hTexts
          client := hYields.cells.client }

theorem yields_of_build {w v : World σ} {o : ObjectRef} (hSound : w.Sound)
    (hBuild : b.build w = (.ok o, v)) : ∃ x, b.Yields w o x v := by
  rcases b.build_apply hSound with ⟨e, u, hFails, -⟩ | ⟨p, x, u, hRun, hYields⟩
  · cases hFails.symm.trans hBuild
  · cases hRun.symm.trans hBuild
    exact ⟨x, hYields⟩

end InstanceBuilder

/-- What a program can have the library do. -/
inductive Operation (client : Client σ) : {ε α : Type} → Run ε σ α → Prop where
  | command {ε α : Type} {x : Run ε σ α} (hx : Command client x) : Operation client x
  | newProxy (b : ProxyBuilder) : Operation client b.build
  | newInstance (b : InstanceBuilder) : Operation client b.build
  | newMarker (c : ClassId) : Operation client (InstanceBuilder.marker c)
  | handle (depth : Nat) (x : Handler) (i : Invocation) :
      Operation client (x.handle client (perform client depth) i)
  | resolve (depth : Nat) (k : Chain) (i : Invocation) :
      Operation client (k.resolve client (perform client depth) i)

theorem Operation.declare {client : Client σ} (b : ClassBuilder) :
    Operation client (b.declare : Run ε σ ClassId) :=
  .command (.declare b)

theorem Operation.assign {client : Client σ} (depth : Nat) (b : InstanceBuilder)
    (s : MemberSelector σ) (v : Value) : Operation client (b.assign (perform client depth) s v) :=
  .command (.assign depth b s v)

/-- A lazy proxy is made with a new cell. -/
theorem LazyProxy.create_eq (c : ClassId) (hook : Hook) (w : World σ) :
    create c hook w = (({ contracts := [c, .lazyProxy] } : ProxyBuilder).withHandler
      (.lazy hook w.lazies.fresh.1)).build { w with lazies := w.lazies.fresh.2 } := rfl

section Keeping

variable {R : World σ → World σ → Prop}

/-- Operations are made of the steps of commands, of the making of proxies and instances, and of
calls. -/
theorem Operation.keeps_of {client : Client σ} {P : World σ → Instance → Prop}
    (hR : World.Course client R P) (hProxy : ∀ b : ProxyBuilder, Run.Keeps R b.build)
    (hInstance : ∀ b : InstanceBuilder, Run.Keeps R b.build)
    (hHandle : ∀ depth (x : Handler) i, Run.Keeps R (x.handle client (perform client depth) i))
    (hResolve : ∀ depth (k : Chain) i, Run.Keeps R (k.resolve client (perform client depth) i))
    {x : Run ε σ α} (hx : Operation client x) : x.Keeps R := by
  cases hx with
  | command hx => exact hR.command hx
  | newProxy b => exact hProxy b
  | newInstance b => exact hInstance b
  | newMarker c =>
      refine hR.bind hR.refl fun h => hR.bind (hR.ofExcept _ _) fun b => ?_
      split
      · exact hInstance b
      · exact hR.refl
  | handle depth x i => exact hHandle depth x i
  | resolve depth k i => exact hResolve depth k i

/-- A relation that holds over the making of proxies of all kinds, and for which the cells that
calls fill do not matter. -/
structure World.FreeGrowth (R : World σ → World σ → Prop) : Prop extends World.Steps R where
  cells : ∀ w lazies hashes texts, R w { w with lazies, hashes, texts }
  build : ∀ b : ProxyBuilder, Run.Keeps R b.build

namespace World.FreeGrowth

variable (hR : World.FreeGrowth R)

include hR

theorem create (c : ClassId) (initializer : Hook) : Run.Keeps R (LazyProxy.create c initializer) :=
  .bind hR.trans (fun w => hR.cells w _ w.hashes w.texts) fun _ => hR.build _

theorem buildInstance (b : InstanceBuilder) : Run.Keeps R b.build := by
  intro w
  cases hMissing : b.missing.isEmpty with
  | true =>
      obtain ⟨hash?, text?, hashes, texts, hRun, -, -⟩ := b.build_eq hMissing w
      rw [hRun, Run.mapError_snd]
      exact hR.trans _ _ _ (hR.settings w)
        (hR.trans _ _ _ (hR.cells _ w.lazies hashes texts) (hR.build _ _))
  | false =>
      rw [InstanceBuilder.build, hMissing]
      exact hR.refl w

theorem growth : World.Growth R where
  toSteps := hR.toSteps
  proxy b _ := hR.build b
  lazyProxy := hR.create
  inst b w _ := hR.buildInstance b w

/-- What holds over the steps of deeds holds over calls, whichever instances there are. -/
theorem course (client : Client σ) : World.Course client R fun _ _ => True where
  toGrowth := hR.growth
  lazies w lazies := hR.cells w lazies w.hashes w.texts
  has _ _ _ := trivial
  answer depth hServe w x _ i := by
    have hUnmoved := hR.growth.unmoved (fun w lazies => hR.cells w lazies w.hashes w.texts) w
    refine x.maintains_answer hUnmoved (fun r v hv => hR.trans _ _ _ hv (hServe r v)) ?_ ?_ i
    · exact fun _ _ _ _ v _ _ hv _ => hR.trans _ _ _ hv (hR.cells v v.lazies _ v.texts)
    · exact fun _ _ _ _ v _ _ hv _ => hR.trans _ _ _ hv (hR.cells v v.lazies v.hashes _)

/-- It holds over all operations. -/
theorem operation {client : Client σ} {x : Run ε σ α} (hx : Operation client x) : x.Keeps R := by
  have hCourse := hR.course client
  refine hx.keeps_of hCourse hR.build hR.buildInstance ?_ ?_
  · exact fun depth x i w => hCourse.handle depth x i fun _ _ => trivial
  · exact fun depth k i w => hCourse.resolve depth k i fun _ _ => trivial

end World.FreeGrowth

end Keeping

/-- Each step lets a sound world grow and leaves it sound. -/
theorem World.evolves_growth : World.FreeGrowth (World.Evolves : World σ → World σ → Prop) where
  toSteps := by
    refine .of_resembles (fun _ _ _ => .trans)
      (fun _ _ hSame => evolves_of_eq hSame.hierarchy hSame.proxyClasses hSame.objects)
      (fun w b hSound => ?_) (fun w c hook hSound => ?_)
    · have hGrows := w.hierarchy.growsTo_define b
      exact ⟨⟨hGrows, List.prefix_rfl⟩, hSound.mono hGrows rfl rfl⟩
    · exact ⟨growsTo_allocate w c _, hSound.allocate c fun made chain hEq => by cases hEq⟩
  cells _ _ _ _ := evolves_of_eq rfl rfl rfl
  build := ProxyBuilder.evolves_build

theorem Operation.evolves {client : Client σ} {x : Run ε σ α} (hx : Operation client x) :
    x.Evolves :=
  World.evolves_growth.operation hx

/-- Calls of any kind let a sound world grow and leave it sound. -/
theorem Calling.evolves {client : Client σ} {x : Run ε σ α} (hx : Calling client x) : x.Evolves :=
  hx.keeps (World.evolves_growth.course client)

namespace World

/-- The worlds that a program can make of a world, by one operation after another. -/
inductive Leads (client : Client σ) (w : World σ) : World σ → Prop where
  | refl : Leads client w w
  | step {ε α : Type} {x : Run ε σ α} {v : World σ} (before : Leads client w v)
      (hx : Operation client x) : Leads client w (x v).2

/-- The worlds that a program can come to from its start. -/
def Reachable (client : Client σ) (w : World σ) : Prop :=
  ∃ state : σ, Leads client { client := state } w

variable {client : Client σ} {u v w : World σ}

theorem Leads.of_operation {ε α : Type} {x : Run ε σ α} {r : Except (Stop ε) α}
    (hx : Operation client x) (hRun : x w = (r, v)) : Leads client w v := by
  have hStep := Leads.step (v := w) .refl hx
  rwa [hRun] at hStep

theorem Leads.trans (first : Leads client u v) (second : Leads client v w) :
    Leads client u w := by
  induction second with
  | refl => exact first
  | step _ hx ih => exact ih.step hx

theorem Leads.evolves (hLeads : Leads client w v) : w.Evolves v := by
  induction hLeads with
  | refl => exact .refl w
  | step _ hx ih => exact ih.trans (hx.evolves _)

theorem Leads.growsTo (hLeads : Leads client w v) (hSound : w.Sound) : w.GrowsTo v :=
  (hLeads.evolves hSound).1

theorem sound_start (state : σ) : ({ client := state } : World σ).Sound := by
  constructor
  · intro contracts made hMem
    cases hMem
  · intro made chain hMem
    cases hMem

/-- Every world that a program comes to is sound. -/
theorem Reachable.sound (hReach : Reachable client w) : w.Sound := by
  obtain ⟨state, hLeads⟩ := hReach
  exact (hLeads.evolves (sound_start state)).2

theorem Reachable.leads (hReach : Reachable client w) (hLeads : Leads client w v) :
    Reachable client v := by
  obtain ⟨state, hBefore⟩ := hReach
  exact ⟨state, hBefore.trans hLeads⟩

end World

end Metaobject
