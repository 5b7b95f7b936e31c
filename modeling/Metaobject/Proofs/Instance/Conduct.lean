import Metaobject.Proofs.Instance.Upkeep

/-!
Programs that forge nothing. Operations in general may be given handlers of instances that were
never built, and references to objects and classes that do not exist. A program cannot come by
these: only building makes the handler of an instance, with cells of its own, and only making an
object or declaring a class gives a reference to it. A proper operation does without them, and so it
leaves a tidy world tidy.
-/
namespace Metaobject

variable {ε σ α β : Type} {client : Client σ} {u v w : World σ}

open World

namespace World

theorem Has.mono (hGrows : w.GrowsTo v) {x : Instance} (hx : w.Has x) : v.Has x := by
  obtain ⟨o, made, chain, hObject, hHas⟩ := hx
  exact ⟨o, made, chain, hGrows.object? hObject, hHas⟩

/-- The instances that there are once an object has been made. -/
theorem has_of_push {d : ObjectData} (hObjects : v.objects = w.objects.push d) {x : Instance}
    (hx : v.Has x) : w.Has x ∨ ∃ made chain, d = .proxy made chain ∧ chain.Has x := by
  obtain ⟨o, made, chain, hObject, hHas⟩ := hx
  rcases object?_of_push hObjects hObject with hOld | ⟨-, rfl⟩
  · exact .inl ⟨o, made, chain, hOld, hHas⟩
  · exact .inr ⟨made, chain, rfl, hHas⟩

/-- From a tidy world on, one world has grown into another, which is tidy as well. -/
def StaysTidy (w v : World σ) : Prop :=
  w.Tidy → w.GrowsTo v ∧ v.Tidy

theorem StaysTidy.trans (first : u.StaysTidy v) (second : v.StaysTidy w) : u.StaysTidy w := by
  intro hTidy
  obtain ⟨hFirst, hMiddle⟩ := first hTidy
  obtain ⟨hSecond, hLast⟩ := second hMiddle
  exact ⟨hFirst.trans hSecond, hLast⟩

/-- A world that evolves without a new instance is as tidy as before. -/
theorem staysTidy_of_evolves (hEvolves : w.Evolves v) (hHas : ∀ x, v.Has x → w.Has x)
    (hHashes : v.hashes = w.hashes) (hTexts : v.texts = w.texts) : w.StaysTidy v := by
  intro hw
  obtain ⟨hGrows, hSound⟩ := hEvolves hw.sound
  exact ⟨hGrows, hw.gain (gains_none hGrows hSound hHas)
    (hw.settled.hash.of_store_eq hHashes).gained_none
    (hw.settled.text.of_store_eq hTexts).gained_none⟩

/-- Settings, the state of the client and cells of handlers may change in any way. -/
theorem staysTidy_of_eq (hHierarchy : v.hierarchy = w.hierarchy)
    (hClasses : v.proxyClasses = w.proxyClasses) (hObjects : v.objects = w.objects)
    (hHashes : v.hashes = w.hashes) (hTexts : v.texts = w.texts) : w.StaysTidy v :=
  staysTidy_of_evolves (evolves_of_eq hHierarchy hClasses hObjects)
    (fun _ => .of_objects_eq hObjects) hHashes hTexts

theorem Tidy.of_eq (hw : w.Tidy) (hHierarchy : v.hierarchy = w.hierarchy)
    (hClasses : v.proxyClasses = w.proxyClasses) (hObjects : v.objects = w.objects)
    (hHashes : v.hashes = w.hashes) (hTexts : v.texts = w.texts) : v.Tidy :=
  (staysTidy_of_eq hHierarchy hClasses hObjects hHashes hTexts hw).2

end World

/-- A proxy may be made of handlers of instances that have been built. -/
theorem ProxyBuilder.staysTidy_build (b : ProxyBuilder) (hHas : ∀ x, b.chain.Has x → w.Has x) :
    w.StaysTidy (b.build w).2 := by
  intro hw
  rcases b.build_apply hw.sound with ⟨e, hRun⟩ | ⟨_, o, v, made, _, hRun, hYields⟩
  · rw [hRun]
    exact ⟨.refl w, hw⟩
  · rw [hRun]
    refine staysTidy_of_evolves (fun _ => ⟨hYields.growsTo, hYields.sound⟩) (fun x hx => ?_)
      hYields.cells.hashes hYields.cells.texts hw
    obtain hOld | ⟨_, _, hNew, hChain⟩ := has_of_push hYields.objects hx
    · exact hOld
    · cases hNew
      exact hHas x hChain

namespace InstanceBuilder

variable (b : InstanceBuilder)

/-- All values that an instance would have if it were built now refer to what exists. -/
structure Known (b : InstanceBuilder) (w : World σ) : Prop where
  cls : w.hierarchy.Declared b.contract.cls
  values : ∀ m ∈ b.contract.members, ∀ a, (b.assigned? m.name).or m.default? = some a → w.Knows a

theorem Known.knowsAll {b : InstanceBuilder} (hb : b.Known w) {x : Instance}
    (hContract : x.contract = b.contract) (hAssigned : x.assigned = b.assigned) :
    w.KnowsAll x := by
  refine ⟨hContract ▸ hb.cls, fun m hm => ?_⟩
  have hEach := hb.values m (hContract ▸ hm)
  rw [assigned?, ← hAssigned] at hEach
  rw [Instance.valueOf]
  cases hValue : (Table.find? x.assigned m.name).or m.default? with
  | some a => exact hEach a hValue
  | none => exact .atom rfl fun t ht => by cases ht

/-- An instance may be built of what exists: its cells are its own. -/
theorem staysTidy_build (hb : b.Known w) : w.StaysTidy (b.build w).2 := by
  intro hw
  rcases b.build_apply hw.sound with ⟨e, v, hRun, hFails⟩ | ⟨o, x, v, hRun, hYields⟩ <;> rw [hRun]
  · have hGains := gains_none hFails.growsTo hFails.sound fun _ => .of_objects_eq hFails.objects
    exact ⟨hFails.growsTo, hw.gain hGains (hw.settled.hash.gained hFails.hashes)
      (hw.settled.text.gained hFails.texts)⟩
  · have hGains : w.Gains v (some x) := by
      refine ⟨hYields.growsTo, hYields.sound, fun y hy => ?_, fun y hy => ?_⟩
      · obtain ⟨made, _, hObjects, _⟩ := hYields.object
        refine (has_of_push hObjects hy).imp_right ?_
        rintro ⟨_, _, hNew, hChain⟩
        cases hNew
        cases Chain.has_single_iff.mp hChain
        rfl
      · cases hy
        exact (hb.knowsAll hYields.contract hYields.assigned).mono hYields.growsTo
    exact ⟨hYields.growsTo, hw.gain hGains (hw.settled.hash.gained hYields.hashes)
      (hw.settled.text.gained hYields.texts)⟩

theorem staysTidy_marker (c : ClassId)
    (hb : ∀ b, InstanceBuilder.of w.hierarchy c = .ok b → b.Known w) :
    w.StaysTidy (marker c w : _ × World σ).2 := by
  rw [marker, Run.bind_ok (Run.hierarchy_apply w)]
  cases hOpen : InstanceBuilder.of w.hierarchy c with
  | error e => exact fun hw => ⟨.refl w, hw⟩
  | ok b =>
      rw [Run.ofExcept, Run.bind_ok (Run.pure_apply b w)]
      split
      · exact b.staysTidy_build (hb b hOpen)
      · exact fun hw => ⟨.refl w, hw⟩

theorem known_of_isKnown {b : InstanceBuilder} (hb : b.isKnown w = true) : b.Known w := by
  rw [isKnown, Bool.and_eq_true, decide_eq_true_iff, List.all_eq_true] at hb
  refine ⟨hb.1, fun m hm a ha => (knows_iff w a).mp ?_⟩
  have hAll := hb.2 m hm
  rwa [ha, Option.all_some] at hAll

end InstanceBuilder

namespace World

/-- Each step of a deed leaves a tidy world tidy. -/
theorem staysTidy_growth : World.Growth (StaysTidy : World σ → World σ → Prop) where
  toSteps := by
    refine .of_resembles (fun _ _ _ => .trans)
      (fun _ _ hSame => staysTidy_of_eq hSame.hierarchy hSame.proxyClasses hSame.objects
        hSame.hashes hSame.texts)
      (fun w b => staysTidy_of_evolves (evolves_growth.declared w b) (fun _ => id) rfl rfl)
      (fun w c hook => staysTidy_of_evolves (evolves_growth.native w c hook) (fun x hx => ?_)
        rfl rfl)
    obtain hOld | ⟨_, _, hNew, _⟩ := has_of_push rfl hx
    · exact hOld
    · cases hNew
  proxy b hPlain w := b.staysTidy_build fun x hx => absurd hx (hPlain.values x)
  lazyProxy c hook := by
    refine .bind (fun _ _ _ => .trans) (fun w => staysTidy_of_eq rfl rfl rfl rfl rfl)
      fun cell w => ?_
    exact ProxyBuilder.staysTidy_build _ fun x hx => by cases Chain.has_single_iff.mp hx
  inst b w hKnown := b.staysTidy_build (InstanceBuilder.known_of_isKnown hKnown)

/-- What an instance of a tidy world unfolds to in one world that has grown out of it, it unfolds to
in every other. -/
theorem Tidy.unfolds_between (hw : w.Tidy) (hu : w.GrowsTo u) (hv : w.GrowsTo v) {x : Instance}
    (hx : w.Has x) {d : Datum} (hd : v.Unfolds x d) :
    u.Unfolds x d ∧ d.hash v.hierarchy = d.hash u.hierarchy ∧
      d.text v.hierarchy = d.text u.hierarchy := by
  obtain ⟨hBefore, hHash, hText⟩ := hw.unfolds_of_later hv hx hd
  have hBetween : u.Unfolds x d := hBefore.mono hu
  obtain ⟨-, hHash', hText'⟩ := hw.unfolds_of_later hu hx hBetween
  exact ⟨hBetween, hHash.trans hHash'.symm, hText.trans hText'.symm⟩

/-- An instance of a tidy world may fill its cell with what is right. -/
theorem Tidy.fill {k : Memory σ β} (hv : v.Tidy) (hk : k.Settles v) {x : Instance} (hx : v.Has x)
    {cell : Cell β} (hCell : k.cell? x = some cell) {b : β}
    (hb : ∀ d, v.Unfolds x d → b = k.value v.hierarchy d) :
    v.StaysTidy (k.put ((k.store v).fill cell b) v) := by
  have hFilled := hk.fill v x cell b hv.settled hx hCell hb
  exact fun _ => ⟨hFilled.steady.growsTo, hFilled.tidy hv⟩

/-- Calls leave a tidy world tidy, since what an instance computes for its cells is right for what
it stood for before. -/
theorem tidy_course (client : Client σ) : World.Course client StaysTidy World.Has where
  toGrowth := staysTidy_growth
  lazies _ _ := staysTidy_of_eq rfl rfl rfl rfl rfl
  has _ _ := id
  answer depth hServe w x hx i := by
    have hUnmoved := staysTidy_growth.unmoved (fun _ _ => staysTidy_of_eq rfl rfl rfl rfl rfl) w
    refine x.maintains_answer hUnmoved (fun r v hv => hv.trans (hServe r v)) ?_ ?_ i
    · intro cell hCell u n v hu hRun hv _ hw
      obtain ⟨hGrows, hBetween⟩ := hu hw
      obtain ⟨hLater, hAfter⟩ := hv hw
      refine hv.trans (hAfter.fill (Memory.settles_hash hAfter.separate) (hx.mono hLater) hCell
        fun d hd => ?_) hw
      obtain ⟨hUnfolds, hHash, -⟩ := hw.unfolds_between hGrows hLater hx hd
      rw [x.hash_eq_of_compute hBetween.separate hBetween.settled hUnfolds hRun]
      exact hHash.symm
    · intro cell hCell u s v hu hRun hv _ hw
      obtain ⟨hGrows, hBetween⟩ := hu hw
      obtain ⟨hLater, hAfter⟩ := hv hw
      refine hv.trans (hAfter.fill (Memory.settles_text hAfter.separate) (hx.mono hLater) hCell
        fun d hd => ?_) hw
      obtain ⟨hUnfolds, -, hText⟩ := hw.unfolds_between hGrows hLater hx hd
      rw [x.text_eq_of_compute hBetween.separate hBetween.settled hUnfolds hRun]
      exact hText.symm

end World

/-- What a program can have the library do in a world without forging anything. The instances in its
handlers are such that objects of the world have already, and the values that it builds instances
of, defaults included, refer to objects and classes of the world. Nothing else is asked of it. -/
inductive Proper (client : Client σ) (w : World σ) : {ε α : Type} → Run ε σ α → Prop where
  | command {ε α : Type} {x : Run ε σ α} (hx : Command client x) : Proper client w x
  | newProxy (b : ProxyBuilder) (hHas : ∀ x, b.chain.Has x → w.Has x) : Proper client w b.build
  | newInstance (b : InstanceBuilder) (hb : b.Known w) : Proper client w b.build
  | newMarker (c : ClassId) (hb : ∀ b, InstanceBuilder.of w.hierarchy c = .ok b → b.Known w) :
      Proper client w (InstanceBuilder.marker c)
  | handle (depth : Nat) (x : Handler) (i : Invocation) (hHas : ∀ y, x.Has y → w.Has y) :
      Proper client w (x.handle client (perform client depth) i)
  | resolve (depth : Nat) (k : Chain) (i : Invocation) (hHas : ∀ y, k.Has y → w.Has y) :
      Proper client w (k.resolve client (perform client depth) i)

theorem Proper.operation {x : Run ε σ α} (hx : Proper client w x) : Operation client x := by
  cases hx with
  | command hx => exact .command hx
  | newProxy b _ => exact .newProxy b
  | newInstance b _ => exact .newInstance b
  | newMarker c _ => exact .newMarker c
  | handle depth x i _ => exact .handle depth x i
  | resolve depth k i _ => exact .resolve depth k i

/-- A proper operation leaves a tidy world tidy. -/
theorem Proper.staysTidy {x : Run ε σ α} (hx : Proper client w x) : w.StaysTidy (x w).2 := by
  cases hx with
  | command hx => exact (tidy_course client).command hx w
  | newProxy b hHas => exact b.staysTidy_build hHas
  | newInstance b hb => exact b.staysTidy_build hb
  | newMarker c hb => exact InstanceBuilder.staysTidy_marker c hb
  | handle depth x i hHas => exact (tidy_course client).handle depth x i hHas
  | resolve depth k i hHas => exact (tidy_course client).resolve depth k i hHas

namespace World

/-- The worlds that a program can make of a world by proper operations. -/
inductive ProperlyLeads (client : Client σ) (w : World σ) : World σ → Prop where
  | refl : ProperlyLeads client w w
  | step {ε α : Type} {x : Run ε σ α} {v : World σ} (before : ProperlyLeads client w v)
      (hx : Proper client v x) : ProperlyLeads client w (x v).2

/-- The worlds that a program can come to from its start by proper operations. -/
def ProperlyReached (client : Client σ) (w : World σ) : Prop :=
  ∃ state : σ, ProperlyLeads client { client := state } w

theorem ProperlyLeads.of_proper {x : Run ε σ α} {r : Except (Stop ε) α} (hx : Proper client w x)
    (hRun : x w = (r, v)) : ProperlyLeads client w v := by
  have hStep := ProperlyLeads.step (v := w) .refl hx
  rwa [hRun] at hStep

theorem ProperlyLeads.trans (first : ProperlyLeads client u v) (second : ProperlyLeads client v w) :
    ProperlyLeads client u w := by
  induction second with
  | refl => exact first
  | step _ hx ih => exact ih.step hx

theorem ProperlyLeads.leads (hLeads : ProperlyLeads client w v) : Leads client w v := by
  induction hLeads with
  | refl => exact .refl
  | step _ hx ih => exact ih.step hx.operation

theorem ProperlyLeads.tidy (hLeads : ProperlyLeads client w v) (hw : w.Tidy) : v.Tidy := by
  induction hLeads with
  | refl => exact hw
  | step _ hx ih => exact (hx.staysTidy ih).2

/-- There are no instances at the start. -/
theorem tidy_start (state : σ) : ({ client := state } : World σ).Tidy := by
  have hNone (x : Instance) : ¬ ({ client := state } : World σ).Has x := by
    rintro ⟨o, made, chain, hObject, _⟩
    cases hObject
  have hOwned {β : Type} (k : Memory σ β) : k.Owned { client := state } :=
    ⟨fun x hx => absurd hx (hNone x), fun x _ hx => absurd hx (hNone x)⟩
  have hRight {β : Type} (k : Memory σ β) : k.Right { client := state } { client := state } :=
    ⟨fun _ => id, fun x hx => absurd hx (hNone x)⟩
  exact ⟨sound_start state, ⟨hOwned _, hOwned _⟩, fun x hx => absurd hx (hNone x),
    .refl _, hRight _, hRight _⟩

theorem ProperlyReached.tidy (hReach : ProperlyReached client w) : w.Tidy := by
  obtain ⟨state, hLeads⟩ := hReach
  exact hLeads.tidy (tidy_start state)

end World

end Metaobject
