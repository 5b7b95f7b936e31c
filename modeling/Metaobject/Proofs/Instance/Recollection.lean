import Metaobject.Proofs.Instance.Conduct
import Metaobject.Proofs.Proxy.Lazy

/-!
What instances keep. The hash and the text of an instance are kept in one way: computed when first
asked for, and given from then on without another computation. No operation of any kind takes away
what a cell holds, so what has been given once is given ever after.
-/
namespace Metaobject

variable {ε σ α β : Type} {client : Client σ} {serve : Serve σ} {u v w : World σ} {o : ObjectRef}
  {x : Instance}

/-- What the cells of a store hold they hold in another as well. -/
structure Store.Retains (s t : Store β) : Prop where
  held : ∀ c, s.Holds c → t.Holds c
  read : ∀ c b, s.read c = some b → t.read c = some b

namespace Store.Retains

variable {r s t : Store β}

theorem refl (s : Store β) : s.Retains s := ⟨fun _ => id, fun _ _ => id⟩

theorem trans (first : r.Retains s) (second : s.Retains t) : r.Retains t :=
  ⟨fun c hc => second.held c (first.held c hc), fun c b hb => second.read c b (first.read c b hb)⟩

/-- A cell that is empty may be filled. -/
theorem fill (hRetains : s.Retains t) {c : Cell β} (hEmpty : t.read c = none) (b : β) :
    s.Retains (t.fill c b) where
  held d hd := holds_fill.mpr (hRetains.held d hd)
  read d a ha := by
    have hThere := hRetains.read d a ha
    have hOther : c ≠ d := by
      rintro rfl
      cases hEmpty.symm.trans hThere
    rw [read_fill_of_ne hOther, hThere]

end Store.Retains

theorem Store.Gains.retains {s t : Store β} {new? : Option (Cell β)} (hGains : s.Gains t new?) :
    s.Retains t where
  held := hGains.held
  read c _ hb := (hGains.read c).trans hb

namespace World

/-- All that is kept of instances in one world is kept in another. -/
structure Remembers (w v : World σ) : Prop where
  hashes : w.hashes.Retains v.hashes
  texts : w.texts.Retains v.texts

theorem remembers_of_eq (hHashes : v.hashes = w.hashes) (hTexts : v.texts = w.texts) :
    w.Remembers v :=
  ⟨hHashes ▸ .refl _, hTexts ▸ .refl _⟩

theorem Remembers.refl (w : World σ) : w.Remembers w := remembers_of_eq rfl rfl

theorem Remembers.trans (first : u.Remembers v) (second : v.Remembers w) : u.Remembers w :=
  ⟨first.hashes.trans second.hashes, first.texts.trans second.texts⟩

/-- One world may come after another, be it in the midst of calls: it has all classes and objects of
the other, and all that is kept of instances. -/
structure Precedes (w v : World σ) : Prop where
  growsTo : w.GrowsTo v
  sound : w.Sound → v.Sound
  remembers : w.Remembers v

theorem Precedes.refl (w : World σ) : w.Precedes w := ⟨.refl w, id, .refl w⟩

theorem Precedes.trans (first : u.Precedes v) (second : v.Precedes w) : u.Precedes w where
  growsTo := first.growsTo.trans second.growsTo
  sound := second.sound ∘ first.sound
  remembers := first.remembers.trans second.remembers

/-- From a sound world on, nothing is taken away. -/
def Preserves (w v : World σ) : Prop :=
  w.Sound → w.Precedes v

theorem Preserves.trans (first : u.Preserves v) (second : v.Preserves w) : u.Preserves w :=
  fun hSound => (first hSound).trans (second ((first hSound).sound hSound))

theorem Evolves.preserves (hEvolves : w.Evolves v) (hRemembers : w.Remembers v) :
    w.Preserves v :=
  fun hSound => ⟨(hEvolves hSound).1, fun _ => (hEvolves hSound).2, hRemembers⟩

theorem preserves_of_eq (hHierarchy : v.hierarchy = w.hierarchy)
    (hClasses : v.proxyClasses = w.proxyClasses) (hObjects : v.objects = w.objects)
    (hRemembers : w.Remembers v) : w.Preserves v :=
  (evolves_of_eq hHierarchy hClasses hObjects).preserves hRemembers

end World

theorem ProxyBuilder.preserves_build (b : ProxyBuilder) :
    (b.build : Run ProxyError σ ObjectRef).Keeps World.Preserves := by
  intro w hSound
  rcases b.build_apply hSound with ⟨e, hRun⟩ | ⟨_, o, v, made, _, hRun, hYields⟩ <;> rw [hRun]
  · exact .refl w
  · exact ⟨hYields.growsTo, fun _ => hYields.sound,
      World.remembers_of_eq hYields.cells.hashes hYields.cells.texts⟩

theorem InstanceBuilder.preserves_build (b : InstanceBuilder) :
    (b.build : Run InstanceError σ ObjectRef).Keeps World.Preserves := by
  intro w hSound
  rcases b.build_apply hSound with ⟨e, v, hRun, hFails⟩ | ⟨o, x, v, hRun, hYields⟩ <;> rw [hRun]
  · exact ⟨hFails.growsTo, fun _ => hFails.sound, hFails.hashes.retains, hFails.texts.retains⟩
  · exact ⟨hYields.growsTo, fun _ => hYields.sound, hYields.hashes.retains, hYields.texts.retains⟩

namespace World

/-- Each step of a deed takes nothing away. -/
theorem preserves_growth : World.Growth (Preserves : World σ → World σ → Prop) where
  toSteps := .of_resembles (fun _ _ _ => .trans)
    (fun _ _ hSame => preserves_of_eq hSame.hierarchy hSame.proxyClasses hSame.objects
      (remembers_of_eq hSame.hashes hSame.texts))
    (fun w b => (evolves_growth.declared w b).preserves (remembers_of_eq rfl rfl))
    (fun w c hook => (evolves_growth.native w c hook).preserves (remembers_of_eq rfl rfl))
  proxy b _ := b.preserves_build
  lazyProxy _ _ :=
    .bind (fun _ _ _ => .trans) (fun _ => preserves_of_eq rfl rfl rfl (remembers_of_eq rfl rfl))
      fun _ => ProxyBuilder.preserves_build _
  inst b w _ := b.preserves_build w

theorem preserves_unmoved (w : World σ) : Unmoved w.Preserves :=
  preserves_growth.unmoved (fun _ _ => preserves_of_eq rfl rfl rfl (remembers_of_eq rfl rfl)) w

/-- A hash may be kept in a cell that is empty. -/
theorem Preserves.fill_hash (hv : w.Preserves v) {cell : Cell Int32}
    (hEmpty : v.hashes.read cell = none) (n : Int32) :
    w.Preserves { v with hashes := v.hashes.fill cell n } :=
  hv.trans (preserves_of_eq rfl rfl rfl ⟨.fill (.refl _) hEmpty n, .refl _⟩)

/-- A text may be kept in a cell that is empty. -/
theorem Preserves.fill_text (hv : w.Preserves v) {cell : Cell String}
    (hEmpty : v.texts.read cell = none) (s : String) :
    w.Preserves { v with texts := v.texts.fill cell s } :=
  hv.trans (preserves_of_eq rfl rfl rfl ⟨.refl _, .fill (.refl _) hEmpty s⟩)

/-- Calls take nothing away, since an instance fills its cell only while that is empty. -/
theorem preserves_course (client : Client σ) : World.Course client Preserves fun _ _ => True where
  toGrowth := preserves_growth
  lazies _ _ := preserves_of_eq rfl rfl rfl (remembers_of_eq rfl rfl)
  has _ _ _ := trivial
  answer depth hServe w x _ i := by
    refine x.maintains_answer w.preserves_unmoved (fun r v hv => hv.trans (hServe r v)) ?_ ?_ i
    · exact fun cell _ u n v _ _ hv hEmpty => hv.fill_hash hEmpty n
    · exact fun cell _ u s v _ _ hv hEmpty => hv.fill_text hEmpty s

theorem preserves_serves (w : World σ) (client : Client σ) (depth : Nat) :
    w.preserves_unmoved.accord.Serves (perform client depth) (perform client depth) :=
  w.preserves_unmoved.serves fun r _ hv => hv.trans ((preserves_course client).perform depth r _)

end World

/-- No operation takes away what is kept of instances. -/
theorem Operation.preserves {x : Run ε σ α} (hx : Operation client x) :
    x.Keeps World.Preserves := by
  have hCourse := World.preserves_course client
  refine hx.keeps_of hCourse ProxyBuilder.preserves_build InstanceBuilder.preserves_build ?_ ?_
  · exact fun depth x i w => hCourse.handle depth x i fun _ _ => trivial
  · exact fun depth k i w => hCourse.resolve depth k i fun _ _ => trivial

theorem World.Leads.preserves (hLeads : World.Leads client w v) : w.Preserves v := by
  induction hLeads with
  | refl => exact World.preserves_growth.refl w
  | step _ hx ih => exact ih.trans (hx.preserves _)

/-- Something that an instance remembers, with the method that asks for it, the value that it is
given as, and how it is computed anew. -/
structure Recall (σ β : Type) extends Memory σ β where
  method : MethodRef
  wrap : β → Value
  compute : Instance → Serve σ → Run ProxyError σ β

namespace Recall

/-- The hash of instances. -/
def hash : Recall σ Int32 where
  toMemory := Memory.hash
  method := .hashCode
  wrap := .int
  compute x serve := x.computeHash serve

/-- The text of instances. -/
def text : Recall σ String where
  toMemory := Memory.text
  method := .toText
  wrap := .string
  compute x serve := x.computeText serve

variable (k : Recall σ β)

/-- What the cell holds, or else what is computed now, which is kept if there is a cell. -/
def give (x : Instance) (serve : Serve σ) : Run ProxyError σ β :=
  k.onceIf (k.cell? x) (k.compute x serve)

/-- Nothing is kept of an instance. -/
def Empty (x : Instance) (w : World σ) : Prop :=
  ∀ c, k.cell? x = some c → (k.store w).read c = none

/-- The instance answers a method with what it keeps, and calls take nothing away that is kept. -/
structure Lawful (k : Recall σ β) : Prop where
  answer : ∀ x serve i, i.method = k.method →
    x.answer serve i = k.give x serve >>= fun b => pure (some (k.wrap b))
  store_put : ∀ s w, k.store (k.put s w) = s
  result : ∀ (use : Use) (w : World σ) o i b, use.invocation w o = .ok i → i.method = k.method →
    use.result (k.wrap b) = .ok (k.wrap b)
  retains : ∀ w v : World σ, w.Remembers v → (k.store w).Retains (k.store v)
  compute : ∀ (client : Client σ) x depth,
    (k.compute x (perform client depth)).Keeps World.Preserves

end Recall

/-- What a use of an object can do is what asking it can do. -/
theorem Use.leads (use : Use) (o : ObjectRef) (depth : Nat) (w : World σ) :
    World.Leads client w (use.run (perform client depth) o w).2 := by
  rw [use.run_apply]
  split
  · exact .refl
  · next i _ =>
      have hAsk : World.Leads client w (perform client depth (.ask o i) w).2 :=
        .step .refl (.command (.call (.serve depth (.ask o i))))
      rcases hRun : perform client depth (.ask o i) w with ⟨e | a, v⟩ <;> rw [hRun] at hAsk
      · rwa [ask, Run.bind_error hRun]
      · rwa [ask, Run.bind_ok hRun, Run.ofExcept_snd]

namespace Recall

theorem lawful_hash : (hash : Recall σ Int32).Lawful where
  answer x serve i hMethod := by
    change i.method = .hashCode at hMethod
    rw [Instance.answer, hMethod, if_neg (by decide), if_pos rfl]
    rfl
  store_put _ _ := rfl
  result use w o i b hUse hMethod := by
    cases use with
    | equals v => cases (Use.method_of_checked hUse).symm.trans hMethod
    | toText => cases (Use.method_of_checked hUse).symm.trans hMethod
    | extract => cases (Use.method_of_extract hUse).symm.trans hMethod
    | _ => rfl
  retains _ _ hRemembers := hRemembers.hashes
  compute client x depth w := w.preserves_unmoved.agree_iff.mp
    (x.agree_computeHash (w.preserves_serves client depth)) w (World.preserves_growth.refl w)

theorem lawful_text : (text : Recall σ String).Lawful where
  answer x serve i hMethod := by
    change i.method = .toText at hMethod
    rw [Instance.answer, hMethod, if_neg (by decide), if_neg (by decide), if_pos rfl]
    rfl
  store_put _ _ := rfl
  result use w o i b hUse hMethod := by
    cases use with
    | equals v => cases (Use.method_of_checked hUse).symm.trans hMethod
    | hashCode => cases (Use.method_of_checked hUse).symm.trans hMethod
    | extract => cases (Use.method_of_extract hUse).symm.trans hMethod
    | _ => rfl
  retains _ _ hRemembers := hRemembers.texts
  compute client x depth w := w.preserves_unmoved.agree_iff.mp
    (x.agree_computeText (w.preserves_serves client depth)) w (World.preserves_growth.refl w)

variable {k : Recall σ β} {cell : Cell β} {b : β}

/-- What is kept is given as it is. -/
theorem give_of_some (hCell : k.cell? x = some cell) (hRead : (k.store w).read cell = some b) :
    k.give x serve w = (.ok b, w) := by
  rw [give, hCell]
  exact Shelf.once_of_some hRead

/-- While nothing is kept, what is asked for is computed. A failure is passed on as it is, and
nothing is kept of it. -/
theorem give_of_error (hEmpty : k.Empty x w) {e : Stop ProxyError}
    (hCompute : k.compute x serve w = (.error e, v)) :
    k.give x serve w = (.error e, v) := by
  rw [give]
  cases hCell : k.cell? x with
  | none => exact hCompute
  | some c => exact Shelf.once_of_error (hEmpty c hCell) hCompute

/-- What has been computed is put into the cell if there is one, and it is still empty. -/
theorem give_of_ok (hEmpty : k.Empty x w) (hCompute : k.compute x serve w = (.ok b, v))
    (hStill : k.Empty x v) :
    k.give x serve w = (.ok b,
      (k.cell? x).elim v fun c => k.put ((k.store v).fill c b) v) := by
  rw [give]
  cases hCell : k.cell? x with
  | none => exact hCompute
  | some c =>
      exact (Shelf.once_of_ok (hEmpty c hCell) hCompute).trans
        (Shelf.keep_of_none (hStill c hCell))

/-- What has been computed is not given if something else has been kept meanwhile. -/
theorem give_of_kept {c : Cell β} (hCell : k.cell? x = some c) (hEmpty : k.Empty x w)
    (hCompute : k.compute x serve w = (.ok b, v)) {d : β} (hRead : (k.store v).read c = some d) :
    k.give x serve w = (.error .exhausted, v) := by
  rw [give, hCell]
  exact (Shelf.once_of_ok (hEmpty c hCell) hCompute).trans (Shelf.keep_of_some hRead)

/-- What an instance gives depends only on what computing it comes to. -/
theorem give_congr {serve' : Serve σ} (hCompute : k.compute x serve w = k.compute x serve' w) :
    k.give x serve w = k.give x serve' w := by
  rw [give, give]
  cases hCell : k.cell? x with
  | none => exact hCompute
  | some c => exact Shelf.once_congr hCompute

/-- What has been given is kept if there is a cell for it. -/
theorem kept_of_give (hk : k.Lawful) (hSound : w.Sound) {depth : Nat}
    (hCell : k.cell? x = some cell) (hHeld : (k.store w).Holds cell)
    (hGive : k.give x (perform client depth) w = (.ok b, v)) :
    (k.store v).read cell = some b := by
  rw [give, hCell] at hGive
  obtain ⟨rfl, hRead⟩ | ⟨z, hCompute, hStill, rfl⟩ := Shelf.eq_of_once_ok hGive
  · exact hRead
  · have hBefore : w.Precedes z := by
      simpa only [hCompute] using hk.compute client x depth w hSound
    have hRetains := hk.retains w z hBefore.remembers
    rw [hk.store_put, Store.read_fill _ _ _ _ (hRetains.held cell hHeld), if_pos rfl]

end Recall

/-- An object that stands for an instance is asked for what the instance gives. -/
theorem World.Stands.ask_recall {k : Recall σ β} (hk : k.Lawful) (ho : w.Stands o x)
    {i : Invocation} (hMethod : i.method = k.method) (serve : Serve σ) :
    (Request.ask o i).serveBy client serve w =
      (k.give x serve >>= fun b => pure (k.wrap b)) w := by
  rw [ho.serveBy_apply client serve i, hk.answer x _ i hMethod, bind_assoc]
  rfl

/-- The uses that ask for it give it as it is. -/
theorem World.Stands.use_recall {k : Recall σ β} (hk : k.Lawful) (ho : w.Stands o x) {use : Use}
    {i : Invocation} (hUse : use.invocation w o = .ok i) (hMethod : i.method = k.method)
    (serve : Serve σ) :
    ((Request.ask o i).serveBy client serve >>= fun a => Run.ofExcept id (use.result a)) w =
      (k.give x serve >>= fun b => pure (k.wrap b)) w := by
  refine (Run.bind_congr_apply (ho.ask_recall hk hMethod serve)).trans ?_
  rw [bind_assoc]
  refine congrArg (fun f => (k.give x serve >>= f) w) (funext fun b => ?_)
  show (Run.ofExcept id (use.result (k.wrap b)) : Run ProxyError σ Value) = pure (k.wrap b)
  rw [hk.result use w o i b hUse hMethod]
  rfl

namespace World

/-- From a world on, an object is asked by a method in vain: wherever it is asked, be it in the
midst of other calls, the answer is the same value, and nothing is done for it. -/
def Recalls (client : Client σ) (o : ObjectRef) (m : MethodRef) (a : Value) (w : World σ) : Prop :=
  ∀ v, w.Precedes v → ∀ depth (i : Invocation), i.method = m →
    perform client (depth + 1) (.ask o i) v = (.ok a, v)

/-- What an instance has given once, and has a cell for, it gives ever after. -/
theorem Stands.recalls {k : Recall σ β} (hk : k.Lawful) (hSound : w.Sound) (ho : w.Stands o x)
    {cell : Cell β} (hCell : k.cell? x = some cell) (hHeld : (k.store w).Holds cell)
    {depth : Nat} {i : Invocation} (hMethod : i.method = k.method) {a : Value}
    (hAsk : perform client (depth + 1) (.ask o i) w = (.ok a, v)) (hAfter : w.Precedes v) :
    Recalls client o k.method a v := by
  obtain ⟨b, z, hGive, hValue⟩ :=
    Run.exists_of_bind_ok ((ho.ask_recall hk hMethod _).symm.trans hAsk)
  cases hValue
  have hRead := Recall.kept_of_give hk hSound hCell hHeld hGive
  intro z hLater depth' j hMethod'
  have hThere : z.Stands o x := ho.mono (hAfter.trans hLater).growsTo
  exact (hThere.ask_recall hk hMethod' _).trans (Run.bind_ok (Recall.give_of_some hCell
    ((hk.retains v z hLater.remembers).read cell b hRead)))

end World

end Metaobject
