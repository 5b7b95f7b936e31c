import Metaobject.Proofs.Proxy.Call
import Metaobject.Proofs.Proxy.Lazy
import Metaobject.Proofs.World.Restraint

/-!
Proxies that forward to a target which can be swapped. The cell of a forwarding handler always holds
a target, and only a swap puts another one there, be it client code that has it swapped; what is
made later has cells of its own. So at any time of a run a proxy hands all that it is asked on to
one target, the one that was last put into the cell, and does what this object would do if the
method were invoked on it.
-/
namespace Metaobject

variable {ε σ α : Type} {client : Client σ} {serve serve' : Serve σ} {u v w : World σ}
  {o t first : ObjectRef} {cell : Cell ObjectRef} {i : Invocation} {use : Use}

namespace Forwarding

/-- The cell holds the target. -/
def Aims (cell : Cell ObjectRef) (t : ObjectRef) (w : World σ) : Prop :=
  w.targets.read cell = some t

/-- The target that is current after some swaps, each a target with what came of putting it there.
-/
def current (first : ObjectRef) (swaps : List (ObjectRef × Option ObjectRef)) : ObjectRef :=
  (swaps.getLast?.map Prod.fst).getD first

theorem current_concat (first next : ObjectRef) (swaps : List (ObjectRef × Option ObjectRef))
    (outcome : Option ObjectRef) : current first (swaps ++ [(next, outcome)]) = next := by
  rw [current, List.getLast?_concat]
  rfl

theorem Aims.holds (hw : Aims cell t w) : w.targets.Holds cell := by
  by_contra hNot
  cases (Store.read_of_not_holds hNot).symm.trans hw

theorem aims_of (hMade : (Forwarding.of first : Run ε σ _) u = (.ok cell, w)) :
    Aims cell first w := by
  cases hMade
  exact (Store.read_fill _ _ _ _ u.targets.holds_fresh).trans (if_pos rfl)

theorem Aims.swap (hw : Aims cell t w) (next : ObjectRef) :
    (Forwarding.swap cell next : Run ε σ _) w =
        (.ok (some t), { w with targets := w.targets.fill cell next }) ∧
      Aims cell next { w with targets := w.targets.fill cell next } := by
  refine ⟨?_, (Store.read_fill _ _ _ _ hw.holds).trans (if_pos rfl)⟩
  show (Except.ok (w.targets.read cell), _) = _
  rw [hw]

/-- A cell that holds something is not the next one. -/
theorem Aims.fresh (hw : Aims cell t w) : w.targets.fresh.1 ≠ cell := by
  rintro rfl
  have hEmpty : w.targets.read w.targets.fresh.1 = none :=
    Store.read_of_not_holds (Nat.lt_irrefl _)
  cases hEmpty.symm.trans hw

/-- A new target has a cell of its own. -/
theorem Aims.newTarget (hw : Aims cell t w) (target : ObjectRef) :
    Aims cell t { w with targets := w.targets.fresh.2.fill w.targets.fresh.1 target } := by
  show (w.targets.fresh.2.fill w.targets.fresh.1 target).read cell = some t
  rw [Store.read_fill_of_ne hw.fresh, Store.read_fresh]
  exact hw

/-- The swaps of the target in a cell, in order, with what came of each: those that client code has
made in calls among them. -/
inductive Swapped (cell : Cell ObjectRef) (start : World σ) :
    List (ObjectRef × Option ObjectRef) → World σ → Prop where
  | start : Swapped cell start [] start
  | swap {swaps : List (ObjectRef × Option ObjectRef)} {w : World σ}
      (before : Swapped cell start swaps w) (next : ObjectRef) {outcome : Option ObjectRef}
      {v : World σ}
      (hSwap : (Forwarding.swap cell next : Run ProxyError σ _) w = (.ok outcome, v)) :
      Swapped cell start (swaps ++ [(next, outcome)]) v
  | other {swaps : List (ObjectRef × Option ObjectRef)} {v w : World σ}
      (before : Swapped cell start swaps w) (hSame : ∀ t, Aims cell t w → Aims cell t v) :
      Swapped cell start swaps v

variable {start : World σ} {swaps : List (ObjectRef × Option ObjectRef)}

/-- The cell holds the target that is current. -/
theorem Swapped.aims (hRun : Swapped cell start swaps w) (hStart : Aims cell first start) :
    Aims cell (current first swaps) w := by
  induction hRun with
  | start => exact hStart
  | swap _ next hSwap ih =>
      obtain ⟨hRun, hAims⟩ := ih.swap (ε := ProxyError) next
      cases hRun.symm.trans hSwap
      rwa [current_concat]
  | other _ hSame ih => exact hSame _ ih

/-- What came of a swap came of it where the run was then. -/
theorem Swapped.outcome_eq {before after : List (ObjectRef × Option ObjectRef)} {next : ObjectRef}
    {outcome : Option ObjectRef} (hRun : Swapped cell start swaps w)
    (hStart : Aims cell first start) (hSwaps : swaps = before ++ (next, outcome) :: after) :
    outcome = some (current first before) := by
  induction hRun generalizing after with
  | start => simp at hSwaps
  | @swap swaps w hBefore other result v hSwap ih =>
      rcases split_concat hSwaps with ⟨rfl, hSame⟩ | ⟨between, hBetween⟩
      · cases hSame
        cases ((hBefore.aims hStart).swap _).1.symm.trans hSwap
        rfl
      · exact ih hBetween
  | other _ _ ih => exact ih hSwaps

/-- Every log of swaps up to a world goes on to another, with more swaps. -/
def StaysSwapped (cell : Cell ObjectRef) (start : World σ) (w v : World σ) : Prop :=
  ∀ swaps, Swapped cell start swaps w → ∃ more, Swapped cell start (swaps ++ more) v

theorem StaysSwapped.trans (first : StaysSwapped cell start u v)
    (second : StaysSwapped cell start v w) : StaysSwapped cell start u w := by
  intro swaps hRun
  obtain ⟨between, hBetween⟩ := first swaps hRun
  obtain ⟨more, hAfter⟩ := second _ hBetween
  exact ⟨between ++ more, List.append_assoc .. ▸ hAfter⟩

theorem staysSwapped_of_aims (hSame : ∀ t, Aims cell t w → Aims cell t v) :
    StaysSwapped cell start w v :=
  fun swaps hRun => ⟨[], (List.append_nil swaps).symm ▸ hRun.other hSame⟩

theorem staysSwapped_of_eq (hTargets : v.targets = w.targets) : StaysSwapped cell start w v :=
  staysSwapped_of_aims fun t hw => by rwa [Aims, hTargets]

/-- The making of a proxy has nothing to do with targets. -/
theorem targets_build (b : ProxyBuilder) :
    Run.Keeps (fun w v : World σ => v.targets = w.targets) b.build := by
  have hBind {τ α β : Type} {x : Run τ σ α} {f : α → Run τ σ β}
      (hx : x.Keeps fun w v => v.targets = w.targets)
      (hf : ∀ a, (f a).Keeps fun w v => v.targets = w.targets) :
      (x >>= f).Keeps fun w v => v.targets = w.targets :=
    .bind (fun _ _ _ first second => second.trans first) hx hf
  have hCurrent : Run.Keeps (fun w v : World σ => v.targets = w.targets)
      (Settings.current : Run ProxyError σ Settings) := Settings.keeps_current fun _ => rfl
  have hNew (contracts : List ClassId) : Run.Keeps (fun w v : World σ => v.targets = w.targets)
      (ProxyClass.synthesize contracts : Run ProxyError σ _) := hBind hCurrent fun _ _ => rfl
  rw [ProxyBuilder.build]
  split
  · exact fun _ => rfl
  · refine hBind (fun _ => rfl) fun h => hBind ?_ fun contracts => ?_
    · exact .ofExcept (R := fun w v : World σ => v.targets = w.targets) (fun _ => rfl) _ _
    refine hBind (hBind hCurrent fun s => ?_) fun _ _ => rfl
    split
    · exact hNew contracts
    · refine hBind (fun _ => rfl) fun w => ?_
      split
      · exact fun _ => rfl
      · exact hBind (hNew contracts) fun _ => hBind (fun _ => rfl) fun _ _ => rfl

/-- Whatever client code has the library do, its swaps go on with the log. -/
theorem staysSwapped_growth (cell : Cell ObjectRef) (start : World σ) :
    World.FreeGrowth (StaysSwapped cell start) where
  refl _ := staysSwapped_of_eq rfl
  trans _ _ _ := .trans
  state _ _ := staysSwapped_of_eq rfl
  settings _ := staysSwapped_of_eq rfl
  installed _ _ _ _ := staysSwapped_of_eq rfl
  firstMethods _ _ := staysSwapped_of_eq rfl
  newTarget _ target := staysSwapped_of_aims fun _ hw => hw.newTarget target
  swapped w c next := by
    by_cases hCell : c = cell
    · subst hCell
      exact fun _ hRun => ⟨_, hRun.swap next rfl⟩
    · exact staysSwapped_of_aims fun _ hw => (Store.read_fill_of_ne hCell next).trans hw
  declared _ _ := staysSwapped_of_eq rfl
  native _ _ _ := staysSwapped_of_eq rfl
  cells _ _ _ _ := staysSwapped_of_eq rfl
  build b w := staysSwapped_of_eq (targets_build b w)

section Leaving

variable {D : Deed → Prop}

theorem maintains_bind {τ β : Type} {x : Run τ σ α} {f : α → Run τ σ β}
    (hx : x.Maintains (Aims cell t)) (hf : ∀ a, (f a).Maintains (Aims cell t)) :
    (x >>= f).Maintains (Aims cell t) :=
  Run.Keeps.bind (R := fun w v => Aims cell t w → Aims cell t v)
    (fun _ _ _ first second => second ∘ first) hx hf

theorem maintains_ofExcept {δ τ : Type} (wrap : δ → τ) (r : Except δ α) :
    (Run.ofExcept wrap r : Run τ σ α).Maintains (Aims cell t) :=
  .ofExcept (fun _ => id) wrap r

theorem maintains_build (b : ProxyBuilder) :
    (b.build : Run ProxyError σ ObjectRef).Maintains (Aims cell t) := by
  intro w hw
  rw [Aims, targets_build b w]
  exact hw

theorem maintains_create (c : ClassId) (hook : Hook) :
    (LazyProxy.create c hook : Run ProxyError σ ObjectRef).Maintains (Aims cell t) :=
  maintains_bind (fun _ => id) fun _ => maintains_build _

theorem maintains_recorder (c : ClassId) :
    (recorder c : Run ProxyError σ _).Maintains (Aims cell t) :=
  maintains_bind (fun _ => id) fun _ => maintains_bind (maintains_build _) fun _ _ => id

theorem maintains_instance (b : InstanceBuilder) :
    (b.build : Run InstanceError σ ObjectRef).Maintains (Aims cell t) := by
  intro w hw
  cases hMissing : b.missing.isEmpty with
  | true =>
      obtain ⟨hash?, text?, hashes, texts, hRun, -⟩ := b.build_eq hMissing w
      rw [hRun, Run.mapError_snd]
      exact maintains_build _ _ hw
  | false =>
      rw [InstanceBuilder.build, hMissing]
      exact hw

theorem maintains_install (s : Settings) :
    (s.install : Run SettingsError σ Unit).Maintains (Aims cell t) := by
  intro w hw
  rcases s.install_apply w with ⟨e, hFails⟩ | ⟨-, -, hFixes⟩
  · rwa [hFails]
  · rw [hFixes]
    exact hw

/-- The deed is no swap of the target. -/
def Spares (cell : Cell ObjectRef) (d : Deed) : Prop :=
  ∀ next, d ≠ .swapTarget cell next

theorem maintains_deed {d : Deed} (hd : Spares cell d) :
    (d.run : Run ε σ d.Result).Maintains (Aims cell t) := by
  cases d with
  | declare | newNative | currentTarget | recorded => exact fun _ => id
  | currentSettings => exact Settings.keeps_current fun _ => id
  | install s => exact (maintains_install s).attempt
  | newProxy b hOpen => exact (maintains_build b).attempt
  | newLazyProxy c hook => exact (maintains_create c hook).attempt
  | newRecorder c => exact (maintains_recorder c).attempt
  | newTarget target => exact fun _ hw => hw.newTarget target
  | swapTarget c next =>
      have hOther : c ≠ cell := by
        rintro rfl
        exact hd next rfl
      exact fun _ hw => (Store.read_fill_of_ne hOther next).trans hw
  | newInstance c values =>
      refine maintains_bind (fun _ => id) fun w => ?_
      split
      · exact fun _ => id
      · split
        · exact (maintains_instance _).attempt
        · exact fun _ => id

theorem spared (cell : Cell ObjectRef) (t : ObjectRef) :
    World.Spared (Spares cell) (Aims cell t : World σ → Prop) where
  state _ _ := id
  lazies _ _ := id
  hashes _ _ := id
  texts _ _ := id
  firstMethods _ _ := id
  deeds _ := maintains_deed

/-- Operations that do not swap the target: other deeds, the making of objects of all kinds, and
calls and extractions in the midst of which client code does not swap it either. -/
inductive Leaves (client : Client σ) (cell : Cell ObjectRef) :
    {ε α : Type} → Run ε σ α → Prop where
  | deed {τ : Type} (d : Deed) (hd : Spares cell d) :
      Leaves client cell (d.run : Run τ σ d.Result)
  | install (s : Settings) : Leaves client cell s.install
  | newProxy (b : ProxyBuilder) : Leaves client cell b.build
  | newLazyProxy (c : ClassId) (initializer : Hook) :
      Leaves client cell (LazyProxy.create c initializer)
  | newInstance (b : InstanceBuilder) : Leaves client cell b.build
  | newMarker (c : ClassId) : Leaves client cell (InstanceBuilder.marker c)
  | extract (hClient : client.Does (Spares cell)) (depth : Nat) (c : ClassId)
      (script : ObjectRef → Script σ Value) (hScript : ∀ o, (script o).Does (Spares cell)) :
      Leaves client cell (extractMethod (perform client depth) c script)
  | assign (depth : Nat) (b : InstanceBuilder) (s : MemberSelector σ) (v : Value)
      (hCalled : ∀ script, s = .called script →
        client.Does (Spares cell) ∧ ∀ o, (script o).Does (Spares cell)) :
      Leaves client cell (b.assign (perform client depth) s v)
  | calls (hClient : client.Does (Spares cell)) {ε α : Type} {x : Run ε σ α}
      (hx : Restrained client (Spares cell) x) : Leaves client cell x

theorem maintains_extractMethod (hClient : client.Does (Spares cell)) (depth : Nat) (c : ClassId)
    {script : ObjectRef → Script σ Value} (hScript : ∀ o, (script o).Does (Spares cell)) :
    (extractMethod (perform client depth) c script).Maintains (Aims cell t) := by
  refine maintains_bind (maintains_recorder c) fun made => ?_
  refine maintains_bind (.attempt ?_) fun outcome => maintains_bind (fun _ => id) fun first? => ?_
  · exact (Restrained.script depth _ (hScript made.2)).maintains (spared cell t) hClient
  · split <;> exact fun _ => id

theorem Leaves.maintains {x : Run ε σ α} (hx : Leaves client cell x) :
    x.Maintains (Aims cell t) := by
  cases hx with
  | deed d hd => exact maintains_deed hd
  | install s => exact maintains_install s
  | newProxy b => exact maintains_build b
  | newLazyProxy c initializer => exact maintains_create c initializer
  | newInstance b => exact maintains_instance b
  | newMarker c =>
      refine maintains_bind (fun _ => id) fun h =>
        maintains_bind (maintains_ofExcept _ _) fun b => ?_
      split
      · exact maintains_instance b
      · exact fun _ => id
  | extract hClient depth c script hScript => exact maintains_extractMethod hClient depth c hScript
  | calls hClient hx => exact hx.maintains (spared cell t) hClient
  | assign depth b s v hCalled =>
      refine maintains_bind ?_ fun m => maintains_bind (fun _ => id) fun h =>
        maintains_bind (maintains_ofExcept _ _) fun _ _ => id
      cases s with
      | name name => exact maintains_ofExcept _ _
      | accessor m => exact maintains_ofExcept _ _
      | called script =>
          obtain ⟨hClient, hScript⟩ := hCalled script rfl
          exact maintains_bind (.mapError (maintains_extractMethod hClient depth _ hScript) _)
            fun m => maintains_ofExcept _ _

end Leaving

end Forwarding

section HandingOn

/-- An invocation that carries a receiver is of an instance method. -/
theorem Invocation.WellFormed.ofInstance {h : Hierarchy} (hFormed : i.WellFormed h)
    (hReceiver : i.receiver? = some o) : (h.method i.method).kind = .ofInstance := by
  rcases hFormed.receiver with ⟨hKind, -⟩ | ⟨-, hNone⟩
  · exact hKind
  · cases hReceiver.symm.trans hNone

/-- To hand an invocation on to an object of another class is illegal, and asks for nothing. -/
theorem Invocation.handOn_of_not_isSubtype
    (hClass : w.hierarchy.isSubtype t.cls i.method.owner = false) :
    i.handOn serve t w = (.error (.raised (.illegal (.wrongReceiver t.cls i.method))), w) := by
  rw [handOn, Run.bind_ok (Run.hierarchy_apply w), hClass]
  rfl

/-- The body of the method runs on the object. -/
theorem Invocation.handOn_of_body (hClass : w.hierarchy.isSubtype t.cls i.method.owner = true)
    {hook : Hook} (hBody : (w.hierarchy.method i.method).body? = some hook) :
    i.handOn serve t w = serve (.body hook (some t) i.arguments) w := by
  rw [handOn, Run.bind_ok (Run.hierarchy_apply w), if_pos hClass, hBody]

/-- A method without a body is invoked on the object. -/
theorem Invocation.handOn_of_no_body (hFormed : i.WellFormed w.hierarchy)
    (hReceiver : i.receiver? = some o) (hClass : w.hierarchy.isSubtype t.cls i.method.owner = true)
    (hBody : (w.hierarchy.method i.method).body? = none) :
    i.handOn serve t w = t.invoke serve i.method i.arguments w := by
  have hOther : WellFormed w.hierarchy ⟨i.method, some t, i.arguments⟩ :=
    ⟨.inl ⟨hFormed.ofInstance hReceiver, t, rfl, hClass⟩, hFormed.count, hFormed.types⟩
  have hMade : Invocation.of w.hierarchy i.method (some t) i.arguments =
      .ok ⟨i.method, some t, i.arguments⟩ := by
    rcases decides_of w.hierarchy i.method (some t) i.arguments with ⟨-, hOk⟩ | ⟨hNot, -⟩
    · exact hOk
    · exact absurd hOther hNot
  rw [handOn, Run.bind_ok (Run.hierarchy_apply w), if_pos hClass, hBody, ObjectRef.invoke,
    Run.bind_ok (Run.hierarchy_apply w), hMade]
  rfl

end HandingOn

namespace Forwarding

/-- The handler hands what it is asked on to the target, and never declines. -/
theorem Aims.handle (hw : Aims cell t w) (hFormed : i.WellFormed w.hierarchy)
    (hReceiver : i.receiver? = some o) :
    (Handler.forward cell).handle client serve i w =
      (i.handOn serve t >>= fun a => pure (some a)) w := by
  rw [Handler.handle, Run.bind_ok (Run.get_apply w), hw]
  exact Run.bind_congr_apply (Invocation.redirect_apply (hFormed.ofInstance hReceiver) t)

/-- The fallback of a proxy with this handler alone is never asked. -/
theorem Aims.serve_ask (hw : Aims cell t w) {made : ProxyClass} {fallback : Handler}
    (hObject : w.object? o = some (.proxy made ⟨[.forward cell], fallback⟩))
    (hFormed : i.WellFormed w.hierarchy) (hReceiver : i.receiver? = some o) :
    (Request.ask o i).serveBy client serve w = i.handOn serve t w := by
  have hHandle : (Handler.forward cell).handle client serve i w = _ :=
    hw.handle hFormed hReceiver
  rw [Request.serveBy, ObjectRef.answer, Run.bind_ok (Run.get_apply w), hObject]
  rcases hRun : i.handOn serve t w with ⟨e | a, v⟩
  · exact Chain.resolve_first_error (hHandle.trans (Run.bind_error hRun))
  · exact Chain.resolve_first (hHandle.trans (Run.bind_ok hRun))

/-- What becomes of a use of a proxy that forwards, by the target that is current. -/
structure Forwards (client : Client σ) (cell : Cell ObjectRef) (o t : ObjectRef) (use : Use)
    (w : World σ) : Prop where
  /-- A use that does not pass look-up and checks fails, and asks for nothing. -/
  rejected : ∀ e, use.invocation w o = .error e → ∀ serve : Serve σ,
    use.run serve o w = (.error (.raised e), w)
  /-- The handler hands any other use on to the target, and never declines. -/
  handled : ∀ i, use.invocation w o = .ok i → ∀ serve : Serve σ,
    (Handler.forward cell).handle client serve i w =
      (i.handOn serve t >>= fun a => pure (some a)) w
  /-- If the method does not take the target, that is illegal, and nothing is asked for. -/
  illegal : ∀ i, use.invocation w o = .ok i →
    w.hierarchy.isSubtype t.cls i.method.owner = false →
    (∀ serve : Serve σ, (Request.ask o i).serveBy client serve w =
      (.error (.raised (.illegal (.wrongReceiver t.cls i.method))), w)) ∧
    ∀ depth, use.run (perform client (depth + 1)) o w =
      (.error (.raised (.illegal (.wrongReceiver t.cls i.method))), w)
  /-- If the method has a body, the body runs on the target. -/
  carriedOut : ∀ i hook, use.invocation w o = .ok i →
    w.hierarchy.isSubtype t.cls i.method.owner = true →
    (w.hierarchy.method i.method).body? = some hook →
    ∀ depth, use.run (perform client (depth + 1)) o w =
      (perform client depth (.body hook (some t) i.arguments) >>= fun a =>
        Run.ofExcept id (use.result a)) w
  /-- If it has none, the method is invoked on the target. -/
  passedOn : ∀ i, use.invocation w o = .ok i →
    w.hierarchy.isSubtype t.cls i.method.owner = true →
    (w.hierarchy.method i.method).body? = none →
    ∀ depth, use.run (perform client (depth + 1)) o w =
      (t.invoke (perform client depth) i.method i.arguments >>= fun a =>
        Run.ofExcept id (use.result a)) w

/-- A use that reaches the handler is delivered to the target. -/
theorem Aims.delivers (hw : Aims cell t w) {made : ProxyClass} {fallback : Handler}
    (hObject : w.object? o = some (.proxy made ⟨[.forward cell], fallback⟩))
    (hUse : use.invocation w o = .ok i) (depth : Nat) :
    use.run (perform client (depth + 1)) o w = use.deliver (perform client depth) i t w := by
  obtain ⟨hReceiver, hFormed⟩ := Use.wellFormed_of_invocation hUse
  rw [use.run_apply, hUse]
  exact Run.bind_congr_apply (hw.serve_ask hObject hFormed hReceiver)

theorem Aims.forwards (hw : Aims cell t w) {made : ProxyClass} {fallback : Handler}
    (hObject : w.object? o = some (.proxy made ⟨[.forward cell], fallback⟩)) (client : Client σ)
    (use : Use) : Forwards client cell o t use w where
  rejected e hUse serve := by rw [use.run_apply, hUse]
  handled i hUse serve := by
    obtain ⟨hReceiver, hFormed⟩ := Use.wellFormed_of_invocation hUse
    exact hw.handle hFormed hReceiver
  illegal i hUse hClass := by
    obtain ⟨hReceiver, hFormed⟩ := Use.wellFormed_of_invocation hUse
    refine ⟨fun serve => ?_, fun depth => ?_⟩
    · rw [hw.serve_ask hObject hFormed hReceiver, Invocation.handOn_of_not_isSubtype hClass]
    · rw [hw.delivers hObject hUse depth]
      exact Run.bind_error (Invocation.handOn_of_not_isSubtype hClass)
  carriedOut i hook hUse hClass hBody depth := by
    rw [hw.delivers hObject hUse depth]
    exact Run.bind_congr_apply (Invocation.handOn_of_body hClass hBody)
  passedOn i hUse hClass hBody depth := by
    obtain ⟨hReceiver, hFormed⟩ := Use.wellFormed_of_invocation hUse
    rw [hw.delivers hObject hUse depth]
    exact Run.bind_congr_apply (Invocation.handOn_of_no_body hFormed hReceiver hClass hBody)

end Forwarding

open Forwarding

/-- A forwarding handler at any time, by the target that was last put into its cell, be it client
code that has put it there. Each swap has returned the target that was current before it, and so
does the next. Whatever is asked of a proxy of which this is the only handler, and passes look-up
and checks, is handed on to the current target and to nothing else: it is illegal if the method does
not take the target, and nothing runs then; otherwise the body of the method runs on the target with
the same arguments, or, if there is none, the method is invoked on the target, once, and comes to
the same result or error. Whatever a program has the library do, the log of swaps goes on with those
made meanwhile, and if none is made the current target stays. -/
theorem forwarding_over_time (client : Client σ) {start : World σ}
    (hMade : (Forwarding.of first : Run ε σ _) u = (.ok cell, start))
    {swaps : List (ObjectRef × Option ObjectRef)} (hRun : Swapped cell start swaps w) :
    (∀ before next outcome after, swaps = before ++ (next, outcome) :: after →
      outcome = some (current first before)) ∧
    (∀ next, (Forwarding.swap cell next : Run ε σ _) w =
      (.ok (some (current first swaps)), { w with targets := w.targets.fill cell next })) ∧
    (∀ o made fallback, w.object? o = some (.proxy made ⟨[.forward cell], fallback⟩) →
      ∀ use, Forwards client cell o (current first swaps) use w) ∧
    ∀ {ε α : Type} (x : Run ε σ α),
      (Operation client x → ∃ more, Swapped cell start (swaps ++ more) (x w).2) ∧
      (Leaves client cell x → Swapped cell start swaps (x w).2) := by
  have hStart := aims_of hMade
  have hAims := hRun.aims hStart
  refine ⟨fun before next outcome after => hRun.outcome_eq hStart, fun next => (hAims.swap next).1,
    fun o made fallback hObject => hAims.forwards hObject client,
    fun x => ⟨fun hx => ?_, fun hx => ?_⟩⟩
  · exact (staysSwapped_growth cell start).operation hx w swaps hRun
  · exact hRun.other fun t => hx.maintains w

/-- A client whose objects answer with their numbers, and have the first object put into the cell.
-/
def returningClient : Client Unit where
  body _ _ _ := .done .null
  native hook _ := .enact (.swapTarget ⟨0⟩ ⟨0, ⟨3⟩⟩) fun _ => .done (.int (Int32.ofNat hook.id))
  handler _ _ := .done none
  initializer _ := Script.failText "no initializer"

/-- A world with an interface and an object of it. -/
def numberedGate : World Unit :=
  let w := (gateType.declare (ε := ProxyError) { client := () }).2
  (Run.newObject (ε := ProxyError) ⟨3⟩ (.native ⟨0⟩) w).2

/-- The object has become the target of a forwarding handler. -/
def aimedGate : World Unit :=
  (Forwarding.of (ε := ProxyError) ⟨0, ⟨3⟩⟩ numberedGate).2

/-- A call of the proxy that is made next. -/
def openForwarding : Script Unit Value :=
  .call ⟨1, ⟨4⟩⟩ "open" [.string "7"] Script.ofResult

/-- A proxy forwards to the object until another one takes its place, which is called once: it puts
the first one back. -/
theorem forwarding_gate :
    ∃ w more, Swapped ⟨0⟩ aimedGate [(⟨2, ⟨3⟩⟩, some ⟨0, ⟨3⟩⟩)] w ∧
      (∀ next, ∃ v, (Forwarding.swap ⟨0⟩ next : Run ProxyError Unit _) w =
        (.ok (some ⟨2, ⟨3⟩⟩), v)) ∧
      Forwards returningClient ⟨0⟩ ⟨1, ⟨4⟩⟩ ⟨2, ⟨3⟩⟩ (.call "open" [.string "7"]) w ∧
      ((openForwarding.run (perform returningClient 2) w).1.toOption.bind Value.int? = some 1) ∧
      Swapped ⟨0⟩ aimedGate ((⟨2, ⟨3⟩⟩, some ⟨0, ⟨3⟩⟩) :: more)
        (openForwarding.run (perform returningClient 2) w).2 ∧
      current ⟨0, ⟨3⟩⟩ ((⟨2, ⟨3⟩⟩, some ⟨0, ⟨3⟩⟩) :: more) = ⟨0, ⟨3⟩⟩ := by
  have hMade : (Forwarding.of ⟨0, ⟨3⟩⟩ : Run ProxyError Unit _) numberedGate =
      (.ok ⟨0⟩, aimedGate) := rfl
  have hOver {swaps : List (ObjectRef × Option ObjectRef)} {w : World Unit}
      (hRun : Swapped ⟨0⟩ aimedGate swaps w) :=
    forwarding_over_time returningClient hMade hRun
  have hProxy := ((hOver .start).2.2.2 _).2 (.newProxy (ProxyBuilder.single ⟨3⟩ (.forward ⟨0⟩)))
  have hObject := ((hOver hProxy).2.2.2 _).2
    (.deed (τ := ProxyError) (.newNative ⟨3⟩ ⟨1⟩) fun _ => Deed.noConfusion)
  have hSwapped := hObject.swap ⟨2, ⟨3⟩⟩ rfl
  obtain ⟨-, hNext, hForwards, hLater⟩ := hOver hSwapped
  obtain ⟨more, hCalled⟩ := (hLater _).1 (.command (.call (.script 2 openForwarding)))
  refine ⟨_, more, hSwapped, fun next => ⟨_, hNext next⟩, hForwards ⟨1, ⟨4⟩⟩ _ _ rfl _,
    by decide +kernel, hCalled, ?_⟩
  exact Option.some.inj ((hCalled.aims (aims_of hMade)).symm.trans (by decide +kernel))

end Metaobject
