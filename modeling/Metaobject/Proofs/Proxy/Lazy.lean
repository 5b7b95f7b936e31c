import Metaobject.Proofs.Proxy.Elsewhere
import Metaobject.Proofs.Proxy.Use

/-!
Uses of lazy proxies. The cell of a lazy proxy holds its target, or nothing yet. To ask for the
target gives what the cell holds. Any other use that reaches the handler goes to the target; if
there is none, the initializer is run first and gives it, or the use fails as the initializer does.

That the initializer is not run shows in that any other one in its place would lead to the same
outcome, and that it does not use the proxy in that it would run the same whatever the proxy did.
-/
namespace Metaobject

variable {σ α : Type} {client : Client σ} {serve : Serve σ} {u v w : World σ} {o : ObjectRef}
  {hook : Hook} {cell : Cell ObjectRef}

/-- The request asks an object. -/
def Request.Asks (o : ObjectRef) : World σ → Request → Prop
  | _, .ask p _ => p.id = o.id
  | _, .body .. => False

/-- The way of serving requests that has another initializer in place of every one. -/
def serveInstead (client : Client σ) (initializer : Script σ ObjectRef) (serve : Serve σ) :
    Serve σ := fun r =>
  r.serveBy { client with initializer := fun _ => initializer } serve

namespace LazyProxy

/-- Whatever initializer the object may have, it is not run in a computation. -/
def Idle (client : Client σ) (o : ObjectRef) (x : Serve σ → Run ProxyError σ α) (depth : Nat)
    (w : World σ) : Prop :=
  ∀ initializer,
    x (performApart client (Request.Asks o) (serveInstead client initializer) depth) w =
      x (perform client depth) w

/-- An initializer does not use an object: it runs the same whatever the object does. -/
def Silent (client : Client σ) (o : ObjectRef) (hook : Hook) (w : World σ) : Prop :=
  ∀ (alarm : Run ProxyError σ Value) depth,
    (client.initializer hook).run
        (performApart client (Request.Asks o) (fun _ _ => alarm) depth) w =
      (client.initializer hook).run (perform client depth) w

end LazyProxy

/-- An invocation handed on to an object: it is illegal if the method does not take the object, and
otherwise the body of the method runs on the object, or the object answers if there is none. -/
def Invocation.handOn (serve : Serve σ) (i : Invocation) (t : ObjectRef) :
    Run ProxyError σ Value := do
  let h ← Run.hierarchy
  if h.isSubtype t.cls i.method.owner then
    match (h.method i.method).body? with
    | some hook => serve (.body hook (some t) i.arguments)
    | none => serve (.ask t { i with receiver? := some t })
  else Run.raise (.illegal (.wrongReceiver t.cls i.method))

/-- An invocation is handed on to an object, and something made of the answer. -/
def Use.deliver (serve : Serve σ) (i : Invocation) (t : ObjectRef) (use : Use) :
    Run ProxyError σ Value := do
  Run.ofExcept id (use.result (← i.handOn serve t))

/-- Instance methods are handed on when they are redirected. -/
theorem Invocation.redirect_apply {i : Invocation}
    (hKind : (w.hierarchy.method i.method).kind = .ofInstance) (t : ObjectRef) :
    i.redirect serve t w = i.handOn serve t w := by
  rw [redirect, handOn, Run.bind_ok (Run.hierarchy_apply w), Run.bind_ok (Run.hierarchy_apply w),
    withReceiver, checkReceiver.eq_def, hKind]
  dsimp only
  split
  · show carryOut serve { i with receiver? := some t } w = _
    rw [carryOut, Run.bind_ok (Run.hierarchy_apply w)]
    cases (w.hierarchy.method i.method).body? <;> rfl
  · rfl

namespace LazyProxy

/-- The target is what the initializer gives now, if it did not use the proxy. -/
theorem lazyTarget_of_ok {t : ObjectRef} (hRead : w.lazies.read cell = none)
    (hRun : (client.initializer hook).run serve w = (.ok t, v))
    (hStill : v.lazies.read cell = none) :
    lazyTarget client serve hook cell w = (.ok t, { v with lazies := v.lazies.fill cell t }) :=
  (Shelf.once_of_ok hRead hRun).trans (Shelf.keep_of_none hStill)

/-- A lazy proxy whose cell no other object has. The cell holds the target, or nothing. -/
structure Stands (o : ObjectRef) (hook : Hook) (cell : Cell ObjectRef) (target? : Option ObjectRef)
    (w : World σ) : Prop where
  sound : w.Sound
  declared : w.hierarchy.Declared o.cls
  object : ∃ made, w.object? o = some (.proxy made (.single (.lazy hook cell)))
  cls : w.hierarchy.isSubtype o.cls .lazyProxy = true
  alone : ∀ p made chain, p.id ≠ o.id → w.object? p = some (.proxy made chain) →
    ∀ other, ¬ chain.Includes (.lazy other cell)
  held : w.lazies.Holds cell
  read : w.lazies.read cell = target?

section Calls

variable {target? : Option ObjectRef} {t : ObjectRef}

/-- What happens elsewhere does not matter to the proxy. -/
theorem Stands.between (hw : Stands o hook cell target? w) (hElsewhere : World.Elsewhere o w v) :
    Stands o hook cell target? v where
  sound := hElsewhere.sound hw.sound
  declared := hElsewhere.growsTo.hierarchy.declared hw.declared
  object := by
    obtain ⟨made, hObject⟩ := hw.object
    exact ⟨made, hElsewhere.growsTo.object? hObject⟩
  cls := hElsewhere.growsTo.hierarchy.isSubtype hw.cls
  alone p made chain hOther hObject other hIncludes := by
    cases hOld : w.object? p with
    | none => exact hElsewhere.added p made chain hOld hObject other cell hIncludes hw.held
    | some d =>
        cases (hElsewhere.growsTo.object? hOld).symm.trans hObject
        exact hw.alone p made chain hOther hOld other hIncludes
  held := hElsewhere.held cell hw.held
  read := by
    obtain ⟨made, hObject⟩ := hw.object
    exact (hElsewhere.read made hook cell hObject).trans hw.read

/-- Settings, the state of the client and other cells may change. -/
theorem Stands.of_eq (hw : Stands o hook cell target? w) (hHierarchy : v.hierarchy = w.hierarchy)
    (hClasses : v.proxyClasses = w.proxyClasses) (hObjects : v.objects = w.objects)
    (hLazies : v.lazies = w.lazies) : Stands o hook cell target? v :=
  hw.between (World.staysElsewhere_of_evolves (World.evolves_of_eq hHierarchy hClasses hObjects)
    hObjects hLazies hw.sound)

/-- The cell of another lazy proxy may be filled. -/
theorem Stands.fill (hw : Stands o hook cell target? w) {other : Cell ObjectRef}
    (hOther : other ≠ cell) (p : ObjectRef) :
    Stands o hook cell target? { w with lazies := w.lazies.fill other p } := { hw with
  sound := hw.sound.mono (.refl _) rfl rfl
  held := Store.holds_fill.mpr hw.held
  read := (Store.read_fill_of_ne hOther p).trans hw.read }

/-- The target is put into the cell. -/
theorem Stands.given (hw : Stands o hook cell none w) (t : ObjectRef) :
    Stands o hook cell (some t) { w with lazies := w.lazies.fill cell t } := { hw with
  sound := hw.sound.mono (.refl _) rfl rfl
  held := Store.holds_fill.mpr hw.held
  read := by rw [Store.read_fill _ _ _ _ hw.held, if_pos rfl] }

/-- Whatever client code has the library do, the proxy stands. -/
theorem untouched_stands (o : ObjectRef) (hook : Hook) (cell : Cell ObjectRef)
    (target? : Option ObjectRef) :
    World.Untouched (Stands o hook cell target? : World σ → Prop) where
  state _ _ hw := hw.of_eq rfl rfl rfl rfl
  deeds d w hw := hw.between ((World.staysElsewhere_growth o).deed d w hw.sound)

/-- That the cell of a lazy proxy holds its target, or nothing, as a limit of calls. -/
def accord (o : ObjectRef) (hook : Hook) (cell : Cell ObjectRef) (target? : Option ObjectRef) :
    Accord σ :=
  .worlds (Stands o hook cell target?) (untouched_stands o hook cell target?)

theorem ways {serve serve' : Serve σ} {initializer : Hook → Script σ ObjectRef}
    (hServe : (accord o hook cell target?).Serves serve serve') :
    (accord o hook cell target?).Ways client { client with initializer } serve serve'
      fun _ => True where
  serves := hServe
  clients := Accord.clients_worlds rfl rfl rfl
  answers x _ i _ :=
    x.agree_answer_of_unlimited hServe (fun _ _ hv => hv.of_eq rfl rfl rfl rfl)
      (fun _ _ hv => hv.of_eq rfl rfl rfl rfl) i

/-- Handlers leave the cell alone if they are not lazy ones that would fill it. -/
theorem bears_of_ne {client' : Client σ} {y : Handler}
    (hLazy : ∀ other c, y = .lazy other c → ∀ w : World σ, Stands o hook cell target? w →
      w.lazies.read c = none → client'.initializer other = client.initializer other ∧ c ≠ cell) :
    (accord o hook cell target?).Bears client client' (fun _ => True) y := by
  cases y with
  | lazy other c =>
      intro w hw hRead
      obtain ⟨hSame, hOther⟩ := hLazy other c rfl w hw hRead
      exact ⟨hSame, Script.respects_all _ _, fun v p hv _ => hv.fill hOther p⟩
  | record c => exact fun w m hw => hw.of_eq rfl rfl rfl rfl
  | _ => trivial

/-- As long as the proxy is not asked, its cell stays empty. -/
theorem serves_apart (depth : Nat) :
    (accord o hook cell none).Serves
      (performApart client (Request.Asks o) (fun _ _ => throw .exhausted) depth)
      (performApart client (Request.Asks o) (fun _ _ => throw .exhausted) depth) := by
  refine Accord.serves_performApart ways
    (fun w hw p i hNot made chain hObject y hy => ?_)
    (fun _ _ w hw r _ _ => Run.Agree.throw w hw) depth
  refine bears_of_ne fun other c hEq _ _ _ => ⟨rfl, ?_⟩
  rintro rfl
  exact hw.alone p made chain hNot hObject other (hEq ▸ hy)

/-- Once there is a target, it stays, and the initializer does not matter. -/
theorem serves_instead (initializer : Script σ ObjectRef) (depth : Nat) :
    (accord o hook cell (some t)).Serves (perform client depth)
      (performApart client (Request.Asks o) (serveInstead client initializer) depth) := by
  have hNe {w : World σ} (hw : Stands o hook cell (some t) w) {c : Cell ObjectRef}
      (hRead : w.lazies.read c = none) : c ≠ cell := by
    rintro rfl
    cases hRead.symm.trans hw.read
  rw [← performApart_self client (Request.Asks o)]
  refine Accord.serves_performApart ways
    (fun w hw p i _ made chain _ y _ => ?_)
    (fun _ hServe w hw r hr hAsks => ?_) depth
  · exact bears_of_ne fun other c _ v hv hRead => ⟨rfl, hNe hv hRead⟩
  · refine Request.agree_serveBy (ways hServe) hw (fun _ _ _ => trivial) ?_
    rintro p i made chain rfl hObject y hy
    obtain ⟨own, hOwn⟩ := hw.object
    rw [World.object?, show p.id = o.id from hAsks, ← World.object?, hOwn] at hObject
    cases hObject
    refine bears_of_ne fun other c hEq v hv hRead => ?_
    subst hEq
    rcases Chain.includes_single_iff.mp hy with hPart | hLast
    · cases hPart
      cases hRead.symm.trans hv.read
    · cases hLast

/-- An initializer that does not use the proxy leaves it without a target. -/
theorem Stands.initializer_run (hw : Stands o hook cell none w) (hSilent : Silent client o hook w)
    (depth : Nat) :
    Stands o hook cell none ((client.initializer hook).run (perform client depth) w).2 := by
  have hApart : (accord o hook cell none).Serves (performApart client _ _ depth) _ :=
    serves_apart depth
  rw [← hSilent (throw .exhausted) depth]
  exact (Script.agree_run hApart (Script.respects_all _ _) w hw).2.1

/-- What goes to the target of a proxy does not run its initializer, and leaves it the target. -/
theorem agree_deliver (use : Use) (initializer : Script σ ObjectRef) (depth : Nat) (i : Invocation)
    (p : ObjectRef) :
    (use.deliver (perform client depth) i p).Agree (accord o hook cell (some t))
      (use.deliver (performApart client (Request.Asks o) (serveInstead client initializer) depth)
        i p) := by
  have hServe : (accord o hook cell (some t)).Serves (perform client depth) _ :=
    serves_instead initializer depth
  refine .bind (.hierarchy_bind fun w hw => ?_) fun a => ?_
  · split
    · split
      · next body hBody => exact hServe w hw (.body ..) ⟨i.method, hBody, trivial⟩
      · exact hServe w hw (.ask ..) ⟨rfl, trivial⟩
    · exact Run.Agree.raise (by trivial) w hw
  · cases use.result a with
    | ok b => exact .pure b
    | error e => exact .raise e.within_all

end Calls

section Handling

variable {target? : Option ObjectRef} {t : ObjectRef} {i : Invocation}

/-- The proxy gives its target as it is, or goes to it. -/
theorem Stands.serve_ask (hw : Stands o hook cell target? w) (client : Client σ) (serve : Serve σ)
    (i : Invocation) :
    (Request.ask o i).serveBy client serve w =
      if i.method = .extractInstance then (.ok (Use.valueOf target?), w)
      else (lazyTarget client serve hook cell >>= fun t => i.redirect serve t) w := by
  obtain ⟨made, hObject⟩ := hw.object
  have hChain : (Request.ask o i).serveBy client serve w =
      (Chain.single (.lazy hook cell)).resolve client serve i w := by
    rw [Request.serveBy, ObjectRef.answer, Run.bind_ok (Run.get_apply w), hObject]
  rw [hChain]
  split
  · next hExtract =>
      apply Chain.resolve_first
      rw [Handler.handle, if_pos hExtract, Run.bind_ok (Run.get_apply w), hw.read]
      rfl
  · next hOther =>
      have hHandle : (Handler.lazy hook cell).handle client serve i w =
          ((lazyTarget client serve hook cell >>= fun t => i.redirect serve t) >>= fun v =>
            pure (some v)) w := by
        rw [Handler.handle, if_neg hOther, bind_assoc]
      rcases hRun : (lazyTarget client serve hook cell >>= fun t => i.redirect serve t) w with
        ⟨e | a, v⟩
      · exact Chain.resolve_first_error (hHandle.trans (Run.bind_error hRun))
      · exact Chain.resolve_first (hHandle.trans (Run.bind_ok hRun))

/-- To ask for the target does not run the initializer, nor does anything once there is one. -/
theorem Stands.idle_ask (hw : Stands o hook cell target? w)
    (hFree : i.method = .extractInstance ∨ i.receiver? = some o ∧ target?.isSome = true)
    (depth : Nat) :
    Idle client o (fun serve => serve (.ask o i)) (depth + 1) w := by
  intro initializer
  rcases hFree with hExtract | ⟨hReceiver, hSome⟩
  · have hAnswer (client : Client σ) (serve : Serve σ) :
        (Request.ask o i).serveBy client serve w = (.ok (Use.valueOf target?), w) :=
      (hw.serve_ask client serve i).trans (if_pos hExtract)
    have hApart : performApart client (Request.Asks o) (serveInstead client initializer) (depth + 1)
        (.ask o i) w = _ := if_pos rfl
    exact hApart.trans ((hAnswer ..).trans (hAnswer ..).symm)
  · obtain ⟨t, rfl⟩ := Option.isSome_iff_exists.mp hSome
    have hServe : (accord o hook cell (some t)).Serves (perform client (depth + 1)) _ :=
      serves_instead initializer (depth + 1)
    exact (hServe w hw (.ask o i) ⟨hReceiver, trivial⟩).1.symm

/-- What is made of an answer does not matter for that. -/
theorem Idle.use {use : Use} (hUse : use.invocation w o = .ok i) {depth : Nat}
    (hIdle : Idle client o (fun serve => serve (.ask o i)) depth w) :
    Idle client o (fun serve => use.run serve o) depth w := by
  intro initializer
  show use.run _ o w = use.run _ o w
  rw [use.run_apply, use.run_apply, hUse]
  exact Run.bind_congr_apply (hIdle initializer)

/-- What a use makes of the proxy when it is not asked for the target. -/
theorem Stands.use_of_error (hw : Stands o hook cell target? w) {use : Use}
    (hUse : use.invocation w o = .ok i) (hOther : i.method ≠ .extractInstance) {depth : Nat}
    {e : Stop ProxyError} (hTarget : lazyTarget client (perform client depth) hook cell w =
      (.error e, v)) :
    use.run (perform client (depth + 1)) o w = (.error e, v) := by
  have hAsk : perform client (depth + 1) (.ask o i) w = _ :=
    (hw.serve_ask client (perform client depth) i).trans (if_neg hOther)
  rw [use.run_apply, hUse]
  exact Run.bind_error (hAsk.trans (Run.bind_error hTarget))

theorem Stands.use_of_ok (hw : Stands o hook cell target? w) {use : Use}
    (hUse : use.invocation w o = .ok i) (hOther : i.method ≠ .extractInstance) {depth : Nat}
    (hTarget : lazyTarget client (perform client depth) hook cell w = (.ok t, v))
    (hGrows : w.hierarchy.GrowsTo v.hierarchy) :
    use.run (perform client (depth + 1)) o w = use.deliver (perform client depth) i t v := by
  have hAsk : perform client (depth + 1) (.ask o i) w = _ :=
    (hw.serve_ask client (perform client depth) i).trans (if_neg hOther)
  have hKind : (v.hierarchy.method i.method).kind = .ofInstance := by
    obtain ⟨hOwn, hSubtype⟩ := Use.receives_of_invocation hUse
    rw [hGrows.method_eq (Hierarchy.declared_of_isSubtype hSubtype hw.declared)]
    exact hOwn
  rw [use.run_apply, hUse]
  exact Run.bind_congr_apply
    (hAsk.trans ((Run.bind_ok hTarget).trans (Invocation.redirect_apply hKind t)))

/-- A use that makes the target goes to it. -/
theorem Stands.use_of_run (hw : Stands o hook cell none w) (hSilent : Silent client o hook w)
    {use : Use} (hUse : use.invocation w o = .ok i) (hOther : i.method ≠ .extractInstance)
    {depth : Nat} (hRun : (client.initializer hook).run (perform client depth) w = (.ok t, v)) :
    Stands o hook cell (some t) { v with lazies := v.lazies.fill cell t } ∧
      use.run (perform client (depth + 1)) o w =
        use.deliver (perform client depth) i t { v with lazies := v.lazies.fill cell t } := by
  have hBefore := hw.initializer_run hSilent depth
  have hGrows : w.GrowsTo ((client.initializer hook).run (perform client depth) w).2 :=
    ((Calling.script depth (client.initializer hook)).evolves w hw.sound).1
  rw [hRun] at hBefore hGrows
  exact ⟨hBefore.given t, hw.use_of_ok hUse hOther
    (lazyTarget_of_ok hw.read hRun hBefore.read) hGrows.hierarchy⟩

end Handling

/-- What becomes of a use of a lazy proxy, by the target that there is before it. -/
structure Conducts (client : Client σ) (o : ObjectRef) (hook : Hook) (target? : Option ObjectRef)
    (use : Use) (depth : Nat) (w : World σ) : Prop where
  /-- A use that does not pass look-up and checks fails, and asks for nothing. -/
  rejected : ∀ e, use.invocation w o = .error e → ∀ serve : Serve σ,
    use.run serve o w = (.error (.raised e), w)
  /-- To ask for the target gives what there is. -/
  extracted : ∀ i, use.invocation w o = .ok i → i.method = .extractInstance →
    use.run (perform client (depth + 1)) o w =
        Run.ofExcept id (use.result (Use.valueOf target?)) w ∧
      Idle client o (fun serve => use.run serve o) (depth + 1) w
  /-- Any other use goes to the target if there is one. -/
  delivered : ∀ i t, use.invocation w o = .ok i → i.method ≠ .extractInstance → target? = some t →
    use.run (perform client (depth + 1)) o w = use.deliver (perform client depth) i t w ∧
      Idle client o (fun serve => use.run serve o) (depth + 1) w
  /-- If there is none, the initializer runs. When it fails, so does the use. -/
  failed : ∀ i e v, use.invocation w o = .ok i → i.method ≠ .extractInstance → target? = none →
    (client.initializer hook).run (perform client depth) w = (.error e, v) →
    use.run (perform client (depth + 1)) o w = (.error e, v)
  /-- When it gives an object, this is the target, and the use goes to it. -/
  initialized : ∀ i t v, use.invocation w o = .ok i → i.method ≠ .extractInstance →
    target? = none → (client.initializer hook).run (perform client depth) w = (.ok t, v) →
    ∃ cell, use.run (perform client (depth + 1)) o w =
        use.deliver (perform client depth) i t { v with lazies := v.lazies.fill cell t } ∧
      Idle client o (fun serve => use.deliver serve i t) depth
        { v with lazies := v.lazies.fill cell t }

section Using

variable {target? : Option ObjectRef} {t : ObjectRef}

theorem Stands.conducts (hw : Stands o hook cell target? w) (hSilent : Silent client o hook w)
    (use : Use) (depth : Nat) : Conducts client o hook target? use depth w where
  rejected e hUse serve := by rw [use.run_apply, hUse]
  extracted i hUse hExtract := by
    refine ⟨?_, (hw.idle_ask (.inl hExtract) depth).use hUse⟩
    rw [use.run_apply, hUse]
    exact Run.bind_ok ((hw.serve_ask ..).trans (if_pos hExtract))
  delivered i t hUse hOther hSome := by
    subst hSome
    obtain ⟨hReceiver, -⟩ := Use.wellFormed_of_invocation hUse
    exact ⟨hw.use_of_ok hUse hOther (Shelf.once_of_some hw.read) (.refl _),
      (hw.idle_ask (.inr ⟨hReceiver, rfl⟩) depth).use hUse⟩
  failed i e v hUse hOther hNone hRun := by
    subst hNone
    exact hw.use_of_error hUse hOther (Shelf.once_of_error hw.read hRun)
  initialized i t v hUse hOther hNone hRun := by
    subst hNone
    obtain ⟨hFilled, hDeliver⟩ := hw.use_of_run hSilent hUse hOther hRun
    exact ⟨cell, hDeliver, fun initializer =>
      (agree_deliver use initializer depth i t _ hFilled).1.symm⟩

/-- Whatever initializer there is, it does not take the target away. -/
theorem Stands.deliver (hw : Stands o hook cell (some t) w) (use : Use) (depth : Nat)
    (i : Invocation) (p : ObjectRef) :
    Stands o hook cell (some t) (use.deliver (perform client depth) i p w).2 :=
  (agree_deliver use (client.initializer hook) depth i p w hw).2.1

end Using

end LazyProxy

end Metaobject
