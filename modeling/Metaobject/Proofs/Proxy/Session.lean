import Metaobject.Proofs.Proxy.Classes
import Metaobject.Proofs.Proxy.Lazy

/-!
Lazy proxies over time. The target of a lazy proxy is the first object that its initializer gives,
so all that there is to know of the proxy is told by the outcomes of the runs of the initializer so
far. A run is due when a use reaches the handler, does not ask for the target, and finds none.
-/
namespace Metaobject

variable {σ : Type} {client : Client σ} {u v w : World σ} {o : ObjectRef} {hook : Hook}
  {cell : Cell ObjectRef}

namespace World

/-- The lazy handlers of objects have cells of the store, as those made with lazy proxies do. -/
def HasCells (w : World σ) : Prop :=
  ∀ p made chain, w.object? p = some (.proxy made chain) →
    ∀ hook cell, chain.Includes (.lazy hook cell) → w.lazies.Holds cell

end World

namespace LazyProxy

/-- The objects that some runs of an initializer gave. -/
def successes (runs : List (Except (Stop ProxyError) ObjectRef)) : List ObjectRef :=
  runs.filterMap Except.toOption

/-- The outcome of the run of the initializer that a use leads to, if it leads to one. -/
def due (client : Client σ) (o : ObjectRef) (hook : Hook) (target? : Option ObjectRef) (use : Use)
    (depth : Nat) (w : World σ) : List (Except (Stop ProxyError) ObjectRef) :=
  match use.invocation w o with
  | .ok i =>
    if i.method = .extractInstance ∨ target?.isSome = true then []
    else [((client.initializer hook).run (perform client depth) w).1]
  | .error _ => []

/-- The uses of a lazy proxy in turn, with whatever else happens between them, and the outcomes of
the runs of its initializer, which does not use the proxy. -/
inductive Session (client : Client σ) (o : ObjectRef) (hook : Hook) (start : World σ) :
    List (Except (Stop ProxyError) ObjectRef) → World σ → Prop where
  | start : Session client o hook start [] start
  | use {runs : List (Except (Stop ProxyError) ObjectRef)} {w : World σ}
      (before : Session client o hook start runs w) (hSilent : Silent client o hook w) (use : Use)
      (depth : Nat) :
      Session client o hook start (runs ++ due client o hook (successes runs).head? use depth w)
        (use.run (perform client (depth + 1)) o w).2
  | between {runs : List (Except (Stop ProxyError) ObjectRef)} {w v : World σ}
      (before : Session client o hook start runs w) (hElsewhere : World.Elsewhere o w v) :
      Session client o hook start runs v

variable {target? : Option ObjectRef} {t : ObjectRef}
  {runs : List (Except (Stop ProxyError) ObjectRef)}

section Due

variable {use : Use} {depth : Nat} {i : Invocation}

theorem due_of_error {e : ProxyError} (hUse : use.invocation w o = .error e) :
    due client o hook target? use depth w = [] := by
  rw [due.eq_def, hUse]

theorem due_of_extract (hUse : use.invocation w o = .ok i)
    (hExtract : i.method = .extractInstance) :
    due client o hook target? use depth w = [] := by
  rw [due.eq_def, hUse]
  exact if_pos (.inl hExtract)

theorem due_of_some : due client o hook (some t) use depth w = [] := by
  rw [due.eq_def]
  split
  · exact if_pos (.inr rfl)
  · rfl

theorem due_of_none (hUse : use.invocation w o = .ok i) (hOther : i.method ≠ .extractInstance) :
    due client o hook none use depth w =
      [((client.initializer hook).run (perform client depth) w).1] := by
  rw [due.eq_def, hUse]
  exact if_neg (by simpa using hOther)

theorem length_due_le : (due client o hook target? use depth w).length ≤ 1 := by
  rw [due.eq_def]
  split
  · split <;> simp
  · exact Nat.zero_le 1

end Due

/-- Making a lazy proxy adds a cell, and an object that has it. -/
structure Adds (hook : Hook) (w v : World σ) (o : ObjectRef) (cell : Cell ObjectRef) : Prop where
  sound : v.Sound
  cells : w.lazies.Gains v.lazies (some cell)
  declared : v.hierarchy.Declared o.cls
  cls : v.hierarchy.isSubtype o.cls .lazyProxy = true
  object : ∃ made, v.object? o = some (.proxy made (.single (.lazy hook cell)))
  last : ∀ p made chain, v.object? p = some (.proxy made chain) →
    w.object? p = some (.proxy made chain) ∨
      p.id = w.objects.size ∧ chain = .single (.lazy hook cell)

theorem adds_of_create {c : ClassId} (hSound : w.Sound) (hCreate : create c hook w = (.ok o, v)) :
    ∃ cell, Adds hook w v o cell := by
  let cell := w.lazies.fresh.1
  let b := ({ contracts := [c, .lazyProxy] } : ProxyBuilder).withHandler (.lazy hook cell)
  have hReady : ({ w with lazies := w.lazies.fresh.2 } : World σ).Sound :=
    hSound.mono (.refl _) rfl rfl
  obtain ⟨contracts, made, hCheck, hYields⟩ := b.yields_of_build hReady hCreate
  refine ⟨cell, hYields.sound, hYields.cells.lazies ▸ w.lazies.gains_fresh,
    hYields.cls ▸ hYields.implementing.declared, ?_, ⟨made, hYields.object⟩,
    fun p other chain hObject => ?_⟩
  · have hLazy : ClassId.lazyProxy ∈ contracts := by
      rw [ProxyBuilder.eq_eraseDups_of_checkContracts hCheck, List.mem_eraseDups]
      exact .tail _ (.head _)
    rw [hYields.cls]
    exact hYields.implementing.isSubtype hLazy (Hierarchy.isSubtype_refl _ _)
  · rw [World.object?, hYields.objects, Array.getElem?_push] at hObject
    split at hObject
    · next hLast =>
        cases hObject
        exact .inr ⟨hLast, rfl⟩
    · exact .inl hObject

/-- The proxy has no target yet, and shares its cell with no other object. -/
theorem Adds.stands (hAdds : Adds hook w v o cell) (hCells : w.HasCells) :
    Stands o hook cell none v where
  sound := hAdds.sound
  declared := hAdds.declared
  object := hAdds.object
  cls := hAdds.cls
  alone p made chain hOther hObject other hIncludes := by
    obtain ⟨-, hFresh⟩ := hAdds.cells.fresh cell rfl
    have hLast {q : ObjectRef} {made : ProxyClass} {chain : Chain} {other : Hook}
        (hObject : v.object? q = some (.proxy made chain))
        (hIncludes : chain.Includes (.lazy other cell)) : q.id = w.objects.size := by
      rcases hAdds.last q made chain hObject with hOld | ⟨hId, -⟩
      · exact absurd (hCells q made chain hOld other cell hIncludes) hFresh
      · exact hId
    obtain ⟨own, hOwn⟩ := hAdds.object
    exact hOther ((hLast hObject hIncludes).trans (hLast hOwn (.inl ⟨_, .head _, .self⟩)).symm)
  held := (hAdds.cells.fresh cell rfl).1
  read := by
    rw [hAdds.cells.read]
    exact Store.read_of_not_holds (hAdds.cells.fresh cell rfl).2

/-- A lazy proxy has no target when it is made. -/
theorem stands_of_create {c : ClassId} (hSound : u.Sound) (hCells : u.HasCells)
    (hCreate : create c hook u = (.ok o, v)) : ∃ cell, Stands o hook cell none v := by
  obtain ⟨cell, hAdds⟩ := adds_of_create hSound hCreate
  exact ⟨cell, hAdds.stands hCells⟩

/-- One use: the proxy has a target after it if it had one before, or if the run of the initializer
that was due gave one. -/
theorem Stands.use (hw : Stands o hook cell target? w) (hSilent : Silent client o hook w)
    (use : Use) (depth : Nat) :
    Stands o hook cell (target?.or (successes (due client o hook target? use depth w)).head?)
      (use.run (perform client (depth + 1)) o w).2 := by
  have hConducts := hw.conducts hSilent use depth
  have hSame : target?.or (successes []).head? = target? := Option.or_none
  cases hUse : use.invocation w o with
  | error e => rwa [hConducts.rejected e hUse, due_of_error hUse, hSame]
  | ok i =>
      by_cases hExtract : i.method = .extractInstance
      · rw [(hConducts.extracted i hUse hExtract).1, due_of_extract hUse hExtract, hSame,
          Run.ofExcept_snd]
        exact hw
      · cases target? with
        | some t =>
            rw [(hConducts.delivered i t hUse hExtract rfl).1, due_of_some, hSame]
            exact hw.deliver use depth i t
        | none =>
            rw [due_of_none hUse hExtract]
            rcases hRun : (client.initializer hook).run (perform client depth) w with ⟨e | t, v⟩
            · have hBefore := hw.initializer_run hSilent depth
              rw [hConducts.failed i e v hUse hExtract rfl hRun]
              rwa [hRun] at hBefore
            · obtain ⟨hFilled, hDeliver⟩ := hw.use_of_run hSilent hUse hExtract hRun
              rw [hDeliver]
              exact hFilled.deliver use depth i t

theorem Session.stands {start : World σ} (hStart : Stands o hook cell none start)
    (hSession : Session client o hook start runs w) :
    Stands o hook cell (successes runs).head? w ∧ (successes runs).length ≤ 1 := by
  induction hSession with
  | start => exact ⟨hStart, Nat.zero_le 1⟩
  | between _ hElsewhere ih => exact ⟨ih.1.between hElsewhere, ih.2⟩
  | @use runs w before hSilent use depth ih =>
      obtain ⟨hw, hLength⟩ := ih
      have hBoth (more : List (Except (Stop ProxyError) ObjectRef)) :
          successes (runs ++ more) = successes runs ++ successes more := List.filterMap_append
      rw [hBoth, List.head?_append]
      refine ⟨hw.use hSilent use depth, ?_⟩
      cases hFirst : (successes runs).head? with
      | some t => rwa [due_of_some, show successes [] = [] from rfl, List.append_nil]
      | none =>
          rw [List.head?_eq_none_iff.mp hFirst, List.nil_append]
          exact Nat.le_trans (List.length_filterMap_le ..) length_due_le

/-- To ask for the target gives what the cell holds, and does not run the initializer. -/
theorem Stands.extract_apply (hw : Stands o hook cell target? w) (depth : Nat) :
    extract (perform client (depth + 1)) o w = (.ok target?, w) ∧
      Idle client o (fun serve => extract serve o) (depth + 1) w := by
  let i : Invocation := ⟨.extractInstance, some o, []⟩
  have hExtract (serve : Serve σ) :
      extract serve o w = (serve (.ask o i) >>= fun a => pure a.object?) w := by
    have hInvoke : o.invoke serve .extractInstance [] w = serve (.ask o i) w :=
      ObjectRef.invoke_opening (by decide) rfl rfl hw.cls
    rw [LazyProxy.extract, Run.bind_ok (Run.hierarchy_apply w), if_pos hw.cls]
    exact Run.bind_congr_apply hInvoke
  refine ⟨?_, fun initializer => ?_⟩
  · have hAsk : perform client (depth + 1) (.ask o i) w = (.ok (Use.valueOf target?), w) :=
      (hw.serve_ask ..).trans (if_pos rfl)
    rw [hExtract, Run.bind_ok hAsk]
    cases target? <;> rfl
  · show extract _ o w = extract _ o w
    rw [hExtract, hExtract]
    exact Run.bind_congr_apply (hw.idle_ask (.inl rfl) depth initializer)

end LazyProxy

open LazyProxy

/-- A lazy proxy at any time, by the outcomes of the runs of its initializer so far. At most one of
them gave an object, and to ask for the target gives this object, or nothing, and does not run the
initializer. A use that does not reach the handler fails with its reason. A use that reaches it and
does not ask for the target goes to the target; the initializer is run once if there is none yet,
and otherwise not. -/
theorem lazy_proxy_over_time {c : ClassId} {start : World σ}
    {runs : List (Except (Stop ProxyError) ObjectRef)} (hReach : World.Reachable client u)
    (hCells : u.HasCells) (hCreate : LazyProxy.create c hook u = (.ok o, start))
    (hSession : Session client o hook start runs w) :
    (successes runs).length ≤ 1 ∧
      (∀ depth, LazyProxy.extract (perform client (depth + 1)) o w =
          (.ok (successes runs).head?, w) ∧
        Idle client o (fun serve => LazyProxy.extract serve o) (depth + 1) w) ∧
      (Silent client o hook w → ∀ use depth,
        Conducts client o hook (successes runs).head? use depth w) := by
  obtain ⟨cell, hStart⟩ := stands_of_create hReach.sound hCells hCreate
  obtain ⟨hStands, hLength⟩ := hSession.stands hStart
  exact ⟨hLength, hStands.extract_apply, fun hSilent => hStands.conducts hSilent⟩

/-- A client whose initializer fails the first time, and then makes the object that it gives. Its
objects answer with the number of their arguments. -/
def retryingClient : Client Nat where
  body _ _ _ := .done .null
  native _ i := .done (.int (Int32.ofNat i.arguments.length))
  handler _ _ := .done none
  initializer hook := .read fun n =>
    .write (n + 1) (if n = 0 then Script.failText "not yet"
      else .enact (.newNative ⟨3⟩ hook) .done)

theorem silent_retryingClient (o : ObjectRef) (hook : Hook) (w : World Nat) :
    Silent retryingClient o hook w := by
  intro alarm depth
  have hRun (serve : Serve Nat) : (retryingClient.initializer hook).run serve w =
      (if w.client = 0 then Script.failText "not yet"
        else .enact (.newNative ⟨3⟩ hook) .done : Script Nat ObjectRef).run serve
          { w with client := w.client + 1 } := rfl
  rw [hRun, hRun]
  split <;> rfl

/-- A world with an interface. -/
def plainGate : World Nat :=
  (gateType.declare (ε := ProxyError) { client := 0 }).2

/-- A lazy proxy has been made. -/
def lazyGate : World Nat :=
  (LazyProxy.create ⟨3⟩ ⟨0⟩ plainGate).2

/-- A call of the proxy. -/
def openLazily : Use :=
  .call "open" [.string "7"]

/-- The first call fails with the initializer. The second one has the initializer make the object,
and goes to it. -/
theorem lazy_gate_retried :
    ∃ runs w, Session retryingClient ⟨0, ⟨4⟩⟩ ⟨0⟩ lazyGate runs w ∧ runs.length = 2 ∧
      successes runs = [⟨1, ⟨3⟩⟩] ∧ lazyGate.object? ⟨1, ⟨3⟩⟩ = none ∧
      LazyProxy.extract (perform retryingClient 1) ⟨0, ⟨4⟩⟩ w = (.ok (some ⟨1, ⟨3⟩⟩), w) ∧
      Conducts retryingClient ⟨0, ⟨4⟩⟩ ⟨0⟩ (some ⟨1, ⟨3⟩⟩) openLazily 1 w := by
  have hReach : World.Reachable retryingClient plainGate := ⟨0, .step .refl (.declare gateType)⟩
  have hCreate : LazyProxy.create ⟨3⟩ ⟨0⟩ plainGate = (.ok ⟨0, ⟨4⟩⟩, lazyGate) := rfl
  have hSilent := silent_retryingClient ⟨0, ⟨4⟩⟩ ⟨0⟩
  have hStart : Session retryingClient ⟨0, ⟨4⟩⟩ ⟨0⟩ lazyGate [] lazyGate := .start
  have hMade := (hStart.use (hSilent _) openLazily 0).use (hSilent _) openLazily 1
  obtain ⟨runs, w, hSession, hTwo, hGiven⟩ : ∃ runs w,
      Session retryingClient ⟨0, ⟨4⟩⟩ ⟨0⟩ lazyGate runs w ∧ runs.length = 2 ∧
        successes runs = [⟨1, ⟨3⟩⟩] :=
    ⟨_, _, hMade, by decide +kernel, by decide +kernel⟩
  obtain ⟨-, hExtract, hConducts⟩ := lazy_proxy_over_time hReach
    (fun _ _ _ hObject => by cases hObject) hCreate hSession
  rw [hGiven] at hExtract hConducts
  exact ⟨runs, w, hSession, hTwo, hGiven, rfl, (hExtract 0).1, hConducts (hSilent w) openLazily 1⟩

end Metaobject
