import Metaobject.Proofs.World.Answering
import Metaobject.Proofs.World.Evolution
import Metaobject.Stub

/-!
Calls of proxies by name, from the table to the chain. A call that the table does not know, and one
with an argument that may not stand in its parameter, end before anything is asked of a handler. Any
other call is one request, which the chain of the proxy answers.
-/
namespace Metaobject

variable {σ : Type} {client : Client σ} {serve : Serve σ} {u v w : World σ}

namespace Handler

/-- Some handlers decline an invocation, one after another. Each may change the world that the next
is asked in. -/
inductive Decline (client : Client σ) (serve : Serve σ) (i : Invocation) :
    List Handler → World σ → World σ → Prop where
  | nil (w : World σ) : Decline client serve i [] w w
  | cons {x : Handler} {rest : List Handler} {u v w : World σ}
      (hFirst : x.handle client serve i u = (.ok none, v))
      (hRest : Decline client serve i rest v w) : Decline client serve i (x :: rest) u w

theorem firstAnswer_of_decline {i : Invocation} {xs : List Handler}
    (hDecline : Decline client serve i xs u w) :
    firstAnswer client serve xs i u = (.ok none, w) := by
  induction hDecline with
  | nil w => rfl
  | cons hFirst _ ih =>
      rw [firstAnswer, Run.bind_ok hFirst]
      exact ih

end Handler

/-- When the handlers of a chain and then its fallback decline, the invocation is unhandled. -/
theorem Chain.resolve_of_decline {k : Chain} {i : Invocation}
    (hHandlers : Handler.Decline client serve i k.handlers u v)
    (hFallback : k.fallback.handle client serve i v = (.ok none, w)) :
    k.resolve client serve i u = (.error (.raised (.unhandled i)), w) := by
  rw [resolve, Run.bind_ok (Handler.firstAnswer_of_decline hHandlers)]
  exact Run.bind_ok hFallback

/-- A call by a name that the table of a proxy does not know. -/
theorem ObjectRef.call_unknown {o : ObjectRef} {made : ProxyClass} {chain : Chain}
    (ho : w.object? o = some (.proxy made chain)) {name : String} {arguments : List Value}
    (hEntry : Table.find? made.table (name, arguments.length) = none) :
    o.call serve name arguments w =
      (.error (.raised (.noSuchMethod o.cls name arguments.length)), w) := by
  have hResolve : w.resolveMethod? o name arguments.length = none := by
    rw [World.resolveMethod?, ho]
    exact hEntry
  rw [call, Run.bind_ok (Run.get_apply w), hResolve]
  rfl

/-- A proxy that has been built has a class for its interfaces, each taken once. -/
theorem ProxyBuilder.yields_of_build {b : ProxyBuilder} {o : ObjectRef} (hSound : u.Sound)
    (hBuild : b.build u = (.ok o, v)) :
    ∃ contracts made, checkContracts u.hierarchy [] b.contracts = .ok contracts ∧
      Yields contracts b.chain u v o made := by
  rcases b.build_apply hSound with ⟨e, hRun⟩ | ⟨contracts, _, _, made, hCheck, hRun, hYields⟩
  · rw [hBuild] at hRun
    cases hRun
  · rw [hBuild] at hRun
    cases hRun
    exact ⟨contracts, made, hCheck, hYields⟩

/-- A call of a proxy by name, from the table of its class to its chain, at any later time. Without
an entry for the name and the number of arguments, or with an argument that does not fit, it fails
and asks for nothing: what serves requests does not matter, and the world is as before. Otherwise it
is one request, for the invocation of the entry on the proxy with these arguments, and its outcome
is that of the chain. The entry always takes the proxy as its receiver. When all handlers and the
fallback decline, the invocation is unhandled. -/
theorem call_proxy {b : ProxyBuilder} {o : ObjectRef} (hReach : World.Reachable client u)
    (hBuild : b.build u = (.ok o, v)) (hLeads : World.Leads client v w) :
    ∃ contracts made, ProxyBuilder.checkContracts u.hierarchy [] b.contracts = .ok contracts ∧
      w.object? o = some (.proxy made b.chain) ∧ o.cls = made.cls ∧
      made.table = ProxyClass.tableOf w.hierarchy contracts ∧
      ∀ name arguments,
        (Table.find? made.table (name, arguments.length) = none → ∀ serve : Serve σ,
          o.call serve name arguments w =
            (.error (.raised (.noSuchMethod o.cls name arguments.length)), w)) ∧
        ∀ m, Table.find? made.table (name, arguments.length) = some m →
          Invocation.checkReceiver w.hierarchy m (some o) = .ok () ∧
          (∀ p a, w.hierarchy.misfit? m arguments = some (p, a) → ∀ serve : Serve σ,
            o.call serve name arguments w =
              (.error (.raised (.illegal (.argumentType m p a))), w)) ∧
          (w.hierarchy.misfit? m arguments = none →
            (∀ serve : Serve σ, o.call serve name arguments w =
              serve (.ask o ⟨m, some o, arguments⟩) w) ∧
            ∀ depth,
              o.call (perform client (depth + 1)) name arguments w =
                b.chain.resolve client (perform client depth) ⟨m, some o, arguments⟩ w ∧
              ∀ x y, Handler.Decline client (perform client depth) ⟨m, some o, arguments⟩
                  b.chain.handlers w x →
                b.chain.fallback.handle client (perform client depth) ⟨m, some o, arguments⟩ x =
                  (.ok none, y) →
                o.call (perform client (depth + 1)) name arguments w =
                  (.error (.raised (.unhandled ⟨m, some o, arguments⟩)), y)) := by
  obtain ⟨contracts, made, hCheck, hYields⟩ := ProxyBuilder.yields_of_build hReach.sound hBuild
  have hGrows := (hLeads.evolves hYields.sound).1
  have hObject := hGrows.object? hYields.object
  have hMade := hYields.implementing.mono hGrows.hierarchy
  refine ⟨contracts, made, hCheck, hObject, hYields.cls, hMade.table, fun name arguments => ?_⟩
  refine ⟨fun hNone serve => ObjectRef.call_unknown hObject hNone, fun m hEntry => ?_⟩
  obtain ⟨hKind, hArity, hSubtype⟩ := hMade.callable hEntry
  rw [← hYields.cls] at hSubtype
  have hInvocation := Invocation.of_eq hKind hSubtype hArity
  refine ⟨Invocation.checkReceiver_of_isSubtype hKind hSubtype, fun p a hMisfit serve => ?_,
    fun hFits => ?_⟩
  · rw [hMisfit] at hInvocation
    rw [ObjectRef.call_apply hObject hEntry, ObjectRef.invoke,
      Run.bind_ok (Run.hierarchy_apply w), hInvocation]
    rfl
  · rw [hFits] at hInvocation
    have hCall (serve : Serve σ) : o.call serve name arguments w =
        serve (.ask o ⟨m, some o, arguments⟩) w := by
      rw [ObjectRef.call_apply hObject hEntry, ObjectRef.invoke,
        Run.bind_ok (Run.hierarchy_apply w), hInvocation]
      rfl
    refine ⟨hCall, fun depth => ?_⟩
    have hResolve := (hCall (perform client (depth + 1))).trans (perform_ask hObject depth _)
    exact ⟨hResolve, fun x y hHandlers hFallback =>
      hResolve.trans (Chain.resolve_of_decline hHandlers hFallback)⟩

/-- An interface of one method with a parameter. -/
def gateType : ClassBuilder :=
  (ClassBuilder.empty .interface "gate").method
    { name := "open", parameters := [⟨"code", .string⟩] }

/-- A world in which it has just been declared. -/
def gateWorld : World Stub.Stage :=
  (gateType.declare (ε := ProxyError) { client := {} }).2

/-- A proxy of it whose handlers all decline. -/
def closedGate : ProxyBuilder where
  contracts := [⟨3⟩, ⟨3⟩]
  chain := ⟨[.trace "seen", .decline], .decline⟩

theorem call_closedGate :
    World.Reachable Stub.client gateWorld ∧ ∃ o w, closedGate.build gateWorld = (.ok o, w) ∧
      (∀ serve, o.call serve "shut" [] w =
        (.error (.raised (.noSuchMethod o.cls "shut" 0)), w)) ∧
      (∀ serve, o.call serve "open" [.int 7] w =
        (.error (.raised (.illegal (.argumentType ⟨⟨3⟩, 0⟩ ⟨"code", .string⟩ (.int 7)))), w)) ∧
      o.call (perform Stub.client 1) "open" [.string "7"] w =
        (.error (.raised (.unhandled ⟨⟨⟨3⟩, 0⟩, some o, [.string "7"]⟩)), w) := by
  have hReach : World.Reachable Stub.client gateWorld := ⟨{}, .step .refl (.declare gateType)⟩
  have hInterface : gateWorld.hierarchy.isInterface ⟨3⟩ = true := by decide
  have hCheck : ProxyBuilder.checkContracts gateWorld.hierarchy [] closedGate.contracts =
      .ok [⟨3⟩] := by
    simp [closedGate, ProxyBuilder.checkContracts, hInterface]
  obtain ⟨o, w, made, hBuild, hYields⟩ := closedGate.build_ok hReach.sound rfl hCheck
  obtain ⟨_, made', _, hObject, _, _, hCall⟩ := call_proxy hReach hBuild .refl
  rw [hYields.object] at hObject
  cases hObject
  have hGrows := hYields.growsTo.hierarchy
  have hTable : made.table = ProxyClass.tableOf gateWorld.hierarchy [⟨3⟩] :=
    hYields.implementing.table_eq hGrows (by decide)
  have hOpen : Table.find? made.table ("open", 1) = some ⟨⟨3⟩, 0⟩ := by
    rw [hTable]
    decide +kernel
  have hMethod : w.hierarchy.method ⟨⟨3⟩, 0⟩ = gateWorld.hierarchy.method ⟨⟨3⟩, 0⟩ :=
    hGrows.method_eq (Hierarchy.declared_of_isInterface hInterface)
  refine ⟨hReach, o, w, hBuild, fun serve => (hCall "shut" []).1 ?_ serve, ?_, ?_⟩
  · rw [hTable]
    decide +kernel
  · refine ((hCall "open" [.int 7]).2 _ hOpen).2.1 _ _ ?_
    rw [Hierarchy.misfit?, hMethod]
    rfl
  · refine (((hCall "open" [.string "7"]).2 _ hOpen).2.2 ?_).2 0 |>.2 w w ?_ rfl
    · rw [Hierarchy.misfit?, hMethod]
      rfl
    · exact .cons rfl (.cons rfl (.nil w))

end Metaobject
