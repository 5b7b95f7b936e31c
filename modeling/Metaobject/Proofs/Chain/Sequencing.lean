import Metaobject.Proofs.Chain.Nesting
import Metaobject.Proofs.Proxy.Classes

/-!
Chains one after another. A chain that has another one appended does what the two do in turn: the
second resolves what the first has declined, with its own fallback, and the fallback of the first is
not asked. That is so for results, for the handlers that run and for the worlds that they leave; so
appending is associative, and the empty chain is neutral but for the fallback. A proxy to which
chains were given one by one answers through all of them appended.
-/
namespace Metaobject

variable {σ : Type}

/-- Ask handlers, and if all of them have declined, have another account go on. Otherwise it is over
with what the handlers made of the invocation. -/
def Account.orResolve (a : Account σ Answer) (i : Invocation) (next : World σ → Account σ Value) :
    Account σ Value :=
  if a.declined then ⟨a.asked ++ (next a.left).asked, (next a.left).ending, (next a.left).left⟩
  else a.conclude i

theorem Account.conclude_andThen {a : Account σ Answer} {f : World σ → Account σ Answer}
    {i : Invocation} :
    (a.andThen f).conclude i = a.orResolve i fun u => (f u).conclude i := by
  rw [orResolve]
  split
  · next ha => rw [andThen_of_declined ha, conclude, conclude]
  · next ha => rw [andThen_of_not_declined (Bool.eq_false_iff.mpr ha)]

namespace Chain

variable {client : Client σ} {serve : Serve σ} {k l : Chain}

/-- The account of a chain appended to another goes on where the handlers of the other have
declined. -/
theorem account_append (k l : Chain) (i : Invocation) (w : World σ) :
    (k.append l).account client serve i w =
      (k.toHandler.account client serve i w).orResolve i (l.account client serve i) := by
  rw [account, append, Handler.accountOf_append, Account.andThen_assoc, Account.conclude_andThen]
  rfl

/-- The second chain resolves what the first declines when it is asked as a handler. -/
theorem resolve_append (k l : Chain) (i : Invocation) :
    (k.append l).resolve client serve i = (do
      match ← k.toHandler.handle client serve i with
      | some v => return v
      | none => l.resolve client serve i) := by
  funext w
  have hFirst : (k.toHandler.account client serve i w).outcome = _ :=
    Handler.account_eq_handle k.toHandler w
  rw [← account_eq_resolve, account_append]
  generalize k.toHandler.account client serve i w = a at hFirst ⊢
  obtain ⟨asked, e | _ | v, left⟩ := a
  · exact (Run.bind_error hFirst.symm).symm
  · rw [Run.bind_ok hFirst.symm]
    exact l.account_eq_resolve left
  · rw [Run.bind_ok hFirst.symm]
    rfl

/-- Two chains do the same with every invocation in every world: the same handlers run, each in the
same world, it ends in the same way, and the same world is left. -/
def ResolvesLike (client : Client σ) (serve : Serve σ) (k l : Chain) : Prop :=
  ∀ i w, k.account client serve i w = l.account client serve i w ∧
    k.resolve client serve i w = l.resolve client serve i w

theorem ResolvesLike.of_eq (hSame : k = l) : k.ResolvesLike client serve l :=
  fun _ _ => hSame ▸ ⟨rfl, rfl⟩

theorem empty_append (k : Chain) : append {} k = k := rfl

theorem append_empty (k : Chain) : k.append {} = k.withFallback .unhandled := by
  rw [append, withFallback, List.append_nil]

end Chain

/-- In a world, an object is called by name through a table of methods, and answers through a chain.
A call that the table does not know fails, and so does one with an argument that does not fit. -/
structure World.AnswersThrough (client : Client σ) (w : World σ) (o : ObjectRef)
    (table : Table (String × Nat) MethodRef) (k : Chain) : Prop where
  answer : ∀ serve i, o.answer client serve i w = k.resolve client serve i w
  call : ∀ depth name arguments, o.call (perform client (depth + 1)) name arguments w =
    match Table.find? table (name, arguments.length) with
    | none => (.error (.raised (.noSuchMethod o.cls name arguments.length)), w)
    | some m =>
      match w.hierarchy.misfit? m arguments with
      | some (p, a) => (.error (.raised (.illegal (.argumentType m p a))), w)
      | none => k.resolve client (perform client depth) ⟨m, some o, arguments⟩ w

namespace ProxyBuilder

variable {client : Client σ} {u v w : World σ} {o : ObjectRef}

/-- A proxy is called through the table for its interfaces and answers through its chain, for
good. -/
theorem answersThrough_of_build {b : ProxyBuilder} (hReach : World.Reachable client u)
    (hBuild : b.build u = (.ok o, v)) (hLeads : World.Leads client v w) :
    w.AnswersThrough client o (ProxyClass.tableOf w.hierarchy b.contracts.eraseDups) b.chain := by
  obtain ⟨contracts, made, hCheck, hYields⟩ := yields_of_build hReach.sound hBuild
  have hGrows := hLeads.growsTo hYields.sound
  have hObject := hGrows.object? hYields.object
  have hMade := hYields.implementing.mono hGrows.hierarchy
  rw [eq_eraseDups_of_checkContracts hCheck] at hMade
  refine ⟨fun serve i => ?_, fun depth name arguments => ?_⟩
  · rw [ObjectRef.answer, Run.bind_ok (Run.get_apply w), hObject]
  · rw [← hMade.table]
    cases hEntry : Table.find? made.table (name, arguments.length) with
    | none => exact ObjectRef.call_unknown hObject hEntry
    | some m =>
        obtain ⟨hKind, hArity, hSubtype⟩ := hMade.callable hEntry
        rw [← hYields.cls] at hSubtype
        rw [ObjectRef.call_apply hObject hEntry, ObjectRef.invoke_eq hKind hSubtype hArity]
        dsimp only
        cases w.hierarchy.misfit? m arguments with
        | none => exact perform_ask hObject depth _
        | some slot => rfl

theorem withChain_withChain (x : ProxyBuilder) (a b : Chain) :
    (x.withChain a).withChain b = x.withChain (a.append b) := by
  rw [withChain, withChain, withChain, Chain.append_assoc]

end ProxyBuilder

/-- The laws of appending chains, for what is resolved, for the handlers that run, and for the
worlds that they find and leave. A chain appended to another resolves what the other declines as a
handler. Appending is associative; before a chain the empty chain changes nothing, and behind it
nothing but the fallback. Giving a proxy two chains is giving it the two appended: it is built in
the same way, and however proxies of either kind come about, they are called through the same table
and answer through the same chain, each for itself. -/
theorem sequencing_of_chains (client : Client σ) (serve : Serve σ) (a b c : Chain) :
    (∀ (k : Chain) i w,
      (k.account client serve i w).outcome = k.resolve client serve i w ∧
      (k.toHandler.account client serve i w).outcome = k.toHandler.handle client serve i w) ∧
    (∀ i w, (a.append b).account client serve i w =
      (a.toHandler.account client serve i w).orResolve i (b.account client serve i)) ∧
    (∀ i, (a.append b).resolve client serve i = do
      match ← a.toHandler.handle client serve i with
      | some v => return v
      | none => b.resolve client serve i) ∧
    ((a.append b).append c).ResolvesLike client serve (a.append (b.append c)) ∧
    (Chain.append {} a).ResolvesLike client serve a ∧
    (a.append {}).ResolvesLike client serve (a.withFallback .unhandled) ∧
    ∀ x : ProxyBuilder,
      (∀ w : World σ, ((x.withChain a).withChain b).build w = (x.withChain (a.append b)).build w) ∧
      ∀ (u v u' v' w : World σ) (o p : ObjectRef),
        World.Reachable client u → ((x.withChain a).withChain b).build u = (.ok o, v) →
        World.Leads client v w →
        World.Reachable client u' → (x.withChain (a.append b)).build u' = (.ok p, v') →
        World.Leads client v' w →
        let table := ProxyClass.tableOf w.hierarchy x.contracts.eraseDups
        w.AnswersThrough client o table (x.chain.append (a.append b)) ∧
          w.AnswersThrough client p table (x.chain.append (a.append b)) := by
  refine ⟨fun k i w => ⟨k.account_eq_resolve w, Handler.account_eq_handle k.toHandler w⟩,
    a.account_append b, a.resolve_append b, .of_eq (a.append_assoc b c),
    .of_eq a.empty_append, .of_eq a.append_empty, fun x => ?_⟩
  have hSame := x.withChain_withChain a b
  refine ⟨fun w => by rw [hSame], ?_⟩
  intro u v u' v' w o p hReach hBuild hLeads hReach' hBuild' hLeads'
  rw [hSame] at hBuild
  exact ⟨ProxyBuilder.answersThrough_of_build hReach hBuild hLeads,
    ProxyBuilder.answersThrough_of_build hReach' hBuild' hLeads'⟩

/-- A proxy of a gate in the making, with no handlers so far. -/
def bareGate : ProxyBuilder where
  contracts := [⟨3⟩]

/-- A chain that takes note of invocations. -/
def watching : Chain := .single (.trace "seen")

/-- A chain that answers by identity. -/
def identifying : Chain := .single .identity

/-- A world with a gate that was given the two chains. -/
def gateInSteps : World Stub.Stage :=
  (((bareGate.withChain watching).withChain identifying).build gateWorld).2

/-- The world after another gate has been given the two chains appended. -/
def gatesAlike : World Stub.Stage :=
  ((bareGate.withChain (watching.append identifying)).build gateInSteps).2

/-- Each of the gates has its own identity, and neither can be opened. -/
theorem sequencing_of_gates :
    World.Reachable Stub.client gateWorld ∧
    ((bareGate.withChain watching).withChain identifying).build gateWorld =
      (.ok ⟨0, ⟨4⟩⟩, gateInSteps) ∧
    (bareGate.withChain (watching.append identifying)).build gateInSteps =
      (.ok ⟨1, ⟨4⟩⟩, gatesAlike) ∧
    ∀ o ∈ [(⟨0, ⟨4⟩⟩ : ObjectRef), ⟨1, ⟨4⟩⟩],
      o.call (perform Stub.client 1) "hash_code" [] gatesAlike =
        (.ok (.int o.identityHash), gatesAlike) ∧
      o.call (perform Stub.client 1) "open" [.string "7"] gatesAlike =
        (.error (.raised (.unhandled ⟨⟨⟨3⟩, 0⟩, some o, [.string "7"]⟩)), gatesAlike) := by
  have hReach : World.Reachable Stub.client gateWorld := ⟨{}, .step .refl (.declare gateType)⟩
  have hFirst : ((bareGate.withChain watching).withChain identifying).build gateWorld =
      (.ok ⟨0, ⟨4⟩⟩, gateInSteps) := rfl
  have hSecond : (bareGate.withChain (watching.append identifying)).build gateInSteps =
      (.ok ⟨1, ⟨4⟩⟩, gatesAlike) := rfl
  have hReach' := hReach.leads (.of_operation (.newProxy _) hFirst)
  obtain ⟨-, -, -, -, -, -, hProxies⟩ :=
    sequencing_of_chains Stub.client (perform Stub.client 0) watching identifying {}
  obtain ⟨hSteps, hAppended⟩ := (hProxies bareGate).2 _ _ _ _ _ _ _ hReach hFirst
    (.of_operation (.newProxy _) hSecond) hReach' hSecond .refl
  refine ⟨hReach, hFirst, hSecond, fun o ho => ?_⟩
  have hAnswers : gatesAlike.AnswersThrough Stub.client o
      (ProxyClass.tableOf gatesAlike.hierarchy bareGate.contracts.eraseDups)
      (bareGate.chain.append (watching.append identifying)) := by
    rcases List.mem_cons.mp ho with rfl | hLast
    · exact hSteps
    · rw [List.mem_singleton.mp hLast]
      exact hAppended
  have hEntries :
      Table.find? (ProxyClass.tableOf gatesAlike.hierarchy bareGate.contracts.eraseDups)
        ("hash_code", ([] : List Value).length) = some .hashCode ∧
      Table.find? (ProxyClass.tableOf gatesAlike.hierarchy bareGate.contracts.eraseDups)
        ("open", [Value.string "7"].length) = some ⟨⟨3⟩, 0⟩ := by
    decide +kernel
  constructor
  · rw [hAnswers.call 0 "hash_code" [], hEntries.1]
    rfl
  · rw [hAnswers.call 0 "open" [.string "7"], hEntries.2]
    rfl

end Metaobject
