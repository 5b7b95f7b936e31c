import Metaobject.Proofs.Proxy.Call
import Metaobject.Proofs.World.Restraint

/-!
Invocations that are delivered. Client code may make invocations only by the checks, replace parts
of those that it has been given, keep some in its state, and carry any of them out. Whatever else it
does, all invocations that then come up are well formed: those handed to objects and handlers, those
for which the bodies of methods run, those kept, and those in errors.
-/
namespace Metaobject

variable {σ α β : Type} {client : Client σ} {holds : σ → Invocation → Prop}

/-- A deed that declares no class and makes no object that needs one: it may make objects of the
client and targets, swap these, and have to do with the settings. -/
def Deed.KeepsClasses : Deed → Prop
  | declare _ | newProxy .. | newLazyProxy .. | newInstance .. | newRecorder _ => False
  | _ => True

theorem Deed.eq_of_keepsClasses {d : Deed} (hd : d.KeepsClasses) (w : World σ) :
    ((d.run : Run ProxyError σ d.Result) w).2.hierarchy = w.hierarchy ∧
      ((d.run : Run ProxyError σ d.Result) w).2.client = w.client := by
  cases d with
  | currentSettings =>
      rw [run, Settings.current_apply]
      exact ⟨rfl, rfl⟩
  | install s =>
      rcases s.install_apply w with ⟨e | _, hFails⟩ | ⟨-, -, hFixes⟩
      · rw [run, Run.attempt_raised hFails]
        exact ⟨rfl, rfl⟩
      · rw [run, Run.attempt_exhausted hFails]
        exact ⟨rfl, rfl⟩
      · rw [run, Run.attempt_ok hFixes]
        exact ⟨rfl, rfl⟩
  | newNative | newTarget | currentTarget | swapTarget | recorded => exact ⟨rfl, rfl⟩
  | _ => exact hd.elim

/-- Client code that makes no invocation but by the checks. What it carries out and what it keeps
has every property that the invocations it finds have by the way they are made. It may make objects
and swap targets, but leaves the classes as they are, so that what is well formed stays so: classes
are declared and proxies are made in between such code. -/
def Script.Honest (h : Hierarchy) (holds : σ → Invocation → Prop) (given : Invocation → Prop)
    (s : Script σ α) : Prop :=
  ∀ P, Invocation.Inherited h P → (∀ i, given i → P i) →
    s.Respects (· = h) P (fun state => ∀ i, holds state i → P i) Deed.KeepsClasses

/-- A client all of whose code is honest. Objects and handlers are given invocations. -/
structure Client.Honest (client : Client σ) (holds : σ → Invocation → Prop) : Prop where
  body : ∀ h hook receiver? arguments,
    (client.body hook receiver? arguments).Honest h holds fun _ => False
  native : ∀ h hook i, (client.native hook i).Honest h holds (· = i)
  handler : ∀ h hook i, (client.handler hook i).Honest h holds (· = i)
  initializer : ∀ h hook, (client.initializer hook).Honest h holds fun _ => False

/-- The request is for an invocation that is not well formed, or asks another object than its
receiver. -/
def Request.IllFormed (w : World σ) (r : Request) : Prop :=
  ¬ r.For w.hierarchy (Invocation.WellFormed w.hierarchy)

/-- A client that does the same as another for invocations that are well formed. -/
structure Client.Likens (h : Hierarchy) (client client' : Client σ) : Prop where
  body : client'.body = client.body
  native : ∀ hook i, i.WellFormed h → client'.native hook i = client.native hook i
  handler : ∀ hook i, i.WellFormed h → client'.handler hook i = client.handler hook i
  initializer : client'.initializer = client.initializer

/-- The worlds of a program with honest client code. Its scripts are honest, and the operations in
between, which make objects or declare classes, leave the state of the client alone. Invocations
that are kept are of declared methods. -/
inductive World.Honest (client : Client σ) (holds : σ → Invocation → Prop) : World σ → Prop where
  | start (state : σ) (hNone : ∀ i, ¬ holds state i) : Honest client holds { client := state }
  | script {α : Type} {w : World σ} (before : Honest client holds w) (s : Script σ α)
      (hs : s.Honest w.hierarchy holds fun _ => False) (depth : Nat) :
      Honest client holds (s.run (perform client depth) w).2
  | operation {ε α : Type} {x : Run ε σ α} {w : World σ} (before : Honest client holds w)
      (hx : Operation client x) (hClient : (x w).2.client = w.client)
      (hDeclared : ∀ i, holds w.client i → w.hierarchy.Declared i.method.owner) :
      Honest client holds (x w).2

section Accord

variable {h : Hierarchy}

/-- What well-formed invocations keep to: the classes stay, and the client keeps no others. -/
def Invocation.accord (h : Hierarchy) (holds : σ → Invocation → Prop) : Accord σ where
  world w := w.hierarchy = h ∧ ∀ i, holds w.client i → i.WellFormed h
  invocation := Invocation.WellFormed h
  state s := ∀ i, holds s i → i.WellFormed h
  deed := Deed.KeepsClasses
  made _ hw m o arguments i hMade :=
    (Invocation.inherited_wellFormed h).of m (some o) arguments i (hw.1 ▸ hMade)
  moved _ hw i o j hi hMoved :=
    (Invocation.inherited_wellFormed h).withReceiver i o j hi (hw.1 ▸ hMoved)
  found _ hw := hw.2
  left _ _ hw hs := ⟨hw.1, hs⟩
  enacted d hd w hw := by
    obtain ⟨hHierarchy, hClient⟩ := d.eq_of_keepsClasses hd w
    rwa [hHierarchy, hClient]

theorem Script.Honest.allowed {given : Invocation → Prop} {s : Script σ α}
    (hs : s.Honest h holds given) (hGiven : ∀ i, given i → i.WellFormed h) :
    (Invocation.accord h holds).Allows s := by
  refine (hs _ (Invocation.inherited_wellFormed h) hGiven).mono ?_
  rintro k ⟨w, hw, rfl⟩
  exact hw.1

theorem Client.Honest.clients {client' : Client σ} (hClient : client.Honest holds)
    (hLikens : Client.Likens h client client') :
    (Invocation.accord h holds).Clients client client' where
  body hook receiver? arguments :=
    ⟨by rw [hLikens.body], (hClient.body h hook receiver? arguments).allowed fun _ => False.elim⟩
  native hook i hi :=
    ⟨hLikens.native hook i hi, (hClient.native h hook i).allowed fun _ hj => hj ▸ hi⟩
  handler hook i hi :=
    ⟨hLikens.handler hook i hi, (hClient.handler h hook i).allowed fun _ hj => hj ▸ hi⟩

theorem Client.Honest.bears {client' : Client σ} (hClient : client.Honest holds)
    (hLikens : Client.Likens h client client') (y : Handler) :
    (Invocation.accord h holds).Bears client client' (fun _ => True) y := by
  cases y with
  | lazy hook cell =>
      intro u hu _
      refine ⟨by rw [hLikens.initializer], ?_, fun v o hv _ => hv⟩
      exact (hClient.initializer h hook).allowed fun _ => False.elim
  | record cell => exact fun w m hw => hw
  | _ => trivial

/-- Requests for invocations that are not well formed do not come up, so how they are served does
not matter. -/
theorem Client.Honest.serves {client' : Client σ} (hClient : client.Honest holds)
    (hLikens : Client.Likens h client client') (other : Serve σ → Serve σ) (depth : Nat) :
    (Invocation.accord h holds).Serves (perform client depth)
      (performApart client' Request.IllFormed other depth) := by
  rw [← performApart_self client Request.IllFormed]
  refine Accord.serves_performApart (fun hServe => ⟨hServe, hClient.clients hLikens, ?_⟩)
    (fun w hw o i _ made chain _ y _ => hClient.bears hLikens y) ?_ depth
  · intro x _ i _
    exact x.agree_answer_of_unlimited hServe (fun _ _ hv => hv) (fun _ _ hv => hv) i
  · intro _ _ w hw r hr hIll
    obtain ⟨rfl, _⟩ := hw
    exact absurd hr hIll

theorem Client.likens_self (h : Hierarchy) (client : Client σ) : Client.Likens h client client :=
  ⟨rfl, fun _ _ _ => rfl, fun _ _ _ => rfl, rfl⟩

/-- A script does the same however requests are served that are not for well-formed invocations. -/
theorem Client.Honest.agree_run {client' : Client σ} (hClient : client.Honest holds)
    (hLikens : Client.Likens h client client') (other : Serve σ → Serve σ) (depth : Nat)
    {s : Script σ α} (hs : s.Honest h holds fun _ => False) :
    (s.run (perform client depth)).Agree (Invocation.accord h holds)
      (s.run (performApart client' Request.IllFormed other depth)) :=
  Script.agree_run (hClient.serves hLikens other depth) (hs.allowed fun _ => False.elim)

end Accord

/-- Invocations that an honest program keeps are well formed at any time. -/
theorem World.Honest.sound_and_held {w : World σ} (hClient : client.Honest holds)
    (hw : World.Honest client holds w) :
    w.Sound ∧ ∀ i, holds w.client i → i.WellFormed w.hierarchy := by
  induction hw with
  | start state hNone => exact ⟨sound_start state, fun i hi => absurd hi (hNone i)⟩
  | @script α w _ s hs depth ih =>
      have hEvolves : (s.run (perform client depth)).Evolves :=
        Operation.evolves (.command (.call (.script depth s)))
      obtain ⟨-, ⟨hHierarchy, hHeld⟩, -⟩ := hClient.agree_run (Client.likens_self _ client) id depth
        hs w ⟨rfl, ih.2⟩
      exact ⟨(hEvolves w ih.1).2, fun i hi => hHierarchy ▸ hHeld i hi⟩
  | @operation ε α x w _ hx hSame hDeclared ih =>
      obtain ⟨hGrows, hSound⟩ := hx.evolves w ih.1
      refine ⟨hSound, fun i hi => ?_⟩
      rw [hSame] at hi
      exact (ih.2 i hi).mono hGrows.hierarchy (hDeclared i hi)

namespace Script

variable {hs : Hierarchy → Prop} {P : Invocation → Prop} {S : σ → Prop} {D : Deed → Prop}

theorem Respects.bind {s : Script σ α} {f : α → Script σ β} (hFirst : s.Respects hs P S D)
    (hRest : ∀ a, (f a).Respects hs P S D) : (s >>= f).Respects hs P S D := by
  show (Script.bind s f).Respects hs P S D
  induction s with
  | done a => exact hRest a
  | fail e => exact hFirst
  | read next ih => exact fun state hState => ih state (hFirst state hState)
  | write state next ih => exact ⟨hFirst.1, ih hFirst.2⟩
  | classes next ih => exact fun h hh => ih h (hFirst h hh)
  | call o name arguments next ih => exact fun r hr => ih r (hFirst r hr)
  | invokeMethod o m arguments next ih => exact fun r hr => ih r (hFirst r hr)
  | proceed i next ih => exact ⟨hFirst.1, fun r hr => ih r (hFirst.2 r hr)⟩
  | text v next ih => exact fun t => ih t (hFirst t)
  | enact d next ih => exact ⟨hFirst.1, fun r => ih r (hFirst.2 r)⟩

theorem respects_ofResult {r : Except ProxyError Value} (hr : Clears P r) :
    (ofResult r : Script σ Value).Respects hs P S D := by
  cases r with
  | ok v => trivial
  | error e => exact hr e rfl

end Script

namespace Stub

section Respecting

variable {hs : Hierarchy → Prop} {P : Invocation → Prop} {S : Stage → Prop} {D : Deed → Prop}
  (hS : ∀ s, S s)

theorem respects_concatText (vs : List Value) : (concatText vs).Respects hs P S D := by
  induction vs with
  | nil => trivial
  | cons v rest ih => exact fun s => .bind ih fun t => trivial

include hS

theorem respects_tick (counter : Nat) : (tick counter).Respects hs P S D :=
  fun _ _ => ⟨hS _, trivial⟩

theorem respects_note (entry : String) : (note entry).Respects hs P S D :=
  fun _ _ => ⟨hS _, trivial⟩

omit hS

variable {f : Frame}

mutual

/-- A behaviour carries out the invocation of its frame at the most. -/
theorem Action.respects_run (hS : ∀ s, S s) (hf : ∀ i, f.invocation? = some i → P i) (a : Action) :
    (a.run f).Respects hs P S D := by
  cases a with
  | concat => exact .bind (respects_concatText _) fun s => trivial
  | count counter => exact .bind (respects_tick hS counter) fun n => trivial
  | inTurn counter actions =>
      exact .bind (respects_tick hS counter) fun n => respects_runNth hS hf n actions
  | call name on? arguments? =>
      rw [run]
      refine .bind ?_ fun o? => ?_
      · cases on? with
        | none => trivial
        | some name => exact fun _ _ => trivial
      · cases o? with
        | none => trivial
        | some o => exact fun r hr => .bind (Script.respects_ofResult hr) fun v => trivial
  | unhandled =>
      rw [run]
      split
      · next i hi => exact hf i hi
      · trivial
  | proceed =>
      rw [run]
      split
      · next i hi =>
          exact ⟨hf i hi, fun r hr => .bind (Script.respects_ofResult hr) fun v => trivial⟩
      · trivial
  | _ => trivial

theorem Action.respects_runNth (hS : ∀ s, S s) (hf : ∀ i, f.invocation? = some i → P i) (n : Nat)
    (actions : List Action) :
    (runNth f n actions).Respects hs P S D := by
  cases actions with
  | nil => trivial
  | cons a rest =>
      cases rest with
      | nil => exact respects_run hS hf a
      | cons b rest =>
          cases n with
          | zero => exact respects_run hS hf a
          | succ n => exact respects_runNth hS hf n (b :: rest)

end

variable (hf : ∀ i, f.invocation? = some i → P i)

include hS hf

theorem respects_orNull (a : Action) : (orNull (a.run f)).Respects hs P S D :=
  .bind (a.respects_run hS hf) fun _ => trivial

theorem respects_runHandler (a : Action) (on? tag? : Option String) :
    (runHandler a on? tag? f).Respects hs P S D := by
  have hRest : (if on?.any (· != f.method) then return none else a.run f : Script Stage
      Answer).Respects hs P S D := by
    split
    · trivial
    · exact a.respects_run hS hf
  cases tag? with
  | none => exact hRest
  | some tag => exact .bind (respects_note hS _) fun _ => hRest

theorem respects_runNative (answers : Table String Action) {i : Invocation} (hi : P i) :
    (runNative answers f i).Respects hs P S D := by
  rw [runNative]
  split
  · refine .bind (Action.respects_run hS hf _) fun v => ?_
    split
    · trivial
    · exact hi
  · exact hi

end Respecting

/-- Stubs carry out and hand on the invocations that they are given, and make none. -/
theorem honest_client : Stub.client.Honest fun _ _ => False where
  body h hook receiver? arguments P hP hGiven := by
    refine .bind (fun _ _ => trivial) fun part? => ?_
    split
    · exact respects_orNull (fun s i hi => hi.elim) (fun _ hi => by cases hi) _
    · trivial
  native h hook i P hP hGiven := by
    refine .bind (fun _ _ => trivial) fun part? => ?_
    split
    · exact fun _ _ => respects_runNative (fun s i hi => hi.elim)
        (fun j hj => hGiven j (Option.some.inj hj).symm) _ (hGiven i rfl)
    · exact hGiven i rfl
  handler h hook i P hP hGiven := by
    refine .bind (fun _ _ => trivial) fun part? => ?_
    split
    · exact fun _ _ => respects_runHandler (fun s i hi => hi.elim)
        (fun j hj => hGiven j (Option.some.inj hj).symm) _ _ _
    · trivial
  initializer h hook P hP hGiven := by
    refine .bind (fun _ _ => trivial) fun part? => ?_
    split
    · refine .bind (respects_note (fun s i hi => hi.elim) _) fun _ => ?_
      refine .bind (respects_orNull (fun s i hi => hi.elim) (fun _ hi => by cases hi) _) fun v => ?_
      split <;> trivial
    · trivial

end Stub

/-- An object that answers with the number of its arguments. -/
def countingStage : Stub.Stage where
  parts := #[.native [("open", .argumentCount)]]

/-- A world in which a proxy forwards to such an object. -/
def forwardingWorld : World Stub.Stage :=
  let w := (gateType.declare (ε := ProxyError) { client := countingStage }).2
  let w := (Run.newObject (ε := ProxyError) ⟨3⟩ (.native ⟨0⟩) w).2
  let w := (Forwarding.of (ε := ProxyError) ⟨0, ⟨3⟩⟩ w).2
  ((ProxyBuilder.single ⟨3⟩ (.forward ⟨0⟩)).build w).2

/-- A call of the proxy. -/
def callForwarding : Script Stub.Stage Value :=
  .call ⟨1, ⟨4⟩⟩ "open" [.string "7"] Script.ofResult

end Metaobject
