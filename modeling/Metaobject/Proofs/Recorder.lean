import Metaobject.Proofs.Extraction
import Metaobject.Proofs.Proxy.Call
import Metaobject.Proofs.Proxy.Use
import Metaobject.Proofs.Value

/-!
Code that is run on a recorder, the proxy that keeps the first method invoked on it. Whatever it
calls, by name or by method, what a call asks for is the same at any time of the run, since neither
classes nor objects change. So each call can be judged by the world in which the run began: one that
passes look-up and checks is kept if it is the first that does, and answered with a zero; one that
does not is turned away, and leaves no trace.
-/
namespace Metaobject

variable {σ α β : Type} {client : Client σ} {serve : Serve σ} {start w v : World σ}
  {o : ObjectRef} {cell : Cell MethodRef} {first? : Option MethodRef}

/-- A call that a run makes, and what comes of it. -/
structure Exchange where
  object : ObjectRef
  use : Use
  outcome : Except ProxyError Value

/-- The method that a call invokes, if it passes look-up and checks. -/
def Exchange.method? (start : World σ) (x : Exchange) : Option MethodRef :=
  (x.use.invocation start x.object).toOption.map Invocation.method

/-- What comes of a call of a recorder. -/
def Use.zeroOutcome (start : World σ) (o : ObjectRef) (use : Use) : Except ProxyError Value :=
  (use.invocation start o).map fun i => (start.hierarchy.resultType i.method).zero

namespace Script

/-- What a step yields is followed up; nothing follows a step that stops. -/
def follow (x : Run ProxyError σ β) (next : β → World σ → List Exchange) (w : World σ) :
    List Exchange :=
  match x w with
  | (.ok b, v) => next b v
  | (.error _, _) => []

theorem follow_ok {x : Run ProxyError σ β} {next : β → World σ → List Exchange} {b : β}
    (hx : x w = (.ok b, v)) : follow x next w = next b v := by
  rw [follow, hx]

/-- The calls that a script makes when it is run, with their outcomes, in order. -/
def calls (serve : Serve σ) : Script σ α → World σ → List Exchange
  | .done _, _ => []
  | .fail _, _ => []
  | .read next, w => calls serve (next w.client) w
  | .write state next, w => calls serve next { w with client := state }
  | .classes next, w => calls serve (next w.hierarchy) w
  | .call o name arguments next, w =>
    follow (Run.attempt (o.call serve name arguments))
      (fun r v => ⟨o, .call name arguments, r⟩ :: calls serve (next r) v) w
  | .invokeMethod o m arguments next, w =>
    follow (Run.attempt (o.invoke serve m arguments))
      (fun r v => ⟨o, .invoke m arguments, r⟩ :: calls serve (next r) v) w
  | .proceed i next, w =>
    follow (Run.attempt (i.carryOut serve)) (fun r v => calls serve (next r) v) w
  | .text a next, w => follow (a.text serve) (fun s v => calls serve (next s) v) w
  | .enact d next, w =>
    follow (d.run : Run ProxyError σ d.Result) (fun r v => calls serve (next r) v) w

/-- The script calls one object and no other, by name or by method, as long as it is answered with
values without objects, or turned away. In between it may change the state of its client, look at
classes and write such values down. -/
inductive OnlyCalls (o : ObjectRef) : Script σ α → Prop where
  | done (a : α) : OnlyCalls o (.done a)
  | fail (e : ProxyError) : OnlyCalls o (.fail e)
  | read {next : σ → Script σ α} (hNext : ∀ s, OnlyCalls o (next s)) : OnlyCalls o (.read next)
  | write (s : σ) {next : Script σ α} (hNext : OnlyCalls o next) : OnlyCalls o (.write s next)
  | classes {next : Hierarchy → Script σ α} (hNext : ∀ h, OnlyCalls o (next h)) :
      OnlyCalls o (.classes next)
  | call (name : String) (arguments : List Value) {next : Except ProxyError Value → Script σ α}
      (hNext : ∀ r : Except ProxyError Value, (∀ a, r = .ok a → a.Plain) → OnlyCalls o (next r)) :
      OnlyCalls o (.call o name arguments next)
  | invokeMethod (m : MethodRef) (arguments : List Value)
      {next : Except ProxyError Value → Script σ α}
      (hNext : ∀ r : Except ProxyError Value, (∀ a, r = .ok a → a.Plain) → OnlyCalls o (next r)) :
      OnlyCalls o (.invokeMethod o m arguments next)
  | text {a : Value} (hPlain : a.Plain) {next : String → Script σ α}
      (hNext : ∀ s, OnlyCalls o (next s)) : OnlyCalls o (.text a next)

/-- Going on with a result is calling nothing else, if neither part does. -/
theorem OnlyCalls.bind {script : Script σ α} {f : α → Script σ β} (hScript : script.OnlyCalls o)
    (hNext : ∀ a, (f a).OnlyCalls o) : (script.bind f).OnlyCalls o := by
  induction hScript with
  | done a => exact hNext a
  | fail e => exact .fail e
  | read _ ih => exact .read ih
  | write s _ ih => exact .write s ih
  | classes _ ih => exact .classes ih
  | call name arguments _ ih => exact .call name arguments ih
  | invokeMethod m arguments _ ih => exact .invokeMethod m arguments ih
  | text hPlain _ ih => exact .text hPlain ih

end Script

namespace Stub

theorem onlyCalls_note (o : ObjectRef) (entry : String) : (note entry).OnlyCalls o :=
  .read fun _ => .write _ (.done ())

/-- Whatever calls it is told to make, they are calls of the object it is given. -/
theorem onlyCalls_runProbes (o : ObjectRef) (last : Value) (probes : List Probe) :
    (runProbes o last probes).OnlyCalls o := by
  induction probes generalizing last with
  | nil => exact .done last
  | cons p rest ih =>
      refine .call p.name p.arguments fun r hPlain => ?_
      cases r with
      | ok a => exact .text (hPlain a rfl) fun s => (onlyCalls_note o _).bind fun _ => ih a
      | error e =>
          show Script.OnlyCalls o (if p.tried then _ else _)
          split
          · exact (onlyCalls_note o _).bind fun _ => ih last
          · exact .fail e

theorem onlyCalls_runExtractor (probes : List Probe) (failure? : Option String) (o : ObjectRef) :
    (runExtractor probes failure? o).OnlyCalls o := by
  refine (onlyCalls_runProbes o .null probes).bind fun a => ?_
  cases failure? with
  | none => exact .done a
  | some message => exact .fail _

end Stub

/-- A world that a run on a recorder has come to. Classes and objects are as at the start, and the
cell of the recorder has what has been kept so far. -/
structure Recording (start : World σ) (cell : Cell MethodRef) (first? : Option MethodRef)
    (w : World σ) : Prop where
  steady : start.Steady w
  held : w.firstMethods.Holds cell
  kept : w.firstMethods.read cell = first?

/-- A zero is not an object, and has none in it. -/
theorem Value.plain_zero (t : Ty) : t.zero.Plain := by
  refine .atom ?_
  cases t with
  | primitive p => cases p <;> rfl
  | _ => rfl

theorem Use.plain_of_zeroOutcome {use : Use} {a : Value} (hZero : use.zeroOutcome start o = .ok a) :
    a.Plain := by
  rw [zeroOutcome] at hZero
  cases hUse : use.invocation start o with
  | error e =>
      rw [hUse] at hZero
      cases hZero
  | ok i =>
      rw [hUse] at hZero
      cases hZero
      exact Value.plain_zero _

namespace Recording

theorem write (hw : Recording start cell first? w) (state : σ) :
    Recording start cell first? { w with client := state } :=
  ⟨{ hw.steady with }, hw.held, hw.kept⟩

/-- A method that is invoked is kept, unless another has been. -/
theorem keep (hw : Recording start cell first? w) (m : MethodRef) :
    Recording start cell (first?.or (some m)) (recordFirst cell m w).2 := by
  cases first? with
  | some first =>
      rw [recordFirst, Run.modify_apply, hw.kept]
      exact hw
  | none =>
      rw [recordFirst_empty hw.kept]
      refine ⟨{ hw.steady with }, Store.holds_fill.mpr hw.held, ?_⟩
      show (w.firstMethods.fill cell m).read cell = some m
      rw [Store.read_fill _ _ _ _ hw.held, if_pos rfl]

/-- What a use asks for does not depend on when in the run it is made. -/
theorem invocation_eq (hw : Recording start cell first? w) (use : Use) :
    use.invocation w o = use.invocation start o := by
  refine Use.invocation_congr hw.steady.hierarchy (fun name arity => ?_) use
  rw [World.resolveMethod?, World.resolveMethod?, World.object?, World.object?, hw.steady.objects,
    hw.steady.hierarchy]

variable {made : ProxyClass}

/-- The recorder is asked: it keeps the method, and answers with a zero. -/
theorem ask (hw : Recording start cell first? w)
    (ho : start.object? o = some (.proxy made (.single (.record cell)))) (i : Invocation)
    (depth : Nat) :
    perform client (depth + 1) (.ask o i) w =
      (.ok (start.hierarchy.resultType i.method).zero, (recordFirst cell i.method w).2) := by
  have hObject : w.object? o = some (.proxy made (.single (.record cell))) := by
    rw [World.object?, hw.steady.objects]
    exact ho
  rw [perform_ask hObject, ← hw.steady.hierarchy]
  exact Chain.resolve_first (handle_record cell i w)

/-- One call of a recorder. If it passes look-up and checks its method is kept, unless one has been
kept before, and it is answered with a zero. If not, it is turned away. -/
theorem step (hw : Recording start cell first? w)
    (ho : start.object? o = some (.proxy made (.single (.record cell)))) (use : Use)
    (hResult : ∀ a, use.result a = .ok a) (depth : Nat) :
    ∃ v, (Run.attempt (use.run (perform client (depth + 1)) o) : Run ProxyError σ _) w =
        (.ok (use.zeroOutcome start o), v) ∧
      ∀ r, Recording start cell (first?.or ((⟨o, use, r⟩ : Exchange).method? start)) v := by
  have hRun : use.run (perform client (depth + 1)) o w = _ := use.run_apply o w
  rw [hw.invocation_eq] at hRun
  cases hUse : use.invocation start o with
  | error e =>
      rw [hUse] at hRun
      refine ⟨w, ?_, fun r => ?_⟩
      · rw [Run.attempt_raised hRun, Use.zeroOutcome, hUse]
        rfl
      · rw [Exchange.method?, hUse]
        simpa [Except.toOption] using hw
  | ok i =>
      rw [hUse] at hRun
      refine ⟨(recordFirst cell i.method w).2, ?_, fun r => ?_⟩
      · have hAsk : use.ask (perform client (depth + 1)) o i w =
            (.ok (start.hierarchy.resultType i.method).zero, (recordFirst cell i.method w).2) := by
          rw [Use.ask, Run.bind_ok (hw.ask ho i depth), hResult]
          rfl
        rw [Run.attempt_ok (hRun.trans hAsk), Use.zeroOutcome, hUse]
        rfl
      · rw [Exchange.method?, hUse]
        exact hw.keep i.method

end Recording

namespace Script

/-- What a run on a recorder shows: it is not cut short, all its calls are calls of the recorder
that are answered with a zero or turned away, and what is kept in the end is the first method that
it invokes, unless one had been kept before. -/
structure Records (serve : Serve σ) (start : World σ) (o : ObjectRef) (cell : Cell MethodRef)
    (first? : Option MethodRef) (script : Script σ α) (w : World σ) : Prop where
  ends : (script.run serve w).1 ≠ .error .exhausted
  answers : ∀ x ∈ script.calls serve w, x.object = o ∧ x.outcome = x.use.zeroOutcome start o
  keeps : Recording start cell
    (first?.or ((script.calls serve w).findSome? (Exchange.method? start)))
    (script.run serve w).2

namespace Records

variable {script rest : Script σ α}

/-- The end of a script. -/
theorem stop (hEnds : (script.run serve w).1 ≠ .error .exhausted)
    (hCalls : script.calls serve w = []) (hw : Recording start cell first? w)
    (hRun : (script.run serve w).2 = w) : Records serve start o cell first? script w := by
  refine ⟨hEnds, by simp [hCalls], ?_⟩
  rw [hCalls, hRun, List.findSome?_nil, Option.or_none]
  exact hw

/-- A step that calls nothing. -/
theorem skip (hRest : Records serve start o cell first? rest v)
    (hRun : script.run serve w = rest.run serve v)
    (hCalls : script.calls serve w = rest.calls serve v) :
    Records serve start o cell first? script w := by
  obtain ⟨hEnds, hAnswers, hKeeps⟩ := hRest
  rw [← hCalls] at hAnswers hKeeps
  rw [← hRun] at hEnds hKeeps
  exact ⟨hEnds, hAnswers, hKeeps⟩

/-- A step that calls the recorder. -/
theorem exchange {use : Use}
    (hRest : Records serve start o cell
      (first?.or ((⟨o, use, use.zeroOutcome start o⟩ : Exchange).method? start)) rest v)
    (hRun : script.run serve w = rest.run serve v)
    (hCalls : script.calls serve w = ⟨o, use, use.zeroOutcome start o⟩ :: rest.calls serve v) :
    Records serve start o cell first? script w := by
  obtain ⟨hEnds, hAnswers, hKeeps⟩ := hRest
  refine ⟨hRun ▸ hEnds, ?_, ?_⟩
  · rw [hCalls]
    exact List.forall_mem_cons.mpr ⟨⟨rfl, rfl⟩, hAnswers⟩
  · have hFirst (x : Exchange) (xs : List Exchange) : (x :: xs).findSome? (Exchange.method? start) =
        (x.method? start).or (xs.findSome? (Exchange.method? start)) := by
      rw [List.findSome?_cons]
      cases x.method? start <;> rfl
    rw [hRun, hCalls, hFirst, ← Option.or_assoc]
    exact hKeeps

end Records

/-- Code that calls nothing but the recorder records what it calls. -/
theorem OnlyCalls.records {script : Script σ α} (hScript : script.OnlyCalls o) {made : ProxyClass}
    (ho : start.object? o = some (.proxy made (.single (.record cell)))) (depth : Nat)
    (hw : Recording start cell first? w) :
    Records (perform client (depth + 1)) start o cell first? script w := by
  -- The induction is on the code; the world and what is kept change from step to step.
  induction hScript generalizing first? w with
  | done a => exact .stop nofun rfl hw rfl
  | fail e => exact .stop nofun rfl hw rfl
  | read _ ih => exact (ih _ hw).skip (Run.bind_ok (Run.get_apply w)) rfl
  | write s _ ih => exact (ih (hw.write s)).skip (Run.bind_ok (Run.modify_apply _ w)) rfl
  | classes _ ih => exact (ih _ hw).skip (Run.bind_ok (Run.hierarchy_apply w)) rfl
  | call name arguments _ ih =>
      obtain ⟨v, hRun, hv⟩ := hw.step ho (.call name arguments) (fun _ => rfl) depth
      refine .exchange (ih _ (fun _ => Use.plain_of_zeroOutcome) (hv _)) ?_ (follow_ok hRun)
      exact Run.bind_ok hRun
  | invokeMethod m arguments _ ih =>
      obtain ⟨v, hRun, hv⟩ := hw.step ho (.invoke m arguments) (fun _ => rfl) depth
      refine .exchange (ih _ (fun _ => Use.plain_of_zeroOutcome) (hv _)) ?_ (follow_ok hRun)
      exact Run.bind_ok hRun
  | text hPlain _ ih =>
      obtain ⟨d, hd⟩ := hPlain.exists_datum w
      exact (ih _ hw).skip (Run.bind_ok (hPlain.text_eq hd)) (follow_ok (hPlain.text_eq hd))

end Script

/-- A recorder of an interface has kept nothing when it has been made. -/
theorem recording_of_recorder {c : ClassId} (hSound : w.Sound)
    (hc : w.hierarchy.isInterface c = true) :
    ∃ cell o start made, recorder c w = (.ok (cell, o), start) ∧
      start.object? o = some (.proxy made (.single (.record cell))) ∧
      Recording start cell none start := by
  obtain ⟨o, start, made, hMade, hYields⟩ := recorder_apply hSound hc
  have hCells : start.firstMethods = w.firstMethods.fresh.2 := hYields.cells.firstMethods
  refine ⟨_, o, start, made, hMade, hYields.object, .refl start, ?_, ?_⟩
  · rw [hCells]
    exact Store.holds_fresh _
  · rw [hCells]
    exact Store.read_fresh_new _

/-- Code that tries two calls of a gate that are turned away, and one that is not. It goes on to
another method, and then fails. -/
def knock : ObjectRef → Script Stub.Stage Value :=
  Stub.runExtractor
    [⟨"shut", [], true⟩, ⟨"open", [.int 7], true⟩, ⟨"open", [.string "7"], false⟩,
      ⟨"equals", [.null], false⟩]
    (some "enough")

/-- The world in which it begins, with a recorder of the gate. -/
def listeningWorld : World Stub.Stage :=
  (recorder ⟨3⟩ gateWorld).2

end Metaobject
