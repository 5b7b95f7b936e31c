import Metaobject.Dispatcher
import Metaobject.Proofs.Chain.Precedence
import Metaobject.Proofs.Chain.Sequencing
import Metaobject.Proofs.Proxy.Dispatch
import Metaobject.Proofs.Reference.Captures

/-!
Dispatchers, from the steps by which they are put together. However handlers were bound, to a method
or to what a reference refers to, the handler that answers an invocation is the one that was last
bound to the invoked method, and methods to which none was bound are left to the last fallback.
-/
namespace Metaobject

variable {σ : Type} {client : Client σ} {serve : Serve σ}

/-- A reference that is called in this way is one to a method. -/
def CallableKind.callsMethod : CallableKind → Bool
  | .static | .ofInstance | .bound _ => true
  | .constructor | .lambda _ => false

theorem Descriptor.method_eq (d : Descriptor) :
    d.method = if d.kind.callsMethod then .ok d.member else .error .notAMethod := by
  obtain ⟨kind, member, capturing⟩ := d
  cases kind <;> rfl

/-- The methods that have an entry, once an entry has been set. -/
theorem Table.keys_set {α β : Type} [DecidableEq α] (t : Table α β) (a : α) (v : β) :
    keys (set t a v) = if a ∈ keys t then keys t else keys t ++ [a] := by
  induction t with
  | nil => rfl
  | cons head rest ih =>
      obtain ⟨b, w⟩ := head
      by_cases hba : b = a
      · simp [set, keys, hba]
      · have hRest : keys (set ((b, w) :: rest) a v) = b :: keys (set rest a v) := by
          rw [set, if_neg hba]
          rfl
        have hMem : a ∈ keys ((b, w) :: rest) ↔ a ∈ keys rest := by
          simp [keys, Ne.symm hba]
        rw [hRest, ih, apply_ite (List.cons b)]
        simp only [hMem]
        rfl

/-- The first binding of a method is the one that counts. -/
theorem Handler.handleBound_eq (bindings : List (MethodRef × Handler))
    (otherwise : Run ProxyError σ Answer) (i : Invocation) :
    Handler.handleBound client serve bindings otherwise i =
      match Table.find? bindings i.method with
      | some x => x.handle client serve i
      | none => otherwise := by
  induction bindings with
  | nil => rfl
  | cons b rest ih =>
      obtain ⟨m, x⟩ := b
      rw [Handler.handleBound, Table.find?]
      split
      · rw [Handler.handleEntry]
      · exact ih

theorem Chain.resolve_single (x : Handler) (i : Invocation) (w : World σ) :
    (Chain.single x).resolve client serve i w = Chain.conclude i (x.handle client serve i w) := by
  have hFirst : Handler.firstAnswer client serve [x] i w = x.handle client serve i w :=
    Handler.firstAnswer_singleton
  rw [resolve, single]
  rcases hx : x.handle client serve i w with ⟨e | _ | v, u⟩
  · exact Run.bind_error (hFirst.trans hx)
  · exact Run.bind_ok (hFirst.trans hx)
  · exact Run.bind_ok (hFirst.trans hx)

namespace Dispatcher

/-- A step of putting a dispatcher together. A reference is read with the classes and the registry
of its time. -/
inductive Step : Type 1 where
  | bind (m : MethodRef) (x : Handler)
  | bindReference {φ : Type} (h : Hierarchy) (r : Registry) (f : Reference φ) (x : Handler)
  | withFallback (x : Handler)

namespace Step

/-- What a step binds: a handler to the method given, or to the one that a reference refers to. -/
def binding? : Step → Option (MethodRef × Handler)
  | bind m x => some (m, x)
  | bindReference h r f x =>
    ((f.introspect h r).toOption.filter fun d => d.kind.callsMethod).map fun d => (d.member, x)
  | withFallback _ => none

/-- The fallback that a step sets. -/
def fallback? : Step → Option Handler
  | withFallback x => some x
  | _ => none

end Step

/-- Take a step. One that fails leaves the dispatcher as it was. -/
def take (d : Dispatcher) : Step → Dispatcher
  | .bind m x => d.bind m x
  | .bindReference h r f x => (d.bindReference h r f x).toOption.getD d
  | .withFallback x => d.withFallback x

/-- The dispatcher that some steps put together from nothing. -/
def ofSteps (steps : List Step) : Dispatcher :=
  steps.foldl take {}

/-- The bindings that some steps make, in order. -/
def bound (steps : List Step) : List (MethodRef × Handler) :=
  steps.filterMap Step.binding?

/-- The handler last bound to a method. -/
def lastBound? (steps : List Step) (m : MethodRef) : Option Handler :=
  ((bound steps).reverse.find? fun b => b.1 = m).map Prod.snd

/-- The last fallback; one that declines if there is none. -/
def lastFallback (steps : List Step) : Handler :=
  (steps.filterMap Step.fallback?).getLast?.getD .decline

/-- The handler that is to answer for a method. -/
def chosen (steps : List Step) (m : MethodRef) : Handler :=
  (lastBound? steps m).getD (lastFallback steps)

variable {d : Dispatcher} {h : Hierarchy} {r : Registry} {φ : Type} {f : Reference φ} {x : Handler}

/-- Binding to a reference is binding to the method that it refers to. -/
theorem bindReference_eq (d : Dispatcher) {e : Descriptor} (hRead : f.introspect h r = .ok e) :
    d.bindReference h r f x =
      if e.kind.callsMethod then .ok (d.bind e.member x) else .error .notAMethod := by
  rw [bindReference, hRead]
  show (e.method >>= fun m => .ok (d.bind m x)) = _
  rw [e.method_eq]
  split <;> rfl

theorem bindReference_error (d : Dispatcher) {why : ReferenceError}
    (hRead : f.introspect h r = .error why) : d.bindReference h r f x = .error why := by
  rw [bindReference, hRead]
  rfl

/-- A step enters its binding, if it makes one. -/
theorem bindings_take (d : Dispatcher) (s : Step) :
    (d.take s).bindings = s.binding?.elim d.bindings fun b => Table.set d.bindings b.1 b.2 := by
  cases s with
  | bind m x => rfl
  | withFallback x => rfl
  | bindReference h r f x =>
      rw [take, Step.binding?]
      cases hRead : f.introspect h r with
      | error why => rw [bindReference_error d hRead]; rfl
      | ok e =>
          rw [bindReference_eq d hRead]
          cases hKind : e.kind.callsMethod <;>
            simp [Except.toOption, Option.filter_some, hKind, bind]

theorem fallback_take (d : Dispatcher) (s : Step) :
    (d.take s).fallback = s.fallback?.getD d.fallback := by
  cases s with
  | bind m x => rfl
  | withFallback x => rfl
  | bindReference h r f x =>
      rw [take]
      cases hRead : f.introspect h r with
      | error why => rw [bindReference_error d hRead]; rfl
      | ok e =>
          rw [bindReference_eq d hRead]
          cases e.kind.callsMethod <;> rfl

theorem ofSteps_concat (steps : List Step) (s : Step) :
    ofSteps (steps ++ [s]) = (ofSteps steps).take s := by
  rw [ofSteps, List.foldl_append]
  rfl

theorem bound_concat (steps : List Step) (s : Step) :
    bound (steps ++ [s]) = bound steps ++ s.binding?.toList := by
  rw [bound, List.filterMap_append]
  cases h : s.binding? <;> simp [h, bound]

/-- The entry of a method is the handler last bound to it. -/
theorem find?_ofSteps (steps : List Step) (m : MethodRef) :
    Table.find? (ofSteps steps).bindings m = lastBound? steps m := by
  induction steps using List.reverseRecOn with
  | nil => rfl
  | append_singleton steps s ih =>
      rw [ofSteps_concat, bindings_take, lastBound?, bound_concat]
      cases hs : s.binding? with
      | none => simpa [lastBound?] using ih
      | some b =>
          rw [Option.elim_some, Table.find?_set, ih, lastBound?, Option.toList_some,
            List.reverse_append, List.reverse_singleton, List.singleton_append, List.find?_cons]
          by_cases hb : b.1 = m <;> simp [hb]

theorem fallback_ofSteps (steps : List Step) :
    (ofSteps steps).fallback = lastFallback steps := by
  induction steps using List.reverseRecOn with
  | nil => rfl
  | append_singleton steps s ih =>
      rw [ofSteps_concat, fallback_take, ih, lastFallback, lastFallback, List.filterMap_append]
      cases hs : s.fallback? <;> simp [hs]

/-- The methods with an entry are those bound, each once. -/
theorem keys_ofSteps (steps : List Step) :
    Table.keys (ofSteps steps).bindings = ((bound steps).map Prod.fst).eraseDups := by
  induction steps using List.reverseRecOn with
  | nil => rfl
  | append_singleton steps s ih =>
      rw [ofSteps_concat, bindings_take, bound_concat]
      cases hs : s.binding? with
      | none => simpa using ih
      | some b =>
          rw [Option.elim_some, Table.keys_set, ih, Option.toList_some, List.map_append,
            List.map_singleton, eraseDups_concat]

theorem length_ofSteps (steps : List Step) :
    (ofSteps steps).length = ((bound steps).map Prod.fst).toFinset.card := by
  have hSame : ((bound steps).map Prod.fst).toFinset =
      (Table.keys (ofSteps steps).bindings).toFinset := by
    ext m
    rw [List.mem_toFinset, List.mem_toFinset, keys_ofSteps, List.mem_eraseDups]
  have hNodup := nodup_eraseDups ((bound steps).map Prod.fst)
  rw [← keys_ofSteps] at hNodup
  rw [hSame, List.toFinset_card_of_nodup hNodup, Table.keys, List.length_map, length]

/-- The handler that was put together does what the chosen handler does. -/
theorem handle_ofSteps (steps : List Step) (i : Invocation) :
    (ofSteps steps).toHandler.handle client serve i =
      (chosen steps i.method).handle client serve i := by
  rw [toHandler, Handler.handle, Handler.handleBound_eq, find?_ofSteps, fallback_ofSteps, chosen]
  cases lastBound? steps i.method <;> rfl

/-- A step that fails makes no difference. -/
theorem take_of_error {why : ReferenceError} (hBind : d.bindReference h r f x = .error why) :
    d.take (.bindReference h r f x) = d := by
  rw [take, hBind]
  rfl

/-- Dispatchers answer by the invoked method. Of all steps by which a dispatcher was put together,
those that fail left out, the last that bound the invoked method says who answers, and if none did,
the last that set a fallback. The handler of the dispatcher does what this handler does, in every
world: it is asked once, and what it makes of the invocation is passed on. There are as many methods
bound as are different.

Binding to a reference that is read as one to a method is binding to that method. A reference to a
constructor, one to code written in place, and one that cannot be read fail, and bind nothing.

A proxy of a dispatcher that is called by name hands the invocation of the method that its table has
for the name to the handler chosen for this method. -/
theorem dispatch_by_method (steps : List Step) :
    (∀ {σ : Type} (client : Client σ) (serve : Serve σ) (i : Invocation),
      (ofSteps steps).toHandler.handle client serve i =
        (chosen steps i.method).handle client serve i) ∧
    (ofSteps steps).length = ((bound steps).map Prod.fst).toFinset.card ∧
    (∀ (d : Dispatcher) (h : Hierarchy) (r : Registry) {φ : Type} (f : Reference φ) (x : Handler),
      (∀ e, f.introspect h r = .ok e → e.kind.callsMethod = true →
        d.bindReference h r f x = .ok (d.bind e.member x)) ∧
      (∀ e, f.introspect h r = .ok e → e.kind.callsMethod = false →
        d.bindReference h r f x = .error .notAMethod ∧ d.take (.bindReference h r f x) = d) ∧
      ∀ why, f.introspect h r = .error why →
        d.bindReference h r f x = .error why ∧ d.take (.bindReference h r f x) = d) ∧
    ∀ {σ : Type} (client : Client σ) (c : ClassId) (u v w : World σ) (o : ObjectRef),
      World.Reachable client u → (ofSteps steps).instantiate c u = (.ok o, v) →
      World.Leads client v w → ∀ depth name arguments m,
        Table.find? (ProxyClass.tableOf w.hierarchy [c]) (name, arguments.length) = some m →
        w.hierarchy.misfit? m arguments = none →
        o.call (perform client (depth + 1)) name arguments w =
          Chain.conclude ⟨m, some o, arguments⟩ ((chosen steps m).handle client
            (perform client depth) ⟨m, some o, arguments⟩ w) := by
  refine ⟨fun client serve i => handle_ofSteps steps i, length_ofSteps steps,
    fun d h r φ f x => ⟨fun e hRead hKind => ?_, fun e hRead hKind => ?_, fun why hRead => ?_⟩, ?_⟩
  · rw [bindReference_eq d hRead, if_pos hKind]
  · have hBind : d.bindReference h r f x = .error .notAMethod := by
      rw [bindReference_eq d hRead, if_neg (by simp [hKind])]
    exact ⟨hBind, take_of_error hBind⟩
  · have hBind := bindReference_error (x := x) d hRead
    exact ⟨hBind, take_of_error hBind⟩
  · intro σ client c u v w o hReach hBuild hLeads depth name arguments m hEntry hFits
    have hAnswers := ProxyBuilder.answersThrough_of_build hReach hBuild hLeads
    have hContracts : (ProxyBuilder.single c (ofSteps steps).toHandler).contracts.eraseDups =
        [c] := rfl
    rw [hAnswers.call, hContracts, hEntry]
    dsimp only
    rw [hFits]
    dsimp only
    show (Chain.single (ofSteps steps).toHandler).resolve client _ _ w = _
    rw [Chain.resolve_single, handle_ofSteps]

/-- The classes and the registry where there is a gate. -/
abbrev gates : Hierarchy := gateWorld.hierarchy

/-- A form that names the question for a hash, called in some way. -/
def hashForm (kind : ReferenceKind) : ReferenceForm :=
  ⟨"object", kind, "object", "hash_code", "() -> i32", []⟩

/-- The question for a hash is left unhandled at first and then answered by identity. Code written
in place, a function that stands for nothing and a note of all the rest change nothing of that. -/
def hashSteps : List Step :=
  [.bind .hashCode .unhandled,
    .bindReference gates .opening (.ofForm (hashForm .virtual) ()) .identity,
    .bindReference gates .opening (.ofForm (hashForm .special) ()) .unhandled,
    .bindReference gates .opening (.synthetic ()) .decline, .withFallback (.trace "rest")]

theorem target_hashForm (kind : ReferenceKind) :
    (hashForm kind).target gates .opening = .ok (.object, .hashCode) := by
  apply ReferenceForm.target_eq_ok_iff.mpr
  refine ⟨by rfl, ⟨[], .primitive .int⟩, ?_, ?_⟩
  · show Signature.parse .opening "() -> i32" = _
    decide +kernel
  · show (gates.declaredNamed .object "hash_code").find? _ = _
    decide +kernel

theorem bound_hashSteps :
    bound hashSteps = [(.hashCode, .unhandled), (.hashCode, .identity)] := by
  have hRead : (Reference.ofForm (hashForm .virtual) ()).introspect gates .opening =
      .ok ⟨.ofInstance, .hashCode, .ofClass .object⟩ :=
    ReferenceForm.decode_eq_ok_iff.mpr ⟨.object, target_hashForm _,
      ReferenceForm.callable_eq_ok_iff.mpr (.ofInstance (.inl rfl) (by decide) rfl)⟩
  have hWritten : (Reference.ofForm (hashForm .special) ()).introspect gates .opening =
      .ok ⟨.lambda [], .hashCode, .ofClass .object⟩ :=
    ReferenceForm.decode_eq_ok_iff.mpr ⟨.object, target_hashForm _,
      ReferenceForm.callable_eq_ok_iff.mpr (.lambda rfl (by decide))⟩
  have hNothing : (Reference.synthetic ()).introspect gates .opening =
      .error (.unresolvable .noForm) := rfl
  simp [bound, hashSteps, Step.binding?, hRead, hWritten, hNothing, Except.toOption,
    CallableKind.callsMethod]

/-- The world with a proxy of a gate that answers for its hash in this way. -/
def hashedWorld : World Stub.Stage :=
  ((ofSteps hashSteps).instantiate ⟨3⟩ gateWorld).2

theorem dispatch_of_hashSteps :
    World.Reachable Stub.client gateWorld ∧
    (ofSteps hashSteps).instantiate ⟨3⟩ gateWorld = (.ok ⟨0, ⟨4⟩⟩, hashedWorld) ∧
    (ofSteps hashSteps).length = 1 ∧
    ObjectRef.call (perform Stub.client 1) ⟨0, ⟨4⟩⟩ "hash_code" [] hashedWorld =
      (.ok (.int (ObjectRef.identityHash ⟨0, ⟨4⟩⟩)), hashedWorld) ∧
    ObjectRef.call (perform Stub.client 1) ⟨0, ⟨4⟩⟩ "open" [.string "7"] hashedWorld =
      (.error (.raised (.unhandled ⟨⟨⟨3⟩, 0⟩, some ⟨0, ⟨4⟩⟩, [.string "7"]⟩)), hashedWorld) := by
  have hReach : World.Reachable Stub.client gateWorld := ⟨{}, .step .refl (.declare gateType)⟩
  have hBuild : (ofSteps hashSteps).instantiate ⟨3⟩ gateWorld = (.ok ⟨0, ⟨4⟩⟩, hashedWorld) := rfl
  obtain ⟨-, hLength, -, hProxy⟩ := dispatch_by_method hashSteps
  have hCall := hProxy Stub.client ⟨3⟩ _ _ _ _ hReach hBuild .refl 0
  have hHash : chosen hashSteps .hashCode = .identity := by
    simp [chosen, lastBound?, bound_hashSteps]
  have hOpen : chosen hashSteps ⟨⟨3⟩, 0⟩ = .trace "rest" := by
    rw [chosen, lastBound?, bound_hashSteps]
    rfl
  refine ⟨hReach, hBuild, ?_, ?_, ?_⟩
  · rw [hLength, bound_hashSteps]
    rfl
  · rw [hCall "hash_code" [] .hashCode (by decide +kernel) rfl, hHash]
    rfl
  · rw [hCall "open" [.string "7"] ⟨⟨3⟩, 0⟩ (by decide +kernel) rfl, hOpen]
    rfl

end Dispatcher

end Metaobject
