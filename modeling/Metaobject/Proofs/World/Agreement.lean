import Metaobject.Handling
import Metaobject.Proofs.Invocation
import Metaobject.Proofs.World.Run

/-!
Calls that are served in two ways. All that a call does beyond its own rules it asks for, so it does
the same by two ways of serving requests that do the same for every request that comes up. What
comes up is limited by an accord: a property of worlds, one of invocations, one of states of the
client and one of its deeds, each of which calls pass on. If the ways agree on requests within the
accord, all calls by the one agree with those by the other and stay within it.

With one way of serving in both places, this says what calls maintain; with two, what they do not
depend on.
-/
namespace Metaobject

variable {σ α β : Type}

/-- The error hands on no invocation without the property. -/
def ProxyError.Within (P : Invocation → Prop) : ProxyError → Prop
  | .unhandled i => P i
  | _ => True

/-- The request is for an invocation with the property: an object is asked for its own, or the body
of its method is to run. -/
def Request.For (h : Hierarchy) (P : Invocation → Prop) : Request → Prop
  | .ask o i => i.receiver? = some o ∧ P i
  | .body hook receiver? arguments =>
    ∃ m, (h.method m).body? = some hook ∧ P ⟨m, receiver?, arguments⟩

/-- What a call gave hands on no invocation without the property. -/
def Clears (P : Invocation → Prop) (r : Except ProxyError Value) : Prop :=
  ∀ e, r = .error e → e.Within P

/-- Client code that carries out and hands on only invocations with the property, leaves only such
states, and does only such deeds, as long as the states that it finds and the results of its calls
are of this kind. -/
def Script.Respects (hs : Hierarchy → Prop) (P : Invocation → Prop) (S : σ → Prop)
    (D : Deed → Prop) : Script σ α → Prop
  | .done _ => True
  | .fail e => e.Within P
  | .read next => ∀ s, S s → (next s).Respects hs P S D
  | .write s next => S s ∧ next.Respects hs P S D
  | .classes next => ∀ h, hs h → (next h).Respects hs P S D
  | .call _ _ _ next => ∀ r, Clears P r → (next r).Respects hs P S D
  | .invokeMethod _ _ _ next => ∀ r, Clears P r → (next r).Respects hs P S D
  | .proceed i next => P i ∧ ∀ r, Clears P r → (next r).Respects hs P S D
  | .text _ next => ∀ s, (next s).Respects hs P S D
  | .enact d next => D d ∧ ∀ r, (next r).Respects hs P S D

/-- Limits that calls keep to: properties of worlds, of invocations, of states of the client and of
deeds. -/
structure Accord (σ : Type) where
  world : World σ → Prop
  invocation : Invocation → Prop
  state : σ → Prop
  deed : Deed → Prop
  made : ∀ w, world w → ∀ m o arguments i,
    Invocation.of w.hierarchy m (some o) arguments = .ok i → invocation i
  moved : ∀ w, world w → ∀ i o j, invocation i → i.withReceiver w.hierarchy o = .ok j → invocation j
  found : ∀ w, world w → state w.client
  left : ∀ w s, world w → state s → world { w with client := s }
  enacted : ∀ d, deed d → (d.run : Run ProxyError σ d.Result).Maintains world

/-- A deed has no errors of its own. -/
theorem Deed.run_ne_raised (d : Deed) (w : World σ) (e : ProxyError) :
    (d.run w).1 ≠ .error (.raised e) := by
  have hAttempt {ε τ : Type} (x : Run ε σ τ) :
      ((Run.attempt x : Run ProxyError σ (Except ε τ)) w).1 ≠ .error (.raised e) := by
    rcases hx : x w with ⟨(c | _) | a, v⟩
    · rw [Run.attempt_raised hx]
      rintro ⟨⟩
    · rw [Run.attempt_exhausted hx]
      rintro ⟨⟩
    · rw [Run.attempt_ok hx]
      rintro ⟨⟩
  cases d with
  | install | newProxy | newLazyProxy | newRecorder => exact hAttempt _
  | currentSettings =>
      show (Settings.current w).1 ≠ _
      rw [Settings.current, Run.bind_ok (Run.get_apply w)]
      cases w.settings? <;> rintro ⟨⟩
  | newInstance c values =>
      show (buildInstance c values w).1 ≠ _
      rw [buildInstance, Run.bind_ok (Run.get_apply w)]
      cases InstanceBuilder.filled w.hierarchy c values with
      | error why => rintro ⟨⟩
      | ok b =>
          dsimp only
          split
          · exact hAttempt _
          · rintro ⟨⟩
  | _ => rintro ⟨⟩

namespace Run

/-- In a world, two computations do the same and stay within the limits. -/
def AgreeAt (K : Accord σ) (x y : Run ProxyError σ α) (w : World σ) : Prop :=
  x w = y w ∧ K.world (x w).2 ∧ ∀ e, (x w).1 = .error (.raised e) → e.Within K.invocation

/-- In every world within the limits, two computations do the same and stay within them. -/
def Agree (K : Accord σ) (x y : Run ProxyError σ α) : Prop :=
  ∀ w, K.world w → AgreeAt K x y w

variable {K : Accord σ} {x y : Run ProxyError σ α}

theorem AgreeAt.of_eq {x' y' : Run ProxyError σ α} {w : World σ} (hx : x w = x' w)
    (hy : y w = y' w) (hAgree : x'.AgreeAt K y' w) : x.AgreeAt K y w := by
  rw [AgreeAt, hx, hy]
  exact hAgree

theorem Agree.pure (a : α) : (pure a : Run ProxyError σ α).Agree K (pure a) :=
  fun _ hw => ⟨rfl, hw, fun _ h => by cases h⟩

theorem Agree.raise {e : ProxyError} (he : e.Within K.invocation) :
    (raise e : Run ProxyError σ α).Agree K (raise e) :=
  fun _ hw => ⟨rfl, hw, fun _ h => by cases h; exact he⟩

theorem Agree.throw : (throw .exhausted : Run ProxyError σ α).Agree K (throw .exhausted) :=
  fun _ hw => ⟨rfl, hw, fun _ h => by cases h⟩

theorem Agree.modify {f : World σ → World σ} (hf : ∀ w, K.world w → K.world (f w)) :
    (modify f : Run ProxyError σ PUnit).Agree K (modify f) :=
  fun w hw => ⟨rfl, hf w hw, fun _ h => by cases h⟩

theorem AgreeAt.bind {f g : α → Run ProxyError σ β} {w : World σ} (hx : x.AgreeAt K y w)
    (hf : ∀ a, (f a).Agree K (g a)) : (x >>= f).AgreeAt K (y >>= g) w := by
  obtain ⟨hSame, hWorld, hError⟩ := hx
  rcases hRun : x w with ⟨e | a, v⟩ <;> have hRun' := hSame.symm.trans hRun
  · rw [hRun] at hWorld hError
    rw [AgreeAt, bind_error hRun, bind_error hRun']
    exact ⟨rfl, hWorld, fun d hd => hError d (by cases hd; rfl)⟩
  · rw [hRun] at hWorld
    rw [AgreeAt, bind_ok hRun, bind_ok hRun']
    exact hf a v hWorld

theorem Agree.bind {f g : α → Run ProxyError σ β} (hx : x.Agree K y)
    (hf : ∀ a, (f a).Agree K (g a)) : (x >>= f).Agree K (y >>= g) :=
  fun w hw => (hx w hw).bind hf

/-- What follows a question for the world may rely on the limits of that world. -/
theorem Agree.get_bind {f g : World σ → Run ProxyError σ α}
    (hf : ∀ w, K.world w → (f w).AgreeAt K (g w) w) :
    (Bind.bind (MonadState.get : Run ProxyError σ (World σ)) f).Agree K
      (Bind.bind (MonadState.get : Run ProxyError σ (World σ)) g) := hf

theorem Agree.hierarchy_bind {f g : Hierarchy → Run ProxyError σ α}
    (hf : ∀ w, K.world w → (f w.hierarchy).AgreeAt K (g w.hierarchy) w) :
    (Bind.bind (hierarchy : Run ProxyError σ Hierarchy) f).Agree K
      (Bind.bind (hierarchy : Run ProxyError σ Hierarchy) g) := hf

/-- A check that may fail with a cause of illegality. -/
theorem AgreeAt.check_bind {r : Except IllegalInvocation α} {f g : α → Run ProxyError σ β}
    {w : World σ} (hw : K.world w) (hf : ∀ a, r = .ok a → (f a).AgreeAt K (g a) w) :
    ((ofExcept .illegal r : Run ProxyError σ α) >>= f).AgreeAt K
      ((ofExcept .illegal r : Run ProxyError σ α) >>= g) w := by
  cases r with
  | error why => exact ⟨rfl, hw, fun e he => by cases he; trivial⟩
  | ok a => exact hf a rfl

/-- What follows an attempt may rely on its error. -/
theorem Agree.attempt_bind {f g : Except ProxyError α → Run ProxyError σ β} (hx : x.Agree K y)
    (hf : ∀ r, (∀ e, r = .error e → e.Within K.invocation) → (f r).Agree K (g r)) :
    ((attempt x : Run ProxyError σ (Except ProxyError α)) >>= f).Agree K
      ((attempt y : Run ProxyError σ (Except ProxyError α)) >>= g) := by
  intro w hw
  obtain ⟨hSame, hWorld, hError⟩ := hx w hw
  rcases hRun : x w with ⟨(e | _) | a, v⟩ <;> rw [hRun] at hWorld hError <;> rw [hRun] at hSame
  · rw [AgreeAt, bind_ok (attempt_raised hRun), bind_ok (attempt_raised hSame.symm)]
    exact hf _ (fun d hd => by cases hd; exact hError e rfl) v hWorld
  · rw [AgreeAt, bind_error (attempt_exhausted hRun), bind_error (attempt_exhausted hSame.symm)]
    exact ⟨rfl, hWorld, fun _ h => by cases h⟩
  · rw [AgreeAt, bind_ok (attempt_ok hRun), bind_ok (attempt_ok hSame.symm)]
    exact hf _ (fun _ h => by cases h) v hWorld

/-- A result may be kept in a cell that is still empty if the limits stand that. -/
theorem AgreeAt.once {k : Shelf σ α} {cell : Cell α} {w : World σ} (hw : K.world w)
    (hx : x.AgreeAt K y w)
    (hFill : ∀ a v, x w = (.ok a, v) → K.world v → (k.store v).read cell = none →
      K.world (k.put ((k.store v).fill cell a) v)) :
    (k.once cell x).AgreeAt K (k.once cell y) w := by
  cases hRead : (k.store w).read cell with
  | some a =>
      refine .of_eq (Shelf.once_of_some hRead) (Shelf.once_of_some hRead) ?_
      exact Agree.pure a w hw
  | none =>
      obtain ⟨hSame, hWorld, hError⟩ := hx
      rcases hRun : x w with ⟨e | a, v⟩ <;> have hRun' := hSame.symm.trans hRun <;>
        rw [hRun] at hWorld hError
      · rw [AgreeAt, Shelf.once_of_error hRead hRun, Shelf.once_of_error hRead hRun']
        exact ⟨rfl, hWorld, fun d hd => hError d (by cases hd; rfl)⟩
      · rw [AgreeAt, Shelf.once_of_ok hRead hRun, Shelf.once_of_ok hRead hRun']
        cases hAfter : (k.store v).read cell with
        | some c =>
            rw [Shelf.keep_of_some hAfter]
            exact ⟨rfl, hWorld, fun _ h => by cases h⟩
        | none =>
            rw [Shelf.keep_of_none hAfter]
            exact ⟨rfl, hFill a v hRun hWorld hAfter, fun _ h => by cases h⟩

end Run

/-- Two ways of serving requests agree on those that are for invocations within the limits. -/
def Accord.Serves (K : Accord σ) (serve serve' : Serve σ) : Prop :=
  ∀ w, K.world w → ∀ r : Request, r.For w.hierarchy K.invocation →
    (serve r).AgreeAt K (serve' r) w

variable {K : Accord σ}

/-- The accord allows client code. -/
def Accord.Allows (K : Accord σ) (script : Script σ α) : Prop :=
  script.Respects (fun h => ∃ w, K.world w ∧ w.hierarchy = h) K.invocation K.state K.deed

/-- A property of worlds for which it does not matter what client code does beyond its calls. -/
structure World.Untouched (I : World σ → Prop) : Prop where
  state : ∀ w s, I w → I { w with client := s }
  deeds : ∀ d : Deed, (d.run : Run ProxyError σ d.Result).Maintains I

/-- The accord that limits worlds alone. -/
def Accord.worlds (I : World σ → Prop) (hI : World.Untouched I) : Accord σ where
  world := I
  invocation _ := True
  state _ := True
  deed _ := True
  made _ _ _ _ _ _ _ := trivial
  moved _ _ _ _ _ _ _ := trivial
  found _ _ := trivial
  left w s hw _ := hI.state w s hw
  enacted d _ := hI.deeds d

theorem ProxyError.within_all (e : ProxyError) : e.Within fun _ => True := by
  cases e <;> trivial

/-- Without limits for invocations, states and deeds, all client code keeps to them. -/
theorem Script.respects_all (hs : Hierarchy → Prop) (script : Script σ α) :
    script.Respects hs (fun _ => True) (fun _ => True) fun _ => True := by
  induction script with
  | done a => trivial
  | fail e => exact e.within_all
  | read next ih => exact fun s _ => ih s
  | write s next ih => exact ⟨trivial, ih⟩
  | classes next ih => exact fun h _ => ih h
  | call o name arguments next ih => exact fun r _ => ih r
  | invokeMethod o m arguments next ih => exact fun r _ => ih r
  | proceed i next ih => exact ⟨trivial, fun r _ => ih r⟩
  | text v next ih => exact ih
  | enact d next ih => exact ⟨trivial, ih⟩

/-- Two clients do the same for invocations within the limits, and nothing that is not allowed.
Initializers are left out. -/
structure Accord.Clients (K : Accord σ) (client client' : Client σ) : Prop where
  body : ∀ hook receiver? arguments,
    client'.body hook receiver? arguments = client.body hook receiver? arguments ∧
      K.Allows (client.body hook receiver? arguments)
  native : ∀ hook i, K.invocation i →
    client'.native hook i = client.native hook i ∧ K.Allows (client.native hook i)
  handler : ∀ hook i, K.invocation i →
    client'.handler hook i = client.handler hook i ∧ K.Allows (client.handler hook i)

theorem Accord.clients_worlds {I : World σ → Prop} {hI : World.Untouched I}
    {client client' : Client σ} (hBody : client'.body = client.body)
    (hNative : client'.native = client.native) (hHandler : client'.handler = client.handler) :
    (Accord.worlds I hI).Clients client client' where
  body hook receiver? arguments := ⟨by rw [hBody], Script.respects_all _ _⟩
  native hook i _ := ⟨by rw [hNative], Script.respects_all _ _⟩
  handler hook i _ := ⟨by rw [hHandler], Script.respects_all _ _⟩

theorem Deed.agree_run {d : Deed} (hd : K.deed d) :
    (d.run : Run ProxyError σ d.Result).Agree K d.run :=
  fun w hw => ⟨rfl, K.enacted d hd w hw, fun e he => absurd he (d.run_ne_raised w e)⟩

variable {serve serve' : Serve σ}

section Calling

variable (hServe : K.Serves serve serve')

include hServe

namespace ObjectRef

variable (o : ObjectRef)

theorem agree_invoke (m : MethodRef) (arguments : List Value) :
    (o.invoke serve m arguments).Agree K (o.invoke serve' m arguments) := by
  refine .hierarchy_bind fun w hw => .check_bind hw fun i hi => ?_
  obtain ⟨rfl, -⟩ := (Invocation.decides_of ..).wellFormed_of_ok hi
  exact hServe w hw (.ask o _) ⟨rfl, K.made w hw m o arguments _ hi⟩

theorem agree_call (name : String) (arguments : List Value) :
    (o.call serve name arguments).Agree K (o.call serve' name arguments) := by
  refine .get_bind fun w hw => ?_
  split
  · exact o.agree_invoke hServe _ _ w hw
  · exact Run.Agree.raise (by trivial) w hw

theorem agree_equals (v : Value) : (o.equals serve v).Agree K (o.equals serve' v) := by
  refine .bind (o.agree_invoke hServe _ _) fun u => ?_
  split
  · exact .pure _
  · exact .raise trivial

theorem agree_hashCode : (o.hashCode serve).Agree K (o.hashCode serve') := by
  refine .bind (o.agree_invoke hServe _ _) fun u => ?_
  split
  · exact .pure _
  · exact .raise trivial

theorem agree_toText : (o.toText serve).Agree K (o.toText serve') := by
  refine .bind (o.agree_invoke hServe _ _) fun u => ?_
  split
  · exact .pure _
  · exact .raise trivial

end ObjectRef

namespace Invocation

theorem agree_carryOut {i : Invocation} (hi : K.invocation i) :
    (i.carryOut serve).Agree K (i.carryOut serve') := by
  refine .hierarchy_bind fun w hw => ?_
  rcases hBody : (w.hierarchy.method i.method).body? with _ | hook
  · rcases hReceiver : i.receiver? with _ | o
    · exact Run.Agree.raise (by trivial) w hw
    · exact hServe w hw (.ask o i) ⟨hReceiver, hi⟩
  · exact hServe w hw (.body hook i.receiver? i.arguments) ⟨i.method, hBody, hi⟩

theorem agree_redirect {i : Invocation} (hi : K.invocation i) (target : ObjectRef) :
    (i.redirect serve target).Agree K (i.redirect serve' target) := by
  refine .hierarchy_bind fun w hw => .check_bind hw fun j hj => ?_
  exact agree_carryOut hServe (K.moved w hw i target j hi hj) w hw

end Invocation

end Calling

namespace Value

mutual

theorem agree_equals (hServe : K.Serves serve serve') (v w : Value) :
    (v.equals serve w).Agree K (v.equals serve' w) := by
  cases v with
  | object o => exact o.agree_equals hServe w
  | array t xs =>
      cases w with
      | array u ys =>
          rw [equals, equals]
          split
          · exact agree_equalItems hServe xs ys
          · exact .pure _
      | _ => exact .pure _
  | _ => cases w <;> exact .pure _

theorem agree_equalItems (hServe : K.Serves serve serve') (vs ws : List Value) :
    (equalItems serve vs ws).Agree K (equalItems serve' vs ws) := by
  cases vs with
  | nil => exact .pure _
  | cons v vs =>
      cases ws with
      | nil => exact .pure _
      | cons w ws =>
          refine .bind (agree_equals hServe v w) fun same => ?_
          split
          · exact agree_equalItems hServe vs ws
          · exact .pure _

end

theorem agree_same (hServe : K.Serves serve serve') (v w : Value) :
    (v.same serve w).Agree K (v.same serve' w) := by
  refine .attempt_bind (agree_equals hServe v w) fun r _ => ?_
  split <;> exact .pure _

theorem agree_sameItems (hServe : K.Serves serve serve') (vs ws : List Value) :
    (sameItems serve vs ws).Agree K (sameItems serve' vs ws) := by
  induction vs generalizing ws with
  | nil => cases ws <;> exact .pure _
  | cons v vs ih =>
      cases ws with
      | nil => exact .pure _
      | cons w ws =>
          refine .bind (agree_same hServe v w) fun same => ?_
          split
          · exact ih ws
          · exact .pure _

mutual

theorem agree_hashCode (hServe : K.Serves serve serve') (v : Value) :
    (v.hashCode serve).Agree K (v.hashCode serve') := by
  cases v with
  | object o => exact o.agree_hashCode hServe
  | array t xs => exact agree_hashItems hServe 1 xs
  | token t => exact .hierarchy_bind fun w hw => Run.Agree.pure _ w hw
  | _ => exact .pure _

theorem agree_hashItems (hServe : K.Serves serve serve') (start : Int32) (vs : List Value) :
    (hashItems serve start vs).Agree K (hashItems serve' start vs) := by
  cases vs with
  | nil => exact .pure _
  | cons v vs =>
      exact .bind (agree_hashCode hServe v) fun n => agree_hashItems hServe (start * 31 + n) vs

end

mutual

theorem agree_text (hServe : K.Serves serve serve') (v : Value) :
    (v.text serve).Agree K (v.text serve') := by
  cases v with
  | object o =>
      refine .attempt_bind (o.agree_toText hServe) fun r _ => ?_
      split
      · exact .pure _
      · exact .hierarchy_bind fun w hw => Run.Agree.pure _ w hw
  | array t xs => exact .bind (agree_texts hServe xs) fun _ => .pure _
  | token t => exact .hierarchy_bind fun w hw => Run.Agree.pure _ w hw
  | _ => exact .pure _

theorem agree_texts (hServe : K.Serves serve serve') (vs : List Value) :
    (texts serve vs).Agree K (texts serve' vs) := by
  cases vs with
  | nil => exact .pure _
  | cons v vs =>
      exact .bind (agree_text hServe v) fun _ => .bind (agree_texts hServe vs) fun _ => .pure _

end

end Value

section Answering

variable (hServe : K.Serves serve serve')

include hServe

theorem Invocation.agree_same (i j : Invocation) :
    (i.same serve j).Agree K (i.same serve' j) := by
  rw [same, same]
  split
  · exact Value.agree_sameItems hServe _ _
  · exact .pure _

/-- Client code reaches the world through calls and deeds only. -/
theorem Script.agree_run {script : Script σ α}
    (hScript : K.Allows script) :
    (script.run serve).Agree K (script.run serve') := by
  induction script with
  | done a => exact .pure a
  | fail e => exact .raise hScript
  | read next ih =>
      exact .get_bind fun w hw => ih _ (hScript _ (K.found w hw)) w hw
  | write state next ih =>
      exact .bind (.modify fun w hw => K.left w state hw hScript.1) fun _ => ih hScript.2
  | classes next ih =>
      exact .hierarchy_bind fun w hw => ih _ (hScript _ ⟨w, hw, rfl⟩) w hw
  | call o name arguments next ih =>
      exact .attempt_bind (o.agree_call hServe name arguments) fun r hr => ih r (hScript r hr)
  | invokeMethod o m arguments next ih =>
      exact .attempt_bind (o.agree_invoke hServe m arguments) fun r hr => ih r (hScript r hr)
  | proceed i next ih =>
      exact .attempt_bind (i.agree_carryOut hServe hScript.1) fun r hr => ih r (hScript.2 r hr)
  | text v next ih => exact .bind (v.agree_text hServe) fun s => ih s (hScript s)
  | enact d next ih => exact .bind (Deed.agree_run hScript.1) fun r => ih r (hScript.2 r)

theorem agree_membersHash (start : Int32) (members : List (String × Value)) :
    (membersHash serve start members).Agree K (membersHash serve' start members) := by
  induction members generalizing start with
  | nil => exact .pure _
  | cons entry rest ih => exact .bind (entry.2.agree_hashCode hServe) fun n => ih _

namespace Instance

variable (x : Instance)

theorem agree_agrees (other : ObjectRef) (members : List Member) :
    (x.agrees serve other members).Agree K (x.agrees serve' other members) := by
  induction members with
  | nil => exact .pure _
  | cons m rest ih =>
      refine .bind (other.agree_invoke hServe _ _) fun theirs => ?_
      refine .bind (Value.agree_equals hServe _ theirs) fun same => ?_
      split
      · exact ih
      · exact .pure _

theorem agree_equalTo (receiver? : Option ObjectRef) (other : Value) :
    (x.equalTo serve receiver? other).Agree K (x.equalTo serve' receiver? other) := by
  cases other with
  | object o =>
      rw [equalTo, equalTo]
      split
      · exact .pure _
      · refine .hierarchy_bind fun w hw => ?_
        split
        · exact Run.Agree.pure _ w hw
        · refine Run.Agree.bind (o.agree_invoke hServe _ _) (fun type => ?_) w hw
          refine .bind (type.agree_same hServe _) fun same => ?_
          split
          · exact x.agree_agrees hServe o _
          · exact .pure _
  | _ => exact .pure _

theorem agree_computeHash : (x.computeHash serve).Agree K (x.computeHash serve') :=
  agree_membersHash hServe _ _

theorem agree_memberTexts (members : List (String × Value)) :
    (memberTexts serve members).Agree K (memberTexts serve' members) := by
  induction members with
  | nil => exact .pure _
  | cons entry rest ih =>
      exact .bind (entry.2.agree_text hServe) fun s => .bind ih fun _ => .pure _

theorem agree_computeText : (x.computeText serve).Agree K (x.computeText serve') :=
  .bind (agree_memberTexts hServe _) fun _ => .hierarchy_bind fun w hw => Run.Agree.pure _ w hw

section At

variable {w : World σ} (hw : K.world w)

include hw

/-- Filling the cell of the hash, if it is empty, is all that an instance does to the world beyond
the calls that computing the hash takes. -/
theorem agree_hash (hFill : ∀ cell, x.hashCell? = some cell → ∀ n v,
      x.computeHash serve w = (.ok n, v) → K.world v → v.hashes.read cell = none →
        K.world { v with hashes := v.hashes.fill cell n }) :
    (x.hash serve).AgreeAt K (x.hash serve') w := by
  have hCompute := x.agree_computeHash hServe w hw
  rw [hash, hash]
  cases hCell : x.hashCell? with
  | none => exact hCompute
  | some cell => exact .once hw hCompute (hFill cell hCell)

theorem agree_text (hFill : ∀ cell, x.textCell? = some cell → ∀ s v,
      x.computeText serve w = (.ok s, v) → K.world v → v.texts.read cell = none →
        K.world { v with texts := v.texts.fill cell s }) :
    (x.text serve).AgreeAt K (x.text serve') w := by
  have hCompute := x.agree_computeText hServe w hw
  rw [text, text]
  cases hCell : x.textCell? with
  | none => exact hCompute
  | some cell => exact .once hw hCompute (hFill cell hCell)

theorem agree_answer {i : Invocation}
    (hHash : i.method = .hashCode → (x.hash serve).AgreeAt K (x.hash serve') w)
    (hText : i.method = .toText → (x.text serve).AgreeAt K (x.text serve') w) :
    (x.answer serve i).AgreeAt K (x.answer serve' i) w := by
  rw [answer, answer]
  split
  · exact (x.agree_equalTo hServe _ _ w hw).bind fun _ => .pure _
  · split
    · next hMethod => exact (hHash hMethod).bind fun _ => .pure _
    · split
      · next hMethod => exact (hText hMethod).bind fun _ => .pure _
      · split <;> exact Run.Agree.pure _ w hw

end At

/-- Where it does not matter what is remembered of instances, all answer alike. -/
theorem agree_answer_of_unlimited (hHashes : ∀ w hashes, K.world w → K.world { w with hashes })
    (hTexts : ∀ w texts, K.world w → K.world { w with texts }) (i : Invocation) :
    (x.answer serve i).Agree K (x.answer serve' i) := fun _ hw =>
  x.agree_answer hServe hw
    (fun _ => x.agree_hash hServe hw fun _ _ _ v _ hv _ => hHashes v _ hv)
    (fun _ => x.agree_text hServe hw fun _ _ _ v _ hv _ => hTexts v _ hv)

end Instance

end Answering

/-- One handler is part of another. -/
inductive Handler.PartOf (y : Handler) : Handler → Prop where
  | self : PartOf y y
  | handler {handlers : List Handler} {fallback x : Handler} (hx : x ∈ handlers)
      (hPart : PartOf y x) : PartOf y (.chain handlers fallback)
  | last {handlers : List Handler} {fallback : Handler} (hPart : PartOf y fallback) :
      PartOf y (.chain handlers fallback)
  | bound {bindings : List (MethodRef × Handler)} {fallback x : Handler} {m : MethodRef}
      (hx : (m, x) ∈ bindings) (hPart : PartOf y x) : PartOf y (.dispatch bindings fallback)
  | unbound {bindings : List (MethodRef × Handler)} {fallback : Handler}
      (hPart : PartOf y fallback) : PartOf y (.dispatch bindings fallback)

/-- A handler is part of a handler of a chain. -/
def Chain.Includes (k : Chain) (y : Handler) : Prop :=
  (∃ x ∈ k.handlers, y.PartOf x) ∨ y.PartOf k.fallback

/-- What a handler keeps in a cell leaves the world within the limits, and so does the initializer
that fills a cell which is empty, and is the same for both clients. Instances have a property in
place of that. -/
def Accord.Bears (K : Accord σ) (client client' : Client σ) (Q : Instance → Prop) : Handler → Prop
  | .lazy hook cell => ∀ u, K.world u → u.lazies.read cell = none →
    client'.initializer hook = client.initializer hook ∧ K.Allows (client.initializer hook) ∧
      ∀ v o, K.world v → v.lazies.read cell = none →
        K.world { v with lazies := v.lazies.fill cell o }
  | .record cell => ∀ w m, K.world w →
    K.world { w with firstMethods := w.firstMethods.fill cell m }
  | .values x => Q x
  | _ => True

section Handling

variable {client client' : Client σ} {serve serve' : Serve σ} {Q : Instance → Prop}

theorem agree_recordFirst {cell : Cell MethodRef} (hCell : K.Bears client client' Q (.record cell))
    (m : MethodRef) :
    (recordFirst cell m : Run ProxyError σ Unit).Agree K (recordFirst cell m) := by
  refine .modify fun w hw => ?_
  split
  · exact hw
  · exact hCell w m hw

theorem agree_lazyTarget (hServe : K.Serves serve serve') {hook : Hook} {cell : Cell ObjectRef}
    (hCell : K.Bears client client' Q (.lazy hook cell)) :
    (lazyTarget client serve hook cell).Agree K (lazyTarget client' serve' hook cell) := by
  intro w hw
  cases hRead : w.lazies.read cell with
  | some o =>
      refine .of_eq (Shelf.once_of_some hRead) (Shelf.once_of_some hRead) ?_
      exact Run.Agree.pure o w hw
  | none =>
      obtain ⟨hSame, hKeeps, hFill⟩ := hCell w hw hRead
      rw [lazyTarget, lazyTarget, hSame]
      exact .once hw (Script.agree_run hServe hKeeps w hw) fun o v _ => hFill v o

/-- Requests are served alike within the limits, the client code is alike, and instances with a
property answer alike. -/
structure Accord.Ways (K : Accord σ) (client client' : Client σ) (serve serve' : Serve σ)
    (Q : Instance → Prop) : Prop where
  serves : K.Serves serve serve'
  clients : K.Clients client client'
  answers : ∀ x, Q x → ∀ i, K.invocation i → (x.answer serve i).Agree K (x.answer serve' i)

namespace Handler

mutual

/-- A handler of any kind, with all handlers inside it. -/
theorem agree_handle (hK : K.Ways client client' serve serve' Q) (x : Handler)
    (hx : ∀ y, PartOf y x → K.Bears client client' Q y)
    {i : Invocation} (hi : K.invocation i) :
    (x.handle client serve i).Agree K (x.handle client' serve' i) := by
  cases x with
  | decline => exact .pure _
  | unhandled => exact .raise hi
  | identity => exact .hierarchy_bind fun w hw => Run.Agree.pure _ w hw
  | trace label => exact .pure _
  | code hook =>
      obtain ⟨hSame, hKeeps⟩ := hK.clients.handler hook i hi
      rw [handle, handle, hSame]
      exact Script.agree_run hK.serves hKeeps
  | chain handlers fallback =>
      rw [handle, handle]
      exact agree_firstAnswer hK handlers (fun z hz y hPart => hx y (.handler hz hPart)) hi
  | forward cell =>
      refine .get_bind fun w hw => ?_
      split
      · exact Run.Agree.bind (Invocation.agree_redirect hK.serves hi _) (fun _ => .pure _) w hw
      · exact Run.Agree.pure _ w hw
  | dispatch bindings fallback =>
      rw [handle, handle]
      exact agree_handleBound hK bindings (fun b hb y hPart => hx y (.bound hb hPart))
        (agree_handle hK fallback (fun y hPart => hx y (.unbound hPart)) hi) hi
  | lazy initializer cell =>
      rw [handle, handle]
      split
      · exact .get_bind fun w hw => Run.Agree.pure _ w hw
      · refine .bind (agree_lazyTarget hK.serves (hx _ .self)) fun target => ?_
        exact .bind (Invocation.agree_redirect hK.serves hi target) fun _ => .pure _
  | values inst => exact hK.answers inst (hx _ .self) i hi
  | record cell =>
      refine .bind (agree_recordFirst (hx _ .self) i.method) fun _ => ?_
      exact .hierarchy_bind fun w hw => Run.Agree.pure _ w hw

theorem agree_firstAnswer (hK : K.Ways client client' serve serve' Q) (xs : List Handler)
    (hxs : ∀ x ∈ xs, ∀ y, PartOf y x → K.Bears client client' Q y) {i : Invocation}
    (hi : K.invocation i) :
    (firstAnswer client serve xs i).Agree K (firstAnswer client' serve' xs i) := by
  cases xs with
  | nil => exact .pure _
  | cons x rest =>
      refine .bind (agree_handle hK x (hxs x (List.mem_cons_self ..)) hi) fun answer => ?_
      split
      · exact .pure _
      · exact agree_firstAnswer hK rest (fun y hy => hxs y (List.mem_cons_of_mem x hy)) hi

theorem agree_handleBound (hK : K.Ways client client' serve serve' Q)
    (bindings : List (MethodRef × Handler))
    (hBindings : ∀ b ∈ bindings, ∀ y, PartOf y b.2 → K.Bears client client' Q y)
    {otherwise otherwise' : Run ProxyError σ Answer} (hOtherwise : otherwise.Agree K otherwise')
    {i : Invocation} (hi : K.invocation i) :
    (handleBound client serve bindings otherwise i).Agree K
      (handleBound client' serve' bindings otherwise' i) := by
  cases bindings with
  | nil => exact hOtherwise
  | cons b rest =>
      rw [handleBound, handleBound]
      split
      · exact agree_handleEntry hK b (hBindings b (List.mem_cons_self ..)) hi
      · exact agree_handleBound hK rest (fun c hc => hBindings c (List.mem_cons_of_mem b hc))
          hOtherwise hi

theorem agree_handleEntry (hK : K.Ways client client' serve serve' Q) (b : MethodRef × Handler)
    (hb : ∀ y, PartOf y b.2 → K.Bears client client' Q y) {i : Invocation}
    (hi : K.invocation i) :
    (handleEntry client serve b i).Agree K (handleEntry client' serve' b i) := by
  obtain ⟨m, x⟩ := b
  exact agree_handle hK x hb hi

end

end Handler

theorem Chain.agree_resolve (hK : K.Ways client client' serve serve' Q) (k : Chain)
    (hk : ∀ y, k.Includes y → K.Bears client client' Q y)
    {i : Invocation} (hi : K.invocation i) :
    (k.resolve client serve i).Agree K (k.resolve client' serve' i) := by
  refine .bind (Handler.agree_firstAnswer hK _
    (fun x hx y hPart => hk y (.inl ⟨x, hx, hPart⟩)) hi) fun answer => ?_
  split
  · exact .pure _
  · refine .bind (Handler.agree_handle hK _
      (fun y hPart => hk y (.inr hPart)) hi) fun last => ?_
    split
    · exact .pure _
    · exact .raise hi

/-- A request is served alike if the requests that it leads to are, and what the object that is
asked keeps in cells leaves the world within the limits. -/
theorem Request.agree_serveBy (hK : K.Ways client client' serve serve' Q) {r : Request}
    {w : World σ} (hw : K.world w) (hAsk : ∀ o i, r = .ask o i → K.invocation i)
    (hObject : ∀ o i made chain, r = .ask o i → w.object? o = some (.proxy made chain) →
      ∀ y, chain.Includes y → K.Bears client client' Q y) :
    (r.serveBy client serve).AgreeAt K (r.serveBy client' serve') w := by
  cases r with
  | body hook receiver? arguments =>
      obtain ⟨hSame, hKeeps⟩ := hK.clients.body hook receiver? arguments
      rw [serveBy, serveBy, hSame]
      exact Script.agree_run hK.serves hKeeps w hw
  | ask o i =>
      have hi := hAsk o i rfl
      rcases hData : w.object? o with _ | hook | ⟨made, chain⟩
      · have hAnswers (client : Client σ) (serve : Serve σ) :
            o.answer client serve i w = Run.raise (.unhandled i) w := by
          rw [ObjectRef.answer, Run.bind_ok (Run.get_apply w), hData]
        exact .of_eq (hAnswers ..) (hAnswers ..) (Run.Agree.raise (e := .unhandled i) hi w hw)
      · have hAnswers (client : Client σ) (serve : Serve σ) :
            o.answer client serve i w = (client.native hook i).run serve w := by
          rw [ObjectRef.answer, Run.bind_ok (Run.get_apply w), hData]
        obtain ⟨hSame, hKeeps⟩ := hK.clients.native hook i hi
        refine .of_eq (hAnswers ..) (hAnswers ..) ?_
        rw [hSame]
        exact Script.agree_run hK.serves hKeeps w hw
      · have hAnswers (client : Client σ) (serve : Serve σ) :
            o.answer client serve i w = chain.resolve client serve i w := by
          rw [ObjectRef.answer, Run.bind_ok (Run.get_apply w), hData]
        exact .of_eq (hAnswers ..) (hAnswers ..) (chain.agree_resolve hK
          (hObject o i made chain rfl hData) hi w hw)

end Handling

open Classical in
/-- Serve a request as `perform` does, except that some requests are served in another way, which
is given how requests are served one level deeper. -/
noncomputable def performApart (client : Client σ) (apart : World σ → Request → Prop)
    (other : Serve σ → Serve σ) : Nat → Serve σ
  | 0, _ => throw .exhausted
  | depth + 1, r => fun w =>
    if apart w r then other (performApart client apart other depth) r w
    else r.serveBy client (performApart client apart other depth) w

section Serving

variable {client client' : Client σ} {apart : World σ → Request → Prop}
  {other other' : Serve σ → Serve σ} {Q : Instance → Prop}

/-- Other ways that are none change nothing. -/
theorem performApart_self (client : Client σ) (apart : World σ → Request → Prop) :
    performApart client apart (fun serve r => r.serveBy client serve) = perform client := by
  funext depth
  induction depth with
  | zero => rfl
  | succ depth ih =>
      funext r w
      rw [performApart, perform, ih]
      exact ite_self _

/-- However deep requests are nested, two clients serve them alike, if they serve those apart alike
and what other objects keep in cells leaves the world within the limits. -/
theorem Accord.serves_performApart
    (hWays : ∀ {serve serve'}, K.Serves serve serve' → K.Ways client client' serve serve' Q)
    (hObject : ∀ w, K.world w → ∀ o i, ¬ apart w (.ask o i) → ∀ made chain,
      w.object? o = some (.proxy made chain) → ∀ y, chain.Includes y → K.Bears client client' Q y)
    (hApart : ∀ depth, K.Serves (performApart client apart other depth)
        (performApart client' apart other' depth) → ∀ w, K.world w → ∀ r : Request,
      r.For w.hierarchy K.invocation → apart w r →
        (other (performApart client apart other depth) r).AgreeAt K
          (other' (performApart client' apart other' depth) r) w)
    (depth : Nat) :
    K.Serves (performApart client apart other depth) (performApart client' apart other' depth) := by
  induction depth with
  | zero => exact fun w hw _ _ => Run.Agree.throw w hw
  | succ depth ih =>
      intro w hw r hr
      by_cases hSet : apart w r
      · refine .of_eq (if_pos hSet) (if_pos hSet) (hApart _ ih w hw r hr hSet)
      · refine .of_eq (if_neg hSet) (if_neg hSet)
          (Request.agree_serveBy (hWays ih) hw ?_ ?_)
        · rintro o i rfl
          exact hr.2
        · rintro o i made chain rfl hData
          exact hObject w hw o i hSet made chain hData

end Serving

end Metaobject
