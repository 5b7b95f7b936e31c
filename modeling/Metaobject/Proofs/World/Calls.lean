import Metaobject.Proofs.World.Growth

/-!
What calls can do to the world. A call may set off requests, nested to any depth. What all of them
change is the state of the client, cells, and what client code has the library do; the cells of
hashes and texts change only where an instance answers. So a relation between the worlds before and
after that holds over each of these holds over every call.
-/
namespace Metaobject

variable {σ α : Type}

namespace World

/-- An instance is among the handlers of a proxy. -/
def Has (w : World σ) (x : Instance) : Prop :=
  ∃ o made chain, w.object? o = some (.proxy made chain) ∧ chain.Has x

theorem Has.of_objects_eq {v w : World σ} (hObjects : v.objects = w.objects) {x : Instance}
    (hx : v.Has x) : w.Has x := by
  obtain ⟨o, made, chain, hObject, hChain⟩ := hx
  rw [object?, hObjects] at hObject
  exact ⟨o, made, chain, hObject, hChain⟩

end World

/-- A property of worlds for which neither what client code does nor the cells of handlers that are
no instances matter. -/
structure World.Unmoved (I : World σ → Prop) : Prop extends World.Untouched I where
  lazies : ∀ w lazies, I w → I { w with lazies }
  firstMethods : ∀ w firstMethods, I w → I { w with firstMethods }

variable {I : World σ → Prop}

/-- The accord of worlds with such a property. -/
def World.Unmoved.accord (hI : World.Unmoved I) : Accord σ :=
  .worlds I hI.toUntouched

section Answering

variable (hI : World.Unmoved I)

/-- What agrees with itself within such an accord is what maintains the property. -/
theorem World.Unmoved.agree_iff {x : Run ProxyError σ α} :
    x.Agree hI.accord x ↔ x.Maintains I :=
  ⟨fun hx w hw => (hx w hw).2.1, fun hx w hw => ⟨rfl, hx w hw, fun e _ => e.within_all⟩⟩

theorem World.Unmoved.clients (client : Client σ) : hI.accord.Clients client client :=
  Accord.clients_worlds rfl rfl rfl

variable {serve : Serve σ} (hServe : ∀ r, (serve r).Maintains I)

include hServe

theorem World.Unmoved.serves : hI.accord.Serves serve serve :=
  fun w hw r _ => hI.agree_iff.mpr (hServe r) w hw

include hI

namespace Instance

variable (x : Instance)

/-- An instance changes the world by filling its own cells while they are empty, beyond the calls
that it makes. -/
theorem maintains_answer
    (hHash : ∀ cell, x.hashCell? = some cell → ∀ w n v, I w →
      x.computeHash serve w = (.ok n, v) → I v → v.hashes.read cell = none →
        I { v with hashes := v.hashes.fill cell n })
    (hText : ∀ cell, x.textCell? = some cell → ∀ w s v, I w →
      x.computeText serve w = (.ok s, v) → I v → v.texts.read cell = none →
        I { v with texts := v.texts.fill cell s })
    (i : Invocation) : (x.answer serve i).Maintains I := by
  have hServes := hI.serves hServe
  refine hI.agree_iff.mp fun w hw => x.agree_answer hServes hw (fun _ => ?_) fun _ => ?_
  · exact x.agree_hash hServes hw fun cell hCell n v => hHash cell hCell w n v hw
  · exact x.agree_text hServes hw fun cell hCell s v => hText cell hCell w s v hw

end Instance

end Answering

/-- What is related to a world stays related to it. -/
theorem World.Growth.unmoved {R : World σ → World σ → Prop} (hR : World.Growth R)
    (hLazies : ∀ w lazies, R w { w with lazies }) (w : World σ) : World.Unmoved (R w) where
  toUntouched := hR.untouched w
  lazies v lazies hv := hR.trans _ _ _ hv (hLazies v lazies)
  firstMethods v firstMethods hv := hR.trans _ _ _ hv (hR.firstMethods v firstMethods)

namespace World

/-- A relation between the worlds before and after that holds over all calls, since it holds over
the answers of the instances that objects answer through. These have a property that depends on the
world. -/
structure Course (client : Client σ) (R : World σ → World σ → Prop)
    (P : World σ → Instance → Prop) : Prop extends Growth R where
  lazies : ∀ w lazies, R w { w with lazies }
  has : ∀ w x, w.Has x → P w x
  answer : ∀ depth, (∀ r, (Metaobject.perform client depth r).Keeps R) → ∀ w x, P w x → ∀ i,
    (x.answer (Metaobject.perform client depth) i).Maintains (R w)

namespace Course

variable {client : Client σ} {R : World σ → World σ → Prop} {P : World σ → Instance → Prop}
  (hR : Course client R P)

include hR

theorem unmoved (w : World σ) : Unmoved (R w) :=
  hR.toGrowth.unmoved hR.lazies w

/-- The parts of a handler keep the relation, instances apart. -/
theorem bears {w : World σ} {y : Handler} (hy : ∀ x, y = .values x → P w x) :
    (hR.unmoved w).accord.Bears client client (P w) y := by
  cases y with
  | lazy hook cell =>
      exact fun _ _ _ =>
        ⟨rfl, Script.respects_all _ _, fun v o hv _ => (hR.unmoved w).lazies v _ hv⟩
  | record cell => exact fun v m hv => (hR.unmoved w).firstMethods v _ hv
  | values x => exact hy x rfl
  | _ => trivial

theorem ways {depth : Nat} (hServe : ∀ r, (Metaobject.perform client depth r).Keeps R)
    (w : World σ) :
    (hR.unmoved w).accord.Ways client client (Metaobject.perform client depth)
      (Metaobject.perform client depth) (P w) where
  serves := (hR.unmoved w).serves fun r v hv => hR.trans _ _ _ hv (hServe r v)
  clients := (hR.unmoved w).clients client
  answers x hx i _ := (hR.unmoved w).agree_iff.mpr (hR.answer depth hServe w x hx i)

/-- However deep requests are nested, serving one keeps the relation. -/
theorem perform (depth : Nat) (r : Request) : (perform client depth r).Keeps R := by
  induction depth generalizing r with
  | zero => exact hR.refl
  | succ depth ih =>
      intro w
      refine (Request.agree_serveBy (hR.ways ih w) (hR.refl w) (fun _ _ _ => trivial)
        fun o i made chain _ hObject y hy => hR.bears ?_).2.1
      rintro x rfl
      exact hR.has w x ⟨o, made, chain, hObject, hy⟩

theorem handle (depth : Nat) (x : Handler) (i : Invocation) {w : World σ}
    (hx : ∀ y, x.Has y → P w y) :
    R w (x.handle client (Metaobject.perform client depth) i w).2 := by
  refine (x.agree_handle (hR.ways (hR.perform depth) w) (fun y hy => hR.bears ?_) (by trivial) w
    (hR.refl w)).2.1
  rintro z rfl
  exact hx z hy

theorem resolve (depth : Nat) (k : Chain) (i : Invocation) {w : World σ}
    (hk : ∀ y, k.Has y → P w y) :
    R w (k.resolve client (Metaobject.perform client depth) i w).2 := by
  refine (k.agree_resolve (hR.ways (hR.perform depth) w) (fun y hy => hR.bears ?_) (by trivial) w
    (hR.refl w)).2.1
  rintro z rfl
  exact hk z hy

end Course

end World

/-- Calls that a program can have made. Requests are nested no deeper than a bound, which is another
one each time. -/
inductive Calling (client : Client σ) : {ε α : Type} → Run ε σ α → Prop where
  | serve (depth : Nat) (r : Request) : Calling client (perform client depth r)
  | script {τ : Type} (depth : Nat) (s : Script σ τ) : Calling client (s.run (perform client depth))
  | equals (depth : Nat) (v u : Value) : Calling client (v.equals (perform client depth) u)
  | hashCode (depth : Nat) (v : Value) : Calling client (v.hashCode (perform client depth))
  | same (depth : Nat) (i j : Invocation) : Calling client (i.same (perform client depth) j)

theorem Calling.keeps {client : Client σ} {R : World σ → World σ → Prop}
    {P : World σ → Instance → Prop} (hR : World.Course client R P) {ε α : Type} {x : Run ε σ α}
    (hx : Calling client x) : x.Keeps R := by
  intro w
  have hWays (depth : Nat) := hR.ways (hR.perform depth) w
  have hRefl : (hR.unmoved w).accord.world w := hR.refl w
  cases hx with
  | serve depth r => exact hR.perform depth r w
  | script depth s => exact (s.agree_run (hWays depth).serves (Script.respects_all _ s) w hRefl).2.1
  | equals depth v u => exact (v.agree_equals (hWays depth).serves u w hRefl).2.1
  | hashCode depth v => exact (v.agree_hashCode (hWays depth).serves w hRefl).2.1
  | same depth i j => exact (i.agree_same (hWays depth).serves j w hRefl).2.1

end Metaobject
