import Metaobject.Proofs.World.Evolution

/-!
Client code that holds back. If the client code in a call does only deeds of some kind, the call
maintains what these deeds maintain, as long as neither the state of the client nor the cells that
handlers and instances fill matter.
-/
namespace Metaobject

variable {σ τ : Type} {client : Client σ} {D : Deed → Prop} {I : World σ → Prop}

/-- Client code does only deeds of some kind. -/
def Script.Does (D : Deed → Prop) (s : Script σ τ) : Prop :=
  s.Respects (fun _ => True) (fun _ => True) (fun _ => True) D

/-- What keeps to limits whatever classes there are keeps to them where there are only some. -/
theorem Script.Respects.mono {hs hs' : Hierarchy → Prop} {P : Invocation → Prop} {S : σ → Prop}
    {s : Script σ τ} (hLimits : s.Respects hs P S D) (hLess : ∀ h, hs' h → hs h) :
    s.Respects hs' P S D := by
  induction s with
  | done => trivial
  | fail e => exact hLimits
  | read next ih => exact fun state hState => ih state (hLimits state hState)
  | write state next ih => exact ⟨hLimits.1, ih hLimits.2⟩
  | classes next ih => exact fun h hh => ih h (hLimits h (hLess h hh))
  | call o name arguments next ih => exact fun r hr => ih r (hLimits r hr)
  | invokeMethod o m arguments next ih => exact fun r hr => ih r (hLimits r hr)
  | proceed i next ih => exact ⟨hLimits.1, fun r hr => ih r (hLimits.2 r hr)⟩
  | text v next ih => exact fun t => ih t (hLimits t)
  | enact d next ih => exact ⟨hLimits.1, fun r => ih r (hLimits.2 r)⟩

/-- All code of a client does only deeds of some kind. -/
structure Client.Does (D : Deed → Prop) (client : Client σ) : Prop where
  body : ∀ hook receiver? arguments, (client.body hook receiver? arguments).Does D
  native : ∀ hook i, (client.native hook i).Does D
  handler : ∀ hook i, (client.handler hook i).Does D
  initializer : ∀ hook, (client.initializer hook).Does D

/-- A property of worlds that deeds of some kind maintain, and for which neither the state of the
client nor the cells that handlers and instances fill matter. -/
structure World.Spared (D : Deed → Prop) (I : World σ → Prop) : Prop where
  state : ∀ w s, I w → I { w with client := s }
  lazies : ∀ w lazies, I w → I { w with lazies }
  hashes : ∀ w hashes, I w → I { w with hashes }
  texts : ∀ w texts, I w → I { w with texts }
  firstMethods : ∀ w firstMethods, I w → I { w with firstMethods }
  deeds : ∀ d : Deed, D d → (d.run : Run ProxyError σ d.Result).Maintains I

namespace World.Spared

variable (hI : World.Spared D I)

/-- The accord of worlds with such a property and deeds of that kind. -/
def accord : Accord σ where
  world := I
  invocation _ := True
  state _ := True
  deed := D
  made _ _ _ _ _ _ _ := trivial
  moved _ _ _ _ _ _ _ := trivial
  found _ _ := trivial
  left w s hw _ := hI.state w s hw
  enacted := hI.deeds

theorem allows {s : Script σ τ} (hs : s.Does D) : hI.accord.Allows s :=
  Script.Respects.mono hs fun _ _ => trivial

theorem clients (hClient : client.Does D) : hI.accord.Clients client client where
  body hook receiver? arguments := ⟨rfl, hI.allows (hClient.body hook receiver? arguments)⟩
  native hook i _ := ⟨rfl, hI.allows (hClient.native hook i)⟩
  handler hook i _ := ⟨rfl, hI.allows (hClient.handler hook i)⟩

theorem ways (hClient : client.Does D) {serve : Serve σ} (hServe : hI.accord.Serves serve serve) :
    hI.accord.Ways client client serve serve fun _ => True where
  serves := hServe
  clients := hI.clients hClient
  answers x _ i _ := x.agree_answer_of_unlimited hServe hI.hashes hI.texts i

theorem bears (hClient : client.Does D) (y : Handler) :
    hI.accord.Bears client client (fun _ => True) y := by
  cases y with
  | lazy hook cell =>
      exact fun _ _ _ =>
        ⟨rfl, hI.allows (hClient.initializer hook), fun v o hv _ => hI.lazies v _ hv⟩
  | record cell => exact fun v m hv => hI.firstMethods v _ hv
  | values x => trivial
  | _ => trivial

theorem agree_serveBy (hClient : client.Does D) {serve : Serve σ}
    (hServe : hI.accord.Serves serve serve) (r : Request) :
    (r.serveBy client serve).Agree hI.accord (r.serveBy client serve) := fun _ hw =>
  Request.agree_serveBy (hI.ways hClient hServe) hw (fun _ _ _ => trivial)
    fun _ _ _ _ _ _ y _ => hI.bears hClient y

/-- However deep requests are nested, serving one maintains the property. -/
theorem serves (hClient : client.Does D) (depth : Nat) :
    hI.accord.Serves (perform client depth) (perform client depth) := by
  induction depth with
  | zero => exact fun w hw _ _ => Run.Agree.throw w hw
  | succ depth ih => exact fun w hw r _ => hI.agree_serveBy hClient ih r w hw

end World.Spared

/-- Calls that bring along no client code but such that does only deeds of some kind. -/
inductive Restrained (client : Client σ) (D : Deed → Prop) : {ε α : Type} → Run ε σ α → Prop where
  | serve (depth : Nat) (r : Request) : Restrained client D (perform client depth r)
  | script {τ : Type} (depth : Nat) (s : Script σ τ) (hs : s.Does D) :
      Restrained client D (s.run (perform client depth))
  | equals (depth : Nat) (v u : Value) : Restrained client D (v.equals (perform client depth) u)
  | hashCode (depth : Nat) (v : Value) : Restrained client D (v.hashCode (perform client depth))
  | same (depth : Nat) (i j : Invocation) : Restrained client D (i.same (perform client depth) j)
  | handle (depth : Nat) (x : Handler) (i : Invocation) :
      Restrained client D (x.handle client (perform client depth) i)
  | resolve (depth : Nat) (k : Chain) (i : Invocation) :
      Restrained client D (k.resolve client (perform client depth) i)

theorem Restrained.operation {ε α : Type} {x : Run ε σ α} (hx : Restrained client D x) :
    Operation client x := by
  cases hx with
  | serve depth r => exact .command (.call (.serve depth r))
  | script depth s _ => exact .command (.call (.script depth s))
  | equals depth v u => exact .command (.call (.equals depth v u))
  | hashCode depth v => exact .command (.call (.hashCode depth v))
  | same depth i j => exact .command (.call (.same depth i j))
  | handle depth x i => exact .handle depth x i
  | resolve depth k i => exact .resolve depth k i

/-- Such calls maintain what such deeds maintain. -/
theorem Restrained.maintains (hI : World.Spared D I) (hClient : client.Does D) {ε α : Type}
    {x : Run ε σ α} (hx : Restrained client D x) : x.Maintains I := by
  intro w hw
  have hServes (depth : Nat) := hI.serves hClient depth
  cases hx with
  | serve depth r =>
      cases depth with
      | zero => exact hw
      | succ depth => exact (hI.agree_serveBy hClient (hServes depth) r w hw).2.1
  | script depth s hs => exact (s.agree_run (hServes depth) (hI.allows hs) w hw).2.1
  | equals depth v u => exact (v.agree_equals (hServes depth) u w hw).2.1
  | hashCode depth v => exact (v.agree_hashCode (hServes depth) w hw).2.1
  | same depth i j => exact (i.agree_same (hServes depth) j w hw).2.1
  | handle depth x i =>
      exact (x.agree_handle (hI.ways hClient (hServes depth)) (fun y _ => hI.bears hClient y)
        trivial w hw).2.1
  | resolve depth k i =>
      exact (k.agree_resolve (hI.ways hClient (hServes depth)) (fun y _ => hI.bears hClient y)
        trivial w hw).2.1

end Metaobject
