import Metaobject.Assignment
import Metaobject.Proofs.World.Calls

/-!
What a program can have the library do without bringing handlers of its own, or instances: declare
classes, put settings into effect, make some kinds of objects, assign to the members of builders and
make calls. All of it comes down to a few steps, so what is true of these is true of all commands.
-/
namespace Metaobject

variable {ε σ α : Type} {client : Client σ} {R : World σ → World σ → Prop}
  {P : World σ → Instance → Prop}

/-- What a program can have the library do without bringing handlers or instances of its own. -/
inductive Command (client : Client σ) : {ε α : Type} → Run ε σ α → Prop where
  | declare {τ : Type} (b : ClassBuilder) : Command client (b.declare : Run τ σ ClassId)
  | installSettings (s : Settings) : Command client s.install
  | currentSettings {τ : Type} : Command client (Settings.current : Run τ σ Settings)
  | newNative {τ : Type} (c : ClassId) (hook : Hook) :
      Command client (Run.newObject c (.native hook) : Run τ σ ObjectRef)
  | newTarget {τ : Type} (target : ObjectRef) :
      Command client (Forwarding.of target : Run τ σ (Cell ObjectRef))
  | swapTarget {τ : Type} (cell : Cell ObjectRef) (target : ObjectRef) :
      Command client (Forwarding.swap cell target : Run τ σ (Option ObjectRef))
  | newLazyProxy (c : ClassId) (initializer : Hook) :
      Command client (LazyProxy.create c initializer)
  | extract (depth : Nat) (c : ClassId) (script : ObjectRef → Script σ Value) :
      Command client (extractMethod (perform client depth) c script)
  | assign (depth : Nat) (b : InstanceBuilder) (s : MemberSelector σ) (v : Value) :
      Command client (b.assign (perform client depth) s v)
  | call {ε α : Type} {x : Run ε σ α} (hx : Calling client x) : Command client x

namespace World.Course

variable (hR : Course client R P)

include hR

theorem extractMethod (depth : Nat) (c : ClassId) (script : ObjectRef → Script σ Value) :
    (extractMethod (Metaobject.perform client depth) c script).Keeps R := by
  refine hR.bind (hR.recorder c) fun made => ?_
  refine hR.bind (.attempt (Calling.keeps hR (.script depth (script made.2)))) fun outcome => ?_
  refine hR.bind hR.refl fun first? => ?_
  split <;> exact hR.refl

theorem select (depth : Nat) (b : InstanceBuilder) (s : MemberSelector σ) :
    (b.select (Metaobject.perform client depth) s).Keeps R := by
  cases s with
  | name name => exact hR.ofExcept _ _
  | accessor m => exact hR.ofExcept _ _
  | called script =>
      exact hR.bind (.mapError (hR.extractMethod depth _ _) _) fun m => hR.ofExcept _ _

theorem assign (depth : Nat) (b : InstanceBuilder) (s : MemberSelector σ) (v : Value) :
    (b.assign (Metaobject.perform client depth) s v).Keeps R :=
  hR.bind (hR.select depth b s) fun _ => hR.bind hR.refl fun _ => hR.bind (hR.ofExcept _ _)
    fun _ => hR.refl

/-- Every command is made of the steps of deeds and of calls. -/
theorem command {x : Run ε σ α} (hx : Command client x) : x.Keeps R := by
  cases hx with
  | declare b => exact fun w => hR.declared w b
  | installSettings s => exact hR.install s
  | currentSettings => exact Settings.keeps_current hR.settings
  | newNative c hook => exact fun w => hR.native w c hook
  | newTarget target => exact fun w => hR.newTarget w target
  | swapTarget cell target => exact fun w => hR.swapped w cell target
  | newLazyProxy c initializer => exact hR.lazyProxy c initializer
  | extract depth c script => exact hR.extractMethod depth c script
  | assign depth b s v => exact hR.assign depth b s v
  | call hx => exact hx.keeps hR

end World.Course

end Metaobject
