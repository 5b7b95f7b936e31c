import Metaobject.InstanceBuilder
import Metaobject.Recorder
import Metaobject.Redirection

/-!
Deeds of client code: what it can have the library do beyond calls. It declares classes, puts
settings into effect, makes objects of every kind and swaps targets. What goes wrong is part of the
result.
-/
namespace Metaobject

/-- Declare a class. -/
def ClassBuilder.declare {ε σ : Type} (b : ClassBuilder) : Run ε σ ClassId :=
  modifyGet fun w => ((w.hierarchy.define b).2, { w with hierarchy := (w.hierarchy.define b).1 })

/-- Something that client code can have the library do. -/
inductive Deed where
  | declare (b : ClassBuilder)
  | currentSettings
  | install (s : Settings)
  | newNative (c : ClassId) (hook : Hook)
  | newProxy (b : ProxyBuilder) (hOpen : b.chain.isOpen = true)
  | newLazyProxy (c : ClassId) (initializer : Hook)
  | newInstance (c : ClassId) (values : List (String × Value))
  | newTarget (target : ObjectRef)
  | currentTarget (cell : Cell ObjectRef)
  | swapTarget (cell : Cell ObjectRef) (target : ObjectRef)
  | newRecorder (c : ClassId)
  | recorded (cell : Cell MethodRef)

namespace Deed

/-- What a deed gives. -/
def Result : Deed → Type
  | declare _ => ClassId
  | currentSettings => Settings
  | install _ => Except SettingsError Unit
  | newNative .. => ObjectRef
  | newProxy .. => Except ProxyError ObjectRef
  | newLazyProxy .. => Except ProxyError ObjectRef
  | newInstance .. => Except InstanceError ObjectRef
  | newTarget _ => Cell ObjectRef
  | currentTarget _ => Option ObjectRef
  | swapTarget .. => Option ObjectRef
  | newRecorder _ => Except ProxyError (Cell MethodRef × ObjectRef)
  | recorded _ => Option MethodRef

variable {ε σ : Type}

/-- Build an instance of an annotation type with some values. References to what there is not cannot
be come by, so there is no result for them. -/
def buildInstance (c : ClassId) (values : List (String × Value)) :
    Run ε σ (Except InstanceError ObjectRef) := do
  let w ← get
  match InstanceBuilder.filled w.hierarchy c values with
  | .error e => return .error e
  | .ok b => if b.isKnown w then Run.attempt b.build else throw .exhausted

/-- Do it. -/
def run : (d : Deed) → Run ε σ d.Result
  | declare b => b.declare
  | currentSettings => Settings.current
  | install s => Run.attempt s.install
  | newNative c hook => Run.newObject c (.native hook)
  | newProxy b _ => Run.attempt b.build
  | newLazyProxy c initializer => Run.attempt (LazyProxy.create c initializer)
  | newInstance c values => buildInstance c values
  | newTarget target => Forwarding.of target
  | currentTarget cell => Forwarding.target? cell
  | swapTarget cell target => Forwarding.swap cell target
  | newRecorder c => Run.attempt (Metaobject.recorder c)
  | recorded cell => Metaobject.recorded cell

end Deed

end Metaobject
