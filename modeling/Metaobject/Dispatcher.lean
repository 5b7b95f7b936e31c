import Metaobject.Proxy
import Metaobject.Reference.Descriptor

/-!
Handlers chosen by the invoked method. Methods are told apart by identity; the last handler bound to
a method is the one that answers, and methods without one go to the fallback.
-/
namespace Metaobject

/-- The handlers bound to methods so far. -/
structure Dispatcher where
  bindings : List (MethodRef × Handler) := []
  fallback : Handler := .decline

namespace Dispatcher

variable (d : Dispatcher)

/-- Bind a handler to a method. -/
def bind (m : MethodRef) (x : Handler) : Dispatcher :=
  { d with bindings := Table.set d.bindings m x }

/-- Bind a handler to the method that a reference refers to. -/
def bindReference {φ : Type} (h : Hierarchy) (r : Registry) (f : Reference φ) (x : Handler) :
    Except ReferenceError Dispatcher := do
  let descriptor ← f.introspect h r
  let m ← descriptor.method
  return d.bind m x

/-- Another fallback. -/
def withFallback (x : Handler) : Dispatcher :=
  { d with fallback := x }

/-- The number of methods bound. -/
def length : Nat :=
  d.bindings.length

/-- The handler that has been put together. -/
def toHandler : Handler :=
  .dispatch d.bindings d.fallback

/-- A proxy of one interface with this handler. -/
def instantiate {σ : Type} (c : ClassId) : Run ProxyError σ ObjectRef :=
  (ProxyBuilder.single c d.toHandler).build

end Dispatcher

end Metaobject
