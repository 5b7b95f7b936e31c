import Metaobject.Proxy

/-!
Proxies that record: each keeps the first method that is invoked on it.
-/
namespace Metaobject

variable {ε σ : Type}

/-- A proxy of a class that keeps the first method invoked on it, with the cell it is kept in. -/
def recorder (c : ClassId) : Run ProxyError σ (Cell MethodRef × ObjectRef) := do
  let cell ← modifyGet fun w =>
    let (cell, firstMethods) := w.firstMethods.fresh
    (cell, { w with firstMethods })
  return (cell, ← (ProxyBuilder.single c (.record cell)).build)

/-- The method that a recorder has kept, if there is one. -/
def recorded (cell : Cell MethodRef) : Run ε σ (Option MethodRef) :=
  return (← get).firstMethods.read cell

end Metaobject
