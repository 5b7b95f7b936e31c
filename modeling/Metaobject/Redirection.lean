import Metaobject.Proxy

/-!
Objects that pass their calls on: to a target that can be swapped, and to a target that is made when
it is first needed.
-/
namespace Metaobject

variable {σ ε : Type}

namespace Forwarding

/-- A handler that forwards to a target, by the cell that holds the target. -/
def of (target : ObjectRef) : Run ε σ (Cell ObjectRef) :=
  modifyGet fun w =>
    let (cell, targets) := w.targets.fresh
    (cell, { w with targets := targets.fill cell target })

/-- The present target. -/
def target? (cell : Cell ObjectRef) : Run ε σ (Option ObjectRef) :=
  return (← get).targets.read cell

/-- Put a target in place of the present one, which is returned. -/
def swap (cell : Cell ObjectRef) (target : ObjectRef) : Run ε σ (Option ObjectRef) :=
  modifyGet fun w => (w.targets.read cell, { w with targets := w.targets.fill cell target })

end Forwarding

namespace LazyProxy

/-- A proxy of an interface whose target an initializer makes. It also implements the interface by
which the target can be asked for without being made. -/
def create (c : ClassId) (initializer : Hook) : Run ProxyError σ ObjectRef := do
  let cell ← modifyGet fun w =>
    let (cell, lazies) := w.lazies.fresh
    (cell, { w with lazies })
  (({ contracts := [c, .lazyProxy] } : ProxyBuilder).withHandler (.lazy initializer cell)).build

end LazyProxy

end Metaobject
