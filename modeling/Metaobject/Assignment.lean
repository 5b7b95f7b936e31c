import Metaobject.Extraction
import Metaobject.InstanceBuilder

/-!
Assigning values to members of annotation types. A member is named by its name, by the method that
reads it, or by code that calls it.
-/
namespace Metaobject

/-- How a member is named: by name, by the method that reads it, or by code that calls it. -/
inductive MemberSelector (σ : Type) where
  | name (name : String)
  | accessor (m : MethodRef)
  | called (script : ObjectRef → Script σ Value)

namespace InstanceBuilder

variable {σ : Type} (serve : Serve σ) (b : InstanceBuilder)

/-- The member that a selector names. -/
def select (s : MemberSelector σ) : Run InstanceError σ Member :=
  match s with
  | .name name => Run.ofExcept id (b.selectName name)
  | .accessor m => Run.ofExcept id (b.selectAccessor m)
  | .called script => do
    let m ← Run.mapError .proxy (extractMethod serve b.contract.cls script)
    Run.ofExcept id (b.selectAccessor m)

/-- Assign a value to the member that a selector names. -/
def assign (s : MemberSelector σ) (v : Value) : Run InstanceError σ InstanceBuilder := do
  let m ← b.select serve s
  let w ← Run.ofExcept id (fit (← Run.hierarchy) m v)
  return { b with assigned := Table.set b.assigned m.name w }

end InstanceBuilder

end Metaobject
