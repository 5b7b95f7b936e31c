import Metaobject.Handling

/-!
Finding out which method some code calls, by letting it run on a proxy that keeps the first method
invoked on it.
-/
namespace Metaobject

variable {σ : Type} (serve : Serve σ)

/-- The first method that a script invokes on a proxy of a class. How the script ends counts only if
it invokes none. -/
def extractMethod (c : ClassId) (script : ObjectRef → Script σ Value) :
    Run ProxyError σ MethodRef := do
  let (cell, recorder) ← recorder c
  let outcome ← (Run.attempt ((script recorder).run serve) : Run ProxyError σ _)
  match ← recorded cell, outcome with
  | some m, _ => return m
  | none, .error e => Run.raise e
  | none, .ok _ => Run.raise (.noMethodRecorded c)

end Metaobject
