import Metaobject.Deed

/-!
Client code. The bodies of methods, native objects, handlers and initializers belong to the client.
Each is a script: it may read and change the client's own state, make calls, have the library
declare classes and make objects, and go on with what these give, errors included. It cannot reach
the world in any other way.
-/
namespace Metaobject

/-- Client code that ends with a value of a type, or fails. -/
inductive Script (σ α : Type) where
  | done (a : α)
  | fail (error : ProxyError)
  | read (next : σ → Script σ α)
  | write (state : σ) (next : Script σ α)
  /-- Look at the classes declared so far. -/
  | classes (next : Hierarchy → Script σ α)
  /-- Call a method by name. -/
  | call (on : ObjectRef) (name : String) (arguments : List Value)
      (next : Except ProxyError Value → Script σ α)
  /-- Invoke a method. -/
  | invokeMethod (on : ObjectRef) (method : MethodRef) (arguments : List Value)
      (next : Except ProxyError Value → Script σ α)
  /-- Carry an invocation out. -/
  | proceed (invocation : Invocation) (next : Except ProxyError Value → Script σ α)
  /-- Text of a value. -/
  | text (value : Value) (next : String → Script σ α)
  /-- Have the library do something. -/
  | enact (deed : Deed) (next : deed.Result → Script σ α)

namespace Script

variable {σ α β : Type}

/-- Go on with the result of a script. -/
def bind : Script σ α → (α → Script σ β) → Script σ β
  | done a, f => f a
  | fail e, _ => fail e
  | read k, f => read fun s => bind (k s) f
  | write s k, f => write s (bind k f)
  | classes k, f => classes fun h => bind (k h) f
  | call o name arguments k, f => call o name arguments fun r => bind (k r) f
  | invokeMethod o m arguments k, f => invokeMethod o m arguments fun r => bind (k r) f
  | proceed i k, f => proceed i fun r => bind (k r) f
  | text v k, f => text v fun s => bind (k s) f
  | enact d k, f => enact d fun r => bind (k r) f

instance : Monad (Script σ) where
  pure := done
  bind := bind

/-- End with what a call gave. -/
def ofResult : Except ProxyError α → Script σ α
  | .ok a => done a
  | .error e => fail e

/-- Fail with a message of the client's own. -/
def failText (message : String) : Script σ α :=
  fail (.failed (.text message))

/-- Change the state of the client. -/
def update (f : σ → σ) : Script σ Unit :=
  read fun s => write (f s) (done ())

end Script

/-- The code that hooks stand for. -/
structure Client (σ : Type) where
  /-- The body of a method. -/
  body : Hook → Option ObjectRef → List Value → Script σ Value
  /-- What a native object answers. -/
  native : Hook → Invocation → Script σ Value
  /-- What a handler makes of an invocation. -/
  handler : Hook → Invocation → Script σ Answer
  /-- The object that a lazy proxy stands for. -/
  initializer : Hook → Script σ ObjectRef

end Metaobject
