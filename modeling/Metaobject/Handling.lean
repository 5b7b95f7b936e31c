import Metaobject.Instance

/-!
How handlers and chains answer, and how requests are served. A chain asks its handlers in turn until
one answers or fails; the fallback is asked when all have declined, and when it declines too the
invocation is unhandled.

Serving a request may lead to further requests, without end if the client so arranges it. `perform`
bounds how deep they may be nested; a run that goes deeper ends without a result.
-/
namespace Metaobject

variable {σ : Type} (client : Client σ) (serve : Serve σ)

/-- Carry an invocation out on another object. -/
def Invocation.redirect (i : Invocation) (target : ObjectRef) : Run ProxyError σ Value := do
  let h ← Run.hierarchy
  let j ← Run.ofExcept .illegal (i.withReceiver h target)
  j.carryOut serve

/-- What identity makes of an invocation: the three methods of the root, by the object alone. -/
def Invocation.answerByIdentity (h : Hierarchy) (i : Invocation) : Answer :=
  match i.receiver? with
  | none => none
  | some o =>
    if i.method = .equals then
      some (.boolean ((i.arguments.head?.bind Value.object?).any o.same))
    else if i.method = .hashCode then some (.int o.identityHash)
    else if i.method = .toText then some (.string (h.objectText o))
    else none

/-- The object that a lazy proxy stands for, made now if it has not been. -/
def lazyTarget (initializer : Hook) (cell : Cell ObjectRef) : Run ProxyError σ ObjectRef :=
  Shelf.lazies.once cell ((client.initializer initializer).run serve)

/-- Keep a method in a cell that is still empty. -/
def recordFirst (cell : Cell MethodRef) (m : MethodRef) : Run ProxyError σ Unit :=
  modify fun w =>
    match w.firstMethods.read cell with
    | some _ => w
    | none => { w with firstMethods := w.firstMethods.fill cell m }

namespace Handler

mutual

/-- What a handler makes of an invocation. -/
def handle (x : Handler) (i : Invocation) : Run ProxyError σ Answer :=
  match x with
  | .decline => pure none
  | .unhandled => Run.raise (.unhandled i)
  | .identity => do return i.answerByIdentity (← Run.hierarchy)
  | .trace _ => pure none
  | .code hook => (client.handler hook i).run serve
  | .chain handlers _ => firstAnswer handlers i
  | .forward cell => do
    match (← get).targets.read cell with
    | some target => return some (← i.redirect serve target)
    | none => return none
  | .dispatch bindings fallback => handleBound bindings (handle fallback i) i
  | .lazy initializer cell => do
    if i.method = .extractInstance then
      return some (((← get).lazies.read cell).elim .null .object)
    else
      let target ← lazyTarget client serve initializer cell
      return some (← i.redirect serve target)
  | .values inst => inst.answer serve i
  | .record cell => do
    recordFirst cell i.method
    return some ((← Run.hierarchy).resultType i.method).zero

/-- What the first of some handlers makes of an invocation that does not decline it. -/
def firstAnswer (xs : List Handler) (i : Invocation) : Run ProxyError σ Answer :=
  match xs with
  | [] => pure none
  | x :: rest => do
    match ← handle x i with
    | some v => return some v
    | none => firstAnswer rest i

/-- What the handler bound to the method of an invocation makes of it, or else the given answer. -/
def handleBound (bindings : List (MethodRef × Handler)) (otherwise : Run ProxyError σ Answer)
    (i : Invocation) : Run ProxyError σ Answer :=
  match bindings with
  | [] => otherwise
  | b :: rest => if b.1 = i.method then handleEntry b i else handleBound rest otherwise i

/-- What the handler of a binding makes of an invocation. -/
def handleEntry (b : MethodRef × Handler) (i : Invocation) : Run ProxyError σ Answer :=
  match b with
  | (_, x) => handle x i

end

end Handler

/-- The value that a chain resolves an invocation to. -/
def Chain.resolve (k : Chain) (i : Invocation) : Run ProxyError σ Value := do
  match ← Handler.firstAnswer client serve k.handlers i with
  | some v => return v
  | none =>
    match ← k.fallback.handle client serve i with
    | some v => return v
    | none => Run.raise (.unhandled i)

/-- What an object answers to an invocation. -/
def ObjectRef.answer (o : ObjectRef) (i : Invocation) : Run ProxyError σ Value := do
  match (← get).object? o with
  | some (.native hook) => (client.native hook i).run serve
  | some (.proxy _ chain) => chain.resolve client serve i
  | none => Run.raise (.unhandled i)

/-- Serve a request, with the requests that it leads to served by a given function. -/
def Request.serveBy (r : Request) : Run ProxyError σ Value :=
  match r with
  | .ask o i => o.answer client serve i
  | .body hook receiver? arguments => (client.body hook receiver? arguments).run serve

/-- Serve a request, with requests nested no deeper than a bound. -/
def perform : Nat → Serve σ
  | 0, _ => throw .exhausted
  | depth + 1, r => r.serveBy client (perform depth)

end Metaobject
