import Metaobject.Contract
import Metaobject.Invocation
import Metaobject.Store
import Metaobject.Table

/-!
Handlers of invocations, as data. A handler answers an invocation with a value or declines it. What
a handler remembers from one invocation to the next is in cells, so a handler that stands in several
chains is one handler wherever it stands.
-/
namespace Metaobject

/-- What a handler makes of an invocation: a value, or nothing if it declines. -/
abbrev Answer := Option Value

/-- A built instance of an annotation type: the values assigned, and the cells of its hash and text
where these are remembered. -/
structure Instance where
  contract : Contract
  assigned : Table String Value
  hashCell? : Option (Cell Int32)
  textCell? : Option (Cell String)

/-- Handlers of invocations. -/
inductive Handler where
  /-- Declines. -/
  | decline
  /-- Fails with the invocation. -/
  | unhandled
  /-- Answers for an object that is equal to itself alone. -/
  | identity
  /-- Notes the invocation under a label, and declines. -/
  | trace (label : String)
  /-- Runs code of the client. -/
  | code (hook : Hook)
  /-- Asks handlers in turn. The fallback of a chain that stands in for a handler is not asked. -/
  | chain (handlers : List Handler) (fallback : Handler)
  /-- Invokes the same method on the object in a cell. -/
  | forward (target : Cell ObjectRef)
  /-- Asks the handler of the invoked method, or the fallback. -/
  | dispatch (bindings : List (MethodRef × Handler)) (fallback : Handler)
  /-- Forwards to an object that the first invocation makes. -/
  | lazy (initializer : Hook) (target : Cell ObjectRef)
  /-- Answers for an instance of an annotation type. -/
  | values (inst : Instance)
  /-- Keeps the first method invoked, and answers with the zero of its result type. -/
  | record (first : Cell MethodRef)

namespace Handler

mutual

/-- A handler that client code may put together: none of its parts belongs to the library alone, as
lazy handlers, instances and recorders do. -/
def isOpen (x : Handler) : Bool :=
  match x with
  | .chain handlers fallback => areOpen handlers && isOpen fallback
  | .dispatch bindings fallback => areOpenBound bindings && isOpen fallback
  | .lazy .. | .values _ | .record _ => false
  | _ => true

/-- All of some handlers are. -/
def areOpen (xs : List Handler) : Bool :=
  match xs with
  | [] => true
  | x :: xs => isOpen x && areOpen xs

/-- All of the handlers of some bindings are. -/
def areOpenBound (bs : List (MethodRef × Handler)) : Bool :=
  match bs with
  | [] => true
  | b :: bs => isOpenBound b && areOpenBound bs

/-- The handler of a binding is. -/
def isOpenBound (b : MethodRef × Handler) : Bool :=
  match b with
  | (_, x) => isOpen x

end

end Handler

/-- Handlers that are asked in turn, and one that is asked last. -/
structure Chain where
  handlers : List Handler := []
  fallback : Handler := .unhandled

namespace Chain

/-- The chain of one handler. -/
def single (x : Handler) : Chain where
  handlers := [x]

/-- The chain with one more handler at its end. -/
def push (k : Chain) (x : Handler) : Chain :=
  { k with handlers := k.handlers ++ [x] }

/-- The chain with another fallback. -/
def withFallback (k : Chain) (x : Handler) : Chain :=
  { k with fallback := x }

/-- The handlers of one chain and then those of another, with the fallback of the latter. -/
def append (k l : Chain) : Chain where
  handlers := k.handlers ++ l.handlers
  fallback := l.fallback

/-- The number of handlers. -/
def length (k : Chain) : Nat :=
  k.handlers.length

/-- A chain that client code may put together. -/
def isOpen (k : Chain) : Bool :=
  Handler.areOpen k.handlers && k.fallback.isOpen

/-- A chain that stands in for a handler. -/
def toHandler (k : Chain) : Handler :=
  .chain k.handlers k.fallback

theorem append_assoc (k l m : Chain) : (k.append l).append m = k.append (l.append m) := by
  simp [append]

end Chain

end Metaobject
