import Metaobject.Client

/-!
Calls on objects and values. All that a call may set off is asked for through one function that
serves requests: an object is asked to answer an invocation, or the body of a method is run. What
serves them is given later; here it is a parameter, so that the rules of a single call stand on
their own.

Equality, hash and text of values follow the value; only for an object they are calls.
-/
namespace Metaobject

/-- What a call may set off. -/
inductive Request where
  /-- The object answers the invocation. -/
  | ask (object : ObjectRef) (invocation : Invocation)
  /-- The body of a method runs. -/
  | body (hook : Hook) (receiver? : Option ObjectRef) (arguments : List Value)

/-- What serves the requests of calls. -/
abbrev Serve (σ : Type) := Request → Run ProxyError σ Value

variable {σ : Type} (serve : Serve σ)

namespace ObjectRef

variable (o : ObjectRef)

/-- Invoke a method on an object, if the method takes the object and the arguments. -/
def invoke (m : MethodRef) (arguments : List Value) : Run ProxyError σ Value := do
  let h ← Run.hierarchy
  let i ← Run.ofExcept .illegal (Invocation.of h m (some o) arguments)
  serve (.ask o i)

/-- Call a method by name. -/
def call (name : String) (arguments : List Value) : Run ProxyError σ Value := do
  match (← get).resolveMethod? o name arguments.length with
  | some m => o.invoke serve m arguments
  | none => Run.raise (.noSuchMethod o.cls name arguments.length)

/-- Ask an object whether it equals a value. -/
def equals (v : Value) : Run ProxyError σ Bool := do
  match ← o.invoke serve .equals [v] with
  | .boolean b => return b
  | other => Run.raise (.failed (.unexpectedResult .equals other))

/-- Ask an object for its hash. -/
def hashCode : Run ProxyError σ Int32 := do
  match ← o.invoke serve .hashCode [] with
  | .int n => return n
  | other => Run.raise (.failed (.unexpectedResult .hashCode other))

/-- Ask an object for its text. -/
def toText : Run ProxyError σ String := do
  match ← o.invoke serve .toText [] with
  | .string s => return s
  | other => Run.raise (.failed (.unexpectedResult .toText other))

end ObjectRef

namespace Invocation

/-- Carry an invocation out: run the body of its method, or else let its receiver answer it. -/
def carryOut (i : Invocation) : Run ProxyError σ Value := do
  match ((← Run.hierarchy).method i.method).body?, i.receiver? with
  | some hook, receiver? => serve (.body hook receiver? i.arguments)
  | none, some o => serve (.ask o i)
  | none, none => Run.raise (.failed (.noImplementation i.method))

end Invocation

namespace Value

mutual

/-- Whether two values are equal. Floating point numbers are compared by canonical pattern, arrays
by element type and items, and an object decides for itself. -/
def equals (v w : Value) : Run ProxyError σ Bool :=
  match v, w with
  | .null, .null => pure true
  | .boolean a, .boolean b => pure (a == b)
  | .byte a, .byte b => pure (a == b)
  | .char a, .char b => pure (a == b)
  | .short a, .short b => pure (a == b)
  | .int a, .int b => pure (a == b)
  | .long a, .long b => pure (a == b)
  | .float a, .float b => pure (a.canonical == b.canonical)
  | .double a, .double b => pure (a.canonical == b.canonical)
  | .string a, .string b => pure (a == b)
  | .token a, .token b => pure (a == b)
  | .array t xs, .array u ys =>
    if t = u ∧ xs.length = ys.length then equalItems xs ys else pure false
  | .object o, w => o.equals serve w
  | _, _ => pure false

/-- Whether the items of two lists are equal in turn, up to the first that is not. -/
def equalItems (vs ws : List Value) : Run ProxyError σ Bool :=
  match vs, ws with
  | v :: vs, w :: ws => do if ← equals v w then equalItems vs ws else return false
  | _, _ => pure true

end

/-- Equality where a failure counts as a difference. -/
def same (v w : Value) : Run ProxyError σ Bool := do
  match (← Run.attempt (v.equals serve w) : Except ProxyError Bool) with
  | .ok b => return b
  | .error _ => return false

/-- Equality of lists item by item, where a failure counts as a difference. -/
def sameItems (vs ws : List Value) : Run ProxyError σ Bool :=
  match vs, ws with
  | [], [] => pure true
  | v :: vs, w :: ws => do if ← v.same serve w then sameItems vs ws else return false
  | _, _ => pure false

mutual

/-- The hash of a value. -/
def hashCode (v : Value) : Run ProxyError σ Int32 :=
  match v with
  | .null => pure 0
  | .boolean b => pure (if b then 1231 else 1237)
  | .byte n => pure (Int32.ofInt n.toInt)
  | .char c => pure (Int32.ofNat c.toNat)
  | .short n => pure (Int32.ofInt n.toInt)
  | .int n => pure n
  | .long n => pure (foldLong n)
  | .float x => pure x.hash32
  | .double x => pure x.hash64
  | .string s => pure (Text.textHash s)
  | .token t => do return Text.textHash ((← Run.hierarchy).tyText t)
  | .array _ items => hashItems 1 items
  | .object o => o.hashCode serve

/-- The hash of a list of values, from a start value on. -/
def hashItems (start : Int32) (vs : List Value) : Run ProxyError σ Int32 :=
  match vs with
  | [] => pure start
  | v :: vs => do hashItems (start * 31 + (← hashCode v)) vs

end

mutual

/-- The text of a value. An object that has none to give is named by its class and address. -/
def text (v : Value) : Run ProxyError σ String :=
  match v with
  | .null => pure "null"
  | .boolean b => pure (if b then "true" else "false")
  | .byte n => pure (toString n.toInt)
  | .char c => pure (String.singleton c)
  | .short n => pure (toString n.toInt)
  | .int n => pure (toString n.toInt)
  | .long n => pure (toString n.toInt)
  | .float x => pure x.text
  | .double x => pure x.text
  | .string s => pure s
  | .token t => do return (← Run.hierarchy).tyText t
  | .array _ items => do return "[" ++ ", ".intercalate (← texts items) ++ "]"
  | .object o => do
    match (← Run.attempt (o.toText serve) : Except ProxyError String) with
    | .ok s => return s
    | .error _ => return (← Run.hierarchy).objectText o

/-- The texts of a list of values. -/
def texts (vs : List Value) : Run ProxyError σ (List String) :=
  match vs with
  | [] => pure []
  | v :: vs => do return (← text v) :: (← texts vs)

end

end Value

namespace Invocation

/-- Two receivers are one object, or both are missing. -/
def sameReceiver : Option ObjectRef → Option ObjectRef → Bool
  | some o, some p => o.same p
  | none, none => true
  | _, _ => false

/-- Two invocations are of one method on one receiver, with equal arguments. -/
def same (i j : Invocation) : Run ProxyError σ Bool :=
  if i.method = j.method ∧ sameReceiver i.receiver? j.receiver? = true ∧
      i.arguments.length = j.arguments.length then
    Value.sameItems serve i.arguments j.arguments
  else pure false

end Invocation

/-- The target of a lazy proxy, if it has been made. -/
def LazyProxy.extract (o : ObjectRef) : Run ProxyError σ (Option ObjectRef) := do
  if (← Run.hierarchy).isSubtype o.cls .lazyProxy then
    return (← o.invoke serve .extractInstance []).object?
  else Run.raise (.illegal (.notLazy o.cls))

/-- Run client code, with its calls served. -/
def Script.run {α : Type} : Script σ α → Run ProxyError σ α
  | .done a => pure a
  | .fail e => Run.raise e
  | .read next => do run (next (← get).client)
  | .write state next => do
    modify fun w => { w with client := state }
    run next
  | .classes next => do run (next (← Run.hierarchy))
  | .call o name arguments next => do run (next (← Run.attempt (o.call serve name arguments)))
  | .invokeMethod o m arguments next => do run (next (← Run.attempt (o.invoke serve m arguments)))
  | .proceed i next => do run (next (← Run.attempt (i.carryOut serve)))
  | .text v next => do run (next (← v.text serve))
  | .enact d next => do run (next (← d.run))

end Metaobject
