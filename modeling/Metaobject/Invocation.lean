import Metaobject.Hierarchy.Conversion

/-!
Invocations: a method, the object it is invoked on, and its arguments. Making one checks that the
method takes the receiver, that the number of arguments is right, and that each argument may stand
in its parameter, in that order.
-/
namespace Metaobject

/-- One call of a method. -/
structure Invocation where
  method : MethodRef
  receiver? : Option ObjectRef
  arguments : List Value

/-- Why a method cannot be invoked so. -/
inductive IllegalInvocation where
  | wrongReceiver (receiver : ClassId) (method : MethodRef)
  | noReceiver (method : MethodRef)
  | receiverNotTaken (method : MethodRef)
  | argumentCount (method : MethodRef) (given : Nat)
  | argumentType (method : MethodRef) (parameter : Parameter) (argument : Value)
  | notLazy (cls : ClassId)

/-- The message of a cause. -/
def IllegalInvocation.message (h : Hierarchy) : IllegalInvocation → String
  | wrongReceiver c m =>
    "receiver of class " ++ h.className c ++ " cannot be used for " ++ h.methodText m
  | noReceiver m => h.methodText m ++ " requires a receiver"
  | receiverNotTaken m => h.methodText m ++ " does not take a receiver"
  | argumentCount m given =>
    h.methodText m ++ " expects " ++ toString (h.arity m) ++ " argument(s), got " ++ toString given
  | argumentType m p v =>
    "argument '" ++ p.name ++ "' of " ++ h.methodText m ++ " expects " ++ h.tyText p.type ++
      ", got " ++ h.typeName v
  | notLazy c => h.className c ++ " is not a lazy proxy"

/-- The name of an object that has none: its class and its address. -/
def Hierarchy.objectText (h : Hierarchy) (o : ObjectRef) : String :=
  h.className o.cls ++ "@" ++ String.ofList (Nat.toDigits 16 o.address)

namespace Invocation

variable (h : Hierarchy)

/-- An instance method is invoked on an object of its class, any other method on none. -/
def checkReceiver (m : MethodRef) (receiver? : Option ObjectRef) : Except IllegalInvocation Unit :=
  match (h.method m).kind, receiver? with
  | .ofInstance, some o =>
    if h.isSubtype o.cls m.owner then .ok () else .error (.wrongReceiver o.cls m)
  | .ofInstance, none => .error (.noReceiver m)
  | _, some _ => .error (.receiverNotTaken m)
  | _, none => .ok ()

/-- Each argument may stand in its parameter. -/
def checkTypes (m : MethodRef) : List Parameter → List Value → Except IllegalInvocation Unit
  | p :: ps, v :: vs =>
    if h.isInstance v p.type then checkTypes m ps vs else .error (.argumentType m p v)
  | _, _ => .ok ()

/-- There are as many arguments as parameters, and each may stand in its own. -/
def checkArguments (m : MethodRef) (arguments : List Value) : Except IllegalInvocation Unit :=
  if arguments.length = h.arity m then checkTypes h m (h.method m).parameters arguments
  else .error (.argumentCount m arguments.length)

/-- The invocation of a method on a receiver with arguments. -/
def of (m : MethodRef) (receiver? : Option ObjectRef) (arguments : List Value) :
    Except IllegalInvocation Invocation := do
  checkReceiver h m receiver?
  checkArguments h m arguments
  return ⟨m, receiver?, arguments⟩

variable (i : Invocation)

/-- The same invocation on another object. -/
def withReceiver (o : ObjectRef) : Except IllegalInvocation Invocation := do
  checkReceiver h i.method (some o)
  return { i with receiver? := some o }

/-- The same invocation with other arguments. -/
def withArguments (arguments : List Value) : Except IllegalInvocation Invocation :=
  of h i.method i.receiver? arguments

/-- The same invocation of another method. -/
def withMethod (m : MethodRef) : Except IllegalInvocation Invocation :=
  of h m i.receiver? i.arguments

/-- How an invocation is written. -/
def text : String :=
  h.methodText i.method ++ " with " ++ toString i.arguments.length ++ " argument(s)" ++
    match i.receiver? with
    | some o => " on " ++ h.objectText o
    | none => ""

end Invocation

/-- Why client code fails without a cause of the library's own. -/
inductive Failure where
  | text (message : String)
  | unexpectedResult (method : MethodRef) (result : Value)
  | noImplementation (method : MethodRef)

/-- The message of a failure. -/
def Failure.message (h : Hierarchy) : Failure → String
  | text message => message
  | unexpectedResult m v =>
    (h.method m).name ++ " returned " ++ h.typeName v ++ " instead of the declared type"
  | noImplementation m => h.methodText m ++ " has no implementation"

/-- Why a call, or the making of a proxy, fails. -/
inductive ProxyError where
  | emptyContractSet
  | notAnInterface (cls : ClassId)
  | unhandled (invocation : Invocation)
  | illegal (why : IllegalInvocation)
  | noSuchMethod (cls : ClassId) (name : String) (arity : Nat)
  | noMethodRecorded (cls : ClassId)
  | failed (failure : Failure)

/-- The message of an error. -/
def ProxyError.message (h : Hierarchy) : ProxyError → String
  | emptyContractSet => "Cannot synthesize a proxy for an empty contract set"
  | notAnInterface c => "Type " ++ h.className c ++ " is not an interface"
  | unhandled i => "Unhandled invocation: " ++ i.text h
  | illegal why => "Illegal invocation: " ++ why.message h
  | noSuchMethod c name arity =>
    "No method " ++ name ++ " with " ++ toString arity ++ " parameter(s) on " ++ h.className c
  | noMethodRecorded c => "Extractor for " ++ h.className c ++ " did not invoke any method"
  | failed failure => failure.message h

end Metaobject
