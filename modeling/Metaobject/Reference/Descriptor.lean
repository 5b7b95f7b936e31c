import Metaobject.Hierarchy.Conversion
import Metaobject.Reference.Form

/-!
What a reference refers to. Decoding a form finds its class in a registry, reads its signature
there, takes the first method of the class with the name and the signature, and checks that it can
be called in the way the form says.
-/
namespace Metaobject

/-- Why a form refers to no method. -/
inductive Unresolvable where
  | noForm
  | unknownClass (name : String)
  | badSignature (text : String) (error : SignatureError)
  | noSuchMethod (cls : ClassId) (method : String) (signature : Signature)
  | wrongKind (method : MethodRef) (wanted : MethodKind)
  | staticCaptures (method : MethodRef) (count : Nat)
  | wrongReceiver (receiver : Value) (cls : ClassId)
  | manyCaptures (method : MethodRef) (count : Nat)

/-- The message of a cause. -/
def Unresolvable.message (h : Hierarchy) : Unresolvable → String
  | noForm => "callable carries no member reference"
  | unknownClass name => "unknown class " ++ name
  | badSignature text error => "bad signature '" ++ text ++ "': " ++ error.message
  | noSuchMethod c method signature =>
    h.className c ++ " declares no " ++ method ++ signature.text h
  | wrongKind m wanted => h.methodText m ++ " is not a " ++ wanted.label ++ " method"
  | staticCaptures m count =>
    "static reference to " ++ h.methodText m ++ " captures " ++ toString count ++ " value(s)"
  | wrongReceiver receiver c =>
    "captured receiver of type " ++ h.typeName receiver ++ " does not implement " ++ h.className c
  | manyCaptures m count =>
    "member reference to " ++ h.methodText m ++ " captures " ++ toString count ++ " values"

/-- Why a question about a reference has no answer. -/
inductive ReferenceError where
  | unresolvable (why : Unresolvable)
  | notAMethod
  | notAConstructor
  | parameterOutOfRange (index count : Nat)

/-- The message of an error. -/
def ReferenceError.message (h : Hierarchy) : ReferenceError → String
  | unresolvable why => "Unresolvable reference: " ++ why.message h
  | notAMethod => "Interface implementation is not a method reference"
  | notAConstructor => "Interface implementation is not a constructor reference"
  | parameterOutOfRange index count =>
    "Executable has no parameter with index " ++ toString index ++ " (count " ++ toString count ++
      ")"

/-- How a reference is to be called, with the values it brings along. -/
inductive CallableKind where
  | static
  | ofInstance
  | bound (receiver : Value)
  | constructor
  | lambda (captures : List Value)

/-- The kind without the values. -/
def CallableKind.shape : CallableKind → Nat
  | static => 0
  | ofInstance => 1
  | bound _ => 2
  | constructor => 3
  | lambda _ => 4

/-- What a reference refers to. -/
structure Descriptor where
  kind : CallableKind
  member : MethodRef
  capturing : Ty

namespace Descriptor

variable (h : Hierarchy) (d : Descriptor)

/-- The type of the result of a call. -/
def resultType : Ty :=
  h.resultType d.member

/-- The types of what a call has to bring: the receiver if the reference has none, and the
parameters that no captured value fills. -/
def parameterTypes : List Ty :=
  match d.kind with
  | .ofInstance => .ofClass d.member.owner :: h.parameterTypes d.member
  | .lambda captures => (h.parameterTypes d.member).drop captures.length
  | _ => h.parameterTypes d.member

/-- How many values a call has to bring. -/
def parameterCount : Nat :=
  match d.kind with
  | .ofInstance => h.arity d.member + 1
  | .lambda captures => h.arity d.member - captures.length
  | _ => h.arity d.member

/-- The type of one of the values that a call has to bring. -/
def parameterType (index : Nat) : Except ReferenceError Ty :=
  match (d.parameterTypes h)[index]? with
  | some t => .ok t
  | none => .error (.parameterOutOfRange index (d.parameterCount h))

/-- The method referred to, if it is called as one. -/
def method : Except ReferenceError MethodRef :=
  match d.kind with
  | .static | .ofInstance | .bound _ => .ok d.member
  | .constructor | .lambda _ => .error .notAMethod

/-- The name of the method referred to. -/
def methodName : Except ReferenceError String :=
  d.method.map fun m => (h.method m).name

/-- The constructor referred to. -/
def constructor : Except ReferenceError MethodRef :=
  match d.kind with
  | .constructor => .ok d.member
  | _ => .error .notAConstructor

/-- The receiver that the reference brings along. -/
def boundReceiver? : Option Value :=
  match d.kind with
  | .bound receiver => some receiver
  | _ => none

/-- The values that the reference brings along. -/
def captures : List Value :=
  match d.kind with
  | .bound receiver => [receiver]
  | .lambda captures => captures
  | _ => []

/-- Two descriptors agree on everything but the values brought along. -/
def same (e : Descriptor) : Bool :=
  d.kind.shape == e.kind.shape && d.member == e.member && d.capturing == e.capturing

end Descriptor

namespace ReferenceForm

variable (h : Hierarchy) (r : Registry)

/-- A class by name. -/
def classNamed (name : String) : Except Unresolvable ClassId :=
  match r.lookup name with
  | some c => .ok c
  | none => .error (.unknownClass name)

/-- The method is of the kind that the form asks for. -/
def requireKind (m : MethodRef) (wanted : MethodKind) : Except Unresolvable Unit :=
  if (h.method m).kind = wanted then .ok () else .error (.wrongKind m wanted)

/-- The class and the method that a form names. -/
def target (f : ReferenceForm) : Except Unresolvable (ClassId × MethodRef) := do
  let c ← classNamed r f.cls
  let signature ← (Signature.parse r f.signature).mapError (.badSignature f.signature)
  match (h.declaredNamed c f.method).find? (signature.isOf h) with
  | some m => .ok (c, m)
  | none => .error (.noSuchMethod c f.method signature)

/-- How the method of a form is to be called, and the type that the reference was made in. -/
def callable (f : ReferenceForm) (c : ClassId) (m : MethodRef) :
    Except Unresolvable (CallableKind × Ty) :=
  match f.kind with
  | .static => do
    requireKind h m .static
    if f.captures.isEmpty then .ok (.static, .ofClass c)
    else .error (.staticCaptures m f.captures.length)
  | .virtual | .interface => do
    requireKind h m .ofInstance
    match f.captures with
    | [] => .ok (.ofInstance, .ofClass c)
    | [receiver] =>
      if receiver.isNull || !h.isInstance receiver (.ofClass c) then
        .error (.wrongReceiver receiver c)
      else .ok (.bound receiver, receiver.runtimeType)
    | captures => .error (.manyCaptures m captures.length)
  | .newInstance => do
    requireKind h m .constructor
    .ok (.constructor, .ofClass c)
  | .special => do
    let capturing ← classNamed r f.capturingClass
    .ok (.lambda f.captures, .ofClass capturing)

/-- What a form refers to. -/
def decode (f : ReferenceForm) : Except ReferenceError Descriptor :=
  (do
    let (c, m) ← f.target h r
    let (kind, capturing) ← f.callable h r c m
    return ⟨kind, m, capturing⟩ : Except Unresolvable Descriptor).mapError .unresolvable

end ReferenceForm

/-- What a reference refers to. -/
def Reference.introspect {φ : Type} (h : Hierarchy) (r : Registry) (f : Reference φ) :
    Except ReferenceError Descriptor :=
  match f.form? with
  | some form => form.decode h r
  | none => .error (.unresolvable .noForm)

end Metaobject
