import Metaobject.Client

/-!
Stand-ins for client code: behaviours that are described instead of programmed. A behaviour says
what to answer; it may count its own runs, take its answers in turn, call objects by the names they
have been given, or decline. Method bodies, native objects, handlers and initializers can all be
stubbed in this way, and the stubs of a client are numbered by its hooks.
-/
namespace Metaobject.Stub

/-- A behaviour. Those that remember something do so in a counter of their own. -/
inductive Action where
  | const (v : Value)
  | argument (index : Nat)
  | fail (message : String)
  | receiver
  | methodName
  | argumentCount
  | sum
  | concat
  | count (counter : Nat)
  /-- The behaviours in turn, the last one for good. -/
  | inTurn (counter : Nat) (actions : List Action)
  /-- Call a method, of the receiver unless an object is named, with the same arguments unless
  others are given. -/
  | call (name : String) (on? : Option String) (arguments? : Option (List Value))
  | decline
  | unhandled
  | proceed

/-- What stands in for client code. -/
inductive Part where
  /-- The body of a method of a name. -/
  | body (name : String) (action : Action)
  /-- A native object, by the names of the methods that it answers. -/
  | native (answers : Table String Action)
  /-- A handler, perhaps of one method name, and perhaps with a tag under which it logs. -/
  | handler (action : Action) (on? : Option String) (tag? : Option String)
  /-- An initializer. -/
  | initializer (action : Action)

/-- The state of a stubbed client. -/
structure Stage where
  names : Table String ObjectRef := []
  log : List String := []
  counters : Table Nat Nat := []
  parts : Array Part := #[]

/-- What a behaviour sees when it runs. -/
structure Frame where
  method : String
  receiver? : Option ObjectRef := none
  arguments : List Value := []
  invocation? : Option Invocation := none

/-- The frame of an invocation. -/
def Frame.ofInvocation (h : Hierarchy) (i : Invocation) : Frame where
  method := (h.method i.method).name
  receiver? := i.receiver?
  arguments := i.arguments
  invocation? := some i

/-- The sum of the 32 bit integers among some values, in wrapping arithmetic. -/
def sumOf (vs : List Value) : Int32 :=
  (vs.filterMap Value.int?).foldl (· + ·) 0

/-- The texts of some values, one behind the other. -/
def concatText : List Value → Script Stage String
  | [] => .done ""
  | v :: rest => .text v fun s => (concatText rest).bind fun t => .done (s ++ t)

/-- Count a run: how many there have been before. -/
def tick (counter : Nat) : Script Stage Nat :=
  .read fun s =>
    let n := (Table.find? s.counters counter).getD 0
    .write { s with counters := Table.set s.counters counter (n + 1) } (.done n)

/-- Note something. -/
def note (entry : String) : Script Stage Unit :=
  Script.update fun s => { s with log := s.log ++ [entry] }

/-- The object that a call goes to. -/
def target (f : Frame) : Option String → Script Stage (Option ObjectRef)
  | some name => .read fun s => .done (Table.find? s.names name)
  | none => .done f.receiver?

namespace Action

mutual

/-- Run a behaviour: a value, or nothing if it declines. -/
def run (f : Frame) (a : Action) : Script Stage Answer :=
  match a with
  | .const v => .done (some v)
  | .argument index => .done (some (f.arguments[index]?.getD .null))
  | .fail message => Script.failText message
  | .receiver => .done (some (f.receiver?.elim .null .object))
  | .methodName => .done (some (.string f.method))
  | .argumentCount => .done (some (.int (Int32.ofNat f.arguments.length)))
  | .sum => .done (some (.int (sumOf f.arguments)))
  | .concat => (concatText f.arguments).bind fun s => .done (some (.string s))
  | .count counter => (tick counter).bind fun n => .done (some (.int (Int32.ofNat (n + 1))))
  | .inTurn counter actions => (tick counter).bind fun n => runNth f n actions
  | .call name on? arguments? =>
    (target f on?).bind fun
      | some o => .call o name (arguments?.getD f.arguments) fun r => (Script.ofResult r).bind
          fun v => .done (some v)
      | none => Script.failText "no target"
  | .decline => .done none
  | .unhandled =>
    match f.invocation? with
    | some i => .fail (.unhandled i)
    | none => .done none
  | .proceed =>
    match f.invocation? with
    | some i => .proceed i fun r => (Script.ofResult r).bind fun v => .done (some v)
    | none => .done none

/-- Run the behaviour at a place of a list, or the last one. -/
def runNth (f : Frame) (n : Nat) (actions : List Action) : Script Stage Answer :=
  match actions with
  | [] => .done none
  | [a] => run f a
  | a :: b :: rest =>
    match n with
    | 0 => run f a
    | n + 1 => runNth f n (b :: rest)

end

end Action

/-- The part that a hook stands for. -/
def part? (hook : Hook) : Script Stage (Option Part) :=
  .read fun s => .done s.parts[hook.id]?

/-- The value of a behaviour, null if it declines. -/
def orNull (x : Script Stage Answer) : Script Stage Value :=
  x.bind fun v => .done (v.getD .null)

/-- What a stubbed handler makes of an invocation. -/
def runHandler (action : Action) (on? tag? : Option String) (f : Frame) : Script Stage Answer := do
  match tag? with
  | some tag => note (tag ++ ":" ++ f.method ++ "/" ++ toString f.arguments.length)
  | none => pure ()
  if on?.any (· != f.method) then return none
  action.run f

/-- What a stubbed object answers to an invocation; what it has no answer for is unhandled. -/
def runNative (answers : Table String Action) (f : Frame) (i : Invocation) :
    Script Stage Value := do
  match Table.find? answers f.method with
  | some action =>
    match ← action.run f with
    | some v => return v
    | none => .fail (.unhandled i)
  | none => .fail (.unhandled i)

/-- The object that a stubbed initializer makes. -/
def runInitializer (action : Action) : Script Stage ObjectRef := do
  note "init"
  match (← orNull (action.run { method := "init" })).object? with
  | some o => return o
  | none => Script.failText "initializer gave no object"

/-- The client whose hooks stand for the parts on stage. -/
def client : Client Stage where
  body hook receiver? arguments := do
    match ← part? hook with
    | some (.body name action) => orNull (action.run ⟨name, receiver?, arguments, none⟩)
    | _ => return .null
  native hook i := do
    match ← part? hook with
    | some (.native answers) => .classes fun h => runNative answers (.ofInvocation h i) i
    | _ => .fail (.unhandled i)
  handler hook i := do
    match ← part? hook with
    | some (.handler action on? tag?) =>
      .classes fun h => runHandler action on? tag? (.ofInvocation h i)
    | _ => return none
  initializer hook := do
    match ← part? hook with
    | some (.initializer action) => runInitializer action
    | _ => Script.failText "initializer gave no object"

/-- A call that a stubbed extractor makes; a failure of one that is only tried is passed over. -/
structure Probe where
  name : String
  arguments : List Value := []
  tried : Bool := false

/-- Make calls on an object and note their outcomes; the value of the last that succeeded. -/
def runProbes (o : ObjectRef) (last : Value) : List Probe → Script Stage Value
  | [] => .done last
  | p :: rest =>
    .call o p.name p.arguments fun
      | .ok v => .text v fun s => (note (p.name ++ "=" ++ s)).bind fun _ => runProbes o v rest
      | .error e =>
        if p.tried then (note (p.name ++ "!")).bind fun _ => runProbes o last rest else .fail e

/-- An extractor that makes calls and then fails if it is told to. -/
def runExtractor (probes : List Probe) (failure? : Option String) (o : ObjectRef) :
    Script Stage Value := do
  let v ← runProbes o .null probes
  match failure? with
  | some message => Script.failText message
  | none => return v

end Metaobject.Stub
