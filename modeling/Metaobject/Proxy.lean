import Metaobject.Hierarchy.Definition
import Metaobject.World

/-!
Proxies: objects whose class is made for the interfaces that they implement, and that answer through
a chain of handlers. The class is made once for a list of interfaces, or for every proxy where
classes are not kept, and is named by the settings and a number that counts the classes made.
-/
namespace Metaobject

variable {σ ε : Type}

namespace Settings

/-- The settings in effect. They are fixed by the first question for them. -/
def current : Run ε σ Settings := do
  match (← get).settings? with
  | some s => return s
  | none =>
    modify fun w => { w with settings? := some {} }
    return {}

/-- Put settings into effect, if they can be used and none are in effect yet. -/
def install (s : Settings) : Run SettingsError σ Unit := do
  Run.ofExcept .invalid s.validate
  match (← get).settings? with
  | some _ => Run.raise .alreadyInstalled
  | none => modify fun w => { w with settings? := some s }

end Settings

namespace ProxyClass

/-- Enter a method into a table of methods, unless its name and number of parameters are there. -/
def enter (h : Hierarchy) (table : Table (String × Nat) MethodRef) (m : MethodRef) :
    Table (String × Nat) MethodRef :=
  if (h.method m).kind = .ofInstance then Table.setNew table ((h.method m).name, h.arity m) m
  else table

/-- The methods that a proxy of some interfaces has to answer, those of the root first. -/
def candidates (h : Hierarchy) (contracts : List ClassId) : List MethodRef :=
  h.declaredMethods .object ++ contracts.flatMap h.allMethods

/-- The table of a proxy of some interfaces: the first instance method of every name and number of
parameters. -/
def tableOf (h : Hierarchy) (contracts : List ClassId) : Table (String × Nat) MethodRef :=
  (candidates h contracts).foldl (enter h) []

/-- Make a class for proxies of some interfaces. -/
def synthesize (contracts : List ClassId) : Run ε σ ProxyClass := do
  let settings ← Settings.current
  modifyGet fun w =>
    let name := settings.classNamePrefix ++ toString w.nextProxy
    let b := contracts.foldl ClassBuilder.extend (ClassBuilder.empty .concrete name).makeSynthetic
    let (h, c) := w.hierarchy.define b
    (⟨c, tableOf h contracts⟩, { w with hierarchy := h, nextProxy := w.nextProxy + 1 })

/-- The class for proxies of some interfaces. -/
def forContracts (contracts : List ClassId) : Run ε σ ProxyClass := do
  let settings ← Settings.current
  if !settings.cacheClasses then synthesize contracts
  else
    match Table.find? (← get).proxyClasses contracts with
    | some made => return made
    | none =>
      let made ← synthesize contracts
      modify fun w => { w with proxyClasses := Table.set w.proxyClasses contracts made }
      return made

end ProxyClass

/-- A proxy in the making: its interfaces, and the chain that is to answer. -/
structure ProxyBuilder where
  contracts : List ClassId := []
  chain : Chain := {}

namespace ProxyBuilder

variable (b : ProxyBuilder)

/-- One more interface. -/
def withContract (c : ClassId) : ProxyBuilder :=
  { b with contracts := b.contracts ++ [c] }

/-- One more handler. -/
def withHandler (x : Handler) : ProxyBuilder :=
  { b with chain := b.chain.push x }

/-- The handlers and the fallback of a chain, behind the handlers so far. -/
def withChain (k : Chain) : ProxyBuilder :=
  { b with chain := b.chain.append k }

/-- Another fallback. -/
def withFallback (x : Handler) : ProxyBuilder :=
  { b with chain := b.chain.withFallback x }

/-- Each class of a list once, in order, as long as all are interfaces. -/
def checkContracts (h : Hierarchy) (kept : List ClassId) :
    List ClassId → Except ProxyError (List ClassId)
  | [] => .ok kept
  | c :: rest =>
    if !h.isInterface c then .error (.notAnInterface c)
    else checkContracts h (if c ∈ kept then kept else kept ++ [c]) rest

/-- Make the proxy. -/
def build : Run ProxyError σ ObjectRef := do
  if b.contracts.isEmpty then Run.raise .emptyContractSet
  else
    let contracts ← Run.ofExcept id (checkContracts (← Run.hierarchy) [] b.contracts)
    let made ← ProxyClass.forContracts contracts
    Run.newObject made.cls (.proxy made b.chain)

/-- A proxy of one interface with one handler. -/
def single (c : ClassId) (x : Handler) : ProxyBuilder :=
  ({ contracts := [c] } : ProxyBuilder).withHandler x

end ProxyBuilder

end Metaobject
