import Metaobject.Handler
import Metaobject.Settings

/-!
The world that calls run in: the classes declared so far, the objects made so far, the cells of
handlers, the classes of proxies, the settings once they are fixed, and the state of the client.
A run changes the world also where it fails.
-/
namespace Metaobject

/-- A class made for proxies. Its table gives, for a name and a number of parameters, the method
that a call invokes. -/
structure ProxyClass where
  cls : ClassId
  table : Table (String × Nat) MethodRef

/-- What answers for an object: code of the client, or a chain of handlers. -/
inductive ObjectData where
  | native (hook : Hook)
  | proxy (made : ProxyClass) (chain : Chain)

/-- All that calls can see and change. -/
structure World (σ : Type) where
  hierarchy : Hierarchy := .builtin
  settings? : Option Settings := none
  proxyClasses : Table (List ClassId) ProxyClass := []
  nextProxy : Nat := 0
  objects : Array ObjectData := #[]
  targets : Store ObjectRef := {}
  lazies : Store ObjectRef := {}
  hashes : Store Int32 := {}
  texts : Store String := {}
  firstMethods : Store MethodRef := {}
  client : σ

namespace World

variable {σ : Type} (w : World σ)

/-- What answers for an object. -/
def object? (o : ObjectRef) : Option ObjectData :=
  w.objects[o.id]?

/-- A new object of a class. -/
def allocate (c : ClassId) (d : ObjectData) : ObjectRef × World σ :=
  (⟨w.objects.size, c⟩, { w with objects := w.objects.push d })

/-- The object is a proxy. -/
def isProxy (o : ObjectRef) : Bool :=
  match w.object? o with
  | some (.proxy ..) => true
  | _ => false

mutual

/-- A value refers to objects and classes that there are. -/
def knows (v : Value) : Bool :=
  match v with
  | .token t => t.classes.all fun c => w.hierarchy.Declared c
  | .array _ items => knowsAll items
  | .object o => o.id < w.objects.size
  | _ => true

/-- All of some values do. -/
def knowsAll (vs : List Value) : Bool :=
  match vs with
  | [] => true
  | v :: vs => knows v && knowsAll vs

end

/-- The chain that answers for a proxy. -/
def chainOf? (o : ObjectRef) : Option Chain :=
  match w.object? o with
  | some (.proxy _ chain) => some chain
  | _ => none

/-- The method that a call by name invokes on an object: an entry of the table of its class if it is
a proxy, and otherwise what its class declares or inherits. -/
def resolveMethod? (o : ObjectRef) (name : String) (arity : Nat) : Option MethodRef :=
  match w.object? o with
  | some (.proxy made _) => Table.find? made.table (name, arity)
  | _ => w.hierarchy.findMethod? o.cls name arity

end World

/-- Why a run ends without a result: an error that its caller sees, or what nothing sees: a depth of
calls beyond the bound that was set, or a computation that waits for itself. -/
inductive Stop (ε : Type) where
  | raised (error : ε)
  | exhausted

/-- A computation in the world, with errors of a type. -/
abbrev Run (ε σ : Type) := ExceptT (Stop ε) (StateM (World σ))

namespace Run

variable {ε δ σ α : Type}

/-- End with an error. -/
def raise (error : ε) : Run ε σ α :=
  throw (.raised error)

/-- The result of a computation that cannot change the world. -/
def ofExcept (wrap : δ → ε) : Except δ α → Run ε σ α
  | .ok a => pure a
  | .error e => raise (wrap e)

/-- A computation with its error as a result. -/
def attempt (x : Run ε σ α) : Run δ σ (Except ε α) := fun w =>
  match x w with
  | (.ok a, w') => (.ok (.ok a), w')
  | (.error (.raised e), w') => (.ok (.error e), w')
  | (.error .exhausted, w') => (.error .exhausted, w')

/-- A computation whose errors are changed. -/
def mapError (f : ε → δ) (x : Run ε σ α) : Run δ σ α := do
  match ← attempt x with
  | .ok a => return a
  | .error e => raise (f e)

/-- The classes declared so far. -/
def hierarchy : Run ε σ Hierarchy :=
  return (← get).hierarchy

/-- A new object of a class. -/
def newObject (c : ClassId) (d : ObjectData) : Run ε σ ObjectRef :=
  modifyGet fun w => w.allocate c d

end Run

/-- One of the stores of cells of a world. -/
structure Shelf (σ β : Type) where
  store : World σ → Store β
  put : Store β → World σ → World σ

namespace Shelf

variable {ε σ β : Type}

/-- The objects that lazy proxies stand for. -/
def lazies : Shelf σ ObjectRef where
  store := World.lazies
  put lazies w := { w with lazies }

/-- The hashes that instances keep. -/
def hashes : Shelf σ Int32 where
  store := World.hashes
  put hashes w := { w with hashes }

/-- The texts that instances keep. -/
def texts : Shelf σ String where
  store := World.texts
  put texts w := { w with texts }

variable (k : Shelf σ β) (cell : Cell β)

/-- Keep what has been computed for a cell. A cell that has been filled meanwhile was asked for
within its own computation, which then never ends. -/
def keep (b : β) : Run ε σ β := do
  match (k.store (← get)).read cell with
  | some _ => throw .exhausted
  | none =>
    modify fun w => k.put ((k.store w).fill cell b) w
    return b

/-- What a cell holds, or else what is computed now, which the cell then holds for good. -/
def once (compute : Run ε σ β) : Run ε σ β := do
  match (k.store (← get)).read cell with
  | some b => return b
  | none => k.keep cell (← compute)

/-- What is computed, kept if there is a cell for it. -/
def onceIf (cell? : Option (Cell β)) (compute : Run ε σ β) : Run ε σ β :=
  match cell? with
  | none => compute
  | some cell => k.once cell compute

end Shelf

end Metaobject
