import Metaobject.Proofs.Invocation
import Metaobject.Proofs.World.Answering
import Metaobject.Redirection

/-!
What can be done with an object: it is called by name, a method is invoked on it, it is asked for
equality, hash or text, or a target is extracted from it. Each of these looks up and checks an
invocation, asks the object to answer it at the most, and makes something of the answer.
-/
namespace Metaobject

variable {σ : Type} {client : Client σ} {serve : Serve σ}

/-- What can be done with an object. -/
inductive Use where
  | call (name : String) (arguments : List Value)
  | invoke (m : MethodRef) (arguments : List Value)
  | equals (v : Value)
  | hashCode
  | toText
  | extract

namespace Use

/-- An object as a value, if there is one. -/
def valueOf (o? : Option ObjectRef) : Value :=
  o?.elim .null .object

/-- Use an object. The result is a value whatever the use. -/
def run (serve : Serve σ) (o : ObjectRef) : Use → Run ProxyError σ Value
  | call name arguments => o.call serve name arguments
  | invoke m arguments => o.invoke serve m arguments
  | equals v => return .boolean (← o.equals serve v)
  | hashCode => return .int (← o.hashCode serve)
  | toText => return .string (← o.toText serve)
  | extract => return valueOf (← LazyProxy.extract serve o)

/-- The invocation of a method on an object, checked. -/
def checked (w : World σ) (o : ObjectRef) (m : MethodRef) (arguments : List Value) :
    Except ProxyError Invocation :=
  (Invocation.of w.hierarchy m (some o) arguments).mapError .illegal

/-- The invocation that the object is asked to answer, if look-up and checks are passed. -/
def invocation (w : World σ) (o : ObjectRef) : Use → Except ProxyError Invocation
  | call name arguments =>
    match w.resolveMethod? o name arguments.length with
    | some m => checked w o m arguments
    | none => .error (.noSuchMethod o.cls name arguments.length)
  | invoke m arguments => checked w o m arguments
  | equals v => checked w o .equals [v]
  | hashCode => checked w o .hashCode []
  | toText => checked w o .toText []
  | extract =>
    if w.hierarchy.isSubtype o.cls .lazyProxy then checked w o .extractInstance []
    else .error (.illegal (.notLazy o.cls))

/-- What a use makes of the answer. -/
def result : Use → Value → Except ProxyError Value
  | call .., v => .ok v
  | invoke .., v => .ok v
  | equals _, v =>
    match v with
    | .boolean b => .ok (.boolean b)
    | other => .error (.failed (.unexpectedResult .equals other))
  | hashCode, v =>
    match v with
    | .int n => .ok (.int n)
    | other => .error (.failed (.unexpectedResult .hashCode other))
  | toText, v =>
    match v with
    | .string s => .ok (.string s)
    | other => .error (.failed (.unexpectedResult .toText other))
  | extract, v => .ok (valueOf v.object?)

/-- The object is asked, and something made of its answer. -/
def ask (serve : Serve σ) (o : ObjectRef) (i : Invocation) (u : Use) : Run ProxyError σ Value := do
  Run.ofExcept id (u.result (← serve (.ask o i)))

theorem invoke_apply (o : ObjectRef) (m : MethodRef) (arguments : List Value) (w : World σ) :
    o.invoke serve m arguments w =
      match checked w o m arguments with
      | .error e => (.error (.raised e), w)
      | .ok i => serve (.ask o i) w := by
  rw [ObjectRef.invoke, Run.bind_ok (Run.hierarchy_apply w), checked]
  cases Invocation.of w.hierarchy m (some o) arguments <;> rfl

/-- A use that begins with the invocation of a method. -/
theorem apply_of_invoke {u : Use} {x : Run ProxyError σ Value} {f : Value → Run ProxyError σ Value}
    {o : ObjectRef} {m : MethodRef} {arguments : List Value} {w : World σ}
    (hRun : x w = (o.invoke serve m arguments >>= f) w)
    (hResult : ∀ v, f v = Run.ofExcept id (u.result v)) :
    x w =
      match checked w o m arguments with
      | .error e => (.error (.raised e), w)
      | .ok i => u.ask serve o i w := by
  have hInvoke : o.invoke serve m arguments w = _ := invoke_apply o m arguments w
  obtain rfl : f = _ := funext hResult
  rw [hRun]
  cases hChecked : checked w o m arguments with
  | error e =>
      rw [hChecked] at hInvoke
      exact Run.bind_error hInvoke
  | ok i =>
      rw [hChecked] at hInvoke
      exact Run.bind_congr_apply hInvoke

/-- Every use comes down to one request, or ends before it. -/
theorem run_apply (u : Use) (o : ObjectRef) (w : World σ) :
    u.run serve o w =
      match u.invocation w o with
      | .error e => (.error (.raised e), w)
      | .ok i => u.ask serve o i w := by
  cases u with
  | call name arguments =>
      rw [run, ObjectRef.call, Run.bind_ok (Run.get_apply w), invocation]
      cases w.resolveMethod? o name arguments.length with
      | none => rfl
      | some m =>
          exact apply_of_invoke (u := call name arguments) (congrFun (bind_pure _).symm w)
            fun _ => rfl
  | invoke m arguments => exact apply_of_invoke (congrFun (bind_pure _).symm w) fun _ => rfl
  | equals v =>
      refine apply_of_invoke (congrFun (bind_assoc ..) w) fun answer => ?_
      cases answer <;> rfl
  | hashCode =>
      refine apply_of_invoke (congrFun (bind_assoc ..) w) fun answer => ?_
      cases answer <;> rfl
  | toText =>
      refine apply_of_invoke (congrFun (bind_assoc ..) w) fun answer => ?_
      cases answer <;> rfl
  | extract =>
      rw [run, LazyProxy.extract, bind_assoc, Run.bind_ok (Run.hierarchy_apply w), invocation]
      split
      · exact apply_of_invoke (u := extract) (congrFun (bind_assoc ..) w) fun _ => rfl
      · rfl

/-- What a use asks of an object depends on the classes declared and the methods of the object. -/
theorem invocation_congr {v w : World σ} {o : ObjectRef} (hHierarchy : v.hierarchy = w.hierarchy)
    (hResolve : ∀ name arity, v.resolveMethod? o name arity = w.resolveMethod? o name arity)
    (use : Use) : use.invocation v o = use.invocation w o := by
  cases use <;> simp only [invocation, checked, hHierarchy, hResolve]

/-- Every object can be asked for its hash. -/
theorem invocation_hashCode (w : World σ) (o : ObjectRef) :
    hashCode.invocation w o = .ok ⟨.hashCode, some o, []⟩ := by
  have hMethod : w.hierarchy.method .hashCode = _ := w.hierarchy.method_opening 0 (by decide) 1
  have hKind : (w.hierarchy.method .hashCode).kind = .ofInstance := by rw [hMethod]; rfl
  have hArity : w.hierarchy.arity .hashCode = 0 := by rw [Hierarchy.arity, hMethod]; rfl
  rw [invocation, checked,
    Invocation.of_nullary hKind hArity (w.hierarchy.isSubtype_object o.cls)]
  rfl

/-- What passes the checks is what was asked for, and it is well formed. -/
theorem eq_of_checked {w : World σ} {o : ObjectRef} {m : MethodRef} {arguments : List Value}
    {i : Invocation} (hChecked : checked w o m arguments = .ok i) :
    i = ⟨m, some o, arguments⟩ ∧ i.WellFormed w.hierarchy := by
  rw [checked] at hChecked
  cases hMade : Invocation.of w.hierarchy m (some o) arguments with
  | error why =>
      rw [hMade] at hChecked
      cases hChecked
  | ok j =>
      rw [hMade] at hChecked
      cases hChecked
      exact (Invocation.decides_of ..).wellFormed_of_ok hMade

theorem method_of_checked {w : World σ} {o : ObjectRef} {m : MethodRef} {arguments : List Value}
    {i : Invocation} (hChecked : checked w o m arguments = .ok i) : i.method = m := by
  obtain ⟨rfl, -⟩ := eq_of_checked hChecked
  rfl

/-- What is asked of an object when its target is to be extracted. -/
theorem method_of_extract {w : World σ} {o : ObjectRef} {i : Invocation}
    (hUse : extract.invocation w o = .ok i) : i.method = .extractInstance := by
  rw [invocation] at hUse
  split at hUse
  · exact method_of_checked hUse
  · cases hUse

theorem wellFormed_of_checked {w : World σ} {o : ObjectRef} {m : MethodRef}
    {arguments : List Value} {i : Invocation} (hChecked : checked w o m arguments = .ok i) :
    i.receiver? = some o ∧ i.WellFormed w.hierarchy := by
  obtain ⟨rfl, hFormed⟩ := eq_of_checked hChecked
  exact ⟨rfl, hFormed⟩

/-- What an object is asked is well formed, and for that object. -/
theorem wellFormed_of_invocation {u : Use} {w : World σ} {o : ObjectRef} {i : Invocation}
    (hUse : u.invocation w o = .ok i) : i.receiver? = some o ∧ i.WellFormed w.hierarchy := by
  cases u with
  | call name arguments =>
      rw [invocation] at hUse
      split at hUse
      · exact wellFormed_of_checked hUse
      · cases hUse
  | extract =>
      rw [invocation] at hUse
      split at hUse
      · exact wellFormed_of_checked hUse
      · cases hUse
  | _ => exact wellFormed_of_checked hUse

/-- The method of what an object is asked is called on objects, and takes the object. -/
theorem receives_of_invocation {u : Use} {w : World σ} {o : ObjectRef} {i : Invocation}
    (hUse : u.invocation w o = .ok i) : (w.hierarchy.method i.method).kind = .ofInstance ∧
      w.hierarchy.isSubtype o.cls i.method.owner = true := by
  obtain ⟨hReceiver, hFormed⟩ := wellFormed_of_invocation hUse
  rcases hFormed.receiver with ⟨hKind, p, hp, hSubtype⟩ | ⟨-, hNone⟩
  · cases hReceiver.symm.trans hp
    exact ⟨hKind, hSubtype⟩
  · cases hReceiver.symm.trans hNone

end Use

end Metaobject
