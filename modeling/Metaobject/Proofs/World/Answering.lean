import Metaobject.Handling
import Metaobject.Proofs.Contract
import Metaobject.Proofs.World.Run

/-!
How a single invocation comes to its answer: it is made, it is served, and the chain of a proxy
leads it to a handler. Accessors of annotation types go past the methods that every instance answers
in the same way and are answered with the value of their member.
-/
namespace Metaobject

variable {σ : Type} {client : Client σ} {serve : Serve σ}

/-- The first argument that may not stand in its parameter, with the parameter. -/
def Hierarchy.misfit? (h : Hierarchy) (m : MethodRef) (arguments : List Value) :
    Option (Parameter × Value) :=
  ((h.method m).parameters.zip arguments).find? fun slot => !h.isInstance slot.2 slot.1.type

namespace Invocation

variable {h : Hierarchy} {m : MethodRef} {o : ObjectRef} {arguments : List Value}

/-- Arguments are checked in turn, up to the first that does not fit. -/
theorem checkTypes_eq (h : Hierarchy) (m : MethodRef) (ps : List Parameter) (vs : List Value) :
    checkTypes h m ps vs =
      match (ps.zip vs).find? fun slot => !h.isInstance slot.2 slot.1.type with
      | some (p, v) => .error (.argumentType m p v)
      | none => .ok () := by
  induction ps generalizing vs with
  | nil => rfl
  | cons p ps ih =>
      cases vs with
      | nil => rfl
      | cons v vs =>
          rw [checkTypes, List.zip_cons_cons, List.find?_cons]
          cases hFits : h.isInstance v p.type with
          | true => exact ih vs
          | false => rfl

theorem checkReceiver_of_isSubtype (hKind : (h.method m).kind = .ofInstance)
    (hSubtype : h.isSubtype o.cls m.owner = true) : checkReceiver h m (some o) = .ok () := by
  simp [checkReceiver, hKind, hSubtype]

/-- With the right receiver and the right number of arguments, only their types are in question. -/
theorem of_eq (hKind : (h.method m).kind = .ofInstance)
    (hSubtype : h.isSubtype o.cls m.owner = true) (hArity : h.arity m = arguments.length) :
    of h m (some o) arguments =
      match h.misfit? m arguments with
      | some (p, v) => .error (.argumentType m p v)
      | none => .ok ⟨m, some o, arguments⟩ := by
  rw [of, checkReceiver_of_isSubtype hKind hSubtype, checkArguments, if_pos hArity.symm,
    checkTypes_eq, Hierarchy.misfit?]
  split <;> rfl

/-- A method without parameters can be invoked on any object of its class. -/
theorem of_nullary (hKind : (h.method m).kind = .ofInstance) (hArity : h.arity m = 0)
    (hSubtype : h.isSubtype o.cls m.owner = true) : of h m (some o) [] = .ok ⟨m, some o, []⟩ := by
  have hFits : h.misfit? m [] = none := by
    rw [Hierarchy.misfit?, List.zip_nil_right]
    rfl
  have hCount : h.arity m = ([] : List Value).length := hArity
  rw [of_eq hKind hSubtype hCount, hFits]

end Invocation

/-- With the right receiver and the right number of arguments, an invocation is one request, unless
an argument does not fit. -/
theorem ObjectRef.invoke_eq {w : World σ} {m : MethodRef} {o : ObjectRef} {arguments : List Value}
    (hKind : (w.hierarchy.method m).kind = .ofInstance)
    (hSubtype : w.hierarchy.isSubtype o.cls m.owner = true)
    (hArity : w.hierarchy.arity m = arguments.length) :
    o.invoke serve m arguments w =
      match w.hierarchy.misfit? m arguments with
      | some (p, v) => (.error (.raised (.illegal (.argumentType m p v))), w)
      | none => serve (.ask o ⟨m, some o, arguments⟩) w := by
  rw [invoke, Run.bind_ok (Run.hierarchy_apply w), Invocation.of_eq hKind hSubtype hArity]
  cases w.hierarchy.misfit? m arguments <;> rfl

theorem ObjectRef.invoke_nullary {w : World σ} {m : MethodRef} {o : ObjectRef}
    (hKind : (w.hierarchy.method m).kind = .ofInstance) (hArity : w.hierarchy.arity m = 0)
    (hSubtype : w.hierarchy.isSubtype o.cls m.owner = true) :
    o.invoke serve m [] w = serve (.ask o ⟨m, some o, []⟩) w := by
  rw [invoke, Run.bind_ok (Run.hierarchy_apply w), Invocation.of_nullary hKind hArity hSubtype]
  rfl

/-- The methods of the opening classes are those in the list of them. -/
theorem Hierarchy.method_opening (h : Hierarchy) (i : Nat) (hi : i < builtinClasses.length)
    (j : Nat) : h.method ⟨⟨i⟩, j⟩ = builtinClasses[i].methods[j]?.getD default := by
  rw [method, decl_opening h i hi]

/-- Every object can be asked whether it equals a value, whatever the value. -/
theorem ObjectRef.invoke_equals (o : ObjectRef) (v : Value) (w : World σ) :
    o.invoke serve .equals [v] w = serve (.ask o ⟨.equals, some o, [v]⟩) w := by
  have hMethod : w.hierarchy.method .equals = _ := w.hierarchy.method_opening 0 (by decide) 0
  have hKind : (w.hierarchy.method .equals).kind = .ofInstance := by rw [hMethod]; rfl
  have hArity : w.hierarchy.arity .equals = [v].length := by rw [Hierarchy.arity, hMethod]; rfl
  have hFits : w.hierarchy.misfit? .equals [v] = none := by
    rw [Hierarchy.misfit?, hMethod]
    cases v <;> rfl
  rw [invoke, Run.bind_ok (Run.hierarchy_apply w),
    Invocation.of_eq hKind (w.hierarchy.isSubtype_object o.cls) hArity, hFits]
  rfl

/-- An object below an opening class can be asked by the methods that this class has without
parameters. -/
theorem ObjectRef.invoke_opening {o : ObjectRef} {w : World σ} {i j : Nat}
    (hi : i < builtinClasses.length)
    (hKind : (builtinClasses[i].methods[j]?.getD default).kind = .ofInstance)
    (hNone : (builtinClasses[i].methods[j]?.getD default).parameters = [])
    (hSubtype : w.hierarchy.isSubtype o.cls ⟨i⟩ = true) :
    o.invoke serve ⟨⟨i⟩, j⟩ [] w = serve (.ask o ⟨⟨⟨i⟩, j⟩, some o, []⟩) w := by
  have hMethod := w.hierarchy.method_opening i hi j
  refine invoke_nullary (by rw [hMethod, hKind]) ?_ hSubtype
  rw [Hierarchy.arity, hMethod, hNone]
  rfl

theorem ObjectRef.invoke_hashCode (o : ObjectRef) (w : World σ) :
    o.invoke serve .hashCode [] w = serve (.ask o ⟨.hashCode, some o, []⟩) w :=
  invoke_opening (by decide) rfl rfl (w.hierarchy.isSubtype_object _)

theorem ObjectRef.invoke_toText (o : ObjectRef) (w : World σ) :
    o.invoke serve .toText [] w = serve (.ask o ⟨.toText, some o, []⟩) w :=
  invoke_opening (by decide) rfl rfl (w.hierarchy.isSubtype_object _)

theorem ObjectRef.invoke_annotationType {o : ObjectRef} {w : World σ}
    (hSubtype : w.hierarchy.isSubtype o.cls .annotations = true) :
    o.invoke serve .annotationType [] w = serve (.ask o ⟨.annotationType, some o, []⟩) w :=
  invoke_opening (by decide) rfl rfl hSubtype

/-- A call of a proxy by name invokes the entry of its table. -/
theorem ObjectRef.call_apply {w : World σ} {o : ObjectRef} {made : ProxyClass} {chain : Chain}
    (ho : w.object? o = some (.proxy made chain)) {name : String} {arguments : List Value}
    {m : MethodRef} (hEntry : Table.find? made.table (name, arguments.length) = some m) :
    o.call serve name arguments w = o.invoke serve m arguments w := by
  have hResolve : w.resolveMethod? o name arguments.length = some m := by
    rw [World.resolveMethod?, ho]
    exact hEntry
  rw [call, Run.bind_ok (Run.get_apply w), hResolve]

/-- A proxy answers through its chain. -/
theorem perform_ask {w : World σ} {o : ObjectRef} {made : ProxyClass} {chain : Chain}
    (ho : w.object? o = some (.proxy made chain)) (depth : Nat) (i : Invocation) :
    perform client (depth + 1) (.ask o i) w = chain.resolve client (perform client depth) i w := by
  show o.answer client (perform client depth) i w = _
  rw [ObjectRef.answer, Run.bind_ok (Run.get_apply w), ho]

/-- What the first handler of a chain answers is what the chain answers. -/
theorem Chain.resolve_first {x : Handler} {rest : List Handler} {fallback : Handler}
    {i : Invocation} {w u : World σ} {v : Value}
    (hAnswer : x.handle client serve i w = (.ok (some v), u)) :
    (Chain.mk (x :: rest) fallback).resolve client serve i w = (.ok v, u) := by
  have hFirst : Handler.firstAnswer client serve (x :: rest) i w = (.ok (some v), u) := by
    rw [Handler.firstAnswer]
    exact Run.bind_ok hAnswer
  exact Run.bind_ok hFirst

/-- When the first handler of a chain fails, the chain does. -/
theorem Chain.resolve_first_error {x : Handler} {rest : List Handler} {fallback : Handler}
    {i : Invocation} {w v : World σ} {e : Stop ProxyError}
    (hFails : x.handle client serve i w = (.error e, v)) :
    (Chain.mk (x :: rest) fallback).resolve client serve i w = (.error e, v) := by
  have hFirst : Handler.firstAnswer client serve (x :: rest) i w = (.error e, v) := by
    rw [Handler.firstAnswer]
    exact Run.bind_error hFails
  exact Run.bind_error hFirst

/-- An accessor of an annotation type is none of the methods that every instance answers. -/
theorem ne_of_isAnnotationType_owner {h : Hierarchy} {m : MethodRef}
    (hOwner : h.isAnnotationType m.owner = true) :
    m ≠ .equals ∧ m ≠ .hashCode ∧ m ≠ .toText ∧ m ≠ .annotationType := by
  refine ⟨?_, ?_, ?_, ?_⟩ <;> rintro rfl
  · cases hOwner.symm.trans h.isAnnotationType_object
  · cases hOwner.symm.trans h.isAnnotationType_object
  · cases hOwner.symm.trans h.isAnnotationType_object
  · cases hOwner.symm.trans h.isAnnotationType_annotations

/-- An instance answers a method of an annotation type with the value of the member it reads. -/
theorem Instance.answer_apply (x : Instance) {i : Invocation} {w : World σ}
    (hOwner : w.hierarchy.isAnnotationType i.method.owner = true) :
    x.answer serve i w = (.ok ((x.contract.memberFor? i.method).map x.valueOf), w) := by
  obtain ⟨hEquals, hHash, hText, hType⟩ := ne_of_isAnnotationType_owner hOwner
  rw [Instance.answer, if_neg hEquals, if_neg hHash, if_neg hText, if_neg hType]
  rfl

/-- An instance is invoked by a method that reads one of its members. -/
theorem invoke_instance {w : World σ} {o : ObjectRef} {made : ProxyClass} {x : Instance}
    {m : Member} (ho : w.object? o = some (.proxy made (.single (.values x))))
    (hKind : w.hierarchy.isAnnotationMember m.accessor = true)
    (hSubtype : w.hierarchy.isSubtype o.cls m.accessor.owner = true)
    (hMember : x.contract.memberFor? m.accessor = some m) (depth : Nat) :
    o.invoke (perform client (depth + 1)) m.accessor [] w = (.ok (x.valueOf m), w) := by
  simp only [Hierarchy.isAnnotationMember, Bool.and_eq_true, beq_iff_eq] at hKind
  obtain ⟨⟨hInstance, hArity⟩, hOwner⟩ := hKind
  rw [ObjectRef.invoke_nullary hInstance hArity hSubtype, perform_ask ho]
  apply Chain.resolve_first
  show x.answer (perform client depth) _ w = _
  rw [x.answer_apply hOwner, hMember]
  rfl

end Metaobject
