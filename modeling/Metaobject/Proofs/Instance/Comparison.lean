import Metaobject.Proofs.Instance.Shares

/-!
How a built instance is compared with an object that anyone may have made. The object is asked for
its annotation type and then for one member after another. The comparison comes to its end at the
first answer that differs, and at the first question that fails: then it fails as that question
did. Nobody else is asked, if the values of the instance have no objects in them.
-/
namespace Metaobject

variable {σ : Type} {client : Client σ} {serve : Serve σ} {w t u z : World σ}

/-- A question that is put to an object, and what is made of the answer. -/
structure Question (σ : Type) where
  /-- The method that the object is asked by. -/
  method : MethodRef
  /-- Whether an answer is the one that was hoped for. -/
  judge : Value → Run ProxyError σ Bool

/-- Put a question to an object, and judge what it answers. -/
def Question.put (serve : Serve σ) (q : Question σ) (p : ObjectRef) : Run ProxyError σ Bool := do
  q.judge (← p.invoke serve q.method [])

namespace ObjectRef

section Asking

variable (serve : Serve σ) (p : ObjectRef)

/-- Put some questions to an object in turn, up to the first whose answer is not judged right. -/
def askAll : List (Question σ) → Run ProxyError σ Bool
  | [] => pure true
  | q :: rest => do if ← q.put serve p then askAll rest else return false

/-- An object answers some questions in turn, and every answer is judged right. -/
inductive Satisfies : List (Question σ) → World σ → World σ → Prop where
  | nil (w : World σ) : Satisfies [] w w
  | cons {q : Question σ} {rest : List (Question σ)} {w t z : World σ}
    (hRight : q.put serve p w = (.ok true, t)) (hRest : Satisfies rest t z) :
    Satisfies (q :: rest) w z

/-- Among some questions that are put to an object in turn, one is reached in a world: the object
satisfies all those before it. -/
def Reaches (qs : List (Question σ)) (w : World σ) (q : Question σ) (t : World σ) : Prop :=
  ∃ before after, qs = before ++ q :: after ∧ p.Satisfies serve before w t

end Asking

variable {p : ObjectRef} {q : Question σ} {qs before after : List (Question σ)}
  {r : Except (Stop ProxyError) Bool}

/-- Behind questions that an object satisfies, the others are put to it. -/
theorem Satisfies.askAll_append (hBefore : p.Satisfies serve before w t) :
    p.askAll serve (before ++ after) w = p.askAll serve after t := by
  induction hBefore with
  | nil w => rfl
  | cons hRight _ ih =>
      rw [List.cons_append, askAll, Run.bind_ok hRight, if_pos rfl]
      exact ih

theorem Satisfies.askAll_eq (hAll : p.Satisfies serve qs w z) :
    p.askAll serve qs w = (.ok true, z) := by
  have hRun : p.askAll serve (qs ++ []) w = p.askAll serve [] z := hAll.askAll_append
  rwa [List.append_nil] at hRun

/-- A question that does not find the right answer is the last one. -/
theorem askAll_cons_of_ne (hPut : q.put serve p w = (r, z)) (hr : r ≠ .ok true) :
    p.askAll serve (q :: after) w = (r, z) := by
  rw [askAll]
  rcases r with e | _ | _
  · exact Run.bind_error hPut
  · exact Run.bind_ok hPut
  · exact absurd rfl hr

theorem Reaches.askAll_eq (hReaches : p.Reaches serve qs w q t)
    (hPut : q.put serve p t = (r, z)) (hr : r ≠ .ok true) :
    p.askAll serve qs w = (r, z) := by
  obtain ⟨before, after, rfl, hBefore⟩ := hReaches
  rw [hBefore.askAll_append, askAll_cons_of_ne hPut hr]

/-- An object satisfies all questions, or one is reached that does not find the right answer. -/
theorem satisfies_or_reaches (serve : Serve σ) (p : ObjectRef) (qs : List (Question σ))
    (w : World σ) :
    (∃ z, p.Satisfies serve qs w z) ∨
      ∃ q t, p.Reaches serve qs w q t ∧ (q.put serve p t).1 ≠ .ok true := by
  induction qs generalizing w with
  | nil => exact .inl ⟨w, .nil w⟩
  | cons first rest ih =>
      by_cases hFirst : (first.put serve p w).1 = .ok true
      · have hRight : first.put serve p w = (.ok true, (first.put serve p w).2) :=
          Prod.ext hFirst rfl
        cases ih (first.put serve p w).2 with
        | inl hAll =>
            obtain ⟨z, hRest⟩ := hAll
            exact .inl ⟨z, .cons hRight hRest⟩
        | inr hOne =>
            obtain ⟨q, t, ⟨before, after, hSplit, hBefore⟩, hNot⟩ := hOne
            refine .inr ⟨q, t, ⟨first :: before, after, ?_, .cons hRight hBefore⟩, hNot⟩
            rw [hSplit, List.cons_append]
      · exact .inr ⟨first, w, ⟨[], rest, rfl, .nil w⟩, hFirst⟩

/-- The questions are all found right if and only if the object satisfies them. -/
theorem askAll_eq_true_iff : p.askAll serve qs w = (.ok true, z) ↔ p.Satisfies serve qs w z := by
  constructor
  · intro hRun
    rcases satisfies_or_reaches serve p qs w with ⟨z', hAll⟩ | ⟨q, t, hReaches, hNot⟩
    · cases hAll.askAll_eq.symm.trans hRun
      exact hAll
    · rw [hReaches.askAll_eq rfl hNot] at hRun
      exact absurd (congrArg Prod.fst hRun) hNot
  · exact Satisfies.askAll_eq

/-- Any other outcome is that of the first question that does not find the right answer. -/
theorem askAll_eq_iff_of_ne (hr : r ≠ .ok true) : p.askAll serve qs w = (r, z) ↔
    ∃ q t, p.Reaches serve qs w q t ∧ q.put serve p t = (r, z) := by
  constructor
  · intro hRun
    rcases satisfies_or_reaches serve p qs w with ⟨z', hAll⟩ | ⟨q, t, hReaches, hNot⟩
    · cases hAll.askAll_eq.symm.trans hRun
      exact absurd rfl hr
    · exact ⟨q, t, hReaches, (hReaches.askAll_eq rfl hNot).symm.trans hRun⟩
  · rintro ⟨q, t, hReaches, hPut⟩
    exact hReaches.askAll_eq hPut hr

/-- A question that is reached is one of them. -/
theorem Reaches.mem (hReaches : p.Reaches serve qs w q t) : q ∈ qs := by
  obtain ⟨before, after, rfl, _⟩ := hReaches
  exact List.mem_append_right _ (List.mem_cons_self ..)

end ObjectRef

namespace Question

variable {q : Question σ} {p : ObjectRef} {b : Bool} {e : Stop ProxyError}

theorem put_eq_ok_iff : q.put serve p t = (.ok b, z) ↔
    ∃ v u, p.invoke serve q.method [] t = (.ok v, u) ∧ q.judge v u = (.ok b, z) := by
  constructor
  · exact Run.exists_of_bind_ok
  · rintro ⟨v, u, hAnswer, hJudge⟩
    exact (Run.bind_ok hAnswer).trans hJudge

theorem put_eq_error_iff : q.put serve p t = (.error e, z) ↔
    p.invoke serve q.method [] t = (.error e, z) ∨
      ∃ v u, p.invoke serve q.method [] t = (.ok v, u) ∧ q.judge v u = (.error e, z) := by
  constructor
  · intro hPut
    rw [put] at hPut
    rcases hAnswer : p.invoke serve q.method [] t with ⟨e' | v, u⟩
    · rw [Run.bind_error hAnswer] at hPut
      cases hPut
      exact .inl rfl
    · rw [Run.bind_ok hAnswer] at hPut
      exact .inr ⟨v, u, rfl, hPut⟩
  · rintro (hRefused | ⟨v, u, hAnswer, hJudge⟩)
    · exact Run.bind_error hRefused
    · exact (Run.bind_ok hAnswer).trans hJudge

end Question

/-- The outcome of a computation is that of putting some questions to an object. It is yes if the
object satisfies all of them, and no if there is one whose answer is judged wrong after it has
satisfied those before. If there is one that it fails to answer, the computation fails with that
error. -/
structure ObjectRef.Determines (serve : Serve σ) (p : ObjectRef) (qs : List (Question σ))
    (x : Run ProxyError σ Bool) (w : World σ) : Prop where
  right : ∀ z, x w = (.ok true, z) ↔ p.Satisfies serve qs w z
  wrong : ∀ z, x w = (.ok false, z) ↔ ∃ q t v u, p.Reaches serve qs w q t ∧
    p.invoke serve q.method [] t = (.ok v, u) ∧ q.judge v u = (.ok false, z)
  failed : ∀ e z, x w = (.error (.raised e), z) ↔ ∃ q t, p.Reaches serve qs w q t ∧
    p.invoke serve q.method [] t = (.error (.raised e), z)
  exhausted : ∀ z, x w = (.error .exhausted, z) ↔ ∃ q t, p.Reaches serve qs w q t ∧
    q.put serve p t = (.error .exhausted, z)

/-- Questions whose answers can be judged without an error determine the outcome of putting them in
turn. -/
theorem ObjectRef.determines_of_askAll {p : ObjectRef} {qs : List (Question σ)}
    {x : Run ProxyError σ Bool} (hRun : x w = p.askAll serve qs w)
    (hJudges : ∀ q ∈ qs, ∀ v u e z, q.judge v u ≠ (.error (.raised e), z)) :
    p.Determines serve qs x w where
  right z := by rw [hRun, askAll_eq_true_iff]
  wrong z := by
    rw [hRun, askAll_eq_iff_of_ne (by simp)]
    simp only [Question.put_eq_ok_iff, exists_and_left]
  failed e z := by
    rw [hRun, askAll_eq_iff_of_ne (by simp)]
    refine exists_congr fun q => exists_congr fun t => and_congr_right fun hReaches => ?_
    rw [Question.put_eq_error_iff, or_iff_left]
    rintro ⟨v, u, -, hRaised⟩
    exact hJudges q hReaches.mem v u e z hRaised
  exhausted z := by rw [hRun, askAll_eq_iff_of_ne (by simp)]

namespace Value

variable {v v' : Value} {b : Bool}

theorem same_of_ok (hRun : v.equals serve v' u = (.ok b, z)) :
    v.same serve v' u = (.ok b, z) :=
  Run.bind_ok (Run.attempt_ok hRun)

theorem same_of_raised {e : ProxyError} (hRun : v.equals serve v' u = (.error (.raised e), z)) :
    v.same serve v' u = (.ok false, z) :=
  Run.bind_ok (Run.attempt_raised hRun)

theorem same_of_exhausted (hRun : v.equals serve v' u = (.error .exhausted, z)) :
    v.same serve v' u = (.error .exhausted, z) :=
  Run.bind_error (Run.attempt_exhausted hRun)

/-- Where a failure counts as a difference, the verdict is that of equality or else there was a
failure. -/
theorem same_eq_ok_iff : v.same serve v' u = (.ok b, z) ↔
    v.equals serve v' u = (.ok b, z) ∨
      b = false ∧ ∃ e, v.equals serve v' u = (.error (.raised e), z) := by
  constructor
  · intro hSame
    rcases hRun : v.equals serve v' u with ⟨(e | _) | b', t⟩
    · cases (same_of_raised hRun).symm.trans hSame
      exact .inr ⟨rfl, e, rfl⟩
    · cases (same_of_exhausted hRun).symm.trans hSame
    · cases (same_of_ok hRun).symm.trans hSame
      exact .inl rfl
  · rintro (hRun | ⟨rfl, e, hRun⟩)
    · exact same_of_ok hRun
    · exact same_of_raised hRun

/-- It is without a verdict only if equality runs out of depth. -/
theorem same_eq_error_iff {e : Stop ProxyError} : v.same serve v' u = (.error e, z) ↔
    e = .exhausted ∧ v.equals serve v' u = (.error .exhausted, z) := by
  constructor
  · intro hSame
    rcases hRun : v.equals serve v' u with ⟨(e | _) | b', t⟩
    · cases (same_of_raised hRun).symm.trans hSame
    · cases (same_of_exhausted hRun).symm.trans hSame
      exact ⟨rfl, rfl⟩
    · cases (same_of_ok hRun).symm.trans hSame
  · rintro ⟨rfl, hRun⟩
    exact same_of_exhausted hRun

/-- What is not an object equals a token if and only if it is that token. -/
theorem same_token (hv : v.object? = none) (type : Ty) :
    (v.same serve (.token type)).Answers u (v = .token type) := by
  cases v with
  | object o => cases hv
  | token other => exact ⟨other == type, rfl, by simp⟩
  | _ => exact ⟨false, rfl, by simp⟩

/-- Items that are each compared without a call are compared without one in turn. -/
theorem exists_equalItems_eq {vs : List Value}
    (hEach : ∀ v ∈ vs, ∀ u, ∃ b, ∀ (serve : Serve σ) t, v.equals serve u t = (.ok b, t))
    (us : List Value) :
    ∃ b, ∀ (serve : Serve σ) t, equalItems serve vs us t = (.ok b, t) := by
  induction vs generalizing us with
  | nil => exact ⟨true, fun _ _ => rfl⟩
  | cons v vs ih =>
      cases us with
      | nil => exact ⟨true, fun _ _ => rfl⟩
      | cons u us =>
          obtain ⟨b, hFirst⟩ := hEach v (List.mem_cons_self ..) u
          cases b with
          | false => exact ⟨false, fun serve t => Run.bind_ok (hFirst serve t)⟩
          | true =>
              obtain ⟨b, hRest⟩ := ih (fun v hv => hEach v (List.mem_cons_of_mem _ hv)) us
              exact ⟨b, fun serve t => (Run.bind_ok (hFirst serve t)).trans (hRest serve t)⟩

/-- A value without objects is compared with any value without a call: whoever would serve one, and
in every world, it is equal to it or it is not. -/
theorem Plain.exists_equals_eq (hv : v.Plain) (u : Value) :
    ∃ b, ∀ (serve : Serve σ) t, v.equals serve u t = (.ok b, t) := by
  induction hv generalizing u with
  | @atom v hAtom =>
      classical
      refine ⟨decide (u.isAtom = true ∧ v.canonical = u.canonical), fun serve t => ?_⟩
      have hAnswers : (v.equals serve u).Answers t _ := equals_atom hAtom u
      obtain ⟨b, hRun, hb⟩ := hAnswers
      rw [hRun, Bool.eq_iff_iff.mpr (hb.trans decide_eq_true_iff.symm)]
  | @array ty items _ ih =>
      cases u with
      | array ty' items' =>
          obtain ⟨b, hItems⟩ := exists_equalItems_eq ih items'
          by_cases hShape : ty = ty' ∧ items.length = items'.length
          · exact ⟨b, fun serve t => by rw [equals, if_pos hShape, hItems]⟩
          · exact ⟨false, fun serve t => by rw [equals, if_neg hShape]; rfl⟩
      | _ => exact ⟨false, fun _ _ => rfl⟩

end Value

/-- What an object is asked when something with values for the members of an annotation type is
compared with it: its annotation type, where a failure to compare it counts as a difference, and
then every member. -/
def Contract.questions (k : Contract) (serve : Serve σ) (values : Member → Value) :
    List (Question σ) :=
  ⟨.annotationType, fun v => v.same serve (.token (.ofClass k.cls))⟩ ::
    k.members.map fun m => ⟨m.accessor, (values m).equals serve⟩

namespace Contract

variable {k : Contract} {values values' : Member → Value}

theorem questions_congr (hSame : ∀ m ∈ k.members, values m = values' m) :
    k.questions serve values = k.questions serve values' := by
  rw [questions, questions, List.map_congr_left fun m hm => by rw [hSame m hm]]

/-- No judgement of an answer raises an error, if the values have no objects in them. -/
theorem judge_ne_raised (hPlain : ∀ m ∈ k.members, (values m).Plain) {q : Question σ}
    (hq : q ∈ k.questions serve values) (v : Value) (u : World σ)
    (e : ProxyError) (z : World σ) : q.judge v u ≠ (.error (.raised e), z) := by
  intro hRaised
  rw [questions, List.mem_cons, List.mem_map] at hq
  rcases hq with rfl | ⟨m, hm, rfl⟩
  · cases (Value.same_eq_error_iff.mp hRaised).1
  · obtain ⟨b, hDecided⟩ := (hPlain m hm).exists_equals_eq (σ := σ) v
    cases (hDecided serve u).symm.trans hRaised

end Contract

namespace Instance

variable {x : Instance} {p : ObjectRef}

theorem agrees_eq_askAll (ms : List Member) :
    x.agrees serve p ms =
      p.askAll serve (ms.map fun m => ⟨m.accessor, (x.valueOf m).equals serve⟩) := by
  induction ms with
  | nil => rfl
  | cons m ms ih =>
      rw [agrees, List.map_cons, ObjectRef.askAll, Question.put, bind_assoc, ih]

/-- An instance is compared with another object by putting questions to it. -/
theorem equalTo_eq_askAll {o : ObjectRef} (hOther : o.same p = false)
    (hSubtype : w.hierarchy.isSubtype p.cls .annotations = true) :
    x.equalTo serve (some o) (.object p) w =
      p.askAll serve (x.contract.questions serve x.valueOf) w := by
  have hNot : ¬ (some o : Option ObjectRef).any (fun r => r.same p) = true := by simp [hOther]
  rw [equalTo, if_neg hNot, Run.bind_ok (Run.hierarchy_apply w), if_neg (by simp [hSubtype]),
    Contract.questions, ObjectRef.askAll, Question.put, bind_assoc, agrees_eq_askAll]

end Instance

/-- Objects below the annotations determine by their answers how they compare with an instance whose
members have values without objects, unless they are that instance. -/
theorem InstanceBuilder.Built.determines {c : ClassId} {log : List (Member × Value)}
    {o p : ObjectRef} (hBuilt : Built client c log o w)
    (hPlain : ∀ m ∈ (w.hierarchy.contract c).members, (w.hierarchy.effective log m).Plain)
    (hOther : o.same p = false) (hSubtype : w.hierarchy.isSubtype p.cls .annotations = true)
    (depth : Nat) :
    p.Determines (perform client depth) ((w.hierarchy.contract c).questions
      (perform client depth) (w.hierarchy.effective log))
        (o.equals (perform client (depth + 1)) (.object p)) w := by
  obtain ⟨x, ho, hContract, hExpected⟩ := hBuilt.stands
  have hQuestions : x.contract.questions (perform client depth) x.valueOf =
      (w.hierarchy.contract c).questions (perform client depth) (w.hierarchy.effective log) := by
    rw [hContract]
    refine Contract.questions_congr fun m hm => ?_
    rw [Hierarchy.effective, hExpected m hm, Option.getD_some]
  apply ObjectRef.determines_of_askAll
  · rw [ho.equals_eq, Instance.equalTo_eq_askAll hOther hSubtype, hQuestions]
  · exact fun q hq => Contract.judge_ne_raised hPlain hq

/-- How an instance whose members have values without objects is compared with any value. With what
is not an object, and with objects that are not below the annotations, it is not equal, and with
itself it is: nobody is asked. Any other object is asked for its annotation type, and then for every
member in order. What it answers determines the outcome: they are equal if it answers all of that
as the instance would, and not if it differs in something after it has agreed so far; but if it
fails to answer after it has agreed so far, then the comparison fails with the same error.

The type that an object answers is the right one if it is the token of the type of the instance. If
it is itself an object, this is asked whether it equals the token, and does not if it fails. Whether
a value of the instance equals what an object answers, nobody is asked. -/
theorem comparison_of_plain_instances {c : ClassId} {log : List (Member × Value)} {o : ObjectRef}
    (hBuilt : InstanceBuilder.Built client c log o w)
    (hPlain : ∀ m ∈ (w.hierarchy.contract c).members, (w.hierarchy.effective log m).Plain)
    (depth : Nat) :
    (∀ v : Value, v.object? = none → o.equals (perform client (depth + 1)) v w = (.ok false, w)) ∧
    (∀ p : ObjectRef, o.same p = true →
      o.equals (perform client (depth + 1)) (.object p) w = (.ok true, w)) ∧
    (∀ p : ObjectRef, o.same p = false → w.hierarchy.isSubtype p.cls .annotations = false →
      o.equals (perform client (depth + 1)) (.object p) w = (.ok false, w)) ∧
    (∀ p : ObjectRef, o.same p = false → w.hierarchy.isSubtype p.cls .annotations = true →
      p.Determines (perform client depth) ((w.hierarchy.contract c).questions
        (perform client depth) (w.hierarchy.effective log))
          (o.equals (perform client (depth + 1)) (.object p)) w) ∧
    (∀ (v : Value) (u : World σ), v.object? = none →
      (v.same (perform client depth) (.token (.ofClass c))).Answers u
        (v = .token (.ofClass c))) ∧
    (∀ (q : ObjectRef) b u z,
      Value.same (perform client depth) (.object q) (.token (.ofClass c)) u = (.ok b, z) ↔
        q.equals (perform client depth) (.token (.ofClass c)) u = (.ok b, z) ∨ b = false ∧
          ∃ e, q.equals (perform client depth) (.token (.ofClass c)) u =
            (.error (.raised e), z)) ∧
    ∀ m ∈ (w.hierarchy.contract c).members, ∀ v : Value, ∃ b, ∀ (serve : Serve σ) u,
      (w.hierarchy.effective log m).equals serve v u = (.ok b, u) := by
  obtain ⟨x, ho, -⟩ := hBuilt.stands
  refine ⟨fun v hv => ?_, fun p hSame => ?_, fun p hOther hNot => ?_,
    fun p hOther hSubtype => hBuilt.determines hPlain hOther hSubtype depth,
    fun v u hv => Value.same_token hv (.ofClass c), fun q b u z => Value.same_eq_ok_iff,
    fun m hm => (hPlain m hm).exists_equals_eq⟩
  · rw [ho.equals_eq]
    cases v with
    | object p => cases hv
    | _ => rfl
  · rw [ho.equals_eq, Instance.equalTo, if_pos (by simp [hSame])]
    rfl
  · rw [ho.equals_eq, Instance.equalTo, if_neg (by simp [hOther]),
      Run.bind_ok (Run.hierarchy_apply w), if_pos (by simp [hNot])]
    rfl

section Silence

variable {v : World Stub.Stage}

/-- An object of the type of limits that is about to be made. -/
def silentLimit (v : World Stub.Stage) : ObjectRef := ⟨v.objects.size, ⟨3⟩⟩

/-- The world with it. It is an object of the client, which has no answers for it. -/
def silentWorld (v : World Stub.Stage) : World Stub.Stage :=
  (v.allocate ⟨3⟩ (.native ⟨v.client.parts.size⟩)).2

theorem leads_silentWorld (v : World Stub.Stage) :
    World.Leads Stub.client v (silentWorld v) :=
  World.Leads.refl.step (.command (.newNative (τ := ProxyError) ⟨3⟩ ⟨v.client.parts.size⟩))

theorem run_native_of_none {serve : Serve Stub.Stage} {hook : Hook}
    (hPart : v.client.parts[hook.id]? = none) (i : Invocation) :
    (Stub.client.native hook i).run serve v = (.error (.raised (.unhandled i)), v) := by
  show Script.run serve ((Stub.part? hook).bind _) v = _
  rw [Stub.part?, Script.bind, Script.run, Run.bind_ok (Run.get_apply v), hPart]
  rfl

theorem perform_silentLimit (v : World Stub.Stage) (depth : Nat) (i : Invocation) :
    perform Stub.client (depth + 1) (.ask (silentLimit v) i) (silentWorld v) =
      (.error (.raised (.unhandled i)), silentWorld v) := by
  have hObject : (silentWorld v).object? (silentLimit v) = some (.native ⟨v.client.parts.size⟩) :=
    Array.getElem?_push_size
  have hPart : (silentWorld v).client.parts[v.client.parts.size]? = none :=
    Array.getElem?_eq_none (Nat.le_refl v.client.parts.size)
  show (silentLimit v).answer Stub.client (perform Stub.client depth) i (silentWorld v) = _
  rw [ObjectRef.answer, Run.bind_ok (Run.get_apply _), hObject]
  exact run_native_of_none hPart i

theorem isSubtype_silentLimit (hLeads : World.Leads Stub.client frameWorld v) :
    (silentWorld v).hierarchy.isSubtype (silentLimit v).cls .annotations = true := by
  have hGrows := (hLeads.growsTo reachable_frameWorld.sound).hierarchy
  apply Hierarchy.isSubtype_annotations
  show v.hierarchy.isAnnotationType ⟨3⟩ = true
  rw [hGrows.isAnnotationType_eq (by decide)]
  decide

theorem invoke_silentLimit (hLeads : World.Leads Stub.client frameWorld v) (depth : Nat) :
    (silentLimit v).invoke (perform Stub.client (depth + 1)) .annotationType [] (silentWorld v) =
      (.error (.raised (.unhandled ⟨.annotationType, some (silentLimit v), []⟩)),
        silentWorld v) := by
  rw [ObjectRef.invoke_annotationType (isSubtype_silentLimit hLeads)]
  exact perform_silentLimit v depth _

theorem plain_limit (hLeads : World.Leads Stub.client frameWorld v) {m : Member}
    (hm : m ∈ (v.hierarchy.contract ⟨3⟩).members) : (v.hierarchy.effective briefLog m).Plain := by
  obtain ⟨n, hn, _⟩ := expected_limit hLeads hm
  rw [Hierarchy.effective, hn]
  exact .atom rfl

/-- A limit is built, and beside it is an object of its type that is silent. -/
theorem exists_limit_beside_silence : ∃ o v, World.Leads Stub.client frameWorld v ∧
    InstanceBuilder.Built Stub.client ⟨3⟩ briefLog o (silentWorld v) ∧
      o.same (silentLimit v) = false := by
  obtain ⟨o, v, _, hBuilt, hLeads⟩ := filled_brief.exists_built (by decide +kernel)
  refine ⟨o, v, hLeads, hBuilt.later (leads_silentWorld v), ?_⟩
  obtain ⟨x, ⟨made, hObject⟩, _⟩ := hBuilt.stands
  have hBelow : o.id < v.objects.size := (Array.getElem?_eq_some_iff.mp hObject).1
  exact beq_eq_false_iff_ne.mpr (Nat.ne_of_lt hBelow)

end Silence

/-- A limit equals itself and does not equal null. Compared with an object that is silent it fails
as that does. -/
theorem comparison_of_limit : ∃ o v,
    InstanceBuilder.Built Stub.client ⟨3⟩ briefLog o (silentWorld v) ∧
    o.equals (perform Stub.client 2) .null (silentWorld v) = (.ok false, silentWorld v) ∧
    o.equals (perform Stub.client 2) (.object o) (silentWorld v) = (.ok true, silentWorld v) ∧
    o.equals (perform Stub.client 2) (.object (silentLimit v)) (silentWorld v) =
      (.error (.raised (.unhandled ⟨.annotationType, some (silentLimit v), []⟩)),
        silentWorld v) := by
  obtain ⟨o, v, hLeads, hBuilt, hOther⟩ := exists_limit_beside_silence
  obtain ⟨hValue, hSelf, -, hObject, -⟩ :=
    comparison_of_plain_instances hBuilt (fun m hm => plain_limit hLeads hm) 1
  have hLimit := hObject (silentLimit v) hOther (isSubtype_silentLimit hLeads)
  refine ⟨o, v, hBuilt, hValue .null rfl, hSelf o (beq_self_eq_true _), ?_⟩
  refine (hLimit.failed _ _).mpr ⟨_, _, ⟨[], _, rfl, .nil _⟩, ?_⟩
  exact invoke_silentLimit hLeads 0

/-- A limit whose members have values without objects is compared with an object of its own type,
and gets no answer, not even that the two are different. -/
theorem comparison_not_total : ∃ o v,
    InstanceBuilder.Built Stub.client ⟨3⟩ briefLog o (silentWorld v) ∧
    (∀ m ∈ ((silentWorld v).hierarchy.contract ⟨3⟩).members,
      ((silentWorld v).hierarchy.effective briefLog m).Plain) ∧
    ∀ depth, o.equals (perform Stub.client (depth + 2)) (.object (silentLimit v)) (silentWorld v) =
      (.error (.raised (.unhandled ⟨.annotationType, some (silentLimit v), []⟩)),
        silentWorld v) := by
  obtain ⟨o, v, hLeads, hBuilt, hOther⟩ := exists_limit_beside_silence
  have hPlain : ∀ m ∈ ((silentWorld v).hierarchy.contract ⟨3⟩).members,
      ((silentWorld v).hierarchy.effective briefLog m).Plain := fun m hm => plain_limit hLeads hm
  refine ⟨o, v, hBuilt, hPlain, fun depth => ?_⟩
  have hLimit := hBuilt.determines hPlain hOther (isSubtype_silentLimit hLeads) (depth + 1)
  refine (hLimit.failed _ _).mpr ⟨_, _, ⟨[], _, rfl, .nil _⟩, ?_⟩
  exact invoke_silentLimit hLeads depth

end Metaobject
