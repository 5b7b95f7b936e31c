import Metaobject.Proofs.Instance.Start

/-!
Keeping does not show. An instance that keeps its hash or its text answers as one does that computes
them anew each time, as long as they always come to the same. A hash that could not be computed is
not kept. Comparing instances is never kept, and may tell how often hashes have been computed.
-/
namespace Metaobject

variable {ε σ α β : Type} {client : Client σ} {u v w start : World σ} {o : ObjectRef}
  {x : Instance} {b : InstanceBuilder}

namespace Run

variable {y : Run ε σ α}

/-- What follows may depend on the world only in what it does to it. -/
theorem bind_fst {f : α → Run ε σ β} {r : α → Except (Stop ε) β} (hf : ∀ a z, (f a z).1 = r a) :
    ((y >>= f) w).1 = (y w).1.bind r := by
  rcases hy : y w with ⟨e | a, z⟩
  · rw [bind_error hy]
    rfl
  · rw [bind_ok hy]
    exact hf a z

theorem map_fst (f : α → β) :
    ((y >>= fun a => pure (f a)) w).1 = (y w).1.map f := by
  rcases hy : y w with ⟨e | a, z⟩
  · rw [bind_error hy]
    rfl
  · rw [bind_ok hy]
    rfl

end Run

/-- What a use makes of the answer of an instance. -/
def Use.outcome (use : Use) (i : Invocation) : Answer → Except (Stop ProxyError) Value
  | some a => (use.result a).mapError .raised
  | none => .error (.raised (.unhandled i))

theorem Use.eq_of_result_hashCode {a v : Value} (hResult : Use.hashCode.result a = .ok v) :
    a = v := by
  cases a <;> cases hResult
  rfl

/-- What comes of a use is made of the answer of the instance that the object stands for. -/
theorem World.Stands.use_fst (ho : w.Stands o x) (use : Use) (i : Invocation) (serve : Serve σ) :
    (((Request.ask o i).serveBy client serve >>= fun a => Run.ofExcept id (use.result a)) w).1 =
      (x.answer serve i w).1.bind (use.outcome i) := by
  rw [Run.bind_congr_apply (ho.serveBy_apply client serve i), bind_assoc]
  refine Run.bind_fst fun answer z => ?_
  cases answer with
  | none => rfl
  | some a =>
      rw [pure_bind, Use.outcome]
      cases use.result a <;> rfl

theorem Run.error_of_map {y : Run ε σ α} {f : α → β} {e : Stop ε}
    (hRun : (y >>= fun a => pure (f a)) w = (.error e, v)) : y w = (.error e, v) := by
  rcases hy : y w with ⟨d | a, z⟩
  · cases (bind_error hy).symm.trans hRun
    rfl
  · cases (bind_ok hy).symm.trans hRun

/-- What is kept and what is computed anew are the same, if what is computed is always the same.
Here an instance is asked under watch, and nothing is kept while it computes what it gives. -/
theorem Recall.give_fst {k : Recall σ β} {serve serve' : Serve σ}
    {r : Except (Stop ProxyError) β} (hw : k.Guards o x (fun b => r = .ok b) w)
    (hCompute : (k.compute x serve w).1 = r)
    (hSame : ∀ e v, k.give x serve w = (.error e, v) → k.give x serve' w = (.error e, v))
    (hStill : k.Empty x w → k.Empty x (k.compute x serve' w).2) :
    (k.give x serve w).1 = r := by
  by_cases hEmpty : k.Empty x w
  · rcases hRun : k.compute x serve w with ⟨e | b, z⟩ <;> rw [hRun] at hCompute
    · rw [give_of_error hEmpty hRun]
      exact hCompute
    · by_cases hAfter : k.Empty x z
      · rw [give_of_ok hEmpty hRun hAfter]
        exact hCompute
      · -- then nothing would have been given at all, and the cell would have been filled
        rw [Recall.Empty] at hAfter
        simp only [not_forall] at hAfter
        obtain ⟨c, hCell, hSome⟩ := hAfter
        obtain ⟨d, hRead⟩ := Option.ne_none_iff_exists'.mp hSome
        have hEnd := hSame _ _ (give_of_kept hCell hEmpty hRun hRead)
        rcases hRun' : k.compute x serve' w with ⟨e | a, t⟩ <;> rw [hRun'] at hStill
        · cases (give_of_error hEmpty hRun').symm.trans hEnd
          cases (hStill hEmpty c hCell).symm.trans hRead
        · cases (give_of_ok hEmpty hRun' (hStill hEmpty)).symm.trans hEnd
  · rw [Recall.Empty] at hEmpty
    simp only [not_forall] at hEmpty
    obtain ⟨c, hCell, hSome⟩ := hEmpty
    obtain ⟨b, hRead⟩ := Option.ne_none_iff_exists'.mp hSome
    rw [give_of_some hCell hRead]
    exact (hw.kept c b hCell hRead).symm

/-- If a use comes to the same however the requests of the instance are served, a failure to give
something does. -/
theorem World.Stands.give_error {k : Recall σ β} (hk : k.Lawful) (ho : w.Stands o x) {use : Use}
    {i : Invocation} (hUse : use.invocation w o = .ok i) (hMethod : i.method = k.method)
    {serve serve' : Serve σ}
    (hSame : ((Request.ask o i).serveBy client serve >>= fun a =>
        Run.ofExcept id (use.result a)) w =
      ((Request.ask o i).serveBy client serve' >>= fun a => Run.ofExcept id (use.result a)) w)
    {e : Stop ProxyError} (hGive : k.give x serve w = (.error e, v)) :
    k.give x serve' w = (.error e, v) := by
  rw [ho.use_recall hk hUse hMethod, ho.use_recall hk hUse hMethod, Run.bind_error hGive] at hSame
  exact Run.error_of_map hSame.symm

/-- When the instance is asked for its hash, computing it fails. -/
def HashFails (x : Instance) : Condition σ := fun serve i w =>
  i.method = .hashCode → ∃ e, (x.computeHash serve w).1 = .error e

/-- When the instance is asked for its hash or its text, computing that does not ask its object for
the same in turn. -/
structure Instance.Direct (client : Client σ) (o : ObjectRef) (x : Instance) (i : Invocation)
    (depth : Nat) (w : World σ) : Prop where
  hash : i.method = .hashCode → Recall.hash.Direct client o x depth w
  text : i.method = .toText → Recall.text.Direct client o x depth w

/-- From a world on, the first answer to a method is the answer to it ever after. It may be given in
the midst of other calls: whatever happens, be it within client code, comes after what has happened,
and an answer is the same wherever it comes after the first. -/
structure World.KeepsFirst (client : Client σ) (o : ObjectRef) (m : MethodRef) (start : World σ) :
    Prop where
  first : ∀ v, start.Precedes v → ∀ depth i a z, i.method = m →
    perform client (depth + 1) (.ask o i) v = (.ok a, z) →
      v.Precedes z ∧ Recalls client o m a z
  within : ∀ u v, start.Precedes u → u.Precedes v → ∀ {τ : Type} (s : Script σ τ) depth,
    Meets client o (fun _ _ w => u.Precedes w) (fun serve => s.run serve) depth v ∧
      u.Precedes (s.run (perform client depth) v).2
  leads : ∀ u, Leads client start u → ∀ v, Leads client u v → start.Precedes u ∧ u.Precedes v

/-- What the hash and the text of an instance always come to, when they are computed anew. -/
structure Constancy where
  hash : Except (Stop ProxyError) Int32
  text : Except (Stop ProxyError) String

namespace Constancy

variable (K : Constancy)

/-- When the instance is asked for its hash or its text, computing it comes to what it always does,
a failure included. -/
def Holds (x : Instance) : Condition σ := fun serve i w =>
  (i.method = .hashCode → (x.computeHash serve w).1 = K.hash) ∧
    (i.method = .toText → (x.computeText serve w).1 = K.text)

/-- What an instance answers then, by what comparing it comes to. -/
def reply (b : InstanceBuilder) (compared : Except (Stop ProxyError) Bool) (i : Invocation) :
    Except (Stop ProxyError) Answer :=
  if i.method = .equals then compared.map fun same => some (.boolean same)
  else if i.method = .hashCode then K.hash.map fun n => some (.int n)
  else if i.method = .toText then K.text.map fun s => some (.string s)
  else if i.method = .annotationType then .ok (some (.token (.ofClass b.contract.cls)))
  else .ok ((b.contract.memberFor? i.method).map b.bare.valueOf)

end Constancy

/-- What comparing an instance comes to, as an invocation asks for it. -/
def Instance.comparison (x : Instance) (serve : Serve σ) (i : Invocation) (w : World σ) :
    Except (Stop ProxyError) Bool :=
  (x.equalTo serve i.receiver? (i.arguments.head?.getD .null) w).1

namespace InstanceBuilder.Starts

variable {K : Constancy} {P : Int32 → Prop} {Q : String → Prop}

/-- What is kept of a watched instance is what is always computed. -/
theorem guards_of_observed (hx : b.Starts u o x start)
    (hObserved : Observed client o (K.Holds b.bare) start w) :
    World.Guards o x (fun n => K.hash = .ok n) (fun t => K.text = .ok t) w := by
  refine hObserved.guards (hx.guards _ _) fun serve i w hHolds => ⟨?_, ?_⟩
  · intro hMethod n v hRun
    rw [← hHolds.1 hMethod, ← hx.computeHash_eq, hRun]
  · intro hMethod t v hRun
    rw [← hHolds.2 hMethod, ← hx.computeText_eq, hRun]

/-- Computing directly leaves the cells of the instance empty. -/
theorem still_empty (hx : b.Starts u o x start) (hw : World.Guards o x P Q w) {i : Invocation}
    {depth : Nat} (hDirect : b.bare.Direct client o i depth w) :
    (i.method = .hashCode → Recall.hash.Empty x w →
      Recall.hash.Empty x (x.computeHash (perform client depth) w).2) ∧
    (i.method = .toText → Recall.text.Empty x w →
      Recall.text.Empty x (x.computeText (perform client depth) w).2) := by
  refine ⟨fun hMethod hEmpty => hw.empty_hash hEmpty fun alarm => ?_, fun hMethod hEmpty =>
    hw.empty_text hEmpty fun alarm => ?_⟩
  · exact (congrFun hx.computeHash_eq w).trans
      ((hDirect.hash hMethod alarm).trans (congrFun hx.computeHash_eq w).symm)
  · exact (congrFun hx.computeText_eq w).trans
      ((hDirect.text hMethod alarm).trans (congrFun hx.computeText_eq w).symm)

/-- The answer of a watched instance does not depend on what it keeps. -/
theorem use_fst (hx : b.Starts u o x start) (hObserved : Observed client o (K.Holds b.bare) start w)
    {use : Use} {depth : Nat} {i : Invocation}
    (hMeets : Meets client o (K.Holds b.bare) (fun serve => use.run serve o) (depth + 1) w)
    (hUse : use.invocation w o = .ok i) (hDirect : b.bare.Direct client o i depth w) :
    (use.run (perform client (depth + 1)) o w).1 =
      (K.reply b (b.bare.comparison (perform client depth) i w) i).bind (use.outcome i) := by
  have hw := hx.guards_of_observed hObserved
  have hPerform : use.run (perform client (depth + 1)) o w =
      ((Request.ask o i).serveBy client (perform client depth) >>= fun a =>
        Run.ofExcept id (use.result a)) w := by
    rw [use.run_apply, hUse]
    rfl
  obtain ⟨serve, ⟨hHash, hText⟩, hWatch⟩ := hMeets.of_use hUse
  have hSame := hWatch.symm.trans hPerform
  obtain ⟨hStillHash, hStillText⟩ := hx.still_empty hw hDirect
  rw [Constancy.reply]
  split
  · next hMethod =>
      rw [hPerform, hw.stands.use_fst, Instance.answer, if_pos hMethod]
      rw [Run.map_fst, hx.equalTo_eq]
      rfl
  · split
    · next hMethod =>
        rw [hWatch, hw.stands.use_fst, Recall.lawful_hash.answer x serve i hMethod, Run.map_fst,
          Recall.give_fst hw.hash ?_
            (fun _ _ => hw.stands.give_error Recall.lawful_hash hUse hMethod hSame)
            (hStillHash hMethod)]
        · rfl
        · exact (congrArg Prod.fst (congrFun hx.computeHash_eq w)).trans (hHash hMethod)
    · split
      · next hMethod =>
          rw [hWatch, hw.stands.use_fst, Recall.lawful_text.answer x serve i hMethod, Run.map_fst,
            Recall.give_fst hw.text ?_
              (fun _ _ => hw.stands.give_error Recall.lawful_text hUse hMethod hSame)
              (hStillText hMethod)]
          · rfl
          · exact (congrArg Prod.fst (congrFun hx.computeText_eq w)).trans (hText hMethod)
      · next hEquals hHash hText =>
          rw [hPerform, hw.stands.use_fst, Instance.answer, if_neg hEquals, if_neg hHash,
            if_neg hText, hx.contract, hx.valueOf_eq]
          split <;> rfl

/-- The methods that calls by name invoke depend only on the classes declared. -/
theorem resolveMethod?_eq (hx : b.Starts u o x start) (hLeads : World.Leads client start w)
    (name : String) (arity : Nat) :
    w.resolveMethod? o name arity =
      Table.find? (ProxyClass.tableOf w.hierarchy [b.contract.cls]) (name, arity) := by
  obtain ⟨made, hObject, -, hImplements⟩ := hx.object
  have hGrows := hLeads.growsTo hx.sound
  rw [World.resolveMethod?, hGrows.object? hObject, ← (hImplements.mono hGrows.hierarchy).table]

/-- Under any choices of what instances keep, watched instances answer alike. -/
theorem answers_alike {u' start' : World σ} {y : Instance}
    (hx : b.Starts u o x start) (hy : b.Starts u' o y start')
    (hv : Observed client o (K.Holds b.bare) start v)
    (hw : Observed client o (K.Holds b.bare) start' w) (hSame : v.hierarchy = w.hierarchy)
    {use : Use} {depth depth' : Nat}
    (hMeets : Meets client o (K.Holds b.bare) (fun serve => use.run serve o) (depth + 1) v)
    (hMeets' : Meets client o (K.Holds b.bare) (fun serve => use.run serve o) (depth' + 1) w)
    (hDirect : ∀ i, use.invocation v o = .ok i →
      b.bare.Direct client o i depth v ∧ b.bare.Direct client o i depth' w)
    (hCompare : ∀ i, use.invocation v o = .ok i → i.method = .equals →
      b.bare.comparison (perform client depth) i v =
        b.bare.comparison (perform client depth') i w) :
    (use.run (perform client (depth + 1)) o v).1 =
      (use.run (perform client (depth' + 1)) o w).1 := by
  have hInvocation : use.invocation v o = use.invocation w o := by
    refine Use.invocation_congr hSame (fun name arity => ?_) use
    rw [hx.resolveMethod?_eq hv.leads, hy.resolveMethod?_eq hw.leads, hSame]
  cases hUse : use.invocation v o with
  | error e =>
      have hUse' := hInvocation.symm.trans hUse
      rw [use.run_apply, hUse, use.run_apply, hUse']
  | ok i =>
      obtain ⟨hDirect, hDirect'⟩ := hDirect i hUse
      rw [hx.use_fst hv hMeets hUse hDirect,
        hy.use_fst hw hMeets' (hInvocation.symm.trans hUse) hDirect']
      congr 1
      -- only the answer to equality depends on what comparing comes to
      rw [Constancy.reply, Constancy.reply]
      split
      · next hMethod => rw [hCompare i hUse hMethod]
      · rfl

/-- As long as computing the hash has failed whenever the instance was asked for it, it is computed
anew. A failure is passed on, and the world is left as computing left it. -/
theorem hash_anew (hx : b.Starts u o x start)
    (hObserved : Observed client o (HashFails b.bare) start w) {use : Use} {depth : Nat}
    {i : Invocation} (hUse : use.invocation w o = .ok i) (hMethod : i.method = .hashCode) :
    (∀ e v, b.bare.computeHash (perform client depth) w = (.error e, v) →
      use.run (perform client (depth + 1)) o w = (.error e, v)) ∧
    (b.bare.Direct client o i depth w →
      ∀ n v, b.bare.computeHash (perform client depth) w = (.ok n, v) →
        (use.run (perform client (depth + 1)) o w).1 = .ok (.int n)) := by
  have hw : World.Guards o x (fun _ => False) (fun _ => True) w := by
    refine hObserved.guards (hx.guards _ _) fun serve i w hFails =>
      ⟨?_, fun _ _ _ _ => trivial⟩
    intro hMethod n v hRun
    obtain ⟨e, hError⟩ := hFails hMethod
    rw [← hx.computeHash_eq, hRun] at hError
    cases hError
  have hEmpty := hw.hash.empty
  have hPerform : use.run (perform client (depth + 1)) o w =
      (Recall.hash.give x (perform client depth) >>= fun n => pure (.int n)) w := by
    rw [use.run_apply, hUse]
    exact hw.stands.use_recall Recall.lawful_hash hUse hMethod (perform client depth)
  rw [hPerform, ← hx.computeHash_eq]
  refine ⟨fun e v hRun => Run.bind_error (Recall.give_of_error hEmpty hRun),
    fun hDirect n v hRun => ?_⟩
  have hStill := (hx.still_empty hw hDirect).1 hMethod hEmpty
  rw [hRun] at hStill
  rw [Run.bind_ok (Recall.give_of_ok hEmpty hRun hStill)]
  rfl

/-- What an instance with a cell has given once it gives ever after. -/
theorem keepsFirst {k : Recall σ β} (hk : k.Lawful) (hx : b.Starts u o x start)
    (hSome : (k.cell? x).isSome = true)
    (hHeld : ∀ c, k.cell? x = some c → (k.store start).Holds c) :
    start.KeepsFirst client o k.method where
  first v hBefore depth i a z hMethod hAsk := by
    obtain ⟨c, hCell⟩ := Option.isSome_iff_exists.mp hSome
    have ho : v.Stands o x := (hx.guards (fun _ => True) fun _ => True).stands.mono hBefore.growsTo
    have hHere := (hk.retains _ _ hBefore.remembers).held c (hHeld c hCell)
    have hSound : v.Sound := hBefore.sound hx.sound
    have hAfter : v.Precedes z := by
      simpa only [hAsk] using
        (World.preserves_course client).perform (depth + 1) (.ask o i) v hSound
    exact ⟨hAfter, ho.recalls hk hSound hCell hHere hMethod hAsk hAfter⟩
  within u v hu hv _ s depth := hv.run (hu.sound hx.sound) s depth
  leads u hFirst v hSecond :=
    ⟨hFirst.preserves hx.sound, hSecond.preserves (hFirst.evolves hx.sound).2⟩

end InstanceBuilder.Starts

section Parts

/-- How a part of some kind has a hash the first time: always the same, or none yet, or the same
after it has asked the badge that it is part of. -/
def firstHash (hook : Hook) : Script Nat Value :=
  if hook = ⟨0⟩ then .done (.int 5)
  else if hook = ⟨1⟩ then Script.failText "not yet"
  else .invokeMethod ⟨1, ⟨5⟩⟩ .hashCode [] fun _ => .done (.int 5)

/-- A client of parts, with a count of how often they have been asked for a hash. What a part equals
depends on the count. -/
def partClient : Client Nat where
  body _ _ _ := Script.failText "no body"
  native hook i :=
    if i.method = .hashCode then
      .read fun n => .write (n + 1) (if n = 0 then firstHash hook else .done (.int 5))
    else if i.method = .toText then .done (.string "p")
    else .read fun n => .done (.boolean (n == 2))
  handler _ _ := .done none
  initializer _ := Script.failText "no object"

/-- A class of parts. -/
def partType : ClassBuilder :=
  ClassBuilder.empty .concrete "part"

/-- An annotation type with a part for its member. -/
def badgeType : ClassBuilder :=
  (ClassBuilder.empty .annotationType "badge").method { name := "part", result := .ofClass ⟨3⟩ }

/-- Both have been declared. -/
def badgeTypes : World Nat :=
  (badgeType.declare (ε := ProxyError)
    ((partType.declare (ε := ProxyError) { client := 0 }).2)).2

/-- The only part. -/
def onlyPart : ObjectRef :=
  ⟨0, ⟨3⟩⟩

/-- The part has been made, of some kind. -/
def partMade (hook : Hook) : World Nat :=
  ((Run.newObject ⟨3⟩ (.native hook) : Run ProxyError Nat ObjectRef) badgeTypes).2

/-- Settings have been chosen, too. -/
def partWorld (hook : Hook) (s : Settings) : World Nat :=
  { partMade hook with settings? := some s }

/-- A builder of badges with this part. -/
def badgeBuilder : InstanceBuilder :=
  ⟨badgeTypes.hierarchy.contract ⟨4⟩, [("part", .object onlyPart)]⟩

/-- Two badges are built. The first is asked for its hash twice, and whether it equals the other. -/
def hashTwiceAndCompare : Run InstanceError Nat (Int32 × Int32 × Bool) := do
  let o ← badgeBuilder.build
  let p ← badgeBuilder.build
  let serve := perform partClient 4
  Run.mapError .proxy do
    return (← o.hashCode serve, ← o.hashCode serve, ← o.equals serve (.object p))

/-- A badge is built and asked for its hash. -/
def hashOnce : Run InstanceError Nat Int32 := do
  let o ← badgeBuilder.build
  Run.mapError .proxy (o.hashCode (perform partClient 6))

variable {w : World Nat} {serve : Serve Nat} {hook : Hook} {o : ObjectRef}

/-- Where the part is asked, it answers as native objects do. -/
def ServesPart (serve : Serve Nat) (w : World Nat) : Prop :=
  ∃ inner, ∀ i, serve (.ask onlyPart i) w = (Request.ask onlyPart i).serveBy partClient inner w

theorem servesPart_perform (depth : Nat) (w : World Nat) :
    ServesPart (perform partClient (depth + 1)) w :=
  ⟨_, fun _ => rfl⟩

theorem servesPart_watch {C : Condition Nat} (hOther : onlyPart.id ≠ o.id)
    (alarm : Run ProxyError Nat Value) (depth : Nat) (w : World Nat) :
    ServesPart (watch partClient o C alarm (depth + 1)) w :=
  ⟨_, watch_elsewhere hOther depth⟩

theorem ServesPart.exists_run (hServe : ServesPart serve w)
    (hPart : w.object? onlyPart = some (.native hook)) :
    ∃ inner, ∀ i, serve (.ask onlyPart i) w = (partClient.native hook i).run inner w := by
  obtain ⟨inner, hInner⟩ := hServe
  refine ⟨inner, fun i => ?_⟩
  rw [hInner, Request.serveBy, ObjectRef.answer, Run.bind_ok (Run.get_apply w), hPart]

/-- A part that has no hash yet. -/
def notYet : Stop ProxyError :=
  .raised (.failed (.text "not yet"))

/-- What hashing a part comes to that asks for nothing. -/
theorem hashCode_part (hServe : ServesPart serve w)
    (hPart : w.object? onlyPart = some (.native hook)) (hHook : hook = ⟨0⟩ ∨ hook = ⟨1⟩) :
    onlyPart.hashCode serve w =
      (if w.client = 0 ∧ hook = ⟨1⟩ then .error notYet else .ok 5,
        { w with client := w.client + 1 }) := by
  obtain ⟨inner, hRun⟩ := hServe.exists_run hPart
  have hScript : (partClient.native hook ⟨.hashCode, some onlyPart, []⟩).run inner w =
      (if w.client = 0 then firstHash hook else .done (.int 5) :
        Script Nat Value).run inner { w with client := w.client + 1 } := rfl
  have hInvoke := (onlyPart.invoke_hashCode w).trans ((hRun _).trans hScript)
  rw [ObjectRef.hashCode, Run.bind_congr_apply hInvoke]
  by_cases hFirst : w.client = 0
  · obtain rfl | rfl := hHook <;> simp only [hFirst] <;> rfl
  · simp only [hFirst]
    rfl

theorem toText_part (hServe : ServesPart serve w)
    (hPart : w.object? onlyPart = some (.native hook)) :
    onlyPart.toText serve w = (.ok "p", w) := by
  obtain ⟨inner, hRun⟩ := hServe.exists_run hPart
  have hInvoke := (onlyPart.invoke_toText w).trans (hRun _)
  rw [ObjectRef.toText, Run.bind_congr_apply hInvoke]
  rfl

theorem values_badge : badgeBuilder.bare.values = [("part", .object onlyPart)] := by
  have hAccessors : badgeTypes.hierarchy.accessors ⟨4⟩ = [⟨⟨4⟩, 0⟩] := by decide +kernel
  rw [Instance.values, InstanceBuilder.bare, badgeBuilder, Hierarchy.contract, hAccessors]
  rfl

/-- What the hash of a badge comes to is made of what the part answers. -/
theorem computeHash_badge (hServe : ServesPart serve w)
    (hPart : w.object? onlyPart = some (.native ⟨1⟩)) :
    badgeBuilder.bare.computeHash serve w =
      (if w.client = 0 then .error notYet else .ok (0 + memberShare "part" 5),
        { w with client := w.client + 1 }) := by
  have hHash : badgeBuilder.bare.computeHash serve w =
      (onlyPart.hashCode serve >>= fun n => pure (0 + memberShare "part" n)) w := by
    rw [Instance.computeHash, values_badge]
    rfl
  rw [hHash, Run.bind_congr_apply (hashCode_part hServe hPart (.inr rfl))]
  simp only [and_true]
  split <;> rfl

theorem properlyReached_partMade (hook : Hook) :
    World.ProperlyReached partClient (partMade hook) :=
  ⟨0, ((World.ProperlyLeads.refl.step (.command (.declare partType))).step
    (.command (.declare badgeType))).step (.command (.newNative ⟨3⟩ hook))⟩

/-- Where there are badges one can be built. -/
theorem exists_badge (hSound : w.Sound) (hGrows : badgeTypes.hierarchy.GrowsTo w.hierarchy) :
    ∃ o x v, badgeBuilder.build w = (.ok o, v) ∧ badgeBuilder.Yields w o x v := by
  have hKind : w.hierarchy.isAnnotationType ⟨4⟩ = true := by
    rw [hGrows.isAnnotationType_eq (by decide)]
    decide
  obtain ⟨_, _, _, _, hBuild, -⟩ := InstanceBuilder.build_ok (b := badgeBuilder) hSound
    (Hierarchy.isInterface_of_isAnnotationType hKind) (by decide +kernel)
  obtain ⟨x, hYields⟩ := badgeBuilder.yields_of_build hSound hBuild
  exact ⟨_, x, _, hBuild, hYields⟩

/-- The world of a new badge whose part has no hash yet. -/
structure NewBadge (s : Settings) (o : ObjectRef) (w : World Nat) : Prop where
  build : badgeBuilder.build (partWorld ⟨1⟩ s) = (.ok o, w)
  starts : ∃ x, badgeBuilder.Starts (partWorld ⟨1⟩ s) o x w
  part : w.object? onlyPart = some (.native ⟨1⟩)
  other : onlyPart.id ≠ o.id
  client : w.client = 0

theorem exists_newBadge (s : Settings) : ∃ o w, NewBadge s o w := by
  have hTidy : (partWorld ⟨1⟩ s).Tidy :=
    (properlyReached_partMade ⟨1⟩).tidy.of_eq rfl rfl rfl rfl rfl
  obtain ⟨o, _, w, hBuild, _⟩ := exists_badge hTidy.sound (.refl _)
  obtain ⟨x, hx⟩ := badgeBuilder.starts_of_build hTidy hBuild
  have hPart : w.object? onlyPart = some (.native ⟨1⟩) := hx.growsTo.object? rfl
  refine ⟨o, w, hBuild, ⟨x, hx⟩, hPart, fun hSame => ?_, hx.client⟩
  obtain ⟨made, hObject, -⟩ := hx.object
  rw [World.object?, ← hSame] at hObject
  cases hPart.symm.trans hObject

namespace NewBadge

variable {s : Settings}

theorem computeHash_apply (hw : NewBadge s o w) (hServe : ServesPart serve w) :
    badgeBuilder.bare.computeHash serve w = (.error notYet, { w with client := w.client + 1 }) := by
  rw [computeHash_badge hServe hw.part, if_pos hw.client]

/-- A new badge is asked for its hash under watch. -/
theorem meets (hw : NewBadge s o w) {C : Condition Nat} (depth : Nat)
    (hMet : ∀ serve, (badgeBuilder.bare.computeHash serve w).1 = .error notYet →
      C serve ⟨.hashCode, some o, []⟩ w) :
    Meets partClient o C (fun serve => Use.hashCode.run serve o) (depth + 2) w := by
  obtain ⟨x, hx⟩ := hw.starts
  have hComputed (alarm : Run ProxyError Nat Value) :=
    hw.computeHash_apply (servesPart_watch (C := C) hw.other alarm depth w)
  refine .of_computeHash (hx.guards (fun _ => True) fun _ => True).stands
    (fun alarm => hMet _ (congrArg Prod.fst (hComputed alarm))) fun alarm => ?_
  rw [hx.computeHash_eq, hx.computeHash_eq, hComputed,
    hw.computeHash_apply (servesPart_perform depth w)]

theorem direct (hw : NewBadge s o w) (depth : Nat) :
    badgeBuilder.bare.Direct partClient o ⟨.hashCode, some o, []⟩ (depth + 1) w where
  hash _ alarm := (hw.computeHash_apply (servesPart_watch hw.other alarm depth w)).trans
    (hw.computeHash_apply (servesPart_perform depth w)).symm
  text h := by cases h

end NewBadge

end Parts

end Metaobject
