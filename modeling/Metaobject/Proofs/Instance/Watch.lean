import Metaobject.Proofs.Instance.Guarding

/-!
Instances under watch. A condition is put on the moments at which an object is asked for something,
however deep in other calls. That it is met at each of them shows in that an alarm, raised wherever
it is not, would go unnoticed. While the object of an instance is watched so, its cells hold only
what the condition lets them be filled with.
-/
namespace Metaobject

variable {ε σ α β : Type} {client : Client σ} {u v w : World σ} {o : ObjectRef} {x y : Instance}

/-- A condition on the moments at which an object is asked: how the requests are served that it
makes in turn, what it is asked for, and the world. -/
abbrev Condition (σ : Type) := Serve σ → Invocation → World σ → Prop

open Classical in
/-- Serve requests as `perform` does, with an alarm where an object is asked while a condition is
not met. -/
noncomputable def watch (client : Client σ) (o : ObjectRef) (P : Condition σ)
    (alarm : Run ProxyError σ Value) : Nat → Serve σ :=
  performApart client (Request.Asks o) fun serve r w =>
    if ∀ p i, r = .ask p i → P serve i w then r.serveBy client serve w else alarm w

/-- In a computation, a condition is met whenever an object is asked. -/
def Meets (client : Client σ) (o : ObjectRef) (P : Condition σ) (x : Serve σ → Run ProxyError σ α)
    (depth : Nat) (w : World σ) : Prop :=
  ∀ alarm, x (watch client o P alarm depth) w = x (perform client depth) w

/-- An object is not asked by a method. -/
def Unasked (m : MethodRef) : Condition σ := fun _ i _ => i.method ≠ m

/-- Computing something of an instance does not ask its object for the same in turn. -/
def Recall.Direct (k : Recall σ β) (client : Client σ) (o : ObjectRef) (x : Instance) (depth : Nat)
    (w : World σ) : Prop :=
  Meets client o (Unasked k.method) (fun serve => k.compute x serve) depth w

namespace World

/-- The condition lets an instance compute only what has properties. -/
def Allows (x : Instance) (P : Int32 → Prop) (Q : String → Prop) (C : Condition σ) : Prop :=
  ∀ serve i w, C serve i w →
    (i.method = .hashCode → ∀ n v, x.computeHash serve w = (.ok n, v) → P n) ∧
    (i.method = .toText → ∀ s v, x.computeText serve w = (.ok s, v) → Q s)

variable {P : Int32 → Prop} {Q : String → Prop} {C : Condition σ}

/-- That an object guards its cells, as a limit of calls. -/
def guarding (o : ObjectRef) (x : Instance) (P : Int32 → Prop) (Q : String → Prop) : Accord σ :=
  .worlds (Guards o x P Q)
    { state := fun _ s hw => hw.staysAside ((staysAside_growth o).state _ s)
      deeds := fun d _ hw => hw.staysAside ((staysAside_growth o).deed d _) }

variable {serve serve' : Serve σ}

/-- An instance with other cells leaves those of the object alone. -/
theorem agree_apart (hServe : (guarding o x P Q).Serves serve serve')
    (hHash : Recall.hash.Apart (σ := σ) x y) (hText : Recall.text.Apart (σ := σ) x y)
    (i : Invocation) :
    (y.answer serve i).Agree (guarding o x P Q) (y.answer serve' i) := by
  intro w hw
  refine y.agree_answer hServe hw (fun _ => y.agree_hash hServe hw ?_) fun _ =>
    y.agree_text hServe hw ?_
  · exact fun d hd n v _ hv _ =>
      hv.of_eq rfl rfl rfl (hv.hash.fill_apart hHash hd rfl rfl) { hv.text with }
  · exact fun d hd s v _ hv _ =>
      hv.of_eq rfl rfl rfl { hv.hash with } (hv.text.fill_apart hText hd rfl rfl)

/-- The instance itself fills its cells with what the condition allows. -/
theorem agreeAt_own (hServe : (guarding o x P Q).Serves serve serve') (hAllows : Allows x P Q C)
    {i : Invocation} (hw : Guards o x P Q w) (hMet : C serve i w) :
    (x.answer serve i).AgreeAt (guarding o x P Q) (x.answer serve' i) w := by
  obtain ⟨hHash, hText⟩ := hAllows serve i w hMet
  refine x.agree_answer hServe hw (fun hMethod => x.agree_hash hServe hw ?_) fun hMethod =>
    x.agree_text hServe hw ?_
  · exact fun c hc n v hRun hv _ =>
      hv.of_eq rfl rfl rfl (hv.hash.fill_own hc (hHash hMethod n v hRun) rfl rfl) { hv.text with }
  · exact fun c hc s v hRun hv _ =>
      hv.of_eq rfl rfl rfl { hv.hash with } (hv.text.fill_own hc (hText hMethod s v hRun) rfl rfl)

/-- However deep requests are nested, serving one under watch leaves the object guarding its cells,
if the condition lets nothing else be computed. -/
theorem serves_watch (hAllows : Allows x P Q C) (depth : Nat) :
    (guarding o x P Q).Serves (watch client o C (throw .exhausted) depth)
      (watch client o C (throw .exhausted) depth) := by
  refine Accord.serves_performApart
    (Q := fun y => Recall.hash.Apart (σ := σ) x y ∧ Recall.text.Apart (σ := σ) x y)
    (fun hServe => ⟨hServe, Accord.clients_worlds rfl rfl rfl,
      fun y hy i _ => agree_apart hServe hy.1 hy.2 i⟩)
    (fun w hw p i hNot made chain hObject z hz => ?_)
    (fun depth hServe w hw r _ hAsks => ?_) depth
  · cases z with
    | lazy hook c =>
        exact fun _ _ _ => ⟨rfl, Script.respects_all _ _, fun v p hv _ =>
          hv.staysAside (staysAside_of_eq rfl rfl rfl rfl rfl)⟩
    | record c => exact fun v m hv => hv.staysAside (staysAside_of_eq rfl rfl rfl rfl rfl)
    | values y =>
        exact ⟨hw.hash.alone p made chain hNot hObject y hz,
          hw.text.alone p made chain hNot hObject y hz⟩
    | _ => trivial
  · cases r with
    | body hook receiver? arguments => exact hAsks.elim
    | ask p i =>
        by_cases hMet : ∀ q j, Request.ask p i = .ask q j →
          C (watch client o C (throw .exhausted) depth) j w
        · refine .of_eq (if_pos hMet) (if_pos hMet) ?_
          have hThere : w.Stands p x := hw.stands.of_id hAsks
          refine .of_eq (hThere.serveBy_apply client _ i) (hThere.serveBy_apply client _ i) ?_
          refine (agreeAt_own hServe hAllows hw (hMet p i rfl)).bind fun answer => ?_
          split
          · exact .pure _
          · exact .raise trivial
        · exact .of_eq (if_neg hMet) (if_neg hMet) (Run.Agree.throw w hw)

end World

/-- To use an object is to call it. -/
theorem Use.agree_run {K : Accord σ} {serve serve' : Serve σ} (hServe : K.Serves serve serve')
    (use : Use) (o : ObjectRef) : (use.run serve o).Agree K (use.run serve' o) := by
  cases use with
  | call name arguments => exact o.agree_call hServe name arguments
  | invoke m arguments => exact o.agree_invoke hServe m arguments
  | equals v => exact .bind (o.agree_equals hServe v) fun _ => .pure _
  | hashCode => exact .bind (o.agree_hashCode hServe) fun _ => .pure _
  | toText => exact .bind (o.agree_toText hServe) fun _ => .pure _
  | extract =>
      refine .bind (.hierarchy_bind fun w hw => ?_) fun _ => .pure _
      split
      · exact Run.Agree.bind (o.agree_invoke hServe _ _) (fun _ => .pure _) w hw
      · exact Run.Agree.raise (by trivial) w hw

/-- The worlds that a program comes to from a start, with an object under watch. Whenever the object
has been asked, in a use of it or within client code, a condition was met. Other operations may
happen in between, as long as they leave the cells of the object alone. -/
inductive Observed (client : Client σ) (o : ObjectRef) (C : Condition σ) (start : World σ) :
    World σ → Prop where
  | start : Observed client o C start start
  | use {w : World σ} (before : Observed client o C start w) (use : Use) (depth : Nat)
      (hMeets : Meets client o C (fun serve => use.run serve o) depth w) :
      Observed client o C start (use.run (perform client depth) o w).2
  | script {τ : Type} {w : World σ} (before : Observed client o C start w) (s : Script σ τ)
      (depth : Nat) (hMeets : Meets client o C (fun serve => s.run serve) depth w) :
      Observed client o C start (s.run (perform client depth) w).2
  | operation {ε α : Type} {x : Run ε σ α} {w : World σ} (before : Observed client o C start w)
      (hx : Operation client x) (hAside : w.Aside o (x w).2) : Observed client o C start (x w).2

variable {C : Condition σ} {P : Int32 → Prop} {Q : String → Prop} {start : World σ}

theorem Observed.leads (hObserved : Observed client o C start w) : World.Leads client start w := by
  induction hObserved with
  | start => exact .refl
  | use _ use depth _ ih => exact ih.trans (use.leads o depth _)
  | script _ s depth _ ih => exact ih.step (.command (.call (.script depth s)))
  | operation _ hx _ ih => exact ih.step hx

/-- A computation under watch leaves the object guarding its cells. -/
theorem World.Guards.of_meets {x : Instance} (hw : Guards o x P Q w) (hAllows : Allows x P Q C)
    {f : Serve σ → Run ProxyError σ α} {depth : Nat} (hMeets : Meets client o C f depth w)
    (hAgree : ∀ serve : Serve σ, (guarding o x P Q).Serves serve serve →
      (f serve).Agree (guarding o x P Q) (f serve)) :
    Guards o x P Q (f (perform client depth) w).2 := by
  rw [← hMeets (throw .exhausted)]
  exact (hAgree _ (serves_watch hAllows depth) w hw).2.1

/-- As long as an object is under watch, it guards its cells. -/
theorem Observed.guards {x : Instance} (hStart : World.Guards o x P Q start)
    (hAllows : World.Allows x P Q C) (hObserved : Observed client o C start w) :
    World.Guards o x P Q w := by
  induction hObserved with
  | start => exact hStart
  | use _ use depth hMeets ih =>
      exact ih.of_meets hAllows hMeets fun serve hServe => use.agree_run hServe o
  | script _ s depth hMeets ih =>
      exact ih.of_meets hAllows hMeets fun serve hServe =>
        s.agree_run hServe (Script.respects_all _ s)
  | operation _ hx hAside ih => exact ih.aside (hx.evolves _) hAside

/-- While a hash is computed directly, none is kept. -/
theorem World.Guards.empty_hash {x : Instance} (hw : Guards o x P Q w)
    (hEmpty : Recall.hash.Empty x w) {depth : Nat}
    (hDirect : Recall.hash.Direct client o x depth w) :
    Recall.hash.Empty x (x.computeHash (perform client depth) w).2 := by
  have hNone : Guards o x (fun _ => False) (fun _ => True) w :=
    hw.of_eq rfl rfl rfl (hw.hash.of_empty hEmpty) { hw.text with kept := fun _ _ _ _ => trivial }
  have hAfter := hNone.of_meets (fun _ _ _ hOther => ⟨fun hHash => absurd hHash hOther,
    fun _ _ _ _ => trivial⟩) hDirect fun _ hServe => x.agree_computeHash hServe
  exact hAfter.hash.empty

/-- While a text is computed directly, none is kept. -/
theorem World.Guards.empty_text {x : Instance} (hw : Guards o x P Q w)
    (hEmpty : Recall.text.Empty x w) {depth : Nat}
    (hDirect : Recall.text.Direct client o x depth w) :
    Recall.text.Empty x (x.computeText (perform client depth) w).2 := by
  have hNone : Guards o x (fun _ => True) (fun _ => False) w :=
    hw.of_eq rfl rfl rfl { hw.hash with kept := fun _ _ _ _ => trivial } (hw.text.of_empty hEmpty)
  have hAfter := hNone.of_meets (fun _ _ _ hOther => ⟨fun _ _ _ _ => trivial,
    fun hText => absurd hText hOther⟩) hDirect fun _ hServe => x.agree_computeText hServe
  exact hAfter.text.empty

/-- An object that is asked under watch is served as it is, or there is an alarm. -/
theorem watch_ask (C : Condition σ) (alarm : Run ProxyError σ Value) (depth : Nat)
    (i : Invocation) :
    (C (watch client o C alarm depth) i w ∧ watch client o C alarm (depth + 1) (.ask o i) w =
        (Request.ask o i).serveBy client (watch client o C alarm depth) w) ∨
      watch client o C alarm (depth + 1) (.ask o i) w = alarm w := by
  have hWatched : watch client o C alarm (depth + 1) (.ask o i) w = _ := if_pos rfl
  rw [hWatched]
  by_cases hMet : ∀ p j, Request.ask o i = .ask p j → C (watch client o C alarm depth) j w
  · exact .inl ⟨hMet o i rfl, if_pos hMet⟩
  · exact .inr (if_neg hMet)

/-- Other objects than the one under watch are served. -/
theorem watch_elsewhere {p : ObjectRef} (hOther : p.id ≠ o.id) {alarm : Run ProxyError σ Value}
    (depth : Nat) (i : Invocation) :
    watch client o C alarm (depth + 1) (.ask p i) w =
      (Request.ask p i).serveBy client (watch client o C alarm depth) w :=
  if_neg hOther

/-- A use is under watch if the condition is met when the object is asked, and it is served under
watch as it is otherwise. -/
theorem Meets.of_ask {use : Use} {depth : Nat} {i : Invocation}
    (hUse : use.invocation w o = .ok i) (hMet : ∀ alarm, C (watch client o C alarm depth) i w)
    (hServed : ∀ alarm, (Request.ask o i).serveBy client (watch client o C alarm depth) w =
      (Request.ask o i).serveBy client (perform client depth) w) :
    Meets client o C (fun serve => use.run serve o) (depth + 1) w := by
  intro alarm
  have hWatched : watch client o C alarm (depth + 1) (.ask o i) w = _ := if_pos rfl
  have hAsked : watch client o C alarm (depth + 1) (.ask o i) w =
      perform client (depth + 1) (.ask o i) w := by
    refine hWatched.trans ((if_pos ?_).trans (hServed alarm))
    rintro p j ⟨⟩
    exact hMet alarm
  show use.run _ o w = use.run _ o w
  rw [use.run_apply, use.run_apply, hUse]
  exact Run.bind_congr_apply hAsked

/-- An instance is asked for its hash under watch if computing the hash comes to the same there. -/
theorem Meets.of_computeHash {depth : Nat} (ho : w.Stands o x)
    (hMet : ∀ alarm, C (watch client o C alarm depth) ⟨.hashCode, some o, []⟩ w)
    (hCompute : ∀ alarm, x.computeHash (watch client o C alarm depth) w =
      x.computeHash (perform client depth) w) :
    Meets client o C (fun serve => Use.hashCode.run serve o) (depth + 1) w := by
  refine .of_ask (Use.invocation_hashCode w o) hMet fun alarm => ?_
  rw [ho.serveBy_apply, ho.serveBy_apply, Recall.lawful_hash.answer x _ _ rfl,
    Recall.lawful_hash.answer x _ _ rfl]
  exact Run.bind_congr_apply (Run.bind_congr_apply (Recall.give_congr (hCompute alarm)))

/-- When an object is used under watch, the condition is met when it is asked, and it is served as
it is under watch. -/
theorem Meets.of_use {use : Use} {depth : Nat} {i : Invocation}
    (hMeets : Meets client o C (fun serve => use.run serve o) (depth + 1) w)
    (hUse : use.invocation w o = .ok i) :
    ∃ serve : Serve σ, C serve i w ∧ use.run (perform client (depth + 1)) o w =
      ((Request.ask o i).serveBy client serve >>= fun a => Run.ofExcept id (use.result a)) w := by
  have hWatched (alarm : Run ProxyError σ Value) :
      (use.ask (watch client o C alarm (depth + 1)) o i) w =
        use.run (perform client (depth + 1)) o w := by
    refine Eq.trans ?_ (hMeets alarm)
    show _ = use.run _ o w
    rw [use.run_apply, hUse]
  have hEach (e : Stop ProxyError) :
      (∃ serve : Serve σ, C serve i w ∧ use.run (perform client (depth + 1)) o w =
        ((Request.ask o i).serveBy client serve >>= fun a => Run.ofExcept id (use.result a)) w) ∨
      use.run (perform client (depth + 1)) o w = (.error e, w) := by
    rw [← hWatched (throw e)]
    rcases watch_ask C (throw e) depth i with ⟨hMet, hServed⟩ | hAlarm
    · exact .inl ⟨_, hMet, Run.bind_congr_apply hServed⟩
    · exact .inr (Run.bind_error hAlarm)
  -- two alarms cannot both be what the use comes to
  rcases hEach .exhausted with hMet | hFirst
  · exact hMet
  rcases hEach (.raised .emptyContractSet) with hMet | hSecond
  · exact hMet
  cases hFirst.symm.trans hSecond

namespace World

/-- That a world comes after another, as a limit of calls. -/
def preceding (u : World σ) : Accord σ :=
  u.preserves_unmoved.accord

/-- Wherever an object is asked in calls, be it under watch, what it is asked in comes after the
world that the calls have started from. -/
theorem serves_preceding (u : World σ) (o : ObjectRef) {C : Condition σ}
    (hC : ∀ serve i v, u.Preserves v → C serve i v) (alarm : Run ProxyError σ Value) (depth : Nat) :
    u.preceding.Serves (watch client o C alarm depth) (perform client depth) := by
  rw [← performApart_self client (Request.Asks o)]
  have hWays {serve serve' : Serve σ} (hServe : u.preceding.Serves serve serve') :
      u.preceding.Ways client client serve serve' fun _ => True := by
    refine ⟨hServe, u.preserves_unmoved.clients client, fun x _ i _ w hw =>
      x.agree_answer hServe hw (fun _ => x.agree_hash hServe hw ?_)
        fun _ => x.agree_text hServe hw ?_⟩
    · exact fun cell _ n v _ hv hEmpty => hv.fill_hash hEmpty n
    · exact fun cell _ s v _ hv hEmpty => hv.fill_text hEmpty s
  have hBears (y : Handler) : u.preceding.Bears client client (fun _ => True) y := by
    cases y with
    | lazy hook cell =>
        exact fun _ _ _ => ⟨rfl, Script.respects_all _ _, fun v p hv _ =>
          u.preserves_unmoved.lazies v _ hv⟩
    | record cell => exact fun v m hv => u.preserves_unmoved.firstMethods v _ hv
    | values x => trivial
    | _ => trivial
  refine Accord.serves_performApart hWays (fun _ _ _ _ _ _ _ _ y _ => hBears y)
    (fun depth hServe w hw r _ _ => ?_) depth
  refine .of_eq (if_pos fun _ i _ => hC _ i w hw) rfl
    (Request.agree_serveBy (hWays hServe) hw (fun _ _ _ => trivial) ?_)
  exact fun _ _ _ _ _ _ y _ => hBears y

/-- Whatever client code does, and at whatever depth, comes after the world that it has started in.
-/
theorem Precedes.run (hSound : u.Sound) (hw : u.Precedes w) {τ : Type} (s : Script σ τ)
    (depth : Nat) :
    Meets client o (fun _ _ v => u.Precedes v) (fun serve => s.run serve) depth w ∧
      u.Precedes (s.run (perform client depth) w).2 := by
  have hServes (alarm : Run ProxyError σ Value) :
      u.preceding.Serves (watch client o (fun _ _ v => u.Precedes v) alarm depth)
        (perform client depth) := u.serves_preceding o (fun _ _ _ hv => hv hSound) alarm depth
  have hAgree (alarm : Run ProxyError σ Value) :=
    s.agree_run (hServes alarm) (Script.respects_all _ s) w fun _ => hw
  refine ⟨fun alarm => (hAgree alarm).1, ?_⟩
  rw [← (hAgree (throw .exhausted)).1]
  exact (hAgree (throw .exhausted)).2.1 hSound

end World

end Metaobject
