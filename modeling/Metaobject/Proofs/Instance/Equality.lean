import Metaobject.Proofs.Instance.Datum

/-!
Equality of built instances. Values that are composed of atoms by arrays and instances are equal if
and only if they stand for the same datum, so their equality is an equivalence. The question goes
back and forth between two objects, and is answered as soon as requests may be nested deeper than
the instances are.
-/
namespace Metaobject

variable {ε σ : Type} {client : Client σ} {serve : Serve σ} {w : World σ}

/-- A question that is answered in a world, and leaves the world as it is: yes if and only if
something holds. -/
def Run.Answers (x : Run ε σ Bool) (w : World σ) (p : Prop) : Prop :=
  ∃ b, x w = (.ok b, w) ∧ (b = true ↔ p)

theorem Run.Answers.congr {x : Run ε σ Bool} {p q : Prop} (hx : x.Answers w p) (hpq : p ↔ q) :
    x.Answers w q := by
  obtain ⟨b, hRun, hb⟩ := hx
  exact ⟨b, hRun, hb.trans hpq⟩

namespace Value

/-- An atom is equal to the atoms of the same form. -/
theorem equals_atom {v : Value} (hv : v.isAtom = true) (u : Value) :
    (v.equals serve u).Answers w (u.isAtom = true ∧ v.canonical = u.canonical) := by
  cases v with
  | array t items => cases hv
  | object o => cases hv
  | _ => cases u <;> exact ⟨_, rfl, by simp [canonical, isAtom]⟩

/-- Items that are compared in turn are equal if and only if they stand for the same data. -/
theorem equalItems_answers {vs us : List Value}
    (hEach : List.Forall₂ (fun v u => (v.equals serve u).Answers w (w.Alike v u)) vs us) :
    (equalItems serve vs us).Answers w (List.Forall₂ w.Alike vs us) := by
  induction hEach with
  | nil => exact ⟨true, rfl, by simp⟩
  | cons hFirst _ ih =>
      obtain ⟨b, hRun, hb⟩ := hFirst
      cases b with
      | false => exact ⟨false, Run.bind_ok hRun, by simp [← hb]⟩
      | true =>
          obtain ⟨b', hRest, hb'⟩ := ih
          exact ⟨b', (Run.bind_ok hRun).trans hRest, by simp [hb', hb.mp rfl]⟩

end Value

/-- Items that are each equal to themselves are equal in turn. -/
theorem Value.equalItems_self {vs : List Value}
    (hSelf : ∀ v ∈ vs, v.equals serve v w = (.ok true, w)) :
    equalItems serve vs vs w = (.ok true, w) := by
  induction vs with
  | nil => rfl
  | cons v vs ih =>
      rw [equalItems, Run.bind_ok (hSelf v (List.mem_cons_self ..)), if_pos rfl]
      exact ih fun u hu => hSelf u (List.mem_cons_of_mem v hu)

/-- Whether an object agrees with an instance in some members is whether their values are equal in
turn, if the answers of the object stay what they are while values are compared. -/
theorem Instance.agrees_eq {x y : Instance} {p : ObjectRef} {ms : List Member}
    {I : World σ → Prop} (hw : I w)
    (hTheirs : ∀ m ∈ ms, ∀ v, I v → p.invoke serve m.accessor [] v = (.ok (y.valueOf m), v))
    (hKept : ∀ m ∈ ms, ((x.valueOf m).equals serve (y.valueOf m)).Maintains I) :
    x.agrees serve p ms w =
      Value.equalItems serve (ms.map x.valueOf) (ms.map y.valueOf) w := by
  induction ms generalizing w with
  | nil => rfl
  | cons m ms ih =>
      have hNext := hKept m (List.mem_cons_self ..) w hw
      rw [agrees, Run.bind_ok (hTheirs m (List.mem_cons_self ..) w hw), List.map_cons,
        List.map_cons, Value.equalItems]
      rcases hRun : (x.valueOf m).equals serve (y.valueOf m) w with ⟨e | b, v⟩
      · rw [Run.bind_error hRun, Run.bind_error hRun]
      · rw [hRun] at hNext
        rw [Run.bind_ok hRun, Run.bind_ok hRun]
        cases b with
        | false => rfl
        | true =>
            exact ih hNext (fun n hn => hTheirs n (List.mem_cons_of_mem m hn))
              fun n hn => hKept n (List.mem_cons_of_mem m hn)

namespace World.Stands

variable {o : ObjectRef} {x : Instance} {depth : Nat}

/-- What an instance answers is what its object answers. -/
theorem perform_ok (ho : w.Stands o x) {i : Invocation} {v : Value} {u : World σ}
    (hAnswer : x.answer (perform client depth) i w = (.ok (some v), u)) :
    perform client (depth + 1) (.ask o i) w = (.ok v, u) :=
  (ho.serveBy_apply client (perform client depth) i).trans (Run.bind_ok hAnswer)

/-- An object is asked for equality through its instance. -/
theorem equals_eq (ho : w.Stands o x) (v : Value) :
    o.equals (perform client (depth + 1)) v w =
      x.equalTo (perform client depth) (some o) v w := by
  have hInvoke : o.invoke (perform client (depth + 1)) .equals [v] w = _ :=
    (o.invoke_equals v w).trans (ho.serveBy_apply client (perform client depth) _)
  rcases hRun : x.equalTo (perform client depth) (some o) v w with ⟨e | b, u⟩
  · have hAnswer : x.answer (perform client depth) ⟨.equals, some o, [v]⟩ w = (.error e, u) :=
      Run.bind_error hRun
    exact Run.bind_error (hInvoke.trans (Run.bind_error hAnswer))
  · have hAnswer : x.answer (perform client depth) ⟨.equals, some o, [v]⟩ w =
        (.ok (some (.boolean b)), u) := Run.bind_ok hRun
    exact Run.bind_ok (hInvoke.trans (Run.bind_ok hAnswer))

theorem equals (ho : w.Stands o x) {v : Value} {p : Prop}
    (hEqual : (x.equalTo (perform client depth) (some o) v).Answers w p) :
    (o.equals (perform client (depth + 1)) v).Answers w p := by
  rw [Run.Answers, ho.equals_eq]
  exact hEqual

/-- An instance answers with its annotation type. -/
theorem invoke_annotationType (ho : w.Stands o x)
    (hSubtype : w.hierarchy.isSubtype o.cls .annotations = true) :
    o.invoke (perform client (depth + 1)) .annotationType [] w =
      (.ok (.token (.ofClass x.contract.cls)), w) := by
  rw [ObjectRef.invoke_annotationType hSubtype]
  exact ho.perform_ok rfl

end World.Stands

/-- An instance is compared with another object that stands for one: the types first, then member
after member. -/
theorem Instance.equalTo_apply {x y : Instance} {o p : ObjectRef} {depth : Nat}
    (hp : w.Stands p y) (hOther : ObjectRef.same o p = false)
    (hSubtype : w.hierarchy.isSubtype p.cls .annotations = true) :
    x.equalTo (perform client (depth + 1)) (some o) (.object p) w =
      if x.contract.cls = y.contract.cls then
        x.agrees (perform client (depth + 1)) p x.contract.members w
      else (.ok false, w) := by
  have hSame : Value.same (perform client (depth + 1)) (.token (.ofClass y.contract.cls))
      (.token (.ofClass x.contract.cls)) w =
        (.ok (Ty.ofClass y.contract.cls == Ty.ofClass x.contract.cls), w) := rfl
  have hNot : ¬ (some o : Option ObjectRef).any (fun r => r.same p) = true := by simp [hOther]
  rw [equalTo, if_neg hNot, Run.bind_ok (Run.hierarchy_apply w), if_neg (by simp [hSubtype]),
    Run.bind_ok (hp.invoke_annotationType hSubtype), Run.bind_ok hSame]
  by_cases hClass : x.contract.cls = y.contract.cls
  · rw [if_pos hClass, if_pos (by simp [hClass])]
  · rw [if_neg hClass, if_neg (by simpa using fun hEq => hClass hEq.symm)]
    rfl

theorem InstanceBuilder.Built.contract_eq {c : ClassId} {log : List (Member × Value)}
    {o : ObjectRef} {x : Instance} (hBuilt : Built client c log o w) (ho : w.Stands o x) :
    x.contract = w.hierarchy.contract c := by
  obtain ⟨y, hy, hContract, _⟩ := hBuilt.stands
  rwa [ho.unique hy]

/-- A built object is below the root of the annotation types, and answers an accessor with the value
that its instance has for the member. -/
theorem InstanceBuilder.Built.reads {c : ClassId} {log : List (Member × Value)} {o : ObjectRef}
    {x : Instance} (hBuilt : Built client c log o w) (ho : w.Stands o x) :
    w.hierarchy.isSubtype o.cls .annotations = true ∧
      ∀ m ∈ (w.hierarchy.contract c).members, ∀ depth,
        o.invoke (perform client (depth + 1)) m.accessor [] w = (.ok (x.valueOf m), w) := by
  obtain ⟨made, y, hObject, hCls, hMade, hKind, _, hValues⟩ := hBuilt.instance_of
  obtain rfl := ho.unique ⟨made, hObject⟩
  refine ⟨?_, fun m hm depth => ?_⟩
  · rw [hCls]
    exact hMade.isSubtype (List.mem_singleton_self c) (Hierarchy.isSubtype_annotations hKind)
  · obtain ⟨answer, hExpected, _, hInvoke⟩ := hBuilt.invoke_accessor hm
    rw [(hValues m hm).1] at hExpected
    cases hExpected
    exact hInvoke depth

theorem InstanceBuilder.Built.later {c : ClassId} {log : List (Member × Value)} {o : ObjectRef}
    {v : World σ} (hBuilt : Built client c log o w) (hLeads : World.Leads client w v) :
    Built client c log o v := by
  obtain ⟨hFilled, hBuild, hBefore⟩ := hBuilt
  exact ⟨hFilled, hBuild, hBefore.trans hLeads⟩

theorem InstanceBuilder.Built.reachable {c : ClassId} {log : List (Member × Value)}
    {o : ObjectRef} (hBuilt : Built client c log o w) : World.Reachable client w := by
  obtain ⟨hFilled, hBuild, hLeads⟩ := hBuilt
  exact (hFilled.records.1.leads (.of_operation (.newInstance _) hBuild)).leads hLeads

/-- How two built objects are compared: one is equal to itself, others of one annotation type are
compared in the values of all their members, and others of different ones are not equal. -/
theorem InstanceBuilder.Built.equals_eq {c c' : ClassId} {log log' : List (Member × Value)}
    {o p : ObjectRef} {x y : Instance} (hBuilt : Built client c log o w)
    (hBuilt' : Built client c' log' p w) (ho : w.Stands o x) (hp : w.Stands p y) (depth : Nat) :
    o.equals (perform client (depth + 2)) (.object p) w =
      if o.same p = true then (.ok true, w)
      else if c = c' then Value.equalItems (perform client (depth + 1))
        (x.contract.members.map x.valueOf) (x.contract.members.map y.valueOf) w
      else (.ok false, w) := by
  have hClass : x.contract.cls = y.contract.cls ↔ c = c' := by
    rw [hBuilt.contract_eq ho, hBuilt'.contract_eq hp]
    exact Iff.rfl
  rw [ho.equals_eq]
  cases hOne : ObjectRef.same o p with
  | true =>
      rw [Instance.equalTo, if_pos (by simp [hOne]), if_pos rfl]
      rfl
  | false =>
      rw [Instance.equalTo_apply hp hOne (hBuilt'.reads hp).1, if_neg Bool.false_ne_true]
      by_cases hSame : c = c'
      · subst hSame
        rw [if_pos (hClass.mpr rfl), if_pos rfl, hBuilt.contract_eq ho]
        -- whatever comparing values sets off, the other object keeps its answers
        refine Instance.agrees_eq (I := World.Leads client w) .refl (fun m hm v hLeads => ?_)
          fun m hm v hLeads => hLeads.step (.command (.call (.equals _ _ _)))
        have hGrows := hLeads.growsTo hBuilt.reachable.sound
        obtain ⟨made, hObject⟩ := hp
        refine ((hBuilt'.later hLeads).reads ⟨made, hGrows.object? hObject⟩).2 m ?_ depth
        rwa [← (hBuilt.later hLeads).contract_eq (ho.mono hGrows), hBuilt.contract_eq ho]
      · rw [if_neg fun hEq => hSame (hClass.mp hEq), if_neg hSame]

theorem Value.equals_array {t t' : Ty} {vs us : List Value}
    (hEach : ∀ v ∈ vs, ∀ u ∈ us, (v.equals serve u).Answers w (w.Alike v u)) :
    ((Value.array t vs).equals serve (.array t' us)).Answers w
      (w.Alike (.array t vs) (.array t' us)) := by
  rw [World.alike_array_iff, Run.Answers, equals]
  split
  · next hShape =>
      have hItems := List.forall₂_iff_zip.mpr ⟨hShape.2, fun {v u} hMem =>
        hEach v (List.of_mem_zip hMem).1 u (List.of_mem_zip hMem).2⟩
      exact (equalItems_answers hItems).congr (by simp [hShape.1])
  · next hShape =>
      refine ⟨false, rfl, ?_⟩
      simp only [Bool.false_eq_true, false_iff, not_and]
      exact fun hType hItems => hShape ⟨hType, hItems.length_eq⟩

/-- No array and no object is alike to an atom. -/
theorem Run.Answers.of_atom {x : Run ε σ Bool} {v u : Value} (hv : v.isAtom = false)
    (hu : u.isAtom = true) (hx : x w = (.ok false, w)) : x.Answers w (w.Alike v u) := by
  refine ⟨false, hx, ?_⟩
  simp only [Bool.false_eq_true, false_iff]
  intro hAlike
  rw [((World.alike_atom_iff hu).mp hAlike.symm).1] at hv
  cases hv

/-- Two built objects are compared as what they stand for, if their values are. -/
theorem InstanceBuilder.Built.equals_answers {c c' : ClassId} {log log' : List (Member × Value)}
    {o p : ObjectRef} {x y : Instance} {depth : Nat} (hBuilt : Built client c log o w)
    (hBuilt' : Built client c' log' p w) (ho : w.Stands o x) (hp : w.Stands p y)
    (hSelf : w.Alike (.object o) (.object o))
    (hEach : c = c' → ∀ m ∈ (w.hierarchy.contract c).members,
      ((x.valueOf m).equals (perform client (depth + 1)) (y.valueOf m)).Answers w
        (w.Alike (x.valueOf m) (y.valueOf m))) :
    (o.equals (perform client (depth + 2)) (.object p)).Answers w
      (w.Alike (.object o) (.object p)) := by
  rw [Run.Answers, hBuilt.equals_eq hBuilt' ho hp]
  split
  · next hOne => exact ⟨true, rfl, by simp [ho.alike_of_same hOne hSelf]⟩
  · split
    · next hSame =>
        subst hSame
        have hContract : x.contract = y.contract := by
          rw [hBuilt.contract_eq ho, hBuilt'.contract_eq hp]
        have hItems : List.Forall₂ (fun v u => (v.equals (perform client (depth + 1)) u).Answers w
            (w.Alike v u)) (x.contract.members.map x.valueOf)
              (x.contract.members.map y.valueOf) := by
          rw [List.forall₂_map_left_iff, List.forall₂_map_right_iff, List.forall₂_same,
            hBuilt.contract_eq ho]
          exact hEach rfl
        refine (Value.equalItems_answers hItems).congr ?_
        rw [World.alike_object_iff ho hp hContract, List.forall₂_map_left_iff,
          List.forall₂_map_right_iff, List.forall₂_same]
    · next hSame =>
        refine ⟨false, rfl, ?_⟩
        simp only [Bool.false_eq_true, false_iff]
        intro hAlike
        have hClass := hAlike.cls_eq ho hp
        rw [hBuilt.contract_eq ho, hBuilt'.contract_eq hp] at hClass
        exact hSame hClass

/-- Composed values are equal if and only if they stand for the same datum. -/
theorem Composed.equals_answers {v u : Value} {d : Datum} {depth : Nat}
    (hv : Composed client w v) (hu : Composed client w u) (hd : w.Denotes v d)
    (hRank : d.rank < depth) : (v.equals (perform client depth) u).Answers w (w.Alike v u) := by
  induction hv generalizing u d depth with
  | @atom v hAtom => exact (Value.equals_atom hAtom u).congr (World.alike_atom_iff hAtom).symm
  | @array t items hItems ih =>
      cases hd with
      | atom hAtom => cases hAtom
      | @array _ _ ds hLength hEach =>
          cases hu with
          | @atom u hAtom =>
              refine .of_atom rfl hAtom ?_
              cases u with
              | array t' items' => cases hAtom
              | _ => rfl
          | object _ _ => exact ⟨false, rfl, by simp [World.not_alike_array_object]⟩
          | array hItems' =>
              refine Value.equals_array fun v hv u hu => ?_
              obtain ⟨d, hd, hDenotes⟩ := (World.denoteAll_of_zip hLength hEach).exists_of_mem hv
              exact ih v hv (hItems' u hu) hDenotes
                (Nat.lt_of_le_of_lt (Datum.rank_le_rankAll hd) hRank)
  | @object c log o hBuilt hValues ih =>
      obtain ⟨x, ho, hContract, hExpected⟩ := hBuilt.stands
      have hSelf : w.Alike (.object o) (.object o) := ⟨d, hd, hd⟩
      obtain ⟨ds, hds, rfl⟩ := ho.denotes_iff.mp hd
      obtain ⟨k, rfl⟩ : ∃ k, depth = k + 2 := ⟨depth - 2, by
        rw [Datum.rank] at hRank
        omega⟩
      -- what is not an object is unlike an instance before anything else is asked
      cases hu with
      | @atom u hAtom =>
          refine ho.equals (.of_atom rfl hAtom ?_)
          cases u with
          | object p => cases hAtom
          | _ => rfl
      | array _ =>
          refine ho.equals ⟨false, rfl, ?_⟩
          simp only [Bool.false_eq_true, false_iff]
          exact fun hAlike => World.not_alike_array_object hAlike.symm
      | @object c' log' p hBuilt' hValues' =>
          obtain ⟨y, hp, hContract', hExpected'⟩ := hBuilt'.stands
          refine hBuilt.equals_answers hBuilt' ho hp hSelf ?_
          rintro rfl m hm
          obtain ⟨d, hd, hDenotes⟩ := hds.exists_of_mem
            (List.mem_map_of_mem (f := x.valueOf) (hContract ▸ hm))
          refine ih m hm _ (hExpected m hm) (hValues' m hm _ (hExpected' m hm)) hDenotes ?_
          have hLess := Datum.rank_le_rankAll hd
          rw [Datum.rank] at hRank
          omega

/-- Asked whether two values are equal, a world answers so however deep requests may be nested, from
some depth on, and stays as it is. -/
def World.Decides (client : Client σ) (w : World σ) (v u : Value) (same : Bool) : Prop :=
  ∃ bound, ∀ depth, bound ≤ depth → v.equals (perform client depth) u w = (.ok same, w)

theorem Composed.decides_iff {v u : Value} (hv : Composed client w v) (hu : Composed client w u)
    {same : Bool} : w.Decides client v u same ↔ (same = true ↔ w.Alike v u) := by
  obtain ⟨d, hd⟩ := hv.exists_datum
  constructor
  · rintro ⟨bound, hDecides⟩
    have hRank : d.rank < max bound (d.rank + 1) := Nat.le_max_right _ _
    obtain ⟨b, hRun, hb⟩ := hv.equals_answers hu hd hRank
    rw [hDecides _ (Nat.le_max_left _ _)] at hRun
    cases hRun
    exact hb
  · intro hSame
    refine ⟨d.rank + 1, fun depth hDepth => ?_⟩
    obtain ⟨b, hRun, hb⟩ := hv.equals_answers hu hd hDepth
    rw [hRun, Bool.eq_iff_iff.mpr (hb.trans hSame.symm)]

theorem Composed.decides_true_iff {v u : Value} (hv : Composed client w v)
    (hu : Composed client w u) : w.Decides client v u true ↔ w.Alike v u := by
  rw [hv.decides_iff hu]
  exact ⟨fun hSame => hSame.mp rfl, fun hAlike => ⟨fun _ => hAlike, fun _ => rfl⟩⟩

theorem Composed.alike_refl {v : Value} (hv : Composed client w v) : w.Alike v v := by
  obtain ⟨d, hd⟩ := hv.exists_datum
  exact ⟨d, hd, hd⟩

/-- Built instances of one annotation type stand for the same datum if and only if what is expected
of their members does. -/
theorem InstanceBuilder.Built.alike_iff {c : ClassId} {log log' : List (Member × Value)}
    {a b : ObjectRef} (ha : Built client c log a w) (hb : Built client c log' b w) :
    w.Alike (.object a) (.object b) ↔ ∀ m ∈ (w.hierarchy.contract c).members, ∃ v u,
      w.hierarchy.expected? log m = some v ∧ w.hierarchy.expected? log' m = some u ∧
        w.Alike v u := by
  obtain ⟨x, hx, hContract, hExpected⟩ := ha.stands
  obtain ⟨y, hy, hContract', hExpected'⟩ := hb.stands
  rw [World.alike_object_iff hx hy (hContract.trans hContract'.symm), hContract]
  constructor
  · exact fun hEach m hm => ⟨_, _, hExpected m hm, hExpected' m hm, hEach m hm⟩
  · intro hEach m hm
    obtain ⟨v, u, hv, hu, hAlike⟩ := hEach m hm
    cases (hExpected m hm).symm.trans hv
    cases (hExpected' m hm).symm.trans hu
    exact hAlike

/-- Equality of two built instances whose members have values composed of atoms by arrays and
instances, at any depth. It is always decided: they are equal if and only if they are of the same
annotation type and their members have equal values. It is an equivalence. Instances of different
annotation types are never equal, be one type above the other or not, and instances of one type are
equal if the same was last given to their members, in whatever order. -/
theorem equality_of_instances {c c' : ClassId} {log log' : List (Member × Value)}
    {a b : ObjectRef} (ha : InstanceBuilder.Built client c log a w)
    (hValues : ∀ m ∈ (w.hierarchy.contract c).members, ∀ v,
      w.hierarchy.expected? log m = some v → Composed client w v)
    (hb : InstanceBuilder.Built client c' log' b w)
    (hValues' : ∀ m ∈ (w.hierarchy.contract c').members, ∀ v,
      w.hierarchy.expected? log' m = some v → Composed client w v) :
    (∃ same, w.Decides client (.object a) (.object b) same ∧
      (same = true ↔ c = c' ∧ ∀ m ∈ (w.hierarchy.contract c).members, ∃ v u,
        w.hierarchy.expected? log m = some v ∧ w.hierarchy.expected? log' m = some u ∧
          w.Decides client v u true)) ∧
    w.Decides client (.object a) (.object a) true ∧
    (∀ same, w.Decides client (.object a) (.object b) same →
      w.Decides client (.object b) (.object a) same) ∧
    (∀ o, Composed client w (.object o) → w.Decides client (.object a) (.object b) true →
      w.Decides client (.object b) (.object o) true →
        w.Decides client (.object a) (.object o) true) ∧
    (c ≠ c' → w.Decides client (.object a) (.object b) false) ∧
    (c = c' → (∀ m ∈ (w.hierarchy.contract c).members, lastGiven? m log' = lastGiven? m log) →
      w.Decides client (.object a) (.object b) true) := by
  have hA : Composed client w (.object a) := .object ha hValues
  have hB : Composed client w (.object b) := .object hb hValues'
  have hClass (hAlike : w.Alike (.object a) (.object b)) : c = c' := by
    obtain ⟨x, hx, hContract, _⟩ := ha.stands
    obtain ⟨y, hy, hContract', _⟩ := hb.stands
    have hSame := hAlike.cls_eq hx hy
    rwa [hContract, hContract'] at hSame
  refine ⟨?_, ?_, ?_, ?_, ?_, ?_⟩
  · classical
    refine ⟨decide (w.Alike (.object a) (.object b)), (hA.decides_iff hB).mpr (by simp), ?_⟩
    rw [decide_eq_true_iff]
    constructor
    · intro hAlike
      obtain rfl := hClass hAlike
      refine ⟨rfl, fun m hm => ?_⟩
      obtain ⟨v, u, hv, hu, hSame⟩ := (ha.alike_iff hb).mp hAlike m hm
      exact ⟨v, u, hv, hu, ((hValues m hm v hv).decides_true_iff (hValues' m hm u hu)).mpr hSame⟩
    · rintro ⟨rfl, hEqual⟩
      refine (ha.alike_iff hb).mpr fun m hm => ?_
      obtain ⟨v, u, hv, hu, hSame⟩ := hEqual m hm
      exact ⟨v, u, hv, hu, ((hValues m hm v hv).decides_true_iff (hValues' m hm u hu)).mp hSame⟩
  · exact (hA.decides_true_iff hA).mpr hA.alike_refl
  · intro same hSame
    rw [hA.decides_iff hB] at hSame
    exact (hB.decides_iff hA).mpr (hSame.trans ⟨World.Alike.symm, World.Alike.symm⟩)
  · intro o ho hFirst hSecond
    rw [hA.decides_true_iff hB] at hFirst
    rw [hB.decides_true_iff ho] at hSecond
    exact (hA.decides_true_iff ho).mpr (hFirst.trans hSecond)
  · intro hOther
    rw [hA.decides_iff hB]
    simpa using fun hAlike => hOther (hClass hAlike)
  · rintro rfl hSame
    rw [hA.decides_true_iff hB, ha.alike_iff hb]
    intro m hm
    obtain ⟨v, hv, _⟩ := ha.invoke_accessor hm
    have hv' : w.hierarchy.expected? log' m = some v := by
      rw [← hv, Hierarchy.expected?, Hierarchy.expected?, hSame m hm]
    exact ⟨v, v, hv, hv', (hValues m hm v hv).alike_refl⟩

/-- An annotation type with instances of another among its values. -/
def frameType : ClassBuilder :=
  (ClassBuilder.empty .annotationType "frame").method
    { name := "limits", result := .array (.ofClass ⟨3⟩) }

/-- A world in which it has just been declared. -/
def frameWorld : World Stub.Stage :=
  (frameType.declare (ε := ProxyError) limitWorld).2

theorem reachable_frameWorld : World.Reachable Stub.client frameWorld :=
  reachable_limitWorld.leads (.step .refl (.declare frameType))

/-- A limit whose scale is left out. -/
def briefLog : List (Member × Value) :=
  [(frameWorld.hierarchy.memberOf ⟨⟨3⟩, 0⟩, .byte 3)]

/-- The same limit with both members given, the scale first. -/
def fullLog : List (Member × Value) :=
  [(frameWorld.hierarchy.memberOf ⟨⟨3⟩, 0⟩, .int 3),
    (frameWorld.hierarchy.memberOf ⟨⟨3⟩, 1⟩, .short 2)]

/-- A frame around an object. -/
def frameLog (o : ObjectRef) : List (Member × Value) :=
  [(frameWorld.hierarchy.memberOf ⟨⟨4⟩, 0⟩, .array (.ofClass ⟨3⟩) [.object o])]

/-- A builder of limits that holds some values. -/
def limitBuilder (assigned : Table String Value) : InstanceBuilder :=
  ⟨frameWorld.hierarchy.contract ⟨3⟩, assigned⟩

/-- A builder of frames that holds some values. -/
def frameBuilder (assigned : Table String Value) : InstanceBuilder :=
  ⟨frameWorld.hierarchy.contract ⟨4⟩, assigned⟩

theorem members_limit : (frameWorld.hierarchy.contract ⟨3⟩).members =
    [frameWorld.hierarchy.memberOf ⟨⟨3⟩, 0⟩, frameWorld.hierarchy.memberOf ⟨⟨3⟩, 1⟩] := by
  have hAccessors : frameWorld.hierarchy.accessors ⟨3⟩ = [⟨⟨3⟩, 0⟩, ⟨⟨3⟩, 1⟩] := by
    decide +kernel
  rw [Hierarchy.contract, hAccessors]
  rfl

theorem size_mem_members : frameWorld.hierarchy.memberOf ⟨⟨3⟩, 0⟩ ∈
    (frameWorld.hierarchy.contract ⟨3⟩).members := by
  simp [members_limit]

theorem scale_mem_members : frameWorld.hierarchy.memberOf ⟨⟨3⟩, 1⟩ ∈
    (frameWorld.hierarchy.contract ⟨3⟩).members := by
  simp [members_limit]

theorem members_frame :
    (frameWorld.hierarchy.contract ⟨4⟩).members = [frameWorld.hierarchy.memberOf ⟨⟨4⟩, 0⟩] := by
  have hAccessors : frameWorld.hierarchy.accessors ⟨4⟩ = [⟨⟨4⟩, 0⟩] := by decide +kernel
  rw [Hierarchy.contract, hAccessors]
  rfl

theorem missing_frame (o : ObjectRef) :
    (frameBuilder [("limits", .array (.ofClass ⟨3⟩) [.object o])]).missing.isEmpty = true := by
  rw [InstanceBuilder.missing, Contract.required, frameBuilder, members_frame]
  rfl

section Frames

variable {t : World Stub.Stage}

theorem contract_framed (hLeads : World.Leads Stub.client frameWorld t) {c : ClassId}
    (hc : frameWorld.hierarchy.Declared c) :
    t.hierarchy.contract c = frameWorld.hierarchy.contract c :=
  (hLeads.growsTo reachable_frameWorld.sound).hierarchy.contract_eq hc

theorem expected_limit (hLeads : World.Leads Stub.client frameWorld t) {m : Member}
    (hm : m ∈ (t.hierarchy.contract ⟨3⟩).members) :
    ∃ n, t.hierarchy.expected? briefLog m = some (.int n) ∧
      t.hierarchy.expected? fullLog m = some (.int n) := by
  rw [contract_framed hLeads (by decide), members_limit, List.mem_pair] at hm
  rcases hm with rfl | rfl <;> exact ⟨_, rfl, rfl⟩

theorem expected_frame (hLeads : World.Leads Stub.client frameWorld t) {m : Member}
    (hm : m ∈ (t.hierarchy.contract ⟨4⟩).members) (o : ObjectRef) :
    t.hierarchy.expected? (frameLog o) m = some (.array (.ofClass ⟨3⟩) [.object o]) := by
  rw [contract_framed hLeads (by decide), members_frame, List.mem_singleton] at hm
  rw [hm]
  rfl

theorem filled_brief : InstanceBuilder.Filled Stub.client ⟨3⟩ briefLog
    (limitBuilder [("size", .int 3)]) frameWorld := by
  have hOpen : InstanceBuilder.of frameWorld.hierarchy ⟨3⟩ = .ok (limitBuilder []) :=
    InstanceBuilder.of_eq_ok (by decide) (Option.isNone_iff_eq_none.mp (by decide +kernel))
  exact (InstanceBuilder.Filled.opened reachable_frameWorld hOpen).assign_name (a := .int 3)
    size_mem_members rfl rfl

theorem filled_full : InstanceBuilder.Filled Stub.client ⟨3⟩ fullLog
    (limitBuilder [("scale", .int 2), ("size", .int 3)]) frameWorld := by
  have hOpen : InstanceBuilder.of frameWorld.hierarchy ⟨3⟩ = .ok (limitBuilder []) :=
    InstanceBuilder.of_eq_ok (by decide) (Option.isNone_iff_eq_none.mp (by decide +kernel))
  have hScale : InstanceBuilder.Filled Stub.client ⟨3⟩
      [(frameWorld.hierarchy.memberOf ⟨⟨3⟩, 1⟩, .short 2)] (limitBuilder [("scale", .int 2)])
      frameWorld :=
    (InstanceBuilder.Filled.opened reachable_frameWorld hOpen).assign_name (a := .int 2)
      scale_mem_members rfl rfl
  exact hScale.assign_name (a := .int 3) size_mem_members rfl rfl

theorem filled_frame (hLeads : World.Leads Stub.client frameWorld t) (o : ObjectRef) :
    InstanceBuilder.Filled Stub.client ⟨4⟩ (frameLog o)
      (frameBuilder [("limits", .array (.ofClass ⟨3⟩) [.object o])]) t := by
  have hOpen : InstanceBuilder.of frameWorld.hierarchy ⟨4⟩ = .ok (frameBuilder []) :=
    InstanceBuilder.of_eq_ok (by decide) (Option.isNone_iff_eq_none.mp (by decide +kernel))
  have hMember : frameWorld.hierarchy.memberOf ⟨⟨4⟩, 0⟩ ∈ (t.hierarchy.contract ⟨4⟩).members := by
    rw [contract_framed hLeads (by decide), members_frame]
    exact List.mem_singleton_self _
  exact ((InstanceBuilder.Filled.opened reachable_frameWorld hOpen).meanwhile hLeads).assign_name
    (a := .array (.ofClass ⟨3⟩) [.object o]) hMember rfl rfl

/-- A run that builds a limit twice, and a frame around each. -/
structure Framed (a b f g : ObjectRef) (w₁ w₂ w₃ t : World Stub.Stage) : Prop where
  brief : (limitBuilder [("size", .int 3)]).build frameWorld = (.ok a, w₁)
  full : (limitBuilder [("scale", .int 2), ("size", .int 3)]).build w₁ = (.ok b, w₂)
  first : (frameBuilder [("limits", .array (.ofClass ⟨3⟩) [.object a])]).build w₂ = (.ok f, w₃)
  second : (frameBuilder [("limits", .array (.ofClass ⟨3⟩) [.object b])]).build w₃ = (.ok g, t)

theorem exists_framed : ∃ a b f g w₁ w₂ w₃ t, Framed a b f g w₁ w₂ w₃ t := by
  obtain ⟨a, w₁, hBrief, _, h₁⟩ := filled_brief.exists_built (by decide +kernel)
  obtain ⟨b, w₂, hFull, _, h₂⟩ := (filled_full.meanwhile h₁).exists_built (by decide +kernel)
  obtain ⟨f, w₃, hFirst, _, h₃⟩ :=
    (filled_frame (h₁.trans h₂) a).exists_built (missing_frame a)
  obtain ⟨g, t, hSecond, _, _⟩ :=
    (filled_frame ((h₁.trans h₂).trans h₃) b).exists_built (missing_frame b)
  exact ⟨a, b, f, g, w₁, w₂, w₃, t, hBrief, hFull, hFirst, hSecond⟩

/-- All of them have been built in the end. -/
theorem Framed.built {a b f g : ObjectRef} {w₁ w₂ w₃ : World Stub.Stage}
    (hFramed : Framed a b f g w₁ w₂ w₃ t) : World.Leads Stub.client frameWorld t ∧
      InstanceBuilder.Built Stub.client ⟨3⟩ briefLog a t ∧
      InstanceBuilder.Built Stub.client ⟨3⟩ fullLog b t ∧
      InstanceBuilder.Built Stub.client ⟨4⟩ (frameLog a) f t ∧
      InstanceBuilder.Built Stub.client ⟨4⟩ (frameLog b) g t := by
  have h₁ : World.Leads Stub.client frameWorld w₁ := .of_operation (.newInstance _) hFramed.brief
  have h₂ : World.Leads Stub.client w₁ w₂ := .of_operation (.newInstance _) hFramed.full
  have h₃ : World.Leads Stub.client w₂ w₃ := .of_operation (.newInstance _) hFramed.first
  have h₄ : World.Leads Stub.client w₃ t := .of_operation (.newInstance _) hFramed.second
  have hBefore := (h₁.trans h₂).trans h₃
  exact ⟨hBefore.trans h₄,
    ⟨filled_brief, hFramed.brief, (h₂.trans h₃).trans h₄⟩,
    ⟨filled_full.meanwhile h₁, hFramed.full, h₃.trans h₄⟩,
    ⟨filled_frame (h₁.trans h₂) a, hFramed.first, h₄⟩,
    ⟨filled_frame hBefore b, hFramed.second, .refl⟩⟩

theorem composed_limit (hLeads : World.Leads Stub.client frameWorld t)
    {log : List (Member × Value)} (hLog : log = briefLog ∨ log = fullLog) {m : Member}
    (hm : m ∈ (t.hierarchy.contract ⟨3⟩).members) {v : Value}
    (hv : t.hierarchy.expected? log m = some v) : Composed Stub.client t v := by
  obtain ⟨n, hBrief, hFull⟩ := expected_limit hLeads hm
  rcases hLog with rfl | rfl
  · cases hBrief.symm.trans hv
    exact .atom rfl
  · cases hFull.symm.trans hv
    exact .atom rfl

theorem composed_frame (hLeads : World.Leads Stub.client frameWorld t) {o : ObjectRef}
    (ho : Composed Stub.client t (.object o)) {m : Member}
    (hm : m ∈ (t.hierarchy.contract ⟨4⟩).members) {v : Value}
    (hv : t.hierarchy.expected? (frameLog o) m = some v) : Composed Stub.client t v := by
  cases (expected_frame hLeads hm o).symm.trans hv
  refine .array fun v hv => ?_
  rw [List.mem_singleton.mp hv]
  exact ho

end Frames

/-- Frames are equal if the limits in them are, which are equal because their members are. -/
theorem equality_of_frames : ∃ a b f g w₁ w₂ w₃ t, Framed a b f g w₁ w₂ w₃ t ∧
    t.Decides Stub.client (.object a) (.object b) true ∧
    t.Decides Stub.client (.object f) (.object g) true := by
  obtain ⟨a, b, f, g, w₁, w₂, w₃, t, hFramed⟩ := exists_framed
  obtain ⟨hLeads, ha, hb, hf, hg⟩ := hFramed.built
  have hA : Composed Stub.client t (.object a) :=
    .object ha fun m hm v => composed_limit hLeads (.inl rfl) hm
  have hB : Composed Stub.client t (.object b) :=
    .object hb fun m hm v => composed_limit hLeads (.inr rfl) hm
  obtain ⟨⟨same, hLimits, hSame⟩, _⟩ := equality_of_instances
    ha (fun m hm v => composed_limit hLeads (.inl rfl) hm)
    hb (fun m hm v => composed_limit hLeads (.inr rfl) hm)
  obtain ⟨⟨same', hFrames, hSame'⟩, _⟩ := equality_of_instances
    hf (fun m hm v => composed_frame hLeads hA hm)
    hg (fun m hm v => composed_frame hLeads hB hm)
  obtain rfl : same = true := by
    refine hSame.mpr ⟨rfl, fun m hm => ?_⟩
    obtain ⟨n, hn, hn'⟩ := expected_limit hLeads hm
    exact ⟨_, _, hn, hn', 0, fun depth _ => by rw [Value.equals, beq_self_eq_true]; rfl⟩
  obtain rfl : same' = true := by
    refine hSame'.mpr ⟨rfl, fun m hm => ?_⟩
    have hFirst := expected_frame hLeads hm a
    have hSecond := expected_frame hLeads hm b
    refine ⟨_, _, hFirst, hSecond, ?_⟩
    rw [(composed_frame hLeads hA hm hFirst).decides_true_iff (composed_frame hLeads hB hm hSecond),
      World.alike_array_iff]
    exact ⟨rfl, .cons ((hA.decides_true_iff hB).mp hLimits) .nil⟩
  exact ⟨a, b, f, g, w₁, w₂, w₃, t, hFramed, hLimits, hFrames⟩

end Metaobject
