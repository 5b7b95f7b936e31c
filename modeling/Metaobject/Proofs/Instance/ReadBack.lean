import Metaobject.Proofs.Hierarchy.Conversion
import Metaobject.Proofs.World.Answering
import Metaobject.Proofs.World.Evolution
import Metaobject.Stub

/-!
Reading the members of a built instance back. A builder is followed from its opening through any
number of assignments, failed ones among them, with anything else that the program does in between.
Along the way its table has, for every member, the value last given to it, converted to its type.
-/
namespace Metaobject

variable {σ : Type} {client : Client σ} {c : ClassId} {u v w : World σ}

/-- The value last given to a member, by a list of what was given, the newest first. -/
def lastGiven? (m : Member) : List (Member × Value) → Option Value
  | [] => none
  | (n, given) :: earlier =>
    if n.accessor = m.accessor then some given else lastGiven? m earlier

/-- What a member is to read as: the value last given to it, converted to its type, or its default
if none was. -/
def Hierarchy.expected? (h : Hierarchy) (log : List (Member × Value)) (m : Member) :
    Option Value :=
  match lastGiven? m log with
  | some given => h.convert? given m.type
  | none => m.default?

/-- What is expected does not depend on anything but the last value given. -/
theorem Hierarchy.expected?_unique {h k : Hierarchy} {m : Member}
    {log log' : List (Member × Value)} (hSame : lastGiven? m log' = lastGiven? m log) {a b : Value}
    (ha : h.expected? log m = some a) (hb : k.expected? log' m = some b) : b = a := by
  rw [expected?] at ha
  rw [expected?, hSame] at hb
  cases hGiven : lastGiven? m log with
  | some given =>
      rw [hGiven] at ha hb
      exact convert?_unique given m.type hb ha
  | none =>
      rw [hGiven] at ha hb
      exact Option.some.inj (hb.symm.trans ha)

namespace InstanceBuilder

variable {b : InstanceBuilder} {log : List (Member × Value)}

/-- A builder for a class as a program can have it in a world, with what was given to members so
far, the newest first. An assignment that fails leaves the builder as it was. -/
inductive Filled (client : Client σ) (c : ClassId) :
    List (Member × Value) → InstanceBuilder → World σ → Prop where
  | opened {w : World σ} {b : InstanceBuilder} (hReach : World.Reachable client w)
      (hOpen : InstanceBuilder.of w.hierarchy c = .ok b) : Filled client c [] b w
  | assigned {w v : World σ} {b b' : InstanceBuilder} {log : List (Member × Value)} {m : Member}
      (before : Filled client c log b w) (depth : Nat) (s : MemberSelector σ) (given : Value)
      (hSelect : (b.select (perform client depth) s w).1 = .ok m)
      (hAssign : b.assign (perform client depth) s given w = (.ok b', v)) :
      Filled client c ((m, given) :: log) b' v
  | failed {w v : World σ} {b : InstanceBuilder} {log : List (Member × Value)}
      {e : Stop InstanceError} (before : Filled client c log b w) (depth : Nat)
      (s : MemberSelector σ) (given : Value)
      (hFailed : b.assign (perform client depth) s given w = (.error e, v)) :
      Filled client c log b v
  | meanwhile {w v : World σ} {b : InstanceBuilder} {log : List (Member × Value)}
      (before : Filled client c log b w) (hLeads : World.Leads client w v) :
      Filled client c log b v

/-- An object that a program has built of what was given to members, some time ago. -/
inductive Built (client : Client σ) (c : ClassId) (log : List (Member × Value)) (o : ObjectRef)
    (w : World σ) : Prop where
  | intro {b : InstanceBuilder} {u v : World σ} (hFilled : Filled client c log b u)
      (hBuild : b.build u = (.ok o, v)) (hLeads : World.Leads client v w)

/-- A value that a member may have. -/
def Fits (h : Hierarchy) (m : Member) (a : Value) : Prop :=
  a.isNull = false ∧ h.isInstance a m.type = true

/-- What a builder holds agrees with what was given to members: nothing for a member to which
nothing was given, and otherwise the value last given, converted to the type of the member. -/
structure Records (b : InstanceBuilder) (h : Hierarchy) (c : ClassId)
    (log : List (Member × Value)) : Prop where
  annotation : h.isAnnotationType c = true
  contract : b.contract = h.contract c
  defaults : ∀ m ∈ b.contract.members, ∀ a, m.default? = some a → Fits h m a
  unassigned : ∀ m ∈ b.contract.members, lastGiven? m log = none → b.assigned? m.name = none
  assigned : ∀ m ∈ b.contract.members, ∀ given, lastGiven? m log = some given →
    ∃ a, b.assigned? m.name = some a ∧ h.convert? given m.type = some a ∧ a.isNull = false

theorem Records.mono {h k : Hierarchy} (hRecords : Records b h c log) (hk : h.GrowsTo k) :
    Records b k c log where
  annotation := by
    rw [hk.isAnnotationType_eq (Hierarchy.declared_of_isAnnotationType hRecords.annotation)]
    exact hRecords.annotation
  contract := by
    rw [hk.contract_eq (Hierarchy.declared_of_isAnnotationType hRecords.annotation)]
    exact hRecords.contract
  defaults := by
    intro m hm a ha
    obtain ⟨hNull, hInstance⟩ := hRecords.defaults m hm a ha
    exact ⟨hNull, hk.isInstance a m.type hInstance⟩
  unassigned := hRecords.unassigned
  assigned := by
    intro m hm given hGiven
    obtain ⟨a, ha, hConvert, hNull⟩ := hRecords.assigned m hm given hGiven
    exact ⟨a, ha, hk.convert? given m.type a hConvert, hNull⟩

/-- No default is bad if and only if each is a value that its member may have. -/
theorem badDefault?_eq_none_iff {h : Hierarchy} {ms : List Member} :
    badDefault? h ms = none ↔ ∀ m ∈ ms, ∀ a, m.default? = some a → Fits h m a := by
  induction ms with
  | nil => simp [badDefault?]
  | cons m rest ih =>
      rw [badDefault?, List.forall_mem_cons]
      cases hDefault : m.default? with
      | none => simpa using ih
      | some a =>
          have hBad : (a.isNull || !h.isInstance a m.type) = true ↔ ¬ Fits h m a := by
            simp only [Fits, Bool.or_eq_true, Bool.not_eq_true', not_and_or, Bool.not_eq_false,
              Bool.not_eq_true]
          dsimp only
          split
          · next hHead =>
              refine iff_of_false nofun fun hEach => ?_
              exact hBad.mp hHead (hEach.1 a rfl)
          · next hHead =>
              rw [ih]
              refine ⟨fun hRest => ⟨?_, hRest⟩, And.right⟩
              rintro _ ⟨⟩
              exact not_not.mp fun hFits => hHead (hBad.mpr hFits)

theorem of_eq_ok {h : Hierarchy} (hKind : h.isAnnotationType c = true)
    (hDefaults : badDefault? h (h.contract c).members = none) :
    InstanceBuilder.of h c = .ok { contract := h.contract c } := by
  rw [InstanceBuilder.of, hKind, hDefaults]
  rfl

/-- A builder is opened for an annotation type whose defaults all fit, and holds nothing. -/
theorem of_eq_ok_iff {h : Hierarchy} : InstanceBuilder.of h c = .ok b ↔
    h.isAnnotationType c = true ∧
      (∀ m ∈ (h.contract c).members, ∀ a, m.default? = some a → Fits h m a) ∧
      b = { contract := h.contract c } := by
  constructor
  · intro hOpen
    rw [InstanceBuilder.of] at hOpen
    split at hOpen
    · cases hOpen
    · next hKind =>
        split at hOpen
        · cases hOpen
        · next hDefaults =>
            cases hOpen
            exact ⟨by simpa using hKind, badDefault?_eq_none_iff.mp hDefaults, rfl⟩
  · rintro ⟨hKind, hDefaults, rfl⟩
    exact of_eq_ok hKind (badDefault?_eq_none_iff.mpr hDefaults)

theorem records_of_open {h : Hierarchy} (hOpen : InstanceBuilder.of h c = .ok b) :
    Records b h c [] := by
  obtain ⟨hKind, hDefaults, rfl⟩ := of_eq_ok_iff.mp hOpen
  exact ⟨hKind, rfl, hDefaults, fun _ _ _ => rfl, fun _ _ _ hGiven => by cases hGiven⟩

theorem selectAccessor_eq_ok_iff {n : MethodRef} {m : Member} :
    b.selectAccessor n = .ok m ↔ b.contract.memberFor? n = some m := by
  rw [selectAccessor]
  cases b.contract.memberFor? n <;> simp

theorem selectName_eq_ok_iff {name : String} {m : Member} :
    b.selectName name = .ok m ↔ b.contract.member? name = some m := by
  rw [selectName]
  cases b.contract.member? name <;> simp

/-- Whatever a selector selects is a member. -/
theorem mem_of_select {serve : Serve σ} {s : MemberSelector σ} {m : Member}
    (hSelect : b.select serve s w = (.ok m, v)) : m ∈ b.contract.members := by
  cases s with
  | name name =>
      exact List.mem_of_find?_eq_some (selectName_eq_ok_iff.mp (Run.ok_of_ofExcept hSelect).1)
  | accessor n =>
      exact List.mem_of_find?_eq_some (selectAccessor_eq_ok_iff.mp (Run.ok_of_ofExcept hSelect).1)
  | called script =>
      obtain ⟨n, u, _, hAccessor⟩ := Run.exists_of_bind_ok hSelect
      exact List.mem_of_find?_eq_some (selectAccessor_eq_ok_iff.mp (Run.ok_of_ofExcept hAccessor).1)

/-- The name of a member selects it. -/
theorem select_name {serve : Serve σ} {h : Hierarchy} (hKind : h.isAnnotationType c = true)
    (hContract : b.contract = h.contract c) {m : Member} (hm : m ∈ b.contract.members) :
    b.select serve (.name m.name) w = (.ok m, w) := by
  rw [hContract] at hm
  have hName : b.selectName m.name = .ok m :=
    selectName_eq_ok_iff.mpr (hContract ▸ Hierarchy.member?_name hKind hm)
  rw [select, hName]
  rfl

theorem convert?_of_fit {h : Hierarchy} {m : Member} {given a : Value}
    (hFit : fit h m given = .ok a) : h.convert? given m.type = some a ∧ a.isNull = false := by
  rw [fit] at hFit
  split at hFit
  · next hConvert =>
      split at hFit
      · cases hFit
      · next hNull =>
          cases hFit
          exact ⟨hConvert, by simpa using hNull⟩
  · cases hFit

theorem assign_ok {serve : Serve σ} {s : MemberSelector σ} {m : Member} {given a : Value}
    (hSelect : b.select serve s w = (.ok m, v))
    (hConvert : v.hierarchy.convert? given m.type = some a) (hNull : a.isNull = false) :
    b.assign serve s given w =
      (.ok { b with assigned := Table.set b.assigned m.name a }, v) := by
  have hFit : fit v.hierarchy m given = .ok a := by
    rw [fit, hConvert]
    exact if_neg (by simp [hNull])
  rw [assign, Run.bind_ok hSelect, Run.bind_ok (Run.hierarchy_apply v), hFit]
  rfl

/-- An assignment that succeeds enters the converted value under the name of the member selected. -/
theorem assign_eq_ok {serve : Serve σ} {b' : InstanceBuilder} {s : MemberSelector σ} {given : Value}
    (hAssign : b.assign serve s given w = (.ok b', v)) :
    ∃ m a, b.select serve s w = (.ok m, v) ∧ v.hierarchy.convert? given m.type = some a ∧
      a.isNull = false ∧ b' = { b with assigned := Table.set b.assigned m.name a } := by
  obtain ⟨m, u, hSelect, hRest⟩ := Run.exists_of_bind_ok hAssign
  rw [Run.bind_ok (Run.hierarchy_apply u)] at hRest
  obtain ⟨a, u', hFit, hReturn⟩ := Run.exists_of_bind_ok hRest
  obtain ⟨hFit, rfl⟩ := Run.ok_of_ofExcept hFit
  obtain ⟨hConvert, hNull⟩ := convert?_of_fit hFit
  cases hReturn
  exact ⟨m, a, hSelect, hConvert, hNull, rfl⟩

/-- Members other than the one assigned to keep what they have. -/
theorem Records.assign {h : Hierarchy} (hRecords : Records b h c log) {m : Member}
    (hm : m ∈ b.contract.members) {given a : Value} (hConvert : h.convert? given m.type = some a)
    (hNull : a.isNull = false) :
    Records { b with assigned := Table.set b.assigned m.name a } h c ((m, given) :: log) := by
  obtain ⟨hKind, hContract, hDefaults, hUnassigned, hAssigned⟩ := hRecords
  have hOther {n : Member} (hn : n ∈ b.contract.members) (hNew : ¬ m.accessor = n.accessor) :
      Table.find? (Table.set b.assigned m.name a) n.name = b.assigned? n.name := by
    rw [Table.find?_set, if_neg, assigned?]
    intro hName
    rw [hContract] at hm hn
    exact hNew (congrArg Member.accessor (Hierarchy.eq_of_name_eq hKind hm hn hName))
  refine ⟨hKind, hContract, hDefaults, ?_, ?_⟩
  · intro n hn hNone
    rw [lastGiven?] at hNone
    split at hNone
    · cases hNone
    · next hNew => exact (hOther hn hNew).trans (hUnassigned n hn hNone)
  · intro n hn earlier hSome
    rw [lastGiven?] at hSome
    split at hSome
    · next hSame =>
        cases hSome
        rw [hContract] at hm hn
        have hEq : m = n := Hierarchy.eq_of_accessor_eq hm hn hSame
        subst hEq
        refine ⟨a, ?_, hConvert, hNull⟩
        rw [assigned?, Table.find?_set, if_pos rfl]
    · next hNew =>
        obtain ⟨x, hx, hRest⟩ := hAssigned n hn earlier hSome
        exact ⟨x, (hOther hn hNew).trans hx, hRest⟩

/-- What is true of builders that have just been opened stays true of them, if it does as the
hierarchy grows and as a converted value is entered for a member. -/
theorem Filled.keeps {P : List (Member × Value) → InstanceBuilder → Hierarchy → Prop}
    (hOpened : ∀ h b, InstanceBuilder.of h c = .ok b → P [] b h)
    (hGrown : ∀ log b h k, h.GrowsTo k → P log b h → P log b k)
    (hEntered : ∀ log b h (m : Member) given a, m ∈ b.contract.members →
      h.convert? given m.type = some a → a.isNull = false → P log b h →
        P ((m, given) :: log) { b with assigned := Table.set b.assigned m.name a } h)
    (hFilled : Filled client c log b w) : World.Reachable client w ∧ P log b w.hierarchy := by
  induction hFilled with
  | opened hReach hOpen => exact ⟨hReach, hOpened _ _ hOpen⟩
  | @assigned w v b b' log m before depth s given hSelect hAssign ih =>
      obtain ⟨hReach, hBefore⟩ := ih
      have hLeads := World.Leads.of_operation (.assign depth b s given) hAssign
      -- Selecting may run client code and make a class for a recorder, so what is known of the
      -- builder is first carried over to the world in which the value is converted.
      have hLater := hGrown _ _ _ _ (hLeads.growsTo hReach.sound).hierarchy hBefore
      obtain ⟨n, a, hSelect', hConvert, hNull, rfl⟩ := assign_eq_ok hAssign
      rw [hSelect'] at hSelect
      cases hSelect
      exact ⟨hReach.leads hLeads,
        hEntered _ _ _ _ _ _ (mem_of_select hSelect') hConvert hNull hLater⟩
  | @failed w v b log e before depth s given hFailed ih =>
      obtain ⟨hReach, hBefore⟩ := ih
      have hLeads := World.Leads.of_operation (.assign depth b s given) hFailed
      exact ⟨hReach.leads hLeads, hGrown _ _ _ _ (hLeads.growsTo hReach.sound).hierarchy hBefore⟩
  | meanwhile before hLeads ih =>
      obtain ⟨hReach, hBefore⟩ := ih
      exact ⟨hReach.leads hLeads, hGrown _ _ _ _ (hLeads.growsTo hReach.sound).hierarchy hBefore⟩

/-- A builder agrees with what was given to members all the way. -/
theorem Filled.records (hFilled : Filled client c log b w) :
    World.Reachable client w ∧ Records b w.hierarchy c log :=
  hFilled.keeps (P := fun log b h => Records b h c log) (fun _ _ hOpen => records_of_open hOpen)
    (fun _ _ _ _ hk hRecords => hRecords.mono hk)
    fun _ _ _ _ _ _ hm hConvert hNull hRecords => hRecords.assign hm hConvert hNull

/-- Once nothing is missing, every member has the value that is expected of it. -/
theorem Records.valueOf {h : Hierarchy} (hRecords : Records b h c log) (hMissing : b.missing = [])
    {x : Instance} (hx : x.assigned = b.assigned) {m : Member} (hm : m ∈ b.contract.members) :
    h.expected? log m = some (x.valueOf m) ∧ Fits h m (x.valueOf m) := by
  rw [Hierarchy.expected?, Instance.valueOf, hx]
  cases hGiven : lastGiven? m log with
  | some given =>
      obtain ⟨a, ha, hConvert, hNull⟩ := hRecords.assigned m hm given hGiven
      rw [assigned?] at ha
      rw [ha]
      exact ⟨hConvert, hNull, Hierarchy.isInstance_of_convert? hConvert⟩
  | none =>
      have hNone : b.assigned? m.name = none := hRecords.unassigned m hm hGiven
      cases hDefault : m.default? with
      | some a =>
          rw [assigned?] at hNone
          rw [hNone]
          exact ⟨rfl, hRecords.defaults m hm a hDefault⟩
      | none =>
          -- neither a value nor a default: the member would be missing
          have hMem : m.name ∈ b.missing := by
            simp only [missing, Contract.required, List.mem_map, List.mem_filter]
            exact ⟨m, ⟨⟨hm, by rw [hDefault]; rfl⟩, by rw [hNone]; rfl⟩, rfl⟩
          rw [hMissing] at hMem
          cases hMem

/-- What building yields: a proxy of the annotation type, answering for what the builder holds. -/
theorem build_ok (hSound : w.Sound) (hInterface : w.hierarchy.isInterface b.contract.cls = true)
    (hMissing : b.missing.isEmpty = true) :
    ∃ o v made x, b.build w = (.ok o, v) ∧ v.object? o = some (.proxy made (.single (.values x))) ∧
      o.cls = made.cls ∧ made.Implements v.hierarchy [b.contract.cls] ∧
      x.contract = b.contract ∧ x.assigned = b.assigned := by
  obtain ⟨hash?, text?, hashes, texts, hRun, -, -⟩ := b.build_eq hMissing w
  have hFixed : ({ w with settings? := some w.settings, hashes, texts } : World σ).Sound :=
    hSound.mono (.refl _) rfl rfl
  obtain ⟨o, v, made, hSingle, hYields⟩ :=
    ProxyBuilder.single_ok (.values ⟨b.contract, b.assigned, hash?, text?⟩) hFixed hInterface
  refine ⟨o, v, made, _, ?_, hYields.object, hYields.cls, hYields.implementing, rfl, rfl⟩
  rw [hRun]
  exact Run.mapError_ok hSingle

theorem missing_of_build {o : ObjectRef} (hBuild : b.build w = (.ok o, v)) :
    b.missing.isEmpty = true := by
  rw [build] at hBuild
  split at hBuild
  · assumption
  · cases hBuild

/-- An object that has been built stands for an instance that has what was given to its members. -/
theorem Built.instance_of {o : ObjectRef} (hBuilt : Built client c log o w) :
    ∃ made x, w.object? o = some (.proxy made (.single (.values x))) ∧ o.cls = made.cls ∧
      made.Implements w.hierarchy [c] ∧ w.hierarchy.isAnnotationType c = true ∧
      x.contract = w.hierarchy.contract c ∧
      ∀ m ∈ (w.hierarchy.contract c).members,
        w.hierarchy.expected? log m = some (x.valueOf m) ∧ Fits w.hierarchy m (x.valueOf m) := by
  obtain @⟨b, u, v, hFilled, hBuild, hLeads⟩ := hBuilt
  obtain ⟨hReach, hRecords⟩ := hFilled.records
  have hClass : b.contract.cls = c := by
    rw [hRecords.contract]
    rfl
  have hInterface : u.hierarchy.isInterface b.contract.cls = true := by
    rw [hClass]
    exact Hierarchy.isInterface_of_isAnnotationType hRecords.annotation
  have hMissing := missing_of_build hBuild
  obtain ⟨_, _, made, x, hBuild', hObject, hCls, hMade, hContract, hAssigned⟩ :=
    build_ok hReach.sound hInterface hMissing
  rw [hBuild] at hBuild'
  cases hBuild'
  have hMiddle : World.Leads client u v := .of_operation (.newInstance b) hBuild
  have hAfter := hMiddle.trans hLeads
  have hGrows := hLeads.growsTo (hReach.leads hMiddle).sound
  have hLater := hRecords.mono (hAfter.growsTo hReach.sound).hierarchy
  refine ⟨made, x, hGrows.object? hObject, hCls, hClass ▸ hMade.mono hGrows.hierarchy,
    hLater.annotation, hContract.trans hLater.contract, fun m hm => ?_⟩
  rw [← hLater.contract] at hm
  exact hLater.valueOf (List.isEmpty_iff.mp hMissing) hAssigned hm

/-- A built object answers an accessor with the value that is expected of the member. -/
theorem Built.invoke_accessor {o : ObjectRef} (hBuilt : Built client c log o w) {m : Member}
    (hm : m ∈ (w.hierarchy.contract c).members) :
    ∃ answer, w.hierarchy.expected? log m = some answer ∧ Fits w.hierarchy m answer ∧
      ∀ depth, o.invoke (perform client (depth + 1)) m.accessor [] w = (.ok answer, w) := by
  obtain ⟨made, x, hObject, hCls, hMade, hKind, hContract, hValues⟩ := hBuilt.instance_of
  obtain ⟨hExpected, hFits⟩ := hValues m hm
  obtain ⟨hMethod, hAccessor⟩ :=
    Hierarchy.isAnnotationMember_of_mem_accessors hKind (Hierarchy.mem_members.mp hm).1
  have hSubtype : w.hierarchy.isSubtype o.cls m.accessor.owner = true := by
    rw [hCls]
    exact hMade.isSubtype (List.mem_singleton_self c)
      (Hierarchy.isSubtype_owner_of_mem_allMethods hMethod)
  have hMember : x.contract.memberFor? m.accessor = some m := by
    rw [hContract]
    exact Hierarchy.memberFor?_accessor hm
  exact ⟨x.valueOf m, hExpected, hFits, invoke_instance hObject hAccessor hSubtype hMember⟩

/-- A value that converts to the type of a member, and not to null, can be given to it by name. -/
theorem Filled.assign_name (hFilled : Filled client c log b w) {m : Member} {given a : Value}
    (hm : m ∈ (w.hierarchy.contract c).members)
    (hConvert : w.hierarchy.convert? given m.type = some a) (hNull : a.isNull = false) :
    Filled client c ((m, given) :: log)
      { b with assigned := Table.set b.assigned m.name a } w := by
  have hRecords := hFilled.records.2
  have hSelect : b.select (perform client 0) (.name m.name) w = (.ok m, w) :=
    select_name hRecords.annotation hRecords.contract (hRecords.contract ▸ hm)
  exact .assigned hFilled 0 (.name m.name) given (congrArg Prod.fst hSelect)
    (assign_ok hSelect hConvert hNull)

/-- Once nothing is missing, building succeeds. -/
theorem Filled.exists_built (hFilled : Filled client c log b w)
    (hMissing : b.missing.isEmpty = true) :
    ∃ o v, b.build w = (.ok o, v) ∧ Built client c log o v ∧ World.Leads client w v := by
  obtain ⟨hReach, hRecords⟩ := hFilled.records
  have hInterface : w.hierarchy.isInterface b.contract.cls = true := by
    rw [hRecords.contract]
    exact Hierarchy.isInterface_of_isAnnotationType hRecords.annotation
  obtain ⟨o, v, _, _, hBuild, _⟩ := build_ok hReach.sound hInterface hMissing
  exact ⟨o, v, hBuild, ⟨hFilled, hBuild, .refl⟩, .of_operation (.newInstance b) hBuild⟩

end InstanceBuilder

/-- A built instance answers every accessor with the value last given to the member, converted to
its type, or with its default, whatever the program has done since. The answer is not null and may
stand in a slot of the declared type. What else was given, and in which order, does not matter: two
instances with the same last values give the same answers. -/
theorem invoke_built {log : List (Member × Value)} {o : ObjectRef}
    (hBuilt : InstanceBuilder.Built client c log o w) :
    (∀ m ∈ (w.hierarchy.contract c).members, ∃ answer,
      w.hierarchy.expected? log m = some answer ∧
      (∀ depth, o.invoke (perform client (depth + 1)) m.accessor [] w = (.ok answer, w)) ∧
      answer.isNull = false ∧
      w.hierarchy.isInstance answer (w.hierarchy.resultType m.accessor) = true) ∧
    ∀ log' o' w', InstanceBuilder.Built client c log' o' w' →
      w'.hierarchy.contract c = w.hierarchy.contract c →
      (∀ m ∈ (w.hierarchy.contract c).members, lastGiven? m log' = lastGiven? m log) →
      ∀ m ∈ (w.hierarchy.contract c).members, ∀ depth,
        (o'.invoke (perform client (depth + 1)) m.accessor [] w').1 =
          (o.invoke (perform client (depth + 1)) m.accessor [] w).1 := by
  constructor
  · intro m hm
    obtain ⟨answer, hExpected, ⟨hNull, hInstance⟩, hInvoke⟩ := hBuilt.invoke_accessor hm
    rw [Hierarchy.type_of_mem_members hm] at hInstance
    exact ⟨answer, hExpected, hInvoke, hNull, hInstance⟩
  · intro log' o' w' hBuilt' hContract hSame m hm depth
    obtain ⟨answer, hExpected, _, hInvoke⟩ := hBuilt.invoke_accessor hm
    obtain ⟨answer', hExpected', _, hInvoke'⟩ := hBuilt'.invoke_accessor (hContract ▸ hm)
    rw [hInvoke depth, hInvoke' depth, Hierarchy.expected?_unique (hSame m hm) hExpected hExpected']

/-- An annotation type with a member that needs a value and one that has a default. -/
def limitType : ClassBuilder :=
  ((ClassBuilder.empty .annotationType "limit").method
    { name := "size", result := .primitive .int }).method
    { name := "scale", result := .primitive .int, default? := some (.byte 2) }

/-- A world in which it has just been declared. -/
def limitWorld : World Stub.Stage :=
  (limitType.declare (ε := ProxyError) { client := {} }).2

theorem reachable_limitWorld : World.Reachable Stub.client limitWorld :=
  ⟨{}, .step .refl (.declare limitType)⟩

theorem invoke_built_limit :
    ∃ o w, InstanceBuilder.Built Stub.client ⟨3⟩
        [(limitWorld.hierarchy.memberOf ⟨⟨3⟩, 0⟩, .byte 3)] o w ∧
      (o.invoke (perform Stub.client 1) ⟨⟨3⟩, 0⟩ [] w).1 = .ok (.int 3) ∧
      (o.invoke (perform Stub.client 1) ⟨⟨3⟩, 1⟩ [] w).1 = .ok (.int 2) := by
  let h := limitWorld.hierarchy
  let b : InstanceBuilder := ⟨h.contract ⟨3⟩, []⟩
  have hKind : h.isAnnotationType ⟨3⟩ = true := by decide +kernel
  have hOpen : InstanceBuilder.of h ⟨3⟩ = .ok b :=
    InstanceBuilder.of_eq_ok hKind (Option.isNone_iff_eq_none.mp (by decide +kernel))
  have hSize : h.memberOf ⟨⟨3⟩, 0⟩ ∈ (h.contract ⟨3⟩).members :=
    Hierarchy.mem_members.mpr ⟨by decide +kernel, rfl⟩
  have hScale : h.memberOf ⟨⟨3⟩, 1⟩ ∈ (h.contract ⟨3⟩).members :=
    Hierarchy.mem_members.mpr ⟨by decide +kernel, rfl⟩
  let filled : InstanceBuilder := { b with assigned := Table.set b.assigned "size" (.int 3) }
  have hSelect : b.select (perform Stub.client 1) (.name (h.memberOf ⟨⟨3⟩, 0⟩).name) limitWorld =
      (.ok (h.memberOf ⟨⟨3⟩, 0⟩), limitWorld) := InstanceBuilder.select_name hKind rfl hSize
  have hAssign : b.assign (perform Stub.client 1) (.name "size") (.byte 3) limitWorld =
      (.ok filled, limitWorld) := InstanceBuilder.assign_ok hSelect rfl rfl
  have hFilled := InstanceBuilder.Filled.assigned (.opened reachable_limitWorld hOpen) 1 _ _
    (congrArg Prod.fst hSelect) hAssign
  obtain ⟨o, w, _, _, hBuild, _⟩ := InstanceBuilder.build_ok (b := filled)
    reachable_limitWorld.sound (Hierarchy.isInterface_of_isAnnotationType hKind) (by decide +kernel)
  have hBuilt := InstanceBuilder.Built.intro hFilled hBuild .refl
  have hSame : w.hierarchy.contract ⟨3⟩ = h.contract ⟨3⟩ := by
    have hLeads : World.Leads Stub.client limitWorld w := .of_operation (.newInstance _) hBuild
    have hGrows := (hLeads.evolves reachable_limitWorld.sound).1.hierarchy
    exact hGrows.contract_eq (Hierarchy.declared_of_isAnnotationType hKind)
  rw [← hSame] at hSize hScale
  obtain ⟨first, hFirst, hInvoke, _⟩ := (invoke_built hBuilt).1 _ hSize
  obtain ⟨second, hSecond, hInvoke', _⟩ := (invoke_built hBuilt).1 _ hScale
  cases hFirst
  cases hSecond
  exact ⟨o, w, hBuilt, congrArg Prod.fst (hInvoke 0), congrArg Prod.fst (hInvoke' 0)⟩

end Metaobject
