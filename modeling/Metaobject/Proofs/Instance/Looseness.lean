import Metaobject.Proofs.Hierarchy.Conformance
import Metaobject.Proofs.Instance.Interchange

/-!
Values of array type given to members. The array that a member has is always of the element type of
the member, and what is in it conforms, unless an array that was given had the element type already
and did not keep what it promised by that. How loosely arrays were typed otherwise makes no
difference to the instances that are built.
-/
namespace Metaobject

variable {σ : Type} {client : Client σ} {serve : Serve σ} {v w : World σ}

open World

/-- The same was last given to a member twice, but for how loosely arrays were typed. -/
def Hierarchy.GivenAlike (h : Hierarchy) (log log' : List (Member × Value)) (m : Member) : Prop :=
  lastGiven? m log' = lastGiven? m log ∨ ∃ given given',
    lastGiven? m log = some given ∧ lastGiven? m log' = some given' ∧
      Hierarchy.Retyped m.type given given' ∧ h.Reliable given m.type ∧ h.Reliable given' m.type

theorem Hierarchy.GivenAlike.expected?_eq {h : Hierarchy} {log log' : List (Member × Value)}
    {m : Member} (hAlike : h.GivenAlike log log' m) : h.expected? log' m = h.expected? log m := by
  rw [expected?, expected?]
  rcases hAlike with hSame | ⟨given, given', hGiven, hGiven', hRetyped, hReliable, hReliable'⟩
  · rw [hSame]
  · rw [hGiven, hGiven']
    exact (hRetyped.convert?_eq hReliable hReliable').symm

namespace InstanceBuilder

variable {b b' : InstanceBuilder} {s : MemberSelector σ} {given given' : Value}

theorem assign_eq_ok_iff : b.assign serve s given w = (.ok b', v) ↔
    ∃ m a, b.select serve s w = (.ok m, v) ∧ v.hierarchy.convert? given m.type = some a ∧
      a.isNull = false ∧ b' = { b with assigned := Table.set b.assigned m.name a } := by
  constructor
  · exact assign_eq_ok
  · rintro ⟨m, a, hSelect, hConvert, hNull, rfl⟩
    exact assign_ok hSelect hConvert hNull

/-- Values that convert alike are assigned alike. -/
theorem assign_congr (hSame : ∀ m u, b.select serve s w = (.ok m, u) →
      u.hierarchy.convert? given m.type = u.hierarchy.convert? given' m.type) :
    b.assign serve s given w = (.ok b', v) ↔ b.assign serve s given' w = (.ok b', v) := by
  rw [assign_eq_ok_iff, assign_eq_ok_iff]
  constructor
  · rintro ⟨m, a, hSelect, hConvert, hRest⟩
    exact ⟨m, a, hSelect, (hSame m v hSelect).symm.trans hConvert, hRest⟩
  · rintro ⟨m, a, hSelect, hConvert, hRest⟩
    exact ⟨m, a, hSelect, (hSame m v hSelect).trans hConvert, hRest⟩

end InstanceBuilder

/-- What is decided of some values is decided of all of them from one depth on. -/
theorem exists_bound_of_decides {vs : List Value} (hEach : ∀ a ∈ vs, w.Decides client a a true) :
    ∃ bound, ∀ a ∈ vs, ∀ depth, bound ≤ depth →
      a.equals (perform client depth) a w = (.ok true, w) := by
  induction vs with
  | nil => exact ⟨0, nofun⟩
  | cons a vs ih =>
      obtain ⟨first, hFirst⟩ := hEach a (List.mem_cons_self ..)
      obtain ⟨bound, hRest⟩ := ih fun u hu => hEach u (List.mem_cons_of_mem a hu)
      refine ⟨max first bound, fun u hu depth hDepth => ?_⟩
      rcases List.mem_cons.mp hu with rfl | hu
      · exact hFirst depth (Nat.le_trans (Nat.le_max_left ..) hDepth)
      · exact hRest u hu depth (Nat.le_trans (Nat.le_max_right ..) hDepth)

namespace InstanceBuilder.Built

variable {c : ClassId} {log log' : List (Member × Value)} {o o' : ObjectRef}

/-- Instances of whose members the same is expected have the same values. -/
theorem exists_same_values (hBuilt : Built client c log o w) (hBuilt' : Built client c log' o' w)
    (hSame : ∀ m ∈ (w.hierarchy.contract c).members,
      w.hierarchy.expected? log' m = w.hierarchy.expected? log m) :
    ∃ x y, w.Stands o x ∧ w.Stands o' y ∧ x.values = y.values := by
  obtain ⟨x, hx, hContract, hExpected⟩ := hBuilt.stands
  obtain ⟨y, hy, hContract', hExpected'⟩ := hBuilt'.stands
  refine ⟨x, y, hx, hy, ?_⟩
  rw [Instance.values, Instance.values, hContract, hContract']
  refine List.map_congr_left fun m hm => ?_
  rw [Option.some.inj ((hExpected m hm).symm.trans ((hSame m hm).symm.trans (hExpected' m hm)))]

/-- Instances with the same values are equal, if each value is equal to itself. -/
theorem decides_of_expected?_eq (hBuilt : Built client c log o w)
    (hBuilt' : Built client c log' o' w)
    (hSame : ∀ m ∈ (w.hierarchy.contract c).members,
      w.hierarchy.expected? log' m = w.hierarchy.expected? log m)
    (hSelf : ∀ m ∈ (w.hierarchy.contract c).members, ∀ a, w.hierarchy.expected? log m = some a →
      w.Decides client a a true) : w.Decides client (.object o) (.object o') true := by
  obtain ⟨x, hx, hContract, hExpected⟩ := hBuilt.stands
  obtain ⟨y, hy, _, hExpected'⟩ := hBuilt'.stands
  have hValues : x.contract.members.map y.valueOf = x.contract.members.map x.valueOf := by
    rw [hContract]
    exact List.map_congr_left fun m hm => Option.some.inj
      ((hExpected' m hm).symm.trans ((hSame m hm).trans (hExpected m hm)))
  have hDecides : ∀ a ∈ x.contract.members.map x.valueOf, w.Decides client a a true := by
    rw [hContract]
    intro a ha
    obtain ⟨m, hm, rfl⟩ := List.mem_map.mp ha
    exact hSelf m hm _ (hExpected m hm)
  obtain ⟨bound, hEach⟩ := exists_bound_of_decides hDecides
  refine ⟨bound + 2, fun depth hDepth => ?_⟩
  obtain ⟨k, rfl⟩ : ∃ k, depth = k + 2 := ⟨depth - 2, by omega⟩
  have hRun := hBuilt.equals_eq hBuilt' hx hy k
  rw [hValues, Value.equalItems_self fun a ha => hEach a ha (k + 1) (by omega), if_pos rfl,
    ite_self] at hRun
  exact hRun

end InstanceBuilder.Built

/-- Arrays given to members. Whatever is given to a member of array type, the array stored has just
the element type of the member; and what is stored conforms to the type of the member at every
depth, if the arrays that were given keep what they promise: an array that has the element type
already is taken as it is, whatever its items are. Two values for a member that keep what they
promise, and differ only in how loosely their arrays were typed, are assigned alike. So instances to
whose members such values were given last have the same values: hash and text of both are computed
from these, every accessor answers the same, and they are equal as soon as each value is equal to
itself. They have one hash for good if their values are composed of atoms by arrays and instances.
-/
theorem conformance_of_assignments {c : ClassId} {log : List (Member × Value)}
    {b : InstanceBuilder} (hFilled : InstanceBuilder.Filled client c log b w) :
    (∀ depth s given b' v, b.assign (perform client depth) s given w = (.ok b', v) →
      ∃ m ∈ (v.hierarchy.contract c).members, ∃ a,
        (b.select (perform client depth) s w).1 = .ok m ∧ b'.assigned? m.name = some a ∧
        (∀ t, m.type = .array t → ∃ items, a = .array t items) ∧
        (v.hierarchy.Reliable given m.type → v.hierarchy.Conforms a m.type)) ∧
    (∀ m ∈ (w.hierarchy.contract c).members, ∀ t, m.type = .array t → ∀ items depth,
      ∃ b', b.assign (perform client depth) (.name m.name) (.array t items) w = (.ok b', w)) ∧
    (∀ depth s given given', (∀ m v, b.select (perform client depth) s w = (.ok m, v) →
        Hierarchy.Retyped m.type given given' ∧ v.hierarchy.Reliable given m.type ∧
          v.hierarchy.Reliable given' m.type) →
      ∀ b' v, b.assign (perform client depth) s given w = (.ok b', v) ↔
        b.assign (perform client depth) s given' w = (.ok b', v)) ∧
    ∀ (log log' : List (Member × Value)) (o o' : ObjectRef),
      InstanceBuilder.Built client c log o w → InstanceBuilder.Built client c log' o' w →
      (∀ m ∈ (w.hierarchy.contract c).members, w.hierarchy.GivenAlike log log' m) →
      (∃ x y, w.Stands o x ∧ w.Stands o' y ∧ x.values = y.values) ∧
      (∀ m ∈ (w.hierarchy.contract c).members, ∃ a, ∀ depth,
        o.invoke (perform client (depth + 1)) m.accessor [] w = (.ok a, w) ∧
        o'.invoke (perform client (depth + 1)) m.accessor [] w = (.ok a, w)) ∧
      ((∀ m ∈ (w.hierarchy.contract c).members, ∀ a, w.hierarchy.expected? log m = some a →
        w.Decides client a a true) → w.Decides client (.object o) (.object o') true) ∧
      (ProperlyReached client w → (∀ m ∈ (w.hierarchy.contract c).members, ∀ a,
        w.hierarchy.expected? log m = some a → Composed client w a) →
        ∃ n bound, ∀ v, ProperlyLeads client w v → ∀ depth, bound ≤ depth →
          (o.hashCode (perform client depth) v).1 = .ok n ∧
          (o'.hashCode (perform client depth) v).1 = .ok n) := by
  obtain ⟨hReach, hRecords⟩ := hFilled.records
  refine ⟨?_, ?_, ?_, ?_⟩
  · intro depth s given b' v hAssign
    have hLeads := Leads.of_operation (.assign depth b s given) hAssign
    have hLater := hRecords.mono (hLeads.evolves hReach.sound).1.hierarchy
    obtain ⟨m, a, hSelect, hConvert, hNull, rfl⟩ := InstanceBuilder.assign_eq_ok hAssign
    refine ⟨m, hLater.contract ▸ InstanceBuilder.mem_of_select hSelect, a, by rw [hSelect], ?_, ?_,
      fun hReliable => hReliable.conforms hConvert⟩
    · rw [InstanceBuilder.assigned?, Table.find?_set, if_pos rfl]
    · intro t ht
      rw [ht] at hConvert
      exact Hierarchy.array_of_convert? hConvert hNull
  · intro m hm t ht items depth
    have hSelect : b.select (perform client depth) (.name m.name) w = (.ok m, w) :=
      InstanceBuilder.select_name hRecords.annotation hRecords.contract (hRecords.contract ▸ hm)
    have hKept : w.hierarchy.convert? (.array t items) m.type = some (.array t items) := by
      rw [ht, Hierarchy.convert?, if_pos rfl]
    exact ⟨_, InstanceBuilder.assign_ok hSelect hKept rfl⟩
  · intro depth s given given' hSame b' v
    refine InstanceBuilder.assign_congr fun m u hSelect => ?_
    obtain ⟨hRetyped, hReliable, hReliable'⟩ := hSame m u hSelect
    exact hRetyped.convert?_eq hReliable hReliable'
  · intro log log' o o' hBuilt hBuilt' hAlike
    have hExpected (m : Member) (hm : m ∈ (w.hierarchy.contract c).members) :=
      (hAlike m hm).expected?_eq
    refine ⟨hBuilt.exists_same_values hBuilt' hExpected, fun m hm => ?_,
      hBuilt.decides_of_expected?_eq hBuilt' hExpected, fun hReached hComposed => ?_⟩
    · obtain ⟨a, ha, _, hInvoke⟩ := hBuilt.invoke_accessor hm
      obtain ⟨a', ha', _, hInvoke'⟩ := hBuilt'.invoke_accessor hm
      rw [hExpected m hm, ha] at ha'
      cases ha'
      exact ⟨a, fun depth => ⟨hInvoke depth, hInvoke' depth⟩⟩
    · have hSame : w.Alike (.object o) (.object o') := by
        refine (hBuilt.alike_iff hBuilt').mpr fun m hm => ?_
        obtain ⟨a, ha, _⟩ := hBuilt.invoke_accessor hm
        exact ⟨a, a, ha, (hExpected m hm).trans ha, (hComposed m hm a ha).alike_refl⟩
      obtain ⟨d, hd, hd'⟩ := hSame
      exact ⟨d.hash w.hierarchy, d.rank, fun v hLeads depth hDepth =>
        ⟨(hReached.tidy.answers_later hLeads hd hDepth).1,
          (hReached.tidy.answers_later hLeads hd' hDepth).1⟩⟩

/-- An annotation type with lists of names among its values. -/
def boxType : ClassBuilder :=
  (ClassBuilder.empty .annotationType "box").method
    { name := "names", result := .array (.array .string) }

/-- A world in which it has just been declared. -/
def boxWorld : World Stub.Stage :=
  (boxType.declare (ε := ProxyError) { client := {} }).2

theorem reachable_boxWorld : World.Reachable Stub.client boxWorld :=
  ⟨{}, .step .refl (.declare boxType)⟩

/-- A builder of boxes that holds some values. -/
def boxBuilder (assigned : Table String Value) : InstanceBuilder :=
  ⟨boxWorld.hierarchy.contract ⟨3⟩, assigned⟩

/-- A list with one list of one name, its types left open. -/
def looseNames : Value :=
  .array .any [.array .any [.string "x"]]

/-- The same with its types. -/
def strictNames : Value :=
  .array (.array .string) [.array .string [.string "x"]]

/-- A list that has the type of a list of lists of names, and holds a name. -/
def falseNames : Value :=
  .array (.array .string) [.string "x"]

theorem members_box :
    (boxWorld.hierarchy.contract ⟨3⟩).members = [boxWorld.hierarchy.memberOf ⟨⟨3⟩, 0⟩] := by
  have hAccessors : boxWorld.hierarchy.accessors ⟨3⟩ = [⟨⟨3⟩, 0⟩] := by decide +kernel
  rw [Hierarchy.contract, hAccessors]
  rfl

theorem open_box : InstanceBuilder.of boxWorld.hierarchy ⟨3⟩ = .ok (boxBuilder []) :=
  InstanceBuilder.of_eq_ok (by decide) (Option.isNone_iff_eq_none.mp (by decide +kernel))

theorem names_mem_members : boxWorld.hierarchy.memberOf ⟨⟨3⟩, 0⟩ ∈
    (boxWorld.hierarchy.contract ⟨3⟩).members := by
  simp [members_box]

theorem select_names : (boxBuilder []).select (perform Stub.client 0) (.name "names") boxWorld =
    (.ok (boxWorld.hierarchy.memberOf ⟨⟨3⟩, 0⟩), boxWorld) :=
  InstanceBuilder.select_name (h := boxWorld.hierarchy) (c := ⟨3⟩)
    (m := boxWorld.hierarchy.memberOf ⟨⟨3⟩, 0⟩) (by decide) rfl names_mem_members

/-- A list is taken by its type, even if what it holds is not of this type. -/
theorem false_names_accepted : InstanceBuilder.of boxWorld.hierarchy ⟨3⟩ = .ok (boxBuilder []) ∧
    (boxBuilder []).assign (perform Stub.client 0) (.name "names") falseNames boxWorld =
      (.ok (boxBuilder [("names", falseNames)]), boxWorld) ∧
    (boxBuilder [("names", falseNames)]).assigned? "names" = some falseNames ∧
    ¬ boxWorld.hierarchy.Conforms falseNames (.array (.array .string)) := by
  refine ⟨open_box, InstanceBuilder.assign_ok (a := falseNames) select_names rfl rfl, rfl, ?_⟩
  intro hConforms
  cases hConforms with
  | exact hv => cases hv
  | array hItems =>
      have hName := hItems (.string "x") (List.mem_singleton_self _)
      generalize hType : Ty.array .string = t at hName
      cases hName <;> cases hType

theorem retyped_names : Hierarchy.Retyped (.array (.array .string)) looseNames strictNames := by
  refine .array rfl fun v v' hMem => ?_
  cases List.mem_singleton.mp hMem
  refine .array rfl fun v v' hMem => ?_
  cases List.mem_singleton.mp hMem
  exact .same

theorem reliable_looseNames (h : Hierarchy) :
    h.Reliable looseNames (.array (.array .string)) := by
  refine .loose (by decide) fun v hv => ?_
  rw [List.mem_singleton.mp hv]
  refine .loose (by decide) fun v hv => ?_
  rw [List.mem_singleton.mp hv]
  exact .single rfl

theorem reliable_strictNames (h : Hierarchy) :
    h.Reliable strictNames (.array (.array .string)) := by
  refine .exact fun v hv => ?_
  rw [List.mem_singleton.mp hv]
  refine .array fun v hv => ?_
  rw [List.mem_singleton.mp hv]
  exact .exact rfl

/-- What is given to the only member of a box. -/
def boxLog (given : Value) : List (Member × Value) :=
  [(boxWorld.hierarchy.memberOf ⟨⟨3⟩, 0⟩, given)]

theorem filled_box {given : Value}
    (hConvert : boxWorld.hierarchy.convert? given (.array (.array .string)) = some strictNames) :
    InstanceBuilder.Filled Stub.client ⟨3⟩ (boxLog given) (boxBuilder [("names", strictNames)])
      boxWorld :=
  (InstanceBuilder.Filled.opened reachable_boxWorld open_box).assign_name (a := strictNames)
    names_mem_members hConvert rfl

/-- A loose list is assigned as a strict one is, and conforms then. A box that was given the one and
a box that was given the other are equal, and have one hash for good. -/
theorem conformance_of_boxes : ∃ o o' u w,
    (boxBuilder []).assign (perform Stub.client 0) (.name "names") looseNames boxWorld =
      (.ok (boxBuilder [("names", strictNames)]), boxWorld) ∧
    (boxBuilder []).assign (perform Stub.client 0) (.name "names") strictNames boxWorld =
      (.ok (boxBuilder [("names", strictNames)]), boxWorld) ∧
    boxWorld.hierarchy.Conforms strictNames (.array (.array .string)) ∧
    (boxBuilder [("names", strictNames)]).build boxWorld = (.ok o, u) ∧
    (boxBuilder [("names", strictNames)]).build u = (.ok o', w) ∧
    w.Decides Stub.client (.object o) (.object o') true ∧
    ∃ n bound, ∀ v, ProperlyLeads Stub.client w v → ∀ depth, bound ≤ depth →
      (o.hashCode (perform Stub.client depth) v).1 = .ok n ∧
      (o'.hashCode (perform Stub.client depth) v).1 = .ok n := by
  -- the assignments first
  obtain ⟨hStored, _, hAssigned, _⟩ := conformance_of_assignments
    (InstanceBuilder.Filled.opened reachable_boxWorld open_box)
  have hAssign : (boxBuilder []).assign (perform Stub.client 0) (.name "names") looseNames
      boxWorld = (.ok (boxBuilder [("names", strictNames)]), boxWorld) :=
    InstanceBuilder.assign_ok (a := strictNames) select_names rfl rfl
  have hAssign' := (hAssigned 0 (.name "names") looseNames strictNames (fun m v hSelect => by
    rw [select_names] at hSelect
    cases hSelect
    exact ⟨retyped_names, reliable_looseNames _, reliable_strictNames _⟩) _ _).mp hAssign
  obtain ⟨m, _, a, hSelect, hFound, _, hConforms⟩ := hStored 0 _ _ _ _ hAssign
  rw [select_names] at hSelect
  cases hSelect
  cases hFound
  -- then the instances
  have hLoose : InstanceBuilder.Filled Stub.client ⟨3⟩ (boxLog looseNames) _ boxWorld :=
    filled_box rfl
  have hStrict : InstanceBuilder.Filled Stub.client ⟨3⟩ (boxLog strictNames) _ boxWorld :=
    filled_box rfl
  obtain ⟨o, u, hFirst, _, h₁⟩ := hLoose.exists_built (by decide +kernel)
  obtain ⟨o', w, hSecond, hBuilt', h₂⟩ := (hStrict.meanwhile h₁).exists_built (by decide +kernel)
  have hLeads := h₁.trans h₂
  have hMembers : (w.hierarchy.contract ⟨3⟩).members =
      [boxWorld.hierarchy.memberOf ⟨⟨3⟩, 0⟩] := by
    have hGrows := (hLeads.evolves reachable_boxWorld.sound).1
    rw [hGrows.hierarchy.contract_eq (by decide), members_box]
  have hAlike : ∀ m ∈ (w.hierarchy.contract ⟨3⟩).members,
      w.hierarchy.GivenAlike (boxLog looseNames) (boxLog strictNames) m := by
    intro m hm
    rw [hMembers] at hm
    rw [List.mem_singleton.mp hm]
    exact .inr ⟨looseNames, strictNames, rfl, rfl, retyped_names, reliable_looseNames _,
      reliable_strictNames _⟩
  have hExpected : ∀ m ∈ (w.hierarchy.contract ⟨3⟩).members, ∀ a,
      w.hierarchy.expected? (boxLog looseNames) m = some a → a = strictNames := by
    intro m hm a ha
    rw [hMembers] at hm
    rw [List.mem_singleton.mp hm] at ha
    exact (Option.some.inj ha).symm
  have hComposed : Composed Stub.client w strictNames := by
    refine .array fun v hv => ?_
    rw [List.mem_singleton.mp hv]
    refine .array fun v hv => ?_
    rw [List.mem_singleton.mp hv]
    exact .atom rfl
  have hKnown {t : World Stub.Stage} (hDeclared : t.hierarchy.Declared ⟨3⟩) :
      (boxBuilder [("names", strictNames)]).Known t := by
    refine ⟨hDeclared, fun m hm a ha => ?_⟩
    rw [boxBuilder, members_box] at hm
    rw [List.mem_singleton.mp hm] at ha
    cases ha
    refine .array fun v hv => ?_
    rw [List.mem_singleton.mp hv]
    refine .array fun v hv => ?_
    rw [List.mem_singleton.mp hv]
    exact .atom rfl fun _ h => by cases h
  have hDeclared : u.hierarchy.Declared ⟨3⟩ :=
    (h₁.evolves reachable_boxWorld.sound).1.hierarchy.declared (by decide)
  have hReached : ProperlyReached Stub.client w :=
    ⟨{}, ((ProperlyLeads.refl.step (.command (.declare boxType))).trans
      (.of_proper (.newInstance _ (hKnown (by decide))) hFirst)).trans
      (.of_proper (.newInstance _ (hKnown hDeclared)) hSecond)⟩
  obtain ⟨_, _, _, hInstances⟩ := conformance_of_assignments (hLoose.meanwhile hLeads)
  obtain ⟨_, _, hEqual, hHash⟩ := hInstances _ _ o o' ⟨hLoose, hFirst, h₂⟩ hBuilt' hAlike
  refine ⟨o, o', u, w, hAssign, hAssign', hConforms (reliable_looseNames _), hFirst, hSecond,
    hEqual fun m hm a ha => ?_, hHash hReached fun m hm a ha => ?_⟩
  · rw [hExpected m hm a ha, hComposed.decides_true_iff hComposed]
    exact hComposed.alike_refl
  · rw [hExpected m hm a ha]
    exact hComposed

end Metaobject
