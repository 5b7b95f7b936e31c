import Metaobject.Proofs.Instance.Caching
import Metaobject.Proofs.Instance.Looseness

/-!
When builders are complete. A builder can be opened if the defaults of the annotation type fit,
holds only what its members may have from then on, and builds an instance as soon as no member lacks
a value. What is lacking can be told from what was given to members, without a look at the builder.
-/
namespace Metaobject

variable {σ : Type} {client : Client σ} {c : ClassId} {log : List (Member × Value)}
  {b : InstanceBuilder} {o p : ObjectRef} {u v w : World σ}

namespace Hierarchy

variable {h k : Hierarchy}

/-- The names of the members that have no default and were given nothing, in order. -/
def lacking (h : Hierarchy) (c : ClassId) (log : List (Member × Value)) : List String :=
  ((h.contract c).members.filter fun m =>
    m.default?.isNone && (lastGiven? m log).isNone).map Member.name

/-- The defaults of the members that have one, in order. -/
def defaults (h : Hierarchy) (c : ClassId) : List Value :=
  (h.contract c).members.filterMap Member.default?

theorem lacking_eq_nil_iff : h.lacking c log = [] ↔ ∀ m ∈ (h.contract c).members,
    m.default? = none → (lastGiven? m log).isSome = true := by
  simp [lacking, Option.ne_none_iff_isSome]

theorem nodup_lacking (hc : h.isAnnotationType c = true) : (h.lacking c log).Nodup :=
  (nodup_names hc).sublist (List.filter_sublist.map _)

/-- Before anything is given, what is lacking are the members without a default. -/
theorem lacking_nil : h.lacking c [] = (h.contract c).required.map Member.name := by
  simp [lacking, lastGiven?, Contract.required]

theorem GrowsTo.lacking_eq (hk : h.GrowsTo k) (hc : h.Declared c) :
    k.lacking c log = h.lacking c log := by
  rw [lacking, lacking, hk.contract_eq hc]

theorem GrowsTo.defaults_eq (hk : h.GrowsTo k) (hc : h.Declared c) :
    k.defaults c = h.defaults c := by
  rw [defaults, defaults, hk.contract_eq hc]

end Hierarchy

/-- A proxy that is made is the newest of all objects. -/
theorem ProxyBuilder.size_of_build {b : ProxyBuilder} (hBuild : b.build w = (.ok o, v)) :
    v.objects.size = o.id + 1 := by
  rw [build] at hBuild
  split at hBuild
  · cases hBuild
  · rw [Run.bind_ok (Run.hierarchy_apply w)] at hBuild
    obtain ⟨contracts, _, _, hRest⟩ := Run.exists_of_bind_ok hBuild
    obtain ⟨made, z, _, hObject⟩ := Run.exists_of_bind_ok hRest
    cases hObject
    exact Array.size_push ..

namespace InstanceBuilder

variable {h : Hierarchy}

theorem id_of_build (hSound : w.Sound) (hBuild : b.build w = (.ok o, v)) :
    o.id = w.objects.size := by
  obtain ⟨_, _, _, _, hRun, -⟩ := b.build_eq (missing_of_build hBuild) w
  have hSize := ProxyBuilder.size_of_build (Run.ok_of_mapError (hRun.symm.trans hBuild))
  obtain ⟨x, hYields⟩ := b.yields_of_build hSound hBuild
  obtain ⟨_, _, hObjects, _⟩ := hYields.object
  rw [hObjects, Array.size_push] at hSize
  exact (Nat.succ.inj hSize).symm

/-- Where a builder could be opened before, one can be opened again. -/
theorem Records.of_eq_ok (hRecords : Records b h c log) :
    InstanceBuilder.of h c = .ok { contract := h.contract c } :=
  of_eq_ok_iff.mpr ⟨hRecords.annotation, hRecords.contract ▸ hRecords.defaults, rfl⟩

/-- A member has a value if and only if it was given one. -/
theorem Records.isSome_assigned? (hRecords : Records b h c log) {m : Member}
    (hm : m ∈ (h.contract c).members) :
    (b.assigned? m.name).isSome = (lastGiven? m log).isSome := by
  rw [← hRecords.contract] at hm
  cases hGiven : lastGiven? m log with
  | none => rw [hRecords.unassigned m hm hGiven]
  | some given =>
      obtain ⟨a, ha, -⟩ := hRecords.assigned m hm given hGiven
      rw [ha]
      rfl

/-- What a builder is missing is what is lacking by what was given. -/
theorem Records.missing_eq (hRecords : Records b h c log) : b.missing = h.lacking c log := by
  rw [missing, Contract.required, List.filter_filter, hRecords.contract, Hierarchy.lacking]
  refine congrArg _ (List.filter_congr fun m hm => ?_)
  have hSome := hRecords.isSome_assigned? hm
  rw [Bool.and_comm, ← Option.not_isSome (b.assigned? m.name), hSome, Option.not_isSome]

/-- Whatever a builder holds is a value that a member may have, under the name of this member. -/
def Holds (b : InstanceBuilder) (h : Hierarchy) (c : ClassId) : Prop :=
  ∀ entry ∈ b.assigned, ∃ m ∈ (h.contract c).members, m.name = entry.1 ∧ Fits h m entry.2

theorem Holds.mono {k : Hierarchy} (hb : b.Holds h c) (hc : h.Declared c) (hk : h.GrowsTo k) :
    b.Holds k c := by
  intro entry hEntry
  obtain ⟨m, hm, hName, hNull, hInstance⟩ := hb entry hEntry
  exact ⟨m, hk.contract_eq hc ▸ hm, hName, hNull, hk.isInstance entry.2 m.type hInstance⟩

theorem Holds.set (hb : b.Holds h c) {m : Member} (hm : m ∈ (h.contract c).members) {a : Value}
    (ha : Fits h m a) : Holds { b with assigned := Table.set b.assigned m.name a } h c := by
  intro entry hEntry
  rcases Table.mem_set hEntry with hOld | rfl
  · exact hb entry hOld
  · exact ⟨m, hm, rfl, ha⟩

/-- A builder holds nothing else, all the way. -/
theorem Filled.holds (hFilled : Filled client c log b w) : b.Holds w.hierarchy c := by
  refine (hFilled.keeps (P := fun log b h => Records b h c log ∧ b.Holds h c) ?_ ?_ ?_).2.2
  · intro h b hOpen
    obtain ⟨-, -, rfl⟩ := of_eq_ok_iff.mp hOpen
    exact ⟨records_of_open hOpen, fun entry hEntry => absurd hEntry List.not_mem_nil⟩
  · rintro log b h k hk ⟨hRecords, hHolds⟩
    have hDeclared := Hierarchy.declared_of_isAnnotationType hRecords.annotation
    exact ⟨hRecords.mono hk, hHolds.mono hDeclared hk⟩
  · rintro log b h m given a hm hConvert hNull ⟨hRecords, hHolds⟩
    have hFits : Fits h m a := ⟨hNull, Hierarchy.isInstance_of_convert? hConvert⟩
    exact ⟨hRecords.assign hm hConvert hNull, hHolds.set (hRecords.contract ▸ hm) hFits⟩

/-- A builder builds an instance if and only if nothing is lacking. -/
theorem Filled.exists_build_iff (hFilled : Filled client c log b w) :
    (∃ o v, b.build w = (.ok o, v)) ↔ w.hierarchy.lacking c log = [] := by
  rw [← hFilled.records.2.missing_eq, ← List.isEmpty_iff]
  constructor
  · rintro ⟨o, v, hBuild⟩
    exact missing_of_build hBuild
  · intro hMissing
    obtain ⟨o, v, hBuild, -⟩ := hFilled.exists_built hMissing
    exact ⟨o, v, hBuild⟩

/-- Otherwise it says what is lacking, and nothing changes. -/
theorem Filled.build_of_lacking (hFilled : Filled client c log b w)
    (hLacking : w.hierarchy.lacking c log ≠ []) :
    b.build w = (.error (.raised (.missingMembers (w.hierarchy.lacking c log))), w) := by
  rw [← hFilled.records.2.missing_eq] at hLacking ⊢
  rw [build, if_neg (by simpa using hLacking)]
  rfl

theorem marker_of_error {e : InstanceError}
    (hFailed : InstanceBuilder.of w.hierarchy c = .error e) :
    marker c w = (.error (.raised e), w) := by
  rw [marker, Run.bind_ok (Run.hierarchy_apply w), hFailed]
  rfl

/-- A marker is built by a builder that has been opened just now, if nothing is lacking. -/
theorem marker_of_ok (hOpen : InstanceBuilder.of w.hierarchy c = .ok b) :
    marker c w = if w.hierarchy.lacking c [] = [] then b.build w
      else (.error (.raised (.notMarker c (w.hierarchy.lacking c []))), w) := by
  have hContract : b.contract = w.hierarchy.contract c := (records_of_open hOpen).contract
  have hMarker : (b.contract.isMarker = true) ↔ w.hierarchy.lacking c [] = [] := by
    rw [Contract.isMarker, hContract, Hierarchy.lacking_nil, List.isEmpty_iff, List.map_eq_nil_iff]
  rw [marker, Run.bind_ok (Run.hierarchy_apply w), hOpen]
  refine (Run.bind_ok (Run.pure_apply b w)).trans ?_
  by_cases hLacking : w.hierarchy.lacking c [] = []
  · rw [if_pos hLacking, if_pos (hMarker.mpr hLacking)]
  · rw [if_neg hLacking, if_neg fun h => hLacking (hMarker.mp h), hContract,
      ← Hierarchy.lacking_nil]
    rfl

theorem exists_marker_iff (hReach : World.Reachable client w) :
    (∃ o v, marker c w = (.ok o, v)) ↔
      (∃ b, InstanceBuilder.of w.hierarchy c = .ok b) ∧ w.hierarchy.lacking c [] = [] := by
  cases hOpen : InstanceBuilder.of w.hierarchy c with
  | error e =>
      rw [marker_of_error hOpen]
      exact iff_of_false nofun nofun
  | ok b =>
      have hOpened : Filled client c [] b w := .opened hReach hOpen
      rw [marker_of_ok hOpen]
      split
      · next hNothing => simp [hNothing, hOpened.exists_build_iff]
      · next hLacking => exact iff_of_false nofun fun hMarker => hLacking hMarker.2

/-- Two instances to whose members nothing was given are compared by comparing each default with
itself. -/
theorem Built.equals_defaults (hBuilt : Built client c [] o w) (hBuilt' : Built client c [] p w)
    (hOther : o.id ≠ p.id) (depth : Nat) :
    o.equals (perform client (depth + 2)) (.object p) w =
      Value.equalItems (perform client (depth + 1)) (w.hierarchy.defaults c)
        (w.hierarchy.defaults c) w := by
  obtain ⟨x, hx, hContract, hExpected⟩ := hBuilt.stands
  obtain ⟨y, hy, -, hExpected'⟩ := hBuilt'.stands
  have hDefaults {z : Instance} (hValues : ∀ m ∈ (w.hierarchy.contract c).members,
      w.hierarchy.expected? [] m = some (z.valueOf m)) :
      x.contract.members.map z.valueOf = w.hierarchy.defaults c := by
    rw [hContract, Hierarchy.defaults, ← List.filterMap_eq_map]
    exact List.filterMap_congr fun m hm => (hValues m hm).symm
  rw [hBuilt.equals_eq hBuilt' hx hy, if_neg (by simpa [ObjectRef.same] using hOther), if_pos rfl,
    hDefaults hExpected, hDefaults hExpected']

/-- A marker, and what a builder builds that is opened later and given nothing. -/
theorem exists_built_beside_marker (hReach : World.Reachable client w)
    (hMarker : marker c w = (.ok o, v)) (hLeads : World.Leads client v u) :
    ∃ b p t, InstanceBuilder.of u.hierarchy c = .ok b ∧ b.build u = (.ok p, t) ∧
      Built client c [] o t ∧ Built client c [] p t ∧ o.id ≠ p.id := by
  cases hOpen : InstanceBuilder.of w.hierarchy c with
  | error e => cases (marker_of_error hOpen).symm.trans hMarker
  | ok b =>
      rw [marker_of_ok hOpen] at hMarker
      split at hMarker
      · next hNothing =>
          have hOpened : Filled client c [] b w := .opened hReach hOpen
          have hBuilt : Built client c [] o u := ⟨hOpened, hMarker, hLeads⟩
          have hMiddle : World.Leads client w v := .of_operation (.newInstance b) hMarker
          have hGrows := ((hMiddle.trans hLeads).growsTo hReach.sound).hierarchy
          have hRecords := records_of_open hOpen
          have hDeclared := Hierarchy.declared_of_isAnnotationType hRecords.annotation
          have hAgain := (hRecords.mono hGrows).of_eq_ok
          have hOpened' : Filled client c [] _ u := .opened hBuilt.reachable hAgain
          have hMissing := hOpened'.records.2.missing_eq.trans
            ((hGrows.lacking_eq hDeclared).trans hNothing)
          obtain ⟨p, t, hBuild, hBuilt', hLast⟩ :=
            hOpened'.exists_built (List.isEmpty_iff.mpr hMissing)
          refine ⟨_, p, t, hAgain, hBuild, hBuilt.later hLast, hBuilt', ?_⟩
          rw [id_of_build hBuilt.reachable.sound hBuild]
          exact Nat.ne_of_lt hBuilt.id_lt
      · cases hMarker

end InstanceBuilder

/-- When builders are complete. An annotation type has a builder if and only if each default is a
value that its member may have. Whatever has been done with a builder, it holds values for just the
members to which one was given, under their names, each a value that the member may have. It builds
an instance if and only if every member without a default has a value, and says otherwise which
members lack one, each once and in order. An annotation type has a marker if and only if it has a
builder and no member is without a default; if it is for the latter that it has none, the members
without a default are named. Comparing the marker with what a builder builds later of defaults alone
is comparing these defaults each with itself, so they are equal if each default is equal to itself.
-/
theorem completeness_of_builders (hReach : World.Reachable client w)
    (hKind : w.hierarchy.isAnnotationType c = true) :
    ((∃ b, InstanceBuilder.of w.hierarchy c = .ok b) ↔
      ∀ m ∈ (w.hierarchy.contract c).members, ∀ a, m.default? = some a →
        InstanceBuilder.Fits w.hierarchy m a) ∧
    (∀ log, (w.hierarchy.lacking c log).Nodup) ∧
    (∀ log b, InstanceBuilder.Filled client c log b w →
      b.Holds w.hierarchy c ∧
      (∀ m ∈ (w.hierarchy.contract c).members,
        (b.assigned? m.name).isSome = (lastGiven? m log).isSome) ∧
      ((∃ o v, b.build w = (.ok o, v)) ↔ ∀ m ∈ (w.hierarchy.contract c).members,
        m.default? = none → (b.assigned? m.name).isSome = true) ∧
      (¬ (∃ o v, b.build w = (.ok o, v)) →
        b.build w = (.error (.raised (.missingMembers (w.hierarchy.lacking c log))), w))) ∧
    ((∃ o v, InstanceBuilder.marker c w = (.ok o, v)) ↔
      (∃ b, InstanceBuilder.of w.hierarchy c = .ok b) ∧
        ∀ m ∈ (w.hierarchy.contract c).members, m.default? ≠ none) ∧
    (∀ e, InstanceBuilder.of w.hierarchy c = .error e →
      InstanceBuilder.marker c w = (.error (.raised e), w)) ∧
    (∀ b, InstanceBuilder.of w.hierarchy c = .ok b →
      ¬ (∃ o v, InstanceBuilder.marker c w = (.ok o, v)) →
      InstanceBuilder.marker c w =
        (.error (.raised (.notMarker c (w.hierarchy.lacking c []))), w)) ∧
    ∀ o v, InstanceBuilder.marker c w = (.ok o, v) → ∀ u, World.Leads client v u →
      ∃ b p t, InstanceBuilder.of u.hierarchy c = .ok b ∧ b.build u = (.ok p, t) ∧
        ∀ z, World.Leads client t z →
          (∀ depth, o.equals (perform client (depth + 2)) (.object p) z =
              Value.equalItems (perform client (depth + 1)) (w.hierarchy.defaults c)
                (w.hierarchy.defaults c) z ∧
            p.equals (perform client (depth + 2)) (.object o) z =
              Value.equalItems (perform client (depth + 1)) (w.hierarchy.defaults c)
                (w.hierarchy.defaults c) z) ∧
          ((∀ a ∈ w.hierarchy.defaults c, z.Decides client a a true) →
            z.Decides client (.object o) (.object p) true ∧
              z.Decides client (.object p) (.object o) true) := by
  refine ⟨?_, fun log => Hierarchy.nodup_lacking hKind, fun log b hFilled => ?_, ?_,
    fun e hFailed => InstanceBuilder.marker_of_error hFailed, fun b hOpen hNone => ?_,
    fun o v hRun u hLeads => ?_⟩
  · constructor
    · rintro ⟨b, hOpen⟩
      exact (InstanceBuilder.of_eq_ok_iff.mp hOpen).2.1
    · exact fun hFits => ⟨_, InstanceBuilder.of_eq_ok_iff.mpr ⟨hKind, hFits, rfl⟩⟩
  · have hSome (m : Member) (hm : m ∈ (w.hierarchy.contract c).members) :=
      hFilled.records.2.isSome_assigned? hm
    refine ⟨hFilled.holds, hSome, ?_, fun hNone => ?_⟩
    · rw [hFilled.exists_build_iff, Hierarchy.lacking_eq_nil_iff]
      exact forall₂_congr fun m hm => by rw [hSome m hm]
    · exact hFilled.build_of_lacking fun hNothing => hNone (hFilled.exists_build_iff.mpr hNothing)
  · rw [InstanceBuilder.exists_marker_iff hReach, Hierarchy.lacking_eq_nil_iff]
    simp [lastGiven?]
  · rw [InstanceBuilder.marker_of_ok hOpen, if_neg]
    exact fun hNothing =>
      hNone ((InstanceBuilder.exists_marker_iff hReach).mpr ⟨⟨b, hOpen⟩, hNothing⟩)
  · obtain ⟨b, p, t, hOpen, hBuild, hBuilt, hBuilt', hOther⟩ :=
      InstanceBuilder.exists_built_beside_marker hReach hRun hLeads
    refine ⟨b, p, t, hOpen, hBuild, fun z hLater => ?_⟩
    have hFirst : InstanceBuilder.Built client c [] o z := hBuilt.later hLater
    have hSecond : InstanceBuilder.Built client c [] p z := hBuilt'.later hLater
    have hAll : World.Leads client w z :=
      (((World.Leads.of_operation (.newMarker c) hRun).trans hLeads).trans
        (.of_operation (.newInstance b) hBuild)).trans hLater
    have hDefaults : z.hierarchy.defaults c = w.hierarchy.defaults c :=
      (hAll.growsTo hReach.sound).hierarchy.defaults_eq
        (Hierarchy.declared_of_isAnnotationType hKind)
    rw [← hDefaults]
    refine ⟨fun depth => ⟨hFirst.equals_defaults hSecond hOther depth,
      hSecond.equals_defaults hFirst hOther.symm depth⟩, fun hEach => ?_⟩
    have hSelf (m : Member) (hm : m ∈ (z.hierarchy.contract c).members) (a : Value)
        (ha : z.hierarchy.expected? [] m = some a) : z.Decides client a a true :=
      hEach a (List.mem_filterMap.mpr ⟨m, hm, ha⟩)
    exact ⟨hFirst.decides_of_expected?_eq hSecond (fun _ _ => rfl) hSelf,
      hSecond.decides_of_expected?_eq hFirst (fun _ _ => rfl) hSelf⟩

/-- An annotation type below `limit` that gives the member that needs a value a default. -/
def easyType : ClassBuilder :=
  ((ClassBuilder.empty .annotationType "easy").extend ⟨3⟩).method
    { name := "size", result := .primitive .int, default? := some (.int 1) }

/-- A world in which it has just been declared. -/
def easyWorld : World Stub.Stage :=
  (easyType.declare (ε := ProxyError) limitWorld).2

theorem reachable_easyWorld : World.Reachable Stub.client easyWorld :=
  reachable_limitWorld.leads (.step .refl (.declare easyType))

/-- A limit cannot be built before it has a size. What declares a default for the size is a marker,
equal to what is built of the defaults. -/
theorem completeness_of_limits : ∃ b b' o p v t,
    InstanceBuilder.of easyWorld.hierarchy ⟨3⟩ = .ok b ∧
    b.build easyWorld = (.error (.raised (.missingMembers ["size"])), easyWorld) ∧
    InstanceBuilder.marker ⟨3⟩ easyWorld =
      (.error (.raised (.notMarker ⟨3⟩ ["size"])), easyWorld) ∧
    (∃ limit u, { b with assigned := [("size", .int 3)] }.build easyWorld = (.ok limit, u)) ∧
    InstanceBuilder.marker ⟨4⟩ easyWorld = (.ok o, v) ∧
    InstanceBuilder.of v.hierarchy ⟨4⟩ = .ok b' ∧ b'.build v = (.ok p, t) ∧
    t.Decides Stub.client (.object o) (.object p) true := by
  have hSize : easyWorld.hierarchy.memberOf ⟨⟨3⟩, 0⟩ ∈ (easyWorld.hierarchy.contract ⟨3⟩).members :=
    Hierarchy.mem_members.mpr ⟨by decide +kernel, rfl⟩
  have hOpen : InstanceBuilder.of easyWorld.hierarchy ⟨3⟩ = .ok ⟨_, []⟩ :=
    InstanceBuilder.of_eq_ok (by decide) (Option.isNone_iff_eq_none.mp (by decide +kernel))
  have hOpened := InstanceBuilder.Filled.opened reachable_easyWorld hOpen
  have hFilled := hOpened.assign_name hSize
    (show easyWorld.hierarchy.convert? (.byte 3) (.primitive .int) = some (.int 3) from rfl) rfl
  have hLacking : easyWorld.hierarchy.lacking ⟨3⟩ [] = ["size"] := by decide +kernel
  -- what needs a size
  obtain ⟨-, -, hBuilders, hMarker, -, hNoMarker, -⟩ :=
    completeness_of_builders (c := ⟨3⟩) reachable_easyWorld (by decide)
  obtain ⟨-, -, hComplete, hFailed⟩ := hBuilders _ _ hOpened
  have hMissing := hFailed fun hBuild => Bool.false_ne_true (hComplete.mp hBuild _ hSize rfl)
  have hRefused := hNoMarker _ hOpen fun hBuild => (hMarker.mp hBuild).2 _ hSize rfl
  rw [hLacking] at hMissing hRefused
  obtain ⟨-, hSome, hComplete', -⟩ := hBuilders _ _ hFilled
  have hNothing : easyWorld.hierarchy.lacking ⟨3⟩
      [(easyWorld.hierarchy.memberOf ⟨⟨3⟩, 0⟩, .byte 3)] = [] := by decide +kernel
  obtain ⟨limit, u, hLimit⟩ := hComplete'.mpr fun m hm hNone =>
    (hSome m hm).trans (Hierarchy.lacking_eq_nil_iff.mp hNothing m hm hNone)
  -- what has a default for it
  have hOpen' : InstanceBuilder.of easyWorld.hierarchy ⟨4⟩ = .ok ⟨_, []⟩ :=
    InstanceBuilder.of_eq_ok (by decide) (Option.isNone_iff_eq_none.mp (by decide +kernel))
  have hAtoms : ((easyWorld.hierarchy.defaults ⟨4⟩).all Value.isAtom) = true := by decide +kernel
  have hDefaults : easyWorld.hierarchy.lacking ⟨4⟩ [] = [] := by decide +kernel
  obtain ⟨-, -, -, hMarker', -, -, hBeside⟩ :=
    completeness_of_builders (c := ⟨4⟩) reachable_easyWorld (by decide)
  obtain ⟨o, v, hRun⟩ := hMarker'.mpr ⟨⟨_, hOpen'⟩, fun m hm hNone =>
    Bool.false_ne_true (Hierarchy.lacking_eq_nil_iff.mp hDefaults m hm hNone)⟩
  obtain ⟨b', p, t, hAgain, hBuild, hEqual⟩ := hBeside o v hRun v .refl
  refine ⟨_, b', o, p, v, t, hOpen, hMissing, hRefused, ⟨limit, u, hLimit⟩, hRun, hAgain, hBuild,
    ((hEqual t .refl).2 fun a ha => ?_).1⟩
  have hAtom : Composed Stub.client t a := .atom (List.all_eq_true.mp hAtoms a ha)
  exact (hAtom.decides_true_iff hAtom).mpr hAtom.alike_refl

/-- An annotation type whose only member has a part for its default. -/
def keepsakeType : ClassBuilder :=
  (ClassBuilder.empty .annotationType "keepsake").method
    { name := "part", result := .ofClass ⟨3⟩, default? := some (.object onlyPart) }

/-- The part has been made, and then the type declared. -/
def keepsakeWorld : World Nat :=
  (keepsakeType.declare (ε := ProxyError) (partMade ⟨0⟩)).2

/-- The marker is compared with what a builder builds of the default. -/
def markAndCompare : Run InstanceError Nat Bool := do
  let o ← InstanceBuilder.marker ⟨5⟩
  let b ← Run.ofExcept id (InstanceBuilder.of (← Run.hierarchy) ⟨5⟩)
  let p ← b.build
  Run.mapError .proxy (o.equals (perform partClient 4) (.object p))

/-- A part decides for itself what it equals. Where it does not equal itself, two instances that
have it by default are not equal. -/
theorem keepsakes_unequal : World.Reachable partClient keepsakeWorld ∧
    keepsakeWorld.hierarchy.isAnnotationType ⟨5⟩ = true ∧
    (markAndCompare keepsakeWorld).1.toOption = some false := by
  obtain ⟨state, hLeads⟩ := properlyReached_partMade ⟨0⟩
  exact ⟨⟨state, hLeads.leads.step (.declare keepsakeType)⟩, by decide, by decide +kernel⟩

end Metaobject
