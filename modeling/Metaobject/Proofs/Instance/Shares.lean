import Mathlib.Data.List.Perm.Basic
import Mathlib.Tactic.Choose
import Metaobject.Proofs.Instance.Interchange
import Metaobject.Proofs.Value

/-!
The hash of an instance as a sum. Every member has a share in it, made of its name and of the hash
of its value, and the shares are added in wrapping arithmetic. So the members may be taken in any
order, and it does not matter in which order they were given their values.
-/
namespace Metaobject

variable {σ : Type} {client : Client σ} {serve : Serve σ} {w : World σ}

open World

namespace Hierarchy

/-- The value that a built instance has for a member, by what was given to its members. -/
def effective (h : Hierarchy) (log : List (Member × Value)) (m : Member) : Value :=
  (h.expected? log m).getD .null

/-- The members of a class by name, with the values that a built instance has for them. -/
def effectivePairs (h : Hierarchy) (c : ClassId) (log : List (Member × Value)) :
    List (String × Value) :=
  (h.contract c).members.map fun m => (m.name, h.effective log m)

/-- What is expected of members is a matter of the values last given to them. -/
theorem effectivePairs_congr {h : Hierarchy} {c : ClassId} {log log' : List (Member × Value)}
    (hSame : ∀ m ∈ (h.contract c).members, lastGiven? m log' = lastGiven? m log) :
    h.effectivePairs c log' = h.effectivePairs c log := by
  refine List.map_congr_left fun m hm => ?_
  rw [effective, effective, expected?, expected?, hSame m hm]

end Hierarchy

/-- The values of a built instance are those given to its members. -/
theorem InstanceBuilder.Built.exists_values {c : ClassId} {log : List (Member × Value)}
    {o : ObjectRef} (hBuilt : Built client c log o w) :
    ∃ x, w.Stands o x ∧ x.values = w.hierarchy.effectivePairs c log := by
  obtain ⟨x, ho, hContract, hExpected⟩ := hBuilt.stands
  refine ⟨x, ho, ?_⟩
  rw [Instance.values, hContract]
  exact List.map_congr_left fun m hm => by
    rw [Hierarchy.effective, hExpected m hm, Option.getD_some]

/-- Addition that wraps around does not depend on the order of the summands. -/
theorem sum_eq_of_perm {ns ms : List Int32} (hPerm : ns.Perm ms) : ns.sum = ms.sum :=
  hPerm.foldr_eq 0

/-- The hash of named values is the sum of their shares. -/
theorem membersHash_eq_sum {pairs : List (String × Value)} {hashOf : Value → Int32}
    (hEach : ∀ p ∈ pairs, p.2.hashCode serve w = (.ok (hashOf p.2), w)) (start : Int32) :
    membersHash serve start pairs w =
      (.ok (start + (pairs.map fun p => memberShare p.1 (hashOf p.2)).sum), w) := by
  induction pairs generalizing start with
  | nil =>
      rw [List.map_nil, List.sum_nil, Int32.add_zero]
      rfl
  | cons p rest ih =>
      have hRest := ih (fun q hq => hEach q (List.mem_cons_of_mem p hq))
        (start + memberShare p.1 (hashOf p.2))
      rw [List.map_cons, List.sum_cons, ← Int32.add_assoc, ← hRest]
      exact Run.bind_ok (hEach p (List.mem_cons_self ..))

/-- In a world every plain value has its hash, whoever serves the calls. -/
theorem exists_plainHash (w : World σ) : ∃ hashOf : Value → Int32,
    ∀ v : Value, v.Plain → ∀ serve : Serve σ, v.hashCode serve w = (.ok (hashOf v), w) := by
  have hEach (v : Value) :
      ∃ n, v.Plain → ∀ serve : Serve σ, v.hashCode serve w = (.ok n, w) := by
    by_cases hv : v.Plain
    · obtain ⟨d, hd⟩ := hv.exists_datum w
      exact ⟨d.hash w.hierarchy, fun _ serve => hv.hashCode_eq hd⟩
    · exact ⟨0, fun hPlain => absurd hPlain hv⟩
  choose hashOf hHash using hEach
  exact ⟨hashOf, hHash⟩

theorem Datum.rankAll_le {vs : List Value} {ds : List Datum} {n : Nat}
    (hEach : List.Forall₂ (fun _ d => d.rank ≤ n) vs ds) : rankAll ds ≤ n := by
  induction hEach with
  | nil => exact Nat.zero_le n
  | cons hFirst _ ih => exact Nat.max_le.mpr ⟨hFirst, ih⟩

/-- No instance is nested in what a plain value stands for. -/
theorem Value.Plain.rank_le {v : Value} (hv : v.Plain) {d : Datum} (hd : w.Denotes v d) :
    d.rank ≤ 0 := by
  induction hv generalizing d with
  | atom hAtom =>
      cases hd with
      | atom _ => exact Nat.le_refl 0
      | _ => cases hAtom
  | array _ ih =>
      cases hd with
      | atom hAtom => cases hAtom
      | array hLength hEach =>
          refine Datum.rankAll_le (List.forall₂_iff_zip.mpr ⟨hLength, fun hMem => ?_⟩)
          exact ih _ (List.of_mem_zip hMem).1 (hEach _ _ hMem)

/-- An instance with plain values answers the hash computed from them, from then on: it needs no
depth of calls beyond its own. -/
theorem InstanceBuilder.Built.hashCode_later {c : ClassId} {log : List (Member × Value)}
    {o : ObjectRef} (hBuilt : Built client c log o w) (hw : w.Tidy)
    (hPlain : ∀ p ∈ w.hierarchy.effectivePairs c log, p.2.Plain) {n : Int32}
    (hCompute : membersHash serve 0 (w.hierarchy.effectivePairs c log) w = (.ok n, w))
    {v : World σ} (hLeads : ProperlyLeads client w v) (depth : Nat) :
    (o.hashCode (perform client (depth + 1)) v).1 = .ok n := by
  obtain ⟨x, ho, hValues⟩ := hBuilt.exists_values
  have hMembers (a : Value) (ha : a ∈ x.contract.members.map x.valueOf) : a.Plain := by
    obtain ⟨m, hm, rfl⟩ := List.mem_map.mp ha
    refine hPlain (m.name, x.valueOf m) ?_
    rw [← hValues]
    exact List.mem_map_of_mem hm
  obtain ⟨ds, hds⟩ := exists_denoteAll fun a ha => (hMembers a ha).exists_datum w
  have hComes : (x.computeHash serve).Comes (w = ·) True (Datum.hash w.hierarchy
      (.record x.contract.cls (x.contract.members.map Member.name) ds)) := by
    refine comes_membersHash (List.forall₂_iff_zip.mpr ⟨hds.length_eq, fun hMem => ?_⟩) 0
    exact (hMembers _ (List.of_mem_zip hMem).1).comes_hashCode (List.forall₂_zip hds hMem)
  have hRank : Datum.rankAll ds ≤ 0 := by
    refine Datum.rankAll_le (List.forall₂_iff_zip.mpr ⟨hds.length_eq, fun hMem => ?_⟩)
    exact (hMembers _ (List.of_mem_zip hMem).1).rank_le (List.forall₂_zip hds hMem)
  rw [← hValues] at hCompute
  obtain rfl := hComes.eq_of_ok rfl hCompute
  refine (hw.answers_later hLeads (denotes_object ho hds) ?_).1
  rw [Datum.rank]
  omega

/-- The hash of an instance whose members have values without objects. There is one number that is
the wrapping sum of the shares of the members, that is computed from the members by name with their
values, in whatever order these are taken, and that the instance answers as its hash from then on.
It is also the hash of every other instance whose members were last given the same values, in
whatever order they were given them. -/
theorem hash_of_plain_members {c : ClassId} {log : List (Member × Value)} {o : ObjectRef}
    (hReached : ProperlyReached client w) (hBuilt : InstanceBuilder.Built client c log o w)
    (hPlain : ∀ m ∈ (w.hierarchy.contract c).members, (w.hierarchy.effective log m).Plain) :
    ∃ n : Int32,
    (∃ hashOf : Value → Int32,
      (∀ m ∈ (w.hierarchy.contract c).members, ∀ serve,
        (w.hierarchy.effective log m).hashCode serve w =
          (.ok (hashOf (w.hierarchy.effective log m)), w)) ∧
      n = ((w.hierarchy.contract c).members.map fun m =>
        (127 * Text.textHash m.name) ^^^ hashOf (w.hierarchy.effective log m)).sum) ∧
    (∀ m ∈ (w.hierarchy.contract c).members, ∀ depth,
      o.invoke (perform client (depth + 1)) m.accessor [] w =
        (.ok (w.hierarchy.effective log m), w)) ∧
    (∀ pairs, pairs.Perm (w.hierarchy.effectivePairs c log) → ∀ serve,
      membersHash serve 0 pairs w = (.ok n, w)) ∧
    (∀ v, ProperlyLeads client w v → ∀ depth,
      (o.hashCode (perform client (depth + 1)) v).1 = .ok n) ∧
    (∀ log' o', InstanceBuilder.Built client c log' o' w →
      (∀ m ∈ (w.hierarchy.contract c).members, lastGiven? m log' = lastGiven? m log) →
        ∀ v, ProperlyLeads client w v → ∀ depth,
          (o'.hashCode (perform client (depth + 1)) v).1 = .ok n) := by
  obtain ⟨hashOf, hHash⟩ := exists_plainHash w
  have hPairs : ∀ p ∈ w.hierarchy.effectivePairs c log, p.2.Plain := by
    intro p hp
    obtain ⟨m, hm, rfl⟩ := List.mem_map.mp hp
    exact hPlain m hm
  have hPermuted (pairs : List (String × Value))
      (hPerm : pairs.Perm (w.hierarchy.effectivePairs c log)) (serve : Serve σ) :
      membersHash serve 0 pairs w = (.ok ((w.hierarchy.effectivePairs c log).map fun p =>
        memberShare p.1 (hashOf p.2)).sum, w) := by
    rw [membersHash_eq_sum fun p hp => hHash p.2 (hPairs p (hPerm.mem_iff.mp hp)) serve,
      Int32.zero_add, sum_eq_of_perm (hPerm.map _)]
  have hCompute := hPermuted _ (.refl _) (perform client 0)
  refine ⟨_, ⟨hashOf, fun m hm serve => hHash _ (hPlain m hm) serve, ?_⟩, fun m hm depth => ?_,
    hPermuted, fun v hLeads => hBuilt.hashCode_later hReached.tidy hPairs hCompute hLeads,
    fun log' o' hBuilt' hSame v hLeads => ?_⟩
  · rw [Hierarchy.effectivePairs, List.map_map]
    rfl
  · obtain ⟨a, ha, _, hInvoke⟩ := hBuilt.invoke_accessor hm
    rw [Hierarchy.effective, ha, Option.getD_some]
    exact hInvoke depth
  · have hSamePairs := Hierarchy.effectivePairs_congr hSame
    exact hBuilt'.hashCode_later hReached.tidy (hSamePairs ▸ hPairs)
      (hPermuted _ (.of_eq hSamePairs) (perform client 0)) hLeads

/-- What is given to the members of a limit, the size first. -/
def sizeFirstLog : List (Member × Value) :=
  [(frameWorld.hierarchy.memberOf ⟨⟨3⟩, 1⟩, .short 2),
    (frameWorld.hierarchy.memberOf ⟨⟨3⟩, 0⟩, .int 3)]

theorem filled_sizeFirst : InstanceBuilder.Filled Stub.client ⟨3⟩ sizeFirstLog
    (limitBuilder [("size", .int 3), ("scale", .int 2)]) frameWorld := by
  have hOpen : InstanceBuilder.of frameWorld.hierarchy ⟨3⟩ = .ok (limitBuilder []) :=
    InstanceBuilder.of_eq_ok (by decide) (Option.isNone_iff_eq_none.mp (by decide +kernel))
  have hSize : InstanceBuilder.Filled Stub.client ⟨3⟩
      [(frameWorld.hierarchy.memberOf ⟨⟨3⟩, 0⟩, .int 3)] (limitBuilder [("size", .int 3)])
      frameWorld :=
    (InstanceBuilder.Filled.opened reachable_frameWorld hOpen).assign_name (a := .int 3)
      size_mem_members rfl rfl
  exact hSize.assign_name (a := .int 2) scale_mem_members rfl rfl

/-- A limit that was given its members in one order and a limit that was given them in the other
have one hash, which is computed from the members in either order. -/
theorem hash_of_limits : ∃ o o' w₁ t,
    (limitBuilder [("scale", .int 2), ("size", .int 3)]).build frameWorld = (.ok o, w₁) ∧
    (limitBuilder [("size", .int 3), ("scale", .int 2)]).build w₁ = (.ok o', t) ∧
    ∃ n : Int32,
      membersHash (perform Stub.client 0) 0 [("size", .int 3), ("scale", .int 2)] t = (.ok n, t) ∧
      membersHash (perform Stub.client 0) 0 [("scale", .int 2), ("size", .int 3)] t = (.ok n, t) ∧
      (o.hashCode (perform Stub.client 1) t).1 = .ok n ∧
      (o'.hashCode (perform Stub.client 1) t).1 = .ok n := by
  obtain ⟨o, w₁, hFirst, _, h₁⟩ := filled_full.exists_built (by decide +kernel)
  obtain ⟨o', t, hSecond, hBuilt', h₂⟩ :=
    (filled_sizeFirst.meanwhile h₁).exists_built (by decide +kernel)
  have hLeads := h₁.trans h₂
  have hMembers : (t.hierarchy.contract ⟨3⟩).members =
      [frameWorld.hierarchy.memberOf ⟨⟨3⟩, 0⟩, frameWorld.hierarchy.memberOf ⟨⟨3⟩, 1⟩] := by
    rw [contract_framed hLeads (by decide), members_limit]
  have hPairs : t.hierarchy.effectivePairs ⟨3⟩ fullLog = [("size", .int 3), ("scale", .int 2)] := by
    rw [Hierarchy.effectivePairs, hMembers]
    rfl
  have hKnown {v : World Stub.Stage} (hLater : World.Leads Stub.client frameWorld v)
      {assigned : Table String Value}
      (hSize : (limitBuilder assigned).assigned? "size" = some (.int 3))
      (hScale : (limitBuilder assigned).assigned? "scale" = some (.int 2)) :
      (limitBuilder assigned).Known v := by
    have hGrows := (hLater.evolves reachable_frameWorld.sound).1
    refine known_limit (hGrows.hierarchy.declared (by decide)) fun m hm => ?_
    rw [limitBuilder, members_limit, List.mem_pair] at hm
    rcases hm with rfl | rfl
    · change ∃ n, ((limitBuilder assigned).assigned? "size").or none = some (.int n)
      exact ⟨3, by rw [hSize]; rfl⟩
    · change ∃ n, ((limitBuilder assigned).assigned? "scale").or (some (.int 2)) = some (.int n)
      exact ⟨2, by rw [hScale]; rfl⟩
  have hReached : ProperlyReached Stub.client t :=
    ⟨{}, (((ProperlyLeads.refl.step (.command (.declare limitType))).step
      (.command (.declare frameType))).trans
      (.of_proper (.newInstance _ (hKnown .refl rfl rfl)) hFirst)).trans
      (.of_proper (.newInstance _ (hKnown h₁ rfl rfl)) hSecond)⟩
  obtain ⟨n, _, _, hPermuted, hHash, hOther⟩ := hash_of_plain_members hReached
    ⟨filled_full, hFirst, h₂⟩ fun m hm => by
      rw [hMembers, List.mem_pair] at hm
      rcases hm with rfl | rfl <;> exact .atom rfl
  rw [hPairs] at hPermuted
  refine ⟨o, o', w₁, t, hFirst, hSecond, n, hPermuted _ (.refl _) _, hPermuted _ (.swap ..) _,
    hHash t .refl 0, hOther sizeFirstLog o' hBuilt' (fun m hm => ?_) t .refl 0⟩
  rw [hMembers, List.mem_pair] at hm
  rcases hm with rfl | rfl <;> rfl

end Metaobject
