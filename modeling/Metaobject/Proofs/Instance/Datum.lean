import Mathlib.Data.List.Forall2
import Metaobject.Proofs.Instance.ReadBack

/-!
What values stand for. Behind the references of a value there may be instances, whose members again
have values; unfolded all the way down, a value is a finite tree. It is made of atoms, the values
that are neither arrays nor objects, in the form in which they are compared.
-/
namespace Metaobject

namespace Value

/-- The value is neither an array nor an object. -/
def isAtom : Value → Bool
  | array .. => false
  | object _ => false
  | _ => true

/-- The form in which an atom is compared: one pattern stands for all that are not numbers. -/
def canonical : Value → Value
  | float x => float x.canonical
  | double x => double x.canonical
  | v => v

end Value

/-- A value with all instances in it unfolded. -/
inductive Datum where
  | atom (v : Value)
  | array (element : Ty) (items : List Datum)
  | record (cls : ClassId) (names : List String) (values : List Datum)

namespace Datum

mutual

/-- How deep instances are nested. -/
def rank : Datum → Nat
  | atom _ => 0
  | array _ items => rankAll items
  | record _ _ values => rankAll values + 1

/-- How deep instances are nested in a list, at the most. -/
def rankAll : List Datum → Nat
  | [] => 0
  | d :: rest => max (rank d) (rankAll rest)

end

theorem rank_le_rankAll {d : Datum} {ds : List Datum} (hd : d ∈ ds) : d.rank ≤ rankAll ds := by
  induction ds with
  | nil => cases hd
  | cons e rest ih =>
      rw [rankAll]
      rcases List.mem_cons.mp hd with rfl | hRest
      · exact Nat.le_max_left _ _
      · exact Nat.le_trans (ih hRest) (Nat.le_max_right _ _)

end Datum

variable {σ : Type} {client : Client σ} {w : World σ}

namespace World

/-- The object is an instance of an annotation type, and answers through it alone. -/
def Stands (w : World σ) (o : ObjectRef) (x : Instance) : Prop :=
  ∃ made, w.object? o = some (.proxy made (.single (.values x)))

theorem Stands.mono {v : World σ} {o : ObjectRef} {x : Instance} (ho : w.Stands o x)
    (hGrows : w.GrowsTo v) : v.Stands o x := by
  obtain ⟨made, hObject⟩ := ho
  exact ⟨made, hGrows.object? hObject⟩

/-- How the chain of an instance serves the request to answer an invocation. -/
theorem Stands.serveBy_apply {o : ObjectRef} {x : Instance} (ho : w.Stands o x)
    (client : Client σ) (serve : Serve σ) (i : Invocation) :
    (Request.ask o i).serveBy client serve w =
      (x.answer serve i >>= fun answer =>
        match answer with
        | some a => pure a
        | none => Run.raise (.unhandled i)) w := by
  obtain ⟨made, hObject⟩ := ho
  have hChain : (Request.ask o i).serveBy client serve w =
      (Chain.single (.values x)).resolve client serve i w := by
    rw [Request.serveBy, ObjectRef.answer, Run.bind_ok (Run.get_apply w), hObject]
  rw [hChain]
  rcases hAnswer : x.answer serve i w with ⟨e | _ | a, v⟩
  · rw [Run.bind_error hAnswer]
    exact Chain.resolve_first_error hAnswer
  · have hFirst : Handler.firstAnswer client serve [.values x] i w = (.ok none, v) := by
      rw [Handler.firstAnswer]
      exact Run.bind_ok hAnswer
    rw [Run.bind_ok hAnswer]
    exact Run.bind_ok hFirst
  · rw [Run.bind_ok hAnswer]
    exact Chain.resolve_first hAnswer

theorem Stands.unique {o : ObjectRef} {x y : Instance} (hx : w.Stands o x) (hy : w.Stands o y) :
    x = y := by
  obtain ⟨_, hx⟩ := hx
  obtain ⟨_, hy⟩ := hy
  cases hx.symm.trans hy
  rfl

/-- What a value stands for in a world. -/
inductive Denotes (w : World σ) : Value → Datum → Prop where
  | atom {v : Value} (hAtom : v.isAtom = true) : Denotes w v (.atom v.canonical)
  | array {t : Ty} {items : List Value} {ds : List Datum} (hLength : items.length = ds.length)
      (hItems : ∀ a d, (a, d) ∈ items.zip ds → Denotes w a d) :
      Denotes w (.array t items) (.array t ds)
  | object {o : ObjectRef} {x : Instance} {ds : List Datum} (ho : w.Stands o x)
      (hLength : (x.contract.members.map x.valueOf).length = ds.length)
      (hValues : ∀ a d, (a, d) ∈ (x.contract.members.map x.valueOf).zip ds → Denotes w a d) :
      Denotes w (.object o) (.record x.contract.cls (x.contract.members.map Member.name) ds)

/-- What some values stand for, in order. -/
abbrev DenoteAll (w : World σ) : List Value → List Datum → Prop :=
  List.Forall₂ w.Denotes

theorem denoteAll_of_zip {vs : List Value} {ds : List Datum} (hLength : vs.length = ds.length)
    (hZip : ∀ a d, (a, d) ∈ vs.zip ds → w.Denotes a d) : w.DenoteAll vs ds :=
  List.forall₂_iff_zip.mpr ⟨hLength, hZip _ _⟩

theorem denotes_array {t : Ty} {items : List Value} {ds : List Datum}
    (hItems : w.DenoteAll items ds) : w.Denotes (.array t items) (.array t ds) :=
  .array hItems.length_eq fun _ _ => List.forall₂_zip hItems

theorem denotes_object {o : ObjectRef} {x : Instance} {ds : List Datum} (ho : w.Stands o x)
    (hValues : w.DenoteAll (x.contract.members.map x.valueOf) ds) :
    w.Denotes (.object o) (.record x.contract.cls (x.contract.members.map Member.name) ds) :=
  .object ho hValues.length_eq fun _ _ => List.forall₂_zip hValues

/-- Lists stand for the same data if their items do. -/
theorem denoteAll_unique {vs : List Value} {ds es : List Datum} (hds : w.DenoteAll vs ds)
    (hEach : ∀ a d, (a, d) ∈ vs.zip ds → ∀ e, w.Denotes a e → d = e) (hes : w.DenoteAll vs es) :
    ds = es := by
  induction hds generalizing es with
  | nil =>
      cases hes
      rfl
  | cons hd hRest ih =>
      cases hes with
      | cons he hRest' =>
          rw [List.zip_cons_cons] at hEach
          rw [hEach _ _ (List.mem_cons_self ..) _ he,
            ih (fun a d hMem => hEach a d (List.mem_cons_of_mem _ hMem)) hRest']

/-- A value stands for one datum. -/
theorem Denotes.unique {v : Value} {d e : Datum} (hd : w.Denotes v d) (he : w.Denotes v e) :
    d = e := by
  induction hd generalizing e with
  | atom hAtom =>
      cases he with
      | atom => rfl
      | _ => cases hAtom
  | array hLength hItems ih =>
      cases he with
      | atom hAtom => cases hAtom
      | array hLength' hItems' =>
          rw [denoteAll_unique (denoteAll_of_zip hLength hItems) (fun a d hMem _ => ih a d hMem)
            (denoteAll_of_zip hLength' hItems')]
  | object ho hLength hValues ih =>
      cases he with
      | atom hAtom => cases hAtom
      | object ho' hLength' hValues' =>
          obtain rfl := ho.unique ho'
          rw [denoteAll_unique (denoteAll_of_zip hLength hValues) (fun a d hMem _ => ih a d hMem)
            (denoteAll_of_zip hLength' hValues')]

/-- Two values stand for the same datum. -/
def Alike (w : World σ) (v u : Value) : Prop :=
  ∃ d, w.Denotes v d ∧ w.Denotes u d

theorem Alike.symm {v u : Value} (hAlike : w.Alike v u) : w.Alike u v := by
  obtain ⟨d, hv, hu⟩ := hAlike
  exact ⟨d, hu, hv⟩

theorem Alike.trans {v u t : Value} (first : w.Alike v u) (second : w.Alike u t) :
    w.Alike v t := by
  obtain ⟨d, hv, hu⟩ := first
  obtain ⟨e, hu', ht⟩ := second
  rw [← hu.unique hu'] at ht
  exact ⟨d, hv, ht⟩

/-- An atom stands for the same as the atoms of the same form. -/
theorem alike_atom_iff {v u : Value} (hv : v.isAtom = true) :
    w.Alike v u ↔ u.isAtom = true ∧ v.canonical = u.canonical := by
  constructor
  · rintro ⟨d, hd, he⟩
    cases hd with
    | atom _ =>
        generalize hDatum : Datum.atom v.canonical = d at he
        cases he with
        | atom hu => exact ⟨hu, Datum.atom.inj hDatum⟩
        | _ => cases hDatum
    | _ => cases hv
  · rintro ⟨hu, hSame⟩
    exact ⟨_, .atom hv, hSame ▸ .atom hu⟩

theorem not_alike_array_object {t : Ty} {items : List Value} {o : ObjectRef} :
    ¬ w.Alike (.array t items) (.object o) := by
  rintro ⟨d, hd, he⟩
  cases hd with
  | atom hAtom => cases hAtom
  | array _ _ =>
      cases he

theorem DenoteAll.exists_of_mem {vs : List Value} {ds : List Datum} (hds : w.DenoteAll vs ds)
    {v : Value} (hv : v ∈ vs) : ∃ d ∈ ds, w.Denotes v d := by
  induction hds with
  | nil => cases hv
  | cons hd _ ih =>
      rcases List.mem_cons.mp hv with rfl | hRest
      · exact ⟨_, List.mem_cons_self .., hd⟩
      · obtain ⟨d, hMem, hd⟩ := ih hRest
        exact ⟨d, List.mem_cons_of_mem _ hMem, hd⟩

/-- Lists stand for the same data if and only if their items do. -/
theorem forall₂_alike_iff {vs us : List Value} :
    List.Forall₂ w.Alike vs us ↔ ∃ ds, w.DenoteAll vs ds ∧ w.DenoteAll us ds := by
  constructor
  · intro hAlike
    induction hAlike with
    | nil => exact ⟨[], .nil, .nil⟩
    | cons hFirst _ ih =>
        obtain ⟨d, hv, hu⟩ := hFirst
        obtain ⟨ds, hvs, hus⟩ := ih
        exact ⟨d :: ds, .cons hv hvs, .cons hu hus⟩
  · rintro ⟨ds, hvs, hus⟩
    induction hvs generalizing us with
    | nil =>
        cases hus
        exact .nil
    | cons hv _ ih =>
        cases hus with
        | cons hu hRest => exact .cons ⟨_, hv, hu⟩ (ih hRest)

theorem alike_array_iff {t t' : Ty} {vs us : List Value} :
    w.Alike (.array t vs) (.array t' us) ↔ t = t' ∧ List.Forall₂ w.Alike vs us := by
  rw [forall₂_alike_iff]
  constructor
  · rintro ⟨d, hv, hu⟩
    cases hv with
    | atom hAtom => cases hAtom
    | array hLength hItems =>
        cases hu with
        | array hLength' hItems' =>
            exact ⟨rfl, _, denoteAll_of_zip hLength hItems, denoteAll_of_zip hLength' hItems'⟩
  · rintro ⟨rfl, ds, hvs, hus⟩
    exact ⟨_, denotes_array hvs, denotes_array hus⟩

/-- What an instance stands for in a world. -/
def Unfolds (w : World σ) (x : Instance) (d : Datum) : Prop :=
  ∃ ds, w.DenoteAll (x.contract.members.map x.valueOf) ds ∧
    d = .record x.contract.cls (x.contract.members.map Member.name) ds

theorem Unfolds.unique {x : Instance} {d e : Datum} (hd : w.Unfolds x d) (he : w.Unfolds x e) :
    d = e := by
  obtain ⟨ds, hds, rfl⟩ := hd
  obtain ⟨es, hes, rfl⟩ := he
  rw [denoteAll_unique hds (fun a d hMem e he => Denotes.unique (List.forall₂_zip hds hMem) he) hes]

theorem Stands.denotes_iff {o : ObjectRef} {x : Instance} (ho : w.Stands o x) {d : Datum} :
    w.Denotes (.object o) d ↔ w.Unfolds x d := by
  constructor
  · intro hd
    cases hd with
    | atom hAtom => cases hAtom
    | object ho' hLength hValues =>
        obtain rfl := ho.unique ho'
        exact ⟨_, denoteAll_of_zip hLength hValues, rfl⟩
  · rintro ⟨ds, hds, rfl⟩
    exact denotes_object ho hds

/-- Objects that stand for the same datum are instances of one annotation type. -/
theorem Alike.cls_eq {o p : ObjectRef} {x y : Instance} (ho : w.Stands o x) (hp : w.Stands p y)
    (hAlike : w.Alike (.object o) (.object p)) : x.contract.cls = y.contract.cls := by
  obtain ⟨d, hd, he⟩ := hAlike
  obtain ⟨_, _, rfl⟩ := ho.denotes_iff.mp hd
  obtain ⟨_, _, hSame⟩ := hp.denotes_iff.mp he
  exact (Datum.record.inj hSame).1

/-- Two references to one instance stand for the same datum, if it stands for any. -/
theorem Stands.alike_of_same {o p : ObjectRef} {x : Instance} (ho : w.Stands o x)
    (hOne : ObjectRef.same o p = true) (hSelf : w.Alike (.object o) (.object o)) :
    w.Alike (.object o) (.object p) := by
  have hp : w.Stands p x := by
    obtain ⟨made, hObject⟩ := ho
    rw [object?, eq_of_beq hOne] at hObject
    exact ⟨made, hObject⟩
  obtain ⟨d, hd, _⟩ := hSelf
  exact ⟨d, hd, hp.denotes_iff.mpr (ho.denotes_iff.mp hd)⟩

/-- Instances with the same members stand for the same datum if their values do. -/
theorem alike_object_iff {o p : ObjectRef} {x y : Instance} (ho : w.Stands o x)
    (hp : w.Stands p y) (hContract : x.contract = y.contract) :
    w.Alike (.object o) (.object p) ↔
      ∀ m ∈ x.contract.members, w.Alike (x.valueOf m) (y.valueOf m) := by
  have hEach : (∀ m ∈ x.contract.members, w.Alike (x.valueOf m) (y.valueOf m)) ↔
      ∃ ds, w.DenoteAll (x.contract.members.map x.valueOf) ds ∧
        w.DenoteAll (x.contract.members.map y.valueOf) ds := by
    rw [← forall₂_alike_iff, List.forall₂_map_left_iff, List.forall₂_map_right_iff,
      List.forall₂_same]
  rw [hEach]
  constructor
  · rintro ⟨d, hd, he⟩
    obtain ⟨ds, hds, rfl⟩ := ho.denotes_iff.mp hd
    obtain ⟨es, hes, hSame⟩ := hp.denotes_iff.mp he
    rw [Datum.record.injEq] at hSame
    rw [← hContract, ← hSame.2.2] at hes
    exact ⟨ds, hds, hes⟩
  · rintro ⟨ds, hds, hes⟩
    rw [hContract] at hes
    refine ⟨_, ho.denotes_iff.mpr ⟨ds, hds, rfl⟩, ?_⟩
    rw [hContract]
    exact hp.denotes_iff.mpr ⟨ds, hes, rfl⟩

end World

/-- A value that a program can have composed of atoms by arrays and by building instances. -/
inductive Composed (client : Client σ) (w : World σ) : Value → Prop where
  | atom {v : Value} (hAtom : v.isAtom = true) : Composed client w v
  | array {t : Ty} {items : List Value} (hItems : ∀ v ∈ items, Composed client w v) :
      Composed client w (.array t items)
  | object {c : ClassId} {log : List (Member × Value)} {o : ObjectRef}
      (hBuilt : InstanceBuilder.Built client c log o w)
      (hValues : ∀ m ∈ (w.hierarchy.contract c).members, ∀ v,
        w.hierarchy.expected? log m = some v → Composed client w v) :
      Composed client w (.object o)

theorem exists_denoteAll {vs : List Value} (hEach : ∀ v ∈ vs, ∃ d, w.Denotes v d) :
    ∃ ds, w.DenoteAll vs ds := by
  induction vs with
  | nil => exact ⟨[], .nil⟩
  | cons v vs ih =>
      obtain ⟨d, hd⟩ := hEach v (List.mem_cons_self ..)
      obtain ⟨ds, hds⟩ := ih fun u hu => hEach u (List.mem_cons_of_mem v hu)
      exact ⟨d :: ds, .cons hd hds⟩

/-- A built object stands for an instance that has the values expected of its members. -/
theorem InstanceBuilder.Built.stands {c : ClassId} {log : List (Member × Value)} {o : ObjectRef}
    (hBuilt : Built client c log o w) :
    ∃ x, w.Stands o x ∧ x.contract = w.hierarchy.contract c ∧
      ∀ m ∈ (w.hierarchy.contract c).members,
        w.hierarchy.expected? log m = some (x.valueOf m) := by
  obtain ⟨made, x, hObject, _, _, _, hContract, hValues⟩ := hBuilt.instance_of
  exact ⟨x, ⟨made, hObject⟩, hContract, fun m hm => (hValues m hm).1⟩

/-- Every composed value stands for something. -/
theorem Composed.exists_datum {v : Value} (hv : Composed client w v) : ∃ d, w.Denotes v d := by
  induction hv with
  | atom hAtom => exact ⟨_, .atom hAtom⟩
  | array hItems ih =>
      obtain ⟨ds, hds⟩ := exists_denoteAll ih
      exact ⟨_, World.denotes_array hds⟩
  | object hBuilt hValues ih =>
      obtain ⟨x, ho, hContract, hExpected⟩ := hBuilt.stands
      have hEach : ∀ v ∈ x.contract.members.map x.valueOf, ∃ d, w.Denotes v d := by
        intro v hv
        obtain ⟨m, hm, rfl⟩ := List.mem_map.mp hv
        rw [hContract] at hm
        exact ih m hm _ (hExpected m hm)
      obtain ⟨ds, hds⟩ := exists_denoteAll hEach
      exact ⟨_, World.denotes_object ho hds⟩

end Metaobject
