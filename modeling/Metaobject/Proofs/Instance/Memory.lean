import Metaobject.Proofs.Instance.Digest

/-!
What a world remembers of its instances. An instance may keep its hash and its text in cells of its
own, each filled when it is first asked for. What is in a cell is right: it is the hash, or the
text, of what the instance stands for. Asking an instance for these keeps it so.
-/
namespace Metaobject

variable {ε σ β : Type} {client : Client σ} {base w : World σ}

namespace World

theorem Stands.has {o : ObjectRef} {x : Instance} (ho : w.Stands o x) : w.Has x := by
  obtain ⟨made, hObject⟩ := ho
  exact ⟨o, made, _, hObject, Chain.has_single_iff.mpr .self⟩

end World

/-- Something that instances remember: the shelf and the cell it is kept in, and what it is to be
for a datum. -/
structure Memory (σ β : Type) extends Shelf σ β where
  cell? : Instance → Option (Cell β)
  value : Hierarchy → Datum → β

namespace Memory

/-- The hash of instances. -/
def hash : Memory σ Int32 where
  toShelf := Shelf.hashes
  cell? := Instance.hashCell?
  value h d := d.hash h

/-- The text of instances. -/
def text : Memory σ String where
  toShelf := Shelf.texts
  cell? := Instance.textCell?
  value h d := d.text h

variable {k : Memory σ β}

/-- Every instance of a world has its cell for itself. -/
structure Owned (k : Memory σ β) (w : World σ) : Prop where
  held : ∀ x, w.Has x → ∀ cell, k.cell? x = some cell → (k.store w).Holds cell
  alone : ∀ x y, w.Has x → w.Has y → ∀ c d, k.cell? x = some c → k.cell? y = some d →
    c.index = d.index → x = y

/-- In a world that has the instances of another, what their cells hold is right. -/
structure Right (k : Memory σ β) (base w : World σ) : Prop where
  held : ∀ cell, (k.store base).Holds cell → (k.store w).Holds cell
  right : ∀ x, base.Has x → ∀ cell, k.cell? x = some cell →
    ∀ n, (k.store w).read cell = some n → ∀ d, base.Unfolds x d → n = k.value base.hierarchy d

theorem Right.of_store_eq {v : World σ} (hRight : k.Right base w) (hStore : k.store v = k.store w) :
    k.Right base v := by
  constructor
  · rw [hStore]
    exact hRight.held
  · rw [hStore]
    exact hRight.right

/-- An instance fills its cell with what is right for it. -/
theorem Right.fill {v : World σ} (hRight : k.Right base w) (hOwned : k.Owned base) {x : Instance}
    (hx : base.Has x) {cell : Cell β} (hCell : k.cell? x = some cell) {n : β}
    (hn : ∀ d, base.Unfolds x d → n = k.value base.hierarchy d)
    (hStore : k.store v = (k.store w).fill cell n) : k.Right base v := by
  have hHeld := hRight.held cell (hOwned.held x hx cell hCell)
  constructor
  · intro c hc
    rw [hStore, Store.Holds, Store.fill, Array.size_setIfInBounds]
    exact hRight.held c hc
  · intro y hy c hc m hm d hd
    rw [hStore, Store.read_fill _ _ _ _ hHeld] at hm
    split at hm
    · next hSame =>
        obtain rfl := hOwned.alone x y hx hy cell c hCell hc hSame
        cases hm
        exact hn d hd
    · exact hRight.right y hy c hc m hm d hd

end Memory

namespace World

/-- A world differs from another by what calls change, and remembers what is right. -/
structure Settled (base w : World σ) : Prop where
  steady : base.Steady w
  hash : Memory.hash.Right base w
  text : Memory.text.Right base w

/-- Instances share no cells. -/
structure Separate (w : World σ) : Prop where
  hash : Memory.hash.Owned w
  text : Memory.text.Owned w

end World

open World

namespace Memory

/-- In settled worlds what is remembered is right, and an instance may fill its cell with what is
right for it. -/
structure Settles (k : Memory σ β) (base : World σ) : Prop where
  owned : k.Owned base
  right : ∀ w, base.Settled w → k.Right base w
  store_put : ∀ s w, k.store (k.put s w) = s
  fill : ∀ w x cell b, base.Settled w → base.Has x → k.cell? x = some cell →
    (∀ d, base.Unfolds x d → b = k.value base.hierarchy d) →
      base.Settled (k.put ((k.store w).fill cell b) w)

theorem settles_hash (hSeparate : base.Separate) : hash.Settles base where
  owned := hSeparate.hash
  right _ hw := hw.hash
  store_put _ _ := rfl
  fill _ _ _ _ hw hx hCell hb :=
    ⟨hw.steady.trans ⟨rfl, rfl, rfl, rfl, rfl⟩, hw.hash.fill hSeparate.hash hx hCell hb rfl,
      hw.text.of_store_eq rfl⟩

theorem settles_text (hSeparate : base.Separate) : text.Settles base where
  owned := hSeparate.text
  right _ hw := hw.text
  store_put _ _ := rfl
  fill _ _ _ _ hw hx hCell hb :=
    ⟨hw.steady.trans ⟨rfl, rfl, rfl, rfl, rfl⟩, hw.hash.of_store_eq rfl,
      hw.text.fill hSeparate.text hx hCell hb rfl⟩

/-- Some instances stand for larger data than the one given. -/
def Above (base : World σ) (d : Datum) (busy : Instance → Prop) : Prop :=
  ∀ x, busy x → base.Has x ∧ ∃ e, base.Unfolds x e ∧ d.rank < e.rank

variable {k : Memory σ β} {d e : Datum} {busy : Instance → Prop} {x : Instance}

theorem Above.mono (hBusy : Above base d busy) (hRank : e.rank ≤ d.rank) : Above base e busy := by
  intro x hx
  obtain ⟨hHas, f, hf, hLess⟩ := hBusy x hx
  exact ⟨hHas, f, hf, Nat.lt_of_le_of_lt hRank hLess⟩

/-- The instance of a datum may be added for the data inside it. -/
theorem Above.add (hBusy : Above base d busy) (hx : base.Has x) (hd : base.Unfolds x d)
    (hRank : e.rank < d.rank) : Above base e fun y => y = x ∨ busy y := by
  rintro y (rfl | hy)
  · exact ⟨hx, d, hd, hRank⟩
  · exact hBusy.mono (Nat.le_of_lt hRank) y hy

theorem Above.not_busy (hBusy : Above base d busy) (hd : base.Unfolds x d) : ¬ busy x := by
  intro hx
  obtain ⟨-, e, he, hLess⟩ := hBusy x hx
  rw [hd.unique he] at hLess
  exact Nat.lt_irrefl _ hLess

/-- A settled world in which some instances, for which something is being computed, have nothing in
their cells. -/
structure Spares (k : Memory σ β) (base : World σ) (busy : Instance → Prop) (w : World σ) :
    Prop where
  settled : base.Settled w
  empty : ∀ x, busy x → ∀ cell, k.cell? x = some cell → (k.store w).read cell = none

theorem spares_none : k.Spares base (fun _ => False) = base.Settled :=
  funext fun _ => propext ⟨Spares.settled, fun hw => ⟨hw, fun _ => False.elim⟩⟩

/-- What is computed for an instance may be kept: its cell has stayed empty meanwhile, since what is
inside the instance fills other cells. -/
theorem comes_onceIf (hk : k.Settles base) (hBusy : Above base d busy) (hx : base.Has x)
    (hd : base.Unfolds x d) {compute : Run ε σ β} {enough : Prop}
    (hCompute : compute.Comes (k.Spares base fun y => y = x ∨ busy y) enough
      (k.value base.hierarchy d)) :
    (k.onceIf (k.cell? x) compute).Comes (k.Spares base busy) enough
      (k.value base.hierarchy d) := by
  have hLess {v : World σ} (hv : k.Spares base (fun y => y = x ∨ busy y) v) :
      k.Spares base busy v :=
    ⟨hv.settled, fun y hy => hv.empty y (.inr hy)⟩
  intro w hw
  cases hCell : k.cell? x with
  | none =>
      obtain ⟨hAfter, hEnd⟩ := hCompute w ⟨hw.settled, by
        rintro y (rfl | hy) cell hc
        · cases hCell.symm.trans hc
        · exact hw.empty y hy cell hc⟩
      exact ⟨hLess hAfter, hEnd⟩
  | some cell =>
      rw [Shelf.onceIf]
      cases hRead : (k.store w).read cell with
      | some b =>
          rw [Shelf.once_of_some hRead, (hk.right w hw.settled).right x hx cell hCell b hRead d hd]
          exact ⟨hw, .inl rfl⟩
      | none =>
          obtain ⟨hAfter, hEnd⟩ := hCompute w ⟨hw.settled, by
            rintro y (rfl | hy) c hc
            · cases hCell.symm.trans hc
              exact hRead
            · exact hw.empty y hy c hc⟩
          rcases hRun : compute w with ⟨r, v⟩
          rw [hRun] at hAfter hEnd
          rcases hEnd with rfl | ⟨hNot, rfl⟩
          · rw [Shelf.once_of_ok hRead hRun,
              Shelf.keep_of_none (hAfter.empty x (.inl rfl) cell hCell)]
            refine ⟨⟨hk.fill v x cell _ hAfter.settled hx hCell fun e he => by rw [hd.unique he],
              fun y hy c hc => ?_⟩, .inl rfl⟩
            have hOther : cell ≠ c := by
              rintro rfl
              have hSame := hk.owned.alone x y hx (hBusy y hy).1 cell cell hCell hc rfl
              exact hBusy.not_busy hd (hSame ▸ hy)
            rw [hk.store_put, Store.read_fill_of_ne hOther]
            exact hAfter.empty y (.inr hy) c hc
          · rw [Shelf.once_of_error hRead hRun]
            exact ⟨hLess hAfter, .inr ⟨hNot, rfl⟩⟩

end Memory

section Composed

variable {I : World σ → Prop} (hI : ∀ w, I w → base.Settled w)

include hI

/-- The text of an instance is put together from the texts of its values. -/
theorem Instance.comes_computeText {x : Instance} {serve : Serve σ} {enough : Prop}
    {ds : List Datum}
    (hEach : List.Forall₂ (fun v d => (v.text serve).Comes I enough (d.text base.hierarchy))
      (x.contract.members.map x.valueOf) ds) :
    (x.computeText serve).Comes I enough (Datum.text base.hierarchy
      (.record x.contract.cls (x.contract.members.map Member.name) ds)) := by
  refine (comes_memberTexts hEach).bind fun w hw => ?_
  rw [Run.bind_ok (Run.hierarchy_apply w), (hI w hw).steady.hierarchy]
  exact ⟨hw, .inl rfl⟩

/-- What an instance comes to answer its object comes to answer. -/
theorem World.Stands.perform_comes {o : ObjectRef} {x : Instance} {i : Invocation} {v : Value}
    {enough : Prop} {depth : Nat} (ho : base.Stands o x)
    (hAnswer : (x.answer (perform client depth) i).Comes I enough (some v)) :
    (perform client (depth + 1) (.ask o i)).Comes I enough v := by
  intro w hw
  obtain ⟨made, hObject⟩ := ho
  have hThere : w.object? o = some (.proxy made (.single (.values x))) := by
    rw [object?, (hI w hw).steady.objects]
    exact hObject
  have hFirst : (Handler.firstAnswer client (perform client depth) [.values x] i).Comes I
      enough (some v) := hAnswer.bind (.pure _)
  have hResolve : ((Chain.single (.values x)).resolve client (perform client depth) i).Comes I
      enough v := hFirst.bind (.pure v)
  rw [perform_ask hThere]
  exact hResolve w hw

end Composed

/-- The hash of a value is that of its datum, if calls may be nested as deep as its instances. It
leaves alone the cells of instances that stand for larger data. -/
theorem Value.spares_hashCode (hSeparate : base.Separate) {v : Value} {d : Datum}
    (hd : base.Denotes v d) {busy : Instance → Prop} (hBusy : Memory.Above base d busy)
    (depth : Nat) :
    (v.hashCode (perform client depth)).Comes (Memory.hash.Spares base busy) (d.rank ≤ depth)
      (d.hash base.hierarchy) := by
  induction hd generalizing depth busy with
  | atom hAtom =>
      intro w hw
      rw [hashCode_atom hAtom, hw.settled.steady.hierarchy]
      exact ⟨hw, .inl rfl⟩
  | array hLength hItems ih =>
      refine comes_hashItems (List.forall₂_iff_zip.mpr ⟨hLength, fun hMem => ?_⟩) 1
      have hRank := Datum.rank_le_rankAll (List.of_mem_zip hMem).2
      exact (ih _ _ hMem (hBusy.mono hRank) depth).weaken (Nat.le_trans hRank)
  | @object o x ds ho hLength hValues ih =>
      refine ObjectRef.comes_hashCode ?_
      cases depth with
      | zero => exact .exhausted (by simp [Datum.rank]) _
      | succ depth =>
          have hUnfolds : base.Unfolds x _ := ⟨ds, denoteAll_of_zip hLength hValues, rfl⟩
          refine ho.perform_comes (fun _ => Memory.Spares.settled) (.bind ?_ (.pure _))
          refine Memory.comes_onceIf (Memory.settles_hash hSeparate) hBusy ho.has hUnfolds ?_
          refine comes_membersHash (List.forall₂_iff_zip.mpr ⟨hLength, fun hMem => ?_⟩) 0
          have hRank := Nat.lt_succ_of_le (Datum.rank_le_rankAll (List.of_mem_zip hMem).2)
          exact (ih _ _ hMem (hBusy.add ho.has hUnfolds hRank) depth).weaken fun hEnough =>
            Nat.le_of_lt_succ (Nat.lt_of_lt_of_le hRank hEnough)

theorem Value.comes_hashCode (hSeparate : base.Separate) {v : Value} {d : Datum}
    (hd : base.Denotes v d) (depth : Nat) :
    (v.hashCode (perform client depth)).Comes base.Settled (d.rank ≤ depth)
      (d.hash base.hierarchy) := by
  rw [← Memory.spares_none]
  exact spares_hashCode hSeparate hd (fun _ => False.elim) depth

/-- An object that stands for an instance has the text that is put together from those of the values
of the instance. -/
theorem World.Stands.spares_toText (hSeparate : base.Separate) {o : ObjectRef} {x : Instance}
    {ds : List Datum} {busy : Instance → Prop} (ho : base.Stands o x)
    (hds : base.DenoteAll (x.contract.members.map x.valueOf) ds)
    (hBusy : Memory.Above base
      (.record x.contract.cls (x.contract.members.map Member.name) ds) busy)
    (hEach : ∀ depth, List.Forall₂ (fun v d => (v.text (perform client depth)).Comes
      (Memory.text.Spares base fun y => y = x ∨ busy y) (d.rank ≤ depth) (d.text base.hierarchy))
      (x.contract.members.map x.valueOf) ds) (depth : Nat) :
    (o.toText (perform client depth)).Comes (Memory.text.Spares base busy)
      (Datum.rankAll ds < depth) (Datum.text base.hierarchy
        (.record x.contract.cls (x.contract.members.map Member.name) ds)) := by
  refine ObjectRef.comes_toText ?_
  cases depth with
  | zero => exact .exhausted (Nat.not_lt_zero _) _
  | succ depth =>
      refine ho.perform_comes (fun _ => Memory.Spares.settled) (.bind ?_ (.pure _))
      refine Memory.comes_onceIf (Memory.settles_text hSeparate) hBusy ho.has ⟨ds, hds, rfl⟩ ?_
      obtain ⟨hLength, hZip⟩ := List.forall₂_iff_zip.mp (hEach depth)
      refine x.comes_computeText (fun _ => Memory.Spares.settled)
        (List.forall₂_iff_zip.mpr ⟨hLength, fun hMem => ?_⟩)
      exact (hZip hMem).weaken fun hEnough =>
        Nat.le_trans (Datum.rank_le_rankAll (List.of_mem_zip hMem).2) (Nat.le_of_lt_succ hEnough)

/-- The text of a value is that of its datum. -/
theorem Value.spares_text (hSeparate : base.Separate) {v : Value} {d : Datum}
    (hd : base.Denotes v d) {busy : Instance → Prop} (hBusy : Memory.Above base d busy)
    (depth : Nat) :
    (v.text (perform client depth)).Comes (Memory.text.Spares base busy) (d.rank ≤ depth)
      (d.text base.hierarchy) := by
  induction hd generalizing depth busy with
  | atom hAtom =>
      intro w hw
      rw [text_atom hAtom, hw.settled.steady.hierarchy]
      exact ⟨hw, .inl rfl⟩
  | array hLength hItems ih =>
      refine (comes_texts (List.forall₂_iff_zip.mpr ⟨hLength, fun hMem => ?_⟩)).bind (.pure _)
      have hRank := Datum.rank_le_rankAll (List.of_mem_zip hMem).2
      exact (ih _ _ hMem (hBusy.mono hRank) depth).weaken (Nat.le_trans hRank)
  | @object o x ds ho hLength hValues ih =>
      have hds := denoteAll_of_zip hLength hValues
      have hEach (depth : Nat) : List.Forall₂ (fun v d => (v.text (perform client depth)).Comes
          (Memory.text.Spares base fun y => y = x ∨ busy y) (d.rank ≤ depth)
          (d.text base.hierarchy)) (x.contract.members.map x.valueOf) ds :=
        List.forall₂_iff_zip.mpr ⟨hLength, fun hMem =>
          ih _ _ hMem (hBusy.add ho.has ⟨ds, hds, rfl⟩
            (Nat.lt_succ_of_le (Datum.rank_le_rankAll (List.of_mem_zip hMem).2))) depth⟩
      have hText := ho.spares_toText hSeparate hds hBusy hEach depth
      exact .bind (.attempt (hText.weaken Nat.lt_of_succ_le)) (.pure _)

theorem Value.comes_text (hSeparate : base.Separate) {v : Value} {d : Datum}
    (hd : base.Denotes v d) (depth : Nat) :
    (v.text (perform client depth)).Comes base.Settled (d.rank ≤ depth)
      (d.text base.hierarchy) := by
  rw [← Memory.spares_none]
  exact spares_text hSeparate hd (fun _ => False.elim) depth

theorem World.Stands.comes_toText (hSeparate : base.Separate) {o : ObjectRef} {x : Instance}
    {d : Datum} (ho : base.Stands o x) (hd : base.Unfolds x d) (depth : Nat) :
    (o.toText (perform client depth)).Comes base.Settled (d.rank ≤ depth)
      (d.text base.hierarchy) := by
  obtain ⟨ds, hds, rfl⟩ := hd
  rw [← Memory.spares_none]
  have hNone (e : Datum) : Memory.Above base e fun _ => False := fun _ => False.elim
  refine (ho.spares_toText hSeparate hds (hNone _) (fun depth => ?_) depth).weaken
    Nat.lt_of_succ_le
  refine List.forall₂_iff_zip.mpr ⟨hds.length_eq, fun hMem => ?_⟩
  exact Value.spares_text hSeparate (List.forall₂_zip hds hMem) ((hNone _).add ho.has
    ⟨ds, hds, rfl⟩ (Nat.lt_succ_of_le (Datum.rank_le_rankAll (List.of_mem_zip hMem).2))) depth

/-- However deep calls may be nested, what an instance computes as its hash is right. -/
theorem Instance.hash_eq_of_compute (hSeparate : base.Separate) (hw : base.Settled w)
    {x : Instance} {d : Datum} (hd : base.Unfolds x d) {depth : Nat} {n : Int32} {v : World σ}
    (hRun : x.computeHash (perform client depth) w = (.ok n, v)) : n = d.hash base.hierarchy := by
  obtain ⟨ds, hds, rfl⟩ := hd
  have hCompute : (x.computeHash (perform client depth)).Comes base.Settled False
      (Datum.hash base.hierarchy
        (.record x.contract.cls (x.contract.members.map Member.name) ds)) :=
    comes_membersHash (hds.imp fun _ _ hd =>
      (Value.comes_hashCode hSeparate hd depth).weaken False.elim) 0
  exact hCompute.eq_of_ok hw hRun

theorem Instance.text_eq_of_compute (hSeparate : base.Separate) (hw : base.Settled w)
    {x : Instance} {d : Datum} (hd : base.Unfolds x d) {depth : Nat} {s : String} {v : World σ}
    (hRun : x.computeText (perform client depth) w = (.ok s, v)) : s = d.text base.hierarchy := by
  obtain ⟨ds, hds, rfl⟩ := hd
  have hCompute : (x.computeText (perform client depth)).Comes base.Settled False
      (Datum.text base.hierarchy
        (.record x.contract.cls (x.contract.members.map Member.name) ds)) :=
    x.comes_computeText (fun _ => id) (hds.imp fun _ _ hd =>
      (Value.comes_text hSeparate hd depth).weaken False.elim)
  exact hCompute.eq_of_ok hw hRun

end Metaobject
