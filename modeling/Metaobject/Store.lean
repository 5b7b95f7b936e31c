/-!
Cells that are empty until they are filled. A cell is known by its number in a store of cells of one
type; filling one leaves every other as it was.
-/
namespace Metaobject

/-- A cell that holds at most one value of a type. -/
structure Cell (α : Type) where
  index : Nat

/-- All cells of one type. -/
structure Store (α : Type) where
  contents : Array (Option α) := #[]

namespace Store

variable {α : Type}

/-- A new cell, empty. -/
def fresh (s : Store α) : Cell α × Store α :=
  (⟨s.contents.size⟩, ⟨s.contents.push none⟩)

/-- What a cell holds. -/
def read (s : Store α) (c : Cell α) : Option α :=
  s.contents[c.index]?.join

/-- Fill a cell, whatever it held. -/
def fill (s : Store α) (c : Cell α) (a : α) : Store α :=
  ⟨s.contents.setIfInBounds c.index (some a)⟩

/-- The cell belongs to the store. -/
def Holds (s : Store α) (c : Cell α) : Prop :=
  c.index < s.contents.size

theorem read_fill (s : Store α) (c d : Cell α) (a : α) (hc : s.Holds c) :
    (s.fill c a).read d = if c.index = d.index then some a else s.read d := by
  unfold Holds at hc
  by_cases hcd : c.index = d.index
  · rw [if_pos hcd, read, fill, ← hcd]
    simp [hc]
  · rw [if_neg hcd, read, read, fill]
    simp [Array.getElem?_setIfInBounds_ne hcd]

theorem read_fill_of_ne {s : Store α} {c d : Cell α} (hOther : c ≠ d) (a : α) :
    (s.fill c a).read d = s.read d := by
  have hIndex : c.index ≠ d.index := fun hSame => hOther (congrArg Cell.mk hSame)
  rw [read, read, fill]
  simp [Array.getElem?_setIfInBounds_ne hIndex]

theorem read_fresh (s : Store α) (d : Cell α) : s.fresh.2.read d = s.read d := by
  unfold read fresh
  simp only [Array.getElem?_push]
  split
  · next h => simp [h]
  · rfl

theorem holds_fill {s : Store α} {c d : Cell α} {a : α} : (s.fill c a).Holds d ↔ s.Holds d := by
  rw [Holds, Holds, fill, Array.size_setIfInBounds]

theorem holds_fresh (s : Store α) : s.fresh.2.Holds s.fresh.1 := by
  simp [Holds, fresh]

/-- A cell that has just been made is empty. -/
theorem read_fresh_new (s : Store α) : s.fresh.2.read s.fresh.1 = none := by
  rw [read_fresh]
  simp [read, fresh]

end Store

end Metaobject
