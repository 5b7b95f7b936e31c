import Metaobject.Hierarchy.Conversion

/-!
Adding a class to a hierarchy. The builder gathers supertypes and methods; declaring the class fits
the default of each method to its result type, where it can be converted to it.
-/
namespace Metaobject

/-- A class in the making. -/
structure ClassBuilder where
  name : String
  kind : ClassKind
  supertypes : List ClassId := []
  methods : List MethodDecl := []
  synthetic : Bool := false
  rooted : kind = .annotationType → ClassId.annotations ∈ supertypes := by simp

namespace ClassBuilder

/-- A class without supertypes or methods; an annotation type extends the root of its kind. -/
def empty (kind : ClassKind) (name : String) : ClassBuilder where
  name := name
  kind := kind
  supertypes := if kind = .annotationType then [.annotations] else []
  rooted := by
    intro hKind
    rw [if_pos hKind]
    exact List.mem_singleton_self _

/-- Extend a class, once. -/
def extend (b : ClassBuilder) (c : ClassId) : ClassBuilder :=
  if c ∈ b.supertypes then b
  else
    { b with
      supertypes := b.supertypes ++ [c]
      rooted := fun hKind => List.mem_append_left [c] (b.rooted hKind) }

/-- Declare a method. -/
def method (b : ClassBuilder) (m : MethodDecl) : ClassBuilder :=
  { b with methods := b.methods ++ [m] }

/-- Mark the class as made by the library. -/
def makeSynthetic (b : ClassBuilder) : ClassBuilder :=
  { b with synthetic := true }

end ClassBuilder

namespace Hierarchy

/-- A method as it is declared: its default is converted to its written result type if it can be. -/
def fitDefault (h : Hierarchy) (m : MethodDecl) : MethodDecl :=
  { m with default? := m.default?.map fun v => (h.convert? v m.result).getD v }

/-- Append a declaration; supertypes that have not been declared are left out. -/
def declare (h : Hierarchy) (d : ClassDecl)
    (rooted : d.kind = .annotationType → ClassId.annotations ∈ d.supertypes) : Hierarchy where
  classes := h.classes.push
    { d with supertypes := d.supertypes.filter (·.index < h.classes.size) }
  opening := by
    rw [Array.toList_push, List.take_append_of_le_length h.three_le_size, h.opening]
  ordered := by
    intro i hi s hs
    rw [Array.getElem_push] at hs
    split at hs
    · next hlt => exact h.ordered i hlt s hs
    · next hge =>
        simp only [List.mem_filter, decide_eq_true_eq] at hs
        have := hs.2
        omega
  rooted := by
    intro i hi hKind
    have hRoot : ClassId.annotations.index < h.classes.size :=
      Nat.lt_of_lt_of_le (by decide) h.three_le_size
    rw [Array.getElem_push] at hKind ⊢
    split at hKind
    · next hlt =>
        rw [dif_pos hlt]
        exact h.rooted i hlt hKind
    · next hge =>
        rw [dif_neg hge]
        exact List.mem_filter.mpr ⟨rooted hKind, decide_eq_true hRoot⟩

/-- Declare a class; it is named by the end of the hierarchy before. -/
def define (h : Hierarchy) (b : ClassBuilder) : Hierarchy × ClassId :=
  (h.declare
    { name := b.name, kind := b.kind, supertypes := b.supertypes
      methods := b.methods.map h.fitDefault, synthetic := b.synthetic } b.rooted,
   ⟨h.classes.size⟩)

end Hierarchy

end Metaobject
