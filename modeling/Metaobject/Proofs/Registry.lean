import Metaobject.Proofs.Hierarchy.Growth
import Metaobject.Registry

/-!
Registries as they come about: one that opens with the opening classes, and then has classes
registered while the hierarchy goes on growing. Whatever is found in it has the name it is found
under.
-/
namespace Metaobject.Registry

/-- A registry that can come about, with the hierarchy at that time. Classes may be declared before,
between and after the registrations. -/
inductive Reached : Hierarchy → Registry → Prop where
  | opening (h : Hierarchy) : Reached h Registry.opening
  | register {h : Hierarchy} {r : Registry} {c : ClassId} (before : Reached h r)
      (declared : h.Declared c) : Reached h (Registry.register h r c)
  | define {h : Hierarchy} {r : Registry} (b : ClassBuilder) (before : Reached h r) :
      Reached (h.define b).1 r

/-- The first registrations are of declared classes under their names. -/
theorem opening_named (h : Hierarchy) :
    ∀ entry ∈ Registry.opening, h.Declared entry.2 ∧ h.className entry.2 = entry.1 := by
  intro entry hEntry
  simp only [Registry.opening, List.mem_cons, List.not_mem_nil, or_false] at hEntry
  rcases hEntry with rfl | rfl | rfl
  · exact ⟨h.declared_opening 0 (by decide), by rw [Hierarchy.className, h.decl_object]; rfl⟩
  · exact ⟨h.declared_opening 1 (by decide), by rw [Hierarchy.className, h.decl_annotations]; rfl⟩
  · exact ⟨h.declared_opening 2 (by decide), by rw [Hierarchy.className, h.decl_lazyProxy]; rfl⟩

/-- What is found is a declared class of that name. -/
theorem Reached.declared_className {h : Hierarchy} {r : Registry} (hr : Reached h r) {name : String}
    {c : ClassId} (hc : r.lookup name = some c) : h.Declared c ∧ h.className c = name := by
  induction hr with
  | opening h => exact opening_named h (name, c) (Table.mem_of_find? hc)
  | @register h r d before declared ih =>
      rw [lookup_register] at hc
      split at hc
      · next hName =>
          cases hc
          exact ⟨declared, hName⟩
      · exact ih hc
  | @define h r b before ih =>
      obtain ⟨hDeclared, hName⟩ := ih hc
      have hGrows := Hierarchy.growsTo_define h b
      exact ⟨hGrows.declared hDeclared, (hGrows.className_eq hDeclared).trans hName⟩

end Metaobject.Registry
