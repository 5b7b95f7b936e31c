/-!
Finite tables as association lists, in the order in which their keys first came. A key is looked up
from the front; setting a key that is present replaces its value in place.
-/
namespace Metaobject

/-- Keys with their values. -/
abbrev Table (α β : Type) := List (α × β)

namespace Table

variable {α β : Type} [DecidableEq α]

/-- The value of a key. -/
def find? (t : Table α β) (a : α) : Option β :=
  match t with
  | [] => none
  | (b, v) :: rest => if b = a then some v else find? rest a

/-- Give a key a value, in place if it has one already. -/
def set (t : Table α β) (a : α) (v : β) : Table α β :=
  match t with
  | [] => [(a, v)]
  | (b, w) :: rest => if b = a then (a, v) :: rest else (b, w) :: set rest a v

/-- Give a key a value unless it has one already. -/
def setNew (t : Table α β) (a : α) (v : β) : Table α β :=
  if (find? t a).isSome then t else t ++ [(a, v)]

/-- The keys in order. -/
def keys (t : Table α β) : List α :=
  t.map Prod.fst

@[simp]
theorem find?_nil (a : α) : find? ([] : Table α β) a = none := rfl

theorem find?_eq_none_iff {t : Table α β} {a : α} : find? t a = none ↔ a ∉ keys t := by
  induction t with
  | nil => simp [keys]
  | cons head rest ih =>
      obtain ⟨b, v⟩ := head
      rw [find?, keys, List.map_cons, List.mem_cons, not_or, ← keys, ← ih]
      split
      · next hKey => simp [hKey]
      · next hKey => simp [Ne.symm hKey]

theorem find?_set (t : Table α β) (a b : α) (v : β) :
    find? (set t a v) b = if a = b then some v else find? t b := by
  induction t with
  | nil => simp [set, find?]
  | cons head rest ih =>
      obtain ⟨c, w⟩ := head
      by_cases hca : c = a
      · subst hca
        simp only [set, find?, if_true]
        split <;> rfl
      · simp only [set, hca, if_false, find?, ih]
        by_cases hcb : c = b
        · subst hcb
          simp [Ne.symm hca]
        · simp [hcb]

theorem mem_of_find? {t : Table α β} {a : α} {v : β} (h : find? t a = some v) : (a, v) ∈ t := by
  induction t with
  | nil => cases h
  | cons head rest ih =>
      obtain ⟨b, w⟩ := head
      rw [find?] at h
      split at h
      · next hKey =>
          cases h
          rw [hKey]
          exact List.mem_cons_self ..
      · exact List.mem_cons_of_mem _ (ih h)

theorem mem_set {t : Table α β} {a : α} {v : β} {entry : α × β} (h : entry ∈ set t a v) :
    entry ∈ t ∨ entry = (a, v) := by
  induction t with
  | nil => exact .inr (List.mem_singleton.mp h)
  | cons head rest ih =>
      obtain ⟨b, w⟩ := head
      rw [set] at h
      split at h <;> rcases List.mem_cons.mp h with hHead | hRest
      · exact .inr hHead
      · exact .inl (List.mem_cons_of_mem _ hRest)
      · exact .inl (hHead ▸ List.mem_cons_self ..)
      · exact (ih hRest).imp_left (List.mem_cons_of_mem _)

theorem find?_append (t u : Table α β) (a : α) :
    find? (t ++ u) a = (find? t a).or (find? u a) := by
  induction t with
  | nil => simp [find?]
  | cons head rest ih =>
      obtain ⟨c, w⟩ := head
      simp only [List.cons_append, find?]
      split
      · rfl
      · exact ih

theorem find?_setNew (t : Table α β) (a b : α) (v : β) :
    find? (setNew t a v) b = (find? t b).or (if a = b then some v else none) := by
  unfold setNew
  split
  · next h =>
      by_cases hab : a = b
      · subst hab
        obtain ⟨w, hw⟩ := Option.isSome_iff_exists.mp h
        simp [hw]
      · simp [hab]
  · rw [find?_append]
    rfl

theorem setNew_of_mem {t : Table α β} {a : α} (h : a ∈ keys t) (v : β) : setNew t a v = t := by
  have hSome : (find? t a).isSome = true :=
    Option.isSome_iff_ne_none.mpr fun hNone => find?_eq_none_iff.mp hNone h
  rw [setNew, if_pos hSome]

/-- A key that is new comes last. -/
theorem keys_setNew_of_not_mem {t : Table α β} {a : α} (h : a ∉ keys t) (v : β) :
    keys (setNew t a v) = keys t ++ [a] := by
  rw [setNew, find?_eq_none_iff.mpr h, if_neg (by simp), keys, List.map_append]
  rfl

end Table

end Metaobject
