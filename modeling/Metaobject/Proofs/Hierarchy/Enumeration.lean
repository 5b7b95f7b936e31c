import Mathlib.Data.List.Induction
import Mathlib.Data.List.Nodup
import Mathlib.Logic.Relation
import Metaobject.Contract
import Metaobject.Table

/-!
Enumerating what is above a class, and searching it. Both go depth first. The enumeration keeps a
record of the classes that it has visited and passes them by; the search keeps none and goes every
way up to its end. What a class has above it is no different the second time, so the first class to
be found is the same either way.
-/
namespace Metaobject

section Lists

variable {α β : Type} {xs : List α} {p : α → Bool} {a : α} {bs : List β} {b : β}

/-- What is found in a list by a test that only one of its items passes. -/
theorem find?_eq_some_of_unique (ha : a ∈ xs)
    (hp : p a = true) (hUnique : ∀ b ∈ xs, p b = true → b = a) : xs.find? p = some a := by
  cases hFind : xs.find? p with
  | none =>
      have hNone := List.find?_eq_none.mp hFind a ha
      exact absurd hp hNone
  | some b =>
      rw [hUnique b (List.mem_of_find?_eq_some hFind) (List.find?_some hFind)]

/-- Where an item stands in a list that ends with some item: at the end, or before it. -/
theorem split_concat {before after : List α} {last : α}
    (hSplit : xs ++ [last] = before ++ a :: after) :
    (xs = before ∧ last = a) ∨ ∃ between, xs = before ++ a :: between := by
  rcases List.eq_nil_or_concat after with rfl | ⟨between, other, rfl⟩
  · obtain ⟨hBefore, hLast⟩ := List.append_inj' hSplit rfl
    exact .inl ⟨hBefore, List.singleton_inj.mp hLast⟩
  · rw [List.concat_eq_append, ← List.cons_append, ← List.append_assoc] at hSplit
    exact .inr ⟨between, (List.append_inj' hSplit rfl).1⟩

/-- What is found in a list passes the test, and nothing before it does. -/
theorem find?_eq_some_iff_takeWhile [DecidableEq α] (ha : a ∈ xs) (hp : p a = true) :
    xs.find? p = some a ↔ ∀ b ∈ xs.takeWhile (· != a), p b = false := by
  induction xs with
  | nil => cases ha
  | cons x xs ih =>
      by_cases hSame : x = a
      · simp [hSame, hp]
      · have hRest : a ∈ xs := (List.mem_cons.mp ha).resolve_left fun hEq => hSame hEq.symm
        rw [List.find?_cons, List.takeWhile_cons_of_pos (by simpa using hSame)]
        cases hx : p x with
        | true => simp [hSame, hx]
        | false => simp [hx, ih hRest]

theorem findSome?_congr {f g : β → Option α} (hSame : ∀ b ∈ bs, f b = g b) :
    bs.findSome? f = bs.findSome? g := by
  induction bs with
  | nil => rfl
  | cons b bs ih =>
      rw [List.findSome?_cons, List.findSome?_cons, hSame b (List.mem_cons_self ..),
        ih fun c hc => hSame c (List.mem_cons_of_mem b hc)]

variable [BEq β] [LawfulBEq β]

theorem eraseDups_concat_of_mem (hb : b ∈ bs) : (bs ++ [b]).eraseDups = bs.eraseDups := by
  rw [List.eraseDups_append, List.cons_removeAll, if_neg (by simpa using hb)]
  exact List.append_nil _

theorem eraseDups_concat_of_not_mem (hb : b ∉ bs) :
    (bs ++ [b]).eraseDups = bs.eraseDups ++ [b] := by
  rw [List.eraseDups_append, List.cons_removeAll, if_pos (by simpa using hb)]
  rfl

/-- Repetitions are left out as they come. -/
theorem eraseDups_concat (bs : List β) (b : β) :
    (bs ++ [b]).eraseDups =
      if b ∈ bs.eraseDups then bs.eraseDups else bs.eraseDups ++ [b] := by
  split
  · next hb => rw [eraseDups_concat_of_mem (List.mem_eraseDups.mp hb)]
  · next hb => rw [eraseDups_concat_of_not_mem (hb ∘ List.mem_eraseDups.mpr)]

theorem eraseDups_append_of_subset {cs : List β} (hcs : cs ⊆ bs) :
    (bs ++ cs).eraseDups = bs.eraseDups := by
  have hNone : cs.removeAll bs = [] := by
    rw [List.removeAll, List.filter_eq_nil_iff]
    intro c hc
    simpa using hcs hc
  rw [List.eraseDups_append, hNone]
  exact List.append_nil _

theorem nodup_eraseDups (bs : List β) : bs.eraseDups.Nodup := by
  induction bs using List.reverseRecOn with
  | nil => exact List.nodup_nil
  | append_singleton bs b ih =>
      by_cases hb : b ∈ bs
      · rw [eraseDups_concat_of_mem hb]
        exact ih
      · rw [eraseDups_concat_of_not_mem hb, ← List.concat_eq_append]
        exact ih.concat (hb ∘ List.mem_eraseDups.mp)

theorem eraseDups_of_nodup (hNodup : bs.Nodup) : bs.eraseDups = bs := by
  induction bs using List.reverseRecOn with
  | nil => rfl
  | append_singleton bs b ih =>
      have hParts := List.nodup_append.mp hNodup
      have hNew : b ∉ bs := fun hb => hParts.2.2 b hb b (List.mem_singleton_self b) rfl
      rw [eraseDups_concat_of_not_mem hNew, ih hParts.1]

/-- Repetitions come too late to be found. -/
theorem findSome?_eraseDups (f : β → Option α) (bs : List β) :
    bs.eraseDups.findSome? f = bs.findSome? f := by
  induction bs using List.reverseRecOn with
  | nil => rfl
  | append_singleton bs b ih =>
      rw [List.findSome?_append]
      by_cases hb : b ∈ bs
      · rw [eraseDups_concat_of_mem hb, ih]
        cases hFound : bs.findSome? f with
        | some a => rfl
        | none => simp [List.findSome?_eq_none_iff.mp hFound b hb]
      · rw [eraseDups_concat_of_not_mem hb, List.findSome?_append, ih]

end Lists

/-- The places of the methods of each name, in order, entered one method after another. -/
def placesByName (methods : List MethodDecl) : Table String (List Nat) :=
  methods.zipIdx.foldl (fun places (m, i) =>
    Table.set places m.name ((Table.find? places m.name).getD [] ++ [i])) []

namespace Hierarchy

variable (h : Hierarchy)

/-- What holds of a class whenever it holds of its direct supertypes holds of every class. -/
@[elab_as_elim]
theorem supertypes_induction {P : ClassId → Prop}
    (step : ∀ c, (∀ s ∈ h.supertypes c, P s) → P c) (c : ClassId) : P c :=
  step c fun s hs =>
    have := h.index_lt_of_mem_supertypes hs
    supertypes_induction step s
termination_by c.index

/-- A class and all that is above it in depth-first preorder, once for every way up. -/
def walk (c : ClassId) : List ClassId :=
  c :: (h.supertypes c).attach.flatMap fun ⟨s, hs⟩ =>
    have := h.index_lt_of_mem_supertypes hs
    walk s
termination_by c.index

/-- A class can be reached from another through direct supertypes. -/
def Reaches (c d : ClassId) : Prop :=
  Relation.ReflTransGen (fun a s => s ∈ h.supertypes a) c d

/-- A method of a name and a number of parameters. -/
def isNamed (name : String) (arity : Nat) (m : MethodRef) : Bool :=
  (h.method m).name == name && h.arity m == arity

variable {h} {c d : ClassId}

theorem walk_eq (c : ClassId) : h.walk c = c :: (h.supertypes c).flatMap h.walk := by
  rw [walk]
  simp

/-- The walk comes to what can be reached, and to nothing else. -/
theorem mem_walk : d ∈ h.walk c ↔ h.Reaches c d := by
  constructor
  · intro hd
    induction c using supertypes_induction h with
    | step c ih =>
        rw [walk_eq, List.mem_cons, List.mem_flatMap] at hd
        rcases hd with rfl | ⟨s, hs, hd⟩
        · exact .refl
        · exact .head hs (ih s hs hd)
  · intro hReaches
    induction hReaches using Relation.ReflTransGen.head_induction_on with
    | refl =>
        rw [walk_eq]
        exact List.mem_cons_self ..
    | head hs _ ih =>
        rw [walk_eq]
        exact List.mem_cons_of_mem _ (List.mem_flatMap.mpr ⟨_, hs, ih⟩)

/-- One step of the search of all that is above a class. -/
theorem visit_eq (visited : List ClassId) (c : ClassId) :
    h.visit visited c =
      if c ∈ visited then visited else (h.supertypes c).foldl h.visit (visited ++ [c]) := by
  rw [visit]
  split
  · rfl
  · exact List.foldl_attach

/-- What has been visited below an index is visited with all its direct supertypes. Classes whose
visit is still going on have a greater index, so nothing is asked of them. -/
def ClosedBelow (h : Hierarchy) (k : Nat) (visited : List ClassId) : Prop :=
  ∀ c ∈ visited, c.index < k → ∀ s ∈ h.supertypes c, s ∈ visited

namespace ClosedBelow

variable {k : Nat} {visited : List ClassId}

/-- A class that has been visited leads to no class that has not been. -/
theorem walk_subset (hClosed : h.ClosedBelow k visited) (hc : c ∈ visited)
    (hBelow : c.index < k) : h.walk c ⊆ visited := by
  induction c using supertypes_induction h with
  | step c ih =>
      intro d hd
      rw [walk_eq, List.mem_cons, List.mem_flatMap] at hd
      rcases hd with rfl | ⟨s, hs, hd⟩
      · exact hc
      · have hLess : s.index < c.index := h.index_lt_of_mem_supertypes hs
        exact ih s hs (hClosed c hc hBelow s hs) (Nat.lt_trans hLess hBelow) hd

theorem append_walk (hClosed : h.ClosedBelow k visited) (c : ClassId) :
    h.ClosedBelow k (visited ++ h.walk c) := by
  intro d hd hBelow s hs
  rcases List.mem_append.mp hd with hOld | hNew
  · exact List.mem_append_left _ (hClosed d hOld hBelow s hs)
  · exact List.mem_append_right _ (mem_walk.mpr ((mem_walk.mp hNew).tail hs))

/-- The visit of a class is under way: the visits of its supertypes are below it. -/
theorem concat (hClosed : h.ClosedBelow k visited) (hBelow : c.index < k) :
    h.ClosedBelow c.index (visited ++ [c]) := by
  intro d hd hLess s hs
  rcases List.mem_append.mp hd with hOld | hSelf
  · exact List.mem_append_left _ (hClosed d hOld (Nat.lt_trans hLess hBelow) s hs)
  · rw [List.mem_singleton.mp hSelf] at hLess
    exact absurd hLess (Nat.lt_irrefl _)

/-- Visits in a row add what the walks come to, if each of them does. -/
theorem foldl_visit {cs : List ClassId}
    (hVisit : ∀ c ∈ cs, ∀ seen, h.ClosedBelow k seen →
      h.visit seen.eraseDups c = (seen ++ h.walk c).eraseDups)
    (hClosed : h.ClosedBelow k visited) :
    cs.foldl h.visit visited.eraseDups = (visited ++ cs.flatMap h.walk).eraseDups := by
  induction cs generalizing visited with
  | nil => simp
  | cons c cs ih =>
      rw [List.foldl_cons, hVisit c (List.mem_cons_self ..) visited hClosed,
        ih (fun d hd => hVisit d (List.mem_cons_of_mem c hd)) (hClosed.append_walk c),
        List.flatMap_cons, List.append_assoc]

/-- A visit adds what the walk comes to and has not been visited. -/
theorem visit (hClosed : h.ClosedBelow k visited) (hBelow : c.index < k) :
    h.visit visited.eraseDups c = (visited ++ h.walk c).eraseDups := by
  induction c using supertypes_induction h generalizing k visited with
  | step c ih =>
      by_cases hOld : c ∈ visited
      · rw [visit_eq, if_pos (List.mem_eraseDups.mpr hOld),
          eraseDups_append_of_subset (hClosed.walk_subset hOld hBelow)]
      · have hAbove := foldl_visit
          (fun s hs seen hSeen => ih s hs hSeen (h.index_lt_of_mem_supertypes hs))
          (hClosed.concat hBelow)
        rw [visit_eq, if_neg (hOld ∘ List.mem_eraseDups.mp), ← eraseDups_concat_of_not_mem hOld,
          hAbove, walk_eq, List.append_assoc, List.singleton_append]

end ClosedBelow

/-- The classes above a class are taken in the order in which the walk first comes to them. -/
theorem linearization_eq_eraseDups (h : Hierarchy) (c : ClassId) :
    h.linearization c = (h.walk c).eraseDups := by
  have hNone : h.ClosedBelow (c.index + 1) [] := fun d hd => absurd hd List.not_mem_nil
  exact hNone.visit (Nat.lt_succ_self _)

theorem mem_linearization : d ∈ h.linearization c ↔ h.Reaches c d := by
  rw [linearization_eq_eraseDups, List.mem_eraseDups, mem_walk]

theorem nodup_linearization (h : Hierarchy) (c : ClassId) : (h.linearization c).Nodup := by
  rw [linearization_eq_eraseDups]
  exact nodup_eraseDups _

theorem mem_declaredMethods {m : MethodRef} :
    m ∈ h.declaredMethods c ↔ m.owner = c ∧ m.index < (h.decl c).methods.length := by
  obtain ⟨owner, index⟩ := m
  simp only [declaredMethods, List.mem_map, List.mem_range, MethodRef.mk.injEq]
  constructor
  · rintro ⟨i, hi, rfl, rfl⟩
    exact ⟨rfl, hi⟩
  · rintro ⟨rfl, hi⟩
    exact ⟨index, hi, rfl, rfl⟩

theorem nodup_declaredMethods (h : Hierarchy) (c : ClassId) : (h.declaredMethods c).Nodup :=
  List.nodup_range.map fun _ _ hSame => congrArg MethodRef.index hSame

/-- A class has the methods of all classes that it reaches. -/
theorem mem_allMethods {m : MethodRef} :
    m ∈ h.allMethods c ↔ ∃ d, h.Reaches c d ∧ m ∈ h.declaredMethods d := by
  simp only [allMethods, List.mem_flatMap, mem_linearization]

/-- Each class is taken once, and different classes declare different methods. -/
theorem nodup_allMethods (h : Hierarchy) (c : ClassId) : (h.allMethods c).Nodup := by
  rw [allMethods, List.nodup_flatMap]
  refine ⟨fun d _ => h.nodup_declaredMethods d, (h.nodup_linearization c).imp ?_⟩
  intro d e hOther m hd he
  exact hOther ((mem_declaredMethods.mp hd).1.symm.trans (mem_declaredMethods.mp he).1)

theorem find?_placesByName (methods : List MethodDecl) (name : String) :
    (Table.find? (placesByName methods) name).getD [] =
      (List.range methods.length).filter fun i => (methods[i]?.getD default).name == name := by
  induction methods using List.reverseRecOn with
  | nil => rfl
  | append_singleton methods m ih =>
      have hEarlier : ((List.range methods.length).filter fun i =>
            ((methods ++ [m])[i]?.getD default).name == name) =
          (List.range methods.length).filter fun i => (methods[i]?.getD default).name == name := by
        apply List.filter_congr
        intro i hi
        rw [List.getElem?_append_left (List.mem_range.mp hi)]
      rw [placesByName, List.zipIdx_append, List.foldl_append, ← placesByName,
        List.zipIdx_singleton, List.foldl_cons, List.foldl_nil, Table.find?_set, List.length_append,
        List.length_singleton, List.range_succ, List.filter_append, hEarlier, ← ih]
      by_cases hName : m.name = name
      · simp [hName]
      · simp [hName]

/-- The methods of a name are those at the places that the table has for it. -/
theorem declaredNamed_eq_places (h : Hierarchy) (c : ClassId) (name : String) :
    h.declaredNamed c name =
      ((Table.find? (placesByName (h.decl c).methods) name).getD []).map (⟨c, ·⟩) := by
  rw [find?_placesByName, declaredNamed, declaredMethods, List.filter_map]
  rfl

variable {name : String} {arity : Nat}

theorem declaredWith?_eq_find? (c : ClassId) :
    h.declaredWith? c name arity = (h.declaredMethods c).find? (h.isNamed name arity) := by
  rw [declaredWith?, declaredNamed, List.find?_filter]
  simp only [Bool.decide_and, Bool.decide_eq_true]
  rfl

theorem declaredOrInherited?_eq (c : ClassId) :
    h.declaredOrInherited? c name arity =
      (h.declaredWith? c name arity).or
        ((h.supertypes c).findSome? (h.declaredOrInherited? · name arity)) := by
  rw [declaredOrInherited?]
  simp

/-- The search goes the way of the walk. -/
theorem declaredOrInherited?_eq_find?_walk (c : ClassId) :
    h.declaredOrInherited? c name arity =
      ((h.walk c).flatMap h.declaredMethods).find? (h.isNamed name arity) := by
  induction c using supertypes_induction h with
  | step c ih =>
      rw [declaredOrInherited?_eq, declaredWith?_eq_find?, walk_eq, List.flatMap_cons,
        List.find?_append, List.flatMap_assoc, List.find?_flatMap, findSome?_congr ih]

/-- What is passed by in the enumeration would not be found any more. -/
theorem declaredOrInherited?_eq_find? (c : ClassId) :
    h.declaredOrInherited? c name arity = (h.allMethods c).find? (h.isNamed name arity) := by
  rw [declaredOrInherited?_eq_find?_walk, allMethods, linearization_eq_eraseDups,
    List.find?_flatMap, List.find?_flatMap, findSome?_eraseDups]

/-- The methods of a class as they are enumerated and as they are searched. The enumeration has each
method once: the methods that the class and the classes it reaches declare, class by class in the
order in which a depth-first walk first comes to them, the class itself first. The methods of one
name are those that a table of their places leads to. A search finds the first method of its name
and number of parameters in the enumeration, or else the first that the root declares. -/
theorem enumeration_of_methods (h : Hierarchy) (c : ClassId) :
    (h.allMethods c).Nodup ∧
      (∀ m, m ∈ h.allMethods c ↔ ∃ d, h.Reaches c d ∧ m ∈ h.declaredMethods d) ∧
      h.allMethods c = (h.walk c).eraseDups.flatMap h.declaredMethods ∧
      (∃ above, (h.walk c).eraseDups = c :: above) ∧
      (∀ d name, h.declaredNamed d name =
        ((Table.find? (placesByName (h.decl d).methods) name).getD []).map (⟨d, ·⟩)) ∧
      ∀ name arity, h.findMethod? c name arity =
        ((h.allMethods c).find? (h.isNamed name arity)).or
          ((h.declaredMethods .object).find? (h.isNamed name arity)) := by
  refine ⟨h.nodup_allMethods c, fun m => mem_allMethods, ?_, ?_, h.declaredNamed_eq_places,
    fun name arity => ?_⟩
  · rw [allMethods, linearization_eq_eraseDups]
  · rw [walk_eq, List.eraseDups_cons]
    exact ⟨_, rfl⟩
  · rw [findMethod?, declaredOrInherited?_eq_find?, declaredWith?_eq_find?]

end Hierarchy

end Metaobject
