import Mathlib.Data.Finset.Card
import Mathlib.Data.List.Find
import Metaobject.Proofs.Proxy

/-!
What the table of a class of proxies has entries for, and how many. A call by name goes through the
table; a search goes from the class to its interfaces and above them, and to the root last. The two
are filled and gone through in the same order, so where the root does not come first in the table
and the search finds a method that can be called on an object, they come to one method.
-/
namespace Metaobject

variable {ε σ : Type} {h : Hierarchy} {contracts : List ClassId} {name : String} {arity : Nat}
  {m : MethodRef}

/-- What is found by a test is found by any narrower test that it passes. -/
theorem find?_eq_some_of_imp {α : Type} {xs : List α} {p q : α → Bool} {a : α}
    (hFind : xs.find? p = some a) (ha : q a = true) (hImp : ∀ b, q b = true → p b = true) :
    xs.find? q = some a := by
  obtain ⟨-, before, after, rfl, hBefore⟩ := List.find?_eq_some_iff_append.mp hFind
  refine List.find?_eq_some_iff_append.mpr ⟨ha, before, after, rfl, fun b hb => ?_⟩
  rw [Bool.not_eq_true', ← Bool.not_eq_true]
  intro hq
  simpa [hImp b hq] using hBefore b hb

namespace Hierarchy

/-- What a method is entered under: its name and its number of parameters. -/
def entryKey (h : Hierarchy) (m : MethodRef) : String × Nat :=
  ((h.method m).name, h.arity m)

/-- The keys of the methods of a list that are called on an object. -/
def instanceKeys (h : Hierarchy) (ms : List MethodRef) : List (String × Nat) :=
  (ms.filter fun m => (h.method m).kind = .ofInstance).map h.entryKey

theorem instanceKeys_append (ms ns : List MethodRef) :
    h.instanceKeys (ms ++ ns) = h.instanceKeys ms ++ h.instanceKeys ns := by
  simp [instanceKeys]

theorem isNamed_of_isInstanceNamed (hm : h.isInstanceNamed name arity m = true) :
    h.isNamed name arity m = true := by
  obtain ⟨-, hName, hArity⟩ := isInstanceNamed_iff.mp hm
  simp [isNamed, hName, hArity]

theorem isInstanceNamed_of_isNamed (hKind : (h.method m).kind = .ofInstance)
    (hm : h.isNamed name arity m = true) : h.isInstanceNamed name arity m = true := by
  simpa [isInstanceNamed, isNamed, hKind] using hm

theorem declaredWith?_object_eq_find? (h : Hierarchy) (name : String) (arity : Nat) :
    h.declaredWith? .object name arity =
      (h.declaredMethods .object).find? (h.isInstanceNamed name arity) := by
  rw [declaredWith?_eq_find?]
  refine List.find?_congr fun m hm => ?_
  simp [isInstanceNamed, isNamed, kind_of_mem_declaredMethods_object hm]

end Hierarchy

namespace ProxyClass

variable {table : Table (String × Nat) MethodRef} {seen : List (String × Nat)}

/-- Entering a method adds its key, if it is called on an object and its key is new. -/
theorem keys_enter (hSeen : Table.keys table = seen.eraseDups) (m : MethodRef) :
    Table.keys (enter h table m) = (seen ++ h.instanceKeys [m]).eraseDups := by
  rw [enter]
  by_cases hKind : (h.method m).kind = .ofInstance
  · have hKey : h.instanceKeys [m] = [h.entryKey m] := by simp [Hierarchy.instanceKeys, hKind]
    rw [if_pos hKind, hKey]
    by_cases hOld : h.entryKey m ∈ seen
    · have hKept : h.entryKey m ∈ Table.keys table := hSeen ▸ List.mem_eraseDups.mpr hOld
      rw [eraseDups_concat_of_mem hOld, ← hSeen]
      exact congrArg Table.keys (Table.setNew_of_mem hKept m)
    · have hNew : h.entryKey m ∉ Table.keys table := fun hEntry =>
        hOld (List.mem_eraseDups.mp (hSeen ▸ hEntry))
      rw [eraseDups_concat_of_not_mem hOld, ← hSeen]
      exact Table.keys_setNew_of_not_mem hNew m
  · have hNoKey : h.instanceKeys [m] = [] := by simp [Hierarchy.instanceKeys, hKind]
    rw [if_neg hKind, hNoKey, List.append_nil, hSeen]

theorem keys_foldl_enter (hSeen : Table.keys table = seen.eraseDups) (ms : List MethodRef) :
    Table.keys (ms.foldl (enter h) table) = (seen ++ h.instanceKeys ms).eraseDups := by
  induction ms generalizing table seen with
  | nil => simp [Hierarchy.instanceKeys, hSeen]
  | cons m ms ih =>
      rw [List.foldl_cons, ih (keys_enter hSeen m), List.append_assoc,
        ← Hierarchy.instanceKeys_append, List.singleton_append]

theorem keys_tableOf (h : Hierarchy) (contracts : List ClassId) :
    Table.keys (tableOf h contracts) = (h.instanceKeys (candidates h contracts)).eraseDups := by
  have hNone : Table.keys ([] : Table (String × Nat) MethodRef) = [].eraseDups := rfl
  exact keys_foldl_enter hNone _

/-- The number of entries is the number of different keys. -/
theorem length_tableOf (h : Hierarchy) (contracts : List ClassId) :
    (tableOf h contracts).length = (h.instanceKeys (candidates h contracts)).toFinset.card := by
  have hSame : (h.instanceKeys (candidates h contracts)).toFinset =
      (Table.keys (tableOf h contracts)).toFinset := by
    ext key
    rw [List.mem_toFinset, List.mem_toFinset, keys_tableOf, List.mem_eraseDups]
  rw [hSame, List.toFinset_card_of_nodup (keys_tableOf h contracts ▸ nodup_eraseDups _), Table.keys,
    List.length_map]

/-- An entry is a method of the root, or else the first that an interface has. -/
theorem find?_tableOf_eq_or (h : Hierarchy) (contracts : List ClassId) (name : String)
    (arity : Nat) :
    Table.find? (tableOf h contracts) (name, arity) =
      (h.declaredWith? .object name arity).or
        ((contracts.flatMap h.allMethods).find? (h.isInstanceNamed name arity)) := by
  rw [find?_tableOf, candidates, List.find?_append, Hierarchy.declaredWith?_object_eq_find?]

/-- A class that declares nothing and extends interfaces is searched interface by interface. -/
theorem declaredOrInherited?_of_supertypes {c : ClassId} (hMethods : (h.decl c).methods = [])
    (hSupertypes : h.supertypes c = contracts.eraseDups) (name : String) (arity : Nat) :
    h.declaredOrInherited? c name arity =
      (contracts.flatMap h.allMethods).find? (h.isNamed name arity) := by
  have hOwn : h.declaredWith? c name arity = none := by
    rw [Hierarchy.declaredWith?_eq_find?, Hierarchy.declaredMethods, hMethods]
    rfl
  rw [Hierarchy.declaredOrInherited?_eq, hOwn, hSupertypes, Option.none_or, findSome?_eraseDups,
    List.find?_flatMap]
  exact findSome?_congr fun c _ => Hierarchy.declaredOrInherited?_eq_find? c

/-- The table of a class made for proxies of some interfaces, at any later time. An entry is the
method of the root, if it declares one, and otherwise the first method that is called on an object
among all methods of the interfaces in order; there is none only if there is no such method, and as
many as there are different names with numbers of parameters. Where the root declares no such
method, a search from the class that finds a method called on an object finds the entry. -/
theorem dispatch_of_synthesized {w : World σ} (contracts : List ClassId)
    (hDeclared : ∀ c ∈ contracts, w.hierarchy.Declared c) :
    ∃ made v, (synthesize contracts : Run ε σ ProxyClass) w = (.ok made, v) ∧
      ∀ h, v.hierarchy.GrowsTo h →
        (∀ name arity, Table.find? made.table (name, arity) =
          (h.declaredWith? .object name arity).or
            ((contracts.flatMap h.allMethods).find? (h.isInstanceNamed name arity))) ∧
        (∀ name arity, Table.find? made.table (name, arity) = none ↔
          h.declaredWith? .object name arity = none ∧
            ∀ c ∈ contracts, ∀ m ∈ h.allMethods c, h.isInstanceNamed name arity m = false) ∧
        made.table.length =
          (h.instanceKeys
            (h.declaredMethods .object ++ contracts.flatMap h.allMethods)).toFinset.card ∧
        ∀ name arity m, h.declaredWith? .object name arity = none →
          h.findMethod? made.cls name arity = some m → (h.method m).kind = .ofInstance →
          Table.find? made.table (name, arity) = some m := by
  refine ⟨_, _, synthesize_eq contracts w, fun h hGrows => ?_⟩
  dsimp only at hGrows ⊢
  have hMade := w.hierarchy.declared_define (builderFor w contracts)
  have hBefore := w.hierarchy.growsTo_define (builderFor w contracts)
  have hTable := tableOf_eq hGrows fun c hc => hBefore.declared (hDeclared c hc)
  have hDecl := (hGrows.decl_eq hMade).trans (decl_synthesized hDeclared)
  rw [← hTable]
  refine ⟨find?_tableOf_eq_or h contracts, fun name arity => ?_, length_tableOf h contracts,
    fun name arity m hRoot hFound hKind => ?_⟩
  · simp [find?_tableOf_eq_or]
  · have hSearch := declaredOrInherited?_of_supertypes (congrArg ClassDecl.methods hDecl)
      (congrArg ClassDecl.supertypes hDecl) name arity
    rw [Hierarchy.findMethod?, hRoot, Option.or_none, hSearch] at hFound
    rw [find?_tableOf_eq_or, hRoot, Option.none_or]
    exact find?_eq_some_of_imp hFound
      (Hierarchy.isInstanceNamed_of_isNamed hKind (List.find?_some hFound))
      fun n => Hierarchy.isNamed_of_isInstanceNamed

/-- An interface with a method that the root declares too. -/
def sizedType : ClassBuilder :=
  ((ClassBuilder.empty .interface "sized").method
    { name := "size", result := .primitive .int }).method
    { name := "hash_code", result := .primitive .int }

/-- An interface below it, with a method of its own and one that is called on the class. -/
def stretchyType : ClassBuilder :=
  (((ClassBuilder.empty .interface "stretchy").extend ⟨3⟩).method
    { name := "size", kind := .static }).method
    { name := "stretch", parameters := [⟨"by", .primitive .int⟩] }

/-- A world in which both have been declared. -/
def stretchyWorld : World Unit where
  hierarchy := ((Hierarchy.builtin.define sizedType).1.define stretchyType).1
  client := ()

theorem dispatch_of_stretchy :
    ∃ made v, (synthesize [⟨4⟩, ⟨3⟩] : Run ProxyError Unit ProxyClass) stretchyWorld =
        (.ok made, v) ∧
      v.hierarchy.findMethod? made.cls "size" 0 = some ⟨⟨4⟩, 0⟩ ∧
      Table.find? made.table ("size", 0) = some ⟨⟨3⟩, 0⟩ ∧
      v.hierarchy.findMethod? made.cls "stretch" 1 = some ⟨⟨4⟩, 1⟩ ∧
      Table.find? made.table ("stretch", 1) = some ⟨⟨4⟩, 1⟩ ∧
      Table.find? made.table ("hash_code", 0) = some .hashCode ∧
      Table.find? made.table ("stretch", 0) = none ∧ made.table.length = 5 := by
  have hDeclared : ∀ c ∈ ([⟨4⟩, ⟨3⟩] : List ClassId), stretchyWorld.hierarchy.Declared c := by
    decide
  obtain ⟨made, v, hRun, hAll⟩ := dispatch_of_synthesized (ε := ProxyError) [⟨4⟩, ⟨3⟩] hDeclared
  obtain ⟨hEntry, hNone, hCount, hAgree⟩ := hAll v.hierarchy (.refl _)
  refine ⟨made, v, hRun, ?_⟩
  rw [synthesize_eq] at hRun
  cases hRun
  refine ⟨by decide +kernel, ?_, by decide +kernel, ?_, ?_, ?_, ?_⟩
  · rw [hEntry]
    decide +kernel
  · exact hAgree "stretch" 1 _ (by decide +kernel) (by decide +kernel) (by decide +kernel)
  · rw [hEntry]
    decide +kernel
  · rw [hNone]
    decide +kernel
  · rw [hCount]
    decide +kernel

end ProxyClass

end Metaobject
