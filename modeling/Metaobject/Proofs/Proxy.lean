import Metaobject.Proofs.Contract
import Metaobject.Proofs.World.Run
import Metaobject.Proxy

/-!
Classes of proxies. The class that a proxy gets extends the interfaces of the proxy and nothing
else, and its table has the first instance method of every name and number of parameters. This is so
for a class that has just been made and for one that was kept, since declared classes never change.
-/
namespace Metaobject

variable {ε σ : Type}

/-- An instance method of a name and a number of parameters. -/
def Hierarchy.isInstanceNamed (h : Hierarchy) (name : String) (arity : Nat) (m : MethodRef) :
    Bool :=
  (h.method m).kind == .ofInstance && (h.method m).name == name && h.arity m == arity

theorem Hierarchy.isInstanceNamed_iff {h : Hierarchy} {name : String} {arity : Nat}
    {m : MethodRef} : h.isInstanceNamed name arity m = true ↔
      (h.method m).kind = .ofInstance ∧ (h.method m).name = name ∧ h.arity m = arity := by
  simp [isInstanceNamed, and_assoc]

namespace ProxyClass

variable {h k : Hierarchy} {contracts : List ClassId} {made : ProxyClass}

theorem find?_enter (table : Table (String × Nat) MethodRef) (m : MethodRef) (name : String)
    (arity : Nat) :
    Table.find? (enter h table m) (name, arity) =
      (Table.find? table (name, arity)).or
        (if h.isInstanceNamed name arity m then some m else none) := by
  rw [enter]
  split
  · next hKind => simp [Table.find?_setNew, Hierarchy.isInstanceNamed_iff, hKind]
  · next hKind => simp [Hierarchy.isInstanceNamed_iff, hKind]

/-- An entry is the first instance method of its name and number of parameters. -/
theorem find?_tableOf (h : Hierarchy) (contracts : List ClassId) (name : String) (arity : Nat) :
    Table.find? (tableOf h contracts) (name, arity) =
      (candidates h contracts).find? (h.isInstanceNamed name arity) := by
  -- generalized over the table that the methods so far have made
  have hFold (ms : List MethodRef) (table : Table (String × Nat) MethodRef) :
      Table.find? (ms.foldl (enter h) table) (name, arity) =
        (Table.find? table (name, arity)).or (ms.find? (h.isInstanceNamed name arity)) := by
    induction ms generalizing table with
    | nil => exact (Option.or_none).symm
    | cons m ms ih =>
        rw [List.foldl_cons, ih, find?_enter, Option.or_assoc, List.find?_cons]
        cases h.isInstanceNamed name arity m <;> rfl
  exact hFold _ []

theorem declared_owner_of_mem_candidates (hDeclared : ∀ c ∈ contracts, h.Declared c)
    {m : MethodRef} (hm : m ∈ candidates h contracts) : h.Declared m.owner := by
  rcases List.mem_append.mp hm with hRoot | hOther
  · rw [(Hierarchy.mem_declaredMethods.mp hRoot).1]
    exact h.declared_object
  · obtain ⟨c, hc, hMethod⟩ := List.mem_flatMap.mp hOther
    exact Hierarchy.declared_owner (hDeclared c hc) hMethod

/-- The table for declared interfaces stays the same. -/
theorem tableOf_eq (hk : h.GrowsTo k) (hDeclared : ∀ c ∈ contracts, h.Declared c) :
    tableOf k contracts = tableOf h contracts := by
  have hCandidates : candidates k contracts = candidates h contracts := by
    rw [candidates, candidates, hk.declaredMethods_eq h.declared_object,
      List.flatMap_congr fun c hc => hk.allMethods_eq (hDeclared c hc)]
  rw [tableOf, tableOf, hCandidates]
  apply List.foldl_ext
  intro table m hm
  have hOwner := declared_owner_of_mem_candidates hDeclared hm
  rw [enter, enter, hk.method_eq hOwner, hk.arity_eq hOwner]

/-- The class was made for proxies of some interfaces. -/
structure Implements (made : ProxyClass) (h : Hierarchy) (contracts : List ClassId) : Prop where
  declared : h.Declared made.cls
  interfaces : ∀ c ∈ contracts, h.Declared c
  supertypes : h.supertypes made.cls = contracts
  table : made.table = tableOf h contracts

theorem Implements.mono (hMade : made.Implements h contracts) (hk : h.GrowsTo k) :
    made.Implements k contracts where
  declared := hk.declared hMade.declared
  interfaces := fun c hc => hk.declared (hMade.interfaces c hc)
  supertypes := by rw [hk.supertypes_eq hMade.declared, hMade.supertypes]
  table := by rw [hMade.table, tableOf_eq hk hMade.interfaces]

/-- The table is the one for the interfaces as they were before the class was made. -/
theorem Implements.table_eq (hMade : made.Implements k contracts) (hk : h.GrowsTo k)
    (hDeclared : ∀ c ∈ contracts, h.Declared c) : made.table = tableOf h contracts := by
  rw [hMade.table, tableOf_eq hk hDeclared]

/-- The class is a subtype of each interface, and so of all that is above one. -/
theorem Implements.isSubtype (hMade : made.Implements h contracts) {c d : ClassId}
    (hc : c ∈ contracts) (hd : h.isSubtype c d = true) : h.isSubtype made.cls d = true := by
  have hDirect : c ∈ h.supertypes made.cls := hMade.supertypes ▸ hc
  exact Hierarchy.isSubtype_trans (Hierarchy.isSubtype_of_mem_supertypes hDirect) hd

/-- Whatever the table has an entry for can be invoked by that entry. -/
theorem Implements.callable (hMade : made.Implements h contracts) {name : String} {arity : Nat}
    {m : MethodRef} (hEntry : Table.find? made.table (name, arity) = some m) :
    (h.method m).kind = .ofInstance ∧ h.arity m = arity ∧
      h.isSubtype made.cls m.owner = true := by
  rw [hMade.table, find?_tableOf] at hEntry
  obtain ⟨hKind, _, hArity⟩ := Hierarchy.isInstanceNamed_iff.mp (List.find?_some hEntry)
  refine ⟨hKind, hArity, ?_⟩
  rcases List.mem_append.mp (List.mem_of_find?_eq_some hEntry) with hRoot | hOther
  · rw [(Hierarchy.mem_declaredMethods.mp hRoot).1]
    exact h.isSubtype_object made.cls
  · obtain ⟨c, hc, hMethod⟩ := List.mem_flatMap.mp hOther
    exact hMade.isSubtype hc (Hierarchy.isSubtype_owner_of_mem_allMethods hMethod)

end ProxyClass

namespace World

/-- One world has grown into another: classes and objects were only added, at the end. -/
structure GrowsTo (w v : World σ) : Prop where
  hierarchy : w.hierarchy.GrowsTo v.hierarchy
  objects : w.objects.toList <+: v.objects.toList

variable {u v w : World σ}

theorem GrowsTo.refl (w : World σ) : w.GrowsTo w := ⟨.refl _, List.prefix_rfl⟩

theorem GrowsTo.trans (first : u.GrowsTo v) (second : v.GrowsTo w) : u.GrowsTo w :=
  ⟨first.hierarchy.trans second.hierarchy, first.objects.trans second.objects⟩

/-- What answers for an object answers for it for good. -/
theorem GrowsTo.object? (hGrows : w.GrowsTo v) {o : ObjectRef} {d : ObjectData}
    (ho : w.object? o = some d) : v.object? o = some d := by
  obtain ⟨added, hAdded⟩ := hGrows.objects
  rw [World.object?, ← Array.getElem?_toList] at ho ⊢
  rw [← hAdded, List.getElem?_append_left (List.getElem?_eq_some_iff.mp ho).1]
  exact ho

/-- Two worlds with the same cells and the same state of the client. -/
structure SameCells (w v : World σ) : Prop where
  targets : v.targets = w.targets
  hashes : v.hashes = w.hashes
  texts : v.texts = w.texts
  lazies : v.lazies = w.lazies
  firstMethods : v.firstMethods = w.firstMethods
  client : v.client = w.client

/-- The classes of proxies, those kept and those in use, implement lists of interfaces. -/
structure Sound (w : World σ) : Prop where
  kept : ∀ contracts made, (contracts, made) ∈ w.proxyClasses →
    made.Implements w.hierarchy contracts
  used : ∀ made chain, ObjectData.proxy made chain ∈ w.objects.toList →
    ∃ contracts, made.Implements w.hierarchy contracts

/-- Declaring classes leaves the world sound. -/
theorem Sound.mono (hSound : w.Sound) (hHierarchy : w.hierarchy.GrowsTo v.hierarchy)
    (hClasses : v.proxyClasses = w.proxyClasses) (hObjects : v.objects = w.objects) : v.Sound where
  kept := by
    intro contracts made hMem
    rw [hClasses] at hMem
    exact (hSound.kept contracts made hMem).mono hHierarchy
  used := by
    intro made chain hMem
    rw [hObjects] at hMem
    obtain ⟨contracts, hMade⟩ := hSound.used made chain hMem
    exact ⟨contracts, hMade.mono hHierarchy⟩

/-- A new object leaves the world sound if its class is as it should be. -/
theorem Sound.allocate (hSound : w.Sound) (c : ClassId) {d : ObjectData}
    (hMade : ∀ made chain, d = .proxy made chain →
      ∃ contracts, made.Implements w.hierarchy contracts) : (w.allocate c d).2.Sound where
  kept := hSound.kept
  used := by
    intro made chain hMem
    rw [World.allocate, Array.toList_push, List.mem_append, List.mem_singleton] at hMem
    rcases hMem with hOld | hNew
    · exact hSound.used made chain hOld
    · exact hMade made chain hNew.symm

theorem growsTo_allocate (w : World σ) (c : ClassId) (d : ObjectData) :
    w.GrowsTo (w.allocate c d).2 where
  hierarchy := .refl _
  objects := by
    rw [World.allocate, Array.toList_push]
    exact List.prefix_append _ _

/-- The object that has just been made. -/
theorem object?_allocate (w : World σ) (c : ClassId) (d : ObjectData) :
    (w.allocate c d).2.object? (w.allocate c d).1 = some d := by
  simp [World.allocate, World.object?]

/-- Once an object has been made, every object is one that there was, or the new one. -/
theorem object?_of_push {d e : ObjectData} (hObjects : v.objects = w.objects.push d) {p : ObjectRef}
    (hp : v.object? p = some e) : w.object? p = some e ∨ p.id = w.objects.size ∧ e = d := by
  rw [object?, hObjects, Array.getElem?_push] at hp
  split at hp
  · next hId => exact .inr ⟨hId, (Option.some.inj hp).symm⟩
  · exact .inl hp

end World

open World

/-- The settings in effect, or those that the first question for them would fix. -/
def World.settings (w : World σ) : Settings :=
  w.settings?.getD {}

namespace Settings

/-- Asking for the settings fixes them and changes nothing else. -/
theorem current_apply (w : World σ) :
    (Settings.current : Run ε σ Settings) w =
      (.ok w.settings, { w with settings? := some w.settings }) := by
  cases hSettings : w.settings? with
  | none =>
      rw [World.settings, Settings.current, Run.bind_ok (Run.get_apply w), hSettings]
      rfl
  | some s =>
      have hSame : { w with settings? := some s } = w := by rw [← hSettings]
      rw [World.settings, Settings.current, Run.bind_ok (Run.get_apply w), hSettings,
        Option.getD_some, hSame]
      rfl

variable {w : World σ} {s t : Settings} {why : InvalidSettings}

theorem install_of_invalid (hInvalid : s.validate = .error why) :
    s.install w = (.error (.raised (.invalid why)), w) := by
  rw [install, hInvalid]
  rfl

theorem validate_apply (hValid : s.validate = .ok ()) (w : World σ) :
    (Run.ofExcept SettingsError.invalid s.validate : Run SettingsError σ Unit) w = (.ok (), w) := by
  rw [hValid]
  rfl

theorem install_of_fixed (hValid : s.validate = .ok ()) (hFixed : w.settings? = some t) :
    s.install w = (.error (.raised .alreadyInstalled), w) := by
  rw [install, Run.bind_ok (validate_apply hValid w), Run.bind_ok (Run.get_apply w), hFixed]
  rfl

theorem install_of_open (hValid : s.validate = .ok ()) (hOpen : w.settings? = none) :
    s.install w = (.ok (), { w with settings? := some s }) := by
  rw [install, Run.bind_ok (validate_apply hValid w), Run.bind_ok (Run.get_apply w), hOpen]
  rfl

/-- What becomes of an attempt to put settings into effect: it fails and changes nothing, or it
fixes them. -/
theorem install_apply (s : Settings) (w : World σ) :
    (∃ e, s.install w = (.error e, w)) ∨
      s.validate = .ok () ∧ w.settings? = none ∧
        s.install w = (.ok (), { w with settings? := some s }) := by
  cases hValid : s.validate with
  | error why => exact .inl ⟨_, install_of_invalid hValid⟩
  | ok _ =>
      cases hSettings : w.settings? with
      | some t => exact .inl ⟨_, install_of_fixed hValid hSettings⟩
      | none => exact .inr ⟨rfl, rfl, install_of_open hValid hSettings⟩

end Settings

namespace ProxyClass

variable {contracts : List ClassId}

theorem supertypes_extend (b : ClassBuilder) (c : ClassId) :
    (b.extend c).supertypes =
      if c ∈ b.supertypes then b.supertypes else b.supertypes ++ [c] := by
  rw [ClassBuilder.extend]
  split <;> rfl

/-- A class extends each of some classes once. -/
theorem supertypes_foldl_extend {b : ClassBuilder} {seen : List ClassId}
    (hSeen : b.supertypes = seen.eraseDups) :
    (contracts.foldl ClassBuilder.extend b).supertypes = (seen ++ contracts).eraseDups := by
  induction contracts generalizing b seen with
  | nil => rw [List.append_nil, List.foldl_nil, hSeen]
  | cons c rest ih =>
      have hNext : (b.extend c).supertypes = (seen ++ [c]).eraseDups := by
        rw [supertypes_extend, hSeen, eraseDups_concat]
      rw [List.foldl_cons, ih hNext, List.append_assoc, List.singleton_append]

/-- Extending classes changes nothing but the supertypes. -/
theorem foldl_extend_keeps (b : ClassBuilder) (cs : List ClassId) :
    (cs.foldl ClassBuilder.extend b).name = b.name ∧
      (cs.foldl ClassBuilder.extend b).methods = b.methods := by
  induction cs generalizing b with
  | nil => exact ⟨rfl, rfl⟩
  | cons c rest ih =>
      have hKeeps : (b.extend c).name = b.name ∧ (b.extend c).methods = b.methods := by
        rw [ClassBuilder.extend]
        split <;> exact ⟨rfl, rfl⟩
      exact ⟨(ih _).1.trans hKeeps.1, (ih _).2.trans hKeeps.2⟩

/-- The class that is to be declared for proxies of some interfaces. -/
def builderFor (w : World σ) (contracts : List ClassId) : ClassBuilder :=
  contracts.foldl ClassBuilder.extend
    (ClassBuilder.empty .concrete
      (w.settings.classNamePrefix ++ toString w.nextProxy)).makeSynthetic

theorem name_builderFor (w : World σ) (contracts : List ClassId) :
    (builderFor w contracts).name = w.settings.classNamePrefix ++ toString w.nextProxy :=
  (foldl_extend_keeps _ contracts).1

theorem methods_builderFor (w : World σ) (contracts : List ClassId) :
    (builderFor w contracts).methods = [] :=
  (foldl_extend_keeps _ contracts).2

theorem supertypes_builderFor (w : World σ) (contracts : List ClassId) :
    (builderFor w contracts).supertypes = contracts.eraseDups := by
  rw [builderFor, supertypes_foldl_extend List.eraseDups_nil.symm, List.nil_append]

/-- A class is declared under the next number, and its table is filled. -/
theorem synthesize_eq (contracts : List ClassId) (w : World σ) :
    (synthesize contracts : Run ε σ ProxyClass) w =
      (.ok ⟨(w.hierarchy.define (builderFor w contracts)).2,
          tableOf (w.hierarchy.define (builderFor w contracts)).1 contracts⟩,
        { w with
          settings? := some w.settings
          hierarchy := (w.hierarchy.define (builderFor w contracts)).1
          nextProxy := w.nextProxy + 1 }) :=
  Run.bind_ok (Settings.current_apply w)

/-- The class extends the interfaces, each once, and declares nothing. -/
theorem decl_synthesized {w : World σ} (hDeclared : ∀ c ∈ contracts, w.hierarchy.Declared c) :
    (w.hierarchy.define (builderFor w contracts)).1.decl
        (w.hierarchy.define (builderFor w contracts)).2 =
      { name := w.settings.classNamePrefix ++ toString w.nextProxy
        kind := (builderFor w contracts).kind
        supertypes := contracts.eraseDups
        synthetic := (builderFor w contracts).synthetic } := by
  have hKept : (contracts.eraseDups.filter fun c => c.index < w.hierarchy.classes.size) =
      contracts.eraseDups :=
    List.filter_eq_self.mpr fun c hc => decide_eq_true (hDeclared c (List.mem_eraseDups.mp hc))
  rw [Hierarchy.decl_define, name_builderFor, supertypes_builderFor, methods_builderFor, hKept]
  rfl

/-- What making a class for proxies of some interfaces does to the world: there may be a new class,
and that is all that calls can see of it. -/
structure MadeFor (contracts : List ClassId) (w v : World σ) (made : ProxyClass) : Prop where
  hierarchy : w.hierarchy.GrowsTo v.hierarchy
  objects : v.objects = w.objects
  cells : w.SameCells v
  implementing : made.Implements v.hierarchy contracts

theorem synthesize_apply {w : World σ} (hNodup : contracts.Nodup)
    (hDeclared : ∀ c ∈ contracts, w.hierarchy.Declared c) :
    ∃ made v, (synthesize contracts : Run ε σ ProxyClass) w = (.ok made, v) ∧
      MadeFor contracts w v made ∧ v.proxyClasses = w.proxyClasses := by
  have hGrows := w.hierarchy.growsTo_define (builderFor w contracts)
  have hExtends : (w.hierarchy.define (builderFor w contracts)).1.supertypes
      (w.hierarchy.define (builderFor w contracts)).2 = contracts := by
    rw [Hierarchy.supertypes, decl_synthesized hDeclared, eraseDups_of_nodup hNodup]
  refine ⟨_, _, synthesize_eq contracts w, ⟨hGrows, rfl, ⟨rfl, rfl, rfl, rfl, rfl, rfl⟩, ?_⟩, rfl⟩
  exact ⟨w.hierarchy.declared_define _, fun c hc => hGrows.declared (hDeclared c hc), hExtends, rfl⟩

/-- Proxies of interfaces get a class that implements these, be it a new one or one kept. -/
theorem forContracts_apply {w : World σ} (hSound : w.Sound) (hNodup : contracts.Nodup)
    (hDeclared : ∀ c ∈ contracts, w.hierarchy.Declared c) :
    ∃ made v, (forContracts contracts : Run ε σ ProxyClass) w = (.ok made, v) ∧
      MadeFor contracts w v made ∧ v.Sound := by
  have hSettings := Settings.current_apply (ε := ε) w
  have hFixed : ({ w with settings? := some w.settings } : World σ).Sound :=
    hSound.mono (.refl _) rfl rfl
  obtain ⟨made, v, hRun, hMade, hClasses⟩ := synthesize_apply (ε := ε)
    (w := { w with settings? := some w.settings }) hNodup hDeclared
  have hNew : v.Sound := hFixed.mono hMade.hierarchy hClasses hMade.objects
  obtain ⟨hGrows, hObjects, hCells, hImplements⟩ := hMade
  rw [forContracts, Run.bind_ok hSettings]
  split
  · exact ⟨made, v, hRun, ⟨hGrows, hObjects, { hCells with }, hImplements⟩, hNew⟩
  · rw [Run.bind_ok (Run.get_apply _)]
    cases hOld : Table.find? w.proxyClasses contracts with
    | some old =>
        have hKept := hSound.kept contracts old (Table.mem_of_find? hOld)
        exact ⟨old, _, rfl, ⟨.refl _, rfl, ⟨rfl, rfl, rfl, rfl, rfl, rfl⟩, hKept⟩, hFixed⟩
    | none =>
        dsimp only
        rw [Run.bind_ok hRun]
        refine ⟨made, _, rfl, ⟨hGrows, hObjects, { hCells with }, hImplements⟩,
          ⟨fun cs other hMem => ?_, hNew.used⟩⟩
        rcases Table.mem_set hMem with hKept | hEq
        · exact hNew.kept cs other hKept
        · cases hEq
          exact hImplements

end ProxyClass

namespace ProxyBuilder

/-- The interfaces of a proxy that can be made: each is an interface, and none occurs twice. -/
theorem checkContracts_ok {h : Hierarchy} {kept cs contracts : List ClassId}
    (hCheck : checkContracts h kept cs = .ok contracts) (hNodup : kept.Nodup)
    (hKept : ∀ c ∈ kept, h.isInterface c = true) :
    contracts.Nodup ∧ ∀ c ∈ contracts, h.isInterface c = true := by
  induction cs generalizing kept with
  | nil =>
      cases hCheck
      exact ⟨hNodup, hKept⟩
  | cons c rest ih =>
      rw [checkContracts] at hCheck
      split at hCheck
      · cases hCheck
      · next hInterface =>
          split at hCheck
          · exact ih hCheck hNodup hKept
          · next hNew =>
              refine ih hCheck (List.nodup_append.mpr ⟨hNodup, List.pairwise_singleton _ c, ?_⟩) ?_
              · intro d hd e he hEq
                rw [List.mem_singleton] at he
                exact hNew (he ▸ hEq ▸ hd)
              · intro d hd
                rcases List.mem_append.mp hd with hOld | hHere
                · exact hKept d hOld
                · rw [List.mem_singleton.mp hHere]
                  simpa using hInterface

/-- What making a proxy yields: a new object of a class for its interfaces, with its chain. -/
structure Yields (contracts : List ClassId) (chain : Chain) (w v : World σ) (o : ObjectRef)
    (made : ProxyClass) : Prop where
  object : v.object? o = some (.proxy made chain)
  objects : v.objects = w.objects.push (.proxy made chain)
  cls : o.cls = made.cls
  implementing : made.Implements v.hierarchy contracts
  growsTo : w.GrowsTo v
  cells : w.SameCells v
  sound : v.Sound

/-- A proxy whose interfaces are in order can be made. -/
theorem build_ok (b : ProxyBuilder) {w : World σ} (hSound : w.Sound) {contracts : List ClassId}
    (hSome : b.contracts.isEmpty = false)
    (hCheck : checkContracts w.hierarchy [] b.contracts = .ok contracts) :
    ∃ o v made, b.build w = (.ok o, v) ∧ Yields contracts b.chain w v o made := by
  obtain ⟨hNodup, hInterfaces⟩ := checkContracts_ok hCheck List.nodup_nil (by simp)
  obtain ⟨made, v, hRun, hMade, hNew⟩ :=
    ProxyClass.forContracts_apply (ε := ProxyError) hSound hNodup fun c hc =>
      Hierarchy.declared_of_isInterface (hInterfaces c hc)
  obtain ⟨hGrows, hObjects, hCells, hImplements⟩ := hMade
  refine ⟨_, _, made, ?_, World.object?_allocate v made.cls (.proxy made b.chain),
    ?_, rfl, hImplements, ⟨hGrows, ?_⟩, { hCells with }, hNew.allocate made.cls ?_⟩
  · rw [build, hSome, if_neg Bool.false_ne_true, Run.bind_ok (Run.hierarchy_apply w), hCheck]
    exact (Run.bind_ok (Run.pure_apply contracts w)).trans (Run.bind_ok hRun)
  · rw [World.allocate, hObjects]
  · rw [← hObjects]
    exact (World.growsTo_allocate v made.cls _).objects
  · intro other chain hEq
    cases hEq
    exact ⟨contracts, hImplements⟩

/-- Making a proxy that is not in order changes nothing. -/
theorem build_apply (b : ProxyBuilder) {w : World σ} (hSound : w.Sound) :
    (∃ e, b.build w = (.error (.raised e), w)) ∨
      ∃ contracts o v made, checkContracts w.hierarchy [] b.contracts = .ok contracts ∧
        b.build w = (.ok o, v) ∧ Yields contracts b.chain w v o made := by
  cases hSome : b.contracts.isEmpty with
  | true =>
      rw [build, hSome]
      exact .inl ⟨_, rfl⟩
  | false =>
      cases hCheck : checkContracts w.hierarchy [] b.contracts with
      | error e =>
          rw [build, hSome, if_neg Bool.false_ne_true, Run.bind_ok (Run.hierarchy_apply w), hCheck]
          exact .inl ⟨e, rfl⟩
      | ok contracts =>
          obtain ⟨o, v, made, hRun, hYields⟩ := b.build_ok hSound hSome hCheck
          exact .inr ⟨contracts, o, v, made, rfl, hRun, hYields⟩

/-- A proxy of one interface with one handler. -/
theorem single_ok {c : ClassId} (x : Handler) {w : World σ} (hSound : w.Sound)
    (hc : w.hierarchy.isInterface c = true) :
    ∃ o v made, (single c x).build w = (.ok o, v) ∧ Yields [c] (.single x) w v o made :=
  build_ok (single c x) hSound rfl (by simp [single, withHandler, checkContracts, hc])

end ProxyBuilder

end Metaobject
