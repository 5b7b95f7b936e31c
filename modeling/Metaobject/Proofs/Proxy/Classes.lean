import Metaobject.Dispatcher
import Metaobject.Proofs.Extraction
import Metaobject.Proofs.Proxy.Call

/-!
The classes that proxies get. Where classes are kept, proxies have the same class if and only if
they were made for the same interfaces, in the same order, once repetitions are left out; a class is
made when such a list first comes up, and is named by the number of classes made before. Where
classes are not kept, every proxy has a class of its own, named in the same way.
-/
namespace Metaobject

variable {ε σ α : Type} {client : Client σ} {w v : World σ}

/-- What is at a place of a list with one more item is at that place before, or last. -/
theorem getElem?_concat_eq_some {β : Type} {bs : List β} {b c : β} {k : Nat}
    (hAt : (bs ++ [b])[k]? = some c) : bs[k]? = some c ∨ (k = bs.length ∧ c = b) := by
  rw [List.getElem?_append] at hAt
  split at hAt
  · exact .inl hAt
  · next hLe =>
      obtain ⟨hLast, hSame⟩ := List.getElem?_eq_some_iff.mp hAt
      rw [List.length_singleton] at hLast
      exact .inr ⟨by omega, hSame.symm.trans (List.getElem_singleton ..)⟩

namespace Table

variable {β γ : Type} [DecidableEq β] {t : Table β γ} {b : β} {c : γ}

/-- A new key comes last. -/
theorem set_of_find?_eq_none (hNone : find? t b = none) : set t b c = t ++ [(b, c)] := by
  induction t with
  | nil => rfl
  | cons head rest ih =>
      obtain ⟨a, v⟩ := head
      rw [find?] at hNone
      split at hNone
      · cases hNone
      · next hKey => rw [set, if_neg hKey, ih hNone, List.cons_append]

end Table

namespace ProxyBuilder

/-- Why no proxy can be made for some classes: there are none, or there is one that is no interface,
of which the first is named. -/
def refusal? (h : Hierarchy) (contracts : List ClassId) : Option ProxyError :=
  if contracts = [] then some .emptyContractSet
  else (contracts.find? fun c => !h.isInterface c).map .notAnInterface

/-- The interfaces are kept without their repetitions. -/
theorem checkContracts_eraseDups (h : Hierarchy) (seen cs : List ClassId) :
    checkContracts h seen.eraseDups cs =
      match cs.find? fun c => !h.isInterface c with
      | some c => .error (.notAnInterface c)
      | none => .ok (seen ++ cs).eraseDups := by
  induction cs generalizing seen with
  | nil => rw [checkContracts, List.append_nil]; rfl
  | cons c rest ih =>
      rw [checkContracts, List.find?_cons]
      cases hInterface : h.isInterface c with
      | false => rfl
      | true =>
          have hSeen : (if c ∈ seen.eraseDups then seen.eraseDups else seen.eraseDups ++ [c]) =
              (seen ++ [c]).eraseDups := (eraseDups_concat seen c).symm
          have hAll : seen ++ c :: rest = (seen ++ [c]) ++ rest := by simp
          rw [hSeen, ih, hAll]
          rfl

theorem eq_eraseDups_of_checkContracts {h : Hierarchy} {cs contracts : List ClassId}
    (hCheck : checkContracts h [] cs = .ok contracts) : contracts = cs.eraseDups := by
  have hAll := checkContracts_eraseDups h [] cs
  cases hFind : cs.find? fun c => !h.isInterface c with
  | some c =>
      rw [hFind] at hAll
      cases hCheck.symm.trans hAll
  | none =>
      rw [hFind] at hAll
      exact Except.ok.inj (hCheck.symm.trans hAll)

theorem checkContracts_of_not_refused {h : Hierarchy} {contracts : List ClassId}
    (hAccepted : refusal? h contracts = none) :
    checkContracts h [] contracts = .ok contracts.eraseDups := by
  have hCheck := checkContracts_eraseDups h [] contracts
  rw [refusal?] at hAccepted
  split at hAccepted
  · cases hAccepted
  · rw [Option.map_eq_none_iff.mp hAccepted] at hCheck
    exact hCheck

/-- A refusal is the error, and changes nothing. -/
theorem build_of_refused {b : ProxyBuilder} {e : ProxyError}
    (hRefused : refusal? w.hierarchy b.contracts = some e) :
    b.build w = (.error (.raised e), w) := by
  have hCheck := checkContracts_eraseDups w.hierarchy [] b.contracts
  rw [refusal?] at hRefused
  split at hRefused
  · next hNone =>
      cases hRefused
      rw [build, hNone]
      rfl
  · next hSome =>
      obtain ⟨c, hFirst, rfl⟩ := Option.map_eq_some_iff.mp hRefused
      rw [hFirst, List.eraseDups_nil] at hCheck
      rw [build, if_neg (by simpa using hSome), Run.bind_ok (Run.hierarchy_apply w), hCheck]
      rfl

end ProxyBuilder

/-- Two worlds have the same of all that the making of a proxy asks for. -/
structure World.Matches (w u : World σ) : Prop where
  hierarchy : u.hierarchy = w.hierarchy
  settings : u.settings = w.settings
  proxyClasses : u.proxyClasses = w.proxyClasses
  nextProxy : u.nextProxy = w.nextProxy
  objects : u.objects = w.objects

/-- A world is ready for the making of a proxy: cells have changed, and the settings may have been
fixed. -/
structure World.Prepared (w u : World σ) : Prop extends World.Matches w u where
  fixed : ∀ s, w.settings? = some s → u.settings? = some s

/-- A class has been made for proxies. -/
structure World.Synthesizes (w v : World σ) (made : ProxyClass) : Prop where
  cls : made.cls = ⟨w.hierarchy.classes.size⟩
  size : v.hierarchy.classes.size = w.hierarchy.classes.size + 1
  number : v.nextProxy = w.nextProxy + 1
  name : v.hierarchy.className made.cls = w.settings.classNamePrefix ++ toString w.nextProxy

/-- How proxies of some interfaces come by their class: they get the one that is kept for these, or
else a new one, which is kept if classes are. -/
inductive World.Obtains (contracts : List ClassId) (w v : World σ) (made : ProxyClass) : Prop where
  | kept (hKeep : w.settings.cacheClasses = true)
      (hFind : Table.find? w.proxyClasses contracts = some made)
      (hHierarchy : v.hierarchy = w.hierarchy) (hNumber : v.nextProxy = w.nextProxy)
      (hClasses : v.proxyClasses = w.proxyClasses)
  | entered (hKeep : w.settings.cacheClasses = true)
      (hFind : Table.find? w.proxyClasses contracts = none) (hNew : w.Synthesizes v made)
      (hClasses : v.proxyClasses = w.proxyClasses ++ [(contracts, made)])
  | own (hKeep : w.settings.cacheClasses = false) (hNew : w.Synthesizes v made)
      (hClasses : v.proxyClasses = w.proxyClasses)

/-- Only what the making of a proxy asks for matters. -/
theorem World.Obtains.congr {contracts : List ClassId} {made : ProxyClass} {u : World σ}
    (hObtains : u.Obtains contracts v made) (hMatches : w.Matches u) :
    w.Obtains contracts v made := by
  have hNew (hNew : u.Synthesizes v made) : w.Synthesizes v made := by
    obtain ⟨hCls, hSize, hNumber, hName⟩ := hNew
    rw [hMatches.hierarchy] at hCls hSize
    rw [hMatches.nextProxy] at hNumber hName
    rw [hMatches.settings] at hName
    exact ⟨hCls, hSize, hNumber, hName⟩
  cases hObtains with
  | kept hKeep hFind hHierarchy hNumber hClasses =>
      exact .kept (hMatches.settings ▸ hKeep) (hMatches.proxyClasses ▸ hFind)
        (hHierarchy.trans hMatches.hierarchy) (hNumber.trans hMatches.nextProxy)
        (hClasses.trans hMatches.proxyClasses)
  | entered hKeep hFind hMade hClasses =>
      exact .entered (hMatches.settings ▸ hKeep) (hMatches.proxyClasses ▸ hFind) (hNew hMade)
        (hMatches.proxyClasses ▸ hClasses)
  | own hKeep hMade hClasses =>
      exact .own (hMatches.settings ▸ hKeep) (hNew hMade) (hClasses.trans hMatches.proxyClasses)

namespace ProxyClass

variable {contracts : List ClassId} {made : ProxyClass}

theorem synthesizes_of_synthesize
    (hRun : (synthesize contracts : Run ε σ ProxyClass) w = (.ok made, v)) :
    w.Synthesizes v made ∧ v.proxyClasses = w.proxyClasses ∧
      v.settings? = some w.settings ∧ v.objects = w.objects := by
  have hName : (w.hierarchy.define (builderFor w contracts)).1.className
      (w.hierarchy.define (builderFor w contracts)).2 =
        w.settings.classNamePrefix ++ toString w.nextProxy := by
    rw [Hierarchy.className, Hierarchy.decl_define]
    exact name_builderFor w contracts
  rw [synthesize_eq] at hRun
  cases hRun
  refine ⟨⟨rfl, ?_, rfl, hName⟩, rfl, rfl, rfl⟩
  simp [Hierarchy.define, Hierarchy.declare]

theorem obtains_of_forContracts
    (hRun : (forContracts contracts : Run ε σ ProxyClass) w = (.ok made, v)) :
    w.Obtains contracts v made ∧ v.settings? = some w.settings ∧ v.objects = w.objects := by
  rw [forContracts, Run.bind_ok (Settings.current_apply w)] at hRun
  cases hKeep : w.settings.cacheClasses with
  | false =>
      rw [hKeep] at hRun
      obtain ⟨hNew, hClasses, hSame⟩ := synthesizes_of_synthesize hRun
      exact ⟨.own hKeep { hNew with } hClasses, hSame⟩
  | true =>
      rw [hKeep, Bool.not_true, if_neg Bool.false_ne_true, Run.bind_ok (Run.get_apply _)] at hRun
      cases hFind : Table.find? w.proxyClasses contracts with
      | some old =>
          rw [hFind] at hRun
          cases hRun
          exact ⟨.kept hKeep hFind rfl rfl rfl, rfl, rfl⟩
      | none =>
          rw [hFind] at hRun
          obtain ⟨new, u, hNew, hEnter⟩ := Run.exists_of_bind_ok hRun
          obtain ⟨hNew, hClasses, hSame⟩ := synthesizes_of_synthesize hNew
          cases hEnter
          refine ⟨.entered hKeep hFind { hNew with } ?_, hSame⟩
          show Table.set u.proxyClasses contracts made = _
          rw [hClasses]
          exact Table.set_of_find?_eq_none hFind

end ProxyClass

/-- A proxy that is not refused is made. Its class is for its interfaces without repetitions. -/
theorem ProxyBuilder.build_of_accepted (b : ProxyBuilder) (hSound : w.Sound)
    (hAccepted : refusal? w.hierarchy b.contracts = none) :
    ∃ o v made, b.build w = (.ok o, v) ∧
      Yields b.contracts.eraseDups b.chain w v o made ∧
      w.Obtains b.contracts.eraseDups v made ∧ v.settings? = some w.settings := by
  have hCheck := checkContracts_of_not_refused hAccepted
  have hSome : b.contracts.isEmpty = false := by
    cases hContracts : b.contracts with
    | nil =>
        rw [hContracts] at hAccepted
        cases hAccepted
    | cons c rest => rfl
  obtain ⟨o, v, made, hRun, hYields⟩ := b.build_ok hSound hSome hCheck
  refine ⟨o, v, made, hRun, hYields, ?_⟩
  rw [build, hSome, if_neg Bool.false_ne_true, Run.bind_ok (Run.hierarchy_apply w), hCheck] at hRun
  obtain ⟨_, _, hContracts, hRun⟩ := Run.exists_of_bind_ok hRun
  cases hContracts
  obtain ⟨other, u, hClass, hObject⟩ := Run.exists_of_bind_ok hRun
  obtain ⟨hObtains, hSettings, hObjects⟩ := ProxyClass.obtains_of_forContracts hClass
  cases hObject
  have hSame : other = made := by
    have hBack := congrArg Array.back? hYields.objects
    simpa [World.allocate] using hBack
  subst hSame
  refine ⟨?_, hSettings⟩
  cases hObtains with
  | kept hKeep hFind hHierarchy hNumber hClasses =>
      exact .kept hKeep hFind hHierarchy hNumber hClasses
  | entered hKeep hFind hNew hClasses => exact .entered hKeep hFind { hNew with } hClasses
  | own hKeep hNew hClasses => exact .own hKeep { hNew with } hClasses

/-- The class of a proxy. -/
def ObjectData.class? : ObjectData → Option ProxyClass
  | .native _ => none
  | .proxy made _ => some made

namespace World

/-- The classes of all proxies, in the order in which the proxies were made. -/
def proxies (w : World σ) : List ProxyClass :=
  w.objects.toList.filterMap ObjectData.class?

/-- Proxies share classes: for every list of interfaces there is one, in the order in which the
lists first came up. -/
structure Shares (w : World σ) : Prop where
  keys : Table.keys w.proxyClasses =
    (w.proxies.map fun made => w.hierarchy.supertypes made.cls).eraseDups
  found : ∀ made ∈ w.proxies,
    Table.find? w.proxyClasses (w.hierarchy.supertypes made.cls) = some made
  number : w.nextProxy = w.proxyClasses.length
  name : ∀ (k : Nat) contracts made, w.proxyClasses[k]? = some (contracts, made) →
    w.hierarchy.className made.cls = w.settings.classNamePrefix ++ toString k

/-- Every proxy has a class of its own. -/
structure Separates (w : World σ) : Prop where
  classes : w.proxyClasses = []
  number : w.nextProxy = w.proxies.length
  distinct : (w.proxies.map ProxyClass.cls).Nodup
  name : ∀ (k : Nat) made, w.proxies[k]? = some made →
    w.hierarchy.className made.cls = w.settings.classNamePrefix ++ toString k

/-- What is so at any time of the classes of proxies. -/
structure Numbered (w : World σ) : Prop where
  sound : w.Sound
  start : w.settings? = none → w.proxies = [] ∧ w.proxyClasses = [] ∧ w.nextProxy = 0
  shares : w.settings.cacheClasses = true → w.Shares
  separates : w.settings.cacheClasses = false → w.Separates

theorem proxies_of_push {made : ProxyClass} {chain : Chain}
    (hObjects : v.objects = w.objects.push (.proxy made chain)) :
    v.proxies = w.proxies ++ [made] := by
  rw [proxies, hObjects, Array.toList_push, List.filterMap_append]
  rfl

theorem Sound.implements_of_mem_proxies (hSound : w.Sound) {made : ProxyClass}
    (hMade : made ∈ w.proxies) : ∃ contracts, made.Implements w.hierarchy contracts := by
  obtain ⟨data, hData, hClass⟩ := List.mem_filterMap.mp hMade
  cases data with
  | native hook => cases hClass
  | proxy other chain =>
      cases hClass
      exact hSound.used made chain hData

theorem Sound.declared_of_mem_proxies (hSound : w.Sound) {made : ProxyClass}
    (hMade : made ∈ w.proxies) : w.hierarchy.Declared made.cls := by
  obtain ⟨_, hImplements⟩ := hSound.implements_of_mem_proxies hMade
  exact hImplements.declared

theorem Sound.supertypes_eq (hSound : w.Sound) (hGrows : w.hierarchy.GrowsTo v.hierarchy)
    {made : ProxyClass} (hMade : made ∈ w.proxies) :
    v.hierarchy.supertypes made.cls = w.hierarchy.supertypes made.cls :=
  hGrows.supertypes_eq (hSound.declared_of_mem_proxies hMade)

theorem Sound.map_supertypes (hSound : w.Sound) (hGrows : w.hierarchy.GrowsTo v.hierarchy) :
    (w.proxies.map fun made => v.hierarchy.supertypes made.cls) =
      w.proxies.map fun made => w.hierarchy.supertypes made.cls :=
  List.map_congr_left fun _ hMade => hSound.supertypes_eq hGrows hMade

/-- As long as there are no proxies, any settings will do. -/
theorem numbered_of_none (hSound : w.Sound) (hProxies : w.proxies = [])
    (hClasses : w.proxyClasses = []) (hNumber : w.nextProxy = 0) : w.Numbered where
  sound := hSound
  start _ := ⟨hProxies, hClasses, hNumber⟩
  shares _ := by
    refine ⟨?_, fun made hMade => ?_, ?_, fun k contracts made hEntry => ?_⟩
    · rw [hClasses, hProxies]
      rfl
    · rw [hProxies] at hMade
      cases hMade
    · rw [hNumber, hClasses]
      rfl
    · rw [hClasses] at hEntry
      cases hEntry
  separates _ := by
    refine ⟨hClasses, ?_, ?_, fun k made hMade => ?_⟩
    · rw [hNumber, hProxies]
      rfl
    · rw [hProxies]
      exact List.nodup_nil
    · rw [hProxies] at hMade
      cases hMade

/-- The classes of proxies are not touched by what makes no proxies. -/
theorem Numbered.of_eq (hw : w.Numbered) (hSound : v.Sound)
    (hGrows : w.hierarchy.GrowsTo v.hierarchy) (hSettings : v.settings = w.settings)
    (hFixed : v.settings? = none → w.settings? = none) (hProxies : v.proxies = w.proxies)
    (hClasses : v.proxyClasses = w.proxyClasses) (hNumber : v.nextProxy = w.nextProxy) :
    v.Numbered where
  sound := hSound
  start hNone := by
    rw [hProxies, hClasses, hNumber]
    exact hw.start (hFixed hNone)
  shares hKeep := by
    have hShares := hw.shares (hSettings ▸ hKeep)
    refine ⟨?_, fun made hMade => ?_, ?_, fun k contracts made hEntry => ?_⟩
    · rw [hClasses, hProxies, hw.sound.map_supertypes hGrows, hShares.keys]
    · rw [hProxies] at hMade
      rw [hClasses, hw.sound.supertypes_eq hGrows hMade, hShares.found made hMade]
    · rw [hNumber, hClasses, hShares.number]
    · rw [hClasses] at hEntry
      have hMade := hw.sound.kept contracts made (List.mem_of_getElem? hEntry)
      rw [hGrows.className_eq hMade.declared, hSettings, hShares.name k contracts made hEntry]
  separates hKeep := by
    have hSeparates := hw.separates (hSettings ▸ hKeep)
    refine ⟨?_, ?_, ?_, fun k made hMade => ?_⟩
    · rw [hClasses, hSeparates.classes]
    · rw [hNumber, hProxies, hSeparates.number]
    · rw [hProxies]
      exact hSeparates.distinct
    · rw [hProxies] at hMade
      have hDeclared := hw.sound.declared_of_mem_proxies (List.mem_of_getElem? hMade)
      rw [hGrows.className_eq hDeclared, hSettings, hSeparates.name k made hMade]

/-- A class that has just been made is none that was there. -/
theorem Synthesizes.not_declared {made : ProxyClass} (hNew : w.Synthesizes v made) :
    ¬ w.hierarchy.Declared made.cls := by
  rw [Hierarchy.Declared, hNew.cls]
  exact Nat.lt_irrefl _

section Obtaining

variable {contracts : List ClassId} {chain : Chain} {o : ObjectRef} {made : ProxyClass}
  (hw : w.Numbered) (hYields : ProxyBuilder.Yields contracts chain w v o made)
  (hSettings : v.settings = w.settings)

include hw hYields hSettings

theorem shares_of_kept (hShares : w.Shares)
    (hFind : Table.find? w.proxyClasses contracts = some made)
    (hNumber : v.nextProxy = w.nextProxy) (hClasses : v.proxyClasses = w.proxyClasses) :
    v.Shares := by
  have hGrows := hYields.growsTo.hierarchy
  have hProxies := proxies_of_push hYields.objects
  have hKnown : contracts ∈ w.proxies.map fun made => w.hierarchy.supertypes made.cls := by
    rw [← List.mem_eraseDups, ← hShares.keys]
    exact List.mem_map_of_mem (Table.mem_of_find? hFind)
  refine ⟨?_, fun other hOther => ?_, ?_, fun k cs other hEntry => ?_⟩
  · rw [hClasses, hProxies, List.map_append, hw.sound.map_supertypes hGrows, List.map_singleton,
      hYields.implementing.supertypes, eraseDups_concat_of_mem hKnown, hShares.keys]
  · rw [hClasses]
    rw [hProxies] at hOther
    rcases List.mem_append.mp hOther with hOld | hNew
    · rw [hw.sound.supertypes_eq hGrows hOld, hShares.found other hOld]
    · rw [List.mem_singleton.mp hNew, hYields.implementing.supertypes, hFind]
  · rw [hNumber, hClasses, hShares.number]
  · rw [hClasses] at hEntry
    have hMade := hw.sound.kept cs other (List.mem_of_getElem? hEntry)
    rw [hGrows.className_eq hMade.declared, hSettings, hShares.name k cs other hEntry]

theorem shares_of_entered (hShares : w.Shares)
    (hFind : Table.find? w.proxyClasses contracts = none) (hNew : w.Synthesizes v made)
    (hClasses : v.proxyClasses = w.proxyClasses ++ [(contracts, made)]) : v.Shares := by
  have hGrows := hYields.growsTo.hierarchy
  have hProxies := proxies_of_push hYields.objects
  have hUnknown : contracts ∉ w.proxies.map fun made => w.hierarchy.supertypes made.cls := by
    rw [← List.mem_eraseDups, ← hShares.keys]
    exact Table.find?_eq_none_iff.mp hFind
  refine ⟨?_, fun other hOther => ?_, ?_, fun k cs other hEntry => ?_⟩
  · rw [hClasses, hProxies, List.map_append, hw.sound.map_supertypes hGrows, List.map_singleton,
      hYields.implementing.supertypes, eraseDups_concat_of_not_mem hUnknown, ← hShares.keys,
      Table.keys, List.map_append]
    rfl
  · rw [hClasses, Table.find?_append]
    rw [hProxies] at hOther
    rcases List.mem_append.mp hOther with hOld | hHere
    · rw [hw.sound.supertypes_eq hGrows hOld, hShares.found other hOld]
      rfl
    · rw [List.mem_singleton.mp hHere, hYields.implementing.supertypes, hFind]
      simp [Table.find?]
  · rw [hNew.number, hClasses, List.length_append, hShares.number]
    rfl
  · rw [hClasses] at hEntry
    rcases getElem?_concat_eq_some hEntry with hOld | ⟨rfl, hLast⟩
    · have hMade := hw.sound.kept cs other (List.mem_of_getElem? hOld)
      rw [hGrows.className_eq hMade.declared, hSettings, hShares.name k cs other hOld]
    · cases hLast
      rw [hNew.name, hSettings, hShares.number]

theorem separates_of_own (hSeparates : w.Separates) (hNew : w.Synthesizes v made)
    (hClasses : v.proxyClasses = w.proxyClasses) : v.Separates := by
  have hGrows := hYields.growsTo.hierarchy
  have hProxies := proxies_of_push hYields.objects
  refine ⟨by rw [hClasses, hSeparates.classes], ?_, ?_, fun k other hOther => ?_⟩
  · rw [hNew.number, hProxies, List.length_append, hSeparates.number]
    rfl
  · rw [hProxies, List.map_append]
    refine List.nodup_append.mpr ⟨hSeparates.distinct, List.pairwise_singleton _ _, ?_⟩
    rintro c hOld d hHere rfl
    obtain ⟨other, hOther, rfl⟩ := List.mem_map.mp hOld
    rw [List.map_singleton, List.mem_singleton] at hHere
    exact hNew.not_declared (hHere ▸ hw.sound.declared_of_mem_proxies hOther)
  · rw [hProxies] at hOther
    rcases getElem?_concat_eq_some hOther with hOld | ⟨rfl, rfl⟩
    · have hDeclared := hw.sound.declared_of_mem_proxies (List.mem_of_getElem? hOld)
      rw [hGrows.className_eq hDeclared, hSettings, hSeparates.name k other hOld]
    · rw [hNew.name, hSettings, hSeparates.number]

theorem Numbered.obtain (hObtains : w.Obtains contracts v made)
    (hFixed : v.settings? = some w.settings) : v.Numbered where
  sound := hYields.sound
  start hNone := by cases hNone.symm.trans hFixed
  shares hKeep := by
    rw [hSettings] at hKeep
    cases hObtains with
    | kept _ hFind _ hNumber hClasses =>
        exact shares_of_kept hw hYields hSettings (hw.shares hKeep) hFind hNumber hClasses
    | entered _ hFind hNew hClasses =>
        exact shares_of_entered hw hYields hSettings (hw.shares hKeep) hFind hNew hClasses
    | own hOwn => cases hKeep.symm.trans hOwn
  separates hOwn := by
    rw [hSettings] at hOwn
    cases hObtains with
    | kept hKeep => cases hKeep.symm.trans hOwn
    | entered hKeep => cases hKeep.symm.trans hOwn
    | own _ hNew hClasses =>
        exact separates_of_own hw hYields hSettings (hw.separates hOwn) hNew hClasses

end Obtaining

theorem numbered_build (b : ProxyBuilder) :
    Run.Keeps (fun w v : World σ => w.Numbered → v.Numbered) b.build := by
  intro w hw
  cases hRefusal : ProxyBuilder.refusal? w.hierarchy b.contracts with
  | some e =>
      rw [ProxyBuilder.build_of_refused hRefusal]
      exact hw
  | none =>
      obtain ⟨o, v, made, hRun, hYields, hObtains, hSettings⟩ :=
        b.build_of_accepted hw.sound hRefusal
      rw [hRun]
      exact hw.obtain hYields (by rw [settings, hSettings]; rfl) hObtains hSettings

/-- What makes no proxy leaves their classes alone, and fixed settings as they are. -/
structure Beside (w v : World σ) : Prop where
  evolves : w.Evolves v
  proxies : v.proxies = w.proxies
  proxyClasses : v.proxyClasses = w.proxyClasses
  nextProxy : v.nextProxy = w.nextProxy
  fixed : ∀ s, w.settings? = some s → v.settings? = some s

theorem Beside.numbered (hBeside : w.Beside v) (hw : w.Numbered) : v.Numbered := by
  obtain ⟨hGrows, hSound⟩ := hBeside.evolves hw.sound
  cases hSettings : w.settings? with
  | none =>
      obtain ⟨hProxies, hClasses, hNumber⟩ := hw.start hSettings
      exact numbered_of_none hSound (hBeside.proxies.trans hProxies)
        (hBeside.proxyClasses.trans hClasses) (hBeside.nextProxy.trans hNumber)
  | some s =>
      have hFixed := hBeside.fixed s hSettings
      refine hw.of_eq hSound hGrows.hierarchy ?_ ?_ hBeside.proxies hBeside.proxyClasses
        hBeside.nextProxy
      · rw [settings, hFixed, settings, hSettings]
      · intro hNone
        cases hNone.symm.trans hFixed

theorem Prepared.beside {u : World σ} (hPrepared : w.Prepared u) : w.Beside u where
  evolves := evolves_of_eq hPrepared.hierarchy hPrepared.proxyClasses hPrepared.objects
  proxies := by rw [proxies, hPrepared.objects, proxies]
  proxyClasses := hPrepared.proxyClasses
  nextProxy := hPrepared.nextProxy
  fixed := hPrepared.fixed

theorem Steady.prepared (hSteady : w.Steady v) : w.Prepared v where
  hierarchy := hSteady.hierarchy
  settings := by rw [settings, hSteady.settings?, settings]
  proxyClasses := hSteady.proxyClasses
  nextProxy := hSteady.nextProxy
  objects := hSteady.objects
  fixed s hFixed := hSteady.settings?.trans hFixed

/-- From one world to another, a log of the proxies that have been made, in calls or not: the
classes that a proxy was asked for, and the class that it got. -/
inductive Logs (w : World σ) : List (List ClassId × ProxyClass) → World σ → Prop where
  | refl : Logs w [] w
  | made {log : List (List ClassId × ProxyClass)} {u v : World σ} {b : ProxyBuilder} {o : ObjectRef}
      {made : ProxyClass} (before : Logs w log u) (hBuild : b.build u = (.ok o, v))
      (hObject : v.object? o = some (.proxy made b.chain)) : Logs w (log ++ [(b.contracts, made)]) v
  | other {log : List (List ClassId × ProxyClass)} {u v : World σ} (before : Logs w log u)
      (hBeside : u.Beside v) : Logs w log v

variable {log more : List (List ClassId × ProxyClass)}

theorem Logs.trans {u : World σ} (first : u.Logs log v) (second : v.Logs more w) :
    u.Logs (log ++ more) w := by
  induction second with
  | refl => rwa [List.append_nil]
  | made _ hBuild hObject ih =>
      rw [← List.append_assoc]
      exact ih.made hBuild hObject
  | other _ hBeside ih => exact ih.other hBeside

/-- From a sound world on, all proxies that have been made are in a log. -/
def StaysLogged (w v : World σ) : Prop :=
  w.Sound → v.Sound ∧ ∃ log, w.Logs log v

theorem StaysLogged.trans {u : World σ} (first : u.StaysLogged v) (second : v.StaysLogged w) :
    u.StaysLogged w := by
  intro hSound
  obtain ⟨hBetween, _, hFirst⟩ := first hSound
  obtain ⟨hAfter, _, hSecond⟩ := second hBetween
  exact ⟨hAfter, _, hFirst.trans hSecond⟩

theorem Beside.staysLogged (hBeside : w.Beside v) : w.StaysLogged v :=
  fun hSound => ⟨(hBeside.evolves hSound).2, _, .other .refl hBeside⟩

theorem Steady.staysLogged (hSteady : w.Steady v) : w.StaysLogged v :=
  hSteady.prepared.beside.staysLogged

theorem staysLogged_fixed (w : World σ) : w.StaysLogged { w with settings? := some w.settings } :=
  Beside.staysLogged
    ⟨evolves_of_eq rfl rfl rfl, rfl, rfl, rfl, fun s hs => by rw [settings, hs]; rfl⟩

end World

open World

theorem ProxyBuilder.staysLogged_build (b : ProxyBuilder) :
    Run.Keeps StaysLogged (b.build : Run ProxyError σ ObjectRef) := by
  intro w hSound
  rcases b.build_apply hSound with ⟨e, hRun⟩ | ⟨_, o, v, made, _, hRun, hYields⟩ <;> rw [hRun]
  · exact ⟨hSound, _, .refl⟩
  · exact ⟨hYields.sound, _, Logs.refl.made hRun hYields.object⟩

namespace World

/-- Whatever client code has the library do, the proxies that it makes are in a log. -/
theorem staysLogged_growth : World.FreeGrowth (StaysLogged : World σ → World σ → Prop) where
  refl w hSound := ⟨hSound, _, .refl⟩
  trans _ _ _ := .trans
  state _ _ := Steady.staysLogged ⟨rfl, rfl, rfl, rfl, rfl⟩
  settings := staysLogged_fixed
  installed w s hValid hNone := Beside.staysLogged ⟨evolves_growth.installed w s hValid hNone, rfl,
    rfl, rfl, fun t ht => by cases hNone.symm.trans ht⟩
  firstMethods _ _ := Steady.staysLogged ⟨rfl, rfl, rfl, rfl, rfl⟩
  newTarget _ _ := Steady.staysLogged ⟨rfl, rfl, rfl, rfl, rfl⟩
  swapped _ _ _ := Steady.staysLogged ⟨rfl, rfl, rfl, rfl, rfl⟩
  declared w b := Beside.staysLogged ⟨evolves_growth.declared w b, rfl, rfl, rfl, fun _ => id⟩
  native w c hook := by
    refine Beside.staysLogged ⟨evolves_growth.native w c hook, ?_, rfl, rfl, fun _ => id⟩
    rw [proxies, allocate, Array.toList_push, List.filterMap_append]
    exact List.append_nil _
  cells _ _ _ _ := Steady.staysLogged ⟨rfl, rfl, rfl, rfl, rfl⟩
  build := ProxyBuilder.staysLogged_build

end World

theorem Operation.staysLogged {x : Run ε σ α} (hx : Operation client x) : x.Keeps StaysLogged :=
  staysLogged_growth.operation hx

theorem Calling.staysLogged {x : Run ε σ α} (hx : Calling client x) : x.Keeps StaysLogged :=
  hx.keeps (staysLogged_growth.course client)

/-- In a world, a computation comes down to the making of a proxy of some classes: what it does
before changes no more than cells and settings, and what becomes of the world after that is given.
Errors of the making are wrapped. -/
def Run.Makes (w : World σ) (wrap : ProxyError → ε) (contracts : List ClassId)
    (after : ObjectRef → World σ → World σ) (x : Run ε σ α) : Prop :=
  ∃ (b : ProxyBuilder) (u : World σ), b.contracts = contracts ∧ w.Prepared u ∧
    (∀ e v, b.build u = (.error (.raised e), v) → x w = (.error (.raised (wrap e)), v)) ∧
    ∀ o v, b.build u = (.ok o, v) → (x w).2 = after o v

section Making

variable {contracts : List ClassId} {after : ObjectRef → World σ → World σ}

theorem ProxyBuilder.makes_build (b : ProxyBuilder) {u : World σ} {x : Run ProxyError σ ObjectRef}
    (hPrepared : w.Prepared u) (hRun : x w = b.build u) :
    x.Makes w id b.contracts fun _ v => v :=
  ⟨b, u, rfl, hPrepared, fun e v hBuild => hRun.trans hBuild,
    fun o v hBuild => by rw [hRun, hBuild]⟩

theorem InstanceBuilder.makes_build (b : InstanceBuilder) (hMissing : b.missing.isEmpty = true) :
    b.build.Makes w .proxy [b.contract.cls] fun _ v => v := by
  obtain ⟨hash?, text?, hashes, texts, hRun, -, -⟩ := b.build_eq hMissing w
  refine ⟨ProxyBuilder.single b.contract.cls (.values ⟨b.contract, b.assigned, hash?, text?⟩),
    { w with settings? := some w.settings, hashes, texts }, rfl, ?_,
    fun e v hBuild => hRun.trans (Run.mapError_raised hBuild), fun o v hBuild => ?_⟩
  · exact ⟨⟨rfl, rfl, rfl, rfl, rfl⟩, fun s hs => by rw [World.settings, hs]; rfl⟩
  · rw [hRun, Run.mapError_ok hBuild]

/-- A builder that has just been opened misses no member of a marker. -/
theorem InstanceBuilder.makes_marker {c : ClassId} {b : InstanceBuilder}
    (hOf : of w.hierarchy c = .ok b) (hMarker : b.contract.isMarker = true) :
    (marker c : Run InstanceError σ ObjectRef).Makes w .proxy [b.contract.cls] fun _ v => v := by
  have hMissing : b.missing.isEmpty = true := by
    rw [missing, List.isEmpty_iff.mp hMarker]
    rfl
  have hRun : (marker c : Run InstanceError σ ObjectRef) w = b.build w := by
    rw [marker, Run.bind_ok (Run.hierarchy_apply w), hOf]
    exact (Run.bind_ok (Run.pure_apply b w)).trans (by rw [if_pos hMarker])
  obtain ⟨p, u, hContracts, hPrepared, hError, hOk⟩ := b.makes_build (w := w) hMissing
  exact ⟨p, u, hContracts, hPrepared, fun e v hBuild => hRun.trans (hError e v hBuild),
    fun o v hBuild => by rw [hRun, hOk o v hBuild]⟩

/-- What client code that is given an object makes of the world. -/
def afterCode (client : Client σ) (depth : Nat) (script : ObjectRef → Script σ Value)
    (o : ObjectRef) (w : World σ) : World σ :=
  ((script o).run (perform client depth) w).2

/-- The recorder has been made before the code is run. -/
theorem makes_extractMethod (depth : Nat) (c : ClassId) (script : ObjectRef → Script σ Value) :
    (extractMethod (perform client depth) c script).Makes w id [c]
      (afterCode client depth script) := by
  refine ⟨ProxyBuilder.single c (.record w.firstMethods.fresh.1),
    { w with firstMethods := w.firstMethods.fresh.2 }, rfl,
    ⟨⟨rfl, rfl, rfl, rfl, rfl⟩, fun _ => id⟩, fun e v hBuild => ?_, fun o v hBuild => ?_⟩
  · exact Run.bind_error (recorder_of_error hBuild)
  · exact extractMethod_snd (recorder_of_ok hBuild)

theorem Run.Makes.mapError {x : Run ProxyError σ α} (hx : x.Makes w id contracts after)
    (f : ProxyError → ε) : (Run.mapError f x).Makes w f contracts after := by
  obtain ⟨b, u, hContracts, hPrepared, hError, hOk⟩ := hx
  refine ⟨b, u, hContracts, hPrepared, fun e v hBuild => Run.mapError_raised (hError e v hBuild),
    fun o v hBuild => ?_⟩
  rw [Run.mapError_snd]
  exact hOk o v hBuild

/-- What follows may look at the result. -/
theorem Run.Makes.bind {β : Type} {wrap : ProxyError → ε} {x : Run ε σ α}
    (hx : x.Makes w wrap contracts after) {f : α → Run ε σ β}
    (hf : ∀ a, (f a).Keeps fun u v => v = u) : (x >>= f).Makes w wrap contracts after := by
  obtain ⟨b, u, hContracts, hPrepared, hError, hOk⟩ := hx
  refine ⟨b, u, hContracts, hPrepared, fun e v hBuild => Run.bind_error (hError e v hBuild),
    fun o v hBuild => ?_⟩
  have hMiddle := hOk o v hBuild
  rcases hRun : x w with ⟨e | a, t⟩ <;> rw [hRun] at hMiddle
  · rwa [Run.bind_error hRun]
  · rw [Run.bind_ok hRun, hf a t]
    exact hMiddle

end Making

/-- The ways of making a proxy of some classes, with what becomes of the world once it is made: only
where a method is extracted does client code follow, which is given the proxy. -/
inductive Creates (client : Client σ) (w : World σ) : {ε α : Type} → (ProxyError → ε) →
    List ClassId → (ObjectRef → World σ → World σ) → Run ε σ α → Prop where
  | proxy (b : ProxyBuilder) : Creates client w id b.contracts (fun _ v => v) b.build
  | lazy (c : ClassId) (initializer : Hook) :
      Creates client w id [c, .lazyProxy] (fun _ v => v) (LazyProxy.create c initializer)
  | dispatcher (d : Dispatcher) (c : ClassId) :
      Creates client w id [c] (fun _ v => v) (d.instantiate c)
  | built (b : InstanceBuilder) (hMissing : b.missing.isEmpty = true) :
      Creates client w .proxy [b.contract.cls] (fun _ v => v) b.build
  | marker {c : ClassId} {b : InstanceBuilder} (hOf : InstanceBuilder.of w.hierarchy c = .ok b)
      (hMarker : b.contract.isMarker = true) :
      Creates client w .proxy [b.contract.cls] (fun _ v => v) (InstanceBuilder.marker c)
  | extractor (depth : Nat) (c : ClassId) (script : ObjectRef → Script σ Value) :
      Creates client w id [c] (afterCode client depth script)
        (extractMethod (perform client depth) c script)
  | selector (depth : Nat) (b : InstanceBuilder) (script : ObjectRef → Script σ Value) (v : Value) :
      Creates client w .proxy [b.contract.cls] (afterCode client depth script)
        (b.assign (perform client depth) (.called script) v)

namespace Creates

variable {wrap : ProxyError → ε} {contracts : List ClassId} {x : Run ε σ α}
  {after : ObjectRef → World σ → World σ}

/-- All ways of making a proxy come down to one. -/
theorem makes (hx : Creates client w wrap contracts after x) :
    x.Makes w wrap contracts after := by
  cases hx with
  | proxy b => exact b.makes_build (Steady.prepared (.refl w)) rfl
  | lazy c initializer =>
      exact ProxyBuilder.makes_build
        (({ contracts := [c, .lazyProxy] } : ProxyBuilder).withHandler
          (.lazy initializer w.lazies.fresh.1))
        (u := { w with lazies := w.lazies.fresh.2 }) (Steady.prepared ⟨rfl, rfl, rfl, rfl, rfl⟩)
        (LazyProxy.create_eq c initializer w)
  | dispatcher d c =>
      exact (ProxyBuilder.single c d.toHandler).makes_build (Steady.prepared (.refl w)) rfl
  | built b hMissing => exact b.makes_build hMissing
  | marker hOf hMarker => exact InstanceBuilder.makes_marker hOf hMarker
  | extractor depth c script => exact makes_extractMethod depth c script
  | selector depth b script v =>
      have hExtract : (extractMethod (perform client depth) b.contract.cls script).Makes w id _ _ :=
        makes_extractMethod depth b.contract.cls script
      refine ((hExtract.mapError _).bind fun m u => Run.ofExcept_snd _ _ u).bind fun m u => ?_
      rw [Run.bind_ok (Run.hierarchy_apply u)]
      cases InstanceBuilder.fit u.hierarchy m v <;> rfl

/-- What follows the making has its log. -/
theorem staysLogged_after (hx : Creates client w wrap contracts after x) (o : ObjectRef) :
    v.StaysLogged (after o v) := by
  cases hx with
  | extractor depth c script => exact (Calling.script depth (script o)).staysLogged v
  | selector depth b script a => exact (Calling.script depth (script o)).staysLogged v
  | _ => exact staysLogged_growth.refl v

/-- A refusal changes no class and no object. Otherwise a proxy is made, whose class is for the
interfaces without repetitions, and it comes first in the log. -/
theorem apply (hx : Creates client w wrap contracts after x) (hSound : w.Sound) :
    (∀ e, ProxyBuilder.refusal? w.hierarchy contracts = some e →
      (x w).1 = .error (.raised (wrap e)) ∧ (x w).2.hierarchy = w.hierarchy ∧
        (x w).2.proxyClasses = w.proxyClasses ∧ (x w).2.nextProxy = w.nextProxy ∧
        (x w).2.proxies = w.proxies) ∧
    (ProxyBuilder.refusal? w.hierarchy contracts = none →
      ∃ made o v, v.proxies = w.proxies ++ [made] ∧
        made.Implements v.hierarchy contracts.eraseDups ∧
        w.Obtains contracts.eraseDups v made ∧ v.settings? = some w.settings ∧
        (x w).2 = after o v ∧ ∃ more, w.Logs ((contracts, made) :: more) (x w).2) := by
  obtain ⟨b, u, rfl, hPrepared, hError, hOk⟩ := hx.makes
  have hBeside := hPrepared.beside
  obtain ⟨-, hReady⟩ := hBeside.evolves hSound
  rw [← hPrepared.hierarchy]
  refine ⟨fun e hRefused => ?_, fun hAccepted => ?_⟩
  · rw [hError e u (ProxyBuilder.build_of_refused hRefused)]
    exact ⟨rfl, rfl, hPrepared.proxyClasses, hPrepared.nextProxy, hBeside.proxies⟩
  · obtain ⟨o, v, made, hBuild, hYields, hObtains, hFixed⟩ := b.build_of_accepted hReady hAccepted
    obtain ⟨-, more, hMore⟩ := hx.staysLogged_after o hYields.sound
    have hProxies := proxies_of_push hYields.objects
    have hAfter := hOk o v hBuild
    refine ⟨made, o, v, hBeside.proxies ▸ hProxies, hYields.implementing,
      hObtains.congr hPrepared.toMatches, hPrepared.settings ▸ hFixed, hAfter, more, hAfter ▸ ?_⟩
    exact ((Logs.refl.other hBeside).made hBuild hYields.object).trans hMore

end Creates

namespace World

variable {log more : List (List ClassId × ProxyClass)}

/-- The log of a run is of the proxies of its world, and of the interfaces of their classes. -/
structure Logged (log : List (List ClassId × ProxyClass)) (w : World σ) : Prop where
  numbered : w.Numbered
  proxies : log.map Prod.snd = w.proxies
  contracts : ∀ a ∈ log, w.hierarchy.supertypes a.2.cls = a.1.eraseDups

theorem Logged.mem_proxies (hLog : Logged log w) {a : List ClassId × ProxyClass} (ha : a ∈ log) :
    a.2 ∈ w.proxies :=
  hLog.proxies ▸ List.mem_map_of_mem ha

/-- The interfaces of proxies that have been made stay what they are. -/
theorem Logged.supertypes_eq (hLog : Logged log w) (hGrows : w.hierarchy.GrowsTo v.hierarchy)
    {a : List ClassId × ProxyClass} (ha : a ∈ log) :
    v.hierarchy.supertypes a.2.cls = a.1.eraseDups :=
  (hLog.numbered.sound.supertypes_eq hGrows (hLog.mem_proxies ha)).trans (hLog.contracts a ha)

/-- One more proxy is made. -/
theorem Logged.made {b : ProxyBuilder} {o : ObjectRef} {made : ProxyClass} (hLog : Logged log w)
    (hBuild : b.build w = (.ok o, v)) (hObject : v.object? o = some (.proxy made b.chain)) :
    Logged (log ++ [(b.contracts, made)]) v := by
  have hNumbered := numbered_build b w hLog.numbered
  rw [hBuild] at hNumbered
  obtain ⟨contracts, other, hCheck, hYields⟩ :=
    ProxyBuilder.yields_of_build hLog.numbered.sound hBuild
  cases hObject.symm.trans hYields.object
  refine ⟨hNumbered, ?_, fun a ha => ?_⟩
  · rw [List.map_append, hLog.proxies, proxies_of_push hYields.objects]
    rfl
  · rcases List.mem_append.mp ha with hOld | hNew
    · exact hLog.supertypes_eq hYields.growsTo.hierarchy hOld
    · rw [List.mem_singleton.mp hNew, ← ProxyBuilder.eq_eraseDups_of_checkContracts hCheck]
      exact hYields.implementing.supertypes

theorem Logs.logged (hRun : w.Logs more v) (hLog : Logged log w) : Logged (log ++ more) v := by
  induction hRun with
  | refl => rwa [List.append_nil]
  | made _ hBuild hObject ih =>
      rw [← List.append_assoc]
      exact ih.made hBuild hObject
  | other _ hBeside ih =>
      have hGrows := (hBeside.evolves ih.numbered.sound).1.hierarchy
      exact ⟨hBeside.numbered ih.numbered, ih.proxies.trans hBeside.proxies.symm,
        fun a ha => ih.supertypes_eq hGrows ha⟩

/-- A run from the start of a program. -/
theorem Logs.logged_start {state : σ} (hRun : World.Logs { client := state } log w) :
    Logged log w := by
  have hStart : Logged [] ({ client := state } : World σ) :=
    ⟨numbered_of_none (sound_start state) rfl rfl rfl, rfl, by simp⟩
  simpa using hRun.logged hStart

end World

/-- The classes of proxies, at any time of any run. Where classes are kept, two proxies have the
same class if and only if they were asked for the same interfaces, without repetitions; the key of a
class is the list of its supertypes; the keys are the lists asked for, in the order in which they
first came up, and as many as classes have been made; and the classes are numbered in this order.
Where classes are not kept, all proxies have different classes, numbered as the proxies are made.
In either case a proxy that cannot be made leaves the classes and their number as they are and fails
with the reason, and any other proxy gets its class by one of three ways. It comes first in the log
of what then happens, and whatever a program has the library do, the log goes on with all proxies
that client code has made meanwhile. -/
theorem classes_of_proxies (client : Client σ) {state : σ} {log : List (List ClassId × ProxyClass)}
    (hRun : World.Logs { client := state } log w) :
    (w.settings.cacheClasses = true →
      (∀ a ∈ log, ∀ b ∈ log, a.2.cls = b.2.cls ↔ a.1.eraseDups = b.1.eraseDups) ∧
      (∀ contracts made, (contracts, made) ∈ w.proxyClasses →
        w.hierarchy.supertypes made.cls = contracts) ∧
      Table.keys w.proxyClasses = (log.map fun a => a.1.eraseDups).eraseDups ∧
      w.nextProxy = w.proxyClasses.length ∧
      ∀ (k : Nat) contracts made, w.proxyClasses[k]? = some (contracts, made) →
        w.hierarchy.className made.cls = w.settings.classNamePrefix ++ toString k) ∧
    (w.settings.cacheClasses = false →
      (log.map fun a => a.2.cls).Nodup ∧ w.nextProxy = log.length ∧
      ∀ (k : Nat) a, log[k]? = some a →
        w.hierarchy.className a.2.cls = w.settings.classNamePrefix ++ toString k) ∧
    (∀ {ε α : Type} (wrap : ProxyError → ε) contracts after (x : Run ε σ α),
      Creates client w wrap contracts after x →
      (∀ e, ProxyBuilder.refusal? w.hierarchy contracts = some e →
        (x w).1 = .error (.raised (wrap e)) ∧ (x w).2.hierarchy = w.hierarchy ∧
          (x w).2.proxyClasses = w.proxyClasses ∧ (x w).2.nextProxy = w.nextProxy ∧
          (x w).2.proxies = w.proxies) ∧
      (ProxyBuilder.refusal? w.hierarchy contracts = none →
        ∃ made o v, v.proxies = w.proxies ++ [made] ∧
          made.Implements v.hierarchy contracts.eraseDups ∧
          w.Obtains contracts.eraseDups v made ∧ v.settings? = some w.settings ∧
          (x w).2 = after o v ∧
          ∃ more, World.Logs { client := state } (log ++ (contracts, made) :: more) (x w).2)) ∧
    ∀ {ε α : Type} (x : Run ε σ α), Operation client x →
      ∃ more, World.Logs { client := state } (log ++ more) (x w).2 := by
  obtain ⟨hNumbered, hProxies, hContracts⟩ := hRun.logged_start
  have hMem {a : List ClassId × ProxyClass} (ha : a ∈ log) : a.2 ∈ w.proxies :=
    hRun.logged_start.mem_proxies ha
  refine ⟨fun hKeep => ?_, fun hOwn => ?_, fun wrap contracts after x hx => ?_, fun x hx => ?_⟩
  · have hShares := hNumbered.shares hKeep
    have hLists : (w.proxies.map fun made => w.hierarchy.supertypes made.cls) =
        log.map fun a => a.1.eraseDups := by
      rw [← hProxies, List.map_map]
      exact List.map_congr_left hContracts
    refine ⟨fun a ha b hb => ⟨fun hSame => ?_, fun hSame => ?_⟩, fun contracts made hEntry => ?_,
      hLists ▸ hShares.keys, hShares.number, hShares.name⟩
    · rw [← hContracts a ha, hSame, hContracts b hb]
    · have hA := hShares.found a.2 (hMem ha)
      have hB := hShares.found b.2 (hMem hb)
      rw [hContracts a ha, hSame, ← hContracts b hb] at hA
      rw [Option.some.inj (hA.symm.trans hB)]
    · exact (hNumbered.sound.kept contracts made hEntry).supertypes
  · have hSeparates := hNumbered.separates hOwn
    refine ⟨?_, ?_, fun k a ha => ?_⟩
    · have hDistinct := hSeparates.distinct
      rwa [← hProxies, List.map_map] at hDistinct
    · rw [hSeparates.number, ← hProxies, List.length_map]
    · refine hSeparates.name k a.2 ?_
      rw [← hProxies, List.getElem?_map, ha]
      rfl
  · obtain ⟨hRefused, hAccepted⟩ := hx.apply hNumbered.sound
    refine ⟨hRefused, fun hNone => ?_⟩
    obtain ⟨made, o, v, hMade, hImplements, hObtains, hFixed, hAfter, more, hMore⟩ :=
      hAccepted hNone
    exact ⟨made, o, v, hMade, hImplements, hObtains, hFixed, hAfter, more, hRun.trans hMore⟩
  · obtain ⟨-, more, hMore⟩ := hx.staysLogged w hNumbered.sound
    exact ⟨more, hRun.trans hMore⟩

/-- A proxy that is not refused is entered in the log. -/
theorem World.Logs.build {state : σ} {log : List (List ClassId × ProxyClass)}
    (hRun : World.Logs { client := state } log w) (b : ProxyBuilder)
    (hAccepted : (ProxyBuilder.refusal? w.hierarchy b.contracts).isNone = true) :
    ∃ made, World.Logs { client := state } (log ++ [(b.contracts, made)]) (b.build w).2 := by
  obtain ⟨o, v, made, hBuild, hYields, -⟩ :=
    b.build_of_accepted hRun.logged_start.numbered.sound (Option.isNone_iff_eq_none.mp hAccepted)
  rw [hBuild]
  exact ⟨made, hRun.made hBuild hYields.object⟩

/-- A world with a proxy for an interface that is named twice, a lazy proxy, and one more proxy. The
first and the last share their class. -/
def threeGates : World Stub.Stage :=
  let w := (closedGate.build gateWorld).2
  let w := (LazyProxy.create ⟨3⟩ ⟨0⟩ w).2
  ((ProxyBuilder.single ⟨3⟩ .decline).build w).2

theorem classes_of_gates :
    ∃ log, World.Logs { client := {} } log threeGates ∧
      log.map Prod.fst = [[⟨3⟩, ⟨3⟩], [⟨3⟩, .lazyProxy], [⟨3⟩]] ∧
      Table.keys threeGates.proxyClasses = [[⟨3⟩], [⟨3⟩, .lazyProxy]] ∧ threeGates.nextProxy = 2 ∧
      (∀ a ∈ log, ∀ b ∈ log, a.2.cls = b.2.cls ↔ a.1.eraseDups = b.1.eraseDups) := by
  have hDeclared : World.Logs { client := {} } [] gateWorld :=
    .other .refl ⟨World.evolves_growth.declared _ gateType, rfl, rfl, rfl, fun _ => id⟩
  obtain ⟨_, hFirst⟩ := hDeclared.build closedGate (by decide +kernel)
  let w := (closedGate.build gateWorld).2
  have hCell : w.Steady { w with lazies := w.lazies.fresh.2 } := ⟨rfl, rfl, rfl, rfl, rfl⟩
  obtain ⟨_, hLazy⟩ := (hFirst.other hCell.prepared.beside).build
    (({ contracts := [⟨3⟩, .lazyProxy] } : ProxyBuilder).withHandler (.lazy ⟨0⟩ w.lazies.fresh.1))
    (by decide +kernel)
  obtain ⟨_, hRun⟩ := hLazy.build (ProxyBuilder.single ⟨3⟩ .decline) (by decide +kernel)
  have hKeep : threeGates.settings.cacheClasses = true := by decide +kernel
  obtain ⟨hShared, -⟩ := (classes_of_proxies Stub.client hRun).1 hKeep
  exact ⟨_, hRun, rfl, by decide +kernel, by decide +kernel, hShared⟩

end Metaobject
