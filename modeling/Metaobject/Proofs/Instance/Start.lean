import Metaobject.Proofs.Instance.Watch

/-!
New instances. Whatever the settings say about what instances keep, building gives the same object.
At first nothing is kept, the cells of an instance are as the settings ask for, and no other object
has them. Without its cells an instance is what is computed anew.
-/
namespace Metaobject

variable {ε σ α β : Type} {v w : World σ} {o : ObjectRef} {x : Instance} {b : InstanceBuilder}

/-- The settings with other choices of what instances keep. -/
def Settings.keeping (s : Settings) (hash text : Bool) : Settings :=
  { s with cacheHash := hash, cacheText := text }

/-- The world with such settings, and with other cells of instances. -/
def World.keeping (w : World σ) (hash text : Bool) (hashes : Store Int32) (texts : Store String) :
    World σ :=
  { w with settings? := some (w.settings.keeping hash text), hashes, texts }

section Making

variable (hash text : Bool) (hashes : Store Int32) (texts : Store String)

theorem ProxyClass.synthesize_keeping {contracts : List ClassId} {made : ProxyClass}
    (hRun : (synthesize contracts : Run ε σ ProxyClass) w = (.ok made, v)) :
    ∃ z, (synthesize contracts : Run ε σ ProxyClass) (w.keeping hash text hashes texts) =
        (.ok made, z) ∧ z.hierarchy = v.hierarchy ∧ z.objects = v.objects := by
  rw [synthesize_eq] at hRun ⊢
  cases hRun
  exact ⟨_, rfl, rfl, rfl⟩

/-- The classes of proxies do not depend on what instances keep. -/
theorem ProxyClass.forContracts_keeping {contracts : List ClassId} {made : ProxyClass}
    (hRun : (forContracts contracts : Run ε σ ProxyClass) w = (.ok made, v)) :
    ∃ z, (forContracts contracts : Run ε σ ProxyClass) (w.keeping hash text hashes texts) =
        (.ok made, z) ∧ z.hierarchy = v.hierarchy ∧ z.objects = v.objects := by
  have hKeep : (w.keeping hash text hashes texts).settings.cacheClasses =
    w.settings.cacheClasses := rfl
  rw [forContracts, Run.bind_ok (Settings.current_apply _)] at hRun ⊢
  rw [hKeep]
  split at hRun
  · next hOwn =>
      have hMade := synthesize_keeping hash text hashes texts hRun
      rwa [if_pos hOwn]
  · next hShared =>
      rw [Run.bind_ok (Run.get_apply _)] at hRun
      rw [if_neg hShared, Run.bind_ok (Run.get_apply _)]
      dsimp only [World.keeping] at hRun ⊢
      cases hFind : Table.find? w.proxyClasses contracts with
      | some old =>
          rw [hFind] at hRun
          cases hRun
          exact ⟨_, rfl, rfl, rfl⟩
      | none =>
          rw [hFind] at hRun
          obtain ⟨other, t, hNew, hEnter⟩ := Run.exists_of_bind_ok hRun
          obtain ⟨z, hAgain, hHierarchy, hObjects⟩ :=
            synthesize_keeping hash text hashes texts hNew
          cases hEnter
          exact ⟨_, Run.bind_ok hAgain, hHierarchy, hObjects⟩

/-- The same proxy is made with another chain, except for that chain. -/
theorem ProxyBuilder.build_keeping {b : ProxyBuilder} (hBuild : b.build w = (.ok o, v))
    (k : Chain) :
    ∃ z, ({ b with chain := k } : ProxyBuilder).build (w.keeping hash text hashes texts) =
      (.ok o, z) ∧ z.hierarchy = v.hierarchy := by
  rw [build] at hBuild ⊢
  split at hBuild
  · cases hBuild
  · next hSome =>
      rw [Run.bind_ok (Run.hierarchy_apply w)] at hBuild
      rw [if_neg hSome, Run.bind_ok (Run.hierarchy_apply _)]
      obtain ⟨contracts, _, hCheck, hRest⟩ := Run.exists_of_bind_ok hBuild
      obtain ⟨hContracts, rfl⟩ := Run.ok_of_ofExcept hCheck
      obtain ⟨made, t, hClass, hObject⟩ := Run.exists_of_bind_ok hRest
      obtain ⟨z, hAgain, hHierarchy, hObjects⟩ :=
        ProxyClass.forContracts_keeping hash text hashes texts hClass
      cases hObject
      refine ⟨(z.allocate made.cls (.proxy made k)).2, ?_, hHierarchy⟩
      dsimp only [World.keeping] at hAgain ⊢
      rw [hContracts]
      refine (Run.bind_ok (Run.pure_apply contracts _)).trans ((Run.bind_ok hAgain).trans ?_)
      rw [← hObjects]
      rfl

end Making

/-- What yields a value whose errors are changed has yielded it. -/
theorem Run.ok_of_mapError {δ : Type} {f : ε → δ} {x : Run ε σ α} {a : α}
    (hRun : mapError f x w = (.ok a, v)) : x w = (.ok a, v) := by
  rcases hx : x w with ⟨(e | _) | c, z⟩
  · cases (mapError_raised hx).symm.trans hRun
  · cases (mapError_exhausted hx).symm.trans hRun
  · cases (mapError_ok (f := f) hx).symm.trans hRun
    rfl

/-- Under other choices of what instances keep, building gives the same object. -/
theorem InstanceBuilder.build_keeping (hBuild : b.build w = (.ok o, v)) (hash text : Bool) :
    ∃ z, b.build { w with settings? := some (w.settings.keeping hash text) } = (.ok o, z) ∧
      z.hierarchy = v.hierarchy := by
  cases hMissing : b.missing.isEmpty with
  | false =>
      rw [build, hMissing] at hBuild
      cases hBuild
  | true =>
      obtain ⟨hash?, text?, hashes, texts, hRun, -⟩ := b.build_eq hMissing w
      obtain ⟨hash', text', hashes', texts', hAgain, -⟩ := b.build_eq hMissing
        { w with settings? := some (w.settings.keeping hash text) }
      obtain ⟨z, hProxy, hHierarchy⟩ := ProxyBuilder.build_keeping hash text hashes' texts'
        (Run.ok_of_mapError (hRun.symm.trans hBuild))
        (.single (.values ⟨b.contract, b.assigned, hash', text'⟩))
      exact ⟨z, hAgain.trans (Run.mapError_ok hProxy), hHierarchy⟩

namespace Recall

variable {k : Recall σ β}

/-- A new object has its cell for itself, and there is nothing in it. -/
theorem guards_of_gains {P : β → Prop}
    (hOwned : ∀ y, w.Has y → ∀ d, k.cell? y = some d → (k.store w).Holds d)
    (hStore : (k.store w).Gains (k.store v) (k.cell? x)) (ho : v.Stands o x)
    (hLast : ∀ p made chain, v.object? p = some (.proxy made chain) →
      w.object? p = some (.proxy made chain) ∨ p.id = w.objects.size) : k.Guards o x P v where
  held c hc := (hStore.fresh c hc).1
  kept c b hc hb := by
    rw [hStore.read, Store.read_of_not_holds (hStore.fresh c hc).2] at hb
    cases hb
  alone p made chain hOther hObject y hy c d hc hd := by
    rintro rfl
    have hNew {q : ObjectRef} {made : ProxyClass} {chain : Chain} {z : Instance}
        (hObject : v.object? q = some (.proxy made chain)) (hz : chain.Has z)
        (hCell : k.cell? z = some d) : q.id = w.objects.size := by
      rcases hLast q made chain hObject with hOld | hId
      · exact absurd (hOwned z ⟨q, made, chain, hOld, hz⟩ d hCell) (hStore.fresh d hc).2
      · exact hId
    obtain ⟨own, hOwn⟩ := ho
    exact hOther ((hNew hObject hy hd).trans
      (hNew hOwn (Chain.has_single_iff.mpr .self) hc).symm)

end Recall

namespace InstanceBuilder

/-- A new instance, for which nothing is kept yet. -/
structure Starts (b : InstanceBuilder) (w : World σ) (o : ObjectRef) (x : Instance)
    (v : World σ) : Prop extends b.Yields w o x v where
  guards : ∀ P Q, World.Guards o x P Q v

theorem starts_of_build (hw : w.Tidy) (hBuild : b.build w = (.ok o, v)) :
    ∃ x, b.Starts w o x v := by
  obtain ⟨x, hYields⟩ := b.yields_of_build hw.sound hBuild
  obtain ⟨made, hObject, hObjects, -⟩ := hYields.object
  have hStands : v.Stands o x := ⟨made, hObject⟩
  have hLast (q : ObjectRef) (other : ProxyClass) (chain : Chain)
      (hOther : v.object? q = some (.proxy other chain)) :
      w.object? q = some (.proxy other chain) ∨ q.id = w.objects.size :=
    (World.object?_of_push hObjects hOther).imp_right And.left
  exact ⟨x, hYields, fun P Q => ⟨hYields.sound, hStands,
    Recall.guards_of_gains hw.separate.hash.held hYields.hashes hStands hLast,
    Recall.guards_of_gains hw.separate.text.held hYields.texts hStands hLast⟩⟩

/-- What is built, without cells: nothing is kept, and all is computed anew. -/
def bare (b : InstanceBuilder) : Instance :=
  ⟨b.contract, b.assigned, none, none⟩

namespace Yields

variable {serve : Serve σ} (hx : b.Yields w o x v)

include hx

theorem valueOf_eq : x.valueOf = b.bare.valueOf := by
  funext m
  rw [Instance.valueOf, Instance.valueOf, hx.assigned]
  rfl

theorem values_eq : x.values = b.bare.values := by
  rw [Instance.values, Instance.values, hx.valueOf_eq, hx.contract]
  rfl

theorem computeHash_eq : x.computeHash serve = b.bare.computeHash serve := by
  rw [Instance.computeHash, Instance.computeHash, hx.values_eq]

theorem computeText_eq : x.computeText serve = b.bare.computeText serve := by
  rw [Instance.computeText, Instance.computeText, hx.values_eq, hx.contract]
  rfl

theorem agrees_eq (other : ObjectRef) (members : List Member) :
    x.agrees serve other members = b.bare.agrees serve other members := by
  induction members with
  | nil => rfl
  | cons m rest ih => rw [Instance.agrees, Instance.agrees, ih, hx.valueOf_eq]

theorem equalTo_eq (receiver? : Option ObjectRef) (other : Value) :
    x.equalTo serve receiver? other = b.bare.equalTo serve receiver? other := by
  cases other with
  | object p => simp only [Instance.equalTo, hx.agrees_eq, hx.contract, bare]
  | _ => rfl

end Yields

end InstanceBuilder

end Metaobject
