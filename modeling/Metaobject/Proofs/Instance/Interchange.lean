import Metaobject.Proofs.Instance.Conduct
import Metaobject.Proofs.Instance.Equality

/-!
Equal instances are interchangeable. What stands for one datum has one hash and one text, which do
not change while classes are declared and objects are made; so instances that are equal have the
same hash and the same text from then on, whether these are remembered or computed each time.
-/
namespace Metaobject

variable {σ : Type} {client : Client σ} {v w : World σ}

open World

/-- From a tidy world on, an object has the hash and the text of the datum that it stands for. -/
theorem World.Tidy.answers_later (hw : w.Tidy) (hLeads : ProperlyLeads client w v) {o : ObjectRef}
    {d : Datum} (hd : w.Denotes (.object o) d) {depth : Nat} (hDepth : d.rank ≤ depth) :
    (o.hashCode (perform client depth) v).1 = .ok (d.hash w.hierarchy) ∧
      (o.toText (perform client depth) v).1 = .ok (d.text w.hierarchy) := by
  have hv := hLeads.tidy hw
  have hGrows := hLeads.leads.growsTo hw.sound
  have hLater := hd.mono hGrows
  obtain ⟨x, ho⟩ : ∃ x, w.Stands o x := by
    cases hd with
    | atom hAtom => cases hAtom
    | object ho _ _ => exact ⟨_, ho⟩
  have ho' : v.Stands o x := ho.imp fun _ => hGrows.object?
  have hUnfolds := ho'.denotes_iff.mp hLater
  obtain ⟨-, hHash, hText⟩ := hw.unfolds_of_later hGrows ho.has hUnfolds
  rw [← hHash, ← hText]
  exact ⟨(Value.comes_hashCode hv.separate hLater depth).ok hDepth hv.settled,
    (ho'.comes_toText hv.separate hUnfolds depth).ok hDepth hv.settled⟩

/-- Equal instances, whose members have values composed of atoms by arrays and instances, have the
same hash and the same text, whatever settings are in effect. They keep these whatever the program
does, before or after, be it calls on the instances themselves, as long as it forges nothing. -/
theorem hash_and_text_of_equal {a b : ObjectRef} (hReached : ProperlyReached client w)
    (ha : Composed client w (.object a)) (hb : Composed client w (.object b))
    (hEqual : w.Decides client (.object a) (.object b) true) :
    ∃ n s bound, ∀ v, ProperlyLeads client w v → ∀ depth, bound ≤ depth →
      (a.hashCode (perform client depth) v).1 = .ok n ∧
      (b.hashCode (perform client depth) v).1 = .ok n ∧
      (a.toText (perform client depth) v).1 = .ok s ∧
      (b.toText (perform client depth) v).1 = .ok s := by
  obtain ⟨d, hd, he⟩ := (ha.decides_true_iff hb).mp hEqual
  refine ⟨d.hash w.hierarchy, d.text w.hierarchy, d.rank, fun v hLeads depth hDepth => ?_⟩
  obtain ⟨hHash, hText⟩ := hReached.tidy.answers_later hLeads hd hDepth
  obtain ⟨hHash', hText'⟩ := hReached.tidy.answers_later hLeads he hDepth
  exact ⟨hHash, hHash', hText, hText'⟩

section Frames

variable {t : World Stub.Stage} {a b f g : ObjectRef} {w₁ w₂ w₃ : World Stub.Stage}

/-- The limits of a framing run stand for the same datum, and so do the frames. -/
theorem Framed.alike (hFramed : Framed a b f g w₁ w₂ w₃ t) :
    t.Alike (.object a) (.object b) ∧ t.Alike (.object f) (.object g) := by
  obtain ⟨hLeads, ha, hb, hf, hg⟩ := hFramed.built
  have hLimits : t.Alike (.object a) (.object b) := by
    refine (ha.alike_iff hb).mpr fun m hm => ?_
    obtain ⟨n, hn, hn'⟩ := expected_limit hLeads hm
    exact ⟨_, _, hn, hn', _, .atom rfl, .atom rfl⟩
  refine ⟨hLimits, (hf.alike_iff hg).mpr fun m hm => ?_⟩
  refine ⟨_, _, expected_frame hLeads hm a, expected_frame hLeads hm b, ?_⟩
  exact World.alike_array_iff.mpr ⟨rfl, .cons hLimits .nil⟩

theorem known_limit (hDeclared : t.hierarchy.Declared ⟨3⟩) {assigned : Table String Value}
    (hEach : ∀ m ∈ (limitBuilder assigned).contract.members, ∃ n : Int32,
      ((limitBuilder assigned).assigned? m.name).or m.default? = some (.int n)) :
    (limitBuilder assigned).Known t := by
  refine ⟨hDeclared, fun m hm v hv => ?_⟩
  obtain ⟨n, hn⟩ := hEach m hm
  cases hn.symm.trans hv
  exact .atom rfl fun _ h => by cases h

theorem known_frame (hDeclared : t.hierarchy.Declared ⟨4⟩) {o : ObjectRef}
    (ho : o.id < t.objects.size) :
    (frameBuilder [("limits", .array (.ofClass ⟨3⟩) [.object o])]).Known t := by
  refine ⟨hDeclared, fun m hm v hv => ?_⟩
  have hMember : m = frameWorld.hierarchy.memberOf ⟨⟨4⟩, 0⟩ := by
    rw [frameBuilder, members_frame] at hm
    exact List.mem_singleton.mp hm
  obtain rfl : Value.array (.ofClass ⟨3⟩) [.object o] = v := by
    rw [hMember] at hv
    exact Option.some.inj hv
  refine .array fun u hu => ?_
  rw [List.mem_singleton.mp hu]
  exact .object ho

theorem InstanceBuilder.Built.id_lt {c : ClassId} {log : List (Member × Value)} {o : ObjectRef}
    (hBuilt : Built client c log o w) : o.id < w.objects.size := by
  obtain ⟨made, x, hObject, _⟩ := hBuilt.instance_of
  exact (Array.getElem?_eq_some_iff.mp hObject).1

/-- Nothing is forged in a framing run. -/
theorem Framed.properlyReached (hFramed : Framed a b f g w₁ w₂ w₃ t) :
    ProperlyReached Stub.client t := by
  have hStart : ProperlyLeads Stub.client { client := {} } frameWorld :=
    (ProperlyLeads.refl.step (.command (.declare limitType))).step (.command (.declare frameType))
  have hDeclared {v : World Stub.Stage} (hLeads : ProperlyLeads Stub.client frameWorld v)
      {c : ClassId} (hc : frameWorld.hierarchy.Declared c) : v.hierarchy.Declared c :=
    (hLeads.leads.growsTo reachable_frameWorld.sound).hierarchy.declared hc
  have hBrief : (limitBuilder [("size", .int 3)]).Known frameWorld := by
    refine known_limit (by decide) fun m hm => ?_
    rw [limitBuilder, members_limit, List.mem_pair] at hm
    rcases hm with rfl | rfl <;> exact ⟨_, rfl⟩
  have h₁ : ProperlyLeads Stub.client frameWorld w₁ :=
    .of_proper (.newInstance _ hBrief) hFramed.brief
  have hFull : (limitBuilder [("scale", .int 2), ("size", .int 3)]).Known w₁ := by
    refine known_limit (hDeclared h₁ (by decide)) fun m hm => ?_
    rw [limitBuilder, members_limit, List.mem_pair] at hm
    rcases hm with rfl | rfl <;> exact ⟨_, rfl⟩
  have h₂ : ProperlyLeads Stub.client w₁ w₂ :=
    .of_proper (.newInstance _ hFull) hFramed.full
  have ha : InstanceBuilder.Built Stub.client ⟨3⟩ briefLog a w₂ :=
    ⟨filled_brief, hFramed.brief, h₂.leads⟩
  have hFirst := known_frame (hDeclared (h₁.trans h₂) (by decide)) ha.id_lt
  have h₃ : ProperlyLeads Stub.client w₂ w₃ :=
    .of_proper (.newInstance _ hFirst) hFramed.first
  have hb : InstanceBuilder.Built Stub.client ⟨3⟩ fullLog b w₃ :=
    ⟨filled_full.meanwhile h₁.leads, hFramed.full, h₃.leads⟩
  have hSecond := known_frame (hDeclared ((h₁.trans h₂).trans h₃) (by decide)) hb.id_lt
  have h₄ : ProperlyLeads Stub.client w₃ t :=
    .of_proper (.newInstance _ hSecond) hFramed.second
  exact ⟨{}, (((hStart.trans h₁).trans h₂).trans h₃).trans h₄⟩

end Frames

/-- Two frames around one limit built twice have one hash and one text. -/
theorem hash_and_text_of_frames : ∃ a b f g w₁ w₂ w₃ t, Framed a b f g w₁ w₂ w₃ t ∧
    ∃ n s bound, ∀ v, ProperlyLeads Stub.client t v → ∀ depth, bound ≤ depth →
      (f.hashCode (perform Stub.client depth) v).1 = .ok n ∧
      (g.hashCode (perform Stub.client depth) v).1 = .ok n ∧
      (f.toText (perform Stub.client depth) v).1 = .ok s ∧
      (g.toText (perform Stub.client depth) v).1 = .ok s := by
  obtain ⟨a, b, f, g, w₁, w₂, w₃, t, hFramed⟩ := exists_framed
  obtain ⟨hLeads, ha, hb, hf, hg⟩ := hFramed.built
  have hA : Composed Stub.client t (.object a) :=
    .object ha fun m hm v => composed_limit hLeads (.inl rfl) hm
  have hB : Composed Stub.client t (.object b) :=
    .object hb fun m hm v => composed_limit hLeads (.inr rfl) hm
  have hF : Composed Stub.client t (.object f) :=
    .object hf fun m hm v => composed_frame hLeads hA hm
  have hG : Composed Stub.client t (.object g) :=
    .object hg fun m hm v => composed_frame hLeads hB hm
  exact ⟨a, b, f, g, w₁, w₂, w₃, t, hFramed, hash_and_text_of_equal hFramed.properlyReached hF hG
    ((hF.decides_true_iff hG).mpr hFramed.alike.2)⟩

end Metaobject
