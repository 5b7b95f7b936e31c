import Metaobject.Proofs.Instance.ReadBack
import Metaobject.Proofs.Proxy.Classes
import Metaobject.Proofs.Signature.RoundTrip

/-!
Names of the classes of proxies, as signatures mention them. Such a name is the text that the
settings give, with a number behind it. Settings that are accepted hold no blank and no bracket in
that text, but the reader of signatures takes for a name only letters, numbers and a few signs, and
a number may complete a text to the name of a primitive type.
-/
namespace Metaobject

open Signature

variable {ε σ : Type} {v w : World σ}

namespace Settings

/-- Texts that a number completes to a name that is reserved. -/
def completions : List (String × Nat) :=
  [("i", 8), ("i", 16), ("i1", 6), ("i", 32), ("i3", 2), ("i", 64), ("i6", 4), ("f", 32), ("f3", 2),
    ("f", 64), ("f6", 4)]

/-- The class of a number has a name that is read as that of a class. -/
structure Legible (s : Settings) (n : Nat) : Prop where
  readable : ∀ c ∈ s.classNamePrefix.toList, isNameChar c = true
  incomplete : (s.classNamePrefix, n) ∉ completions

end Settings

theorem digits_toString {n : Nat} {c : Char} (hc : c ∈ (toString n).toList) : c.isDigit = true := by
  rw [Nat.toString_eq_repr, Nat.toList_repr] at hc
  exact Nat.isDigit_of_mem_toDigits (by decide) (by decide) hc

theorem isNameChar_of_isDigit {c : Char} (hc : c.isDigit = true) : isNameChar c = true := by
  have hAlphanumeric : Text.isAlphanumeric c = true :=
    Text.isAlphanumeric_of_isAlphanum (by rw [Char.isAlphanum, hc, Bool.or_true])
  rw [isNameChar, hAlphanumeric]
  rfl

theorem toString_ne_nil (n : Nat) : (toString n).toList ≠ [] := by
  rw [Nat.toString_eq_repr, Nat.toList_repr]
  exact Nat.toDigits_ne_nil

theorem eq_of_toString_eq {n m : Nat} (hSame : (toString n).toList = (toString m).toList) :
    n = m := by
  rw [Nat.toString_eq_repr, Nat.toString_eq_repr, Nat.toList_repr, Nat.toList_repr] at hSame
  have hValue := congrArg (Nat.ofDigitChars 10 · 0) hSame
  simpa only [Nat.ofDigitChars_toDigits (by decide : 1 < 10) (by decide)] using hValue

/-- A numbered text is a name if the text has only characters of names. -/
theorem isIdentifier_numbered_iff {start : String} {n : Nat} :
    IsIdentifier (start ++ toString n) ↔ ∀ c ∈ start.toList, isNameChar c = true := by
  rw [IsIdentifier, String.toList_append]
  constructor
  · exact fun hName c hc => hName.2 c (List.mem_append_left _ hc)
  · intro hStart
    refine ⟨fun hNil => toString_ne_nil n (List.append_eq_nil_iff.mp hNil).2, fun c hc => ?_⟩
    rcases List.mem_append.mp hc with hPrefix | hDigit
    · exact hStart c hPrefix
    · exact isNameChar_of_isDigit (digits_toString hDigit)

/-- Wherever a reserved name is parted so that digits are left, it is one of the completions. -/
theorem mem_completions_of_splitAt : ∀ name ∈ reservedNames, ∀ k < name.toList.length, k ≠ 0 →
    (name.toList.drop k).all Char.isDigit = true →
      ∃ entry ∈ Settings.completions, entry.1.toList = name.toList.take k ∧
        (toString entry.2).toList = name.toList.drop k := by
  decide +kernel

/-- A numbered text is reserved exactly if the number completes it. -/
theorem numbered_mem_reservedNames_iff {start : String} (hStart : start.isEmpty = false) {n : Nat} :
    start ++ toString n ∈ reservedNames ↔ (start, n) ∈ Settings.completions := by
  constructor
  · intro hReserved
    have hLength : start.toList.length < (start ++ toString n).toList.length := by
      rw [String.toList_append, List.length_append]
      exact Nat.lt_add_of_pos_right (List.length_pos_iff.mpr (toString_ne_nil n))
    obtain ⟨entry, hEntry, hTake, hDrop⟩ := mem_completions_of_splitAt _ hReserved _ hLength
      (by simpa using hStart) (List.all_eq_true.mpr fun c hc => by
        rw [String.toList_append, List.drop_left] at hc
        exact digits_toString hc)
    rw [String.toList_append, List.take_left] at hTake
    rw [String.toList_append, List.drop_left] at hDrop
    rwa [← String.toList_inj.mp hTake, ← eq_of_toString_eq hDrop]
  · have hAll : ∀ entry ∈ Settings.completions, entry.1 ++ toString entry.2 ∈ reservedNames := by
      decide +kernel
    exact hAll (start, n)

namespace Settings

theorem isEmpty_of_validate {s : Settings} (hValid : s.validate = .ok ()) :
    s.classNamePrefix.isEmpty = false := by
  rw [validate] at hValid
  split at hValid
  · cases hValid
  · next hPrefix => exact Bool.eq_false_iff.mpr hPrefix

/-- A number is legible exactly if the class of the number has a name that is looked up. -/
theorem legible_iff {s : Settings} (hValid : s.validate = .ok ()) {n : Nat} :
    s.Legible n ↔ IsIdentifier (s.classNamePrefix ++ toString n) ∧
      s.classNamePrefix ++ toString n ∉ reservedNames := by
  rw [isIdentifier_numbered_iff, numbered_mem_reservedNames_iff (isEmpty_of_validate hValid)]
  exact ⟨fun hn => ⟨hn.readable, hn.incomplete⟩, fun hn => ⟨hn.1, hn.2⟩⟩

end Settings

theorem World.Synthesizes.declared {made : ProxyClass} (hNew : w.Synthesizes v made) :
    v.hierarchy.Declared made.cls := by
  rw [Hierarchy.Declared, hNew.cls, hNew.size]
  exact Nat.lt_succ_self _

/-- Which classes of proxies can be mentioned in signatures. Under settings that are accepted, the
name of the class of a number is one name of the grammar, and not reserved, exactly if the text that
the settings give has only characters of names, and the number does not complete it to the name of a
primitive type. Then every signature that mentions the class is read back from its text, as long as
the class is registered and the other classes can be mentioned as well; and otherwise no text at all
is read as a signature that mentions the class. -/
theorem names_of_proxies {s : Settings} (hValid : s.validate = .ok ()) :
    (∀ n : Nat, (IsIdentifier (s.classNamePrefix ++ toString n) ∧
      s.classNamePrefix ++ toString n ∉ reservedNames) ↔ s.Legible n) ∧
    ∀ (w v : World σ) (contracts : List ClassId) (made : ProxyClass), w.settings = s →
      (ProxyClass.synthesize contracts : Run ε σ ProxyClass) w = (.ok made, v) →
        ∀ (h : Hierarchy) (r : Registry), v.hierarchy.GrowsTo h → Registry.Reached h r →
          r.lookup (h.className made.cls) = some made.cls →
    (s.Legible w.nextProxy → ∀ signature : Signature,
      (∀ c ∈ signature.classes, c ≠ made.cls → Nameable h r c) →
        parse r (signature.text h) = .ok signature) ∧
    (¬ s.Legible w.nextProxy → ∀ (text : String) (signature : Signature),
      parse r text = .ok signature → made.cls ∉ signature.classes) := by
  refine ⟨fun n => (Settings.legible_iff hValid).symm, ?_⟩
  rintro w v contracts made rfl hRun h r hGrows hr hFound
  obtain ⟨hNew, _⟩ := ProxyClass.synthesizes_of_synthesize hRun
  have hName : h.className made.cls = w.settings.classNamePrefix ++ toString w.nextProxy :=
    (hGrows.className_eq hNew.declared).trans hNew.name
  constructor
  · intro hLegible signature hOthers
    obtain ⟨hIdentifier, hUnreserved⟩ := (Settings.legible_iff hValid).mp hLegible
    have hMade : Nameable h r made.cls := ⟨hFound, hName ▸ hIdentifier, hName ▸ hUnreserved⟩
    refine Reader.parse_written signature fun c hc => ?_
    by_cases hSame : c = made.cls
    · rw [hSame]
      exact hMade
    · exact hOthers c hc hSame
  · intro hIllegible text signature hParse hMention
    have hMade := Reader.nameable_of_parse hr hParse made.cls hMention
    exact hIllegible ((Settings.legible_iff hValid).mpr
      ⟨hName ▸ hMade.identifier, hName ▸ hMade.unreserved⟩)

/-- The first class of proxies of limits, by the name that it has by default. -/
theorem names_of_limit_proxies : ∃ made v,
    (ProxyClass.synthesize [⟨3⟩] : Run ProxyError _ _) limitWorld = (.ok made, v) ∧
    v.hierarchy.className made.cls = "$Proxy0" ∧
    parse (Registry.register v.hierarchy .opening made.cls)
      (Signature.text v.hierarchy ⟨[.array (.ofClass made.cls)], .ofClass made.cls⟩) =
        .ok ⟨[.array (.ofClass made.cls)], .ofClass made.cls⟩ := by
  obtain ⟨made, v, hRun⟩ : ∃ made v,
    (ProxyClass.synthesize [⟨3⟩] : Run ProxyError _ _) limitWorld = (.ok made, v) := ⟨_, _, rfl⟩
  obtain ⟨hNew, _⟩ := ProxyClass.synthesizes_of_synthesize hRun
  have hFound : (Registry.register v.hierarchy .opening made.cls).lookup
      (v.hierarchy.className made.cls) = some made.cls := by
    rw [Registry.lookup_register, if_pos rfl]
  have hLegible : limitWorld.settings.Legible limitWorld.nextProxy := by
    have hChars : limitWorld.settings.classNamePrefix.toList.all isNameChar = true := by
      decide +kernel
    exact ⟨List.all_eq_true.mp hChars, by decide +kernel⟩
  obtain ⟨_, hRead⟩ := names_of_proxies (ε := ProxyError) (σ := Stub.Stage)
    (s := limitWorld.settings) (by decide +kernel)
  obtain ⟨hWritten, _⟩ := hRead limitWorld v [⟨3⟩] made rfl hRun v.hierarchy _ (.refl _)
    (.register (.opening _) hNew.declared) hFound
  refine ⟨made, v, hRun, hNew.name, hWritten hLegible _ fun c hc hOther => ?_⟩
  exact absurd (by simpa [Signature.classes, Ty.classes] using hc) hOther

/-- Settings with a sign in the text that stands in signatures between parameters and result. -/
def hyphenSettings : Settings :=
  { classNamePrefix := "a-b" }

/-- A world with an annotation type in which they are in effect. -/
def hyphenWorld : World Stub.Stage :=
  { limitWorld with settings? := some hyphenSettings }

/-- The settings are accepted, but signatures that mention the first class of proxies are not read
back; nor is the name that a number completes a class of its own. -/
theorem hyphen_not_read_back : hyphenSettings.validate = .ok () ∧
    ¬ IsIdentifier (hyphenSettings.classNamePrefix ++ toString 0) ∧
    (∃ made v, (ProxyClass.synthesize [⟨3⟩] : Run ProxyError _ _) hyphenWorld = (.ok made, v) ∧
      parse (Registry.register v.hierarchy .opening made.cls)
        (Signature.text v.hierarchy ⟨[.ofClass made.cls], .void⟩) ≠
          .ok ⟨[.ofClass made.cls], .void⟩) ∧
    ({ classNamePrefix := "i" } : Settings).validate = .ok () ∧
    "i" ++ toString 8 ∈ reservedNames := by
  have hSign : ¬ IsIdentifier (hyphenSettings.classNamePrefix ++ toString 0) := by
    rw [isIdentifier_numbered_iff]
    exact fun hChars => absurd (hChars '-' (by decide +kernel)) (by decide +kernel)
  refine ⟨by decide +kernel, hSign, ?_, by decide +kernel, by decide +kernel⟩
  obtain ⟨made, v, hRun⟩ : ∃ made v,
    (ProxyClass.synthesize [⟨3⟩] : Run ProxyError _ _) hyphenWorld = (.ok made, v) := ⟨_, _, rfl⟩
  obtain ⟨hNew, _⟩ := ProxyClass.synthesizes_of_synthesize hRun
  refine ⟨made, v, hRun, fun hParse => hSign ?_⟩
  have hMade := Reader.nameable_of_parse (.register (.opening _) hNew.declared) hParse made.cls
    (by simp [Signature.classes, Ty.classes])
  exact (hNew.name ▸ hMade.identifier :)

end Metaobject
