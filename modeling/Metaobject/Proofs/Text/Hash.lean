import Mathlib.Algebra.GroupWithZero.Nat
import Mathlib.Data.List.Forall2
import Metaobject.Text.CodeUnits

/-!
The hash of a text as a polynomial. Its coefficients are the code units of the text, the first one
leading, and it is taken at 31 in wrapping arithmetic. So in the hash of a concatenation the hash of
the first text is shifted by as many places as the second has code units.
-/
namespace Metaobject.Text

/-- A character in code units: alone in one, or, above U+FFFF, in a high and a low surrogate that
take ten bits each. -/
inductive Encodes (c : Char) : List UInt16 → Prop where
  | alone {unit : UInt16} (hValue : unit.toNat = c.toNat) : Encodes c [unit]
  | surrogates {high low : UInt16} (hHigh : 0xD800 ≤ high.toNat ∧ high.toNat < 0xDC00)
      (hLow : 0xDC00 ≤ low.toNat ∧ low.toNat < 0xE000)
      (hValue : c.toNat = 0x10000 + (high.toNat - 0xD800) * 0x400 + (low.toNat - 0xDC00)) :
      Encodes c [high, low]

/-- How many code units a character takes. -/
def unitCount (c : Char) : Nat :=
  if 0xFFFF < c.toNat then 2 else 1

/-- The polynomial with the given coefficients, the first one leading, taken at 31. -/
def polynomial (units : List UInt16) : Int32 :=
  (units.mapIdx fun i unit => Int32.ofNat unit.toNat * 31 ^ (units.length - 1 - i)).sum

/-! ### Code units -/

theorem toNat_highSurrogate {rest : UInt32} (hRest : rest.toNat < 0x100000) :
    ((0xD800 : UInt16) + (rest >>> 10).toUInt16).toNat = 0xD800 + rest.toNat / 0x400 := by
  have hBits : (rest >>> 10).toNat = rest.toNat / 0x400 := by
    rw [UInt32.toNat_shiftRight, Nat.shiftRight_eq_div_pow]
    rfl
  simp only [UInt16.toNat_add, UInt32.toNat_toUInt16, hBits, UInt16.toNat_ofNat]
  omega

theorem toNat_lowSurrogate (rest : UInt32) :
    ((0xDC00 : UInt16) + (rest &&& 0x3FF).toUInt16).toNat = 0xDC00 + rest.toNat % 0x400 := by
  have hBits : (rest &&& 0x3FF).toNat = rest.toNat % 0x400 := by
    rw [UInt32.toNat_and]
    exact Nat.and_two_pow_sub_one_eq_mod _ 10
  simp only [UInt16.toNat_add, UInt32.toNat_toUInt16, hBits, UInt16.toNat_ofNat]
  omega

theorem encodes_charUnits (c : Char) : Encodes c (charUnits c) := by
  have hBound : c.val.toNat < 0x110000 := by
    have hValid := c.valid
    simp only [UInt32.isValidChar, Nat.isValidChar] at hValid
    omega
  have hNat : c.toNat = c.val.toNat := rfl
  rw [charUnits]
  split
  · next hSmall =>
      have hLess : c.val.toNat < 0x10000 := UInt32.lt_iff_toNat_lt.mp hSmall
      refine .alone ?_
      rw [UInt32.toNat_toUInt16]
      exact Nat.mod_eq_of_lt hLess
  · next hLarge =>
      have hAbove : 0x10000 ≤ c.val := UInt32.not_lt.mp hLarge
      have hLess : 0x10000 ≤ c.val.toNat := UInt32.le_iff_toNat_le.mp hAbove
      have hRest : (c.val - 0x10000).toNat = c.val.toNat - 0x10000 :=
        UInt32.toNat_sub_of_le _ _ hAbove
      have hPlane : (c.val - 0x10000).toNat < 0x100000 := by omega
      have hHigh := toNat_highSurrogate hPlane
      have hLow := toNat_lowSurrogate (c.val - 0x10000)
      rw [hRest] at hHigh hLow
      exact .surrogates (by omega) (by omega) (by omega)

theorem Encodes.length_eq {c : Char} {units : List UInt16} (hEncodes : Encodes c units) :
    units.length = unitCount c := by
  cases hEncodes with
  | @alone unit hValue =>
      have hSmall := unit.toNat_lt
      rw [unitCount, if_neg (by omega)]
      rfl
  | surrogates hHigh hLow hValue =>
      rw [unitCount, if_pos (by omega)]
      rfl

/-- The code units of a text are those of its characters, one character after another. -/
theorem exists_parts (s : String) :
    ∃ parts, List.Forall₂ Encodes s.toList parts ∧ codeUnits s = parts.flatten :=
  ⟨s.toList.map charUnits, List.forall₂_map_right_iff.mpr
    (List.forall₂_same.mpr fun c _ => encodes_charUnits c), List.flatMap_def ..⟩

theorem length_codeUnits (s : String) :
    (codeUnits s).length = (s.toList.map unitCount).sum := by
  rw [codeUnits, List.length_flatMap]
  congr 1
  exact List.map_congr_left fun c _ => (encodes_charUnits c).length_eq

example : codeUnits "a😀" = [0x61, 0xD83D, 0xDE00] := by decide +kernel

/-! ### The polynomial -/

/-- A start value is shifted by as many places as there are code units. -/
theorem hashFrom_eq (start : Int32) (units : List UInt16) :
    hashFrom start units = start * 31 ^ units.length + hashFrom 0 units := by
  induction units generalizing start with
  | nil => simp [hashFrom]
  | cons unit units ih =>
      have hStep (n : Int32) : hashFrom n (unit :: units) = hashFrom (hashStep n unit) units := rfl
      rw [hStep, hStep, ih, ih (hashStep 0 unit), List.length_cons, hashStep, hashStep]
      grind

theorem polynomial_cons (unit : UInt16) (units : List UInt16) :
    polynomial (unit :: units) =
      Int32.ofNat unit.toNat * 31 ^ units.length + polynomial units := by
  rw [polynomial, List.mapIdx_cons, List.sum_cons, polynomial]
  congr 2
  refine List.mapIdx_eq_mapIdx_iff.mpr fun i _ => ?_
  rw [List.length_cons, Nat.add_sub_cancel, Nat.sub_sub, Nat.add_comm 1 i]

theorem hashFrom_zero (units : List UInt16) : hashFrom 0 units = polynomial units := by
  induction units with
  | nil => rfl
  | cons unit units ih =>
      have hStep : hashFrom 0 (unit :: units) = hashFrom (hashStep 0 unit) units := rfl
      rw [hStep, hashFrom_eq, ih, polynomial_cons, hashStep, Int32.zero_mul, Int32.zero_add]

/-- The hash of a text is the polynomial of its code units, which are those that encode its
characters. In the hash of a concatenation the hash of the first text is shifted by the code units
of the second, two for every character above U+FFFF and one for any other. -/
theorem hash_of_texts (s t : String) :
    textHash (s ++ t) = textHash s * 31 ^ (t.toList.map unitCount).sum + textHash t ∧
      textHash s = polynomial (codeUnits s) ∧
      ∃ parts, List.Forall₂ Encodes s.toList parts ∧ codeUnits s = parts.flatten := by
  refine ⟨?_, hashFrom_zero _, exists_parts s⟩
  calc textHash (s ++ t)
      = hashFrom (textHash s) (codeUnits t) := textHash_append s t
    _ = textHash s * 31 ^ (codeUnits t).length + hashFrom 0 (codeUnits t) := hashFrom_eq _ _
    _ = textHash s * 31 ^ (t.toList.map unitCount).sum + textHash t := by
        rw [length_codeUnits]
        rfl

end Metaobject.Text
