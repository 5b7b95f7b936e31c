/-!
Sixteen bit code units of a text, and the polynomial hash over them. A character above U+FFFF takes
two units, a high and a low surrogate. The hash is the value at 31 of the polynomial whose
coefficients are the units, the first unit leading, in wrapping 32 bit arithmetic; the hash of a
concatenation follows from the hashes of its parts (`textHash_append`).
-/
namespace Metaobject.Text

/-- The code units of one character. -/
def charUnits (c : Char) : List UInt16 :=
  if c.val < 0x10000 then [c.val.toUInt16]
  else
    let rest : UInt32 := c.val - 0x10000
    [(0xD800 : UInt16) + (rest >>> 10).toUInt16, (0xDC00 : UInt16) + (rest &&& 0x3FF).toUInt16]

/-- The code units of a text, in order. -/
def codeUnits (s : String) : List UInt16 :=
  s.toList.flatMap charUnits

/-- One step of the hash: shift by 31 and add a unit. -/
def hashStep (h : Int32) (unit : UInt16) : Int32 :=
  h * 31 + Int32.ofNat unit.toNat

/-- Hash of a sequence of code units, continuing from a start value. -/
def hashFrom (start : Int32) (units : List UInt16) : Int32 :=
  units.foldl hashStep start

/-- Hash of a text. -/
def textHash (s : String) : Int32 :=
  hashFrom 0 (codeUnits s)

theorem codeUnits_append (s t : String) : codeUnits (s ++ t) = codeUnits s ++ codeUnits t := by
  simp [codeUnits]

theorem hashFrom_append (start : Int32) (us vs : List UInt16) :
    hashFrom start (us ++ vs) = hashFrom (hashFrom start us) vs := by
  simp [hashFrom]

theorem textHash_append (s t : String) :
    textHash (s ++ t) = hashFrom (textHash s) (codeUnits t) := by
  rw [textHash, codeUnits_append, hashFrom_append, textHash]

/-- Hash of the name of a member, as it enters the hash of an instance. -/
def memberHash (name : String) : Int32 :=
  127 * textHash name

end Metaobject.Text
