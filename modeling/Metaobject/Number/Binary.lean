/-!
Binary floating point numbers of a fixed format, held as their bit pattern: a sign bit, a biased
exponent and a fraction. A pattern with all exponent bits set is infinite when its fraction is zero
and otherwise not a number. Every other pattern stands for `m * 2 ^ q` with the integers given by
`reading`, and `ofScaled` rounds such a product to the nearest pattern, a tie to the even one.
-/
namespace Metaobject

/-- Widths of the fraction and exponent fields. -/
structure FloatFormat where
  fraction : Nat
  exponent : Nat
deriving DecidableEq, Repr

namespace FloatFormat

/-- The 32 bit format. -/
def single : FloatFormat := ⟨23, 8⟩

/-- The 64 bit format. -/
def double : FloatFormat := ⟨52, 11⟩

/-- All bits of a number: sign, exponent, fraction. -/
def width (f : FloatFormat) : Nat :=
  1 + f.exponent + f.fraction

/-- The exponent field of infinities and of patterns that are not numbers. -/
def topExponent (f : FloatFormat) : Nat :=
  Nat.pow 2 f.exponent - 1

/-- Power of two that one unit in the last place has for the smallest numbers. -/
def lowestUnit (f : FloatFormat) : Int :=
  2 - (Nat.pow 2 (f.exponent - 1) : Int) - (f.fraction : Int)

end FloatFormat

/-- A floating point number by its bits. -/
structure Binary (f : FloatFormat) where
  bits : BitVec f.width
deriving DecidableEq

/-- What a pattern stands for. A finite one is `significand * 2 ^ unit`, up to its sign. -/
inductive FloatReading where
  | notANumber
  | infinite (negative : Bool)
  | finite (negative : Bool) (significand : Nat) (unit : Int)
deriving DecidableEq, Repr

namespace Binary

variable {f : FloatFormat}

/-- The pattern with these fields, each cut to its width. -/
def ofFields (negative : Bool) (exponent fraction : Nat) : Binary f :=
  let sign := if negative then Nat.pow 2 (f.exponent + f.fraction) else 0
  ⟨BitVec.ofNat f.width (sign + exponent * Nat.pow 2 f.fraction + fraction)⟩

/-- The sign bit is set. -/
def isNegative (x : Binary f) : Bool :=
  x.bits.toNat / Nat.pow 2 (f.exponent + f.fraction) % 2 == 1

/-- The biased exponent. -/
def exponentField (x : Binary f) : Nat :=
  x.bits.toNat / Nat.pow 2 f.fraction % Nat.pow 2 f.exponent

/-- The stored fraction. -/
def fractionField (x : Binary f) : Nat :=
  x.bits.toNat % Nat.pow 2 f.fraction

/-- The pattern is not a number. -/
def isNaN (x : Binary f) : Bool :=
  x.exponentField == f.topExponent && x.fractionField != 0

/-- The one pattern that stands for all that are not numbers: positive, top fraction bit set. -/
def quietNaN : Binary f :=
  ofFields false f.topExponent (Nat.pow 2 (f.fraction - 1))

/-- The pattern by which numbers are compared and hashed: their own, and one for all that are not
numbers. So a pattern that is not a number equals every other, and the two zeros differ. -/
def canonical (x : Binary f) : Binary f :=
  if x.isNaN then quietNaN else x

/-- What the pattern stands for. -/
def reading (x : Binary f) : FloatReading :=
  if x.exponentField = f.topExponent then
    if x.fractionField = 0 then .infinite x.isNegative else .notANumber
  else if x.exponentField = 0 then
    .finite x.isNegative x.fractionField f.lowestUnit
  else
    .finite x.isNegative (Nat.pow 2 f.fraction + x.fractionField)
      (f.lowestUnit + (x.exponentField : Int) - 1)

/-- The quotient of two naturals to the nearest integer, a tie to the even one. -/
def divNearestEven (n d : Nat) : Nat :=
  let q := n / d
  let r := n % d
  if 2 * r < d then q
  else if d < 2 * r then q + 1
  else q + q % 2

/-- The number nearest to `m * 2 ^ q`, a tie going to the even significand; too large a product
becomes infinite. -/
def ofScaled (f : FloatFormat) (negative : Bool) (m : Nat) (q : Int) : Binary f :=
  if m = 0 then ofFields negative 0 0
  else
    let exact := q + ((m.log2 : Int) - (f.fraction : Int))
    let unit := max exact f.lowestUnit
    let significand :=
      if unit ≤ q then m * Nat.pow 2 (q - unit).toNat
      else divNearestEven m (Nat.pow 2 (unit - q).toNat)
    if significand < Nat.pow 2 f.fraction then ofFields negative 0 significand
    else
      let exponent := (unit - f.lowestUnit).toNat + 1
      let fields := exponent * Nat.pow 2 f.fraction + (significand - Nat.pow 2 f.fraction)
      if f.topExponent * Nat.pow 2 f.fraction ≤ fields then ofFields negative f.topExponent 0
      else ofFields negative 0 fields

/-- The number nearest to an integer. -/
def ofInt (f : FloatFormat) (n : Int) : Binary f :=
  ofScaled f (n < 0) n.natAbs 0

/-- The same number in another format, to the nearest where it does not fit. -/
def convert (g : FloatFormat) (x : Binary f) : Binary g :=
  match x.reading with
  | .notANumber => quietNaN
  | .infinite negative => ofFields negative g.topExponent 0
  | .finite negative m q => ofScaled g negative m q

/-- Positive zero. -/
def zero : Binary f :=
  ofFields false 0 0

@[simp]
theorem canonical_of_not_isNaN {x : Binary f} (h : x.isNaN = false) :
    x.canonical = x := by
  simp [canonical, h]

end Binary

/-- Numbers of the 32 bit format. -/
abbrev Binary32 := Binary .single

/-- Numbers of the 64 bit format. -/
abbrev Binary64 := Binary .double

end Metaobject
