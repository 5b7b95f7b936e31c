import Metaobject.Number.Binary

/-!
Decimal text of floating point numbers: the fewest digits that read back as the same number and, of
those, the digits nearest to it, an exact tie going up.

The numbers that read back as a pattern form an interval around its value, ends included when the
significand is even. The search goes through the decimal grids from coarse to fine and looks, in
exact arithmetic, at the two neighbours of the value on each; the first grid with a neighbour inside
the interval gives the digits.
-/
namespace Metaobject.Decimal

/-- A positive fraction. -/
structure Ratio where
  num : Nat
  den : Nat
deriving DecidableEq, Repr

/-- The fraction `m * 2 ^ q`. -/
def Ratio.scaled (m : Nat) (q : Int) : Ratio :=
  if 0 ≤ q then ⟨m * Nat.pow 2 q.toNat, 1⟩ else ⟨m, Nat.pow 2 (-q).toNat⟩

/-- The fraction divided by a power of ten. -/
def Ratio.shift (r : Ratio) (j : Int) : Ratio :=
  if 0 ≤ j then ⟨r.num, r.den * Nat.pow 10 j.toNat⟩
  else ⟨r.num * Nat.pow 10 (-j).toNat, r.den⟩

/-- How far apart two naturals' ratio to a common denominator is, as a natural. -/
def distance (a b : Nat) : Nat :=
  (a - b) + (b - a)

/-- Number of decimal digits of a natural, at least one. -/
def digitCount (n : Nat) : Nat :=
  (Nat.toDigits 10 n).length

/-- The exponent `k` with `10 ^ (k - 1) ≤ r < 10 ^ k`. -/
def magnitude (r : Ratio) : Int :=
  if r.den ≤ r.num then digitCount (r.num / r.den)
  else 1 - (digitCount ((r.den - 1) / r.num) : Int)

/-- A decimal number `coefficient * 10 ^ exponent`. -/
structure Scientific where
  coefficient : Nat
  exponent : Int
deriving DecidableEq, Repr

/-- The values that read back as one number: between the ends, which belong to it or not. -/
structure Interval where
  lower : Ratio
  value : Ratio
  upper : Ratio
  closed : Bool
deriving DecidableEq, Repr

/-- The interval around `m * 2 ^ q`. It is narrower below where the unit halves, which is so when
`m` is the least significand of its unit and a smaller unit exists. -/
def Interval.around (m : Nat) (q : Int) (narrowBelow : Bool) : Interval where
  lower := .scaled (4 * m - if narrowBelow then 1 else 2) (q - 2)
  value := .scaled (4 * m) (q - 2)
  upper := .scaled (4 * m + 2) (q - 2)
  closed := m % 2 == 0

/-- The decimal at grid `10 ^ j` nearest to the value, if one of its two neighbours there is in the
interval. -/
def Interval.onGrid? (i : Interval) (j : Int) : Option Scientific :=
  let lower := i.lower.shift j
  let value := i.value.shift j
  let upper := i.upper.shift j
  let below := value.num / value.den
  let above := below + 1
  let belowFits :=
    if i.closed then lower.num ≤ below * lower.den else lower.num < below * lower.den
  let aboveFits :=
    if i.closed then above * upper.den ≤ upper.num else above * upper.den < upper.num
  let aboveNearer := value.den ≤ 2 * (value.num % value.den)
  if belowFits && !(aboveFits && aboveNearer) then some ⟨below, j⟩
  else if aboveFits then some ⟨above, j⟩
  else none

/-- The first grid from `10 ^ j` downwards that has a decimal of the interval, looking at no more
than `grids` of them; the finest one's lower neighbour where none has. -/
def Interval.search (i : Interval) : Nat → Int → Scientific
  | 0, j => ⟨(i.value.shift j).num / (i.value.shift j).den, j⟩
  | grids + 1, j => (i.onGrid? j).getD (i.search grids (j - 1))

/-- The shortest decimal of the interval. Seventeen digits tell any two numbers of the formats used
here apart. -/
def Interval.shortest (i : Interval) : Scientific :=
  i.search 18 (magnitude i.value - 1)

/-- Digits without trailing zeros, and the place of the decimal point counted from their left. -/
structure Digits where
  digits : List Char
  point : Int
deriving DecidableEq, Repr

/-- The digits of a decimal. -/
def Scientific.toDigits (s : Scientific) : Digits where
  digits := ((Nat.toDigits 10 s.coefficient).reverse.dropWhile (· == '0')).reverse
  point := (digitCount s.coefficient : Int) + s.exponent

/-- Magnitudes from `10 ^ -4` to below `10 ^ 16` are written with all their places, and always with
a point. Others have one digit in front of the point and an exponent; a point without digits behind
it and the sign of a positive exponent are left out. -/
def Digits.text (d : Digits) : String :=
  let n : Int := d.digits.length
  if -3 ≤ d.point ∧ d.point ≤ 16 then
    if d.point ≤ 0 then
      "0." ++ String.ofList (List.replicate (-d.point).toNat '0' ++ d.digits)
    else if n ≤ d.point then
      String.ofList (d.digits ++ List.replicate (d.point - n).toNat '0') ++ ".0"
    else
      String.ofList (d.digits.take d.point.toNat) ++ "." ++
        String.ofList (d.digits.drop d.point.toNat)
  else
    let fraction := d.digits.drop 1
    String.ofList (d.digits.take 1) ++
      (if fraction.isEmpty then "" else "." ++ String.ofList fraction) ++ "e" ++
      toString (d.point - 1)

end Metaobject.Decimal

namespace Metaobject

namespace Binary

variable {f : FloatFormat}

/-- The interval of values that read back as a finite pattern other than zero. -/
def interval (significand : Nat) (unit : Int) (f : FloatFormat) : Decimal.Interval :=
  .around significand unit (significand == Nat.pow 2 f.fraction && f.lowestUnit < unit)

/-- Decimal text of a number. -/
def text (x : Binary f) : String :=
  match x.reading with
  | .notANumber => "NaN"
  | .infinite negative => if negative then "-inf" else "inf"
  | .finite negative significand unit =>
    (if negative then "-" else "") ++
      if significand = 0 then "0.0" else (interval significand unit f).shortest.toDigits.text

/-! The fewest digits, on both sides of where an exponent begins, and the zeros. -/

example : (⟨0x3FB999999999999A⟩ : Binary .double).text = "0.1" := by decide +kernel

example : (⟨0x3DCCCCCD⟩ : Binary .single).text = "0.1" := by decide +kernel

example : (⟨0x3F1A36E2EB1C432D⟩ : Binary .double).text = "0.0001" := by decide +kernel

example : (⟨0x3F1A36E2EB1C432C⟩ : Binary .double).text = "9.999999999999999e-5" := by
  decide +kernel

example : (⟨0x4341C37937E07FFF⟩ : Binary .double).text = "9999999999999998.0" := by
  decide +kernel

example : (⟨0x4341C37937E08000⟩ : Binary .double).text = "1e16" := by decide +kernel

example : (⟨1⟩ : Binary .double).text = "5e-324" := by decide +kernel

example : (⟨0x8000000000000000⟩ : Binary .double).text = "-0.0" := by decide +kernel

end Binary

end Metaobject
