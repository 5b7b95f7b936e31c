import Metaobject.Toml.Value

/-!
Numbers, booleans, dates and times of TOML. Each is a run of letters, digits and a few signs, which
is read as a whole; only a date and a time may have one blank between them. An integer has to fit in
64 bits, a float may not round to positive infinity, and a date has to be in the calendar.
-/
namespace Metaobject.Toml

/-- The number that decimal digits stand for. -/
def decimal? (n : Nat) : List Char → Option Nat
  | [] => some n
  | c :: r => if c.isDigit then decimal? (10 * n + (c.toNat - 0x30)) r else none

/-- The value of a digit in a base up to sixteen. -/
def digitIn? (base : Nat) (c : Char) : Option Nat :=
  if c.isDigit then (if c.toNat - 0x30 < base then some (c.toNat - 0x30) else none)
  else if base = 16 then
    if 'a' ≤ c && c ≤ 'f' then some (c.toNat - 0x57)
    else if 'A' ≤ c && c ≤ 'F' then some (c.toNat - 0x37)
    else none
  else none

/-- The number of digits in a base, with single underscores between them. A digit has to come next
at the front and behind an underscore. -/
def digits? (base : Nat) (wanted : Bool) (n : Nat) : List Char → Option Nat
  | [] => if wanted then none else some n
  | '_' :: r => if wanted then none else digits? base true n r
  | c :: r => (digitIn? base c).bind fun d => digits? base false (base * n + d) r

/-- The part of a sign, and what stands behind it. -/
def splitSign : List Char → Bool × List Char
  | '-' :: r => (true, r)
  | '+' :: r => (false, r)
  | s => (false, s)

/-- A decimal integer without sign: no zero in front of other digits. -/
def plainInteger? (s : List Char) : Option Nat :=
  match s with
  | '0' :: _ :: _ => none
  | _ => digits? 10 true 0 s

/-- An integer in 64 bits. -/
def integer? (s : List Char) : Option Int :=
  let unsigned (n : Option Nat) : Option Int :=
    n.bind fun n => if n < Nat.pow 2 63 then some (n : Int) else none
  match s with
  | '0' :: 'x' :: r => unsigned (digits? 16 true 0 r)
  | '0' :: 'o' :: r => unsigned (digits? 8 true 0 r)
  | '0' :: 'b' :: r => unsigned (digits? 2 true 0 r)
  | s =>
    let (negative, r) := splitSign s
    (plainInteger? r).bind fun n =>
      if negative then if n ≤ Nat.pow 2 63 then some (-(n : Int)) else none
      else if n < Nat.pow 2 63 then some (n : Int) else none

/-- A power of ten times a natural rounds to infinity in 64 bits. The number of its digits decides
except near the limit, so that no power is taken that is much longer than the digits. -/
def overflows (m : Nat) (e : Int) : Bool :=
  let places := (Nat.toDigits 10 m).length + e
  if m = 0 || places < 309 then false
  else if 309 < places then true
  else if e < 0 then decide ((Nat.pow 2 1024 - Nat.pow 2 970) * Nat.pow 10 (-e).toNat ≤ m)
  else decide (Nat.pow 2 1024 - Nat.pow 2 970 ≤ m * Nat.pow 10 e.toNat)

example : overflows 17976931348623158079 289 = false ∧
    overflows 1797693134862315808 290 = true ∧
    overflows 1 (-99999999999) = false ∧ overflows 0 99999999999 = false := by
  decide +kernel

/-- The size of an exponent. Its digits count until they have taken it to 2 ^ 16, where every power
of ten is far out of range; the digits behind are dropped. -/
def exponentSize (s : List Char) : Nat :=
  s.foldl (fun n c => if c.isDigit && n < Nat.pow 2 16 then 10 * n + (c.toNat - 0x30) else n) 0

example : exponentSize ['0', '3', '_', '0', '8'] = 308 ∧
    exponentSize ['6', '5', '5', '3', '5', '9', '9'] = 655359 := by
  decide +kernel

/-- A float: an integer with a fraction, an exponent, or both. -/
def isFloat (s : List Char) : Bool :=
  let (negative, r) := splitSign s
  if r = ['i', 'n', 'f'] || r = ['n', 'a', 'n'] then true
  else
    let isDigitLike c := Char.isDigit c || c == '_'
    let whole := r.takeWhile isDigitLike
    let behind := r.dropWhile isDigitLike
    let (fraction?, tail) : Option (List Char) × List Char :=
      match behind with
      | '.' :: t => (some (t.takeWhile isDigitLike), t.dropWhile isDigitLike)
      | t => (none, t)
    let exponent? : Option (List Char) :=
      match tail with
      | 'e' :: t => some t
      | 'E' :: t => some t
      | _ => none
    let fractionValue? : Option (Nat × Nat) :=
      match fraction? with
      | none => some (0, 0)
      | some t => (digits? 10 true 0 t).map fun n => (n, (t.filter Char.isDigit).length)
    let exponentValue? : Option Int :=
      match exponent? with
      | none => if tail.isEmpty && fraction?.isSome then some 0 else none
      | some t =>
        let (down, t) := splitSign t
        (digits? 10 true 0 t).map fun _ =>
          if down then -(exponentSize t : Int) else exponentSize t
    match plainInteger? whole, fractionValue?, exponentValue? with
    | some n, some (f, places), some e =>
      negative || !overflows (n * Nat.pow 10 places + f) (e - places)
    | _, _, _ => false

/-- The number of days of a month. -/
def daysIn (year month : Nat) : Nat :=
  if month = 2 then
    if year % 4 = 0 && (year % 100 != 0 || year % 400 = 0) then 29 else 28
  else if month = 4 || month = 6 || month = 9 || month = 11 then 30
  else 31

/-- A date at the front of a text, and the text behind it. -/
def readDate : List Char → Option (List Char)
  | a :: b :: c :: d :: '-' :: e :: f :: '-' :: g :: h :: r =>
    match decimal? 0 [a, b, c, d], decimal? 0 [e, f], decimal? 0 [g, h] with
    | some year, some month, some day =>
      if 1 ≤ month && month ≤ 12 && 1 ≤ day && day ≤ daysIn year month then some r else none
    | _, _, _ => none
  | _ => none

/-- Hours and minutes at the front of a text, and the text behind them. -/
def readMinutes : List Char → Option (List Char)
  | a :: b :: ':' :: c :: d :: r =>
    match decimal? 0 [a, b], decimal? 0 [c, d] with
    | some hour, some minute => if hour ≤ 23 && minute ≤ 59 then some r else none
    | _, _ => none
  | _ => none

/-- A time at the front of a text, and the text behind it. A leap second is allowed. -/
def readTime (s : List Char) : Option (List Char) :=
  match readMinutes s with
  | some (':' :: a :: b :: r) =>
    match decimal? 0 [a, b] with
    | some second =>
      if second ≤ 60 then
        match r with
        | '.' :: t =>
          if (t.takeWhile Char.isDigit).isEmpty then none else some (t.dropWhile Char.isDigit)
        | t => some t
      else none
    | none => none
  | _ => none

/-- The offset of a time from universal time, or nothing. -/
def isOffset : List Char → Bool
  | [] => true
  | ['Z'] => true
  | ['z'] => true
  | '+' :: r => readMinutes r == some []
  | '-' :: r => readMinutes r == some []
  | _ => false

/-- A date, a time, or a date with a time behind a letter T or a blank. -/
def isDateTime (s : List Char) : Bool :=
  match readDate s with
  | some [] => true
  | some (c :: r) =>
    (c == 'T' || c == 't' || c == ' ') &&
      match readTime r with
      | some offset => isOffset offset
      | none => false
  | none => readTime s == some []

/-- A character of a number, boolean, date or time. -/
def isScalarChar (c : Char) : Bool :=
  c.isAlphanum || c == '_' || c == '+' || c == '-' || c == '.' || c == ':'

/-- The value that a whole run of characters stands for. -/
def scalar? (s : List Char) : Option Value :=
  if s = ['t', 'r', 'u', 'e'] then some (.boolean true)
  else if s = ['f', 'a', 'l', 's', 'e'] then some (.boolean false)
  else
    match integer? s with
    | some n => some (.integer n)
    | none =>
      if isFloat s then some (.float (String.ofList s))
      else if isDateTime s then some (.dateTime (String.ofList s))
      else none

/-- The run of characters at the front of a text that a scalar is read from. It goes on behind a
blank where a date stands in front of the blank and a digit behind it. -/
def scalarRun (s : List Char) : List Char × List Char :=
  let run := s.takeWhile isScalarChar
  let behind := s.dropWhile isScalarChar
  match readDate run, behind with
  | some [], ' ' :: c :: r =>
    if c.isDigit then
      (run ++ ' ' :: (c :: r).takeWhile isScalarChar, (c :: r).dropWhile isScalarChar)
    else (run, behind)
  | _, _ => (run, behind)

/-- A number, boolean, date or time. -/
def readScalar : Reader Value := fun s =>
  let (run, r) := scalarRun s
  (scalar? run).map fun v => (v, r)

end Metaobject.Toml
