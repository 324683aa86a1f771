import ChatRelay.Decimal.Binary64

/-!
# Shortest decimal text

A finite number is written with the fewest significant digits that read back as that number, and
among those with the digits nearest to it. A decimal reads back as the number when it lies in the
interval of reals that round to it: between the midpoints to its two neighbours, the midpoints
themselves included exactly when its magnitude is even. For each digit count from one to seventeen
the two nearest decimals with that many digits are tried; the first count with a hit decides.
-/

namespace ChatRelay.Decimal

/-- A positive decimal: the whole number `digits` times ten to the power `exponent`. -/
structure Digits where
  digits : Nat
  exponent : Int

/-- The number of decimal digits of a whole number. -/
def decimalLength (n : Nat) : Nat :=
  (Nat.toDigits 10 n).length

/-- The exponent `p` with `10 ^ (p - 1) ≤ u / v < 10 ^ p`, for positive `u` and `v`. -/
def decimalExponent (u v : Nat) : Int :=
  if v ≤ u then decimalLength (u / v)
  else 1 - (decimalLength ((v + u - 1) / u - 1) : Int)

/-- The ratio of `digits * 10 ^ exponent` to `1 / scale`, as two whole numbers. -/
def Digits.ratio (d : Digits) (scale : Nat) : Nat × Nat :=
  if 0 ≤ d.exponent then (d.digits * Nat.pow 10 d.exponent.toNat * scale, 1)
  else (d.digits * scale, Nat.pow 10 (-d.exponent).toNat)

/-- Whether the decimal reads back as the number at a positive magnitude. -/
def Digits.readsAs (d : Digits) (magnitude : Nat) : Bool :=
  let u := Binary64.unitsAt magnitude
  let low := Binary64.unitsAt (magnitude - 1) + u
  let high := u + Binary64.unitsAt (magnitude + 1)
  let (num, den) := d.ratio (2 * Binary64.one)
  if magnitude % 2 = 0 then low * den ≤ num && num ≤ high * den
  else low * den < num && num < high * den

/-- The nearest decimal with `count` digits that reads back as the number at a positive
magnitude, if there is one; of two equally near, the one with the even last digit. -/
def digitsOfCount? (magnitude count : Nat) : Option Digits :=
  let u := Binary64.unitsAt magnitude
  let exponent := decimalExponent u Binary64.one - count
  let (num, den) :=
    if 0 ≤ exponent then (u, Binary64.one * Nat.pow 10 exponent.toNat)
    else (u * Nat.pow 10 (-exponent).toNat, Binary64.one)
  let below : Digits := ⟨num / den, exponent⟩
  let above : Digits := ⟨num / den + 1, exponent⟩
  let remainder := num % den
  let belowIsNearer :=
    2 * remainder < den || (2 * remainder == den && below.digits % 2 == 0)
  match below.readsAs magnitude, above.readsAs magnitude with
  | true, true => some (if belowIsNearer then below else above)
  | true, false => some below
  | false, true => some above
  | false, false => none

/-- The shortest decimal of the number at a positive magnitude. Seventeen digits always read back.
-/
def shortest (magnitude : Nat) : Digits :=
  ((List.range 17).findSome? fun i => digitsOfCount? magnitude (i + 1)).getD ⟨0, 0⟩

/-- How a decimal is laid out: the exponents of the leading digit for which it is written in full.
-/
structure Layout where
  leastPositional : Int
  greatestPositional : Int

/-- A sign and digits in the positional form, with at least one digit after the point. -/
def positional (digits : List Char) (exponent : Int) : List Char :=
  let whole : Int := digits.length + exponent
  if 0 ≤ exponent then digits ++ List.replicate exponent.toNat '0' ++ ['.', '0']
  else if 0 < whole then digits.take whole.toNat ++ '.' :: digits.drop whole.toNat
  else '0' :: '.' :: List.replicate (-whole).toNat '0' ++ digits

/-- Digits in the form with one digit before the point and an exponent that always has a sign. -/
def scientific (digits : List Char) (exponent : Int) : List Char :=
  let fraction := digits.drop 1
  let leading : Int := digits.length - 1 + exponent
  digits.take 1 ++ (if fraction.isEmpty then [] else '.' :: fraction) ++
    ['e', if leading < 0 then '-' else '+'] ++ Nat.toDigits 10 leading.natAbs

/-- The text of a finite number in a layout. -/
def Layout.render (layout : Layout) (x : Binary64) : List Char :=
  let sign := if x.negative then ['-'] else []
  if x.isZero then sign ++ ['0', '.', '0']
  else
    let d := shortest x.magnitude
    let padded := Nat.toDigits 10 d.digits
    let digits := (padded.reverse.dropWhile (· == '0')).reverse
    let exponent := d.exponent + (padded.length - digits.length : Nat)
    let leading : Int := digits.length - 1 + exponent
    sign ++
      if layout.leastPositional ≤ leading ∧ leading ≤ layout.greatestPositional then
        positional digits exponent
      else scientific digits exponent

end ChatRelay.Decimal
