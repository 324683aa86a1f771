/-!
# Finite binary floating-point numbers

The finite numbers of the 64-bit binary format, handled in exact integer arithmetic. A number is a
sign and a *magnitude*: the place of its absolute value among the nonnegative finite numbers in
increasing order, which is also the pattern of its other sixty-three bits. Absolute values are
counted in *units* of `2 ^ (-1074)`, the least positive one, so that every absolute value is a whole
number of units and every product or quotient is a ratio of two whole numbers. Arithmetic rounds
such a ratio once, to the nearest number and halfway cases to an even magnitude.
-/

namespace ChatRelay.Decimal

/-- The quotient rounded to the nearest whole number, and to the even one of two nearest. -/
def roundHalfEven (num den : Nat) : Nat :=
  let q := num / den
  let r := num % den
  if 2 * r > den ∨ (2 * r = den ∧ q % 2 = 1) then q + 1 else q

/-- How many numbers share one exponent. -/
def binade : Nat := Nat.pow 2 52

/-- The magnitude at which the finite numbers end. -/
def magnitudeLimit : Nat := 2047 * binade

/-- A finite number of the 64-bit binary format. -/
structure Binary64 where
  negative : Bool
  magnitude : Nat
  magnitude_lt : magnitude < magnitudeLimit
deriving DecidableEq

namespace Binary64

/-- The units of the number at a magnitude. -/
def unitsAt (magnitude : Nat) : Nat :=
  if magnitude < binade then magnitude
  else (binade + magnitude % binade) * Nat.pow 2 (magnitude / binade - 1)

/-- The absolute value, in units. -/
def units (x : Binary64) : Nat :=
  unitsAt x.magnitude

/-- Zero, with either sign. -/
def zero (negative : Bool) : Binary64 where
  negative := negative
  magnitude := 0
  magnitude_lt := by decide

/-- Whether the number is zero, of either sign. -/
def isZero (x : Binary64) : Bool :=
  x.magnitude == 0

/-- The magnitude nearest to a ratio of units. The quotient is brought below `2 ^ 53` by a power of
two; a quotient that rounds up to `2 ^ 53` is the first magnitude of the next exponent. -/
def magnitudeOfRatio (num den : Nat) : Nat :=
  let shift := (num / den).log2 - 52
  shift * binade + roundHalfEven num (den * Nat.pow 2 shift)

/-- The number nearest to a ratio of units, unless it is out of range. -/
def ofRatio? (negative : Bool) (num den : Nat) : Option Binary64 :=
  if h : magnitudeOfRatio num den < magnitudeLimit then some ⟨negative, _, h⟩ else none

/-- The units of one. -/
def one : Nat := Nat.pow 2 1074

/-- The nonnegative number nearest to a whole number. -/
def ofNat? (n : Nat) : Option Binary64 :=
  ofRatio? false (n * one) 1

/-- The product, unless it is out of range. -/
def mul? (x y : Binary64) : Option Binary64 :=
  ofRatio? (x.negative != y.negative) (x.units * y.units) one

/-- The quotient, unless it is out of range or the divisor is zero. -/
def div? (x y : Binary64) : Option Binary64 :=
  if y.isZero then none else ofRatio? (x.negative != y.negative) (x.units * one) y.units

/-- The same absolute value with a given sign. -/
def withSign (x : Binary64) (negative : Bool) : Binary64 :=
  { x with negative := negative }

end Binary64

end ChatRelay.Decimal
