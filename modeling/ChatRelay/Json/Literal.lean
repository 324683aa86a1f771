import ChatRelay.Json.Value

/-!
# Number literals

A number literal is a sign, the digits before the point, the digits after it, and perhaps an
exponent. A literal without fraction and exponent is a whole number when it fits sixty-four bits,
except that a negative zero is a floating-point number. Every other literal is a floating-point
number: its leading digits that fit sixty-four bits make a significand, the digits left over only
move the exponent, and the significand, rounded once, is multiplied or divided by a power of ten.
-/

namespace ChatRelay.Json

open Decimal (Binary64)

/-- A number as it is written. -/
structure Literal where
  negative : Bool
  whole : List Nat
  fraction : List Nat
  /-- Whether the exponent is negative, and its digits. -/
  exponent : Option (Bool × List Nat)

/-- Takes digits into a significand for as long as it fits sixty-four bits, and returns it with the
digits that are left over. -/
def absorb (significand : Nat) : List Nat → Nat × List Nat
  | [] => (significand, [])
  | d :: ds =>
    if significand * 10 + d < Nat.pow 2 64 then absorb (significand * 10 + d) ds
    else (significand, d :: ds)

/-- The number nearest to a power of ten, for exponents up to 308. -/
def powerOfTen (n : Nat) : Binary64 :=
  (Binary64.ofNat? (Nat.pow 10 n)).getD (.zero false)

/-- The number divided by a power of ten, in steps of at most 308 so that each divisor is finite. -/
def divideByPowerOfTen (x : Binary64) (n : Nat) : Binary64 :=
  if n ≤ 308 then (x.div? (powerOfTen n)).getD (.zero false)
  else if x.isZero then x
  else divideByPowerOfTen ((x.div? (powerOfTen 308)).getD (.zero false)) (n - 308)
termination_by n

/-- A significand scaled by a power of ten, unless the result is out of range. -/
def scaleByPowerOfTen? (significand : Nat) (exponent : Int) : Option Binary64 := do
  let x ← Binary64.ofNat? significand
  if exponent < 0 then some (divideByPowerOfTen x exponent.natAbs)
  else if exponent ≤ 308 then x.mul? (powerOfTen exponent.toNat)
  else if x.isZero then some x
  else none

/-- The whole number that digits make. -/
def digitsValue (digits : List Nat) : Nat :=
  digits.foldl (fun n d => n * 10 + d) 0

/-- The greatest exponent that is carried out; a greater one is out of range unless the significand
is zero, and a smaller one than its negative gives zero. -/
def greatestExponent : Nat := Nat.pow 2 31 - 1

/-- The floating-point number of a literal, unless it is out of range. -/
def Literal.toBinary? (l : Literal) : Option Binary64 :=
  let (whole, wholeLeft) := absorb 0 l.whole
  let (significand, fractionLeft) := absorb whole l.fraction
  let taken := l.fraction.length - fractionLeft.length
  let exponent : Int := wholeLeft.length - (taken : Int)
  let magnitude? : Option Binary64 :=
    match l.exponent with
    | none => scaleByPowerOfTen? significand exponent
    | some (down, digits) =>
      let e := digitsValue digits
      if greatestExponent < e then
        if significand = 0 ∨ down = true then some (.zero false) else none
      else scaleByPowerOfTen? significand (if down then exponent - e else exponent + e)
  magnitude?.map (·.withSign l.negative)

/-- The number of a literal, unless it is out of range. -/
def Literal.toNumber? (l : Literal) : Option Number :=
  match l.fraction, l.exponent with
  | [], none =>
    let n := digitsValue l.whole
    if l.negative then
      if 0 < n ∧ n ≤ Nat.pow 2 63 then some (.whole (-(n : Int)))
      else l.toBinary?.map .binary
    else if n < Nat.pow 2 64 then some (.whole n)
    else l.toBinary?.map .binary
  | _, _ => l.toBinary?.map .binary

end ChatRelay.Json
