import ChatRelay.Text.Hex
import ChatRelay.Toml.Value

/-!
# TOML numbers

A number is one word. Its form is judged when it is read: where its digits, its point, its exponent
and its underscores may stand. What number it stands for is found out apart from that, so that a
word may have the form of a number and stand for none: a number that no 128 bits hold, a
floating-point number that is out of range, a base without digits, or an underscore that is followed
by anything but decimal digits.
-/

namespace ChatRelay.Toml

open Decimal (Binary64)

/-- Whether a character is a decimal digit. -/
def isDigit (c : Char) : Bool := '0' ≤ c && c ≤ '9'

/-- Whether a character is a digit of a base. -/
def isDigitOf (base : Nat) (c : Char) : Bool := (Text.hexValue? c).any (· < base)

/-- The number that digits of a base make. -/
def digitsValue (base : Nat) (digits : List Char) : Nat :=
  digits.foldl (fun n c => n * base + (Text.hexValue? c).getD 0) 0

/-- A word without its sign, and the sign if it has one. -/
def signed : List Char → Option Char × List Char
  | '-' :: rest => (some '-', rest)
  | '+' :: rest => (some '+', rest)
  | s => (none, s)

/-- Whether each underscore of a word stands between two characters that pass a test. -/
def underscoresFit (accepts : Char → Bool) : List Char → Bool
  | [] => true
  | '_' :: _ => false
  | c :: '_' :: rest => accepts c && rest.head?.any accepts && underscoresFit accepts rest
  | _ :: rest => underscoresFit accepts rest

/-- Whether the underscores of a decimal number fit. Right after a sign, one may stand before the
first digit. -/
def underscoresFitAfter (sign : Option Char) (accepts : Char → Bool) (s : List Char) : Bool :=
  match sign, s with
  | some _, '_' :: rest => rest.head?.any accepts && underscoresFit accepts rest
  | _, s => underscoresFit accepts s

/-- A word without its underscores. -/
def withoutUnderscores (s : List Char) : List Char := s.filter (· != '_')

/-! ### Whole numbers -/

/-- What stands for a number that is out of the reach of every setting, so that only its kind
counts. -/
def remoteNumber : Json.Number := .binary (.zero false)

/-- A whole number, if it fits 128 bits with or without a sign. -/
def wholeNumber? (i : Int) : Option Json.Number :=
  let fits (bits : Nat) : Bool := -(Nat.pow 2 (bits - 1) : Int) ≤ i && i < (Nat.pow 2 bits : Int)
  if fits 64 then some (.whole i)
  else if fits 128 then some remoteNumber
  else none

/-- The number that a sign and decimal digits stand for. -/
def decimalNumber? (sign : Option Char) (digits : List Char) : Option Json.Number :=
  if digits.isEmpty || !digits.all isDigit then none
  else
    let n : Int := digitsValue 10 digits
    wholeNumber? (if sign = some '-' then -n else n)

/-- A whole number of a base other than ten, after the two characters that name the base. -/
def basedNumber? (base : Nat) (s : List Char) : Option Value :=
  if s.all (fun c => isDigitOf base c || c = '_') && underscoresFit (isDigitOf base) s then
    let digits := withoutUnderscores s
    some (.number (if digits.isEmpty then none else wholeNumber? (digitsValue base digits)))
  else none

/-! ### Floating-point numbers -/

/-- Whether a character makes a number a floating-point number. -/
def marksFloat (c : Char) : Bool := c = '.' || c = 'e' || c = 'E'

/-- The digits and underscores at the beginning of a text, and the rest. -/
def digitRun (s : List Char) : List Char × List Char :=
  let inRun (c : Char) : Bool := isDigit c || c = '_'
  (s.takeWhile inRun, s.dropWhile inRun)

/-- The number with a sign, digits before and after the point, and an exponent of ten, unless it is
out of range. Beyond 400 places the exact exponent no longer matters. -/
def floatNumber? (sign : Option Char) (whole fraction : List Char) (exponent : Int) :
    Option Json.Number :=
  let digits := (whole ++ fraction).dropWhile (· = '0')
  let scale := exponent - fraction.length
  let places := digits.length + scale
  let negative : Bool := sign = some '-'
  if digits.isEmpty || places < -400 then some (.binary (.zero negative))
  else if 400 < places then none
  else
    let n := digitsValue 10 digits
    let up := Nat.pow 10 scale.toNat
    let down := Nat.pow 10 (-scale).toNat
    (Binary64.ofRatio? negative (n * up * Binary64.one) down).map .binary

/-- A floating-point number, of a word without its sign. Its exponent may have a sign of its own. -/
def float? (sign : Option Char) (s : List Char) : Option Value := do
  let (whole, rest) := digitRun s
  let (hasFraction, fraction, rest) := match rest with
    | '.' :: rest => (true, digitRun rest)
    | _ => (false, [], rest)
  let (exponentSign?, exponent, rest) := match rest with
    | 'e' :: rest | 'E' :: rest =>
      let (exponentSign, rest) := signed rest
      (some exponentSign, digitRun rest)
    | _ => (none, [], rest)
  let hasDigit (s : List Char) : Bool := s.any isDigit
  let wholeDigits := withoutUnderscores whole
  let leadingZero := whole.head? = some '0' && wholeDigits.length ≠ 1
  guard (rest.isEmpty && hasDigit whole && !leadingZero)
  guard (!hasFraction || hasDigit fraction)
  guard (exponentSign?.isNone || hasDigit exponent)
  guard (underscoresFitAfter sign isDigit s)
  let size : Int := digitsValue 10 (withoutUnderscores exponent)
  let e := if exponentSign? = some (some '-') then -size else size
  return .number (floatNumber? sign wholeDigits (withoutUnderscores fraction) e)

/-! ### Words -/

/-- A number in decimal digits, of a word without its sign. -/
def decimal? (sign : Option Char) (s : List Char) : Option Value :=
  let rest := s.dropWhile isDigit
  if rest.any marksFloat then float? sign s
  else if rest.isEmpty || rest.head? = some '_' then
    if (s.head? = some '0' && s ≠ ['0']) || !underscoresFitAfter sign (isDigitOf 16) s then none
    else some (.number (decimalNumber? sign (withoutUnderscores s)))
  else none

/-- The number of a word that has the form of one. Only a decimal number may have a sign. -/
def number? (s : List Char) : Option Value :=
  let (sign, body) := signed s
  match sign, body with
  | none, '0' :: 'x' :: digits => basedNumber? 16 digits
  | none, '0' :: 'o' :: digits => basedNumber? 8 digits
  | none, '0' :: 'b' :: digits => basedNumber? 2 digits
  | _, _ =>
    if body = "inf".toList ∨ body = "nan".toList then some (.number (some remoteNumber))
    else if body.isEmpty then none
    else decimal? sign body

end ChatRelay.Toml
