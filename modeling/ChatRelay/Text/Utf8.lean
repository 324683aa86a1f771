/-!
# UTF-8

Text travels as bytes. Encoding is the standard one. Decoding never fails: each maximal part of the
bytes that begins a character but does not finish it, and each byte that begins none, is read as the
replacement character U+FFFD. The decoder takes one byte at a time, so that bytes may arrive in any
pieces, and it holds at most one unfinished character.
-/

namespace ChatRelay.Text

/-- The UTF-8 bytes of a text. -/
def utf8 (s : List Char) : List UInt8 :=
  s.flatMap String.utf8EncodeChar

/-- The character that stands for bytes that are no character. -/
def replacement : Char := '\uFFFD'

/-- A character of which some bytes have arrived: how many are still owed, the range the next one
must lie in, and the bits collected so far. -/
structure Unfinished where
  owed : Nat
  low : UInt8
  high : UInt8
  bits : Nat

/-- What a byte means where a character may begin: the characters it completes, and the character
it leaves unfinished. -/
def beginCharacter (b : UInt8) : List Char × Option Unfinished :=
  if b < 0x80 then ([Char.ofNat b.toNat], none)
  else if 0xC2 ≤ b ∧ b ≤ 0xDF then ([], some ⟨1, 0x80, 0xBF, b.toNat - 0xC0⟩)
  else if b = 0xE0 then ([], some ⟨2, 0xA0, 0xBF, 0⟩)
  else if b = 0xED then ([], some ⟨2, 0x80, 0x9F, 0xD⟩)
  else if 0xE1 ≤ b ∧ b ≤ 0xEF then ([], some ⟨2, 0x80, 0xBF, b.toNat - 0xE0⟩)
  else if b = 0xF0 then ([], some ⟨3, 0x90, 0xBF, 0⟩)
  else if 0xF1 ≤ b ∧ b ≤ 0xF3 then ([], some ⟨3, 0x80, 0xBF, b.toNat - 0xF0⟩)
  else if b = 0xF4 then ([], some ⟨3, 0x80, 0x8F, 4⟩)
  else ([replacement], none)

/-- One byte after what has been read: a byte that does not continue the unfinished character ends
it with a replacement and is then read on its own. -/
def takeByte (u : Option Unfinished) (b : UInt8) : List Char × Option Unfinished :=
  match u with
  | none => beginCharacter b
  | some u =>
    if u.low ≤ b ∧ b ≤ u.high then
      let bits := u.bits * 64 + (b.toNat - 0x80)
      if u.owed ≤ 1 then ([Char.ofNat bits], none)
      else ([], some ⟨u.owed - 1, 0x80, 0xBF, bits⟩)
    else
      let (cs, v) := beginCharacter b
      (replacement :: cs, v)

/-- The text of bytes that follow an unfinished character. -/
def decodeFrom : Option Unfinished → List UInt8 → List Char
  | none, [] => []
  | some _, [] => [replacement]
  | u, b :: bs => (takeByte u b).1 ++ decodeFrom (takeByte u b).2 bs

/-- The text that bytes hold, with replacements for what is no character. -/
def decode (bytes : List UInt8) : List Char :=
  decodeFrom none bytes

end ChatRelay.Text
