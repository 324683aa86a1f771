import ChatRelay.Text.Utf8
import Mathlib.Tactic.SplitIfs

/-!
# Decoding what was encoded

A character is encoded as a first byte, which says how many more bytes there are and in which range
the next one lies, and bytes of six bits each. The decoder reads these bytes back as the character,
whatever follows them, so that an encoded text is read back in front of any other bytes
(`decode_utf8_append`).
-/

namespace ChatRelay.Text

/-! ### One byte -/

/-- Bytes are decoded one after another. -/
theorem decodeFrom_cons (u : Option Unfinished) (b : UInt8) (bs : List UInt8) :
    decodeFrom u (b :: bs) = (takeByte u b).1 ++ decodeFrom (takeByte u b).2 bs := by
  cases u <;> rfl

/-- What a byte begins, by its number. -/
theorem beginCharacter_ofNat {n : Nat} (hn : n < 256) :
    beginCharacter (.ofNat n) =
      if n < 0x80 then ([Char.ofNat n], none)
      else if n < 0xC2 then ([replacement], none)
      else if n ≤ 0xDF then ([], some ⟨1, 0x80, 0xBF, n - 0xC0⟩)
      else if n ≤ 0xEF then
        ([], some ⟨2, if n = 0xE0 then 0xA0 else 0x80, if n = 0xED then 0x9F else 0xBF, n - 0xE0⟩)
      else if n ≤ 0xF4 then
        ([], some ⟨3, if n = 0xF0 then 0x90 else 0x80, if n = 0xF4 then 0x8F else 0xBF, n - 0xF0⟩)
      else ([replacement], none) := by
  have hbyte : (UInt8.ofNat n).toNat = n := UInt8.toNat_ofNat_of_lt hn
  unfold beginCharacter
  simp only [UInt8.lt_iff_toNat_lt, UInt8.le_iff_toNat_le, ← UInt8.toNat_inj, hbyte,
    UInt8.reduceToNat]
  -- One case for each pair of ranges; those of different ranges exclude each other.
  split_ifs <;> first | omega | simp_all

variable {low high : UInt8} {bits k : Nat}

/-- A byte in the range that an unfinished character asks for continues it with six bits. -/
theorem takeByte_of_mem (owed : Nat) (hk : k < 64) (hlow : low.toNat ≤ k + 128)
    (hhigh : k + 128 ≤ high.toNat) :
    takeByte (some ⟨owed, low, high, bits⟩) (.ofNat (k + 128)) =
      if owed ≤ 1 then ([Char.ofNat (bits * 64 + k)], none)
      else ([], some ⟨owed - 1, 0x80, 0xBF, bits * 64 + k⟩) := by
  have hsize : k + 128 < 256 := by omega
  have hbyte : (UInt8.ofNat (k + 128)).toNat = k + 128 := UInt8.toNat_ofNat_of_lt hsize
  have hin : low ≤ UInt8.ofNat (k + 128) ∧ UInt8.ofNat (k + 128) ≤ high := by
    simp only [UInt8.le_iff_toNat_le, hbyte]
    exact ⟨hlow, hhigh⟩
  simp only [takeByte, if_pos hin, hbyte, Nat.add_sub_cancel]

/-- The last byte of a character. -/
theorem decodeFrom_lastByte (hk : k < 64) (hlow : low.toNat ≤ k + 128)
    (hhigh : k + 128 ≤ high.toNat) (bs : List UInt8) :
    decodeFrom (some ⟨1, low, high, bits⟩) (.ofNat (k + 128) :: bs) =
      Char.ofNat (bits * 64 + k) :: decode bs := by
  rw [decodeFrom_cons, takeByte_of_mem 1 hk hlow hhigh, if_pos (Nat.le_refl 1)]
  rfl

/-- A byte of a character after which more are owed. -/
theorem decodeFrom_innerByte (owed : Nat) (hk : k < 64) (hlow : low.toNat ≤ k + 128)
    (hhigh : k + 128 ≤ high.toNat) (bs : List UInt8) :
    decodeFrom (some ⟨owed + 2, low, high, bits⟩) (.ofNat (k + 128) :: bs) =
      decodeFrom (some ⟨owed + 1, 0x80, 0xBF, bits * 64 + k⟩) bs := by
  rw [decodeFrom_cons, takeByte_of_mem (owed + 2) hk hlow hhigh, if_neg (by omega)]
  rfl

/-! ### Characters and texts -/

/-- An encoded character is read back, whatever follows it. -/
theorem decode_utf8EncodeChar_append (c : Char) (bs : List UInt8) :
    decode (String.utf8EncodeChar c ++ bs) = c :: decode bs := by
  have hvalid : c.val.toNat < 0xD800 ∨ 0xDFFF < c.val.toNat ∧ c.val.toNat < 0x110000 := c.valid
  have hchar : Char.ofNat c.val.toNat = c := Char.ofNat_toNat c
  unfold String.utf8EncodeChar decode
  dsimp only
  generalize c.val.toNat = v at hvalid hchar
  -- The number of bytes; of three or four, the first one may narrow the range of the second.
  split_ifs with hone htwo hthree <;> simp only [List.cons_append, List.nil_append]
  · rw [decodeFrom_cons, takeByte, beginCharacter_ofNat (by omega), if_pos (by omega), hchar]
    rfl
  · have hbits : (v / 64 % 32 + 192 - 192) * 64 + v % 64 = v := by omega
    rw [decodeFrom_cons, takeByte, beginCharacter_ofNat (by omega), if_neg (by omega),
      if_neg (by omega), if_pos (by omega)]
    dsimp only
    rw [decodeFrom_lastByte (by omega) (by simp) (by simp; omega), hbits, hchar]
    rfl
  · have hbits : ((v / 4096 % 16 + 224 - 224) * 64 + v / 64 % 64) * 64 + v % 64 = v := by omega
    rw [decodeFrom_cons, takeByte, beginCharacter_ofNat (by omega), if_neg (by omega),
      if_neg (by omega), if_neg (by omega), if_pos (by omega)]
    dsimp only
    rw [decodeFrom_innerByte 0 (by omega) (by split_ifs <;> simp; omega)
        (by split_ifs <;> (simp; omega)),
      decodeFrom_lastByte (by omega) (by simp) (by simp; omega), hbits, hchar]
    rfl
  · have hbits : (((v / 262144 % 8 + 240 - 240) * 64 + v / 4096 % 64) * 64 + v / 64 % 64) * 64 +
        v % 64 = v := by omega
    rw [decodeFrom_cons, takeByte, beginCharacter_ofNat (by omega), if_neg (by omega),
      if_neg (by omega), if_neg (by omega), if_neg (by omega), if_pos (by omega)]
    dsimp only
    rw [decodeFrom_innerByte 1 (by omega) (by split_ifs <;> simp; omega)
        (by split_ifs <;> (simp; omega)),
      decodeFrom_innerByte 0 (by omega) (by simp) (by simp; omega),
      decodeFrom_lastByte (by omega) (by simp) (by simp; omega), hbits, hchar]
    rfl

/-- An encoded text is read back in front of any other bytes. -/
theorem decode_utf8_append (s : List Char) (bs : List UInt8) :
    decode (utf8 s ++ bs) = s ++ decode bs := by
  induction s with
  | nil => rfl
  | cons c s ih =>
    rw [utf8, List.flatMap_cons, List.append_assoc, decode_utf8EncodeChar_append, ← utf8, ih,
      List.cons_append]

end ChatRelay.Text
