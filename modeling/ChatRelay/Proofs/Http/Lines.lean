import ChatRelay.Http.Lines
import Mathlib.Tactic.SplitIfs

/-!
# The lines of a body and the lines of its text

A body is cut into lines while it arrives, and each line is decoded by itself. In UTF-8 the byte of
a newline is never a part of another character, and it ends a character that is unfinished before
it. So decoding commutes with cutting at newlines (`Text.splitOn_decode`). What is left of a line at
the end of a chunk is all that needs to be known for the chunks after it (`Body.linesAfter_eq`).

Main result: the lines of a body are those of the text that all its bytes hold, however the bytes
are divided into chunks (`Body.lines_eq`).
-/

namespace ChatRelay

namespace Text

open Http (newline)

/-! ### Newlines in UTF-8 -/

/-- The bytes that continue an unfinished character are not ASCII, and the character that they
complete is no newline, since its number is greater. -/
structure Unfinished.Sound (u : Unfinished) : Prop where
  low_ge : 0x80 ≤ u.low.toNat
  bits_gt : 10 < u.bits * 64 + (u.low.toNat - 0x80)

/-- A character that a byte has begun is sound. -/
theorem sound_beginCharacter {b : UInt8} {u : Unfinished} (h : (beginCharacter b).2 = some u) :
    u.Sound := by
  have hb := b.toNat_lt
  unfold beginCharacter at h
  simp only [UInt8.lt_iff_toNat_lt, UInt8.le_iff_toNat_le, ← UInt8.toNat_inj] at h
  -- One case for each range of the bytes that begin a character.
  split_ifs at h <;> cases h <;> constructor <;> simp at * <;> omega

/-- One more byte leaves an unfinished character sound. -/
theorem sound_takeByte {u : Option Unfinished} (hu : ∀ v ∈ u, v.Sound) (b : UInt8) :
    ∀ v ∈ (takeByte u b).2, v.Sound := by
  intro v hv
  cases u with
  | none => exact sound_beginCharacter hv
  | some u =>
    have ⟨hlow, hbits⟩ := hu u rfl
    simp only [takeByte, UInt8.le_iff_toNat_le] at hv
    split_ifs at hv with hb howed
    · cases hv
    · cases hv
      constructor
      · simp
      · simp only [UInt8.reduceToNat]
        omega
    · exact sound_beginCharacter hv

/-- A newline is read as itself, after a replacement for what was unfinished. -/
theorem takeByte_newline {u : Option Unfinished} (hu : ∀ v ∈ u, v.Sound) :
    takeByte u newline = (decodeFrom u [] ++ ['\n'], none) := by
  cases u with
  | none => rfl
  | some u =>
    have hlow := (hu u rfl).low_ge
    have hnot : ¬(u.low ≤ newline ∧ newline ≤ u.high) := by
      rintro ⟨hle, -⟩
      have hle := UInt8.le_iff_toNat_le.1 hle
      have hten : newline.toNat = 10 := rfl
      omega
    simp only [takeByte, if_neg hnot]
    rfl

/-- The number of a newline is no other character's. -/
theorem ofNat_ne_newline {n : Nat} (h : n ≠ 10) : Char.ofNat n ≠ '\n' := by
  intro hc
  by_cases hvalid : n.isValidChar
  · rw [Char.ofNat, dif_pos hvalid] at hc
    have hten : (Char.ofNatAux n hvalid).toNat = 10 := by
      rw [hc]
      rfl
    exact h hten
  · rw [Char.ofNat, dif_neg hvalid] at hc
    exact absurd (congrArg Char.toNat hc) (by decide)

/-- A byte that is no newline begins none. -/
theorem newline_not_mem_beginCharacter {b : UInt8} (hb : b ≠ newline) :
    '\n' ∉ (beginCharacter b).1 := by
  have hten : b.toNat ≠ 10 := fun h => hb (UInt8.toNat_inj.1 h)
  unfold beginCharacter
  split_ifs
  · simpa using (ofNat_ne_newline hten).symm
  all_goals simp [replacement]

/-- A byte that is no newline completes none. -/
theorem newline_not_mem_takeByte {u : Option Unfinished} (hu : ∀ v ∈ u, v.Sound) {b : UInt8}
    (hb : b ≠ newline) : '\n' ∉ (takeByte u b).1 := by
  have hbegin := newline_not_mem_beginCharacter hb
  cases u with
  | none => exact hbegin
  | some u =>
    have ⟨hlow, hbits⟩ := hu u rfl
    simp only [takeByte, UInt8.le_iff_toNat_le]
    split_ifs with hin howed
    · have hne : Char.ofNat (u.bits * 64 + (b.toNat - 128)) ≠ '\n' := by
        apply ofNat_ne_newline
        omega
      simpa using hne.symm
    · exact List.not_mem_nil
    · simpa [replacement] using hbegin

/-- Where a newline stands, a text may be read in two parts. -/
theorem decodeFrom_append_newline {u : Option Unfinished} (hu : ∀ v ∈ u, v.Sound)
    (a b : List UInt8) :
    decodeFrom u (a ++ newline :: b) = decodeFrom u a ++ '\n' :: decode b := by
  induction a generalizing u with
  | nil =>
    rw [List.nil_append, decodeFrom, takeByte_newline hu, List.append_assoc]
    rfl
  | cons c a ih =>
    rw [List.cons_append, decodeFrom, decodeFrom, ih (sound_takeByte hu c), List.append_assoc]

/-- Without the byte of a newline there is no newline in the text. -/
theorem newline_not_mem_decodeFrom {u : Option Unfinished} (hu : ∀ v ∈ u, v.Sound)
    {a : List UInt8} (ha : newline ∉ a) : '\n' ∉ decodeFrom u a := by
  induction a generalizing u with
  | nil => cases u <;> simp [decodeFrom, replacement]
  | cons c a ih =>
    obtain ⟨hc, ha⟩ := not_or.1 (mt List.mem_cons.2 ha)
    rw [decodeFrom, List.mem_append, not_or]
    exact ⟨newline_not_mem_takeByte hu (Ne.symm hc), ih (sound_takeByte hu c) ha⟩

/-- Bytes may be cut at newlines before they are decoded or after. -/
theorem splitOn_decode (bytes : List UInt8) :
    (decode bytes).splitOn '\n' = (bytes.splitOn newline).map decode := by
  have hnone : ∀ v ∈ (none : Option Unfinished), v.Sound := nofun
  induction hlen : bytes.length using Nat.strongRecOn generalizing bytes with
  | _ n ih =>
    by_cases hmem : newline ∈ bytes
    · obtain ⟨a, b, rfl, ha⟩ := List.eq_append_cons_of_mem hmem
      have hb : b.length < n := by
        rw [← hlen, List.length_append, List.length_cons]
        omega
      have htext : decode (a ++ newline :: b) = decode a ++ '\n' :: decode b :=
        decodeFrom_append_newline hnone a b
      have hfirst : '\n' ∉ decode a := newline_not_mem_decodeFrom hnone ha
      rw [htext, List.splitOn_append_cons_self_of_not_mem hfirst,
        List.splitOn_append_cons_self_of_not_mem ha, ih _ hb b rfl, List.map_cons]
    · rw [List.splitOn_eq_singleton hmem, List.map_singleton]
      exact List.splitOn_eq_singleton (newline_not_mem_decodeFrom hnone hmem)

end Text

namespace Http

/-! ### Cutting -/

/-- The complete lines and the rest are what lies between the newlines. -/
theorem splitOn_newline (bytes : List UInt8) :
    bytes.splitOn newline = (cutLines bytes).1 ++ [(cutLines bytes).2] := by
  induction bytes with
  | nil => rfl
  | cons b rest ih =>
    rw [List.splitOn_cons_eq_if_modifyHead, ih, cutLines]
    rcases cutLines rest with ⟨_ | ⟨line, more⟩, last⟩ <;> by_cases hb : b = newline <;> simp [hb]

/-- Nothing between two newlines holds one. -/
theorem newline_not_mem_cutLines (bytes : List UInt8) : newline ∉ (cutLines bytes).2 := by
  induction bytes with
  | nil => exact List.not_mem_nil
  | cons b rest ih =>
    rw [cutLines]
    rcases hcut : cutLines rest with ⟨_ | ⟨line, more⟩, last⟩ <;> rw [hcut] at ih <;>
      by_cases hb : b = newline <;> simp_all [eq_comm]

/-- Of bytes that arrive in two parts the first is cut on its own, and its rest with the second. -/
theorem cutLines_append (a b : List UInt8) :
    cutLines (a ++ b) =
      ((cutLines a).1 ++ (cutLines ((cutLines a).2 ++ b)).1,
        (cutLines ((cutLines a).2 ++ b)).2) := by
  induction a with
  | nil => simp [cutLines]
  | cons c a ih =>
    rw [List.cons_append, cutLines, cutLines, ih]
    by_cases hc : c = newline
    · simp [hc]
    · rcases cutLines a with ⟨_ | ⟨line, more⟩, last⟩
      · simp [hc, cutLines]
      · simp [hc]

/-! ### Chunks -/

/-- The lines of a text: what lies between its newlines, without blanks at the ends, and only where
something is left then. The part after the last newline is a line if the text is complete. -/
def textLines (complete : Bool) (text : List Char) : List String :=
  let parts := text.splitOn '\n'
  let lines := (if complete then parts else parts.dropLast).map Text.trim
  (lines.filter (!·.isEmpty)).map String.ofList

/-- The text of the lines among bytes. -/
theorem filterMap_lineText? (lines : List (List UInt8)) :
    lines.filterMap lineText? =
      (((lines.map Text.decode).map Text.trim).filter (!·.isEmpty)).map String.ofList := by
  induction lines with
  | nil => rfl
  | cons line lines ih =>
    rw [List.filterMap_cons, ih, List.map_cons, List.map_cons, List.filter_cons]
    unfold lineText?
    cases h : (Text.trim (Text.decode line)).isEmpty <;> simp [h]

/-- The lines that are complete among bytes are those of their text, if more may follow. -/
theorem textLines_false_decode (bytes : List UInt8) :
    textLines false (Text.decode bytes) = (cutLines bytes).1.filterMap lineText? := by
  rw [filterMap_lineText?, textLines, Text.splitOn_decode, splitOn_newline, List.map_append,
    List.map_singleton]
  simp

/-- If nothing follows, the rest is a line too. -/
theorem textLines_true_decode (bytes : List UInt8) :
    textLines true (Text.decode bytes) =
      (cutLines bytes).1.filterMap lineText? ++ (lineText? (cutLines bytes).2).toList := by
  have hrest : (lineText? (cutLines bytes).2).toList =
      [(cutLines bytes).2].filterMap lineText? := by
    cases h : lineText? (cutLines bytes).2 <;> simp [h]
  rw [hrest, ← List.filterMap_append, filterMap_lineText?, textLines, Text.splitOn_decode,
    splitOn_newline]
  rfl

/-- Of bytes that arrive in two parts, the complete lines of the first are lines of the text, and
then come those of its rest with the second. -/
theorem textLines_decode_append (complete : Bool) (a b : List UInt8) :
    textLines complete (Text.decode (a ++ b)) =
      (cutLines a).1.filterMap lineText? ++
        textLines complete (Text.decode ((cutLines a).2 ++ b)) := by
  cases complete with
  | false =>
    rw [textLines_false_decode, textLines_false_decode, cutLines_append, List.filterMap_append]
  | true =>
    rw [textLines_true_decode, textLines_true_decode, cutLines_append, List.filterMap_append,
      List.append_assoc]

namespace Body

/-- The lines of a body of which a part of a line has arrived are those of the text that this part
and the chunks to come hold. -/
theorem linesAfter_eq (broken : Bool) {begun : List UInt8} (h : newline ∉ begun)
    (chunks : List (List UInt8)) :
    linesAfter broken begun chunks =
      (textLines (!broken) (Text.decode (begun ++ chunks.flatten))).map .ok ++
        if broken then [.error brokenOff] else [] := by
  induction chunks generalizing begun with
  | nil =>
    have hcut : cutLines begun = ([], begun) := by
      simpa [cutLines] using cutLines_append_of_no_newline h []
    rw [List.flatten_nil, List.append_nil]
    cases broken with
    | true =>
      rw [Bool.not_true, textLines_false_decode, hcut]
      rfl
    | false =>
      rw [Bool.not_false, textLines_true_decode, hcut]
      simp [linesAfter]
  | cons chunk rest ih =>
    have hbegun : newline ∉ (cutLines (begun ++ chunk)).2 := newline_not_mem_cutLines _
    have hstep : linesAfter broken begun (chunk :: rest) =
        ((cutLines (begun ++ chunk)).1.filterMap lineText?).map .ok ++
          linesAfter broken (cutLines (begun ++ chunk)).2 rest := rfl
    rw [hstep, ih hbegun, List.flatten_cons, ← List.append_assoc begun,
      textLines_decode_append _ (begun ++ chunk), List.map_append, List.append_assoc]

/-- The lines of a body are those of the text that its bytes hold, as if all of them had arrived at
once. If the body breaks off, a failure takes the place of what follows the last newline. -/
theorem lines_eq (b : Body) :
    b.lines =
        (textLines (!b.broken) (Text.decode b.bytes)).map .ok ++
          (if b.broken then [.error brokenOff] else []) ∧
      b.lines = lines ⟨[b.bytes], b.broken⟩ := by
  have hlines (chunks : List (List UInt8)) :
      lines ⟨chunks, b.broken⟩ =
        (textLines (!b.broken) (Text.decode chunks.flatten)).map .ok ++
          if b.broken then [.error brokenOff] else [] :=
    linesAfter_eq b.broken List.not_mem_nil chunks
  refine ⟨hlines b.chunks, (hlines b.chunks).trans ?_⟩
  rw [hlines, List.flatten_singleton]
  rfl

end Body

end Http

end ChatRelay
