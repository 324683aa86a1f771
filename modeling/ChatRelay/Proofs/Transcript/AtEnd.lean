import ChatRelay.Proofs.Transcript.Writing

/-!
# Transcripts that are written at their end

The transcript of a reply is only ever written at its end: its current segment is the last one, and
the scan buffer is an end of that segment's text. `Transcript.atEnd` puts such a transcript together
from the segments before the current one and the current one, and every operation on it has an
equation in that form. From the equations follows what each operation does to the whole text: an
append adds to it, and scans, new segments and the dropping of an empty segment leave it alone.
-/

namespace ChatRelay

open Json (Value Object)

namespace Transcript

/-- The transcript whose current segment is the last one. -/
def atEnd (before : List Segment) (last : Segment) (lastId : UInt64) (buffer : List Char)
    (opened : Option Marker) : Transcript where
  segments := before ++ [last]
  current := some before.length
  lastId := lastId
  buffer := buffer
  opened := opened

/-- The transcript without segments, after some numbers have been used. -/
def vacant (lastId : UInt64) : Transcript where
  segments := []
  current := none
  lastId := lastId
  buffer := []
  opened := none

/-- New text goes to the last segment, and what is remembered for the scan is an end of its text. -/
inductive WrittenAtEnd : Transcript → Prop
  | vacant (n : UInt64) : WrittenAtEnd (vacant n)
  | atEnd (before : List Segment) (last : Segment) (n : UInt64) (buffer : List Char)
      (opened : Option Marker) (h : buffer <:+ last.text) :
      WrittenAtEnd (atEnd before last n buffer opened)

/-- A transcript in which nothing has been said is written at its end. -/
theorem writtenAtEnd_empty : WrittenAtEnd empty := .vacant 0

/-- A transcript that is written at its end is sound. -/
theorem WrittenAtEnd.sound {t : Transcript} (ht : t.WrittenAtEnd) : t.Sound := by
  cases ht with
  | vacant n => exact ⟨nofun, nofun, fun _ => rfl⟩
  | atEnd before last n buffer opened h => exact sound_writing h

variable (before : List Segment) (last : Segment) (n : UInt64) (buffer : List Char)
  (opened : Option Marker)

@[simp] theorem text_vacant : (vacant n).text = [] := rfl

/-- The text of a transcript is that of its segments, the last one included. -/
@[simp] theorem text_atEnd :
    (atEnd before last n buffer opened).text = before.flatMap Segment.text ++ last.text := by
  simp [text, atEnd]

@[simp] theorem currentSegment?_atEnd :
    (atEnd before last n buffer opened).currentSegment? = some last :=
  currentSegment?_writing before last [] n buffer opened

/-! ### Writing -/

/-- Text appended at the end goes to the last segment and to the buffer. -/
theorem append_atEnd (s : List Char) :
    (atEnd before last n buffer opened).append s =
      atEnd before { last with text := last.text ++ s } n (buffer ++ s) opened :=
  append_writing s

/-- The first text makes the first segment. -/
theorem append_vacant {s : List Char} (hs : s ≠ []) :
    (vacant n).append s = atEnd [] ⟨⟨n + 1⟩, .text, s, [], 0⟩ (n + 1) s none :=
  append_of_current_eq_none rfl hs

/-- A text segment that is begun is the last one and the current one, whatever was current. -/
theorem beginText_eq (t : Transcript) (s : List Char) :
    t.beginText s =
      atEnd t.segments ⟨⟨t.lastId + 1⟩, .text, s, [], t.segments.length⟩ (t.lastId + 1) s none :=
  beginText_eq_writing t s

/-- An empty last segment is dropped, and the one before it is the current one again. -/
theorem dropEmptyLast_atEnd_of_nil (h : last.text = []) :
    (atEnd before last n buffer opened).dropEmptyLast =
      match before.getLast? with
      | some g => atEnd before.dropLast g n [] none
      | none => vacant n := by
  rcases List.eq_nil_or_concat before with rfl | ⟨l, g, rfl⟩
  · simp [dropEmptyLast, atEnd, h, resetScan, vacant]
  · simp [dropEmptyLast, atEnd, h, resetScan]

/-- A last segment with text stays. -/
theorem dropEmptyLast_atEnd_of_ne_nil (h : last.text ≠ []) :
    (atEnd before last n buffer opened).dropEmptyLast = atEnd before last n buffer opened := by
  simp [dropEmptyLast, atEnd, h]

@[simp] theorem dropEmptyLast_vacant : (vacant n).dropEmptyLast = vacant n := rfl

/-! ### What is written -/

/-- A transcript stays written at its end when text is appended. -/
theorem WrittenAtEnd.append {t : Transcript} (ht : t.WrittenAtEnd) (s : List Char) :
    (t.append s).WrittenAtEnd := by
  cases ht with
  | vacant n =>
    by_cases hs : s = []
    · subst hs
      exact .vacant n
    · rw [append_vacant n hs]
      exact .atEnd _ _ _ _ _ List.suffix_rfl
  | atEnd before last n buffer opened hb =>
    rw [append_atEnd]
    refine .atEnd _ _ _ _ _ ?_
    obtain ⟨a, ha⟩ := hb
    exact ⟨a, by rw [← List.append_assoc, ha]⟩

/-- Appended text is the end of the whole text. -/
theorem WrittenAtEnd.text_append {t : Transcript} (ht : t.WrittenAtEnd) (s : List Char) :
    (t.append s).text = t.text ++ s := by
  cases ht with
  | vacant n =>
    by_cases hs : s = []
    · subst hs
      rfl
    · rw [append_vacant n hs]
      simp
  | atEnd before last n buffer opened hb =>
    rw [append_atEnd]
    simp

/-- A text that is begun follows the text before it. -/
@[simp] theorem text_beginText (t : Transcript) (s : List Char) :
    (t.beginText s).text = t.text ++ s := by
  rw [beginText_eq, text_atEnd]
  rfl

/-- A transcript stays written at its end when an empty last segment is dropped. -/
theorem WrittenAtEnd.dropEmptyLast {t : Transcript} (ht : t.WrittenAtEnd) :
    t.dropEmptyLast.WrittenAtEnd := by
  cases ht with
  | vacant n => exact .vacant n
  | atEnd before last n buffer opened hb =>
    by_cases hlast : last.text = []
    · rw [dropEmptyLast_atEnd_of_nil _ _ _ _ _ hlast]
      split
      · exact .atEnd _ _ _ _ _ (List.nil_suffix)
      · exact .vacant n
    · rw [dropEmptyLast_atEnd_of_ne_nil _ _ _ _ _ hlast]
      exact .atEnd _ _ _ _ _ hb

/-- With an empty last segment no text is dropped. -/
theorem WrittenAtEnd.text_dropEmptyLast {t : Transcript} (ht : t.WrittenAtEnd) :
    t.dropEmptyLast.text = t.text := by
  cases ht with
  | vacant n => rfl
  | atEnd before last n buffer opened hb =>
    by_cases hlast : last.text = []
    · rw [dropEmptyLast_atEnd_of_nil _ _ _ _ _ hlast]
      rcases List.eq_nil_or_concat before with rfl | ⟨l, g, rfl⟩ <;> simp [hlast]
    · rw [dropEmptyLast_atEnd_of_ne_nil _ _ _ _ _ hlast]

/-- A change of a segment that keeps its text keeps the whole text. -/
theorem text_modify (t : Transcript) (i : Nat) (f : Segment → Segment)
    (hf : ∀ g, (f g).text = g.text) : (t.modify i f).text = t.text := by
  show (t.segments.modify i f).flatMap Segment.text = t.segments.flatMap Segment.text
  induction t.segments generalizing i with
  | nil => simp
  | cons g gs ih =>
    cases i with
    | zero => simp [hf]
    | succ i => simp [ih]

/-- Another type and more properties do not change the text of a segment. -/
theorem text_retype? {t u : Transcript} {kind : ContentType} {props : Object} {id : SegmentId}
    (h : t.retype? kind props id = some u) : u.text = t.text := by
  obtain ⟨i, -, rfl⟩ := Option.map_eq_some_iff.1 h
  exact text_modify t i _ fun g => rfl

end Transcript

end ChatRelay
