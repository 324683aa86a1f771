import ChatRelay.Proofs.Transcript.Markers
import ChatRelay.Proofs.Transcript.ScanAtEnd

/-!
# Transcripts by their parts

A transcript that has only been written at its end is told by the parts that it is made of: what
kind each segment is of, its text and its properties. The segments are numbered from one on, in
their order (`numbered`). `Transcript.ofParts` is such a transcript while its last part is being
written, and `Transcript.blank` the one whose last part is a text segment in which nothing stands
yet. To write a text that holds no marker, one that holds an opening marker, or one that ends a
block, makes of the parts what one would expect (`write_blank`, `write_blank_opening`,
`write_closing`).
-/

namespace ChatRelay

open Json (Value Object)

/-- What a segment is made of. -/
structure Part where
  kind : ContentType
  text : List Char
  props : Object

/-- The part of a segment. -/
def Segment.part (g : Segment) : Part := ⟨g.kind, g.text, g.props⟩

namespace Part

/-- The segment at a place, of a part. -/
def segment (p : Part) (i : Nat) : Segment := ⟨⟨.ofNat (i + 1)⟩, p.kind, p.text, p.props, i⟩

@[simp] theorem part_segment (p : Part) (i : Nat) : (p.segment i).part = p := rfl

@[simp] theorem text_segment (p : Part) (i : Nat) : (p.segment i).text = p.text := rfl

/-- A part of plain text, unless the text is empty. -/
def plain (s : List Char) : List Part :=
  if s = [] then [] else [⟨.text, s, []⟩]

@[simp] theorem plain_nil : plain [] = [] := rfl

/-- Text that is not empty makes one part. -/
theorem plain_of_ne_nil {s : List Char} (h : s ≠ []) : plain s = [⟨.text, s, []⟩] := if_neg h

/-- Plain text makes one part at most. -/
theorem length_plain_le (s : List Char) : (plain s).length ≤ 1 := by
  unfold plain
  split <;> simp

/-- What a marked block is made of: its text with its marks, and its content as a property. -/
def block (m : Marker) (text content : List Char) : Part :=
  ⟨m.kind, text, [("text", .ofText content)]⟩

end Part

/-- The segments of parts, in their order. -/
def numbered (ps : List Part) : List Segment :=
  ps.mapIdx fun i p => p.segment i

/-- There are as many segments as parts. -/
@[simp] theorem length_numbered (ps : List Part) : (numbered ps).length = ps.length :=
  List.length_mapIdx

/-- A further part makes the segment at the next place. -/
theorem numbered_concat (ps : List Part) (p : Part) :
    numbered (ps ++ [p]) = numbered ps ++ [p.segment ps.length] :=
  List.mapIdx_concat

/-- The parts of the segments of parts are these parts. -/
@[simp] theorem map_part_numbered (ps : List Part) : (numbered ps).map Segment.part = ps :=
  List.ext_getElem (by simp) (by simp [numbered])

namespace Transcript

/-- The transcript of some parts whose last one is being written. -/
def ofParts (ps : List Part) (p : Part) (buffer : List Char) (opened : Option Marker) :
    Transcript :=
  atEnd (numbered ps) (p.segment ps.length) (.ofNat (ps.length + 1)) buffer opened

/-- The transcript of some parts that goes on in a new text segment. -/
def blank (ps : List Part) : Transcript :=
  ofParts ps ⟨.text, [], []⟩ [] none

variable (ps : List Part) (p : Part) {buffer : List Char} {opened : Option Marker}

/-- Parts make a sound transcript if what is remembered is an end of the last one. -/
theorem sound_ofParts (h : buffer <:+ p.text) : (ofParts ps p buffer opened).Sound :=
  sound_writing h

/-- The number of the next segment. -/
theorem ofNat_succ_eq (n : Nat) : UInt64.ofNat n + 1 = UInt64.ofNat (n + 1) :=
  (UInt64.ofNat_add n 1).symm

/-- A new segment after parts is the next part. -/
theorem atEnd_numbered_concat (q : Part) :
    atEnd (numbered ps ++ [p.segment ps.length])
        (q.segment (ps.length + 1)) (.ofNat (ps.length + 1) + 1) buffer opened =
      ofParts (ps ++ [p]) q buffer opened := by
  rw [ofParts, numbered_concat, List.length_append, List.length_singleton, ofNat_succ_eq]

variable {p}

/-! ### Writing -/

/-- Text goes to the last part, and is remembered. -/
theorem append_ofParts (s : List Char) :
    (ofParts ps p buffer opened).append s =
      ofParts ps { p with text := p.text ++ s } (buffer ++ s) opened :=
  append_atEnd _ _ _ _ _ s

/-- A text segment that is begun is the next part. -/
theorem beginText_ofParts (s : List Char) :
    (ofParts ps p buffer opened).beginText s = ofParts (ps ++ [p]) ⟨.text, s, []⟩ s none := by
  have hlen : (ofParts ps p buffer opened).segments.length = ps.length + 1 := by
    simp [ofParts, atEnd]
  have hlast : (ofParts ps p buffer opened).lastId = .ofNat (ps.length + 1) := rfl
  rw [beginText_eq, hlen, hlast, ← atEnd_numbered_concat, ofNat_succ_eq]
  rfl

/-- The first text of all goes to a new text segment. -/
theorem append_empty {s : List Char} (hs : s ≠ []) :
    empty.append s = ofParts [] ⟨.text, s, []⟩ s none := by
  show (vacant 0).append s = _
  rw [append_vacant 0 hs]
  rfl

/-- The first text that is written begins a segment. -/
theorem write_empty {s : List Char} (hs : s ≠ []) : empty.write s = (blank []).write s := by
  rw [write_of_ne_nil _ hs, write_of_ne_nil _ hs, append_empty hs, blank, append_ofParts]
  rfl

/-- Text without markers is plain text. -/
theorem write_blank {s : List Char} (hs : Marker.Absent s) :
    (blank ps).write s = ofParts ps ⟨.text, s, []⟩ (Marker.partialOpening s) none := by
  by_cases hne : s = []
  · subst hne
    rfl
  · rw [write_of_ne_nil _ hne, blank, append_ofParts]
    exact congrArg Prod.snd (scan_writing_of_findOpening?_eq_none hs.unopened.findOpening?)

/-- Text that goes on after a closing marker goes to a new text segment. -/
theorem scan_blank_append (s : List Char) : ((blank ps).append s).scan.2 = (blank ps).write s := by
  by_cases hs : s = []
  · subst hs
    exact congrArg Prod.snd (scan_of_step?_eq_none (t := blank ps) rfl)
  · rw [write_of_ne_nil _ hs]

/-- At an opening marker a block is begun, after the plain text before it if there is any. -/
theorem openBlock_ofParts (x kept tails : List Char) (m : Marker) :
    (ofParts ps ⟨.text, kept ++ (m.opening ++ tails), []⟩ buffer opened).openBlock x m tails =
      (⟨m.kind, ⟨.ofNat ((ps ++ Part.plain kept).length + 1)⟩, true, x, tails⟩,
        ofParts (ps ++ Part.plain kept) ⟨m.kind, m.opening ++ tails, []⟩ tails (some m)) := by
  have htext : (Part.segment ⟨.text, kept ++ (m.opening ++ tails), []⟩ ps.length).text =
      kept ++ (m.opening ++ tails) := rfl
  have h := openBlock_atEnd (numbered ps) _ (.ofNat (ps.length + 1)) buffer opened x htext
  refine h.trans ?_
  split
  · next hnil =>
    subst hnil
    rw [Part.plain_nil, List.append_nil]
    rfl
  · next hnil =>
    rw [Part.plain_of_ne_nil hnil, ← atEnd_numbered_concat, ofNat_succ_eq, length_numbered,
      List.length_append]
    rfl

/-- At a closing marker a block is ended, and the text after it is plain text. -/
theorem closeBlock_ofParts (inner kept tails : List Char) (m : Marker) :
    (ofParts ps ⟨m.kind, kept ++ tails, []⟩ buffer opened).closeBlock m inner tails =
      (⟨m.kind, ⟨.ofNat (ps.length + 1)⟩, false, inner, tails⟩,
        (blank (ps ++ [.block m kept (Text.trim inner)])).append tails) := by
  have htext : (Part.segment ⟨m.kind, kept ++ tails, []⟩ ps.length).text = kept ++ tails := rfl
  have h := closeBlock_atEnd (numbered ps) _ (.ofNat (ps.length + 1)) buffer opened m inner htext
  refine h.trans ?_
  rw [blank, append_ofParts, ← atEnd_numbered_concat, ofNat_succ_eq, length_numbered]
  rfl

/-- An opening marker ends plain text and begins a block, in which all text after it stands that
does not close it. -/
theorem write_blank_opening {x y : List Char} {m : Marker} (hx : Marker.Absent x)
    (hy : ¬m.closing <:+: y) :
    (blank ps).write (x ++ (m.opening ++ y)) =
      ofParts (ps ++ Part.plain x) ⟨m.kind, m.opening ++ y, []⟩ y (some m) := by
  have hopening : m.opening ≠ [] := List.length_pos_iff.1 m.opening_length_pos
  have hne : x ++ (m.opening ++ y) ≠ [] := by simp [hopening]
  rw [write_of_ne_nil _ hne, blank, append_ofParts]
  refine (scan_writing_of_findOpening? (hx.unopened.findOpening?_append m y)).trans ?_
  refine (congrArg (fun p : Boundary × Transcript => p.2.scan.2)
    (openBlock_ofParts ps x x y m)).trans ?_
  -- Within the block the scan ends: the closing marker is not there.
  have hnone :
      (ofParts (ps ++ Part.plain x) ⟨m.kind, m.opening ++ y, []⟩ y (some m)).step? = none :=
    Option.map_eq_none_iff.2 (Text.cutAt?_eq_none_iff.2 hy)
  rw [scan_of_step?_eq_none hnone]
  rfl

/-- A closing marker ends a block, and what follows it goes to a new text segment. -/
theorem write_closing {text y z : List Char} {m : Marker} (hz : ¬m.closing <:+: y ++ z)
    (s : List Char) :
    (ofParts ps ⟨m.kind, text, []⟩ y (some m)).write (z ++ (m.closing ++ s)) =
      (blank (ps ++ [.block m (text ++ (z ++ m.closing)) (Text.trim (y ++ z))])).write s := by
  have hclosing : m.closing ≠ [] := List.length_pos_iff.1 m.closing_length_pos
  have hne : z ++ (m.closing ++ s) ≠ [] := by simp [hclosing]
  have hcut : Text.cutAt? m.closing (y ++ (z ++ (m.closing ++ s))) = some (y ++ z, s) := by
    rw [← List.append_assoc]
    exact Marker.cutAt?_append_closing hz s
  have hstep : (ofParts ps ⟨m.kind, text ++ (z ++ m.closing) ++ s, []⟩
      (y ++ (z ++ (m.closing ++ s))) (some m)).step? = some _ :=
    Option.map_eq_some_iff.2 ⟨_, hcut, rfl⟩
  have htext : text ++ (z ++ (m.closing ++ s)) = text ++ (z ++ m.closing) ++ s := by
    simp only [List.append_assoc]
  rw [write_of_ne_nil _ hne, append_ofParts, htext, scan_of_step? hstep, ← scan_blank_append]
  exact congrArg (fun p : Boundary × Transcript => p.2.scan.2)
    (closeBlock_ofParts ps (y ++ z) _ s m)

/-- A text segment that is left empty in the end is dropped. -/
theorem segments_dropEmptyLast_ofParts (s : List Char) :
    (ofParts ps ⟨.text, s, []⟩ buffer opened).dropEmptyLast.segments =
      numbered (ps ++ Part.plain s) := by
  by_cases hs : s = []
  · subst hs
    rw [Part.plain_nil, List.append_nil]
    simp [ofParts, atEnd, dropEmptyLast, resetScan]
  · rw [ofParts, dropEmptyLast_atEnd_of_ne_nil _ _ _ _ _ hs, Part.plain_of_ne_nil hs,
      numbered_concat]
    rfl

end Transcript

end ChatRelay
