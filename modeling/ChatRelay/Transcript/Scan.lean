import ChatRelay.Transcript.Basic

/-!
# Scanning a transcript

A scan looks in the buffer for the boundaries of marked blocks and cuts the current segment there.
An opening marker moves itself and all text after it to a segment of the block's type; a closing
marker ends that segment and moves the text after it to a new text segment. Each boundary takes its
marker out of the buffer, so a scan ends (`step?_buffer_length_lt`) and reports no boundary twice.
-/

namespace ChatRelay

open Json (Value Object)

/-- A boundary of a block that a scan has found. -/
structure Boundary where
  kind : ContentType
  /-- The segment that holds the block. -/
  id : SegmentId
  /-- Whether the block begins here; otherwise it ends. -/
  begins : Bool
  /-- The text before an opening marker, or the content of the block that ends. -/
  text : List Char
  /-- The text after the marker. -/
  tails : List Char

namespace Transcript

/-- Takes a number of characters off the end of the current segment. -/
def takeTail (t : Transcript) (n : Nat) : List Char × Transcript :=
  match t.current, t.currentSegment? with
  | some i, some g =>
    let kept := g.text.length - n
    (g.text.drop kept, t.modify i fun g => { g with text := g.text.take kept })
  | _, _ => ([], t)

/-- Cuts the current segment at an opening marker. A segment that is left empty becomes the block;
otherwise the block is a new segment. -/
def openBlock (t : Transcript) (before : List Char) (m : Marker) (tails : List Char) :
    Boundary × Transcript :=
  let (moved, t) := t.takeTail (m.opening.length + tails.length)
  let reused := t.current.filter fun i => t.segments[i]?.any (·.text.isEmpty)
  let (i, t) :=
    match reused with
    | some i => (i, t.modify i fun g => { g with kind := m.kind })
    | none => (t.segments.length, t.pushNew m.kind)
  let t := t.modify i fun g => { g with text := g.text ++ moved }
  let t := { t with current := some i, buffer := tails, opened := some m }
  ({ kind := m.kind, id := t.currentId?.getD ⟨0⟩, begins := true, text := before, tails }, t)

/-- Ends the current segment at a closing marker and goes on in a new text segment. -/
def closeBlock (t : Transcript) (m : Marker) (inner tails : List Char) : Boundary × Transcript :=
  let (moved, t) := t.takeTail tails.length
  let id := t.currentId?.getD ⟨0⟩
  let t :=
    match t.current with
    | some i =>
      t.modify i fun g =>
        { g with
          kind := m.kind
          props := Table.set g.props "text" (.ofText (Text.trim inner)) }
    | none => t
  let i := t.segments.length
  let t := (t.pushNew .text).modify i fun g => { g with text := moved }
  let t := { t with current := some i, buffer := tails, opened := none }
  ({ kind := m.kind, id, begins := false, text := inner, tails }, t)

/-- Finds the next boundary in the buffer and cuts there. -/
def step? (t : Transcript) : Option (Boundary × Transcript) :=
  match t.opened with
  | none =>
    (Marker.findOpening? t.buffer).map fun (before, m, tails) => t.openBlock before m tails
  | some m => (Text.cutAt? m.closing t.buffer).map fun (inner, tails) => t.closeBlock m inner tails

/-- What is left to remember when no boundary is found: while no block is open, the end of the
buffer that may still become an opening marker. -/
def settle (t : Transcript) : Transcript :=
  match t.opened with
  | none => { t with buffer := Marker.partialOpening t.buffer }
  | some _ => t

/-- After an opening marker what follows it is still to be scanned. -/
@[simp] theorem openBlock_buffer (t : Transcript) (before : List Char) (m : Marker)
    (tails : List Char) : (t.openBlock before m tails).2.buffer = tails := rfl

/-- After a closing marker what follows it is still to be scanned. -/
@[simp] theorem closeBlock_buffer (t : Transcript) (m : Marker) (inner tails : List Char) :
    (t.closeBlock m inner tails).2.buffer = tails := rfl

/-- A step takes at least the marker that it has found out of the buffer. -/
theorem step?_buffer_length_add_six_le {t u : Transcript} {b : Boundary}
    (h : t.step? = some (b, u)) : u.buffer.length + 6 ≤ t.buffer.length := by
  unfold step? at h
  split at h
  · obtain ⟨⟨before, m, tails⟩, hf, he⟩ := Option.map_eq_some_iff.1 h
    have hu : u.buffer = tails := by
      rw [← openBlock_buffer t before m tails]
      exact congrArg (fun p => p.2.buffer) he.symm
    have := m.six_le_length.1
    rw [hu, Marker.findOpening?_eq_some hf]
    simp only [List.length_append]
    omega
  · next m _ =>
    obtain ⟨⟨inner, tails⟩, hc, he⟩ := Option.map_eq_some_iff.1 h
    have hu : u.buffer = tails := by
      rw [← closeBlock_buffer t m inner tails]
      exact congrArg (fun p => p.2.buffer) he.symm
    have := m.six_le_length.2
    rw [hu, Text.cutAt?_eq_some hc]
    simp only [List.length_append]
    omega

/-- A step of a scan leaves less to be scanned. -/
theorem step?_buffer_length_lt {t u : Transcript} {b : Boundary} (h : t.step? = some (b, u)) :
    u.buffer.length < t.buffer.length := by
  have := step?_buffer_length_add_six_le h
  omega

/-- Finds the boundaries in the buffer, in order, and cuts at each. -/
def scan (t : Transcript) : List Boundary × Transcript :=
  match h : t.step? with
  | none => ([], t.settle)
  | some (b, u) =>
    have : u.buffer.length < t.buffer.length := step?_buffer_length_lt h
    let (bs, v) := u.scan
    (b :: bs, v)
termination_by t.buffer.length

end Transcript

end ChatRelay
