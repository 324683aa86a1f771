import ChatRelay.Proofs.Transcript.Numbering
import ChatRelay.Proofs.Transcript.Retention

/-!
# What a scan leaves to be scanned

A scan cuts at one boundary after another until it finds none. Nothing counts its steps; it ends
since each step takes the marker that it has found out of the buffer, and no marker is shorter than
six characters. In the end the buffer holds no boundary, and nothing that need not be remembered:
the transcript is settled (`Transcript.Settled`), and the settled transcripts are those that a scan
leaves as they are (`settled_iff`).

Main result: whatever has been done to an empty transcript, a scan ends with a settled one
(`scan_settles`).
-/

namespace ChatRelay

/-- No character is shorter than a byte. -/
theorem Text.length_le_size (s : List Char) : s.length ≤ Text.size s := by
  induction s with
  | nil => exact Nat.le_refl 0
  | cons c cs ih =>
    have := c.utf8Size_pos
    rw [List.length_cons, Text.size_cons]
    omega

namespace Transcript

variable {t u v : Transcript} {b : Boundary} {bs : List Boundary}

/-! ### Scans that nothing counts -/

/-- A scan at offsets, step after step for as long as a boundary is found. -/
inductive ScansTo : Transcript → List Boundary → Transcript → Prop
  | done {t u : Transcript} (hstep : t.stepAt? = some none) (hsettle : t.settleAt? = some u) :
    ScansTo t [] u
  | next {t u v : Transcript} {b : Boundary} {bs : List Boundary}
      (hstep : t.stepAt? = some (some (b, u))) (hrest : ScansTo u bs v) :
    ScansTo t (b :: bs) v

/-- The scan of a sound transcript ends. -/
theorem Sound.scansTo_scan (ht : t.Sound) : t.ScansTo t.scan.1 t.scan.2 := by
  fun_induction Transcript.scan t with
  | case1 t h =>
    apply ScansTo.done
    · rw [ht.stepAt?_eq, h]
    · exact settleAt?_eq h
  | case2 t b u h hlt bs v hv ih =>
    rw [hv] at ih
    apply ScansTo.next
    · rw [ht.stepAt?_eq, h]
    · exact ih (ht.step? h)

/-- It can end in no other way. The induction is on the scan that is given, whose steps are those of
the transcript. -/
theorem ScansTo.scan_eq (h : t.ScansTo bs v) (ht : t.Sound) : t.scan = (bs, v) := by
  induction h with
  | done hstep hsettle =>
    rw [ht.stepAt?_eq] at hstep
    have hnone := Option.some.inj hstep
    rw [settleAt?_eq hnone] at hsettle
    rw [scan_of_step?_eq_none hnone, Option.some.inj hsettle]
  | next hstep hrest ih =>
    rw [ht.stepAt?_eq] at hstep
    have hsome := Option.some.inj hstep
    rw [scan_of_step? hsome, ih (ht.step? hsome)]

/-- Of a sound transcript the steps of a scan lead to what the scan gives. -/
theorem Sound.scansTo_iff (ht : t.Sound) : t.ScansTo bs v ↔ t.scan = (bs, v) := by
  constructor
  · intro h
    exact h.scan_eq ht
  · intro h
    have hscans := ht.scansTo_scan
    rw [h] at hscans
    exact hscans

/-! ### How many boundaries are found -/

/-- What is left to remember is no more than there was. -/
theorem buffer_settle_isSuffix (t : Transcript) : t.settle.buffer <:+ t.buffer := by
  unfold settle
  split
  · exact Marker.partialOpening_isSuffix t.buffer
  · exact List.suffix_rfl

/-- Each boundary that a scan finds takes six characters or more out of the buffer. -/
theorem six_mul_length_scan_le (t : Transcript) :
    6 * t.scan.1.length + t.scan.2.buffer.length ≤ t.buffer.length := by
  fun_induction Transcript.scan t with
  | case1 t h =>
    have := t.buffer_settle_isSuffix.length_le
    simpa using this
  | case2 t b u h hlt bs v hv ih =>
    have hrest : 6 * bs.length + v.buffer.length ≤ u.buffer.length := by
      rwa [hv] at ih
    have hstep := step?_buffer_length_add_six_le h
    show 6 * (b :: bs).length + v.buffer.length ≤ t.buffer.length
    rw [List.length_cons]
    omega

/-! ### Settled transcripts -/

/-- Nothing is left to be done by a scan. While no block is open, the buffer holds no opening marker
and is empty or the beginning of one; in a block, it does not hold the marker that closes the block.
-/
def Settled (t : Transcript) : Prop :=
  match t.opened with
  | none => Marker.Unopened t.buffer ∧ (t.buffer = [] ∨ Marker.Begun t.buffer)
  | some m => ¬m.closing <:+: t.buffer

/-- In a settled transcript no boundary is found. -/
theorem Settled.step?_eq_none (ht : t.Settled) : t.step? = none := by
  obtain ⟨segments, current, n, buffer, opened⟩ := t
  cases opened with
  | none =>
    have hunopened : Marker.Unopened buffer := ht.1
    exact Option.map_eq_none_iff.2 hunopened.findOpening?
  | some m => exact Option.map_eq_none_iff.2 (Text.cutAt?_eq_none_iff.2 ht)

/-- All that a settled transcript remembers is kept. -/
theorem Settled.settle_eq (ht : t.Settled) : t.settle = t := by
  obtain ⟨segments, current, n, buffer, opened⟩ := t
  cases opened with
  | some m => rfl
  | none =>
    have hbuffer : Marker.partialOpening buffer = buffer := by
      rcases ht.2 with hnil | hbegun
      · change buffer = [] at hnil
        rw [hnil]
        rfl
      · exact hbegun.partialOpening_eq
    show Transcript.mk segments current n (Marker.partialOpening buffer) none = _
    rw [hbuffer]

/-- Where no boundary is found, what is left to remember makes a settled transcript. -/
theorem settled_settle (h : t.step? = none) : t.settle.Settled := by
  obtain ⟨segments, current, n, buffer, opened⟩ := t
  cases opened with
  | none =>
    have hunopened : Marker.Unopened buffer :=
      Marker.findOpening?_eq_none_iff.1 (Option.map_eq_none_iff.1 h)
    constructor
    · exact hunopened.of_isSuffix (Marker.partialOpening_isSuffix buffer)
    · rw [or_iff_not_imp_left]
      exact (Marker.longestBegun_partialOpening buffer).begun
  | some m => exact Text.cutAt?_eq_none_iff.1 (Option.map_eq_none_iff.1 h)

/-- A scan leaves a settled transcript. -/
theorem settled_scan (t : Transcript) : t.scan.2.Settled := by
  fun_induction Transcript.scan t with
  | case1 t h => exact settled_settle h
  | case2 t b u h hlt bs v hv ih =>
    rw [hv] at ih
    exact ih

/-- The settled transcripts are those that a scan leaves as they are. -/
theorem settled_iff : t.Settled ↔ t.scan = ([], t) := by
  constructor
  · intro ht
    rw [scan_of_step?_eq_none ht.step?_eq_none, ht.settle_eq]
  · intro h
    have hsettled := t.settled_scan
    rw [h] at hsettled
    exact hsettled

/-- Whatever has been done to an empty transcript before: a scan ends, although nothing counts its
steps, and what it finds and leaves is given by `scan`. It finds at most one boundary for each six
characters of the buffer, and so for each six bytes, and leaves a settled transcript. Another scan
right after it ends too, finds nothing, and leaves all as it is. -/
theorem scan_settles (edits : List Edit) :
    let t := after edits
    (∀ bs u, t.ScansTo bs u ↔ t.scan = (bs, u)) ∧
      t.scan.1.length ≤ t.buffer.length / 6 ∧
      t.buffer.length / 6 ≤ Text.size t.buffer / 6 ∧
      t.scan.2.Settled ∧
      ∀ bs u, t.scan.2.ScansTo bs u ↔ bs = [] ∧ u = t.scan.2 := by
  intro t
  have ht : t.Sound := sound_after edits
  have hsettled : t.scan.2.Settled := t.settled_scan
  refine ⟨fun bs u => ht.scansTo_iff, ?_, ?_, hsettled, ?_⟩
  · have := t.six_mul_length_scan_le
    omega
  · exact Nat.div_le_div_right (Text.length_le_size t.buffer)
  · intro bs u
    rw [ht.scan.scansTo_iff, settled_iff.1 hsettled, Prod.mk.injEq]
    exact and_congr eq_comm eq_comm

/-- The beginning of a marker is left in the buffer, and a marker in the block that it does not
close. -/
example :
    (after [.append "a<think>b</think>c<to".toList, .scan]).buffer = "<to".toList ∧
      (after [.append "<think>a</tool>".toList, .scan]).buffer = "a</tool>".toList := by
  decide +kernel

end Transcript

end ChatRelay
