import ChatRelay.Proofs.Transcript.Offsets

/-!
# Text in pieces and text at once

A text may reach a transcript in any pieces, with a scan after each of them (`Transcript.feed`), or
as a whole with a single scan. The scan of a piece looks only at what the scans before it have left
in the buffer, yet nothing depends on where the text was divided: the transcript in the end is the
same, and so are the boundaries, up to the text that a scan happened to see before an opening marker
and after any marker (`feed_eq_scan`).
-/

namespace ChatRelay

namespace Transcript

variable {t : Transcript}

/-- Appends the pieces of a text, with a scan after each: the boundaries that are found, and the
transcript in the end. -/
def feed (t : Transcript) : List (List Char) → List Boundary × Transcript
  | [] => ([], t)
  | p :: ps =>
    let (bs, u) := (t.append p).scan
    let (cs, v) := u.feed ps
    (bs ++ cs, v)

/-- What feeding a text finds, and the transcript that it leaves. -/
def fed (t : Transcript) (ps : List (List Char)) : List Crossing × Transcript :=
  ((t.feed ps).1.map Boundary.crossing, (t.feed ps).2)

@[simp] theorem fed_nil (t : Transcript) : t.fed [] = ([], t) := rfl

/-- Of pieces of text the first is written and scanned, and then the others. -/
theorem fed_cons (t : Transcript) (p : List Char) (ps : List (List Char)) :
    t.fed (p :: ps) =
      ((t.append p).scanned.1 ++ ((t.append p).scan.2.fed ps).1,
        ((t.append p).scan.2.fed ps).2) := by
  rw [fed, feed]
  exact Prod.ext List.map_append rfl

/-- A text of at least one piece is scanned piece by piece as it is at once. The induction is on the
pieces after the first: the transcript after the scan of the first one takes the place of the
transcript before, and `Sound.scanned_append` puts the two scans together. -/
theorem Sound.fed_cons_eq_scanned (ht : t.Sound) (p : List Char) (ps : List (List Char)) :
    t.fed (p :: ps) = (t.append (p :: ps).flatten).scanned := by
  induction ps generalizing t p with
  | nil => simp [fed_cons, scanned]
  | cons q qs ih =>
    have hnext : ((t.append p).scan.2).Sound := (ht.append p).scan
    have hwhole : t.append (p :: q :: qs).flatten = (t.append p).append (q :: qs).flatten := by
      rw [ht.append_append, List.flatten_cons]
    rw [fed_cons, ih hnext q, hwhole, (ht.append p).scanned_append]

/-- Whatever has been done to an empty transcript before: a text that is appended in one piece or
more, with a scan after each, leaves the same transcript as the whole text with a single scan. The
boundaries of all the scans are those of the single scan, in the same order: each marks the
beginning or the end of a block of the same kind in the same segment, and where a block ends, its
content is the same. -/
theorem feed_eq_scan (edits : List Edit) (p : List Char) (ps : List (List Char)) :
    let t := edits.foldl edit empty
    let pieces := t.feed (p :: ps)
    let whole := (t.append (p :: ps).flatten).scan
    pieces.2 = whole.2 ∧
      pieces.1.map Boundary.crossing = whole.1.map Boundary.crossing := by
  intro t pieces whole
  have ht : t.Sound := sound_empty.foldl edits
  obtain ⟨hfound, hleft⟩ := Prod.ext_iff.1 (ht.fed_cons_eq_scanned p ps)
  exact ⟨hleft, hfound⟩

end Transcript

end ChatRelay
