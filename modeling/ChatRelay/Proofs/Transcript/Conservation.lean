import ChatRelay.Proofs.Transcript.Numbering

/-!
# A scan only moves text

A scan cuts the current segment, which may stand anywhere among the others. What it cuts off goes on
in segments that it makes behind all others, where it may be cut again. So the segments there were
keep their places, all but the current one are as before, and what that one has lost at its end are
the texts of the made ones, one after another. `Transcript.Cut` says so of the segments that were
there and of those that were made; main result: `scan_cuts`.
-/

namespace ChatRelay

namespace Transcript

variable (front : List Segment) {g : Segment} (back : List Segment) (n : UInt64)
  {buffer : List Char} (opened : Option Marker)

/-- A scan of a transcript that writes in a segment leaves those before and behind it, and puts what
it takes off its end in segments at the end of all. The induction is on the scan: behind a cut the
transcript writes in the segment that was made last, of which the rest of the scan takes its part.
-/
theorem exists_segments_scan_writing (hb : buffer <:+ g.text) :
    ∃ g' made, (writing front g back n buffer opened).scan.2.segments =
        front ++ g' :: (back ++ made) ∧
      g'.label = g.label ∧ g.text = g'.text ++ made.flatMap Segment.text := by
  generalize ht : writing front g back n buffer opened = t
  fun_induction Transcript.scan t generalizing front g back n buffer opened with
  | case1 t h =>
    subst ht
    refine ⟨g, [], ?_, rfl, (List.append_nil _).symm⟩
    rw [List.append_nil, segments_settle]
    rfl
  | case2 t b u h hlt bs v hv ih =>
    subst ht
    rw [hv] at ih
    rcases step?_writing_cases hb h with
      ⟨g₁, _, _, rfl, hbuffer, htext, hid, horder⟩ |
      ⟨g₁, new, _, _, rfl, hbuffer, htext, -, hid, horder⟩
    · have hlabel : g₁.label = g.label := Prod.ext hid horder
      obtain ⟨g', made, hsegments, hsame, hmoved⟩ := ih _ _ _ _ hbuffer rfl
      exact ⟨g', made, hsegments, hsame.trans hlabel, htext.symm.trans hmoved⟩
    · have hlabel : g₁.label = g.label := Prod.ext hid horder
      obtain ⟨new', made, hsegments, -, hmoved⟩ := ih _ _ _ _ hbuffer rfl
      refine ⟨g₁, new' :: made, ?_, hlabel, ?_⟩
      · rw [hsegments]
        simp
      · rw [htext, hmoved, List.flatMap_cons]

/-- What a scan has made of the segments of a transcript: those there were, and those that it has
made, in the order in which it has made them. -/
structure Cut (t : Transcript) (kept made : List Segment) : Prop where
  /-- The segments there were keep their places and their numbers. -/
  labels_kept : kept.map Segment.label = t.labels
  /-- Each made segment has the number and the place after those before it. -/
  labels_made : made.map Segment.label = t.nextLabels made.length
  /-- No segment but the current one has changed at all. -/
  others_eq : ∀ i, t.current ≠ some i → kept[i]? = t.segments[i]?
  /-- The current segment has lost the texts of the made ones at its end. -/
  text_current : ∀ i, t.current = some i → ∃ g g', t.segments[i]? = some g ∧ kept[i]? = some g' ∧
    g.text = g'.text ++ made.flatMap Segment.text
  /-- Without a current segment nothing is made. -/
  made_eq_nil : t.current = none → made = []

variable {t u : Transcript} {kept made : List Segment}

/-- Each segment keeps a part of its text. -/
theorem Cut.length_kept (h : t.Cut kept made) : kept.length = t.segments.length := by
  rw [← List.length_map Segment.label, h.labels_kept, length_labels]

/-- If the current segment is the last one, what it has lost follows it, and the whole text is as
before. -/
theorem Cut.text_eq (h : t.Cut kept made) (hlast : t.current = some (t.segments.length - 1)) :
    (kept ++ made).flatMap Segment.text = t.text := by
  obtain ⟨g, g', hg, hg', htext⟩ := h.text_current _ hlast
  rw [← List.getLast?_eq_getElem?] at hg
  rw [← h.length_kept, ← List.getLast?_eq_getElem?] at hg'
  have hbefore : kept.dropLast = t.segments.dropLast := by
    apply List.ext_getElem?
    intro i
    rw [List.getElem?_dropLast, List.getElem?_dropLast, h.length_kept]
    by_cases hi : i < t.segments.length - 1
    · have hne : t.current ≠ some i := by
        rw [hlast]
        rintro ⟨⟩
        exact Nat.lt_irrefl _ hi
      rw [if_pos hi, if_pos hi, h.others_eq i hne]
    · rw [if_neg hi, if_neg hi]
  rw [← List.dropLast_append_getLast? g' hg', hbefore, text,
    ← List.dropLast_append_getLast? g hg, List.dropLast_concat]
  simp [htext]

/-! ### Scans cut -/

/-- Without a current segment all segments are kept. -/
theorem cut_of_current_eq_none (h : t.current = none) : t.Cut t.segments [] := by
  constructor
  case labels_kept => rfl
  case labels_made => rfl
  case others_eq =>
    intro i _
    rfl
  case text_current =>
    intro i hi
    exact nomatch h.symm.trans hi
  case made_eq_nil =>
    intro _
    rfl

/-- A transcript that writes in a segment is cut if that segment is. -/
theorem cut_writing {g' : Segment} (hlabel : g'.label = g.label)
    (hmade : made.map Segment.label =
      (writing front g back n buffer opened).nextLabels made.length)
    (htext : g.text = g'.text ++ made.flatMap Segment.text) :
    (writing front g back n buffer opened).Cut (front ++ g' :: back) made := by
  constructor
  case labels_kept => simp [labels, writing, hlabel]
  case labels_made => exact hmade
  case others_eq =>
    intro i hi
    have hne : front.length ≠ i := fun heq => hi (congrArg some heq)
    have hset : front ++ g' :: back =
        (writing front g back n buffer opened).segments.set front.length g' := by
      simp [writing]
    rw [hset, List.getElem?_set_ne hne]
  case text_current =>
    rintro i ⟨⟩
    refine ⟨g, g', ?_, ?_, htext⟩
    · simp [writing]
    · simp
  case made_eq_nil =>
    intro hnone
    cases hnone

/-- What is numbered on stands behind the segments there were. -/
theorem Numbers.labels_made {m : Nat} (h : Numbers t u m) (hsegments : u.segments = kept ++ made)
    (hkept : kept.map Segment.label = t.labels) :
    made.map Segment.label = t.nextLabels made.length := by
  have hlabels : made.map Segment.label = t.nextLabels m := by
    have hboth : t.labels ++ made.map Segment.label = t.labels ++ t.nextLabels m := by
      rw [← h.labels_eq, ← hkept, ← List.map_append, ← hsegments, labels]
    exact List.append_cancel_left hboth
  have hlength : made.length = m := by
    rw [← List.length_map Segment.label, hlabels]
    simp [nextLabels]
  rw [hlength, hlabels]

/-- A scan of a sound transcript only cuts it. -/
theorem Sound.exists_cut_scan (ht : t.Sound) :
    ∃ kept made, t.scan.2.segments = kept ++ made ∧ t.Cut kept made := by
  rcases ht.eq_writing with ⟨hc, -⟩ | ⟨front, g, back, n, buffer, opened, rfl, hb⟩
  · refine ⟨t.segments, [], ?_, cut_of_current_eq_none hc⟩
    rw [scan_of_step?_eq_none (ht.step?_eq_none hc), segments_settle, List.append_nil]
  · obtain ⟨g', made, hsegments, hlabel, htext⟩ :=
      exists_segments_scan_writing front back n opened hb
    rw [← List.cons_append, ← List.append_assoc] at hsegments
    refine ⟨front ++ g' :: back, made, hsegments, cut_writing front back n opened hlabel ?_ htext⟩
    apply (numbers_scan _).labels_made hsegments
    simp [labels, writing, hlabel]

/-- Whatever has been done to an empty transcript before, wherever its current segment stands: a
scan ends, at offsets too, and only moves text. The segments there were keep their places and all
but the current one stay as they are; the text of that one was what it still has and then the texts
of the segments that the scan has made, in the order in which it has made them, and these stand
behind all others. So no character is lost, doubled or put elsewhere, and if the current segment is
the last one, the whole text is the same. -/
theorem scan_cuts (edits : List Edit) :
    let t := after edits
    t.scanAt? = some t.scan ∧
      ∃ kept made, t.scan.2.segments = kept ++ made ∧ t.Cut kept made ∧
        (t.current = some (t.segments.length - 1) → t.scan.2.text = t.text) := by
  intro t
  have ht : t.Sound := sound_after edits
  obtain ⟨kept, made, hsegments, hcut⟩ := ht.exists_cut_scan
  refine ⟨ht.scanAt?_eq, kept, made, hsegments, hcut, ?_⟩
  intro hlast
  rw [text, hsegments, hcut.text_eq hlast]

/-- A segment that another one follows is cut at both ends of a block. -/
example :
    (after [.appendTo ⟨1⟩ "x".toList, .appendTo ⟨2⟩ "y".toList,
      .appendTo ⟨1⟩ "a<think>b</think>c".toList, .scan]).segments.map Segment.text =
      ["xa".toList, "y".toList, "<think>b</think>".toList, "c".toList] := by
  decide +kernel

end Transcript

end ChatRelay
