import ChatRelay.Proofs.Transcript.ScanAtEnd

/-!
# Empty segments

An empty segment is made where a block ends, for the text that may follow. It is the last segment of
the transcript, and it is written in before any other is made: text fills it, and a block that
begins with nothing before it takes it over. So no two of them pile up. `Transcript.Gapless` says
that only the last segment can be empty, and is kept by every operation; appended text, and the
dropping of an empty last segment, leave no segment empty at all (`Transcript.Filled`).
-/

namespace ChatRelay

namespace Transcript

/-- No segment is empty. -/
def Filled (t : Transcript) : Prop :=
  ∀ g ∈ t.segments, g.text ≠ []

/-- Only the last segment can be empty. -/
def Gapless (t : Transcript) : Prop :=
  ∀ g ∈ t.segments.dropLast, g.text ≠ []

instance (t : Transcript) : Decidable t.Filled :=
  inferInstanceAs (Decidable (∀ g ∈ t.segments, g.text ≠ []))

instance (t : Transcript) : Decidable t.Gapless :=
  inferInstanceAs (Decidable (∀ g ∈ t.segments.dropLast, g.text ≠ []))

variable {t u : Transcript}

/-- Where no segment is empty none but the last is. -/
theorem Filled.gapless (h : t.Filled) : t.Gapless := fun g hg =>
  h g (List.dropLast_subset _ hg)

@[simp] theorem filled_vacant (n : UInt64) : (vacant n).Filled := fun _ hg =>
  absurd hg List.not_mem_nil

variable {before : List Segment} {last : Segment} {n : UInt64} {buffer : List Char}
  {opened : Option Marker}

/-- No segment is empty exactly if none before the last is, nor the last itself. -/
@[simp] theorem filled_atEnd :
    (atEnd before last n buffer opened).Filled ↔ (∀ g ∈ before, g.text ≠ []) ∧ last.text ≠ [] := by
  simp [Filled, atEnd, or_imp, forall_and]

/-- Only the segments before the last may be gaps. -/
@[simp] theorem gapless_atEnd :
    (atEnd before last n buffer opened).Gapless ↔ ∀ g ∈ before, g.text ≠ [] := by
  simp [Gapless, atEnd]

/-! ### Writing -/

/-- Text that is appended fills the last segment. -/
theorem Gapless.filled_append (ht : t.Gapless) (hend : t.WrittenAtEnd) {s : List Char}
    (hs : s ≠ []) : (t.append s).Filled := by
  cases hend with
  | vacant n =>
    rw [append_vacant n hs, filled_atEnd]
    exact ⟨fun _ hg => absurd hg List.not_mem_nil, hs⟩
  | atEnd before last n buffer opened _ =>
    rw [append_atEnd, filled_atEnd]
    exact ⟨gapless_atEnd.1 ht, List.append_ne_nil_of_right_ne_nil _ hs⟩

/-- A segment that is begun behind segments with text is the only one that can be empty. -/
theorem Filled.gapless_beginText (ht : t.Filled) (s : List Char) : (t.beginText s).Gapless := by
  rw [beginText_eq, gapless_atEnd]
  exact ht

/-- A change of a segment that keeps its text leaves no segment empty. -/
theorem Filled.modify (ht : t.Filled) (i : Nat) {f : Segment → Segment}
    (hf : ∀ g, (f g).text = g.text) : (t.modify i f).Filled := by
  intro g hg
  change g ∈ t.segments.modify i f at hg
  obtain ⟨j, hj, rfl⟩ := List.mem_iff_getElem.1 hg
  rw [List.length_modify] at hj
  rw [List.getElem_modify]
  split
  · rw [hf]
    exact ht _ (List.getElem_mem hj)
  · exact ht _ (List.getElem_mem hj)

/-- A segment that gets a type is as empty as before. -/
theorem Filled.retype? (ht : t.Filled) {kind : ContentType} {props : Json.Object} {id : SegmentId}
    (h : t.retype? kind props id = some u) : u.Filled := by
  obtain ⟨i, -, rfl⟩ := Option.map_eq_some_iff.1 h
  exact ht.modify i fun _ => rfl

/-- Without its last segment, if that is empty, a transcript has no empty segment. -/
theorem Gapless.filled_dropEmptyLast (ht : t.Gapless) (hend : t.WrittenAtEnd) :
    t.dropEmptyLast.Filled := by
  cases hend with
  | vacant n => exact filled_vacant n
  | atEnd before last n buffer opened _ =>
    have hbefore := gapless_atEnd.1 ht
    by_cases hlast : last.text = []
    · rw [dropEmptyLast_atEnd_of_nil _ _ _ _ _ hlast]
      rcases List.eq_nil_or_concat before with rfl | ⟨l, g, rfl⟩
      · exact filled_vacant n
      · rw [List.concat_eq_append] at hbefore ⊢
        rw [List.getLast?_concat, List.dropLast_concat]
        dsimp only
        rw [filled_atEnd]
        exact ⟨fun s hs => hbefore s (List.mem_append_left _ hs),
          hbefore g (List.mem_append_right _ (List.mem_singleton_self g))⟩
    · rw [dropEmptyLast_atEnd_of_ne_nil _ _ _ _ _ hlast, filled_atEnd]
      exact ⟨hbefore, hlast⟩

/-! ### Scanning -/

/-- A step of a scan takes an empty segment over or leaves some text in the segment that it cuts. -/
theorem Gapless.step? (ht : t.Gapless) (hend : t.WrittenAtEnd) {b : Boundary}
    (h : t.step? = some (b, u)) : u.Gapless := by
  cases hend with
  | vacant n => exact nomatch (step?_vacant n).symm.trans h
  | atEnd before last n buffer opened hb =>
    have hbefore := gapless_atEnd.1 ht
    rcases step?_writing_cases hb h with
      ⟨g, _, _, rfl, -, -, -, -⟩ | ⟨g, new, _, _, rfl, -, -, hne, -, -⟩
    · exact gapless_atEnd.2 hbefore
    · refine gapless_atEnd.2 fun s hs => ?_
      rcases List.mem_append.1 hs with hs | hs
      · exact hbefore s hs
      · rw [List.mem_singleton.1 hs]
        exact hne

/-- After a scan, too, only the last segment can be empty. -/
theorem Gapless.scan (ht : t.Gapless) (hend : t.WrittenAtEnd) : t.scan.2.Gapless := by
  fun_induction Transcript.scan t with
  | case1 t h =>
    show t.settle.Gapless
    unfold Gapless
    rw [segments_settle]
    exact ht
  | case2 t b u h hlt bs v hv ih =>
    rw [hv] at ih
    exact ih (ht.step? hend h) (hend.step? h).1

end Transcript

end ChatRelay
