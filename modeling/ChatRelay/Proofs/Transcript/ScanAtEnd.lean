import ChatRelay.Proofs.Transcript.AtEnd

/-!
# Scanning at the end of a transcript

What a scan does to a transcript that is written at its end. Each boundary cuts the last segment in
two: an opening marker moves itself and the text after it to a segment of its own, unless nothing is
left before it, and a closing marker leaves the text after it to a new text segment. A scan
therefore keeps the whole text (`WrittenAtEnd.text_scan`) and leaves the transcript written at its
end (`WrittenAtEnd.scan`), and every boundary that it reports is one of a marked block.
-/

namespace ChatRelay

open Json (Value Object)

namespace Transcript

variable (before : List Segment) (last : Segment) (n : UInt64) (buffer : List Char)
  (opened : Option Marker)

/-! ### Cutting -/

/-- At an opening marker the block gets a segment of its own, or the last one if that holds nothing
else. -/
theorem openBlock_atEnd {kept tails : List Char} {m : Marker} (s : List Char)
    (h : last.text = kept ++ (m.opening ++ tails)) :
    (atEnd before last n buffer opened).openBlock s m tails =
      if kept = [] then
        (⟨m.kind, last.id, true, s, tails⟩,
          atEnd before { last with kind := m.kind } n tails (some m))
      else
        (⟨m.kind, ⟨n + 1⟩, true, s, tails⟩,
          atEnd (before ++ [{ last with text := kept }])
            ⟨⟨n + 1⟩, m.kind, m.opening ++ tails, [], before.length + 1⟩
            (n + 1) tails (some m)) :=
  openBlock_writing s h

/-- At a closing marker the block ends, and the text after it begins a new segment. -/
theorem closeBlock_atEnd {kept tails : List Char} (m : Marker) (inner : List Char)
    (h : last.text = kept ++ tails) :
    (atEnd before last n buffer opened).closeBlock m inner tails =
      (⟨m.kind, last.id, false, inner, tails⟩,
        atEnd
          (before ++ [{ last with
            kind := m.kind
            text := kept
            props := Table.set last.props "text" (.ofText (Text.trim inner)) }])
          ⟨⟨n + 1⟩, .text, tails, [], before.length + 1⟩ (n + 1) tails none) :=
  closeBlock_writing m inner h

/-! ### Scanning -/

variable {before last n buffer opened}

/-- Each step of a scan cuts the last segment, and text is neither lost nor moved nor made. -/
theorem step?_atEnd (hb : buffer <:+ last.text) {b : Boundary} {u : Transcript}
    (h : (atEnd before last n buffer opened).step? = some (b, u)) :
    u.WrittenAtEnd ∧ u.text = (atEnd before last n buffer opened).text ∧
      ∃ m : Marker, b.kind = m.kind := by
  cases opened with
  | none =>
    obtain ⟨⟨s, m, tails⟩, hfind, heq⟩ := Option.map_eq_some_iff.1 h
    change (atEnd before last n buffer none).openBlock s m tails = _ at heq
    obtain ⟨kept, hlast⟩ := exists_eq_opening hb hfind
    rw [openBlock_atEnd before last n buffer none s hlast] at heq
    split at heq
    · next hk =>
      obtain ⟨rfl, rfl⟩ := Prod.mk.inj heq
      refine ⟨.atEnd _ _ _ _ _ ?_, by simp, m, rfl⟩
      show tails <:+ last.text
      rw [hlast, ← List.append_assoc]
      exact List.suffix_append _ _
    · obtain ⟨rfl, rfl⟩ := Prod.mk.inj heq
      refine ⟨.atEnd _ _ _ _ _ (List.suffix_append _ _), ?_, m, rfl⟩
      simp [hlast]
  | some m =>
    obtain ⟨⟨inner, tails⟩, hcut, heq⟩ := Option.map_eq_some_iff.1 h
    change (atEnd before last n buffer (some m)).closeBlock m inner tails = _ at heq
    obtain ⟨kept, hlast⟩ := exists_eq_closing hb hcut
    rw [closeBlock_atEnd before last n buffer (some m) m inner hlast] at heq
    obtain ⟨rfl, rfl⟩ := Prod.mk.inj heq
    refine ⟨.atEnd _ _ _ _ _ List.suffix_rfl, ?_, m, rfl⟩
    simp [hlast]

/-- A step of a scan finds something only where there is a segment. -/
theorem step?_vacant (n : UInt64) : (vacant n).step? = none := rfl

/-- What is left to remember is still an end of the last segment's text. -/
theorem WrittenAtEnd.settle {t : Transcript} (h : t.WrittenAtEnd) : t.settle.WrittenAtEnd := by
  cases h with
  | vacant n => exact .vacant n
  | atEnd before last n buffer opened hb =>
    cases opened with
    | none => exact .atEnd _ _ _ _ _ ((Marker.partialOpening_isSuffix buffer).trans hb)
    | some m => exact .atEnd _ _ _ _ _ hb

/-- To drop what need not be remembered changes no text. -/
@[simp] theorem text_settle (t : Transcript) : t.settle.text = t.text := by
  unfold settle
  split <;> rfl

/-- A step of a scan, for any transcript that is written at its end. -/
theorem WrittenAtEnd.step? {t u : Transcript} {b : Boundary} (ht : t.WrittenAtEnd)
    (h : t.step? = some (b, u)) :
    u.WrittenAtEnd ∧ u.text = t.text ∧ ∃ m : Marker, b.kind = m.kind := by
  cases ht with
  | vacant n => exact absurd h (by rw [step?_vacant]; exact nofun)
  | atEnd before last n buffer opened hb => exact step?_atEnd hb h

/-- A whole scan keeps the text and the place of writing, and reports boundaries of marked blocks
only. -/
theorem WrittenAtEnd.scan_facts {t : Transcript} (ht : t.WrittenAtEnd) :
    t.scan.2.WrittenAtEnd ∧ t.scan.2.text = t.text ∧
      ∀ b ∈ t.scan.1, ∃ m : Marker, b.kind = m.kind := by
  fun_induction Transcript.scan t with
  | case1 t h => exact ⟨ht.settle, text_settle t, fun b hb => absurd hb List.not_mem_nil⟩
  | case2 t b u h hlt bs v hv ih =>
    obtain ⟨hu, htext, hkind⟩ := ht.step? h
    obtain ⟨hv₁, hv₂, hv₃⟩ := ih hu
    rw [hv] at hv₁ hv₂ hv₃
    refine ⟨hv₁, hv₂.trans htext, ?_⟩
    intro c hc
    rcases List.mem_cons.1 hc with rfl | hc
    · exact hkind
    · exact hv₃ c hc

/-- A scan leaves a transcript written at its end. -/
theorem WrittenAtEnd.scan {t : Transcript} (ht : t.WrittenAtEnd) : t.scan.2.WrittenAtEnd :=
  ht.scan_facts.1

/-- A scan keeps the whole text. -/
theorem WrittenAtEnd.text_scan {t : Transcript} (ht : t.WrittenAtEnd) : t.scan.2.text = t.text :=
  ht.scan_facts.2.1

/-- Every boundary that a scan reports is one of a marked block. -/
theorem WrittenAtEnd.kind_of_mem_scan {t : Transcript} (ht : t.WrittenAtEnd) {b : Boundary}
    (hb : b ∈ t.scan.1) : ∃ m : Marker, b.kind = m.kind :=
  ht.scan_facts.2.2 b hb

end Transcript

end ChatRelay
