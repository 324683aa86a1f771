import ChatRelay.Proofs.Reply.Reading
import ChatRelay.Proofs.Transcript.Gaps

/-!
# Empty segments of a reply

Whatever a reply takes, only the last segment of its transcript can be empty (`Reply.gapless_run`),
since the mark that ends a block, and every text that is said, goes to the last segment before
another is begun. The last delta drops that segment if it is empty, so a reply that has just ended
has no empty segment (`Reply.gapless_step`).
-/

namespace ChatRelay

namespace Transcript

/-- A segment that gets a type keeps its text. -/
theorem Filled.retypeCurrent {t : Transcript} (ht : t.Filled) (m : Marker) :
    (t.retypeCurrent m).Filled := by
  unfold Transcript.retypeCurrent
  split
  · next g _ =>
    cases h : t.retype? m.kind [("text", .ofText (m.strip g.text))] g.id with
    | none => exact ht
    | some u => exact ht.retype? h
  · exact ht

end Transcript

namespace Reply

variable {r : Reply}

/-! ### Steps of a delta -/

/-- Where a block ends its mark is written first, so only the segment after it is empty. -/
theorem gapless_endBlock (hr : r.transcript.WrittenAtEnd) (ht : r.transcript.Gapless) (m : Marker)
    {mark : List Char} (hmark : mark ≠ []) : (r.endBlock m mark).1.transcript.Gapless := by
  rw [endBlock_fst]
  exact ((ht.filled_append hr hmark).retypeCurrent m).gapless_beginText []

/-- No gap is left when a text is said. -/
theorem gapless_say (hr : r.transcript.WrittenAtEnd) (ht : r.transcript.Gapless) (c : Channel)
    (text : List Char) : (r.say c text).1.transcript.Gapless := by
  by_cases h : text = []
  · subst h
    exact ht
  · rw [say_of_ne_nil r c h]
    exact (ht.filled_append hr h).gapless.scan (hr.append text)

/-- No gap is left by the marks of thinking. -/
theorem gapless_markThinking (hr : r.transcript.WrittenAtEnd) (ht : r.transcript.Gapless)
    (c : Channel) (text : List Char) : (r.markThinking c text).1.transcript.Gapless := by
  unfold markThinking
  split
  · split <;> exact ht
  · split
    · exact gapless_endBlock hr ht .think (by decide)
    · exact ht

/-- No gap is left by the marks of a tool call. -/
theorem gapless_markCalling (hr : r.transcript.WrittenAtEnd) (ht : r.transcript.Gapless)
    (c : Channel) (text : List Char) (done : Bool) :
    (r.markCalling c text done).1.transcript.Gapless := by
  unfold markCalling
  split
  · split <;> exact ht
  · split
    · split
      · exact gapless_endBlock hr ht .tool (by decide)
      · exact ht
    · exact ht

/-- After text on a channel only the last segment can be empty, and not even that at the end of the
reply. -/
theorem gapless_advance (hr : r.transcript.WrittenAtEnd) (ht : r.transcript.Gapless) {c : Channel}
    (hc : c ≠ .error) (text : List Char) (done : Bool) :
    (r.advance c text done).reply.transcript.Gapless ∧
      (done = true → (r.advance c text done).reply.transcript.Filled) := by
  have hthink := speaks_markThinking hr c text
  have hcall := speaks_markCalling hthink.writtenAtEnd c (r.markThinking c text).2.2 done
  have hsay := speaks_say hcall.writtenAtEnd hc
    ((r.markThinking c text).1.markCalling c (r.markThinking c text).2.2 done).2.2
  have hgapless := gapless_say hcall.writtenAtEnd
    (gapless_markCalling hthink.writtenAtEnd (gapless_markThinking hr ht c text) c
      (r.markThinking c text).2.2 done)
    c ((r.markThinking c text).1.markCalling c (r.markThinking c text).2.2 done).2.2
  unfold advance
  cases done with
  | false => exact ⟨hgapless, nofun⟩
  | true =>
    have hfilled := hgapless.filled_dropEmptyLast hsay.writtenAtEnd
    exact ⟨hfilled.gapless, fun _ => hfilled⟩

/-! ### Deltas, frames and runs -/

/-- After a delta only the last segment can be empty, and not even that if the delta is the last. -/
theorem gapless_take (hr : r.transcript.WrittenAtEnd) (ht : r.transcript.Gapless) (d : Delta) :
    (r.take d).reply.transcript.Gapless ∧
      ((r.take d).step = .done → (r.take d).reply.transcript.Filled) := by
  unfold take
  split
  · exact ⟨ht, nofun⟩
  split
  · exact ⟨ht, nofun⟩
  next herror =>
  split
  · have hpiece := speaks_advance hr herror d.text false
    have hlast := gapless_advance hpiece.writtenAtEnd (gapless_advance hr ht herror d.text false).1
      (c := .text) nofun [] true
    exact ⟨hlast.1, fun _ => hlast.2 rfl⟩
  · have hpiece := gapless_advance hr ht herror d.text d.done
    refine ⟨hpiece.1, fun hdone => hpiece.2 ?_⟩
    rw [step_advance] at hdone
    cases hd : d.done with
    | true => rfl
    | false =>
      rw [hd] at hdone
      exact nomatch hdone

/-- What one input leaves: only the last segment can be empty, and not even that if the reply ends
with it. -/
theorem gapless_step (hr : r.transcript.WrittenAtEnd) (ht : r.transcript.Gapless) (i : Input) :
    (r.step i).reply.transcript.Gapless ∧
      ((r.step i).step = .done → (r.step i).reply.transcript.Filled) := by
  cases i with
  | delta d => exact gapless_take hr ht d
  | close => exact gapless_take hr ht _
  | frame raw =>
    show (r.takeFrame raw).reply.transcript.Gapless ∧
      ((r.takeFrame raw).step = .done → (r.takeFrame raw).reply.transcript.Filled)
    rw [takeFrame_eq]
    cases (r.read raw).2 with
    | none => exact ⟨ht, nofun⟩
    | some d => exact gapless_take (r := { r with pending := (r.read raw).1 }) hr ht d

/-- After any inputs only the last segment of a transcript can be empty. -/
theorem gapless_run (hr : r.transcript.WrittenAtEnd) (ht : r.transcript.Gapless)
    (inputs : List Input) : (r.run inputs).1.transcript.Gapless := by
  induction inputs generalizing r with
  | nil => exact ht
  | cons i rest ih => exact ih (speaks_step hr i).writtenAtEnd (gapless_step hr ht i).1

end Reply

end ChatRelay
