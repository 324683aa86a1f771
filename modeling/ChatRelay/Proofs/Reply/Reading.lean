import ChatRelay.Proofs.Reply.Speaking

/-!
# What a reply leaves unread

A provider frame that cannot be read leaves its data unread, and these are never empty
(`Delta.text_ne_nil_of_pending`). Nothing but such a frame leaves anything unread
(`Reply.pending_take`), and only an error of the provider makes a reply fail (`Reply.step_take`).
-/

namespace ChatRelay

open Json (Value Object)

namespace Delta

open Provider

/-- A piece of a choice, whether or not it is the last, is not left unread. -/
theorem pending_of_piece {done : Bool} {channel : Channel} {text : List Char} {d : Delta}
    (h : some (if done then (on channel text).finished else on channel text) = some d) :
    d.pending = false := by
  cases h
  cases done <;> rfl

/-- A choice is never left unread. -/
theorem pending_of_choice {c : Choice} {d : Delta} (h : c.delta? = some d) : d.pending = false := by
  unfold Choice.delta? at h
  dsimp only at h
  cases hthink : nonEmpty? (c.addition.reasoningContent.or c.addition.reasoning) with
  | some text =>
    rw [hthink] at h
    exact pending_of_piece h
  | none =>
    rw [hthink] at h
    dsimp only at h
    by_cases hcalls : c.addition.toolCalls.isEmpty
    · rw [if_pos hcalls] at h
      cases hcontent : nonEmpty? c.addition.content with
      | some text =>
        rw [hcontent] at h
        exact pending_of_piece h
      | none =>
        rw [hcontent] at h
        cases hdone : c.finishReason.isSome with
        | true =>
          rw [hdone] at h
          cases h
          rfl
        | false =>
          rw [hdone] at h
          exact nomatch h
    · rw [if_neg hcalls] at h
      exact pending_of_piece h

/-- What is left unread of a JSON object is its text. -/
theorem text_of_object_pending {data : List Char} {v : Value} {d : Delta}
    (h : ofObject? data v = some d) (hpending : d.pending = true) : d.text = data := by
  unfold ofObject? at h
  split at h
  · cases h
    exact nomatch hpending
  · split at h
    · next cs _ =>
      obtain ⟨c, -, hc⟩ := Option.bind_eq_some_iff.1 h
      rw [pending_of_choice hc] at hpending
      exact nomatch hpending
    · cases h
      rfl
  · obtain ⟨text, -, rfl⟩ := Option.map_eq_some_iff.1 h
    exact nomatch hpending

/-- What is left unread of a provider frame is not empty. -/
theorem text_ne_nil_of_pending {raw : List UInt8} {d : Delta} (h : ofFrame? raw = some d)
    (hpending : d.pending = true) : d.text ≠ [] := by
  unfold ofFrame? at h
  dsimp only at h
  split at h
  · exact nomatch h
  unfold ofData? at h
  split at h
  · exact nomatch h
  next hdata =>
  have hne : dataOf (Text.trim (Text.decode raw)) ≠ [] := by simpa using hdata
  split at h
  · cases h
    exact nomatch hpending
  split at h
  · rwa [text_of_object_pending h hpending]
  · cases h
    exact hne

end Delta

namespace Reply

variable {r : Reply}

/-- The end of a block changes nothing in what is left unread. -/
@[simp] theorem pending_endBlock (r : Reply) (m : Marker) (mark : List Char) :
    (r.endBlock m mark).1.pending = r.pending := by
  rw [endBlock_fst]

/-- A text that is said changes nothing in what is left unread. -/
@[simp] theorem pending_say (r : Reply) (c : Channel) (text : List Char) :
    (r.say c text).1.pending = r.pending := by
  by_cases h : text = []
  · subst h
    rfl
  · rw [say_of_ne_nil r c h]
    rfl

/-- The marks of thinking change nothing in what is left unread. -/
@[simp] theorem pending_markThinking (r : Reply) (c : Channel) (text : List Char) :
    (r.markThinking c text).1.pending = r.pending := by
  unfold markThinking
  by_cases hc : c = .think <;> cases r.thinking <;> simp [hc]

/-- The marks of a tool call change nothing in what is left unread. -/
@[simp] theorem pending_markCalling (r : Reply) (c : Channel) (text : List Char) (done : Bool) :
    (r.markCalling c text done).1.pending = r.pending := by
  unfold markCalling
  by_cases hc : c = .toolCalls <;> cases r.calling <;> cases done <;> simp [hc]

/-- Text on a channel leaves nothing more unread. -/
@[simp] theorem pending_advance (r : Reply) (c : Channel) (text : List Char) (done : Bool) :
    (r.advance c text done).reply.pending = r.pending := by
  have h : ∀ t u, (((r.markThinking c text).1.markCalling c t done).1.say c u).1.pending =
      r.pending := by
    intro t u
    rw [pending_say, pending_markCalling, pending_markThinking]
  unfold advance
  cases done <;> exact h _ _

/-- Text on a channel ends a reply if it is the last. -/
theorem step_advance (r : Reply) (c : Channel) (text : List Char) (done : Bool) :
    (r.advance c text done).step = if done then .done else .more := by
  unfold advance
  cases done <;> rfl

/-- What a delta leaves unread is its own text, if it could not be understood. -/
theorem pending_take (r : Reply) (d : Delta) :
    (r.take d).reply.pending = if d.pending then r.pending ++ d.text else r.pending := by
  unfold take
  split
  · rfl
  split
  · rfl
  split <;> simp

/-- A reply fails with an error of the provider, and ends with its last delta. -/
theorem step_take (r : Reply) (d : Delta) :
    (r.take d).step =
      if d.pending then .more
      else if d.channel = .error then .failed d.text
      else if d.done then .done else .more := by
  unfold take
  split
  · rfl
  split
  · rfl
  split
  · next h => simp [step_advance, h.1]
  · rw [step_advance]

/-- An error of the provider and text that cannot be understood send nothing. -/
theorem frames_take_eq_nil (r : Reply) {d : Delta} (h : d.pending = true ∨ d.channel = .error) :
    (r.take d).frames = [] := by
  unfold take
  by_cases hpending : d.pending = true
  · rw [if_pos hpending]
  · rw [if_neg hpending, if_pos (h.resolve_left hpending)]

/-- A reply that has left nothing unread reads each frame on its own. -/
theorem takeFrame_of_pending_nil (h : r.pending = []) (raw : List UInt8) :
    r.takeFrame raw = ((Delta.ofFrame? raw).map r.take).getD ⟨r, [], .more⟩ := by
  have hread : r.read raw = ([], Delta.ofFrame? raw) := by
    simp [read, h]
  have hsame : { r with pending := [] } = r := by
    rw [← h]
  rw [takeFrame_eq, hread]
  dsimp only
  rw [hsame]
  cases Delta.ofFrame? raw <;> rfl

end Reply

end ChatRelay
