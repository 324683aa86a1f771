import ChatRelay.Proofs.Reply.Gaps
import ChatRelay.Proofs.Turn.Keeping

/-!
# Replies that are kept

A reply is kept when it has ended, and a reply that has ended has no empty segment, whether its
provider ended it or the stream did. While frames are taken only the last segment can be empty
(`Streaming.Tidy`), so every record of a reply that a turn gives to its archive holds a transcript
of segments with text, also if the client leaves in between (`gapless_run_and_filled_kept`).
-/

namespace ChatRelay

/-- If a stream has ended well, no segment of its transcript is empty. -/
def StreamEnd.Filled : StreamEnd → Prop
  | .done t _ => t.Filled
  | .failed _ _ | .unread _ => True

namespace Engine

variable {σ : Type} {e : Engine σ}

/-! ### Streams -/

/-- Only the last segment of the reply can be empty, and not even that after the end of the reply.
-/
structure Streaming.Tidy (s : Streaming) : Prop where
  writtenAtEnd : s.reply.transcript.WrittenAtEnd
  gapless : s.reply.transcript.Gapless
  filled : s.step = .done → s.reply.transcript.Filled

/-- A stream that has not begun has nothing empty but its last segment. -/
theorem Streaming.tidy_start (who : Identity) (hungUp : Bool) : (start who hungUp).Tidy :=
  ⟨Transcript.writtenAtEnd_empty, (Transcript.filled_vacant 0).gapless, nofun⟩

/-- Only the last segment can be empty when a provider frame is taken. -/
theorem Streaming.Tidy.take {s : Streaming} (hs : s.Tidy) (bytes : List UInt8) :
    (s.take bytes).1.Tidy := by
  unfold Streaming.take
  split
  · exact hs
  · have hstep := Reply.gapless_step hs.writtenAtEnd hs.gapless (.frame bytes)
    exact ⟨(Reply.speaks_step hs.writtenAtEnd (.frame bytes)).writtenAtEnd, hstep.1, hstep.2⟩

/-- To hang up leaves the segments as they are. -/
theorem Streaming.Tidy.hangUp {s : Streaming} (hs : s.Tidy) : s.hangUp.Tidy :=
  ⟨hs.writtenAtEnd, hs.gapless, hs.filled⟩

/-- Whatever is delivered, only the last segment of the reply can be empty. -/
theorem tidy_delivered (who : Identity) (hungUp : Bool) (r : BackendReply) :
    (delivered who hungUp r).taken.Tidy :=
  BackendReply.deliver_preserves (P := Streaming.Tidy) (fun _ bytes hs => hs.take bytes)
    (fun _ hs => hs.hangUp) r (Streaming.tidy_start who hungUp)

/-- A reply has no empty segment at its end, whoever ends it. -/
theorem Streaming.Tidy.filled_streamEndOf {s : Streaming} (hs : s.Tidy) :
    (streamEndOf s.ended).Filled := by
  cases hend : streamEndOf s.ended with
  | failed raw t => trivial
  | unread pending => trivial
  | done t asides =>
    show t.Filled
    obtain ⟨hstep, hread, ht, -⟩ := streamEndOf_ended_eq_done_iff.1 hend
    rw [← ht]
    rcases hstep with hmore | hdone
    · have hended : s.ended = s.reply.close := if_pos ⟨hmore, hread⟩
      have hclose : s.reply.close.step = .done := Reply.step_take _ _
      rw [hended]
      exact (Reply.gapless_step hs.writtenAtEnd hs.gapless .close).2 hclose
    · have hended : s.ended = ⟨s.reply, [], s.step⟩ := if_neg (by simp [hdone])
      rw [hended]
      exact hs.filled hdone

/-- A stream that comes to an end leaves no segment empty. -/
theorem yields_stream (l : Leg σ) : (e.stream l).Yields StreamEnd.Filled := by
  rw [stream_eq]
  refine Flow.yields_bind fun request => ?_
  intro w h ended hended
  rw [run_streamOf] at hended
  dsimp only at hended
  generalize hreply : e.backend request l.options w = a at hended
  have htidy := tidy_delivered l.assistant.identity (h || a.hungUp) a.value
  generalize delivered l.assistant.identity (h || a.hungUp) a.value = d at htidy hended
  have hafter : (afterDelivery a.value d : Flow σ StreamEnd).Yields StreamEnd.Filled := by
    unfold afterDelivery
    refine Flow.yields_bind fun gone => ?_
    split
    · exact Flow.yields_fail _
    split
    · exact Flow.yields_fail _
    · intro w h ended hended
      rw [run_closeStream] at hended
      cases hended
      exact htidy.filled_streamEndOf
  exact hafter _ _ _ hended

/-! ### Records -/

/-- What there is to keep of a reply without empty segments holds its transcript. -/
theorem exists_filled_of_mem_keepsakes {l : Leg σ} {t : Transcript} (ht : t.Filled) {k : Kept}
    (hk : k ∈ keepsakes l t) {r : Record} (hr : r ∈ k.records) (hrole : r.role = .assistant) :
    ∃ t : Transcript, t.Filled ∧ r.content = t.json := by
  unfold keepsakes at hk
  split at hk
  · next input _ =>
    split at hk
    · exact absurd hk List.not_mem_nil
    · rw [List.mem_singleton.1 hk, recordsOf_eq] at hr
      rcases List.mem_append.1 hr with huser | hreply
      · split at huser
        · exact absurd huser List.not_mem_nil
        · rw [List.mem_singleton.1 huser] at hrole
          exact nomatch hrole
      · rw [List.mem_singleton.1 hreply]
        exact ⟨t, ht, rfl⟩
  · exact absurd hk List.not_mem_nil

/-- The records of replies that a call keeps hold transcripts without empty segments. -/
theorem exists_filled_of_mem_kept_played {s : Summons σ} {k : Kept}
    (hk : k ∈ Event.kept (e.played s).events) {r : Record} (hr : r ∈ k.records)
    (hrole : r.role = .assistant) : ∃ t : Transcript, t.Filled ∧ r.content = t.json := by
  cases harchive : e.archive with
  | none =>
    rw [kept_played_of_archive_eq_none harchive] at hk
    exact absurd hk List.not_mem_nil
  | some archive =>
    obtain ⟨l, t, asides, hl, hdone⟩ := exists_done_of_kept (List.ne_nil_of_mem hk)
    have ht : t.Filled := yields_stream l _ _ _ hdone
    rw [kept_played_of_done harchive hl hdone] at hk
    split at hk
    · exact absurd hk List.not_mem_nil
    · exact exists_filled_of_mem_keepsakes ht hk hr hrole

/-- What a turn keeps is what its calls keep, also if the client leaves it. -/
theorem kept_events_execute (c : TurnContext) (input : Message) (caller : Json.Object)
    (hungUp : Bool) (w : σ) :
    Event.kept (e.execute c input caller hungUp w).events =
      (e.callsIn c input caller hungUp w).flatMap fun s => Event.kept (e.played s).events :=
  filterMap_events_execute (g := Event.kept?) rfl (fun _ => rfl) (fun _ h => by cases h <;> rfl)
    c input caller hungUp w

/-- Empty segments are never kept. After any inputs only the last segment of a reply's transcript
can be empty, and after an input with which the reply ends no segment is. So the records of replies
that a turn gives to its archive hold transcripts without empty segments, whatever happens in it. -/
theorem gapless_run_and_filled_kept (who : Identity) (inputs : List Reply.Input) :
    let r := ((Reply.start who .empty).run inputs).1
    r.transcript.Gapless ∧
      (∀ i, (r.step i).step = .done → (r.step i).reply.transcript.Filled) ∧
      ∀ (e : Engine σ) (c : TurnContext) (input : Message) (caller : Json.Object) (hungUp : Bool)
        (w : σ), ∀ k ∈ Event.kept (e.execute c input caller hungUp w).events, ∀ record ∈ k.records,
          record.role = .assistant → ∃ t : Transcript, t.Filled ∧ record.content = t.json := by
  have hstart : (Reply.start who .empty).transcript.Gapless := (Transcript.filled_vacant 0).gapless
  have hr := Reply.gapless_run Transcript.writtenAtEnd_empty hstart inputs
  have hend := (Reply.speaks_run (r := .start who .empty) Transcript.writtenAtEnd_empty
    inputs).writtenAtEnd
  refine ⟨hr, fun i => (Reply.gapless_step hend hr i).2, ?_⟩
  intro e c input caller hungUp w k hk record hrecord hrole
  rw [kept_events_execute] at hk
  obtain ⟨s, -, hk⟩ := List.mem_flatMap.1 hk
  exact exists_filled_of_mem_kept_played hk hrecord hrole

/-- A reply that is one marked block. -/
def oneBlock : List Reply.Input :=
  [.delta (.on .text "<tool>\x7b\x7d</tool>".toList)]

/-- Behind a block stands an empty segment, which the end of the reply drops; and a turn keeps the
reply of each of its assistants. -/
theorem gapless_run_and_filled_kept_oneBlock :
    let r := ((Reply.start ⟨"a", "A", none⟩ .empty).run oneBlock).1
    ¬r.transcript.Filled ∧ r.transcript.Gapless ∧ (r.step .close).reply.transcript.Filled ∧
      (Event.kept
        (remembering.execute sessionTurn (.of .user "hi") [] false ()).events).length = 2 ∧
      ∀ k ∈ Event.kept (remembering.execute sessionTurn (.of .user "hi") [] false ()).events,
        ∀ record ∈ k.records, record.role = .assistant →
          ∃ t : Transcript, t.Filled ∧ record.content = t.json := by
  obtain ⟨hgapless, hfilled, hkept⟩ :=
    gapless_run_and_filled_kept (σ := Unit) ⟨"a", "A", none⟩ oneBlock
  refine ⟨by decide +kernel, hgapless, hfilled .close (by decide +kernel), by decide +kernel, ?_⟩
  exact hkept remembering sessionTurn (.of .user "hi") [] false ()

end Engine

end ChatRelay
