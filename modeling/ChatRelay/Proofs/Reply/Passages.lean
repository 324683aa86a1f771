import ChatRelay.Proofs.Reply.Blocks
import ChatRelay.Proofs.Reply.Reading
import ChatRelay.Proofs.Transcript.Increments

/-!
# How a transcript passes between blocks

What text on a channel does to the transcript of a reply hangs on the block that is open and the
block of the channel alone: `Transcript.pass` tells what. The mark that ends a tool call is text
like any other while the reply goes on, and the mark that ends reasoning makes a segment of the
block at once.

So two replies with the same transcript, the same open block and the same unread text go on in the
same way (`Reply.Alike.run`), whatever messages have been read off them, and text on a channel may
come in pieces (`Reply.alike_advance_append`).
-/

namespace ChatRelay

open Json (Value Object)

/-- The mark before a block, if there is one. -/
def Reply.openMark? (b : Option Marker) : List Char :=
  (b.map Reply.openMark).getD []

namespace Transcript

open Reply (openMark?)

/-- The transcript after the end of a block: the mark, then the block's own type for the segment
that holds it, then a new segment. -/
def endBlock (t : Transcript) (m : Marker) (mark : List Char) : Transcript :=
  (((t.append mark).retypeCurrent m).beginText []).resetScan

/-- The end of a block leaves a sound transcript. -/
theorem sound_endBlock (t : Transcript) (m : Marker) (mark : List Char) :
    (t.endBlock m mark).Sound :=
  (sound_beginText _ _).resetScan

/-- The transcript that text of one block, or of none, reaches while another is open. -/
def pass (t : Transcript) (b c : Option Marker) (text : List Char) (done : Bool) : Transcript :=
  if b = c then t.write text
  else
    match b with
    | none => t.write (openMark? c ++ text)
    | some .think => (t.endBlock .think Reply.thinkClose).write (openMark? c ++ text)
    | some .tool =>
      if done then (t.endBlock .tool Reply.toolClose).write (openMark? c ++ text)
      else t.write (Reply.toolClose ++ (openMark? c ++ text))

/-- Within a block, text is just written. -/
@[simp] theorem pass_self (t : Transcript) (b : Option Marker) (text : List Char) (done : Bool) :
    t.pass b b text done = t.write text := if_pos rfl

variable {t : Transcript}

/-- A sound transcript stays sound from block to block. -/
theorem Sound.pass (ht : t.Sound) (b c : Option Marker) (text : List Char) (done : Bool) :
    (t.pass b c text done).Sound := by
  unfold Transcript.pass
  split
  · exact ht.write text
  · split
    · exact ht.write _
    · exact (sound_endBlock t _ _).write _
    · split
      · exact (sound_endBlock t _ _).write _
      · exact ht.write _

/-- Text of a block may come in pieces: once the block is open, its text is just written. -/
theorem Sound.pass_append (ht : t.Sound) (b c : Option Marker) (s s' : List Char) :
    (t.pass b c s false).pass c c s' false = t.pass b c (s ++ s') false := by
  rw [pass_self]
  unfold Transcript.pass
  split
  · exact ht.write_append s s'
  · split
    · rw [ht.write_append, List.append_assoc]
    · rw [(sound_endBlock t _ _).write_append, List.append_assoc]
    · simp only [Bool.false_eq_true, if_false]
      rw [ht.write_append, List.append_assoc, List.append_assoc]

end Transcript

namespace Reply

variable {r s : Reply}

/-- The end of a block is written to the transcript. -/
@[simp] theorem transcript_endBlock (r : Reply) (m : Marker) (mark : List Char) :
    (r.endBlock m mark).1.transcript = r.transcript.endBlock m mark := by
  rw [endBlock_fst]
  rfl

/-- What is said is written to the transcript. -/
@[simp] theorem transcript_say (r : Reply) (c : Channel) (text : List Char) :
    (r.say c text).1.transcript = r.transcript.write text := by
  by_cases h : text = []
  · subst h
    rfl
  · rw [say_of_ne_nil r c h, Transcript.write_of_ne_nil _ h]
    rfl

/-- What text on a channel does to the transcript. -/
theorem transcript_advance (hr : r.OneBlock) (c : Channel) (text : List Char) (done : Bool) :
    (r.advance c text done).reply.transcript =
      if done then (r.transcript.pass r.block? c.block? text true).dropEmptyLast
      else r.transcript.pass r.block? c.block? text false := by
  have hsay : (r.advance c text done).reply.transcript =
      let u := (((r.markThinking c text).1.markCalling c (r.markThinking c text).2.2 done).1.say c
        ((r.markThinking c text).1.markCalling c
          (r.markThinking c text).2.2 done).2.2).1.transcript
      if done then u.dropEmptyLast else u := by
    unfold advance
    cases done <;> rfl
  rw [hsay, transcript_say]
  unfold OneBlock at hr
  unfold block? markThinking markCalling Transcript.pass
  -- Which marks are due depends on the two modes and the channel alone.
  cases hthink : r.thinking <;> cases hcall : r.calling <;>
    first
    | exact absurd (hr hthink) (by rw [hcall]; decide)
    | cases c <;> cases done <;>
        simp [hthink, hcall, Channel.block?, openMark?, openMark]

/-! ### Replies that go on in the same way -/

/-- Two replies with the same transcript, the same open block and the same unread text. -/
structure Alike (r s : Reply) : Prop where
  transcript : r.transcript = s.transcript
  block? : r.block? = s.block?
  pending : r.pending = s.pending

theorem Alike.rfl : r.Alike r := ⟨.refl _, .refl _, .refl _⟩

/-- Replies like the same one are alike. -/
theorem Alike.trans {t : Reply} (h₁ : r.Alike s) (h₂ : s.Alike t) : r.Alike t :=
  ⟨h₁.transcript.trans h₂.transcript, h₁.block?.trans h₂.block?, h₁.pending.trans h₂.pending⟩

/-- Text on a channel keeps replies alike. -/
theorem Alike.advance (h : r.Alike s) (hr : r.OneBlock) (hs : s.OneBlock) (c : Channel)
    (text : List Char) (done : Bool) :
    (r.advance c text done).reply.Alike (s.advance c text done).reply where
  transcript := by rw [transcript_advance hr, transcript_advance hs, h.transcript, h.block?]
  block? := by rw [block?_advance, block?_advance]
  pending := by rw [pending_advance, pending_advance, h.pending]

/-- A delta keeps replies alike, and brings the same text and the same step. -/
theorem Alike.take (h : r.Alike s) (hr : r.OneBlock) (hs : s.OneBlock) (d : Delta) :
    (r.take d).reply.Alike (s.take d).reply ∧
      Frame.contents (r.take d).frames = Frame.contents (s.take d).frames ∧
      (r.take d).step = (s.take d).step := by
  have hsaying : r.saying d = s.saying d := by
    unfold saying
    rw [h.block?]
  refine ⟨?_, ?_, by rw [step_take, step_take]⟩
  · unfold Reply.take
    split
    · exact ⟨h.transcript, h.block?, congrArg (· ++ d.text) h.pending⟩
    split
    · exact h
    split
    · exact (h.advance hr hs d.channel d.text false).advance (oneBlock_advance _ _ _ _)
        (oneBlock_advance _ _ _ _) .text [] true
    · exact h.advance hr hs d.channel d.text d.done
  · obtain ⟨hcontents, -⟩ := take_says hr d
    obtain ⟨hcontents', -⟩ := take_says hs d
    rw [hcontents, hcontents', hsaying]

/-- An input keeps replies alike, and brings the same text and the same step. -/
theorem Alike.step (h : r.Alike s) (hr : r.OneBlock) (hs : s.OneBlock) (i : Input) :
    (r.step i).reply.Alike (s.step i).reply ∧
      Frame.contents (r.step i).frames = Frame.contents (s.step i).frames ∧
      (r.step i).step = (s.step i).step := by
  cases i with
  | delta d => exact h.take hr hs d
  | close => exact h.take hr hs (.last [])
  | frame raw =>
    have hread : r.read raw = s.read raw := by
      unfold read
      rw [h.pending]
    show (r.takeFrame raw).reply.Alike (s.takeFrame raw).reply ∧
      Frame.contents (r.takeFrame raw).frames = Frame.contents (s.takeFrame raw).frames ∧
      (r.takeFrame raw).step = (s.takeFrame raw).step
    rw [takeFrame_eq, takeFrame_eq, hread]
    have hread : Alike { r with pending := (s.read raw).1 } { s with pending := (s.read raw).1 } :=
      ⟨h.transcript, h.block?, .refl _⟩
    cases (s.read raw).2 with
    | none => exact ⟨hread, .refl _, .refl _⟩
    | some d => exact hread.take hr hs d

/-- What comes after each input of a run. -/
def steps (r : Reply) : List Input → List Step
  | [] => []
  | i :: rest => (r.step i).step :: (r.step i).reply.steps rest

/-- Replies that are alike stay alike in a run, bring the same text and take the same steps. -/
theorem Alike.run (h : r.Alike s) (hr : r.OneBlock) (hs : s.OneBlock) (inputs : List Input) :
    (r.run inputs).1.Alike (s.run inputs).1 ∧
      Frame.contents (r.run inputs).2 = Frame.contents (s.run inputs).2 ∧
      r.steps inputs = s.steps inputs := by
  induction inputs generalizing r s with
  | nil => exact ⟨h, .refl _, .refl _⟩
  | cons i rest ih =>
    obtain ⟨hstep, hcontents, hnext⟩ := h.step hr hs i
    obtain ⟨ihalike, ihcontents, ihsteps⟩ := ih hstep (oneBlock_step hr i) (oneBlock_step hs i)
    refine ⟨ihalike, ?_, ?_⟩
    · show Frame.contents (_ ++ _) = Frame.contents (_ ++ _)
      rw [Frame.contents_append, Frame.contents_append, hcontents, ihcontents]
    · show _ :: _ = _ :: _
      rw [hnext, ihsteps]

/-! ### Text in pieces -/

/-- Two pieces of text on a channel, one after the other, do what both at once do. -/
theorem alike_advance_append (hr : r.OneBlock) (ht : r.transcript.Sound) (c : Channel)
    (u v : List Char) :
    ((r.advance c u false).reply.advance c v false).reply.Alike
        (r.advance c (u ++ v) false).reply ∧
      Frame.contents
          ((r.advance c u false).frames ++ ((r.advance c u false).reply.advance c v false).frames) =
        Frame.contents (r.advance c (u ++ v) false).frames := by
  have hone := oneBlock_advance r c u false
  have hpassage : passage c.block? c.block? = [] := if_pos rfl
  refine ⟨⟨?_, ?_, ?_⟩, ?_⟩
  · rw [transcript_advance hone, transcript_advance hr, transcript_advance hr, block?_advance]
    exact ht.pass_append _ _ u v
  · rw [block?_advance, block?_advance]
  · simp only [pending_advance]
  · rw [Frame.contents_append, contents_advance hr, contents_advance hone, contents_advance hr,
      block?_advance, hpassage]
    simp

end Reply

end ChatRelay
