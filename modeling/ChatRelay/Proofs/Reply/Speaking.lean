import ChatRelay.Proofs.Transcript.ScanAtEnd
import ChatRelay.Reply

/-!
# What a reply says

Whatever a reply takes, it says something to the client and writes something in its transcript.
`Reply.Speaks` states what is true of every such step: the frames are pieces of the reply, the first
piece of all tells who answers, and the text of the frames is just what the transcript gains. The
steps of a reply are proved one after another, from the announcing of a frame to a whole provider
frame (`speaks_step`), and `speaks_run` is the statement for a run of them. So the client has seen
each character of the transcript once and in order (`contents_run_eq_text`).
-/

namespace ChatRelay

open Json (Value Object)

namespace Frame

/-- The text that a frame brings. -/
def content (f : Frame) : List Char :=
  (f.text.map String.toList).getD []

/-- The text that frames bring, one after another. -/
def contents (fs : List Frame) : List Char :=
  fs.flatMap content

@[simp] theorem contents_nil : contents [] = [] := rfl

@[simp] theorem contents_append (fs gs : List Frame) :
    contents (fs ++ gs) = contents fs ++ contents gs :=
  List.flatMap_append

/-- A piece has its text as content. -/
@[simp] theorem content_piece (text : List Char) (kind : FrameType) :
    (piece text kind).content = text := by
  simp [content, piece]

/-- Who answers does not matter to the content of a frame. -/
@[simp] theorem content_withIdentity (f : Frame) (who : Identity) :
    (f.withIdentity who).content = f.content := rfl

/-- A piece of a reply, of any type but an error, that does not tell who answers. -/
def IsPiece (f : Frame) : Prop :=
  ∃ text kind, kind ≠ .error ∧ f = piece text kind

/-- Pieces of a reply of which, unless that has been done before, the first tells who answers. -/
def ArePieces (who : Identity) (announced : Bool) : List Frame → Prop
  | [] => True
  | f :: fs =>
    (if announced then f.IsPiece else ∃ g : Frame, g.IsPiece ∧ f = g.withIdentity who) ∧
      ∀ g ∈ fs, g.IsPiece

/-- Once a piece has told who answers, all others are bare pieces. -/
theorem arePieces_true (who : Identity) (fs : List Frame) :
    ArePieces who true fs ↔ ∀ f ∈ fs, f.IsPiece := by
  cases fs <;> simp [ArePieces]

/-- Pieces go on with further pieces. -/
theorem ArePieces.append {who : Identity} {announced : Bool} {fs gs : List Frame}
    (hf : ArePieces who announced fs) (hg : ArePieces who (announced || !fs.isEmpty) gs) :
    ArePieces who announced (fs ++ gs) := by
  cases fs with
  | nil => simpa using hg
  | cons f fs =>
    have hg : ∀ g ∈ gs, g.IsPiece := by simpa [arePieces_true] using hg
    refine ⟨hf.1, fun g hmem => ?_⟩
    rcases List.mem_append.1 hmem with h | h
    · exact hf.2 g h
    · exact hg g h

end Frame

namespace Transcript

/-- The transcript whose current segment is a marked block, with the block's content as a
property. -/
def retypeCurrent (t : Transcript) (m : Marker) : Transcript :=
  match t.currentSegment? with
  | some g => (t.retype? m.kind [("text", .ofText (m.strip g.text))] g.id).getD t
  | none => t

/-- A type changes no text. -/
@[simp] theorem text_retypeCurrent (t : Transcript) (m : Marker) :
    (t.retypeCurrent m).text = t.text := by
  unfold retypeCurrent
  split
  · next g _ =>
    cases h : t.retype? m.kind [("text", .ofText (m.strip g.text))] g.id with
    | none => rfl
    | some u => exact text_retype? h
  · rfl

end Transcript

namespace Reply

/-- From one state of a reply to another with some frames: the frames are pieces of the reply, and
their text is what the transcript gains. -/
structure Speaks (r : Reply) (fs : List Frame) (s : Reply) : Prop where
  assistant : s.assistant = r.assistant
  announced : s.announced = (r.announced || !fs.isEmpty)
  pieces : Frame.ArePieces r.assistant r.announced fs
  writtenAtEnd : s.transcript.WrittenAtEnd
  text : s.transcript.text = r.transcript.text ++ Frame.contents fs

/-- One step after another. -/
theorem Speaks.trans {r s t : Reply} {fs gs : List Frame} (h₁ : r.Speaks fs s)
    (h₂ : s.Speaks gs t) : r.Speaks (fs ++ gs) t where
  assistant := h₂.assistant.trans h₁.assistant
  announced := by
    rw [h₂.announced, h₁.announced, Bool.or_assoc]
    cases fs <;> simp
  pieces := by
    have hg := h₂.pieces
    rw [h₁.assistant, h₁.announced] at hg
    exact h₁.pieces.append hg
  writtenAtEnd := h₂.writtenAtEnd
  text := by rw [h₂.text, h₁.text, Frame.contents_append, List.append_assoc]

/-- A change of the modes, of what is pending or of the asides says nothing. -/
theorem speaks_nil {r s : Reply} (hr : r.transcript.WrittenAtEnd)
    (ha : s.assistant = r.assistant) (hn : s.announced = r.announced)
    (ht : s.transcript = r.transcript) : r.Speaks [] s where
  assistant := ha
  announced := by simp [hn]
  pieces := trivial
  writtenAtEnd := ht ▸ hr
  text := by simp [ht]

/-! ### Single frames -/

/-- After a frame the client knows who answers, and nothing else has changed. -/
@[simp] theorem announce_fst (r : Reply) (f : Frame) :
    (r.announce f).1 = { r with announced := true } := by
  unfold announce
  split
  · next h => rw [← h]
  · rfl

/-- A frame brings the same text whether or not it tells who answers. -/
@[simp] theorem content_announce (r : Reply) (f : Frame) :
    (r.announce f).2.content = f.content := by
  unfold announce
  split <;> rfl

/-- A piece goes out bare after the first, and the first with who answers. -/
theorem arePieces_announce (r : Reply) (text : List Char) {kind : FrameType} (hk : kind ≠ .error) :
    Frame.ArePieces r.assistant r.announced [(r.announce (.piece text kind)).2] := by
  have hpiece : (Frame.piece text kind).IsPiece := ⟨text, kind, hk, rfl⟩
  unfold announce
  cases r.announced with
  | true => exact ⟨hpiece, by simp⟩
  | false => exact ⟨⟨_, hpiece, rfl⟩, by simp⟩

/-- Markers and channels of visible text are never shown as errors. -/
theorem ofContent_kind_ne_error (m : Marker) : FrameType.ofContent m.kind ≠ .error := by
  cases m <;> exact nofun

/-- Only errors are sent as errors. -/
theorem ofChannel_ne_error {c : Channel} (hc : c ≠ .error) : FrameType.ofChannel c ≠ .error := by
  cases c with
  | error => exact absurd rfl hc
  | _ => exact nofun

/-- Text is shown as an error only if it comes on the channel for errors. -/
theorem shownAs_ne_error {bs : List Boundary} (hbs : ∀ b ∈ bs, ∃ m : Marker, b.kind = m.kind)
    (t : Transcript) {c : Channel} (hc : c ≠ .error) : shownAs bs t c ≠ .error := by
  unfold shownAs
  cases hlast : bs.getLast? with
  | some b =>
    obtain ⟨m, hm⟩ := hbs b (List.mem_of_getLast? hlast)
    show FrameType.ofContent b.kind ≠ .error
    rw [hm]
    exact ofContent_kind_ne_error m
  | none =>
    unfold Transcript.openedKind?
    cases t.opened with
    | some m => exact ofContent_kind_ne_error m
    | none => exact ofChannel_ne_error hc

/-! ### Steps of a delta -/

variable {r : Reply}

/-- The transcript after the end of a block: the mark, then the block's own type for the segment
that holds it, then a new segment. -/
theorem endBlock_fst (r : Reply) (m : Marker) (mark : List Char) :
    (r.endBlock m mark).1 =
      { r with
        announced := true
        transcript := (((r.transcript.append mark).retypeCurrent m).beginText []).resetScan } :=
  congrArg
    (fun s : Reply => { s with
      transcript := (((s.transcript.append mark).retypeCurrent m).beginText []).resetScan })
    (announce_fst r _)

/-- The end of a block is sent as its mark. -/
@[simp] theorem contents_endBlock (r : Reply) (m : Marker) (mark : List Char) :
    Frame.contents [(r.endBlock m mark).2] = mark := by
  simp [endBlock, Frame.contents]

/-- The end of a block says its mark. -/
theorem speaks_endBlock (hr : r.transcript.WrittenAtEnd) (m : Marker) (mark : List Char) :
    r.Speaks [(r.endBlock m mark).2] (r.endBlock m mark).1 where
  assistant := by rw [endBlock_fst]
  announced := by simp [endBlock_fst]
  pieces := arePieces_announce r mark (ofContent_kind_ne_error m)
  writtenAtEnd := by
    rw [endBlock_fst, Transcript.beginText_eq]
    exact .atEnd _ _ _ _ _ List.nil_suffix
  text := by
    rw [contents_endBlock, endBlock_fst]
    show (Transcript.beginText _ []).text = _
    rw [Transcript.text_beginText, Transcript.text_retypeCurrent, hr.text_append, List.append_nil]

/-- A reply that has put a text in its transcript and looked for boundaries in it. -/
def noted (r : Reply) (text : List Char) : Reply :=
  { r with
    transcript := (r.transcript.append text).scan.2
    asides := r.asides ++ asidesOf (r.transcript.append text).scan.1 }

/-- How a text is shown on a channel after it has been noted. -/
def showing (r : Reply) (c : Channel) (text : List Char) : FrameType :=
  shownAs (r.transcript.append text).scan.1 (r.transcript.append text).scan.2 c

/-- Text is noted and announced. -/
theorem say_of_ne_nil (r : Reply) (c : Channel) {text : List Char} (h : text ≠ []) :
    r.say c text =
      ({ r.noted text with announced := true },
        [((r.noted text).announce (.piece text (r.showing c text))).2]) := by
  have hempty : text.isEmpty = false := by simpa using h
  rw [← announce_fst _ (.piece text (r.showing c text))]
  simp only [say, hempty, Bool.false_eq_true, if_false]
  rfl

/-- What is said on a channel is the text. -/
@[simp] theorem contents_say (r : Reply) (c : Channel) (text : List Char) :
    Frame.contents (r.say c text).2 = text := by
  by_cases h : text = []
  · subst h
    rfl
  · rw [say_of_ne_nil r c h]
    simp [Frame.contents]

/-- Text on a channel goes to the client in one piece, and to the transcript. -/
theorem speaks_say (hr : r.transcript.WrittenAtEnd) {c : Channel} (hc : c ≠ .error)
    (text : List Char) : r.Speaks (r.say c text).2 (r.say c text).1 := by
  by_cases h : text = []
  · subst h
    exact speaks_nil hr rfl rfl rfl
  have happ := hr.append text
  have hkind : r.showing c text ≠ .error :=
    shownAs_ne_error (fun b hb => happ.kind_of_mem_scan hb) _ hc
  have htext : (r.noted text).transcript.text = r.transcript.text ++ text :=
    happ.text_scan.trans (hr.text_append text)
  rw [say_of_ne_nil r c h]
  refine ⟨rfl, by simp, arePieces_announce (r.noted text) text hkind, happ.scan, ?_⟩
  simp [Frame.contents, htext]

/-- Reasoning is marked with a frame of its own where it ends. -/
theorem speaks_markThinking (hr : r.transcript.WrittenAtEnd) (c : Channel) (text : List Char) :
    r.Speaks (r.markThinking c text).2.1 (r.markThinking c text).1 := by
  unfold markThinking
  split
  · split <;> exact speaks_nil hr rfl rfl rfl
  · split
    · have h := speaks_endBlock hr .think thinkClose
      exact ⟨h.assistant, h.announced, h.pieces, h.writtenAtEnd, h.text⟩
    · exact speaks_nil hr rfl rfl rfl

/-- A tool call is marked with a frame of its own where it ends with the reply. -/
theorem speaks_markCalling (hr : r.transcript.WrittenAtEnd) (c : Channel) (text : List Char)
    (done : Bool) : r.Speaks (r.markCalling c text done).2.1 (r.markCalling c text done).1 := by
  unfold markCalling
  split
  · split <;> exact speaks_nil hr rfl rfl rfl
  · split
    · split
      · have h := speaks_endBlock hr .tool toolClose
        exact ⟨h.assistant, h.announced, h.pieces, h.writtenAtEnd, h.text⟩
      · exact speaks_nil hr rfl rfl rfl
    · exact speaks_nil hr rfl rfl rfl

/-- The end of a reply drops no text. -/
theorem speaks_dropEmptyLast (hr : r.transcript.WrittenAtEnd) :
    r.Speaks [] { r with transcript := r.transcript.dropEmptyLast } where
  assistant := rfl
  announced := by simp
  pieces := trivial
  writtenAtEnd := hr.dropEmptyLast
  text := by simp [hr.text_dropEmptyLast]

/-- Text on a channel with the marks that are due. -/
theorem speaks_advance (hr : r.transcript.WrittenAtEnd) {c : Channel} (hc : c ≠ .error)
    (text : List Char) (done : Bool) :
    r.Speaks (r.advance c text done).frames (r.advance c text done).reply := by
  have h₁ := speaks_markThinking hr c text
  have h₂ := speaks_markCalling h₁.writtenAtEnd c (r.markThinking c text).2.2 done
  have h₃ := speaks_say h₂.writtenAtEnd hc
    ((r.markThinking c text).1.markCalling c (r.markThinking c text).2.2 done).2.2
  have h := (h₁.trans h₂).trans h₃
  unfold advance
  cases done with
  | false => exact h
  | true =>
    have hend := h.trans (speaks_dropEmptyLast h₃.writtenAtEnd)
    rw [List.append_nil] at hend
    exact hend

/-! ### Deltas, frames and runs -/

/-- What a delta is said as. -/
theorem speaks_take (hr : r.transcript.WrittenAtEnd) (d : Delta) :
    r.Speaks (r.take d).frames (r.take d).reply := by
  unfold take
  split
  · exact speaks_nil hr rfl rfl rfl
  split
  · exact speaks_nil hr rfl rfl rfl
  next herror =>
  split
  · have h := speaks_advance hr herror d.text false
    exact h.trans (speaks_advance h.writtenAtEnd (c := .text) nofun [] true)
  · exact speaks_advance hr herror d.text d.done

/-- What a reply can be given: a provider frame, a delta, or the end of the provider's stream. -/
inductive Input where
  | frame (raw : List UInt8)
  | delta (d : Delta)
  | close

/-- A provider frame counts as the delta that is read, if one is. -/
theorem takeFrame_eq (r : Reply) (raw : List UInt8) :
    r.takeFrame raw =
      match (r.read raw).2 with
      | some d => { r with pending := (r.read raw).1 }.take d
      | none => ⟨{ r with pending := (r.read raw).1 }, [], .more⟩ := rfl

/-- What one input makes of a reply. -/
def step (r : Reply) : Input → Advance
  | .frame raw => r.takeFrame raw
  | .delta d => r.take d
  | .close => r.close

/-- The reply after some inputs, and the frames that they gave. -/
def run (r : Reply) : List Input → Reply × List Frame
  | [] => (r, [])
  | i :: rest =>
    let a := r.step i
    let (s, frames) := a.reply.run rest
    (s, a.frames ++ frames)

/-- What one input is said as. -/
theorem speaks_step (hr : r.transcript.WrittenAtEnd) (i : Input) :
    r.Speaks (r.step i).frames (r.step i).reply := by
  cases i with
  | delta d => exact speaks_take hr d
  | close => exact speaks_take hr _
  | frame raw =>
    have hread : r.Speaks [] { r with pending := (r.read raw).1 } := speaks_nil hr rfl rfl rfl
    show r.Speaks (r.takeFrame raw).frames (r.takeFrame raw).reply
    rw [takeFrame_eq]
    cases (r.read raw).2 with
    | none => exact hread
    | some d => exact hread.trans (speaks_take hread.writtenAtEnd d)

/-- What a run of inputs is said as. -/
theorem speaks_run (hr : r.transcript.WrittenAtEnd) (inputs : List Input) :
    r.Speaks (r.run inputs).2 (r.run inputs).1 := by
  induction inputs generalizing r with
  | nil => exact speaks_nil hr rfl rfl rfl
  | cons i rest ih =>
    have hstep := speaks_step hr i
    exact hstep.trans (ih hstep.writtenAtEnd)

/-- The text that the client has been sent is the text of the transcript, after any inputs: also
after frames that could not be read, and after the reply has ended or failed. -/
theorem contents_run_eq_text (who : Identity) (inputs : List Input) :
    Frame.contents ((start who .empty).run inputs).2 =
      ((start who .empty).run inputs).1.transcript.text := by
  have h := speaks_run (r := start who .empty) Transcript.writtenAtEnd_empty inputs
  rw [h.text]
  rfl

end Reply

end ChatRelay
