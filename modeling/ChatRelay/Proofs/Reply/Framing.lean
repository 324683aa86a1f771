import ChatRelay.Proofs.Reply.Passages

/-!
# How the provider frames its text

A provider may send a text in one delta or in many. `Reply.joined` puts the pieces together again
that follow each other on one channel, and a reply that takes the pieces goes on as one that takes
the text (`Reply.agree_joined`). So the way in which a model's output is cut into deltas is seen
neither in the transcript nor in what the client reads, wherever the cuts are, also inside of a
marker (`Reply.run_cut`).
-/

namespace ChatRelay

/-- Whether a delta brings text of the reply: neither text that could not be understood nor an
error. -/
def Delta.isVisible (d : Delta) : Bool :=
  !d.pending && d.channel ≠ .error

/-- Whether a delta is a piece of text with more to come. -/
def Delta.isPiece (d : Delta) : Bool :=
  !d.done && d.isVisible

namespace Reply

/-- A delta before other inputs. If it is a piece of text and so is the first of them, on the same
channel, they become one. -/
def joinTo (d : Delta) : List Input → List Input
  | .delta e :: rest =>
    if d.isPiece && e.isPiece && d.channel = e.channel then
      .delta (.on d.channel (d.text ++ e.text)) :: rest
    else .delta d :: .delta e :: rest
  | rest => .delta d :: rest

/-- The inputs with all pieces put together that follow each other on one channel. -/
def joined : List Input → List Input
  | [] => []
  | .delta d :: rest => joinTo d (joined rest)
  | i :: rest => i :: joined rest

variable {r : Reply}

/-! ### Runs in parts -/

/-- A run of some inputs and then of others. -/
theorem run_append (r : Reply) (inputs rest : List Input) :
    r.run (inputs ++ rest) =
      (((r.run inputs).1.run rest).1, (r.run inputs).2 ++ ((r.run inputs).1.run rest).2) := by
  induction inputs generalizing r with
  | nil => rfl
  | cons i inputs ih =>
    show ((((r.step i).reply.run (inputs ++ rest)).1,
      _ ++ ((r.step i).reply.run (inputs ++ rest)).2) : Reply × List Frame) = _
    rw [ih, ← List.append_assoc]
    rfl

/-! ### Pieces and the whole -/

/-- A piece of text is taken as text on its channel. -/
theorem take_of_isPiece (r : Reply) {d : Delta} (h : d.isPiece = true) :
    r.take d = r.advance d.channel d.text false := by
  simp only [Delta.isPiece, Delta.isVisible, Bool.and_eq_true, Bool.not_eq_true',
    decide_eq_true_iff] at h
  obtain ⟨hdone, hpending, hchannel⟩ := h
  simp [take, hdone, hpending, hchannel]

/-- A delta that is the piece of a text is that text on its channel. -/
theorem isPiece_on {c : Channel} (hc : c ≠ .error) (s : List Char) :
    (Delta.on c s).isPiece = true := by
  simp [Delta.isPiece, Delta.isVisible, Delta.on, hc]

/-- Two runs of inputs that leave the reply alike and bring the same text. -/
structure Agree (r : Reply) (inputs inputs' : List Input) : Prop where
  alike : (r.run inputs).1.Alike (r.run inputs').1
  contents : Frame.contents (r.run inputs).2 = Frame.contents (r.run inputs').2

theorem Agree.refl (r : Reply) (inputs : List Input) : r.Agree inputs inputs := ⟨Alike.rfl, rfl⟩

/-- Inputs that agree with the same ones agree. -/
theorem Agree.trans {i₁ i₂ i₃ : List Input} (h₁ : r.Agree i₁ i₂) (h₂ : r.Agree i₂ i₃) :
    r.Agree i₁ i₃ :=
  ⟨h₁.alike.trans h₂.alike, h₁.contents.trans h₂.contents⟩

/-- Runs that agree still agree after the same inputs. -/
theorem Agree.after {before inputs inputs' : List Input}
    (h : (r.run before).1.Agree inputs inputs') :
    r.Agree (before ++ inputs) (before ++ inputs') where
  alike := by
    rw [run_append, run_append]
    exact h.alike
  contents := by
    rw [run_append, run_append, Frame.contents_append, Frame.contents_append, h.contents]

/-- Runs that agree still agree when they go on with the same inputs, and these take the same
steps. -/
theorem Agree.before {inputs inputs' : List Input} (h : r.Agree inputs inputs') (hr : r.OneBlock)
    (rest : List Input) :
    r.Agree (inputs ++ rest) (inputs' ++ rest) ∧
      (r.run inputs).1.steps rest = (r.run inputs').1.steps rest := by
  obtain ⟨halike, hcontents, hsteps⟩ :=
    h.alike.run (oneBlock_run hr inputs) (oneBlock_run hr inputs') rest
  refine ⟨⟨?_, ?_⟩, hsteps⟩
  · rw [run_append, run_append]
    exact halike
  · rw [run_append, run_append, Frame.contents_append, Frame.contents_append, h.contents, hcontents]

/-- Two pieces of text on a channel do what both at once do. -/
theorem agree_pieces (hr : r.OneBlock) (ht : r.transcript.Sound) {d e : Delta}
    (hd : d.isPiece = true) (he : e.isPiece = true) (hchannel : d.channel = e.channel) :
    r.Agree [.delta d, .delta e] [.delta (.on d.channel (d.text ++ e.text))] := by
  have hc : d.channel ≠ .error := by
    intro h
    simp [Delta.isPiece, Delta.isVisible, h] at hd
  obtain ⟨halike, hcontents⟩ := alike_advance_append hr ht d.channel d.text e.text
  constructor <;> simp only [run, step, List.append_nil] <;>
    rwa [take_of_isPiece r hd, take_of_isPiece _ he, take_of_isPiece r (isPiece_on hc _),
      ← hchannel]

/-- Joining a delta to the inputs after it changes nothing. -/
theorem agree_joinTo (hr : r.OneBlock) (ht : r.transcript.Sound) (d : Delta) (rest : List Input) :
    r.Agree (.delta d :: rest) (joinTo d rest) := by
  unfold joinTo
  split
  · next e rest =>
    split
    · next h =>
      simp only [Bool.and_eq_true, decide_eq_true_iff] at h
      exact ((agree_pieces hr ht h.1.1 h.1.2 h.2).before hr rest).1
    · exact .refl _ _
  · exact .refl _ _

/-- A reply goes on in the same way whether the pieces of its text come joined or not. -/
theorem agree_joined (hr : r.OneBlock) (ht : r.transcript.WrittenAtEnd) (inputs : List Input) :
    r.Agree inputs (joined inputs) := by
  induction inputs generalizing r with
  | nil => exact .refl _ _
  | cons i rest ih =>
    -- The inputs after the first are joined first, and then perhaps the first with what they
    -- became.
    have hjoined := ih (oneBlock_step hr i) (speaks_step ht i).writtenAtEnd
    have hrest : r.Agree ([i] ++ rest) ([i] ++ joined rest) := Agree.after hjoined
    cases i with
    | frame raw => exact hrest
    | close => exact hrest
    | delta d => exact hrest.trans (agree_joinTo hr ht.sound d _)

/-! ### Cuts -/

/-- A piece of text of a reply may be cut anywhere into two: the client reads the same, the
transcript becomes the same, and the inputs after it take the same steps. And so for any number of
cuts: inputs that are the same when their pieces are joined give the client the same text and the
same transcript. -/
theorem run_cut (who : Identity) :
    (∀ (before after : List Input) (c : Channel) (u v : List Char), c ≠ .error →
      let cut := before ++ [.delta (.on c u), .delta (.on c v)]
      let whole := before ++ [.delta (.on c (u ++ v))]
      Frame.contents ((start who .empty).run (cut ++ after)).2 =
          Frame.contents ((start who .empty).run (whole ++ after)).2 ∧
        ((start who .empty).run (cut ++ after)).1.transcript =
          ((start who .empty).run (whole ++ after)).1.transcript ∧
        ((start who .empty).run cut).1.steps after = ((start who .empty).run whole).1.steps after) ∧
    ∀ inputs inputs' : List Input, joined inputs = joined inputs' →
      Frame.contents ((start who .empty).run inputs).2 =
          Frame.contents ((start who .empty).run inputs').2 ∧
        ((start who .empty).run inputs).1.transcript =
          ((start who .empty).run inputs').1.transcript := by
  have hone := oneBlock_start who .empty
  have hend : (start who .empty).transcript.WrittenAtEnd := Transcript.writtenAtEnd_empty
  constructor
  · intro before after c u v hc
    have hpieces := agree_pieces (oneBlock_run hone before)
      (speaks_run hend before).writtenAtEnd.sound (isPiece_on hc u) (isPiece_on hc v) rfl
    obtain ⟨hagree, hsteps⟩ := hpieces.after.before hone after
    exact ⟨hagree.contents, hagree.alike.transcript, hsteps⟩
  · intro inputs inputs' h
    have h₁ := agree_joined hone hend inputs
    have h₂ := agree_joined hone hend inputs'
    rw [← h] at h₂
    exact ⟨h₁.contents.trans h₂.contents.symm, h₁.alike.transcript.trans h₂.alike.transcript.symm⟩

/-- A cut inside of a marker, and the same text character by character. -/
theorem run_cut_marker :
    let r := start ⟨"a", "Alpha", none⟩ .empty
    let whole := "a<think>b</think>c".toList
    Channel.text ≠ .error ∧
      (r.run [.delta (.on .text "a<thi".toList),
          .delta (.on .text "nk>b</think>c".toList)]).1.transcript =
        (r.run [.delta (.on .text whole)]).1.transcript ∧
      joined (whole.map fun c => .delta (.on .text [c])) = joined [.delta (.on .text whole)] ∧
      (r.run (whole.map fun c => .delta (.on .text [c]))).1.transcript =
        (r.run [.delta (.on .text whole)]).1.transcript := by
  obtain ⟨hcut, hjoined⟩ := run_cut ⟨"a", "Alpha", none⟩
  have hsame : joined ("a<think>b</think>c".toList.map fun c => .delta (.on .text [c])) =
      joined [.delta (.on .text "a<think>b</think>c".toList)] := rfl
  exact ⟨nofun, (hcut [] [] .text "a<thi".toList "nk>b</think>c".toList nofun).2.1, hsame,
    (hjoined _ _ hsame).2⟩

end Reply

end ChatRelay
