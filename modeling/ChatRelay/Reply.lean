import ChatRelay.Frame
import ChatRelay.Provider.Delta
import ChatRelay.Transcript.Scan

/-!
# Replies

A reply is what one assistant has streamed so far. It takes deltas one at a time, and each delta
changes its transcript and gives the frames for the client. Reasoning and native tool calls arrive
on channels of their own; a reply marks them in the text, so that the client and the transcript see
one stream of text: an opening marker goes before the first delta on such a channel, and a closing
marker after the last. A provider frame that cannot be read is kept and read again together with the
frame after it.
-/

namespace ChatRelay

open Json (Value Object)

/-- What comes after a delta. -/
inductive Step where
  /-- More of the reply. -/
  | more
  /-- Nothing, since the provider has reported an error. -/
  | failed (raw : List Char)
  /-- Nothing, since the reply has ended. -/
  | done
deriving DecidableEq

/-- A reply in progress. -/
structure Reply where
  assistant : Identity
  transcript : Transcript
  /-- Reasoning has been marked as begun and not as ended. -/
  thinking : Bool
  /-- A tool call has been marked as begun and not as ended. -/
  calling : Bool
  /-- A frame has told the client who answers. -/
  announced : Bool
  /-- Text that could not be read yet. -/
  pending : List Char
  /-- The messages that followed a marked block, in their order. -/
  asides : List Message

namespace Reply

/-- A reply of an assistant that has not begun, after a transcript. -/
def start (assistant : Identity) (transcript : Transcript) : Reply where
  assistant := assistant
  transcript := transcript
  thinking := false
  calling := false
  announced := false
  pending := []
  asides := []

/-- The mark before reasoning. -/
def thinkOpen : List Char := "<think>\n".toList

/-- The mark after reasoning. -/
def thinkClose : List Char := "\n</think>\n".toList

/-- The mark before a tool call. -/
def toolOpen : List Char := "\n<tool>\n".toList

/-- The mark after a tool call; it also ends the object of the call. -/
def toolClose : List Char := "\x7d\n</tool>\n".toList

/-- What a delta makes of a reply: the reply after it, the frames for the client, and what is next.
-/
structure Advance where
  reply : Reply
  frames : List Frame
  step : Step

/-- A frame of the reply. The first one tells who answers. -/
def announce (r : Reply) (f : Frame) : Reply × Frame :=
  if r.announced then (r, f)
  else ({ r with announced := true }, f.withIdentity r.assistant)

/-- Ends a marked block: the mark goes to the client and the transcript, the current segment becomes
the block, and text goes on in a new segment. -/
def endBlock (r : Reply) (m : Marker) (mark : List Char) : Reply × Frame :=
  let (r, frame) := r.announce (.piece mark (.ofContent m.kind))
  let t := r.transcript.append mark
  let t :=
    match t.currentSegment? with
    | some g =>
      let props : Object := [("text", .ofText (m.strip g.text))]
      (t.retype? m.kind props g.id).getD t
    | none => t
  ({ r with transcript := (t.beginText []).resetScan }, frame)

/-- The messages that follow the ends of blocks. -/
def asidesOf (bs : List Boundary) : List Message :=
  bs.filterMap fun b =>
    if b.begins || b.tails.isEmpty then none
    else (Message.ofRaw (String.ofList b.tails) .assistant).toOption

/-- How text is shown in which a scan found boundaries: as the last block that begins or ends in it,
else as the block that is open, else as its channel says. -/
def shownAs (bs : List Boundary) (t : Transcript) (channel : Channel) : FrameType :=
  match bs.getLast?, t.openedKind? with
  | some b, _ => .ofContent b.kind
  | none, some kind => .ofContent kind
  | none, none => .ofChannel channel

/-- Text on a channel, to the transcript and the client. Empty text goes nowhere. -/
def say (r : Reply) (channel : Channel) (text : List Char) : Reply × List Frame :=
  if text.isEmpty then (r, [])
  else
    let (bs, t) := (r.transcript.append text).scan
    let r := { r with transcript := t, asides := r.asides ++ asidesOf bs }
    let (r, frame) := r.announce (.piece text (shownAs bs t channel))
    (r, [frame])

/-- Marks where reasoning begins and ends: the mark before it goes before the text, and the mark
after it is sent on its own. -/
def markThinking (r : Reply) (channel : Channel) (text : List Char) :
    Reply × List Frame × List Char :=
  if channel = .think then
    if r.thinking then (r, [], text) else ({ r with thinking := true }, [], thinkOpen ++ text)
  else if r.thinking then
    let (r, frame) := r.endBlock .think thinkClose
    ({ r with thinking := false }, [frame], text)
  else (r, [], text)

/-- Marks where a tool call begins and ends: the mark before it goes before the text, and the mark
after it goes before the text that follows or, at the end of the reply, is sent on its own. -/
def markCalling (r : Reply) (channel : Channel) (text : List Char) (done : Bool) :
    Reply × List Frame × List Char :=
  if channel = .toolCalls then
    if r.calling then (r, [], text) else ({ r with calling := true }, [], toolOpen ++ text)
  else if r.calling then
    if done then
      let (r, frame) := r.endBlock .tool toolClose
      ({ r with calling := false }, [frame], text)
    else ({ r with calling := false }, [], toolClose ++ text)
  else (r, [], text)

/-- Text on a channel, with the marks that are due, and then perhaps the end of the reply. -/
def advance (r : Reply) (channel : Channel) (text : List Char) (done : Bool) : Advance :=
  let (r, thinkFrames, text) := r.markThinking channel text
  let (r, callFrames, text) := r.markCalling channel text done
  let (r, textFrames) := r.say channel text
  let frames := thinkFrames ++ callFrames ++ textFrames
  if done then ⟨{ r with transcript := r.transcript.dropEmptyLast }, frames, .done⟩
  else ⟨r, frames, .more⟩

/-- One delta. A last delta that still carries reasoning or a tool call counts as that text and then
the bare end, so that its block is ended after it. -/
def take (r : Reply) (d : Delta) : Advance :=
  if d.pending then ⟨{ r with pending := r.pending ++ d.text }, [], .more⟩
  else if d.channel = .error then ⟨r, [], .failed d.text⟩
  else if d.done ∧ d.text ≠ [] ∧ (d.channel = .think ∨ d.channel = .toolCalls) then
    let piece := r.advance d.channel d.text false
    let last := piece.reply.advance .text [] true
    ⟨last.reply, piece.frames ++ last.frames, last.step⟩
  else r.advance d.channel d.text d.done

/-- The end of a reply that the provider did not end. -/
def close (r : Reply) : Advance :=
  r.take (.last [])

/-- The delta of a provider frame: of the pending text with the frame, if that can be read, and else
of the frame alone. What pending text is left is given with it. -/
def read (r : Reply) (raw : List UInt8) : List Char × Option Delta :=
  let joined :=
    if r.pending.isEmpty then none
    else (Delta.ofFrame? (Text.utf8 r.pending ++ raw)).filter fun d => !d.pending
  match joined with
  | some d => ([], some d)
  | none => (r.pending, Delta.ofFrame? raw)

/-- One provider frame. -/
def takeFrame (r : Reply) (raw : List UInt8) : Advance :=
  let (pending, d?) := r.read raw
  let r := { r with pending }
  match d? with
  | some d => r.take d
  | none => ⟨r, [], .more⟩

end Reply

end ChatRelay
