import ChatRelay.Reply
import ChatRelay.Turn.Leg

/-!
# Streams

How the reply to a request is streamed. The frames of the backend advance the reply, and what they
make of it goes to the client, until the reply ends, fails, or the client hangs up. A reply that the
provider did not end is ended when the backend is through.
-/

namespace ChatRelay

open Json (Value Object)

/-- How the stream of a reply ended. -/
inductive StreamEnd where
  /-- The provider reported an error. -/
  | failed (raw : List Char) (transcript : Transcript)
  /-- Text was left that could not be read. -/
  | unread (pending : List Char)
  | done (transcript : Transcript) (asides : List Message)

namespace Engine

variable {σ : Type}

/-- How far a reply has been streamed. -/
structure Streaming where
  reply : Reply
  step : Step
  hungUp : Bool
  events : List Event

namespace Streaming

/-- A stream that has not begun. -/
def start (a : Identity) (hungUp : Bool) : Streaming :=
  ⟨.start a .empty, .more, hungUp, []⟩

/-- Takes a provider frame, unless the client has hung up, and says whether to go on. -/
def take (s : Streaming) (bytes : List UInt8) : Streaming × Bool :=
  if s.hungUp then (s, false)
  else
    let a := s.reply.takeFrame bytes
    ({ s with reply := a.reply, step := a.step, events := s.events ++ a.frames.map .frame },
      a.step == .more)

/-- The client hangs up. -/
def hangUp (s : Streaming) : Streaming :=
  { s with hungUp := true, events := s.events ++ [.hungUp] }

end Streaming

/-- Takes what a backend delivers. -/
def receive (a : Identity) (r : BackendReply) : Flow σ (Delivered Streaming) := fun w hungUp =>
  let d := r.deliver Streaming.take Streaming.hangUp (.start a hungUp)
  ⟨.ok d, d.taken.events ++ [.delivered d.count d.stopped], w, d.taken.hungUp⟩

/-- The end of a stream. A reply that the provider did not end, and of which nothing is left unread,
is ended here. -/
def closeStream (s : Streaming) : Flow σ StreamEnd := do
  let (reply, step) ←
    if s.step = .more ∧ s.reply.pending = [] then
      let a := s.reply.close
      Flow.tell (a.frames.map .frame)
      pure (a.reply, a.step)
    else pure (s.reply, s.step)
  match step with
  | .failed raw => return .failed raw reply.transcript
  | _ =>
    if reply.pending = [] then return .done reply.transcript reply.asides
    else return .unread reply.pending

/-- Asks the model and streams its reply. A failure of the backend after the end of the reply does
not matter. -/
def stream (e : Engine σ) (l : Leg σ) : Flow σ StreamEnd := do
  let request ← e.requestFor l.assistant l.messages
  Flow.tell [.request request l.options]
  let reply ← Flow.call (e.backend request l.options)
  let d ← receive l.assistant.identity reply
  if ← Flow.hasHungUp then .fail .canceled
  else
    match reply.ending d.stopped, d.taken.step with
    | some f, .more => .fail f
    | _, _ => closeStream d.taken

end Engine

end ChatRelay
