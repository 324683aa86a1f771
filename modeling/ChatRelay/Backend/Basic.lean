import ChatRelay.Failure

/-!
# Backends

A backend is asked for the reply of a model and delivers it frame by frame. Whoever takes the frames
says after each whether to go on; after the first no, no frame is delivered any more. The client may
hang up at any time before the backend returns: before a frame, after the last of them, and also
after the backend was told to stop.
-/

namespace ChatRelay

/-- What happens next while a backend delivers a reply. -/
inductive Delivery where
  | frame (bytes : List UInt8)
  /-- The client hangs up. -/
  | hangUp

/-- What a backend makes of a request. -/
structure BackendReply where
  /-- What happens before the backend returns, as long as it is not told to stop. -/
  deliveries : List Delivery
  /-- The failure that it ends with, if any, told whether it was stopped. -/
  ending : (stopped : Bool) → Option Failure
  /-- Whether the client hangs up after the backend was told to stop, and before it returns. -/
  hangUpOnceStopped : Bool := false

/-- The frames that were taken, how many there were, and whether the last was answered with a no. -/
structure Delivered (τ : Type) where
  taken : τ
  count : Nat
  stopped : Bool

namespace BackendReply

/-- Hands deliveries over one after another, after those counted. A frame is answered with true to
go on, and with false to stop. -/
def handOver {τ : Type} (onFrame : τ → List UInt8 → τ × Bool) (onHangUp : τ → τ) :
    List Delivery → Nat → τ → Delivered τ
  | [], count, t => ⟨t, count, false⟩
  | .hangUp :: rest, count, t => handOver onFrame onHangUp rest count (onHangUp t)
  | .frame bytes :: rest, count, t =>
    let (t, goOn) := onFrame t bytes
    if goOn then handOver onFrame onHangUp rest (count + 1) t else ⟨t, count + 1, true⟩

/-- Delivers a reply. Of a backend that was told to stop no frame follows, but until it returns the
client may still hang up. -/
def deliver {τ : Type} (r : BackendReply) (onFrame : τ → List UInt8 → τ × Bool) (onHangUp : τ → τ)
    (t : τ) : Delivered τ :=
  let d := handOver onFrame onHangUp r.deliveries 0 t
  if d.stopped && r.hangUpOnceStopped then { d with taken := onHangUp d.taken } else d

/-- A reply that fails before anything is delivered. -/
def failing (f : Failure) : BackendReply := { deliveries := [], ending := fun _ => some f }

/-- A reply that delivers frames to a client that stays, and ends well. -/
def ofFrames (frames : List (List UInt8)) : BackendReply :=
  { deliveries := frames.map .frame, ending := fun _ => none }

end BackendReply

end ChatRelay
