import ChatRelay.Frame
import ChatRelay.History.Record
import ChatRelay.Hook

/-!
# Events

What happens in a turn, as an observer of the engine's collaborators and of the client sees it.
-/

namespace ChatRelay

open Json (Value Object)

/-- One thing that happens in a turn. -/
inductive Event where
  /-- A chat's records were read, so many of them. -/
  | historyRead (session chat : String) (count : Nat)
  /-- A hook is called. -/
  | hook (stage : HookStage) (input : HookInput)
  /-- The backend is called. -/
  | request (messages : List Value) (options : Object)
  /-- The backend has delivered so many frames, and was told to stop or not. -/
  | delivered (count : Nat) (stopped : Bool)
  /-- The client is sent a frame. -/
  | frame (f : Frame)
  /-- Records are given to the archive. -/
  | save (session chat : String) (records : List Record) (metadata : Object)
  /-- The client hangs up. -/
  | hungUp
  /-- The caller of the turn has its result. -/
  | returned

namespace Event

/-- The frame that an event sends. -/
def frame? : Event → Option Frame
  | frame f => some f
  | _ => none

/-- The frames among events. -/
def frames (events : List Event) : List Frame :=
  events.filterMap frame?

@[simp] theorem frames_nil : frames [] = [] := rfl

/-- The frames of events in a row are those of the first and then those of the others. -/
@[simp] theorem frames_append (a b : List Event) : frames (a ++ b) = frames a ++ frames b :=
  List.filterMap_append

end Event

end ChatRelay
