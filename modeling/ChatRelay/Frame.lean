import ChatRelay.Delta
import ChatRelay.Message

/-!
# Frames

What the client of a turn is sent. A frame carries a piece of the reply, the end of the turn, an
error, or the notice that another assistant is being called; the first frame of each assistant also
carries who that assistant is.
-/

namespace ChatRelay

open Json (Value Object Decoder Shape)

/-- How a client shows a frame. -/
inductive FrameType where
  | text
  | think
  | tool
  | error
  | loading
deriving DecidableEq

namespace FrameType

/-- The name of a frame type. -/
def name : FrameType → String
  | text => "text"
  | think => "think"
  | tool => "tool"
  | error => "error"
  | loading => "loading"

/-- The frame type with a name. -/
def ofName? : String → Option FrameType
  | "text" => some text
  | "think" => some think
  | "tool" => some tool
  | "error" => some error
  | "loading" => some loading
  | _ => none

/-- Content of a type is shown as that type. -/
def ofContent : ContentType → FrameType
  | .text => text
  | .think => think
  | .tool => tool
  | .error => error

/-- A client sees tool calls of every form as tool content, and other visible text as text. -/
def ofChannel : Channel → FrameType
  | .text | .other => text
  | .think => think
  | .toolCalls => tool
  | .error => error

/-- A frame type in JSON. -/
def toJson (t : FrameType) : Value := .string t.name

/-- A frame type out of JSON. -/
def decode : Decoder FrameType := .variant ofName?

end FrameType

/-- Who answers a turn. -/
structure Identity where
  id : String
  name : String
  avatar : Option String
deriving DecidableEq

namespace Identity

/-- An identity in JSON. -/
def toJson (i : Identity) : Value :=
  Json.objectOf [
    ("id", some (.string i.id)),
    ("name", some (.string i.name)),
    ("avatar", i.avatar.map .string)]

/-- The fields of an identity. -/
def shape : Shape := ⟨"Identity", ["id", "name", "avatar"]⟩

/-- An identity out of JSON. -/
def decode : Decoder Identity := fun v => do
  let r ← shape.record v
  let id ← shape.required r "id" .string
  let name ← shape.required r "name" .string
  let avatar ← shape.optional r "avatar" .string
  shape.done r
  return { id, name, avatar }

end Identity

/-- One message to the client. -/
structure Frame where
  assistantId : Option String := none
  assistantName : Option String := none
  assistantAvatar : Option String := none
  role : Option Role := none
  text : Option String := none
  kind : Option FrameType := none
  props : Option Object := none
  /-- The client starts a new bubble. -/
  new : Bool := false
  /-- The text continues what was sent before. -/
  delta : Bool := false
  /-- The turn ends with this frame. -/
  done : Bool := false

namespace Frame

/-- A piece of the reply. -/
def piece (text : List Char) (kind : FrameType) : Frame :=
  { text := some (String.ofList text), kind := some kind, delta := true }

/-- The end of a turn that failed. -/
def failed (message : String) : Frame :=
  { text := some message, kind := some .error, done := true }

/-- The end of a turn. -/
def ended : Frame := { done := true }

/-- The end of a turn with a literal output. -/
def output (text : String) : Frame := { text := some text, done := true }

/-- The notice that another assistant is being called. -/
def loading (placeholder : String) : Frame :=
  { role := some .assistant, kind := some .loading, new := true
    props := some [("placeholder", .string placeholder)] }

/-- The frame with the identity of an assistant. -/
def withIdentity (f : Frame) (i : Identity) : Frame :=
  { f with assistantId := some i.id, assistantName := some i.name, assistantAvatar := i.avatar }

/-- Whether a frame is an error. -/
def isError (f : Frame) : Bool :=
  f.kind == some .error

/-- A frame in JSON. -/
def toJson (f : Frame) : Value :=
  Json.objectOf [
    ("assistant_id", f.assistantId.map .string),
    ("assistant_name", f.assistantName.map .string),
    ("assistant_avatar", f.assistantAvatar.map .string),
    ("role", f.role.map Role.toJson),
    ("text", f.text.map .string),
    ("type", f.kind.map FrameType.toJson),
    ("props", f.props.map .object),
    ("new", if f.new then some (.bool true) else none),
    ("delta", some (.bool f.delta)),
    ("done", some (.bool f.done))]

/-- The fields of a frame. -/
def shape : Shape :=
  ⟨"Frame", ["assistant_id", "assistant_name", "assistant_avatar", "role", "text", "type",
    "props", "new", "delta", "done"]⟩

/-- A frame out of JSON. -/
def decode : Decoder Frame := fun v => do
  let r ← shape.record v
  let assistantId ← shape.optional r "assistant_id" .string
  let assistantName ← shape.optional r "assistant_name" .string
  let assistantAvatar ← shape.optional r "assistant_avatar" .string
  let role ← shape.optional r "role" Role.decode
  let text ← shape.optional r "text" .string
  let kind ← shape.optional r "type" FrameType.decode
  let props ← shape.optional r "props" .object
  let new ← shape.defaulted r "new" false .bool
  let delta ← shape.defaulted r "delta" false .bool
  let done ← shape.defaulted r "done" false .bool
  shape.done r
  return {
    assistantId, assistantName, assistantAvatar, role, text, kind, props, new, delta, done }

end Frame

end ChatRelay
