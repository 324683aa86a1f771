import ChatRelay.Json.Decode

/-!
# Deltas

A delta is one step of a model's reply, whatever the provider it came from: a piece of text on one
of the channels of the reply, the end of the reply, or text that could not be understood yet.
-/

namespace ChatRelay

open Json (Value Decoder Shape)

/-- The channels on which a reply arrives. -/
inductive Channel where
  /-- The answer itself. -/
  | text
  /-- The reasoning before the answer. -/
  | think
  /-- Calls of tools in the provider's own form. -/
  | toolCalls
  /-- An error that the provider reports inside the reply. -/
  | error
  /-- Visible text of any other form. -/
  | other
deriving DecidableEq

namespace Channel

/-- The name of a channel. -/
def name : Channel → String
  | text => "text"
  | think => "think"
  | toolCalls => "tool_calls_native"
  | error => "error"
  | other => "other"

/-- The channel with a name. -/
def ofName? : String → Option Channel
  | "text" => some text
  | "think" => some think
  | "tool_calls_native" => some toolCalls
  | "error" => some error
  | "other" => some other
  | _ => none

/-- A channel is found by its name. -/
@[simp] theorem ofName?_name (c : Channel) : ofName? c.name = some c := by
  cases c <;> rfl

/-- A channel in JSON. -/
def toJson (c : Channel) : Value := .string c.name

/-- A channel out of JSON. -/
def decode : Decoder Channel := .variant ofName?

end Channel

/-- One step of a model's reply. -/
structure Delta where
  channel : Channel
  text : List Char
  /-- The reply ends with this delta. -/
  done : Bool := false
  /-- The text could not be understood and waits for more. -/
  pending : Bool := false
deriving DecidableEq

namespace Delta

/-- A piece of text on a channel. -/
def on (channel : Channel) (text : List Char) : Delta := { channel, text }

/-- The end of the reply, perhaps with a last piece of text. -/
def last (text : List Char) : Delta := { channel := .text, text, done := true }

/-- Text that could not be understood. -/
def unread (text : List Char) : Delta := { channel := .text, text, pending := true }

/-- The same delta as the last one of the reply. -/
def finished (d : Delta) : Delta := { d with done := true }

/-- A delta in JSON. -/
def toJson (d : Delta) : Value :=
  Json.objectOf [
    ("kind", some d.channel.toJson),
    ("text", some (.ofText d.text)),
    ("done", some (.bool d.done)),
    ("pending", some (.bool d.pending))]

/-- The fields of a delta. -/
def shape : Shape := ⟨"Delta", ["kind", "text", "done", "pending"]⟩

/-- A delta out of JSON. -/
def decode : Decoder Delta := fun v => do
  let r ← shape.record v
  let channel ← shape.required r "kind" Channel.decode
  let text ← shape.required r "text" .string
  let done ← shape.defaulted r "done" false .bool
  let pending ← shape.defaulted r "pending" false .bool
  shape.done r
  return { channel, text := text.toList, done, pending }

end Delta

end ChatRelay
