import ChatRelay.Message

/-!
# Follow-ups

After a reply has ended, an assistant may ask for a follow-up: to end the turn without output, or to
hand the conversation to another assistant. A hand-off carries its input as a message, as a loosely
typed object, or as raw text; all three become a message when the hand-off is carried out.
-/

namespace ChatRelay

open Json (Value Object)

/-- The input of a hand-off. -/
inductive HandOffInput where
  | message (m : Message)
  | object (o : Object)
  | raw (s : String)

namespace HandOffInput

/-- The input that a JSON value stands for. -/
def ofJson : Value → Result HandOffInput
  | .string s => .ok (.raw s)
  | .object o => .ok (.object o)
  | v => .error (.invalidInput ("input should be a string or a message, got " ++ v.text))

/-- The message of an input; without a role of its own it is a user's. -/
def toMessage : HandOffInput → Result Message
  | .message m => .ok m
  | .object o => Message.ofObject o .user
  | .raw s => Message.ofRaw s .user

end HandOffInput

/-- A conversation on its way to another assistant. -/
structure HandOff where
  assistantId : String
  input : HandOffInput
  /-- The options of the caller for the other assistant. -/
  options : Object

/-- What a turn does after a reply. -/
inductive FollowUp where
  | handOff (h : HandOff)
  | exit

namespace FollowUp

/-- The options of a hand-off. -/
def optionsIn (payload : Object) : Result Object :=
  match payload.get? "options" with
  | none | some .null => .ok []
  | some (.object options) => .ok options
  | some _ => .error (.invalidInput "options should be an object")

/-- The input of a hand-off. -/
def inputIn (payload : Object) : Result HandOffInput :=
  match payload.get? "input" with
  | none | some .null => .error (.invalidInput "input is required")
  | some input => HandOffInput.ofJson input

/-- The hand-off of a payload. -/
def handOffOf (payload : Object) : Result HandOff := do
  match Message.nonEmptyString? payload "assistant_id" with
  | none => .error (.invalidInput "assistant_id should be a string")
  | some assistantId =>
    let input ← inputIn payload
    let options ← optionsIn payload
    return { assistantId, input, options }

/-- The follow-up of a JSON value. -/
def ofJson (v : Value) : Result FollowUp :=
  match (v.member? "action").bind Value.asString? with
  | none => .error (.invalidInput "action is required")
  | some "assistant" =>
    match (v.member? "payload").bind Value.asObject? with
    | none => .error (.invalidInput "payload is required")
    | some payload => (handOffOf payload).map .handOff
  | some "exit" => .ok .exit
  | some other => .error (.unknownAction other)

end FollowUp

end ChatRelay
