import ChatRelay.Call
import ChatRelay.FollowUp
import ChatRelay.Transcript.Basic
import ChatRelay.Turn.Context

/-!
# Hooks

An assistant may have a hook for each stage of a turn: before the model is asked, when the provider
reports an error, and after the reply has ended. A hook is called with the state of the turn and may
answer with changes to it. A hook is a collaborator of the turn: it may look at and change the
world, and the client may hang up while it runs.
-/

namespace ChatRelay

open Json (Value Object)

/-- The state of a turn as a hook sees it. -/
structure HookInput where
  turn : TurnContext
  messages : List Message
  options : Object
  transcript : Transcript
  /-- The provider's error, when the hook is called for one. -/
  rawError : Option (List Char)

/-- The changes that a hook asks for; what is absent stays as it is. -/
structure HookReply where
  options : Option Object := none
  messages : Option (List Message) := none
  assistantId : Option String := none
  output : Option String := none
  error : Option String := none
  next : Option FollowUp := none

namespace HookReply

/-- The options that a reply gives. -/
def optionsIn (o : Object) : Result (Option Object) :=
  match o.get? "options" with
  | none | some .null => .ok none
  | some (.object options) => .ok (some options)
  | some _ => .error (.invalidInput "options should be an object")

/-- One message that a reply gives. -/
def messageOf : Value → Result Message
  | .object o => Message.ofObject o .user
  | .string s => Message.ofRaw s .user
  | _ => .error (.invalidInput "input item should be a message")

/-- The messages that a reply gives: its input, or else its messages. -/
def messagesIn (o : Object) : Result (Option (List Message)) :=
  match (o.get? "input").or (o.get? "messages") with
  | none | some .null => .ok none
  | some (.array items) => (items.mapM messageOf).map some
  | some _ => .error (.invalidInput "input should be a message list")

/-- The output that a reply gives. An output that is not a string is kept as JSON. -/
def outputIn (o : Object) : Option String :=
  match o.get? "output" with
  | none | some .null => none
  | some (.string s) => some s
  | some other => some other.text

/-- The follow-up that a reply asks for. -/
def nextIn (o : Object) : Result (Option FollowUp) :=
  match o.get? "next" with
  | none | some .null => .ok none
  | some next => (FollowUp.ofJson next).map some

/-- The reply of a JSON value. -/
def ofJson : Value → Result HookReply
  | .object o => do
    let options ← optionsIn o
    let messages ← messagesIn o
    let next ← nextIn o
    return {
      options, messages, next
      assistantId := Message.nonEmptyString? o "assistant_id"
      output := outputIn o
      error := Message.nonEmptyString? o "error" }
  | _ => .error (.invalidInput "hook result should be an object")

end HookReply

/-- A hook in a world of collaborators. -/
abbrev Hook (σ : Type) := HookInput → Call σ (Result (Option HookReply))

/-- The hooks of an assistant, by stage. -/
structure Hooks (σ : Type) where
  init : Option (Hook σ) := none
  fail : Option (Hook σ) := none
  done : Option (Hook σ) := none

/-- The hook for a stage. -/
def Hooks.at {σ : Type} (h : Hooks σ) : HookStage → Option (Hook σ)
  | .init => h.init
  | .fail => h.fail
  | .done => h.done

/-- A hook's failure as the failure of its stage. What is wrong with the input, and what could not
be found, is reported as it is. -/
def HookStage.failure (stage : HookStage) (f : Failure) : Failure :=
  match f.category with
  | .input | .resolution => f
  | _ => .hook stage f.message

end ChatRelay
