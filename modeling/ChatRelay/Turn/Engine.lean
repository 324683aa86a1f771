import ChatRelay.Assistant.Instructions
import ChatRelay.Backend.Basic
import ChatRelay.History.Archive
import ChatRelay.History.Store
import ChatRelay.Settings.Basic
import ChatRelay.Turn.Request

/-!
# Engines

An engine is the settings and the collaborators with which turns are run. It makes conversations out
of what it recalls of a chat, what an assistant says before the input, and the input itself.
-/

namespace ChatRelay

open Json (Value Object)

/-- What runs turns, in a world of collaborators. -/
structure Engine (σ : Type) where
  settings : Settings
  assistants : Registry σ
  connectors : Connectors
  backend : List Value → Object → Call σ BackendReply
  archive : Option (Archive σ)
  files : Option (FileStore σ)

namespace Engine

variable {σ : Type}

/-- An engine without an archive and without files, whose connectors are those of the settings. -/
def of (settings : Settings) (assistants : Registry σ)
    (backend : List Value → Object → Call σ BackendReply) : Engine σ where
  settings := settings
  assistants := assistants
  connectors := settings.connectors
  backend := backend
  archive := none
  files := none

/-- The messages of a chat's newest records. -/
def recalled (e : Engine σ) (c : TurnContext) : Flow σ (List Message) :=
  match e.archive with
  | none => pure []
  | some archive =>
    if c.sessionId = "" then pure []
    else do
      let records ← Flow.ask (archive.load c.sessionId c.chatId)
      Flow.tell [.historyRead c.sessionId c.chatId records.length]
      return (Store.newest e.settings.historyMaxSize records).flatMap Record.messages

/-- A conversation: what is recalled, what the assistant puts before the input, and the input. -/
def conversation (e : Engine σ) (c : TurnContext) (a : Assistant σ) (input : Message) :
    Flow σ (List Message) := do
  let recalled ← e.recalled c
  return recalled ++ a.instructions e.connectors ++ [input]

/-- What is sent to the model of an assistant for a conversation. -/
def requestFor (e : Engine σ) (a : Assistant σ) (messages : List Message) :
    Flow σ (List Value) :=
  Request.ofMessages e.files a.vision messages

end Engine

end ChatRelay
