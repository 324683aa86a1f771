import ChatRelay.Turn.Engine

/-!
# Legs

A leg is one assistant's part of a turn. It begins with the assistant's first hook, which may change
the messages and the options of the request, or switch to another assistant. The other assistant
gets the last message as its input; its own first hook is not asked.
-/

namespace ChatRelay

open Json (Value Object)

/-- One assistant's part of a turn, up to the request. -/
structure Leg (σ : Type) where
  context : TurnContext
  assistant : Assistant σ
  messages : List Message
  options : Object

/-- What a leg shows a hook. -/
def Leg.hookInput {σ : Type} (l : Leg σ) (messages : List Message) (t : Transcript)
    (rawError : Option (List Char)) : HookInput :=
  ⟨l.context, messages, l.options, t, rawError⟩

namespace Engine

variable {σ : Type}

/-- The reply of the hook for a stage, if there is a hook and it has one. -/
def consult (a : Assistant σ) (stage : HookStage) (input : HookInput) :
    Flow σ (Option HookReply) :=
  match a.hooks.at stage with
  | none => pure none
  | some hook => do
    Flow.tell [.hook stage input]
    let reply ← Flow.call (hook input)
    Flow.ofResult (reply.mapError stage.failure)

/-- The leg after a switch to another assistant, which is given the last message. -/
def switch (e : Engine σ) (l : Leg σ) (id : String) (caller : Object) : Flow σ (Leg σ) := do
  let next ← Flow.ofResult (e.assistants.resolve id)
  match l.messages.getLast? with
  | none => .fail (.invalidInput "no input message to hand over")
  | some input =>
    let messages ← e.conversation l.context next input
    return {
      context := { l.context with assistantId := next.id, vision := next.vision }
      assistant := next
      messages
      options := next.optionsFor e.connectors caller }

/-- The leg after what the first hook asks for. -/
def revise (e : Engine σ) (l : Leg σ) (r : HookReply) (caller : Object) : Flow σ (Leg σ) := do
  let l := { l with messages := r.messages.getD l.messages }
  let l ← match r.assistantId.filter (· != l.assistant.id) with
    | some id => e.switch l id caller
    | none => pure l
  return { l with options := r.options.getD l.options }

/-- The leg with which an assistant begins, with the options of the caller. -/
def beginLeg (e : Engine σ) (c : TurnContext) (a : Assistant σ) (messages : List Message)
    (caller : Object) : Flow σ (Leg σ) := do
  let l : Leg σ := {
    context := { c with vision := a.vision }
    assistant := a
    messages
    options := a.optionsFor e.connectors caller }
  match ← consult a .init (l.hookInput messages .empty none) with
  | some r => e.revise l r caller
  | none => return l

end Engine

end ChatRelay
