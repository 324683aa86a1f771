import ChatRelay.Turn.Stream

/-!
# Conclusions

What is made of a reply that has ended. An error of the provider ends the turn, with a text that the
hook for errors may change. A reply that ended well is kept in the archive, and the last hook says
what comes next: an output, a hand-off, or nothing. A reply whose hook answers with something
malformed is not kept.
-/

namespace ChatRelay

open Json (Value Object)

/-- What comes after one assistant's part of a turn. -/
inductive Continuation where
  | ended (r : TurnResult)
  | handedOn (h : HandOff)

namespace Engine

variable {σ : Type}

/-- Ends the turn with an error. -/
def endWithError (message : String) : Flow σ TurnResult := do
  Flow.send (.failed message)
  return .failed message

/-- The text of a provider's error as the hook for it leaves it. -/
def errorText (l : Leg σ) (raw : List Char) (t : Transcript) : Flow σ String := do
  let own := String.ofList (Provider.errorTextOfBody raw)
  match ← (consult l.assistant .fail (l.hookInput l.messages t (some raw))).attempt with
  | .ok (some r) => return (r.error.or r.output).getD own
  | _ => return own

/-- The records of a leg: its input, unless that is hidden, and the reply. -/
def recordsOf (l : Leg σ) (input : Message) (t : Transcript) : List Record :=
  let reply := Record.ofAssistant t.json l.context.sessionId l.assistant.identity
  if input.hidden then [reply] else [.ofUser input.text l.context.sessionId, reply]

/-- Keeps a leg in the archive. Whether that succeeds does not matter for the turn. -/
def keep (e : Engine σ) (l : Leg σ) (t : Transcript) : Flow σ Unit :=
  match e.archive, l.messages.getLast? with
  | some archive, some input =>
    if t.isEmpty ∨ l.context.sessionId = "" then pure ()
    else do
      let c := l.context
      let records := recordsOf l input t
      Flow.tell [.save c.sessionId c.chatId records c.metadata]
      let _ ← Flow.call (archive.save c.sessionId c.chatId records c.metadata)
      return ()
  | _, _ => pure ()

/-- What the last hook's reply asks for: a follow-up, or the end of the turn with an output. -/
def follow (r : HookReply) : Flow σ Continuation :=
  match r.next with
  | some (.handOff h) => pure (.handedOn h)
  | some .exit => pure (.ended .completed)
  | none => do
    Flow.send (r.output.elim .ended .output)
    return .ended .completed

/-- A failure that is due to the input, which is then not kept. -/
def isMalformed {α : Type} : Result α → Bool
  | .error f => f.category == .input
  | .ok _ => false

/-- Completes a leg whose reply has ended. -/
def complete (e : Engine σ) (l : Leg σ) (t : Transcript) (asides : List Message) :
    Flow σ Continuation := do
  let done ← (consult l.assistant .done (l.hookInput (l.messages ++ asides) t none)).attempt
  if !isMalformed done then e.keep l t
  match done with
  | .error f => return .ended (← endWithError f.message)
  | .ok r => follow (r.getD {})

/-- What comes after a stream. -/
def conclude (e : Engine σ) (l : Leg σ) : StreamEnd → Flow σ Continuation
  | .failed raw t => do
    let message ← errorText l raw t
    return .ended (← endWithError message)
  | .unread pending => do
    return .ended (← endWithError (String.ofList (Provider.errorTextOfBody pending)))
  | .done t asides => e.complete l t asides

end Engine

end ChatRelay
