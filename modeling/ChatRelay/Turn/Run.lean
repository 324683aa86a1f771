import ChatRelay.Turn.Conclusion

/-!
# Running turns

A turn runs one leg after another, for as long as assistants hand the conversation on; how often
that may happen is limited by the settings. It runs in the background of a call that returns as soon
as the client hangs up. The rest of the turn then winds down: no frame of the provider is looked at
any more, and no further leg begins.
-/

namespace ChatRelay

open Json (Value Object)

namespace Engine

variable {σ : Type}

/-! ### Handing on -/

/-- The input of a hand-off for the next assistant: hidden, and named for the session. -/
def handedInput (c : TurnContext) (input : Message) : Message :=
  let own := if c.sessionId = "" then none else some c.sessionId
  { input with hidden := true, name := input.name.or own }

/-- What the next assistant begins with; the client is told that it is called. -/
def accept (e : Engine σ) (c : TurnContext) (h : HandOff) :
    Flow σ (TurnContext × Assistant σ × List Message) := do
  let next ← Flow.ofResult (e.assistants.resolve h.assistantId)
  let input ← Flow.ofResult h.input.toMessage
  let c := { c with assistantId := next.id, depth := c.depth + 1 }
  let messages ← e.conversation c next (handedInput c input)
  Flow.send ((Frame.loading ("Calling " ++ next.name)).withIdentity next.identity)
  return (c, next, messages)

/-- Runs assistants one after another, for as long as there are levels left. -/
def runLegs (e : Engine σ) :
    (levels : Nat) → TurnContext → Assistant σ → List Message → Object → Flow σ TurnResult
  | 0, _, _, _, _ => .fail (.delegationTooDeep e.settings.maxDepth)
  | levels + 1, c, a, messages, caller => do
    if ← Flow.hasHungUp then .fail .canceled
    else
      let l ← e.beginLeg c a messages caller
      let ended ← e.stream l
      match ← e.conclude l ended with
      | .ended r => return r
      | .handedOn h =>
        let (c, next, messages) ← e.accept l.context h
        e.runLegs levels c next messages h.options

/-- Runs an assistant and those to which it hands on. -/
def runFrom (e : Engine σ) (c : TurnContext) (a : Assistant σ) (messages : List Message)
    (caller : Object) : Flow σ TurnResult :=
  e.runLegs (e.settings.maxDepth + 1 - c.depth) c a messages caller

/-! ### Turns -/

/-- The result of a turn in the background. A failure is told to the client as an error, unless the
client has hung up. -/
def settle (f : Flow σ TurnResult) : Flow σ TurnResult := do
  match ← f.attempt with
  | .ok r => return r
  | .error failure =>
    if (← Flow.hasHungUp) || !failure.isReportable then return .canceled
    else endWithError failure.message

/-- A turn as its caller sees it. -/
structure Turn (σ : Type) where
  result : TurnResult
  events : List Event
  world : σ

/-- Events with the caller's return right after the client hangs up. -/
def returnAtHangUp : List Event → List Event
  | [] => [.returned]
  | .hungUp :: rest => .hungUp :: .returned :: rest
  | event :: rest => event :: returnAtHangUp rest

/-- A turn that runs in the background of its caller, who has a result as soon as the client hangs
up. If it has hung up before the turn begins, the turn begins after the return. -/
def inBackground (f : Flow σ TurnResult) (w : σ) (hungUp : Bool) : Turn σ :=
  let o := (settle f).run w hungUp
  if hungUp then ⟨.canceled, .returned :: o.events, o.world⟩
  else if o.hungUp then ⟨.canceled, returnAtHangUp o.events, o.world⟩
  else
    match o.value with
    | .ok r => ⟨r, o.events ++ [.returned], o.world⟩
    | .error failure => ⟨.failed failure.message, o.events ++ [.returned], o.world⟩

/-- Streams the reply to a conversation that is given as it is. -/
def streamChat (e : Engine σ) (c : TurnContext) (a : Assistant σ) (messages : List Message)
    (caller : Object) (hungUp : Bool) (w : σ) : Turn σ :=
  inBackground (e.runFrom c a messages caller) w hungUp

/-- The assistant of a turn and its conversation. -/
def prepare (e : Engine σ) (c : TurnContext) (input : Message) :
    Flow σ (Assistant σ × List Message) := do
  let a ← Flow.ofResult (e.assistants.resolve c.assistantId)
  let messages ← e.conversation c a input
  return (a, messages)

/-- Runs the turn of an input. -/
def execute (e : Engine σ) (c : TurnContext) (input : Message) (caller : Object) (hungUp : Bool)
    (w : σ) : Turn σ :=
  let o := (e.prepare c input).run w hungUp
  match o.value with
  | .error failure =>
    ⟨.failed failure.message, o.events ++ [.frame (.failed failure.message), .returned], o.world⟩
  | .ok (a, messages) =>
    let t := e.streamChat c a messages caller o.hungUp o.world
    { t with events := o.events ++ t.events }

end Engine

end ChatRelay
