import ChatRelay.Turn.Event

/-!
# Flows

A flow is a part of a turn. It runs in a world of collaborators, knows whether the client has hung
up, and comes to a value or a failure, with the events on the way. A failure ends the flow; what
happened before it stays. Nobody but a collaborator makes the client hang up.
-/

namespace ChatRelay

/-- What a part of a turn comes to. -/
structure Outcome (σ α : Type) where
  value : Result α
  events : List Event
  world : σ
  /-- The client has hung up. -/
  hungUp : Bool

/-- A part of a turn, from a world in which the client may have hung up. -/
def Flow (σ α : Type) := σ → (hungUp : Bool) → Outcome σ α

namespace Flow

variable {σ α β : Type}

/-- Runs a flow. -/
def run (f : Flow σ α) (w : σ) (hungUp : Bool) : Outcome σ α := f w hungUp

/-- A flow that comes to a result at once. -/
def ofResult (r : Result α) : Flow σ α := fun w hungUp => ⟨r, [], w, hungUp⟩

/-- A flow that fails. -/
def fail (f : Failure) : Flow σ α := ofResult (.error f)

/-- A flow, and then another that depends on its value. -/
def andThen (f : Flow σ α) (next : α → Flow σ β) : Flow σ β := fun w hungUp =>
  let o := f w hungUp
  match o.value with
  | .error e => ⟨.error e, o.events, o.world, o.hungUp⟩
  | .ok a =>
    let p := next a o.world o.hungUp
    ⟨p.value, o.events ++ p.events, p.world, p.hungUp⟩

instance : Monad (Flow σ) where
  pure a := ofResult (.ok a)
  bind := andThen

/-- Some events happen. -/
def tell (events : List Event) : Flow σ Unit := fun w hungUp => ⟨.ok (), events, w, hungUp⟩

/-- The client is sent a frame. -/
def send (f : Frame) : Flow σ Unit := tell [.frame f]

/-- Whether the client has hung up. -/
def hasHungUp : Flow σ Bool := fun w hungUp => ⟨.ok hungUp, [], w, hungUp⟩

/-- A call of a collaborator. -/
def call (c : Call σ α) : Flow σ α := fun w hungUp =>
  let a := c w
  ⟨.ok a.value, if a.hungUp then [.hungUp] else [], a.world, hungUp || a.hungUp⟩

/-- A call of a collaborator that may fail, which ends the flow. -/
def ask (c : Call σ (Result α)) : Flow σ α :=
  (call c).andThen ofResult

/-- The result of a flow; a failure is a value like any other. -/
def attempt (f : Flow σ α) : Flow σ (Result α) := fun w hungUp =>
  let o := f w hungUp
  ⟨.ok o.value, o.events, o.world, o.hungUp⟩

/-! ### What runs come to -/

/-- A known result comes without any event. -/
@[simp] theorem run_ofResult (r : Result α) (w : σ) (hungUp : Bool) :
    (ofResult r).run w hungUp = ⟨r, [], w, hungUp⟩ := rfl

/-- A value comes without any event. -/
@[simp] theorem run_pure (a : α) (w : σ) (hungUp : Bool) :
    (pure a : Flow σ α).run w hungUp = ⟨.ok a, [], w, hungUp⟩ := rfl

/-- Events that are told happen, and nothing else. -/
@[simp] theorem run_tell (events : List Event) (w : σ) (hungUp : Bool) :
    (tell events).run w hungUp = ⟨.ok (), events, w, hungUp⟩ := rfl

/-- Whether the client has hung up is known without any event. -/
@[simp] theorem run_hasHungUp (w : σ) (hungUp : Bool) :
    hasHungUp.run w hungUp = ⟨.ok hungUp, [], w, hungUp⟩ := rfl

/-- A flow and then another has the events of both, unless the first fails. -/
theorem run_bind (f : Flow σ α) (next : α → Flow σ β) (w : σ) (hungUp : Bool) :
    (f >>= next).run w hungUp =
      match f.run w hungUp with
      | ⟨.error e, events, w, hungUp⟩ => ⟨.error e, events, w, hungUp⟩
      | ⟨.ok a, events, w, hungUp⟩ =>
        let p := (next a).run w hungUp
        ⟨p.value, events ++ p.events, p.world, p.hungUp⟩ := by
  simp only [bind, andThen, run]
  rcases f w hungUp with ⟨_ | _, _, _, _⟩ <;> rfl

end Flow

end ChatRelay
