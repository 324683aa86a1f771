/-!
# Calls of collaborators

What surrounds a turn (hooks, the model's service, the history and the files) is a world that
changes with every call. A call answers in the world it finds and leaves the world after it, and the
client may hang up while it runs.
-/

namespace ChatRelay

/-- What a call of a collaborator comes to: its answer, the world after it, and whether the client
hung up during it. -/
structure Answer (σ α : Type) where
  value : α
  world : σ
  hungUp : Bool

/-- A call of a collaborator in a world. -/
abbrev Call (σ α : Type) := σ → Answer σ α

namespace Call

variable {σ α β : Type}

/-- An answer that is known without asking. -/
def known (a : α) : Call σ α := fun w => ⟨a, w, false⟩

/-- One call after another. The client has hung up if it did so during either. -/
def andThen (first : Call σ α) (next : α → Call σ β) : Call σ β := fun w =>
  let a := first w
  let b := next a.value a.world
  ⟨b.value, b.world, a.hungUp || b.hungUp⟩

/-- A known answer is given to what follows at once. -/
@[simp] theorem known_andThen (a : α) (next : α → Call σ β) :
    (known a).andThen next = next a := by
  funext w
  simp [andThen, known]

end Call

end ChatRelay
