import ChatRelay.Call
import ChatRelay.History.Record

/-!
# Archives

An archive is a collaborator that keeps the history of conversations: it gives out the records of a
chat, oldest first, and takes new ones.
-/

namespace ChatRelay

/-- A collaborator that keeps histories, each of a chat in a session. -/
structure Archive (σ : Type) where
  load : (session chat : String) → Call σ (Result (List Record))
  save : (session chat : String) → List Record → (metadata : Json.Object) → Call σ (Result Unit)

end ChatRelay
