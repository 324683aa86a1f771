import ChatRelay.History.Archive
import ChatRelay.History.Store
import ChatRelay.Settings.Basic

/-!
# Histories in memory

The store as an archive: a world holds the store and tells the time of each call.
-/

namespace ChatRelay

/-- The empty store of some settings. -/
def Store.ofSettings (s : Settings) : Store :=
  .empty s.historyMaxSize s.historyLifetime

/-- How a world holds a store. -/
structure StoreIn (σ : Type) where
  get : σ → Store
  set : Store → σ → σ
  /-- The time of the next call. -/
  now : σ → Instant
  /-- Time goes on. -/
  tick : σ → σ

namespace StoreIn

variable {σ : Type}

/-- The records of a chat at the time of the call. -/
def load (i : StoreIn σ) (session chat : String) : Call σ (Result (List Record)) := fun w =>
  ⟨.ok ((i.get w).history (i.now w) session chat), i.tick w, false⟩

/-- Keeps records. A save whose records' end of lifetime cannot be computed keeps nothing. -/
def save (i : StoreIn σ) (session chat : String) (records : List Record)
    (metadata : Json.Object) : Call σ (Result Unit) := fun w =>
  match (i.get w).save (i.now w) session chat records metadata with
  | .saved s => ⟨.ok (), i.tick (i.set s w), false⟩
  | .refused f => ⟨.error f, i.tick w, false⟩
  | .crashed => ⟨.error (.storage "lifetime ends after the last instant"), i.tick w, false⟩

/-- The store as an archive. -/
def archive (i : StoreIn σ) : Archive σ := ⟨i.load, i.save⟩

end StoreIn

end ChatRelay
