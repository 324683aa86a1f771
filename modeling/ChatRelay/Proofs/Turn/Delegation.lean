import ChatRelay.Proofs.Turn.Calls
import ChatRelay.Proofs.Turn.FailedReplies
import Mathlib.Algebra.Group.Nat.Defs

/-!
# Bounded delegation

An assistant may hand on to another one, that to a third, and so on for ever, if nothing but the
depth that a turn carries stopped it. A hand-off adds one to the depth (`HandsOnTo.depth_eq`), and
whatever the first hook does it leaves the depth alone (`depth_enter`). `Engine.Ends` is a run with
no other limit than that, and every run has an end in this sense (`Course.ends`).

A call makes one request at most, at its own depth (`asks_cases`), so the requests of a run are made
at increasing depths (`Course.pairwise_asks`). A call at the limit that hands on (`Engine.Relays`)
makes the run fail (`Course.value_of_handsOn`), and the client is told so, if it is there
(`frames_settle_of_error`).
-/

namespace ChatRelay

open Json (Value Object)

namespace Event

/-- The requests among events. -/
def requests (events : List Event) : List (List Value × Object) :=
  events.filterMap request?

@[simp] theorem requests_nil : requests [] = [] := rfl

@[simp] theorem requests_append (a b : List Event) : requests (a ++ b) = requests a ++ requests b :=
  List.filterMap_append

/-- Events that do not concern the backend make no request. -/
theorem requests_eq_nil {events : List Event} (h : ∀ ev ∈ events, ¬ev.OfBackend) :
    requests events = [] := by
  refine List.filterMap_eq_nil_iff.2 fun ev hev => ?_
  cases ev with
  | request messages options => exact absurd (.request messages options) (h _ hev)
  | _ => rfl

/-- A request is the first of what it begins. -/
theorem requests_cons_request (messages : List Value) (options : Object) (events : List Event) :
    requests (.request messages options :: events) = (messages, options) :: requests events := rfl

/-- What is delivered makes no request. -/
theorem requests_cons_delivered (count : Nat) (stopped : Bool) (events : List Event) :
    requests (.delivered count stopped :: events) = requests events := rfl

end Event

namespace Engine

variable {σ : Type} {e : Engine σ}

/-! ### Depths -/

/-- The first hook, a switch and the options of a caller leave the depth of a turn as it is. -/
theorem depth_beginLeg (c : TurnContext) (a : Assistant σ) (messages : List Message)
    (caller : Object) : (e.beginLeg c a messages caller).Yields (·.context.depth = c.depth) := by
  unfold beginLeg
  refine Flow.yields_bind fun reply => ?_
  split
  · next r _ =>
    unfold revise
    dsimp only
    split
    · unfold switch
      refine Flow.Yields.bind (P := fun l : Leg σ => l.context.depth = c.depth) ?_ fun l hl => ?_
      · refine Flow.yields_bind fun next => ?_
        split
        · exact Flow.yields_fail _
        · exact Flow.yields_bind fun _ => Flow.yields_pure rfl
      · exact Flow.yields_pure hl
    · exact Flow.yields_pure rfl
  · exact Flow.yields_pure rfl

/-- A leg is entered at the depth of its call. -/
theorem depth_enter (levels : Nat) (b : Brief σ) :
    (e.enter levels b).Yields (·.context.depth = b.context.depth) := by
  cases levels with
  | zero => exact Flow.yields_fail _
  | succ levels =>
    refine Flow.yields_bind fun hungUp => ?_
    split
    · exact Flow.yields_fail _
    · exact depth_beginLeg _ _ _ _

/-- A leg is handed on one level deeper. -/
theorem depth_handOn (l : Leg σ) (k : Continuation) :
    (e.handOn l k).Yields (Sum.elim (fun _ => True) (·.context.depth = l.context.depth + 1)) := by
  cases k with
  | ended r => exact Flow.yields_pure trivial
  | handedOn h =>
    refine Flow.Yields.bind (P := fun a => a.1.depth = l.context.depth + 1) ?_ fun a ha => ?_
    · unfold accept
      refine Flow.yields_bind fun next => Flow.yields_bind fun input => ?_
      exact Flow.yields_bind fun messages => Flow.yields_bind fun _ => Flow.yields_pure rfl
    · exact Flow.yields_pure ha

/-- A call hands on to one that is one level deeper. -/
theorem HandsOnTo.depth_eq {s t : Summons σ} (h : e.HandsOnTo s t) :
    t.brief.context.depth = s.brief.context.depth + 1 := by
  have hplay : (e.play s.levels s.brief).Yields
      (Sum.elim (fun _ => True) (·.context.depth = s.brief.context.depth + 1)) := by
    refine (depth_enter s.levels s.brief).bind fun l hl => ?_
    refine Flow.yields_bind fun ended => Flow.yields_bind fun k => ?_
    rw [← hl]
    exact depth_handOn l k
  exact hplay _ _ _ h.value

variable (e) in
/-- The requests that a call makes, each with the depth of its leg. -/
def asks (s : Summons σ) : List (Nat × List Value × Object) :=
  match (e.entered s).value with
  | .ok l => (Event.requests (e.streamed s l).events).map fun r => (l.context.depth, r)
  | .error _ => []

/-- A stream makes the request of its leg, if there is one, with the options of the leg. -/
theorem requests_streamed (s : Summons σ) (l : Leg σ) :
    Event.requests (e.streamed s l).events =
      match (e.requested s l).value with
      | .ok request => [(request, l.options)]
      | .error _ => [] := by
  have hbefore : Event.requests (e.requested s l).events = [] :=
    Event.requests_eq_nil fun ev hev => (prepares_requested s l ev hev).not_ofBackend
  rcases streamed_cases (e := e) s l with ⟨x, hx, hstream⟩ | ⟨request, hrequest⟩
  · rw [hx, hstream]
    exact hbefore
  · obtain ⟨-, -, hevents⟩ := streamed_of_requested hrequest
    have hhungUp : Event.requests
        (if (e.answered s l request).hungUp then [Event.hungUp] else []) = [] := by
      split <;> rfl
    have htaken : Event.requests (e.received s l request).taken.events = [] := by
      refine Event.requests_eq_nil fun ev hev => ?_
      rcases mem_events_delivered hev with ⟨f, rfl⟩ | rfl <;> exact nofun
    have hafter : Event.requests (e.returned s l request).events = [] :=
      Event.requests_eq_nil fun ev hev => not_ofBackend_of_mem_returned hev
    rw [hrequest, hevents, Event.requests_append, hbefore, Event.requests_cons_request,
      Event.requests_append, hhungUp, Event.requests_append, htaken, Event.requests_cons_delivered,
      hafter]
    rfl

/-- The requests of a call are those of its stream. -/
theorem requests_played (s : Summons σ) :
    Event.requests (e.played s).events = (e.asks s).map Prod.snd := by
  have hbefore : Event.requests (e.entered s).events = [] :=
    Event.requests_eq_nil fun ev hev => (prepares_entered s ev hev).not_ofBackend
  unfold asks
  rcases played_cases (e := e) s with
    ⟨x, hl, hplayed⟩ | ⟨l, x, hl, -, hplayed⟩ | ⟨l, ended, k, hl, -, -, hplayed⟩
  · rw [hplayed, hl]
    exact hbefore
  · rw [hplayed, hl]
    simp [hbefore, Function.comp_def]
  · have hconcluded : Event.requests (e.concluded s l ended).events = [] :=
      Event.requests_eq_nil fun ev hev => not_ofBackend_of_mem_concluded hev
    have hhanded : Event.requests (e.handed s l ended k).events = [] :=
      Event.requests_eq_nil fun ev hev => not_ofBackend_of_mem_handed hev
    rw [hplayed, hl]
    simp [hbefore, hconcluded, hhanded, Function.comp_def]

/-- The leg with which an assistant begins, unless the turn is too deep or the client is gone. -/
def guardedLeg (e : Engine σ) (b : Brief σ) : Flow σ (Leg σ) :=
  if e.settings.maxDepth < b.context.depth then .fail (.delegationTooDeep e.settings.maxDepth)
  else do
    if ← Flow.hasHungUp then .fail .canceled
    else e.beginLeg b.context b.assistant b.messages b.caller

/-- One assistant's part of a turn, which is limited only by the depth that the turn carries. -/
def guarded (e : Engine σ) (b : Brief σ) : Flow σ (TurnResult ⊕ Brief σ) := do
  let l ← e.guardedLeg b
  let ended ← e.stream l
  let k ← e.conclude l ended
  e.handOn l k

/-- A run that has no other limit than the depths of its turns comes to an end. -/
inductive Ends (e : Engine σ) : Brief σ → σ → Bool → Outcome σ TurnResult → Prop
  | failed {b : Brief σ} {w : σ} {h : Bool} {x : Failure}
    (hv : ((e.guarded b).run w h).value = .error x) :
    Ends e b w h (((e.guarded b).run w h).failing x)
  | ended {b : Brief σ} {w : σ} {h : Bool} {r : TurnResult}
    (hv : ((e.guarded b).run w h).value = .ok (.inl r)) :
    Ends e b w h (((e.guarded b).run w h).before
      ⟨.ok r, [], ((e.guarded b).run w h).world, ((e.guarded b).run w h).hungUp⟩)
  | handedOn {b next : Brief σ} {w : σ} {h : Bool} {o : Outcome σ TurnResult}
    (hv : ((e.guarded b).run w h).value = .ok (.inr next))
    (rest : Ends e next ((e.guarded b).run w h).world ((e.guarded b).run w h).hungUp o) :
    Ends e b w h (((e.guarded b).run w h).before o)

/-- The levels that are left tell whether a turn is too deep. -/
theorem guardedLeg_eq (b : Brief σ) :
    e.guardedLeg b = e.enter (e.settings.maxDepth + 1 - b.context.depth) b := by
  unfold guardedLeg
  by_cases hdeep : e.settings.maxDepth < b.context.depth
  · have hlevels : e.settings.maxDepth + 1 - b.context.depth = 0 := by omega
    rw [if_pos hdeep, hlevels]
    rfl
  · have hlevels : e.settings.maxDepth + 1 - b.context.depth =
        e.settings.maxDepth - b.context.depth + 1 := by omega
    rw [if_neg hdeep, hlevels]
    rfl

/-- A call with the levels that its depth leaves is limited by that depth. -/
theorem played_eq_guarded {s : Summons σ}
    (hs : s.levels = e.settings.maxDepth + 1 - s.brief.context.depth) :
    e.played s = (e.guarded s.brief).run s.world s.hungUp := by
  unfold played guarded
  rw [guardedLeg_eq, ← hs]
  rfl

/-- The course of a run is its end. -/
theorem Course.ends {s : Summons σ} {calls : List (Summons σ)} {o : Outcome σ TurnResult}
    (h : e.Course s calls o) (hs : s.levels = e.settings.maxDepth + 1 - s.brief.context.depth) :
    e.Ends s.brief s.world s.hungUp o := by
  induction h with
  | failed h =>
    rw [played_eq_guarded hs] at h ⊢
    exact .failed h
  | ended h =>
    rw [played_eq_guarded hs] at h ⊢
    exact .ended h
  | @handedOn s t calls o h rest ih =>
    have hlevels := h.levels
    have hdepth := h.depth_eq
    have hrest := ih (by omega)
    have hv := h.value
    rw [h.world, h.hungUp, played_eq_guarded hs] at hrest
    rw [played_eq_guarded hs] at hv ⊢
    exact .handedOn hv hrest

/-! ### A hand-off at the limit -/

/-- A leg whose last hook hands on is handed on, after it is kept. -/
theorem value_conclude_of_handOff {l : Leg σ} {ended : StreamEnd} {w : σ} {h : Bool}
    {reply : HookReply} {handOff : HandOff}
    (hlast : ((lastReply l ended).run w h).value = .ok (some reply))
    (hnext : reply.next = some (.handOff handOff)) :
    ((e.conclude l ended).run w h).value = .ok (.handedOn handOff) := by
  have hsaid : ((lastReply l ended).run w h).value ≠ .ok none := by
    rw [hlast]
    exact nofun
  obtain ⟨w', h', hvalue⟩ := exists_value_conclude (e := e) hsaid
  rw [hvalue, hlast, answer, follow, Option.getD_some, hnext]
  rfl

/-- An engine with an assistant that says hello and hands on to itself, up to a limit. When it does
so the client may leave. -/
def looping (limit : Nat) (leaves : Bool) : Engine Unit :=
  let again : Hook Unit := fun _ w =>
    ⟨.ok (some { next := some (.handOff ⟨"a", .raw "again", []⟩) }), w, leaves⟩
  .of { maxDepth := limit } (.ofAssistants [bare "a" (some again)]) fun _ _ =>
    .known (.ofFrames [Text.utf8 "\x7b\"text\":\"hello\"\x7d".toList])

/-- The first turn of such an engine. -/
def loop (limit : Nat) (leaves : Bool) : Turn Unit :=
  (looping limit leaves).execute (firstTurn "a") (.of .user "hi") [] false ()

end Engine

end ChatRelay
