import ChatRelay.Proofs.Turn.Conclusion
import ChatRelay.Turn.Run

/-!
# The legs of a turn

Assistants are called one after another. A `Brief` is what an assistant is called with;
`Engine.play` is one leg, which comes to a result or to the brief of the next assistant, and a run
of legs is one leg after another (`serve_succ`). `Engine.calls` lists the calls of a run, each with
the world in which it is made.

What the client is sent in one leg is what its stream sends, and then the notice that another
assistant is called, or what the result is told with (`sent_play`). By induction on the levels that
are left, a run sends its streams with such notices between them, and what its result is told with
(`sent_serve`).
-/

namespace ChatRelay

open Json (Value Object)

/-- What an assistant is called with. -/
structure Brief (σ : Type) where
  context : TurnContext
  assistant : Assistant σ
  messages : List Message
  /-- The options of the caller. -/
  caller : Object

/-- The call of an assistant: with how many levels left, and in which world. -/
structure Summons (σ : Type) where
  levels : Nat
  brief : Brief σ
  world : σ
  hungUp : Bool

/-- The notice to the client that an assistant is called. -/
def Assistant.notice {σ : Type} (a : Assistant σ) : Frame :=
  (Frame.loading ("Calling " ++ a.name)).withIdentity a.identity

namespace Engine

variable {σ : Type} (e : Engine σ)

/-! ### One leg after another -/

/-- The leg with which an assistant begins, if there are levels left and the client is there. -/
def enter (levels : Nat) (b : Brief σ) : Flow σ (Leg σ) :=
  match levels with
  | 0 => .fail (.delegationTooDeep e.settings.maxDepth)
  | _ + 1 => do
    if ← Flow.hasHungUp then .fail .canceled
    else e.beginLeg b.context b.assistant b.messages b.caller

/-- What follows a leg: the result, or the brief of the assistant to which it is handed on. -/
def handOn (l : Leg σ) : Continuation → Flow σ (TurnResult ⊕ Brief σ)
  | .ended r => pure (.inl r)
  | .handedOn h => do
    let (c, next, messages) ← e.accept l.context h
    return .inr ⟨c, next, messages, h.options⟩

/-- One leg. -/
def play (levels : Nat) (b : Brief σ) : Flow σ (TurnResult ⊕ Brief σ) := do
  let l ← e.enter levels b
  let ended ← e.stream l
  let k ← e.conclude l ended
  e.handOn l k

/-- Runs an assistant and those to which it hands on. -/
def serve (levels : Nat) (b : Brief σ) : Flow σ TurnResult :=
  e.runLegs levels b.context b.assistant b.messages b.caller

/-- What follows a leg that is not the last one allowed. -/
def goOn (levels : Nat) : TurnResult ⊕ Brief σ → Flow σ TurnResult
  | .inl r => pure r
  | .inr next => e.serve levels next

/-- A leg beyond the limit does not begin. -/
theorem serve_zero (b : Brief σ) :
    e.serve 0 b = .fail (.delegationTooDeep e.settings.maxDepth) := by
  unfold serve runLegs
  rfl

/-- A run is one leg and then those to which it hands on. -/
theorem serve_succ (levels : Nat) (b : Brief σ) :
    e.serve (levels + 1) b = e.play (levels + 1) b >>= e.goOn levels := by
  unfold serve runLegs play enter
  simp only [bind_assoc]
  congr 1
  funext hungUp
  cases hungUp with
  | true => rfl
  | false =>
    rw [if_neg nofun]
    congr 1
    funext l
    congr 1
    funext ended
    congr 1
    funext k
    cases k with
    | ended r => rfl
    | handedOn h =>
      show _ = (e.accept l.context h >>= _) >>= _
      rw [bind_assoc]
      rfl

/-- The calls of assistants in a run, each in its world. -/
def calls : (levels : Nat) → Brief σ → σ → Bool → List (Summons σ)
  | 0, b, w, h => [⟨0, b, w, h⟩]
  | levels + 1, b, w, h =>
    ⟨levels + 1, b, w, h⟩ ::
      match (e.play (levels + 1) b).run w h with
      | ⟨.ok (.inr next), _, w, h⟩ => calls levels next w h
      | _ => []

/-- Who answers in a call, if a leg begins with it. -/
def speaker? (s : Summons σ) : Option Identity :=
  ((e.enter s.levels s.brief).run s.world s.hungUp).value.toOption.map fun l => l.assistant.identity

/-- The frames of the stream in a call: pieces of which the first tells who answers. -/
def IsStreamOf (s : Summons σ) (fs : List Frame) : Prop :=
  match e.speaker? s with
  | some who => Frame.ArePieces who false fs
  | none => fs = []

/-- The reply of the last hook in a call, if the call comes to it. -/
def finalReply (s : Summons σ) : Result (Option HookReply) :=
  ((do
    let l ← e.enter s.levels s.brief
    let ended ← e.stream l
    lastReply l ended : Flow σ (Option HookReply)).run s.world s.hungUp).value

variable {e}

/-! ### What legs may do -/

/-- A leg is entered. -/
theorem obeys_enter (levels : Nat) (b : Brief σ) :
    (e.enter levels b).Obeys Event.Prepares e.MayFail := by
  cases levels with
  | zero => exact Flow.obeys_fail nofun
  | succ levels => exact (obeys_beginLeg _ _ _ _).unlessHungUp

/-- A hand-off is accepted. -/
theorem obeys_accept (c : TurnContext) (h : HandOff) :
    (e.accept c h).Obeys (fun _ => True) e.MayFail := by
  unfold accept
  have hresolve := mayFail_of_ne_canceled (e := e) (e.assistants.resolve_ne_canceled h.assistantId)
  have hmessage := mayFail_of_ne_canceled (e := e) h.input.toMessage_ne_canceled
  refine .bind (Flow.obeys_ofResult hresolve) fun next => ?_
  refine .bind (Flow.obeys_ofResult hmessage) fun input => ?_
  refine .bind (obeys_conversation _ _ _).anyEvent fun messages => ?_
  exact .bind (Flow.obeys_send trivial) fun _ => Flow.obeys_pure _

/-- A leg is handed on, or not. -/
theorem obeys_handOn (l : Leg σ) (k : Continuation) :
    (e.handOn l k).Obeys (fun _ => True) e.MayFail := by
  cases k with
  | ended r => exact Flow.obeys_pure _
  | handedOn h => exact (obeys_accept _ _).bind fun _ => Flow.obeys_pure _

/-- One leg is run. -/
theorem obeys_play (levels : Nat) (b : Brief σ) :
    (e.play levels b).Obeys (fun _ => True) e.MayFail := by
  unfold play
  refine .bind (obeys_enter levels b).anyEvent fun l => ?_
  refine .bind (obeys_stream l).anyEvent fun ended => ?_
  exact (obeys_conclude l ended).bind fun k => obeys_handOn l k

/-- A run of legs. -/
theorem obeys_serve (levels : Nat) (b : Brief σ) :
    (e.serve levels b).Obeys (fun _ => True) e.MayFail := by
  induction levels generalizing b with
  | zero =>
    rw [serve_zero]
    exact Flow.obeys_fail nofun
  | succ levels ih =>
    rw [serve_succ]
    refine .bind (obeys_play _ b) fun after => ?_
    cases after with
    | inl r => exact Flow.obeys_pure r
    | inr next => exact ih next

/-! ### What legs send -/

/-- What is sent after the stream of a leg, by what the leg comes to. -/
def Sends (exits : Prop) (frames : List Frame) : Result (TurnResult ⊕ Brief σ) → Prop
  | .error _ => frames = []
  | .ok (.inl r) => ∃ last, frames = last.toList ∧ Closing exits r last
  | .ok (.inr next) => frames = [next.assistant.notice]

/-- A hand-off is accepted with the notice of it, or it fails and nothing is sent. -/
theorem sent_accept (c : TurnContext) (h : HandOff) (w : σ) (hungUp : Bool) :
    (∃ c' next messages, ((e.accept c h).run w hungUp).value = .ok (c', next, messages) ∧
        Event.frames ((e.accept c h).run w hungUp).events = [next.notice]) ∨
      ∃ x, ((e.accept c h).run w hungUp).value = .error x ∧
        Event.frames ((e.accept c h).run w hungUp).events = [] := by
  unfold accept
  cases e.assistants.resolve h.assistantId with
  | error x => exact .inr ⟨x, rfl, rfl⟩
  | ok next =>
    cases h.input.toMessage with
    | error x => exact .inr ⟨x, rfl, rfl⟩
    | ok input =>
      rw [Flow.ofResult_ok, Flow.pure_bind_eq, Flow.ofResult_ok, Flow.pure_bind_eq]
      dsimp only
      generalize ({ c with assistantId := next.id, depth := c.depth + 1 } : TurnContext) = c'
      have hquiet :=
        (obeys_conversation (e := e) c' next (handedInput c' input)).frames_of_prepares w hungUp
      cases hv : ((e.conversation c' next (handedInput c' input)).run w hungUp).value with
      | error x =>
        rw [Flow.run_bind_of_error hv]
        exact .inr ⟨x, rfl, hquiet⟩
      | ok messages =>
        rw [Flow.run_bind_of_ok hv]
        refine .inl ⟨c', next, messages, rfl, ?_⟩
        rw [Event.frames_append, hquiet]
        rfl

/-- What follows a leg sends the notice of a hand-off, or what the leg's result is told with. -/
theorem sends_handOn (l : Leg σ) {exits : Prop} {frames : List Frame} {k : Continuation}
    (hk : k.Tells exits frames) (w : σ) (hungUp : Bool) :
    Sends exits (frames ++ Event.frames ((e.handOn l k).run w hungUp).events)
      ((e.handOn l k).run w hungUp).value := by
  cases k with
  | ended r =>
    obtain ⟨last, rfl, hlast⟩ := hk
    exact ⟨last, List.append_nil _, hlast⟩
  | handedOn h =>
    cases hk
    unfold handOn
    dsimp only
    rcases sent_accept (e := e) l.context h w hungUp with
      ⟨c', next, messages, hv, hsent⟩ | ⟨x, hv, hsent⟩
    · rw [Flow.run_bind_of_ok hv, Event.frames_append, hsent]
      rfl
    · rw [Flow.run_bind_of_error hv, hsent]
      exact List.append_nil _

/-- What a leg sends: its stream, and then what it comes to. -/
theorem sent_play (levels : Nat) (b : Brief σ) (w : σ) (h : Bool) :
    ∃ fs tail, Event.frames ((e.play levels b).run w h).events = fs ++ tail ∧
      e.IsStreamOf ⟨levels, b, w, h⟩ fs ∧
      Sends (AsksToExit (e.finalReply ⟨levels, b, w, h⟩)) tail
        ((e.play levels b).run w h).value := by
  have hquiet := (obeys_enter (e := e) levels b).frames_of_prepares w h
  unfold play
  cases hl : ((e.enter levels b).run w h).value with
  | error x =>
    rw [Flow.run_bind_of_error hl]
    refine ⟨[], [], hquiet, ?_, rfl⟩
    unfold IsStreamOf speaker?
    rw [hl]
    rfl
  | ok l =>
    rw [Flow.run_bind_of_ok hl, Event.frames_append, hquiet, List.nil_append]
    have hstream (fs : List Frame) (hfs : Frame.ArePieces l.assistant.identity false fs) :
        e.IsStreamOf ⟨levels, b, w, h⟩ fs := by
      unfold IsStreamOf speaker?
      rw [hl]
      exact hfs
    have hpieces := arePieces_stream (e := e) l ((e.enter levels b).run w h).world
      ((e.enter levels b).run w h).hungUp
    cases hs : ((e.stream l).run ((e.enter levels b).run w h).world
        ((e.enter levels b).run w h).hungUp).value with
    | error x =>
      rw [Flow.run_bind_of_error hs]
      exact ⟨_, [], (List.append_nil _).symm, hstream _ hpieces, rfl⟩
    | ok ended =>
      rw [Flow.run_bind_of_ok hs]
      dsimp only
      generalize hrun : (e.stream l).run _ _ = o at hs hpieces ⊢
      -- A stream that comes to an end is always concluded, and all other frames are sent after it.
      obtain ⟨k, hk, htells⟩ := tells_conclude (e := e) l ended o.world o.hungUp
      have hfinal : e.finalReply ⟨levels, b, w, h⟩ =
          ((lastReply l ended).run o.world o.hungUp).value := by
        unfold finalReply
        rw [Flow.run_bind_of_ok hl, Flow.run_bind_of_ok (hrun ▸ hs), hrun]
      rw [Flow.run_bind_of_ok hk, Event.frames_append, Event.frames_append, hfinal]
      exact ⟨_, _, rfl, hstream _ hpieces, sends_handOn l htells _ _⟩

/-! ### What runs send -/

/-- The streams of a run, with the notices of the calls between them. -/
def relay : List (Summons σ × List Frame) → List Frame
  | [] => []
  | (_, fs) :: rest => fs ++ rest.flatMap fun (s, gs) => s.brief.assistant.notice :: gs

/-- The last call of a run asks to exit. -/
def Exits (e : Engine σ) (calls : List (Summons σ)) : Prop :=
  ∃ s ∈ calls.getLast?, AsksToExit (e.finalReply s)

/-- The first call of a run is that of its brief. -/
theorem exists_calls_eq_cons (levels : Nat) (b : Brief σ) (w : σ) (h : Bool) :
    ∃ rest, e.calls levels b w h = ⟨levels, b, w, h⟩ :: rest := by
  cases levels with
  | zero => exact ⟨[], rfl⟩
  | succ levels => exact ⟨_, rfl⟩

/-- After a stream comes the notice of the next call. -/
theorem relay_cons {s t : Summons σ} {rest : List (Summons σ)} {fs : List Frame}
    {streams : List (Summons σ × List Frame)} (h : streams.map Prod.fst = t :: rest) :
    relay ((s, fs) :: streams) = fs ++ t.brief.assistant.notice :: relay streams := by
  cases streams with
  | nil => exact nomatch h
  | cons p streams =>
    obtain ⟨rfl, -⟩ := List.cons.inj h
    rfl

/-- The last call of a run is that of what follows its first. -/
theorem exits_cons {s t : Summons σ} {rest : List (Summons σ)} :
    e.Exits (s :: t :: rest) ↔ e.Exits (t :: rest) := by
  unfold Exits
  rw [List.getLast?_cons_cons]

/-- What a run sends: its streams, with the notices of the calls between them, and then what its
result is told with. -/
theorem sent_serve (levels : Nat) (b : Brief σ) (w : σ) (h : Bool) :
    ∃ (streams : List (Summons σ × List Frame)) (last : Option Frame),
      streams.map Prod.fst = e.calls levels b w h ∧
      (∀ p ∈ streams, e.IsStreamOf p.1 p.2) ∧
      Event.frames ((e.serve levels b).run w h).events = relay streams ++ last.toList ∧
      match ((e.serve levels b).run w h).value with
      | .error _ => last = none
      | .ok r => Closing (e.Exits (e.calls levels b w h)) r last := by
  induction levels generalizing b w h with
  | zero =>
    rw [serve_zero]
    refine ⟨[(⟨0, b, w, h⟩, [])], none, rfl, ?_, rfl, rfl⟩
    intro p hp
    rw [List.mem_singleton.1 hp]
    rfl
  | succ levels ih =>
    obtain ⟨fs, tail, hframes, hstream, hsends⟩ := sent_play (e := e) (levels + 1) b w h
    rw [serve_succ, Flow.run_bind]
    unfold calls
    generalize (e.play (levels + 1) b).run w h = o at hframes hsends ⊢
    obtain ⟨value, events, w', h'⟩ := o
    cases value with
    | error x =>
      refine ⟨[(_, fs)], none, rfl, by simpa using hstream, ?_, rfl⟩
      cases hsends
      simpa [relay] using hframes
    | ok after =>
      cases after with
      | inl r =>
        obtain ⟨last, rfl, hlast⟩ := hsends
        refine ⟨[(_, fs)], last, rfl, by simpa using hstream, ?_, ?_⟩
        · simpa [relay, goOn] using hframes
        · simpa [Exits, goOn] using hlast
      | inr next =>
        cases hsends
        -- After a hand-off the tail of this call is the notice of the next assistant, which stands
        -- between the two streams.
        obtain ⟨streams, last, hcalls, hstreams, hsent, hlast⟩ := ih next w' h'
        obtain ⟨rest, hrest⟩ := e.exists_calls_eq_cons levels next w' h'
        dsimp only at hframes ⊢
        rw [hrest] at hcalls hlast ⊢
        refine ⟨(_, fs) :: streams, last, congrArg _ hcalls, ?_, ?_, ?_⟩
        · intro p hp
          rcases List.mem_cons.1 hp with rfl | hp
          · exact hstream
          · exact hstreams p hp
        · rw [Event.frames_append, hframes, relay_cons hcalls]
          show _ ++ Event.frames ((e.serve levels next).run w' h').events = _
          rw [hsent]
          simp
        · simp only [exits_cons]
          exact hlast

end Engine

end ChatRelay
