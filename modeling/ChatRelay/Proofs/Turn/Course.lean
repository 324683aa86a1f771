import ChatRelay.Proofs.Turn.Deliveries
import ChatRelay.Proofs.Turn.Legs

/-!
# The course of a run

A run of legs is the list of its calls, `Engine.calls`: what happens in it is what happens in the
calls, one after another (`Course.events_eq`), and every call but the first is one to which the call
before it hands on (`Course.exists_handsOnTo`). So what each call passes on to the next holds of all
of them (`Course.forall_mem`), and a call that hands on to none decides what the run comes to
(`Course.exists_rest`).

A call in turn has four parts, each with an outcome of its own: it enters a leg, streams the reply,
concludes the leg, and hands on. `played_cases` says how far a call comes, and `streamed_cases` and
`returned_cases` how far its stream does. Only the stream calls the backend, and it does so once.
The client is gone after a part if it was before or hangs up during it, and if it does not hang up
during a call the backend is asked while it is there (`AsksBackend.there`).
-/

namespace ChatRelay

open Json (Value Object)

/-! ### Outcomes one after another -/

namespace Outcome

variable {σ α β : Type}

/-- The outcome of a flow after another, whose events come first. -/
def before (o : Outcome σ α) (p : Outcome σ β) : Outcome σ β :=
  ⟨p.value, o.events ++ p.events, p.world, p.hungUp⟩

@[simp] theorem value_before (o : Outcome σ α) (p : Outcome σ β) :
    (o.before p).value = p.value := rfl

@[simp] theorem events_before (o : Outcome σ α) (p : Outcome σ β) :
    (o.before p).events = o.events ++ p.events := rfl

@[simp] theorem hungUp_before (o : Outcome σ α) (p : Outcome σ β) :
    (o.before p).hungUp = p.hungUp := rfl

/-- The outcome of a flow that is not gone on with, as that of the whole. -/
def failing (o : Outcome σ α) (x : Failure) : Outcome σ β :=
  ⟨.error x, o.events, o.world, o.hungUp⟩

@[simp] theorem value_failing (o : Outcome σ α) (x : Failure) :
    (o.failing x : Outcome σ β).value = .error x := rfl

@[simp] theorem events_failing (o : Outcome σ α) (x : Failure) :
    (o.failing x : Outcome σ β).events = o.events := rfl

@[simp] theorem hungUp_failing (o : Outcome σ α) (x : Failure) :
    (o.failing x : Outcome σ β).hungUp = o.hungUp := rfl

end Outcome

/-- What belongs to a call of the backend. -/
inductive Event.OfBackend : Event → Prop
  | request (messages : List Value) (options : Object) : OfBackend (.request messages options)
  | delivered (count : Nat) (stopped : Bool) : OfBackend (.delivered count stopped)

/-- Before a request the backend is not called. -/
theorem Event.Prepares.not_ofBackend {ev : Event} (h : ev.Prepares) : ¬ev.OfBackend := by
  cases h <;> exact nofun

namespace Engine

variable {σ : Type} (e : Engine σ)

/-! ### The parts of a call -/

/-- What a call comes to. -/
def played (s : Summons σ) : Outcome σ (TurnResult ⊕ Brief σ) :=
  (e.play s.levels s.brief).run s.world s.hungUp

/-- The leg with which a call begins. -/
def entered (s : Summons σ) : Outcome σ (Leg σ) :=
  (e.enter s.levels s.brief).run s.world s.hungUp

/-- The request of a call's leg. -/
def requested (s : Summons σ) (l : Leg σ) : Outcome σ (List Value) :=
  (e.requestFor l.assistant l.messages).run (e.entered s).world (e.entered s).hungUp

/-- What the backend answers to the request. -/
def answered (s : Summons σ) (l : Leg σ) (request : List Value) : Answer σ BackendReply :=
  e.backend request l.options (e.requested s l).world

/-- What is received of the backend's answer. -/
def received (s : Summons σ) (l : Leg σ) (request : List Value) : Delivered Streaming :=
  delivered l.assistant.identity ((e.requested s l).hungUp || (e.answered s l request).hungUp)
    (e.answered s l request).value

/-- What follows when the backend has returned. -/
def returned (s : Summons σ) (l : Leg σ) (request : List Value) : Outcome σ StreamEnd :=
  (afterDelivery (e.answered s l request).value (e.received s l request)).run
    (e.answered s l request).world (e.received s l request).taken.hungUp

/-- How the stream of a call's leg ends. -/
def streamed (s : Summons σ) (l : Leg σ) : Outcome σ StreamEnd :=
  (e.stream l).run (e.entered s).world (e.entered s).hungUp

/-- The conclusion of a call's leg, after its stream. -/
def concluded (s : Summons σ) (l : Leg σ) (ended : StreamEnd) : Outcome σ Continuation :=
  (e.conclude l ended).run (e.streamed s l).world (e.streamed s l).hungUp

/-- What follows the conclusion of a call's leg. -/
def handed (s : Summons σ) (l : Leg σ) (ended : StreamEnd) (k : Continuation) :
    Outcome σ (TurnResult ⊕ Brief σ) :=
  (e.handOn l k).run (e.concluded s l ended).world (e.concluded s l ended).hungUp

variable {e}

/-- A leg is concluded without fail. -/
theorem exists_concluded (s : Summons σ) (l : Leg σ) (ended : StreamEnd) :
    ∃ k, (e.concluded s l ended).value = .ok k := by
  obtain ⟨k, hk, -⟩ := tells_conclude (e := e) l ended (e.streamed s l).world
    (e.streamed s l).hungUp
  exact ⟨k, hk⟩

/-- A call whose stream comes to an end goes on with the conclusion of its leg, and with what
follows. -/
theorem played_of_ended {s : Summons σ} {l : Leg σ} {ended : StreamEnd} {k : Continuation}
    (hl : (e.entered s).value = .ok l) (hended : (e.streamed s l).value = .ok ended)
    (hk : (e.concluded s l ended).value = .ok k) :
    e.played s = (e.entered s).before ((e.streamed s l).before
      ((e.concluded s l ended).before (e.handed s l ended k))) := by
  have hentered : e.played s = (e.entered s).before
      ((e.stream l >>= fun ended => e.conclude l ended >>= e.handOn l).run
        (e.entered s).world (e.entered s).hungUp) := Flow.run_bind_of_ok hl _
  have hstreamed : (e.stream l >>= fun ended => e.conclude l ended >>= e.handOn l).run
      (e.entered s).world (e.entered s).hungUp = (e.streamed s l).before
        ((e.conclude l ended >>= e.handOn l).run (e.streamed s l).world (e.streamed s l).hungUp) :=
    Flow.run_bind_of_ok hended _
  have hconcluded : (e.conclude l ended >>= e.handOn l).run (e.streamed s l).world
      (e.streamed s l).hungUp = (e.concluded s l ended).before (e.handed s l ended k) :=
    Flow.run_bind_of_ok hk _
  rw [hentered, hstreamed, hconcluded]

/-- How far a call comes: it does not come to a leg, or its stream fails, or its leg is concluded
and followed by what the conclusion asks for. -/
theorem played_cases (s : Summons σ) :
    (∃ x, (e.entered s).value = .error x ∧ e.played s = (e.entered s).failing x) ∨
    (∃ l x, (e.entered s).value = .ok l ∧ (e.streamed s l).value = .error x ∧
      e.played s = (e.entered s).before ((e.streamed s l).failing x)) ∨
    ∃ l ended k, (e.entered s).value = .ok l ∧ (e.streamed s l).value = .ok ended ∧
      (e.concluded s l ended).value = .ok k ∧
      e.played s = (e.entered s).before ((e.streamed s l).before
        ((e.concluded s l ended).before (e.handed s l ended k))) := by
  cases hl : (e.entered s).value with
  | error x =>
    left
    exact ⟨x, rfl, Flow.run_bind_of_error hl _⟩
  | ok l =>
    right
    cases hs : (e.streamed s l).value with
    | error x =>
      left
      refine ⟨l, x, rfl, hs, (Flow.run_bind_of_ok hl _).trans ?_⟩
      exact congrArg (e.entered s).before (Flow.run_bind_of_error hs _)
    | ok ended =>
      right
      obtain ⟨k, hk⟩ := exists_concluded (e := e) s l ended
      exact ⟨l, ended, k, rfl, hs, hk, played_of_ended hl hs hk⟩

/-- With a request the backend is asked, and what it delivers is received. -/
theorem streamed_of_requested {s : Summons σ} {l : Leg σ} {request : List Value}
    (h : (e.requested s l).value = .ok request) :
    (e.streamed s l).value = (e.returned s l request).value ∧
      (e.streamed s l).hungUp = (e.returned s l request).hungUp ∧
      (e.streamed s l).events = (e.requested s l).events ++ .request request l.options ::
        ((if (e.answered s l request).hungUp then [.hungUp] else []) ++
          ((e.received s l request).taken.events ++
            .delivered (e.received s l request).count (e.received s l request).stopped ::
              (e.returned s l request).events)) := by
  have hrun : e.streamed s l = (e.requested s l).before
      ((e.streamOf l request).run (e.requested s l).world (e.requested s l).hungUp) :=
    Flow.run_bind_of_ok h (e.streamOf l)
  rw [hrun, run_streamOf]
  exact ⟨rfl, rfl, rfl⟩

/-- How far a stream comes: there is no request, and then nothing else, or there is one. -/
theorem streamed_cases (s : Summons σ) (l : Leg σ) :
    (∃ x, (e.requested s l).value = .error x ∧ e.streamed s l = (e.requested s l).failing x) ∨
      ∃ request, (e.requested s l).value = .ok request := by
  cases hv : (e.requested s l).value with
  | error x =>
    left
    exact ⟨x, rfl, Flow.run_bind_of_error hv (e.streamOf l)⟩
  | ok request =>
    right
    exact ⟨request, rfl⟩

/-- What follows when the backend has returned: nothing if the client has hung up, and else a
failure of the backend, if the reply has not ended, or the end of the stream. -/
theorem returned_cases (s : Summons σ) (l : Leg σ) (request : List Value) :
    (e.received s l request).taken.hungUp = true ∧
        (e.returned s l request).value = .error .canceled ∧
        (e.returned s l request).events = [] ∨
    (e.received s l request).taken.hungUp = false ∧
      ((∃ x, (e.answered s l request).value.ending (e.received s l request).stopped = some x ∧
          (e.received s l request).taken.step = .more ∧
          (e.returned s l request).value = .error x ∧ (e.returned s l request).events = []) ∨
        (((e.answered s l request).value.ending (e.received s l request).stopped = none ∨
            (e.received s l request).taken.step ≠ .more) ∧
          (e.returned s l request).value =
            .ok (streamEndOf (e.received s l request).taken.ended) ∧
          (e.returned s l request).events =
            (e.received s l request).taken.ended.frames.map .frame)) := by
  unfold returned afterDelivery
  rw [Flow.run_hasHungUp_bind]
  cases hthere : (e.received s l request).taken.hungUp with
  | true =>
    left
    exact ⟨rfl, rfl, rfl⟩
  | false =>
    right
    refine ⟨rfl, ?_⟩
    rw [if_neg Bool.false_ne_true]
    -- A failure of the backend counts only as long as the reply has not ended.
    split
    · next x hx hstep =>
      left
      exact ⟨x, hx, hstep, rfl, rfl⟩
    · next hnone =>
      right
      rw [run_closeStream]
      refine ⟨?_, rfl, rfl⟩
      cases hx : (e.answered s l request).value.ending (e.received s l request).stopped with
      | none => exact .inl rfl
      | some x => exact .inr (hnone x hx)

/-! ### Where the client may hang up -/

/-- A call enters its leg with nothing but what prepares a request. -/
theorem prepares_entered (s : Summons σ) : ∀ ev ∈ (e.entered s).events, ev.Prepares :=
  (obeys_enter s.levels s.brief).event _ _

/-- Nor does its request take more. -/
theorem prepares_requested (s : Summons σ) (l : Leg σ) :
    ∀ ev ∈ (e.requested s l).events, ev.Prepares :=
  (obeys_requestFor l.assistant l.messages).event _ _

/-- The client is gone when a leg is entered if it was before or hangs up on the way. -/
theorem hungUp_entered_iff (s : Summons σ) :
    (e.entered s).hungUp = true ↔ s.hungUp = true ∨ .hungUp ∈ (e.entered s).events :=
  (obeys_enter s.levels s.brief).hungUp_iff _ _

/-- The same for its request. -/
theorem hungUp_requested_iff (s : Summons σ) (l : Leg σ) :
    (e.requested s l).hungUp = true ↔
      (e.entered s).hungUp = true ∨ .hungUp ∈ (e.requested s l).events :=
  (obeys_requestFor l.assistant l.messages).hungUp_iff _ _

/-- The same for what the backend answers and delivers. -/
theorem hungUp_received_iff (s : Summons σ) (l : Leg σ) (request : List Value) :
    (e.received s l request).taken.hungUp = true ↔
      ((e.requested s l).hungUp || (e.answered s l request).hungUp) = true ∨
        .hungUp ∈ (e.received s l request).taken.events :=
  (sound_delivered _ _ _).hungUp_iff

/-- The same for its stream. -/
theorem hungUp_streamed_iff (s : Summons σ) (l : Leg σ) :
    (e.streamed s l).hungUp = true ↔
      (e.entered s).hungUp = true ∨ .hungUp ∈ (e.streamed s l).events :=
  (obeys_stream l).hungUp_iff _ _

/-- The same for a call. -/
theorem hungUp_played_iff (s : Summons σ) :
    (e.played s).hungUp = true ↔ s.hungUp = true ∨ .hungUp ∈ (e.played s).events :=
  (obeys_play s.levels s.brief).hungUp_iff _ _

/-- Who is there before, and does not hang up, is there after. -/
theorem there_of_iff {gone gone' : Bool} {events : List Event}
    (h : gone' = true ↔ gone = true ∨ .hungUp ∈ events) (hthere : gone = false)
    (hnever : .hungUp ∉ events) : gone' = false := by
  refine Bool.eq_false_iff.2 fun hgone => ?_
  rcases h.1 hgone with hbefore | hduring
  · rw [hthere] at hbefore
    exact nomatch hbefore
  · exact hnever hduring

variable (e) in
/-- In a call the backend is asked for the reply to a request. -/
structure AsksBackend (s : Summons σ) (l : Leg σ) (request : List Value) : Prop where
  entered : (e.entered s).value = .ok l
  requested : (e.requested s l).value = .ok request

/-- A call whose leg is streamed to an end has asked the backend. -/
theorem exists_asksBackend {s : Summons σ} {l : Leg σ} {ended : StreamEnd}
    (hl : (e.entered s).value = .ok l) (hended : (e.streamed s l).value = .ok ended) :
    ∃ request, e.AsksBackend s l request := by
  rcases streamed_cases (e := e) s l with ⟨x, -, hstream⟩ | ⟨request, hrequest⟩
  · rw [hstream] at hended
    exact nomatch hended
  · exact ⟨request, hl, hrequest⟩

/-- The stream of a call that asks the backend is what follows when the backend has returned. -/
theorem AsksBackend.streamed_value {s : Summons σ} {l : Leg σ} {request : List Value}
    (h : e.AsksBackend s l request) : (e.streamed s l).value = (e.returned s l request).value :=
  (streamed_of_requested h.requested).1

/-- The stream of a client that is there when the backend has returned: it fails with the backend,
if the reply has not ended, or comes to an end. -/
theorem AsksBackend.streamed_cases {s : Summons σ} {l : Leg σ} {request : List Value}
    (h : e.AsksBackend s l request) (hthere : (e.received s l request).taken.hungUp = false) :
    (∃ x, (e.answered s l request).value.ending (e.received s l request).stopped = some x ∧
        (e.received s l request).taken.step = .more ∧ (e.streamed s l).value = .error x) ∨
      (((e.answered s l request).value.ending (e.received s l request).stopped = none ∨
          (e.received s l request).taken.step ≠ .more) ∧
        (e.streamed s l).value = .ok (streamEndOf (e.received s l request).taken.ended)) := by
  rw [h.streamed_value]
  rcases returned_cases (e := e) s l request with
    ⟨hgone, -⟩ | ⟨-, ⟨x, hx, hmore, hvalue, -⟩ | ⟨hending, hvalue, -⟩⟩
  · exact nomatch hthere.symm.trans hgone
  · exact .inl ⟨x, hx, hmore, hvalue⟩
  · exact .inr ⟨hending, hvalue⟩

/-- What happens when a call enters its leg happens in the call. -/
theorem mem_played_of_mem_entered {s : Summons σ} {ev : Event} (hev : ev ∈ (e.entered s).events) :
    ev ∈ (e.played s).events := by
  rcases played_cases (e := e) s with
    ⟨x, -, hplayed⟩ | ⟨l, x, -, -, hplayed⟩ | ⟨l, _, k, -, -, -, hplayed⟩
  · rw [hplayed]
    exact hev
  · rw [hplayed]
    exact List.mem_append_left _ hev
  · rw [hplayed]
    exact List.mem_append_left _ hev

/-- What happens in the stream of a call happens in the call. -/
theorem mem_played_of_mem_streamed {s : Summons σ} {l : Leg σ} (hl : (e.entered s).value = .ok l)
    {ev : Event} (hev : ev ∈ (e.streamed s l).events) : ev ∈ (e.played s).events := by
  rcases played_cases (e := e) s with
    ⟨x, hl', hplayed⟩ | ⟨l', x, hl', -, hplayed⟩ | ⟨l', _, k, hl', -, -, hplayed⟩
  · exact nomatch hl.symm.trans hl'
  · cases hl.symm.trans hl'
    rw [hplayed]
    exact List.mem_append_right _ hev
  · cases hl.symm.trans hl'
    rw [hplayed]
    exact List.mem_append_right _ (List.mem_append_left _ hev)

/-- While the backend is asked in a call that the client does not leave, it is there. -/
theorem AsksBackend.there {s : Summons σ} {l : Leg σ} {request : List Value}
    (h : e.AsksBackend s l request) (hs : s.hungUp = false)
    (hnever : .hungUp ∉ (e.played s).events) :
    ((e.requested s l).hungUp || (e.answered s l request).hungUp) = false ∧
      (e.received s l request).taken.hungUp = false := by
  have hentered : (e.entered s).hungUp = false :=
    there_of_iff (hungUp_entered_iff s) hs fun hev => hnever (mem_played_of_mem_entered hev)
  have hstreamed : .hungUp ∉ (e.streamed s l).events := fun hev =>
    hnever (mem_played_of_mem_streamed h.entered hev)
  obtain ⟨-, -, hevents⟩ := streamed_of_requested h.requested
  rw [hevents] at hstreamed
  simp only [List.mem_append, List.mem_cons, not_or] at hstreamed
  obtain ⟨hbefore, -, hanswer, htaken, -⟩ := hstreamed
  have hrequested : (e.requested s l).hungUp = false :=
    there_of_iff (hungUp_requested_iff s l) hentered hbefore
  have hanswered : (e.answered s l request).hungUp = false := by
    refine Bool.eq_false_iff.2 fun hgone => hanswer ?_
    rw [hgone]
    exact List.mem_singleton.2 rfl
  have hstart : ((e.requested s l).hungUp || (e.answered s l request).hungUp) = false := by
    rw [hrequested, hanswered]
    rfl
  exact ⟨hstart, there_of_iff (hungUp_received_iff s l request) hstart htaken⟩

/-- The last hook of a call is asked after its stream. -/
theorem finalReply_eq {s : Summons σ} {l : Leg σ} {ended : StreamEnd}
    (hl : (e.entered s).value = .ok l) (hended : (e.streamed s l).value = .ok ended) :
    e.finalReply s =
      ((lastReply l ended).run (e.streamed s l).world (e.streamed s l).hungUp).value := by
  have hrun := Flow.run_bind_of_ok (f := e.stream l) hended (lastReply l)
  unfold finalReply
  rw [Flow.run_bind_of_ok hl]
  exact (congrArg Outcome.value hrun :)

/-- After a call of the backend has returned, the backend is not called in the same leg. -/
theorem not_ofBackend_of_mem_returned {s : Summons σ} {l : Leg σ} {request : List Value}
    {ev : Event} (hev : ev ∈ (e.returned s l request).events) : ¬ev.OfBackend := by
  rcases returned_cases (e := e) s l request with
    ⟨-, -, hnil⟩ | ⟨-, ⟨x, -, -, -, hnil⟩ | ⟨-, -, hframes⟩⟩
  · rw [hnil] at hev
    exact absurd hev List.not_mem_nil
  · rw [hnil] at hev
    exact absurd hev List.not_mem_nil
  · rw [hframes] at hev
    obtain ⟨f, -, rfl⟩ := List.mem_map.1 hev
    exact nofun

/-- A leg is concluded with hooks, saves and frames. -/
theorem obeys_conclude_of {p : Event → Prop} (hhook : ∀ stage input, p (.hook stage input))
    (hsave : ∀ session chat records metadata, p (.save session chat records metadata))
    (hframe : ∀ f, p (.frame f)) (hhungUp : p .hungUp) (l : Leg σ) (s : StreamEnd) :
    (e.conclude l s).Obeys p e.MayFail := by
  have hsend (message : String) : (endWithError message : Flow σ _).Obeys p e.MayFail :=
    (Flow.obeys_send (hframe _)).bind fun _ => Flow.obeys_pure _
  cases s with
  | failed raw t =>
    refine .bind ?_ fun message => (hsend message).bind fun _ => Flow.obeys_pure _
    unfold errorText
    refine .bind (obeys_consult (e := e) _ _ _ (hhook _) hhungUp).attempt fun reply => ?_
    split <;> exact Flow.obeys_pure _
  | unread pending => exact (hsend _).bind fun _ => Flow.obeys_pure _
  | done t asides =>
    show (e.complete l t asides).Obeys p e.MayFail
    rw [complete_eq]
    refine .bind (obeys_consult (e := e) _ _ _ (hhook _) hhungUp).attempt fun reply => ?_
    refine .bind ?_ fun _ => ?_
    · split
      · exact Flow.obeys_pure _
      · unfold keep
        split
        · split
          · exact Flow.obeys_pure _
          · refine .bind (Flow.obeys_tell (hsave _ _ _ _) nofun) fun _ => ?_
            exact (Flow.obeys_call _ hhungUp).bind fun _ => Flow.obeys_pure _
        · exact Flow.obeys_pure _
    · cases reply with
      | error x => exact (hsend _).bind fun _ => Flow.obeys_pure _
      | ok r =>
        unfold answer follow
        dsimp only
        split
        · exact Flow.obeys_pure _
        · exact Flow.obeys_pure _
        · exact (Flow.obeys_send (hframe _)).bind fun _ => Flow.obeys_pure _

/-- A leg is handed on with a read of the history and a frame. -/
theorem obeys_handOn_of {p : Event → Prop} (hprepares : ∀ ev, ev.Prepares → p ev)
    (hframe : ∀ f, p (.frame f)) (l : Leg σ) (k : Continuation) :
    (e.handOn l k).Obeys p e.MayFail := by
  cases k with
  | ended r => exact Flow.obeys_pure _
  | handedOn h =>
    have hresolve :=
      mayFail_of_ne_canceled (e := e) (e.assistants.resolve_ne_canceled h.assistantId)
    have hmessage := mayFail_of_ne_canceled (e := e) h.input.toMessage_ne_canceled
    refine .bind ?_ fun _ => Flow.obeys_pure _
    unfold accept
    refine .bind (Flow.obeys_ofResult hresolve) fun next => ?_
    refine .bind (Flow.obeys_ofResult hmessage) fun input => ?_
    refine .bind ((obeys_conversation _ _ _).mono hprepares) fun messages => ?_
    exact .bind (Flow.obeys_send (hframe _)) fun _ => Flow.obeys_pure _

/-- The backend is not called when a leg is concluded. -/
theorem not_ofBackend_of_mem_concluded {s : Summons σ} {l : Leg σ} {ended : StreamEnd} {ev : Event}
    (hev : ev ∈ (e.concluded s l ended).events) : ¬ev.OfBackend := by
  have hobeys : (e.conclude l ended).Obeys (¬Event.OfBackend ·) e.MayFail :=
    obeys_conclude_of (fun _ _ => nofun) (fun _ _ _ _ => nofun) (fun _ => nofun) nofun l ended
  exact hobeys.event _ _ ev hev

/-- Nor is it when the leg is handed on. -/
theorem not_ofBackend_of_mem_handed {s : Summons σ} {l : Leg σ} {ended : StreamEnd}
    {k : Continuation} {ev : Event} (hev : ev ∈ (e.handed s l ended k).events) : ¬ev.OfBackend := by
  have hobeys : (e.handOn l k).Obeys (¬Event.OfBackend ·) e.MayFail :=
    obeys_handOn_of (fun ev h => h.not_ofBackend) (fun _ => nofun) l k
  exact hobeys.event _ _ ev hev

/-! ### One call after another -/

variable (e) in
/-- A call hands on to another, which is made in the world after it. -/
structure HandsOnTo (s t : Summons σ) : Prop where
  value : (e.played s).value = .ok (.inr t.brief)
  world : t.world = (e.played s).world
  hungUp : t.hungUp = (e.played s).hungUp
  levels : s.levels = t.levels + 1

/-- The course of a run from a call: the calls that are made in it, and what it comes to. -/
inductive Course (e : Engine σ) : Summons σ → List (Summons σ) → Outcome σ TurnResult → Prop
  | failed {s : Summons σ} {x : Failure} (h : (e.played s).value = .error x) :
    Course e s [s] ((e.played s).failing x)
  | ended {s : Summons σ} {r : TurnResult} (h : (e.played s).value = .ok (.inl r)) :
    Course e s [s] ((e.played s).before ⟨.ok r, [], (e.played s).world, (e.played s).hungUp⟩)
  | handedOn {s t : Summons σ} {calls : List (Summons σ)} {o : Outcome σ TurnResult}
    (h : e.HandsOnTo s t) (rest : Course e t calls o) :
    Course e s (s :: calls) ((e.played s).before o)

/-- A run takes its course through its calls. -/
theorem course_serve (levels : Nat) (b : Brief σ) (w : σ) (h : Bool) :
    e.Course ⟨levels, b, w, h⟩ (e.calls levels b w h) ((e.serve levels b).run w h) := by
  induction levels generalizing b w h with
  | zero =>
    rw [serve_zero]
    have hvalue : (e.played ⟨0, b, w, h⟩).value = .error (.delegationTooDeep e.settings.maxDepth) :=
      rfl
    exact .failed hvalue
  | succ levels ih =>
    rw [serve_succ, Flow.run_bind]
    unfold calls
    cases hplay : (e.play (levels + 1) b).run w h with
    | mk value events w' h' =>
      have hplayed : e.played ⟨levels + 1, b, w, h⟩ = ⟨value, events, w', h'⟩ := hplay
      cases value with
      | error x =>
        have hcourse :=
          Course.failed (e := e) (s := ⟨levels + 1, b, w, h⟩) (x := x) (by rw [hplayed])
        rw [hplayed] at hcourse
        exact hcourse
      | ok after =>
        cases after with
        | inl r =>
          have hcourse := Course.ended (e := e) (s := ⟨levels + 1, b, w, h⟩) (r := r)
            (by rw [hplayed])
          rw [hplayed] at hcourse
          exact hcourse
        | inr next =>
          have hhands : e.HandsOnTo ⟨levels + 1, b, w, h⟩ ⟨levels, next, w', h'⟩ := by
            constructor <;> simp only [hplayed]
          have hcourse := Course.handedOn hhands (ih next w' h')
          rw [hplayed] at hcourse
          exact hcourse

namespace Course

variable {s : Summons σ} {calls : List (Summons σ)} {o : Outcome σ TurnResult}

/-- What happens in a run happens in its calls, one after another. -/
theorem events_eq (h : e.Course s calls o) :
    o.events = calls.flatMap fun s => (e.played s).events := by
  induction h with
  | failed h => simp
  | ended h => simp
  | handedOn h rest ih => simp [ih]

/-- The first call of a run is the one from which it begins. -/
theorem exists_eq_cons (h : e.Course s calls o) : ∃ rest, calls = s :: rest := by
  cases h with
  | failed h => exact ⟨_, rfl⟩
  | ended h => exact ⟨_, rfl⟩
  | handedOn h rest => exact ⟨_, rfl⟩

/-- Every call of a run but the first is one to which another hands on. -/
theorem exists_handsOnTo (h : e.Course s calls o) : ∀ t ∈ calls.tail, ∃ s, e.HandsOnTo s t := by
  induction h with
  | failed h => exact fun t ht => absurd ht List.not_mem_nil
  | ended h => exact fun t ht => absurd ht List.not_mem_nil
  | @handedOn s t calls o h rest ih =>
    intro u hu
    obtain ⟨later, rfl⟩ := rest.exists_eq_cons
    rcases List.mem_cons.1 hu with rfl | hu
    · exact ⟨s, h⟩
    · exact ih u hu

/-- What holds of the first call of a run, and of each call to which one hands on of which it holds,
holds of all calls. -/
theorem forall_mem {P : Summons σ → Prop} (h : e.Course s calls o) (hs : P s)
    (hstep : ∀ t ∈ calls, ∀ u, e.HandsOnTo t u → P t → P u) : ∀ t ∈ calls, P t := by
  induction h with
  | failed h =>
    intro t ht
    rw [List.mem_singleton.1 ht]
    exact hs
  | ended h =>
    intro t ht
    rw [List.mem_singleton.1 ht]
    exact hs
  | @handedOn s t calls o h rest ih =>
    have ht : P t := hstep s List.mem_cons_self t h hs
    intro u hu
    rcases List.mem_cons.1 hu with rfl | hu
    · exact hs
    · exact ih ht (fun v hv => hstep v (List.mem_cons_of_mem _ hv)) u hu

/-- From each of its calls a run takes its course, and comes to the same. -/
theorem exists_rest (h : e.Course s calls o) {t : Summons σ} (ht : t ∈ calls) :
    ∃ earlier later o', calls = earlier ++ later ∧ e.Course t later o' ∧ o'.value = o.value := by
  induction h with
  | failed h =>
    rw [List.mem_singleton.1 ht]
    exact ⟨[], _, _, rfl, .failed h, rfl⟩
  | ended h =>
    rw [List.mem_singleton.1 ht]
    exact ⟨[], _, _, rfl, .ended h, rfl⟩
  | @handedOn s u calls o h rest ih =>
    rcases List.mem_cons.1 ht with rfl | ht
    · exact ⟨[], _, _, rfl, .handedOn h rest, rfl⟩
    · obtain ⟨earlier, later, o', rfl, hlater, hvalue⟩ := ih ht
      exact ⟨s :: earlier, later, o', rfl, hlater, hvalue⟩

/-- A call of a run that ends it is its last. -/
theorem eq_last (h : e.Course s calls o) {t : Summons σ} (ht : t ∈ calls) {r : TurnResult}
    (hr : (e.played t).value = .ok (.inl r)) :
    o.value = .ok r ∧ ∃ earlier, calls = earlier ++ [t] := by
  obtain ⟨earlier, later, o', rfl, hlater, hvalue⟩ := h.exists_rest ht
  rw [← hvalue]
  cases hlater with
  | failed hx => exact nomatch hr.symm.trans hx
  | ended hr' =>
    cases hr.symm.trans hr'
    exact ⟨rfl, earlier, rfl⟩
  | handedOn hands _ => exact nomatch hr.symm.trans hands.value

/-- A run in which a call fails fails in the same way. -/
theorem value_of_failed (h : e.Course s calls o) {t : Summons σ} (ht : t ∈ calls) {x : Failure}
    (hx : (e.played t).value = .error x) : o.value = .error x := by
  obtain ⟨earlier, later, o', -, hlater, hvalue⟩ := h.exists_rest ht
  rw [← hvalue]
  cases hlater with
  | failed hx' =>
    cases hx.symm.trans hx'
    rfl
  | ended hr => exact nomatch hx.symm.trans hr
  | handedOn hands _ => exact nomatch hx.symm.trans hands.value

end Course

end Engine

end ChatRelay
