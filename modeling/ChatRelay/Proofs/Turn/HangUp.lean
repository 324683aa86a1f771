import ChatRelay.Proofs.Turn.Delegation
import ChatRelay.Proofs.Turn.Keeping

/-!
# Turns whose client hangs up

The client may hang up during any call of a collaborator. The caller of the turn returns at once,
and the task of the turn winds down. `Event.late` are the events from then on. A leg that has not
come to its conclusion does not come to it any more: it may still be prepared, and the backend may
still be asked, but the first frame stops it (`late_streamed`). Nor does it if the reply was at its
end, as long as the backend had not returned (`returned_of_hangUpOnceStopped`). A leg that is being
concluded is concluded, with its last frame (`late_concluded`). No later leg begins
(`Course.of_hungUp`).

So of a run in which the client hangs up only the call in which it does so goes on, and that call
winds down (`Engine.WindsDown`).
-/

namespace ChatRelay

open Json (Value Object)

namespace Event

/-! ### Events after the client has hung up -/

/-- The events after the client has hung up for the first time. -/
def sinceHangUp : List Event → List Event
  | [] => []
  | .hungUp :: rest => rest
  | _ :: rest => sinceHangUp rest

/-- The events at which the client is gone, which it may be from the beginning. -/
def late (gone : Bool) (events : List Event) : List Event :=
  if gone then events else sinceHangUp events

@[simp] theorem late_true (events : List Event) : late true events = events := rfl

/-- What is late is the end of what happens. -/
theorem late_suffix (gone : Bool) (events : List Event) : late gone events <:+ events := by
  have hsince : sinceHangUp events <:+ events := by
    fun_induction sinceHangUp events with
    | case1 => exact List.suffix_rfl
    | case2 rest => exact List.suffix_cons _ _
    | case3 ev rest _ ih => exact ih.trans (List.suffix_cons _ _)
  cases gone with
  | true => exact List.suffix_rfl
  | false => exact hsince

/-- While the client is there, nothing is late. -/
theorem late_append_of_not_mem {a : List Event} (h : .hungUp ∉ a) (b : List Event) :
    late false (a ++ b) = late false b := by
  show sinceHangUp (a ++ b) = sinceHangUp b
  induction a with
  | nil => rfl
  | cons ev rest ih =>
    obtain ⟨hev, hrest⟩ := not_or.1 (mt List.mem_cons.2 h)
    cases ev with
    | hungUp => exact absurd rfl hev
    | _ => exact ih hrest

/-- Without the client's hanging up nothing is late. -/
theorem late_eq_nil {events : List Event} (h : .hungUp ∉ events) : late false events = [] := by
  have happend := late_append_of_not_mem h []
  rwa [List.append_nil] at happend

/-- If the client first hangs up between some events, those after that are late. -/
theorem late_of_split {before : List Event} (h : .hungUp ∉ before) (after : List Event) :
    late false (before ++ .hungUp :: after) = after :=
  late_append_of_not_mem h _

/-- What is late among events and then others. -/
theorem late_append {gone gone' : Bool} {a : List Event}
    (h : gone' = true ↔ gone = true ∨ .hungUp ∈ a) (b : List Event) :
    late gone (a ++ b) = late gone a ++ late gone' b := by
  cases gone with
  | true =>
    rw [h.2 (.inl rfl)]
    rfl
  | false =>
    by_cases hmem : .hungUp ∈ a
    · obtain ⟨before, after, rfl, hbefore⟩ := List.eq_append_cons_of_mem hmem
      rw [h.2 (.inr hmem), late_of_split hbefore, List.append_assoc, List.cons_append,
        late_of_split hbefore]
      rfl
    · rw [Engine.there_of_iff h rfl hmem, late_eq_nil hmem, List.nil_append,
        late_append_of_not_mem hmem]

/-- Events between which the client does not hang up are over when it does. -/
theorem prefix_of_split {a b before after : List Event} (h : a ++ b = before ++ .hungUp :: after)
    (ha : .hungUp ∉ a) : a <+: before := by
  rcases List.append_eq_append_iff.1 h with ⟨c, hc, -⟩ | ⟨c, hc, hafter⟩
  · exact ⟨c, hc.symm⟩
  · cases c with
    | nil => exact ⟨[], by simpa using hc⟩
    | cons ev c =>
      cases hafter
      rw [hc] at ha
      exact absurd (List.mem_append_right _ List.mem_cons_self) ha

/-! ### Deliveries -/

/-- What a backend has delivered, and whether it was stopped, when it returns. -/
def delivery? : Event → Option (Nat × Bool)
  | delivered count stopped => some (count, stopped)
  | _ => none

/-- What backends have delivered among events. -/
def deliveries (events : List Event) : List (Nat × Bool) :=
  events.filterMap delivery?

@[simp] theorem deliveries_append (a b : List Event) :
    deliveries (a ++ b) = deliveries a ++ deliveries b :=
  List.filterMap_append

/-- What only prepares a request is neither a frame nor a request nor a delivery, and keeps nothing.
-/
theorem quiet_of_prepares {events : List Event} (h : ∀ ev ∈ events, ev.Prepares) :
    frames events = [] ∧ requests events = [] ∧ deliveries events = [] ∧ kept events = [] := by
  refine ⟨frames_eq_nil fun ev hev => (h ev hev).frame?_eq_none,
    requests_eq_nil fun ev hev => (h ev hev).not_ofBackend, ?_,
    kept_eq_nil fun ev hev => (h ev hev).not_completes⟩
  refine List.filterMap_eq_nil_iff.2 fun ev hev => ?_
  cases h ev hev <;> rfl

end Event

namespace Flow

variable {σ α β : Type}

/-! ### Flows whose frames come last -/

/-- A flow sends its frames, if any, after all else that happens in it. -/
def FramesLast (f : Flow σ α) : Prop :=
  ∀ w h, ∃ (quiet : List Event) (fs : List Frame),
    (f.run w h).events = quiet ++ fs.map .frame ∧ ∀ ev ∈ quiet, ev.frame? = none

/-- A value is known without any frame. -/
theorem framesLast_pure (a : α) : (pure a : Flow σ α).FramesLast := by
  intro w h
  exact ⟨[], [], rfl, fun ev hev => absurd hev List.not_mem_nil⟩

/-- A frame is sent. -/
theorem framesLast_send (f : Frame) : (send f : Flow σ Unit).FramesLast := by
  intro w h
  exact ⟨[], [f], rfl, fun ev hev => absurd hev List.not_mem_nil⟩

/-- What is made of the value of a flow changes nothing in it. -/
theorem FramesLast.map {f : Flow σ α} (hf : f.FramesLast) (g : α → β) :
    (f >>= fun a => pure (g a)).FramesLast := by
  intro w h
  obtain ⟨quiet, fs, hevents, hquiet⟩ := hf w h
  refine ⟨quiet, fs, ?_, hquiet⟩
  rw [← hevents]
  cases hv : (f.run w h).value with
  | error x => rw [run_bind_of_error hv]
  | ok a =>
    rw [run_bind_of_ok hv]
    exact List.append_nil _

/-- Frames that come last still do after a flow that sends none. -/
theorem FramesLast.after {p : Event → Prop} {q : Failure → Prop} {f : Flow σ α}
    {next : α → Flow σ β} (hf : f.Obeys p q) (hp : ∀ ev, p ev → ev.frame? = none)
    (hnext : ∀ a, (next a).FramesLast) : (f >>= next).FramesLast := by
  intro w h
  have hbefore : ∀ ev ∈ (f.run w h).events, ev.frame? = none := fun ev hev =>
    hp ev (hf.event w h ev hev)
  cases hv : (f.run w h).value with
  | error x =>
    rw [run_bind_of_error hv]
    exact ⟨_, [], (List.append_nil _).symm, hbefore⟩
  | ok a =>
    rw [run_bind_of_ok hv]
    obtain ⟨quiet, fs, hevents, hquiet⟩ := hnext a (f.run w h).world (f.run w h).hungUp
    refine ⟨(f.run w h).events ++ quiet, fs, ?_, fun ev hev => ?_⟩
    · dsimp only
      rw [hevents, List.append_assoc]
    · rcases List.mem_append.1 hev with hev | hev
      · exact hbefore ev hev
      · exact hquiet ev hev

end Flow

namespace Engine

variable {σ : Type} {e : Engine σ}

/-! ### The stream of a leg -/

/-- After the client has hung up no frame that is delivered is sent. -/
theorem late_delivered (who : Identity) (h : Bool) (r : BackendReply) :
    ∀ ev ∈ Event.late h (delivered who h r).taken.events, ev = .hungUp := by
  have hkeeps : ((delivered who h r).taken.hungUp = true ↔
        h = true ∨ .hungUp ∈ (delivered who h r).taken.events) ∧
      ∀ ev ∈ Event.late h (delivered who h r).taken.events, ev = .hungUp := by
    refine BackendReply.deliver_preserves
      (P := fun s : Streaming => (s.hungUp = true ↔ h = true ∨ .hungUp ∈ s.events) ∧
        ∀ ev ∈ Event.late h s.events, ev = .hungUp) ?_ ?_ r ?_
    · intro s bytes ⟨hiff, hlate⟩
      unfold Streaming.take
      split
      · exact ⟨hiff, hlate⟩
      · next hthere =>
        dsimp only
        have hnever : .hungUp ∉ (s.reply.takeFrame bytes).frames.map Event.frame := by simp
        refine ⟨?_, ?_⟩
        · simp [hiff]
        · rw [Event.late_append hiff, Bool.eq_false_iff.2 hthere, Event.late_eq_nil hnever,
            List.append_nil]
          exact hlate
    · intro s ⟨hiff, hlate⟩
      refine ⟨by simp [Streaming.hangUp], ?_⟩
      show ∀ ev ∈ Event.late h (s.events ++ [.hungUp]), ev = .hungUp
      intro ev hev
      rw [Event.late_append hiff] at hev
      rcases List.mem_append.1 hev with hev | hev
      · exact hlate ev hev
      · exact List.mem_singleton.1 ((Event.late_suffix _ _).mem hev)
    · refine ⟨by simp [Streaming.start], fun ev hev => ?_⟩
      exact absurd ((Event.late_suffix _ _).mem hev) List.not_mem_nil
  exact hkeeps.2

/-- When the backend has returned, the client is gone if it was while frames were delivered. -/
theorem hungUp_returned (s : Summons σ) (l : Leg σ) (request : List Value) :
    (e.returned s l request).hungUp = (e.received s l request).taken.hungUp := by
  unfold returned afterDelivery
  rw [Flow.run_hasHungUp_bind]
  cases hgone : (e.received s l request).taken.hungUp with
  | true => rfl
  | false =>
    rw [if_neg Bool.false_ne_true]
    split
    · rfl
    · rw [run_closeStream]

/-- If the client is gone when the backend has returned, the stream is canceled and nothing follows.
-/
theorem returned_of_hungUp {s : Summons σ} {l : Leg σ} {request : List Value}
    (hgone : (e.received s l request).taken.hungUp = true) :
    (e.returned s l request).value = .error .canceled ∧ (e.returned s l request).events = [] := by
  rcases returned_cases (e := e) s l request with ⟨-, herror, hnil⟩ | ⟨hthere, -⟩
  · exact ⟨herror, hnil⟩
  · exact nomatch hgone.symm.trans hthere

/-- A reply is dropped, though it is at its end, if the client hangs up after the backend was told
to stop and before it returns. -/
theorem returned_of_hangUpOnceStopped {s : Summons σ} {l : Leg σ} {request : List Value}
    (hleaves : (e.answered s l request).value.hangUpOnceStopped = true)
    (hstopped : (e.received s l request).stopped = true) :
    (e.returned s l request).value = .error .canceled ∧ (e.returned s l request).events = [] := by
  refine returned_of_hungUp ?_
  unfold received at hstopped ⊢
  rcases delivered_cases l.assistant.identity
      ((e.requested s l).hungUp || (e.answered s l request).hungUp)
      (e.answered s l request).value with ⟨hstays, heq⟩ | ⟨-, -, heq⟩
  · rw [heq] at hstopped
    exact nomatch hleaves.symm.trans (hstays hstopped)
  · rw [heq]
    rfl

/-- The late part of a stream with a request, of a client that is gone when the backend has
returned. The request is part of it if the client was gone before. Else there is what prepares the
request, and hanging up, and at the end what the backend has delivered. -/
theorem exists_late_streamed {s : Summons σ} {l : Leg σ} {request : List Value}
    (hrequest : (e.requested s l).value = .ok request)
    (hgone : (e.received s l request).taken.hungUp = true) :
    ∃ before during,
      Event.late (e.entered s).hungUp (e.streamed s l).events =
        before ++ (Event.late (e.requested s l).hungUp [.request request l.options] ++
          (during ++
            [.delivered (e.received s l request).count (e.received s l request).stopped])) ∧
      (∀ ev ∈ before, ev.Prepares) ∧ ∀ ev ∈ during, ev.Prepares := by
  obtain ⟨-, -, hevents⟩ := streamed_of_requested hrequest
  obtain ⟨-, hnil⟩ := returned_of_hungUp hgone
  have hasked : (e.requested s l).hungUp = true ↔
      (e.requested s l).hungUp = true ∨ .hungUp ∈ [Event.request request l.options] := by
    simp
  have hanswered : ((e.requested s l).hungUp || (e.answered s l request).hungUp) = true ↔
      (e.requested s l).hungUp = true ∨
        .hungUp ∈ if (e.answered s l request).hungUp then [Event.hungUp] else [] := by
    cases (e.answered s l request).hungUp <;> simp
  refine ⟨Event.late (e.entered s).hungUp (e.requested s l).events,
    Event.late (e.requested s l).hungUp
        (if (e.answered s l request).hungUp then [.hungUp] else []) ++
      Event.late ((e.requested s l).hungUp || (e.answered s l request).hungUp)
        (e.received s l request).taken.events, ?_, fun ev hev => ?_, fun ev hev => ?_⟩
  · rw [hevents, hnil, Event.late_append (hungUp_requested_iff s l), ← List.singleton_append,
      Event.late_append hasked, Event.late_append hanswered,
      Event.late_append (hungUp_received_iff s l request), hgone, List.append_assoc]
    rfl
  · exact prepares_requested s l ev ((Event.late_suffix _ _).mem hev)
  · rcases List.mem_append.1 hev with hev | hev
    · have hmem := (Event.late_suffix _ _).mem hev
      split at hmem
      · rw [List.mem_singleton.1 hmem]
        exact .hungUp
      · exact absurd hmem List.not_mem_nil
    · rw [late_delivered _ _ _ ev hev]
      exact .hungUp

/-- The late part of a stream of a client that hangs up: what still prepares the request, perhaps
the request, and what the backend still delivers, of which the first frame stops it if the client
was gone before the request. The stream fails then. -/
theorem late_streamed {s : Summons σ} {l : Leg σ} (hgone : (e.streamed s l).hungUp = true) :
    (∃ x, (e.streamed s l).value = .error x) ∧
      Event.frames (Event.late (e.entered s).hungUp (e.streamed s l).events) = [] ∧
      Event.kept (Event.late (e.entered s).hungUp (e.streamed s l).events) = [] ∧
      (Event.requests (Event.late (e.entered s).hungUp (e.streamed s l).events) = [] ∨
        ∃ r d, Event.requests (Event.late (e.entered s).hungUp (e.streamed s l).events) = [r] ∧
          Event.deliveries (Event.late (e.entered s).hungUp (e.streamed s l).events) = [d] ∧
          (d = (0, false) ∨ d = (1, true))) := by
  rcases streamed_cases (e := e) s l with ⟨x, -, hstream⟩ | ⟨request, hrequest⟩
  · have hquiet : ∀ ev ∈ Event.late (e.entered s).hungUp (e.streamed s l).events, ev.Prepares := by
      intro ev hev
      rw [hstream] at hev
      exact prepares_requested s l ev ((Event.late_suffix _ _).mem hev)
    obtain ⟨hframes, hrequests, -, hkept⟩ := Event.quiet_of_prepares hquiet
    refine ⟨⟨x, ?_⟩, hframes, hkept, .inl hrequests⟩
    rw [hstream]
    rfl
  · obtain ⟨hvalue, hhungUp, -⟩ := streamed_of_requested hrequest
    have htaken : (e.received s l request).taken.hungUp = true := by
      rw [← hungUp_returned, ← hhungUp]
      exact hgone
    obtain ⟨herror, -⟩ := returned_of_hungUp htaken
    obtain ⟨before, during, hlate, hbefore, hduring⟩ := exists_late_streamed hrequest htaken
    obtain ⟨hf₁, hr₁, hd₁, hk₁⟩ := Event.quiet_of_prepares hbefore
    obtain ⟨hf₂, hr₂, hd₂, hk₂⟩ := Event.quiet_of_prepares hduring
    rw [hvalue, herror, hlate]
    simp only [Event.frames_append, Event.kept_append, Event.requests_append,
      Event.deliveries_append, hf₁, hf₂, hr₁, hr₂, hd₁, hd₂, hk₁, hk₂, List.nil_append]
    -- The request is late only if the client was gone before it; it is then still made, and stopped
    -- at its first frame.
    cases hfirst : (e.requested s l).hungUp with
    | true =>
      refine ⟨⟨_, rfl⟩, rfl, rfl, .inr ⟨_, _, rfl, rfl, ?_⟩⟩
      obtain ⟨-, hstops⟩ :=
        delivered_of_hungUp l.assistant.identity (e.answered s l request).value
      have hsame : e.received s l request =
          delivered l.assistant.identity true (e.answered s l request).value := by
        unfold received
        rw [hfirst]
        rfl
      rw [hsame]
      simpa using hstops
    | false => exact ⟨⟨_, rfl⟩, rfl, rfl, .inl rfl⟩

/-! ### The conclusion of a leg -/

/-- An error is told last. -/
theorem framesLast_endWithError (message : String) :
    (endWithError message : Flow σ TurnResult).FramesLast :=
  (Flow.framesLast_send _).map _

/-- What the last hook asks for is told last. -/
theorem framesLast_answer (reply : Result (Option HookReply)) :
    (answer reply : Flow σ Continuation).FramesLast := by
  cases reply with
  | error x => exact (framesLast_endWithError _).map _
  | ok r =>
    unfold answer follow
    dsimp only
    split
    · exact Flow.framesLast_pure _
    · exact Flow.framesLast_pure _
    · exact (Flow.framesLast_send _).map _

/-- The conclusion of a leg is told last. -/
theorem framesLast_conclude (l : Leg σ) (ended : StreamEnd) : (e.conclude l ended).FramesLast := by
  cases ended with
  | failed raw t =>
    refine Flow.FramesLast.after (obeys_errorText (e := e) l raw t) (fun ev h => h.1)
      fun message => ?_
    exact (framesLast_endWithError message).map _
  | unread pending => exact (framesLast_endWithError _).map _
  | done t asides =>
    show (e.complete l t asides).FramesLast
    rw [complete_eq]
    refine Flow.FramesLast.after (obeys_lastReply (e := e) l (.done t asides)).attempt
      (q := e.MayFail) (fun ev h => h) fun reply => ?_
    refine Flow.FramesLast.after (p := (·.frame? = none)) (q := e.MayFail) ?_ (fun ev h => h)
      fun _ => framesLast_answer reply
    split
    · exact Flow.obeys_pure _
    · exact obeys_keep l t

/-- The notice of a hand-off is sent last. -/
theorem framesLast_handOn (l : Leg σ) (k : Continuation) : (e.handOn l k).FramesLast := by
  cases k with
  | ended r => exact Flow.framesLast_pure _
  | handedOn handOff =>
    refine Flow.FramesLast.map ?_ _
    unfold accept
    have hresolve := mayFail_of_ne_canceled (e := e)
      (e.assistants.resolve_ne_canceled handOff.assistantId)
    have hmessage := mayFail_of_ne_canceled (e := e) handOff.input.toMessage_ne_canceled
    have hprepares (ev : Event) (h : ev.Prepares) : ev.frame? = none := h.frame?_eq_none
    refine .after (Flow.obeys_ofResult hresolve) hprepares fun next => ?_
    refine .after (Flow.obeys_ofResult hmessage) hprepares fun input => ?_
    refine .after (obeys_conversation (e := e) _ _ _) hprepares fun messages => ?_
    exact (Flow.framesLast_send _).map _

/-- From its conclusion on, a call sends its frames last, and they are those that it ends with. -/
theorem exists_concluded_frames {s : Summons σ} {l : Leg σ} {ended : StreamEnd} {k : Continuation}
    (hl : (e.entered s).value = .ok l) (hended : (e.streamed s l).value = .ok ended)
    (hk : (e.concluded s l ended).value = .ok k) :
    ∃ (quiet : List Event) (fs : List Frame),
      (e.concluded s l ended).events ++ (e.handed s l ended k).events = quiet ++ fs.map .frame ∧
      (∀ ev ∈ quiet, ev.frame? = none) ∧
      Sends (AsksToExit (e.finalReply s)) fs (e.handed s l ended k).value := by
  obtain ⟨k', hk', htells⟩ := tells_conclude (e := e) l ended (e.streamed s l).world
    (e.streamed s l).hungUp
  cases hk'.symm.trans hk
  rw [← finalReply_eq hl hended] at htells
  have hsends := sends_handOn (e := e) l htells (e.concluded s l ended).world
    (e.concluded s l ended).hungUp
  have hframes (quiet : List Event) (fs : List Frame) (hquiet : ∀ ev ∈ quiet, ev.frame? = none) :
      Event.frames (quiet ++ fs.map .frame) = fs := by
    rw [Event.frames_append, Event.frames_eq_nil hquiet, Event.frames_map_frame, List.nil_append]
  -- The frames come from the conclusion if the leg ends there, and else from the handing on.
  cases k with
  | ended r =>
    obtain ⟨quiet, fs, hevents, hquiet⟩ := framesLast_conclude (e := e) l ended
      (e.streamed s l).world (e.streamed s l).hungUp
    refine ⟨quiet, fs, (List.append_nil _).trans hevents, hquiet, ?_⟩
    rw [hevents, hframes quiet fs hquiet] at hsends
    have htold : Sends (AsksToExit (e.finalReply s)) (fs ++ [])
      (e.handed s l ended (.ended r)).value := hsends
    rwa [List.append_nil] at htold
  | handedOn handOff =>
    obtain ⟨quiet, fs, hevents, hquiet⟩ := framesLast_handOn (e := e) l (.handedOn handOff)
      (e.concluded s l ended).world (e.concluded s l ended).hungUp
    have hnone : ∀ ev ∈ (e.concluded s l ended).events, ev.frame? = none :=
      List.filterMap_eq_nil_iff.1 htells
    refine ⟨(e.concluded s l ended).events ++ quiet, fs, ?_, fun ev hev => ?_, ?_⟩
    · rw [List.append_assoc]
      exact congrArg _ hevents
    · rcases List.mem_append.1 hev with hev | hev
      · exact hnone ev hev
      · exact hquiet ev hev
    · rw [hevents, hframes quiet fs hquiet, htells, List.nil_append] at hsends
      exact hsends

/-! ### The rest of a call -/

variable (e) in
/-- How a call winds down after the client has hung up in it, by what happened in it before and what
happens after. At most one frame is sent, which ends the turn or is the notice of a hand-off. At
most one request is made, which is stopped at its first frame. Records are kept only if the backend
had returned. The call has no result unless it tells of that result or is asked to exit. -/
structure WindsDown (s : Summons σ) (before after : List Event) : Prop where
  frames : (Event.frames after).length ≤ 1
  frame : ∀ f ∈ Event.frames after, f.done = true ∨ ∃ a : Assistant σ, f = a.notice
  requests : Event.requests after = [] ∨
    ∃ r d, Event.requests after = [r] ∧ Event.deliveries after = [d] ∧
      (d = (0, false) ∨ d = (1, true))
  kept : Event.kept after ≠ [] → Event.deliveries before ≠ []
  result : ∀ r, (e.played s).value = .ok (.inl r) →
    (∃ f ∈ Event.frames after, f.done = true) ∨
      (r = .completed ∧ AsksToExit (e.finalReply s))

/-- A call that fails before it comes to its conclusion. -/
theorem windsDown_of_error {s : Summons σ} {before after : List Event} {x : Failure}
    (hx : (e.played s).value = .error x) (hframes : Event.frames after = [])
    (hkept : Event.kept after = [])
    (hrequests : Event.requests after = [] ∨
      ∃ r d, Event.requests after = [r] ∧ Event.deliveries after = [d] ∧
        (d = (0, false) ∨ d = (1, true))) : e.WindsDown s before after where
  frames := by
    rw [hframes]
    exact Nat.zero_le 1
  frame := by
    rw [hframes]
    exact fun f hf => absurd hf List.not_mem_nil
  requests := hrequests
  kept h := absurd hkept h
  result r hr := by
    rw [hx] at hr
    exact nomatch hr

/-- After its stream a leg sends one frame at most, which ends the turn or is the notice of a
hand-off. -/
theorem frame_of_sends {exits : Prop} {fs : List Frame} {v : Result (TurnResult ⊕ Brief σ)}
    (h : Sends exits fs v) :
    fs.length ≤ 1 ∧ ∀ f ∈ fs, f.done = true ∨ ∃ a : Assistant σ, f = a.notice := by
  cases v with
  | error x =>
    cases h
    exact ⟨Nat.zero_le 1, fun f hf => absurd hf List.not_mem_nil⟩
  | ok after =>
    cases after with
    | inl r =>
      obtain ⟨last, rfl, hclosing⟩ := h
      refine ⟨?_, fun f hf => .inl (hclosing.done f (by simpa using hf))⟩
      cases last <;> simp
    | inr next =>
      cases h
      exact ⟨Nat.le_refl 1, fun f hf => .inr ⟨next.assistant, List.mem_singleton.1 hf⟩⟩

/-- A stream that comes to an end has had a delivery. -/
theorem deliveries_streamed_ne_nil {s : Summons σ} {l : Leg σ} {ended : StreamEnd}
    (hended : (e.streamed s l).value = .ok ended) :
    Event.deliveries (e.streamed s l).events ≠ [] := by
  rcases streamed_cases (e := e) s l with ⟨x, -, hstream⟩ | ⟨request, hrequest⟩
  · rw [hstream] at hended
    exact nomatch hended
  · obtain ⟨-, -, hevents⟩ := streamed_of_requested hrequest
    have hmem : Event.delivered (e.received s l request).count (e.received s l request).stopped ∈
        (e.streamed s l).events := by
      rw [hevents]
      simp
    exact List.ne_nil_of_mem (List.mem_filterMap.2 ⟨_, hmem, rfl⟩)

/-- A client that is there when a call begins is there, and has not hung up, when the stream of the
call comes to its end. -/
theorem there_of_ended {s : Summons σ} {l : Leg σ} {ended : StreamEnd} (hs : s.hungUp = false)
    (hended : (e.streamed s l).value = .ok ended) :
    .hungUp ∉ (e.entered s).events ++ (e.streamed s l).events := by
  intro hev
  have hentered := hungUp_entered_iff (e := e) s
  rw [hs] at hentered
  have hgone : (e.streamed s l).hungUp = true := by
    rw [hungUp_streamed_iff, hentered]
    rcases List.mem_append.1 hev with hev | hev
    · exact .inl (.inr hev)
    · exact .inr hev
  obtain ⟨⟨x, hx⟩, -⟩ := late_streamed hgone
  exact nomatch hended.symm.trans hx

/-- The late part of a call whose client hangs up from its conclusion on: no request, and all the
frames that the call ends with. -/
theorem late_concluded {s : Summons σ} {l : Leg σ} {ended : StreamEnd} {k : Continuation}
    (hl : (e.entered s).value = .ok l) (hended : (e.streamed s l).value = .ok ended)
    (hk : (e.concluded s l ended).value = .ok k)
    (hmem : .hungUp ∈ (e.concluded s l ended).events ++ (e.handed s l ended k).events) :
    Event.requests (Event.late false
        ((e.concluded s l ended).events ++ (e.handed s l ended k).events)) = [] ∧
      Sends (AsksToExit (e.finalReply s)) (Event.frames (Event.late false
        ((e.concluded s l ended).events ++ (e.handed s l ended k).events)))
        (e.handed s l ended k).value := by
  constructor
  · refine Event.requests_eq_nil fun ev hev => ?_
    rcases List.mem_append.1 ((Event.late_suffix _ _).mem hev) with hev | hev
    · exact not_ofBackend_of_mem_concluded hev
    · exact not_ofBackend_of_mem_handed hev
  · obtain ⟨quiet, fs, hconcluded, hquiet, hsends⟩ := exists_concluded_frames hl hended hk
    rw [hconcluded] at hmem ⊢
    -- The client does not hang up while frames are sent, so it does before them.
    have hhungUp : .hungUp ∈ quiet := by
      rcases List.mem_append.1 hmem with hmem | hmem
      · exact hmem
      · obtain ⟨f, -, hf⟩ := List.mem_map.1 hmem
        exact nomatch hf
    have hiff : true = true ↔ false = true ∨ .hungUp ∈ quiet :=
      ⟨fun _ => .inr hhungUp, fun _ => rfl⟩
    rw [Event.late_append hiff, Event.frames_append, Event.late_true, Event.frames_map_frame,
      Event.frames_eq_nil fun ev hev => hquiet ev ((Event.late_suffix _ _).mem hev)]
    exact hsends

/-- A call that comes to its conclusion. -/
theorem windsDown_of_concluded {s : Summons σ} {before after : List Event} {l : Leg σ}
    {ended : StreamEnd} {k : Continuation} (hs : s.hungUp = false)
    (hl : (e.entered s).value = .ok l) (hended : (e.streamed s l).value = .ok ended)
    (hk : (e.concluded s l ended).value = .ok k)
    (hplayed : e.played s = (e.entered s).before ((e.streamed s l).before
      ((e.concluded s l ended).before (e.handed s l ended k))))
    (hevents : (e.played s).events = before ++ .hungUp :: after) (hbefore : .hungUp ∉ before) :
    e.WindsDown s before after := by
  -- A stream that comes to an end is one that the client has not left: it hangs up after it.
  have hnever := there_of_ended (e := e) hs hended
  have hsplit : (e.entered s).events ++ (e.streamed s l).events ++
      ((e.concluded s l ended).events ++ (e.handed s l ended k).events) =
        before ++ .hungUp :: after := by
    rw [← hevents, hplayed, List.append_assoc]
    rfl
  have hmem : .hungUp ∈ (e.concluded s l ended).events ++ (e.handed s l ended k).events := by
    have hall : .hungUp ∈ before ++ .hungUp :: after := by simp
    rw [← hsplit] at hall
    exact (List.mem_append.1 hall).resolve_left hnever
  have hafter : after = Event.late false
      ((e.concluded s l ended).events ++ (e.handed s l ended k).events) := by
    rw [← Event.late_append_of_not_mem hnever, hsplit, Event.late_of_split hbefore]
  obtain ⟨hrequests, hsends⟩ := late_concluded hl hended hk hmem
  rw [← hafter] at hrequests hsends
  have hvalue : (e.played s).value = (e.handed s l ended k).value := by
    rw [hplayed]
    rfl
  obtain ⟨hlength, hframe⟩ := frame_of_sends hsends
  refine ⟨hlength, hframe, .inl hrequests, fun _ => ?_, fun r hr => ?_⟩
  · obtain ⟨more, hmore⟩ := Event.prefix_of_split hsplit hnever
    have hdelivered := deliveries_streamed_ne_nil hended
    rw [← hmore]
    simp [hdelivered]
  · rw [hvalue] at hr
    rw [hr] at hsends
    obtain ⟨last, hlast, hclosing⟩ := hsends
    rw [hlast]
    cases hclosing with
    | failed message => exact .inl ⟨_, List.mem_singleton.2 rfl, rfl⟩
    | ended => exact .inl ⟨_, List.mem_singleton.2 rfl, rfl⟩
    | output text => exact .inl ⟨_, List.mem_singleton.2 rfl, rfl⟩
    | exit hexit => exact .inr ⟨rfl, hexit⟩

/-- A call in which the client hangs up winds down. -/
theorem windsDown_played {s : Summons σ} (hs : s.hungUp = false) {before after : List Event}
    (hevents : (e.played s).events = before ++ .hungUp :: after) (hbefore : .hungUp ∉ before) :
    e.WindsDown s before after := by
  have hlate : after = Event.late false (e.played s).events := by
    rw [hevents, Event.late_of_split hbefore]
  have hmem : .hungUp ∈ (e.played s).events := by
    rw [hevents]
    simp
  have hentered := hungUp_entered_iff (e := e) s
  rw [hs] at hentered
  have hprepares : ∀ ev ∈ Event.late false (e.entered s).events, ev.Prepares := fun ev hev =>
    prepares_entered s ev ((Event.late_suffix _ _).mem hev)
  obtain ⟨hframes, hrequests, hdeliveries, hkept⟩ := Event.quiet_of_prepares hprepares
  -- The call fails before its stream, or in it, or comes to its conclusion.
  rcases played_cases (e := e) s with
    ⟨x, -, hplayed⟩ | ⟨l, x, hl, hx, hplayed⟩ | ⟨l, ended, k, hl, hended, hk, hplayed⟩
  · rw [hplayed] at hlate
    have hvalue : (e.played s).value = .error x := by
      rw [hplayed]
      rfl
    rw [hlate]
    exact windsDown_of_error hvalue hframes hkept (.inl hrequests)
  · have hvalue : (e.played s).value = .error x := by
      rw [hplayed]
      rfl
    have hgone : (e.streamed s l).hungUp = true := by
      rw [hplayed] at hmem
      rw [hungUp_streamed_iff, hentered]
      rcases List.mem_append.1 hmem with hev | hev
      · exact .inl (.inr hev)
      · exact .inr hev
    obtain ⟨-, hframes', hkept', hrequests'⟩ := late_streamed hgone
    have hafter : after = Event.late false (e.entered s).events ++
        Event.late (e.entered s).hungUp (e.streamed s l).events := by
      rw [hlate, hplayed]
      exact Event.late_append hentered _
    rw [hafter]
    refine windsDown_of_error hvalue ?_ ?_ ?_
    · rw [Event.frames_append, hframes, hframes']
      rfl
    · rw [Event.kept_append, hkept, hkept']
      rfl
    · rw [Event.requests_append, Event.deliveries_append, hrequests, hdeliveries]
      exact hrequests'
  · exact windsDown_of_concluded hs hl hended hk hplayed hevents hbefore

end Engine

end ChatRelay
