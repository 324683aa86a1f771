import ChatRelay.Proofs.Reply.Unread
import ChatRelay.Proofs.Turn.Calls
import ChatRelay.Proofs.Turn.FailedReplies

/-!
# Replies that are left unread

A stream takes the frames that the backend delivers up to the one that ends the reply
(`reply_received`). If the backend is through without fail, the provider has reported no error, and
something is still pending, then that is reported in place of what else would end the turn, also
after the provider ended the reply: the call ends with an error whose text is made of what is
pending, no hook for the end of a reply is called, and nothing is kept (`played_of_unread`).
-/

namespace ChatRelay

open Json (Value Object)

namespace Engine

variable {σ : Type} {e : Engine σ}

/-! ### What a stream takes -/

/-- The reply that a call receives is made of the frames that are counted. -/
theorem reply_received {s : Summons σ} {l : Leg σ} {request : List Value}
    (h : e.AsksBackend s l request) (hs : s.hungUp = false)
    (hnever : .hungUp ∉ (e.played s).events) :
    (e.received s l request).taken.reply =
      ((Reply.start l.assistant.identity .empty).run
        (((e.answered s l request).value.frames.take (e.received s l request).count).map
          .frame)).1 := by
  obtain ⟨hstart, hthere⟩ := h.there hs hnever
  unfold received at hthere ⊢
  rw [hstart] at hthere ⊢
  obtain ⟨n, hn, hreply, hcount⟩ :=
    reply_delivered l.assistant.identity (e.answered s l request).value
  obtain ⟨more, hmore⟩ := (e.answered s l request).value.framesInTime_prefix_frames
  rw [hreply, hcount hthere, ← hmore, List.take_append_of_le_length hn]

/-! ### What a call comes to -/

/-- A call whose backend is through without fail, and whose provider has reported no error, ends
with an error if anything is still pending, and completes nothing. -/
theorem played_of_unread {s : Summons σ} {l : Leg σ} {request : List Value}
    (h : e.AsksBackend s l request) (hs : s.hungUp = false)
    (hnever : .hungUp ∉ (e.played s).events)
    (hthrough : (e.answered s l request).value.ending (e.received s l request).stopped = none)
    (hstep : ∀ raw, (e.received s l request).taken.step ≠ .failed raw)
    (hunread : (e.received s l request).taken.reply.pending ≠ []) :
    (e.played s).value =
        .ok (.inl (.failed (String.ofList
          (Provider.errorTextOfBody (e.received s l request).taken.reply.pending)))) ∧
      ∀ ev ∈ (e.played s).events, ¬ev.Completes := by
  have hstreamed : (e.streamed s l).value =
      .ok (.unread (e.received s l request).taken.reply.pending) := by
    rcases h.streamed_cases (h.there hs hnever).2 with ⟨x, hfails, -⟩ | ⟨-, hvalue⟩
    · exact nomatch hfails.symm.trans hthrough
    · rw [hvalue, streamEndOf_ended]
      cases hend : (e.received s l request).taken.step with
      | failed raw => exact absurd hend (hstep raw)
      | more => exact congrArg _ (if_neg hunread)
      | done => exact congrArg _ (if_neg hunread)
  generalize (e.received s l request).taken.reply.pending = pending at hstreamed ⊢
  have hconcluded : (e.concluded s l (.unread pending)).value =
      .ok (.ended (.failed (String.ofList (Provider.errorTextOfBody pending)))) := rfl
  rw [played_of_ended h.entered hstreamed hconcluded]
  refine ⟨rfl, fun ev hev => ?_⟩
  simp only [Outcome.events_before, List.mem_append] at hev
  rcases hev with hev | hev | hev | hev
  · exact (prepares_entered s ev hev).not_completes
  · exact (obeys_stream (e := e) l).event _ _ ev hev
  · exact (obeys_conclude_of_isError (e := e) l (s := .unread pending) trivial).event _ _ ev hev
  · exact absurd hev List.not_mem_nil

/-! ### What a run comes to -/

/-- The frame with which a run tells of its result is the only one that is done. -/
theorem Course.exists_closing {s : Summons σ} {calls : List (Summons σ)} {o : Outcome σ TurnResult}
    (h : e.Course s calls o) {r : TurnResult} (hr : o.value = .ok r) :
    ∃ exits last, (Event.frames o.events).filter Frame.done = last.toList ∧
      Closing exits r last := by
  obtain ⟨quiet, exits, last, hframes, hquiet, hclosing⟩ := h.exists_last
  rw [hr] at hclosing
  refine ⟨exits, last, ?_, hclosing⟩
  have hbefore : quiet.filter Frame.done = [] := by
    apply List.filter_eq_nil_iff.2
    intro f hf
    rw [(hquiet f hf).1]
    exact Bool.false_ne_true
  have hlast : last.toList.filter Frame.done = last.toList := by
    apply List.filter_eq_self.2
    intro f hf
    exact Closing.done hclosing f (by simpa using hf)
  rw [hframes, List.filter_append, hbefore, hlast, List.nil_append]

/-! ### Turns -/

/-- What becomes of frames that cannot be read. In a reply such a frame sends nothing and changes
nothing but what is pending, which after any frames is the text of those that could not be read
since what was pending could last be joined with a frame. If in a turn that the client does not
leave the backend is through without fail, the provider has reported no error, and anything is
pending then, that call is the last of the turn. The turn fails with an error that is made of what
is pending, and the client is told so in the only frame that is done. Hooks for the end of a reply,
and saves, belong to earlier calls. -/
theorem unread_execute (e : Engine σ) (c : TurnContext) (input : Message) (caller : Object) (w : σ)
    (hhungUp : .hungUp ∉ (e.execute c input caller false w).events) :
    (∀ (who : Identity) (t : Transcript) (raws : List (List UInt8)),
        ((Reply.start who t).run (raws.map .frame)).1.pending = (Reply.start who t).unread raws) ∧
      (∀ (r : Reply) (raw : List UInt8) (d : Delta), (r.read raw).2 = some d → d.pending = true →
        r.takeFrame raw = ⟨{ r with pending := r.pending ++ d.text }, [], .more⟩) ∧
      ∀ s ∈ e.callsOf c input caller w, ∀ l request, e.AsksBackend s l request →
        (e.answered s l request).value.ending (e.received s l request).stopped = none →
        (∀ raw, (e.received s l request).taken.step ≠ .failed raw) →
        (e.received s l request).taken.reply.pending ≠ [] →
        ∃ unread earlier,
          (e.received s l request).taken.reply.pending = unread ∧
          unread = (Reply.start l.assistant.identity .empty).unread
            ((e.answered s l request).value.frames.take (e.received s l request).count) ∧
          e.callsOf c input caller w = earlier ++ [s] ∧
          (e.execute c input caller false w).result =
            .failed (String.ofList (Provider.errorTextOfBody unread)) ∧
          (Event.frames (e.execute c input caller false w).events).filter Frame.done =
            [.failed (String.ofList (Provider.errorTextOfBody unread))] ∧
          (∀ ev ∈ (e.played s).events, ¬ev.Completes) ∧
          ∀ ev ∈ (e.execute c input caller false w).events, ev.Completes →
            ∃ t ∈ earlier, ev ∈ (e.played t).events := by
  refine ⟨fun who t raws => Reply.pending_run rfl raws, fun r raw d => Reply.takeFrame_of_unread,
    ?_⟩
  intro s hs l request hasks hthrough hstep hunread
  obtain ⟨before, hbefore, hturn⟩ := exists_course hhungUp
  rcases hturn with ⟨x, hnone, -⟩ | ⟨first, o, hcourse, -, -, hfirst, hnever, hresult, hevents⟩
  · rw [hnone] at hs
    exact absurd hs List.not_mem_nil
  · obtain ⟨hthere, hquiet⟩ := hcourse.there hfirst hnever s hs
    obtain ⟨hplayed, hincomplete⟩ := played_of_unread hasks hthere hquiet hthrough hstep hunread
    -- A call that ends in a failure hands on to none, so that it is the last of the run, and the
    -- result of the run is its own.
    obtain ⟨hvalue, earlier, hcalls⟩ := hcourse.eq_last hs hplayed
    obtain ⟨exits, last, hdone, hclosing⟩ := hcourse.exists_closing hvalue
    obtain ⟨message, rfl, hmessage⟩ := hclosing.failed_iff.1 rfl
    cases hmessage
    have hpending : (e.received s l request).taken.reply.pending =
        (Reply.start l.assistant.identity .empty).unread
          ((e.answered s l request).value.frames.take (e.received s l request).count) := by
      rw [reply_received hasks hthere hquiet]
      exact Reply.pending_run rfl _
    have hbeforeFrames : Event.frames before = [] :=
      Event.frames_eq_nil fun ev hev => (hbefore ev hev).frame?_eq_none
    refine ⟨_, earlier, rfl, hpending, hcalls, ?_, ?_, hincomplete, ?_⟩
    · rw [hresult, hvalue]
      rfl
    · rw [hevents, hvalue]
      simp only [Event.frames_append, hbeforeFrames, List.nil_append, List.filter_append, hdone]
      rfl
    · intro ev hev hcompletes
      rw [hevents] at hev
      rcases List.mem_append.1 hev with hev | hev
      · exact absurd hcompletes (hbefore ev hev).not_completes
      rcases List.mem_append.1 hev with hev | hev
      · rw [hcourse.events_eq, hcalls] at hev
        obtain ⟨t, ht, hev⟩ := List.mem_flatMap.1 hev
        rcases List.mem_append.1 ht with ht | ht
        · exact ⟨t, ht, hev⟩
        · rw [List.mem_singleton.1 ht] at hev
          exact absurd hcompletes (hincomplete ev hev)
      · exact absurd hcompletes (settled_quiet _ ev hev).2

/-- An engine with an assistant whose model sends something that cannot be read, and then ends its
reply. -/
def garbled : Engine Unit :=
  .of {} (.ofAssistants [bare "a" none]) fun _ _ =>
    .known (.ofFrames [Text.utf8 "\x7b\"text".toList,
      Text.utf8 "\x7b\"choices\":[\x7b\"finish_reason\":\"stop\"\x7d]\x7d".toList])

/-- The first turn of such an engine. -/
def garbledTurn : Turn Unit :=
  garbled.execute (firstTurn "a") (.of .user "hi") [] false ()

/-- Whether the backend is through with a reply that the provider has ended, while some text is
still pending. -/
def leaves (e : Engine σ) (s : Summons σ) (pending : List Char) : Bool :=
  match (e.entered s).value with
  | .error _ => false
  | .ok l =>
    match (e.requested s l).value with
    | .error _ => false
    | .ok request =>
      ((e.answered s l request).value.ending (e.received s l request).stopped).isNone &&
        (e.received s l request).taken.step == .done &&
          (e.received s l request).taken.reply.pending == pending

/-- Such a call asks the backend. -/
theorem exists_of_leaves {s : Summons σ} {pending : List Char} (h : e.leaves s pending = true) :
    ∃ l request, e.AsksBackend s l request ∧
      (e.answered s l request).value.ending (e.received s l request).stopped = none ∧
      (e.received s l request).taken.step = .done ∧
      (e.received s l request).taken.reply.pending = pending := by
  unfold leaves at h
  cases hl : (e.entered s).value with
  | error x =>
    rw [hl] at h
    exact nomatch h
  | ok l =>
    rw [hl] at h
    dsimp only at h
    cases hrequest : (e.requested s l).value with
    | error x =>
      rw [hrequest] at h
      exact nomatch h
    | ok request =>
      rw [hrequest] at h
      simp only [Bool.and_eq_true, Option.isNone_iff_eq_none, beq_iff_eq] at h
      exact ⟨l, request, ⟨hl, hrequest⟩, h.1.1, h.1.2, h.2⟩

/-- What could not be read is what the turn fails with, though the provider has ended its reply. -/
theorem unread_execute_garbled :
    garbledTurn.result = .failed "\x7b\"text" ∧
      (Event.frames garbledTurn.events).filter Frame.done = [.failed "\x7b\"text"] ∧
      ∀ ev ∈ garbledTurn.events, ¬ev.Completes := by
  have hthere : garbledTurn.events.all isThere = true := by decide +kernel
  have hleaves : (garbled.callsOf (firstTurn "a") (.of .user "hi") [] ()).head?.any
      (fun s => garbled.leaves s "\x7b\"text".toList) = true := by decide +kernel
  have hlength : (garbled.callsOf (firstTurn "a") (.of .user "hi") [] ()).length = 1 := by
    decide +kernel
  obtain ⟨s, hs, hs'⟩ := (Option.any_eq_true _ _).1 hleaves
  obtain ⟨l, request, hasks, hthrough, hdone, hpending⟩ := exists_of_leaves hs'
  have hstep (raw : List Char) : (garbled.received s l request).taken.step ≠ .failed raw := by
    rw [hdone]
    exact nofun
  have hunread : (garbled.received s l request).taken.reply.pending ≠ [] := by
    rw [hpending]
    exact nofun
  obtain ⟨-, -, hturn⟩ := unread_execute garbled (firstTurn "a") (.of .user "hi") [] ()
    (hungUp_not_mem hthere)
  obtain ⟨unread, earlier, hsame, -, hcalls, hresult, hframes, -, hcompletes⟩ :=
    hturn s (List.mem_of_mem_head? hs) l request hasks hthrough hstep hunread
  cases hpending.symm.trans hsame
  have hnone : earlier = [] := by
    rw [hcalls, List.length_append] at hlength
    exact List.length_eq_zero_iff.1 (Nat.succ.inj hlength)
  refine ⟨hresult, hframes, fun ev hev hc => ?_⟩
  obtain ⟨t, ht, -⟩ := hcompletes ev hev hc
  rw [hnone] at ht
  exact absurd ht List.not_mem_nil

end Engine

end ChatRelay
