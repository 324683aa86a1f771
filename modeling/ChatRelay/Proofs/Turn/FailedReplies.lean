import ChatRelay.Backend.Completions
import ChatRelay.Proofs.Reply.Reading
import ChatRelay.Proofs.Turn.Protocol

/-!
# Failed replies of the service

A reply whose status is not 2xx is delivered as a single frame, and whether the turn fails depends
on how that frame is read: an error of the provider and unread text are reported, while a frame that
is read as text or as nothing lets the reply end well. `ServiceReply.tellsFailure` is that reading.
A turn whose first request is answered with a failed reply fails, with one error and nothing else,
exactly if the reply tells of its failure (`failed_iff_tellsFailure`). An empty body does not
(`completed_of_empty_serverError`).
-/

namespace ChatRelay

open Json (Value Object)

/-- Whether it can be told from a reply that is no success that it failed: it is no answer at all,
breaks off, or has a body that is read as an error or cannot be read. -/
def ServiceReply.tellsFailure (r : ServiceReply) : Bool :=
  !r.isAnswer || r.content.broken ||
    (Delta.ofFrame? (Text.utf8 (Text.decode r.content.bytes))).any fun d =>
      d.pending || d.channel == .error

namespace Event

/-- The request that an event makes. -/
def request? : Event → Option (List Value × Object)
  | request messages options => some (messages, options)
  | _ => none

/-- The first request among events. -/
def firstRequest? (events : List Event) : Option (List Value × Object) :=
  events.findSome? request?

/-- Before a request there is none. -/
theorem firstRequest?_of_prepares {events : List Event} (h : ∀ ev ∈ events, ev.Prepares) :
    firstRequest? events = none := by
  refine List.findSome?_eq_none_iff.2 fun ev hev => ?_
  cases h ev hev <;> rfl

/-- What happens before a request does not change which is the first. -/
theorem firstRequest?_append_of_prepares {before : List Event} (h : ∀ ev ∈ before, ev.Prepares)
    (events : List Event) : firstRequest? (before ++ events) = firstRequest? events := by
  have hnone := firstRequest?_of_prepares h
  unfold firstRequest? at *
  rw [List.findSome?_append, hnone, Option.none_or]

/-- Nor does what happens after it and is no request. -/
theorem firstRequest?_append_of_none {after : List Event} (h : ∀ ev ∈ after, ev.request? = none)
    (events : List Event) : firstRequest? (events ++ after) = firstRequest? events := by
  have hnone : after.findSome? request? = none := List.findSome?_eq_none_iff.2 h
  unfold firstRequest?
  rw [List.findSome?_append, hnone, Option.or_none]

end Event

namespace Engine

variable {σ : Type} {e : Engine σ}

/-! ### The stream of a failed reply -/

/-- A stream that has failed, or has unread text, ends with an error and sends nothing then. -/
theorem isError_of_unread {s : Streaming}
    (h : (∃ raw, s.step = .failed raw) ∨ (s.step = .more ∧ s.reply.pending ≠ [])) :
    (streamEndOf s.ended).IsError ∧ s.ended.frames = [] := by
  have hended : s.ended = ⟨s.reply, [], s.step⟩ := by
    refine if_neg fun ⟨hmore, hpending⟩ => ?_
    rcases h with ⟨raw, hfailed⟩ | ⟨-, hunread⟩
    · exact nomatch hfailed.symm.trans hmore
    · exact hunread hpending
  rw [hended]
  unfold streamEndOf
  rcases h with ⟨raw, hfailed⟩ | ⟨hmore, hunread⟩
  · rw [hfailed]
    exact ⟨trivial, rfl⟩
  · rw [hmore]
    dsimp only
    rw [if_neg hunread]
    exact ⟨trivial, rfl⟩

/-- A stream that has not failed, and has no unread text, ends well. -/
theorem exists_done_of_pending_nil {s : Streaming} (hstep : s.step = .more ∨ s.step = .done)
    (h : s.reply.pending = []) : ∃ t asides, streamEndOf s.ended = .done t asides :=
  ⟨_, _, streamEndOf_ended_eq_done_iff.2 ⟨hstep, h, rfl, rfl⟩⟩

/-- A single frame is taken, whether or not it is answered with a no. -/
theorem taken_handOver_singleton {τ : Type} (onFrame : τ → List UInt8 → τ × Bool)
    (onHangUp : τ → τ) (bytes : List UInt8) (count : Nat) (t : τ) :
    (BackendReply.handOver onFrame onHangUp [.frame bytes] count t).taken =
      (onFrame t bytes).1 := by
  unfold BackendReply.handOver
  dsimp only
  split <;> rfl

/-- What is taken of a single frame is what the reply makes of it. -/
theorem delivered_ofFrames (who : Identity) (bytes : List UInt8) :
    (delivered who false (.ofFrames [bytes])).taken =
      ⟨((Reply.start who .empty).takeFrame bytes).reply,
        ((Reply.start who .empty).takeFrame bytes).step, false,
        ((Reply.start who .empty).takeFrame bytes).frames.map .frame⟩ := by
  unfold delivered
  rw [BackendReply.deliver_of_stays rfl]
  exact taken_handOver_singleton _ _ _ _ _

/-- A single frame that is an error or cannot be read ends a stream with an error, and nothing is
sent; any other ends it well. -/
theorem streamEnd_of_frame (who : Identity) (bytes : List UInt8) :
    if (Delta.ofFrame? bytes).any fun d => d.pending || d.channel == .error then
      (streamEndOf (delivered who false (.ofFrames [bytes])).taken.ended).IsError ∧
        (delivered who false (.ofFrames [bytes])).taken.events = [] ∧
        (delivered who false (.ofFrames [bytes])).taken.ended.frames = []
    else ∃ t asides,
      streamEndOf (delivered who false (.ofFrames [bytes])).taken.ended = .done t asides := by
  rw [delivered_ofFrames, Reply.takeFrame_of_pending_nil rfl]
  cases hd : Delta.ofFrame? bytes with
  | none => exact exists_done_of_pending_nil (.inl rfl) rfl
  | some d =>
    have hstep := (Reply.start who .empty).step_take d
    have hpending := (Reply.start who .empty).pending_take d
    simp only [Option.map_some, Option.getD_some, Option.any_some]
    -- The one frame is all that is delivered: if it is an error the reply is stopped at it, and if
    -- it cannot be read its text is still pending at the end.
    by_cases htold : d.pending = true ∨ d.channel = .error
    · have hframes := (Reply.start who .empty).frames_take_eq_nil htold
      have hunread : (∃ raw, ((Reply.start who .empty).take d).step = .failed raw) ∨
          (((Reply.start who .empty).take d).step = .more ∧
            ((Reply.start who .empty).take d).reply.pending ≠ []) := by
        cases hp : d.pending with
        | true =>
          rw [hp] at hstep hpending
          refine .inr ⟨hstep, ?_⟩
          rw [hpending]
          exact Delta.text_ne_nil_of_pending hd hp
        | false =>
          have hc : d.channel = .error := htold.resolve_left (by simp [hp])
          rw [hp, if_neg nofun, if_pos hc] at hstep
          exact .inl ⟨_, hstep⟩
      rw [if_pos (by simpa using htold), hframes]
      obtain ⟨herror, hended⟩ := isError_of_unread
        (s := ⟨((Reply.start who .empty).take d).reply, ((Reply.start who .empty).take d).step,
          false, []⟩) hunread
      exact ⟨herror, rfl, hended⟩
    · obtain ⟨hp, hc⟩ := not_or.1 htold
      rw [if_neg (by simpa using htold)]
      rw [if_neg hp, if_neg hc] at hstep
      rw [if_neg hp] at hpending
      refine exists_done_of_pending_nil ?_ hpending
      show ((Reply.start who .empty).take d).step = .more ∨
        ((Reply.start who .empty).take d).step = .done
      rw [hstep]
      cases d.done with
      | true => exact .inr rfl
      | false => exact .inl rfl

/-- A failed reply is delivered as a failure, or as a frame that says whether it failed. -/
theorem delivery_of_failure {r : ServiceReply} (hr : r.isSuccess = false) :
    (r.tellsFailure = true ∧ ∃ x, x ≠ .canceled ∧ r.delivery = .failing x) ∨
      ∃ bytes, r.delivery = .ofFrames [bytes] ∧
        r.tellsFailure = (Delta.ofFrame? bytes).any fun d => d.pending || d.channel == .error := by
  unfold ServiceReply.delivery ServiceReply.tellsFailure
  cases hanswer : r.isAnswer with
  | false => exact .inl ⟨rfl, ServiceReply.unanswered, nofun, rfl⟩
  | true =>
    rw [hr]
    cases hbroken : r.content.broken with
    | true => exact .inl ⟨rfl, Http.brokenOff, nofun, rfl⟩
    | false => exact .inr ⟨_, rfl, rfl⟩

/-- The stream of a failed reply that tells of its failure fails or ends with an error, and nothing
is sent; that of any other failed reply ends well. -/
theorem streamOf_of_failure {r : ServiceReply} (hr : r.isSuccess = false) {l : Leg σ}
    {request : List Value} {w : σ} (hreply : (e.backend request l.options w).value = r.delivery)
    (hthere : (e.backend request l.options w).hungUp = false) :
    if r.tellsFailure then
      Event.frames ((e.streamOf l request).run w false).events = [] ∧
        ((∃ x, x ≠ .canceled ∧ ((e.streamOf l request).run w false).value = .error x) ∨
          ∃ ended, ended.IsError ∧ ((e.streamOf l request).run w false).value = .ok ended)
    else ∃ t asides, ((e.streamOf l request).run w false).value = .ok (.done t asides) := by
  rw [run_streamOf]
  dsimp only
  rw [hreply, hthere, Bool.false_or]
  generalize (e.backend request l.options w).world = w'
  rw [if_neg Bool.false_ne_true, List.nil_append, Event.frames_cons_of_none rfl,
    Event.frames_append, Event.frames_cons_of_none rfl]
  rcases delivery_of_failure hr with ⟨htells, x, hx, hdelivery⟩ | ⟨bytes, hdelivery, htells⟩
  · rw [if_pos htells, hdelivery]
    exact ⟨rfl, .inl ⟨x, hx, rfl⟩⟩
  · have hend := streamEnd_of_frame l.assistant.identity bytes
    have hthere :
        (delivered l.assistant.identity false (.ofFrames [bytes])).taken.hungUp = false := by
      rw [delivered_ofFrames]
    rw [htells, hdelivery]
    generalize delivered l.assistant.identity false (.ofFrames [bytes]) = d at hend hthere ⊢
    have hafter : (afterDelivery (.ofFrames [bytes]) d : Flow σ StreamEnd).run w'
        d.taken.hungUp = (closeStream d.taken).run w' false := by
      rw [hthere]
      rfl
    rw [hafter, run_closeStream]
    split
    · next htold =>
      rw [if_pos htold] at hend
      obtain ⟨herror, hevents, hframes⟩ := hend
      rw [hevents, hframes]
      exact ⟨rfl, .inr ⟨_, herror, rfl⟩⟩
    · next htold =>
      rw [if_neg htold] at hend
      obtain ⟨t, asides, hdone⟩ := hend
      exact ⟨t, asides, congrArg _ hdone⟩

/-! ### Up to the first request -/

/-- A leg up to its request. -/
def ask (e : Engine σ) (levels : Nat) (b : Brief σ) : Flow σ (Leg σ × List Value) := do
  let l ← e.enter levels b
  let request ← e.requestFor l.assistant l.messages
  return (l, request)

/-- A run from the request of its first leg. -/
def afterAsking (e : Engine σ) (levels : Nat) (asked : Leg σ × List Value) :
    Flow σ TurnResult := do
  let ended ← e.streamOf asked.1 asked.2
  let k ← e.conclude asked.1 ended
  let after ← e.handOn asked.1 k
  e.goOn levels after

/-- A run asks, and goes on after that. -/
theorem serve_succ_eq_ask (levels : Nat) (b : Brief σ) :
    e.serve (levels + 1) b = e.ask (levels + 1) b >>= e.afterAsking levels := by
  rw [serve_succ]
  unfold play ask afterAsking
  simp only [stream_eq, bind_assoc]
  rfl

/-- Up to a request a run only prepares it. -/
theorem obeys_ask (levels : Nat) (b : Brief σ) :
    (e.ask levels b).Obeys Event.Prepares e.MayFail :=
  (obeys_enter _ _).bind fun _ => (obeys_requestFor _ _).bind fun _ => Flow.obeys_pure _

/-- After asking the first request is the one that was asked. -/
theorem firstRequest?_afterAsking (levels : Nat) (l : Leg σ) (request : List Value) (w : σ)
    (h : Bool) :
    Event.firstRequest? ((e.afterAsking levels (l, request)).run w h).events =
      some (request, l.options) := by
  unfold afterAsking
  cases hv : ((e.streamOf l request).run w h).value with
  | error x =>
    rw [Flow.run_bind_of_error hv, run_streamOf]
    rfl
  | ok ended =>
    rw [Flow.run_bind_of_ok hv, run_streamOf]
    rfl

/-- A run with a request, during which the client does not hang up, asks for it in its first leg,
and is what follows. -/
theorem exists_afterAsking_of_serve {levels : Nat} {b : Brief σ} {w : σ} {messages : List Value}
    {options : Object} (hthere : ((e.serve levels b).run w false).hungUp = false)
    (hrequest : Event.firstRequest? ((e.serve levels b).run w false).events =
      some (messages, options)) :
    ∃ n l w' before,
      l.options = options ∧ (∀ ev ∈ before, ev.Prepares) ∧
      (e.backend messages options w').hungUp = false ∧
      ((e.serve levels b).run w false).value =
        ((e.afterAsking n (l, messages)).run w' false).value ∧
      ((e.serve levels b).run w false).events =
        before ++ ((e.afterAsking n (l, messages)).run w' false).events := by
  have hnever : .hungUp ∉ ((e.serve levels b).run w false).events := fun h => by
    rw [((obeys_serve levels b).hungUp_iff w false).2 (.inr h)] at hthere
    exact nomatch hthere
  cases levels with
  | zero =>
    rw [serve_zero] at hrequest
    exact nomatch hrequest
  | succ n =>
    have hask := obeys_ask (e := e) (n + 1) b
    have hprepares := hask.event w false
    rw [serve_succ_eq_ask] at hrequest hnever ⊢
    cases hv : ((e.ask (n + 1) b).run w false).value with
    | error x =>
      rw [Flow.run_bind_of_error hv, Event.firstRequest?_of_prepares hprepares] at hrequest
      exact nomatch hrequest
    | ok asked =>
      obtain ⟨l, request⟩ := asked
      rw [Flow.run_bind_of_ok hv] at hrequest hnever ⊢
      obtain ⟨hbefore, hafter⟩ := not_or.1 (mt List.mem_append.2 hnever)
      rw [hask.hungUp_eq_false hbefore] at hrequest hafter ⊢
      dsimp only at hrequest hafter ⊢
      rw [Event.firstRequest?_append_of_prepares hprepares, firstRequest?_afterAsking] at hrequest
      cases hrequest
      refine ⟨n, l, _, _, rfl, hprepares, ?_, rfl, rfl⟩
      -- If the client hung up while the backend answers, that would be among the events of the run.
      cases hb : (e.backend messages l.options ((e.ask (n + 1) b).run w false).world).hungUp with
      | false => rfl
      | true =>
        refine absurd (Flow.mem_events_bind (f := e.streamOf l messages) ?_ _) hafter
        rw [run_streamOf]
        dsimp only
        rw [hb, if_pos rfl]
        simp

/-! ### After the request -/

/-- A hook that there is is called. -/
theorem mem_consult {a : Assistant σ} {stage : HookStage} {hook : Hook σ}
    (hhook : a.hooks.at stage = some hook) (input : HookInput) (w : σ) (h : Bool) :
    .hook stage input ∈ ((consult a stage input).run w h).events := by
  unfold consult
  rw [hhook]
  dsimp only
  exact Flow.mem_events_bind (f := Flow.tell _) (List.mem_singleton.2 rfl) _

/-- A completion hook is called, or the leg ends well. -/
theorem completes_or_completed (l : Leg σ) (t : Transcript) (asides : List Message) (w : σ)
    (h : Bool) :
    (∃ ev ∈ ((e.complete l t asides).run w h).events, ev.Completes) ∨
      ((e.complete l t asides).run w h).value = .ok (.ended .completed) := by
  rw [complete_eq]
  cases hhook : l.assistant.hooks.at .done with
  | some hook =>
    have hcalled := mem_consult hhook (l.hookInput (l.messages ++ asides) t none) w h
    exact .inl ⟨_, Flow.mem_events_bind (f := Flow.attempt _) hcalled _, .hook _⟩
  | none =>
    have hlast : (lastReply l (.done t asides)).run w h = ⟨.ok none, [], w, h⟩ := by
      unfold lastReply consult
      rw [hhook]
      rfl
    have hkeep : ((if isMalformed (.ok (none : Option HookReply)) then pure () else e.keep l t :
        Flow σ Unit).run w h).value = .ok () := value_keep l t w h
    refine .inr ?_
    rw [Flow.run_attempt_bind, hlast]
    dsimp only
    rw [Flow.run_bind_of_ok hkeep]
    rfl

/-- A leg that ends a run is the end of it. -/
theorem run_ended {l : Leg σ} {s : StreamEnd} {w : σ} {h : Bool} {r : TurnResult}
    (hv : ((e.conclude l s).run w h).value = .ok (.ended r)) (levels : Nat) :
    (e.conclude l s >>= fun k => e.handOn l k >>= e.goOn levels).run w h =
      ⟨.ok r, ((e.conclude l s).run w h).events, ((e.conclude l s).run w h).world,
        ((e.conclude l s).run w h).hungUp⟩ := by
  rw [Flow.run_bind_of_ok hv]
  simp [handOn, goOn]

/-- A failed reply that tells of its failure makes the run fail, with at most one error, and nothing
is completed. -/
theorem afterAsking_of_tellsFailure {r : ServiceReply} (hr : r.isSuccess = false)
    (htells : r.tellsFailure = true) (levels : Nat) {l : Leg σ} {request : List Value} {w : σ}
    (hreply : (e.backend request l.options w).value = r.delivery)
    (hthere : (e.backend request l.options w).hungUp = false) :
    (∀ ev ∈ ((e.afterAsking levels (l, request)).run w false).events, ¬ev.Completes) ∧
      ((∃ x, x ≠ .canceled ∧
          ((e.afterAsking levels (l, request)).run w false).value = .error x ∧
          Event.frames ((e.afterAsking levels (l, request)).run w false).events = []) ∨
        ∃ message,
          ((e.afterAsking levels (l, request)).run w false).value = .ok (.failed message) ∧
          Event.frames ((e.afterAsking levels (l, request)).run w false).events =
            [.failed message]) := by
  have hstream := streamOf_of_failure hr hreply hthere
  rw [if_pos htells] at hstream
  have hobeys := (obeys_streamOf (e := e) l request).event w false
  unfold afterAsking
  obtain ⟨hquiet, ⟨x, hx, hv⟩ | ⟨ended, herror, hv⟩⟩ := hstream
  · rw [Flow.run_bind_of_error hv]
    exact ⟨hobeys, .inl ⟨x, hx, rfl, hquiet⟩⟩
  · rw [Flow.run_bind_of_ok hv]
    dsimp only
    generalize ((e.streamOf l request).run w false) = o at hquiet hobeys ⊢
    obtain ⟨message, hended, hsent⟩ := exists_conclude_of_isError (e := e) l herror o.world o.hungUp
    have hconclude := (obeys_conclude_of_isError (e := e) l herror).event o.world o.hungUp
    rw [run_ended hended]
    refine ⟨?_, .inr ⟨message, rfl, ?_⟩⟩
    · intro ev hev
      rcases List.mem_append.1 hev with hev | hev
      · exact hobeys ev hev
      · exact hconclude ev hev
    · rw [Event.frames_append, hquiet, hsent]
      rfl

/-- After any other failed reply something is completed, or the turn is. -/
theorem afterAsking_of_not_tellsFailure {r : ServiceReply} (hr : r.isSuccess = false)
    (htells : r.tellsFailure = false) (levels : Nat) {l : Leg σ} {request : List Value} {w : σ}
    (hreply : (e.backend request l.options w).value = r.delivery)
    (hthere : (e.backend request l.options w).hungUp = false) :
    (∃ ev ∈ ((e.afterAsking levels (l, request)).run w false).events, ev.Completes) ∨
      ((e.afterAsking levels (l, request)).run w false).value = .ok .completed := by
  have hstream := streamOf_of_failure hr hreply hthere
  rw [htells, if_neg Bool.false_ne_true] at hstream
  obtain ⟨t, asides, hv⟩ := hstream
  unfold afterAsking
  rw [Flow.run_bind_of_ok hv]
  dsimp only
  generalize ((e.streamOf l request).run w false) = o
  rcases completes_or_completed (e := e) l t asides o.world o.hungUp with ⟨ev, hev, hc⟩ | hended
  · have hconcluded : ev ∈ ((e.conclude l (.done t asides)).run o.world o.hungUp).events := hev
    exact .inl ⟨ev, List.mem_append_right _ (Flow.mem_events_bind hconcluded _), hc⟩
  · rw [run_ended (s := .done t asides) hended]
    exact .inr rfl

/-! ### Turns -/

/-- What a run settles for is no request, and completes nothing. -/
theorem settled_quiet (v : Result TurnResult) :
    ∀ ev ∈ (settled v).2 ++ [.returned], ev.request? = none ∧ ¬ev.Completes := by
  intro ev hev
  rcases List.mem_append.1 hev with hev | hev
  · cases v with
    | ok r => exact absurd hev List.not_mem_nil
    | error x =>
      unfold settled at hev
      dsimp only at hev
      split at hev
      · rw [List.mem_singleton.1 hev]
        exact ⟨rfl, nofun⟩
      · exact absurd hev List.not_mem_nil
  · rw [List.mem_singleton.1 hev]
    exact ⟨rfl, nofun⟩

/-- A turn with a request, in which the client does not hang up, is prepared, asks for it, and is
what follows. -/
theorem exists_afterAsking {c : TurnContext} {input : Message} {caller : Object} {w : σ}
    {messages : List Value} {options : Object}
    (hhungUp : .hungUp ∉ (e.execute c input caller false w).events)
    (hrequest : Event.firstRequest? (e.execute c input caller false w).events =
      some (messages, options)) :
    ∃ levels l w' before,
      l.options = options ∧ (∀ ev ∈ before, ev.Prepares) ∧
      (e.backend messages options w').hungUp = false ∧
      (e.execute c input caller false w).result =
        (settled ((e.afterAsking levels (l, messages)).run w' false).value).1 ∧
      (e.execute c input caller false w).events =
        before ++ ((e.afterAsking levels (l, messages)).run w' false).events ++
          ((settled ((e.afterAsking levels (l, messages)).run w' false).value).2 ++
            [.returned]) := by
  have hprepares := (obeys_prepare (e := e) c input).event w false
  have hthere := hungUp_prepare_eq_false hhungUp
  unfold execute at *
  generalize (e.prepare c input).run w false = o at hprepares hthere hhungUp hrequest ⊢
  obtain ⟨value, before, w', h'⟩ := o
  cases value with
  | error x =>
    dsimp only at hprepares hrequest
    rw [Event.firstRequest?_append_of_prepares hprepares] at hrequest
    exact nomatch hrequest
  | ok prepared =>
    obtain ⟨a, conversation⟩ := prepared
    cases hthere
    dsimp only at hprepares hhungUp hrequest ⊢
    rw [Event.firstRequest?_append_of_prepares hprepares] at hrequest
    have hchat : .hungUp ∉ (e.streamChat c a conversation caller false w').events := fun h =>
      hhungUp (List.mem_append_right _ h)
    rw [streamChat_eq] at hchat hrequest ⊢
    have hrun := hungUp_eq_false (obeys_serve _ ⟨c, a, conversation, caller⟩) hchat
    rw [inBackground_eq hrun] at hrequest ⊢
    dsimp only at hrequest ⊢
    -- A request of the turn is one of its run, as there is none in what the run settles for.
    rw [List.append_assoc, Event.firstRequest?_append_of_none fun ev hev =>
      (settled_quiet _ ev hev).1] at hrequest
    obtain ⟨n, l, w'', asked, hoptions, hasked, hbackend, hv, hevents⟩ :=
      exists_afterAsking_of_serve hrun hrequest
    refine ⟨n, l, w'', before ++ asked, hoptions, ?_, hbackend, ?_, ?_⟩
    · intro ev hev
      rcases List.mem_append.1 hev with hev | hev
      · exact hprepares ev hev
      · exact hasked ev hev
    · rw [hv]
    · rw [hevents, hv]
      simp only [List.append_assoc]

/-- What a turn does whose first request is answered with a reply that is no success, while the
client is there: it fails with one error, which is all that is sent, and nothing is completed,
exactly if the reply tells of its failure. -/
theorem failed_iff_tellsFailure (e : Engine σ) (s : Service) (network : Network) (c : TurnContext)
    (input : Message) (caller : Object) (w : σ) {messages : List Value} {options : Object}
    {r : ServiceReply}
    (hbackend : ∀ messages options w,
      (e.backend messages options w).value = s.deliveryOver network messages options)
    (hhungUp : .hungUp ∉ (e.execute c input caller false w).events)
    (hrequest : Event.firstRequest? (e.execute c input caller false w).events =
      some (messages, options))
    (hreply : (s.request? messages options).bind network = some r)
    (hfailed : r.isSuccess = false) :
    ((∃ message, (e.execute c input caller false w).result = .failed message ∧
          Event.frames (e.execute c input caller false w).events = [.failed message]) ∧
        ∀ ev ∈ (e.execute c input caller false w).events, ¬ev.Completes) ↔
      r.tellsFailure = true := by
  obtain ⟨n, l, w', before, rfl, hbefore, hthere, hresult, hevents⟩ :=
    exists_afterAsking hhungUp hrequest
  have hdelivery : (e.backend messages l.options w').value = r.delivery := by
    rw [hbackend]
    unfold Service.deliveryOver
    rw [hreply]
  rw [hresult, hevents]
  have hquiet : Event.frames before = [] :=
    Event.frames_eq_nil fun ev hev => (hbefore ev hev).frame?_eq_none
  have hsettled := settled_quiet ((e.afterAsking n (l, messages)).run w' false).value
  cases htells : r.tellsFailure with
  | true =>
    obtain ⟨hnever, hend⟩ := afterAsking_of_tellsFailure hfailed htells n hdelivery hthere
    refine ⟨fun _ => rfl, fun _ => ⟨?_, ?_⟩⟩
    · simp only [Event.frames_append, hquiet, List.nil_append]
      rcases hend with ⟨x, hx, hv, hsent⟩ | ⟨message, hv, hsent⟩
      · rw [hv, hsent, settled_of_ne_canceled hx]
        exact ⟨x.message, rfl, rfl⟩
      · rw [hv, hsent]
        exact ⟨message, rfl, rfl⟩
    · intro ev hev
      rcases List.mem_append.1 hev with hev | hev
      · rcases List.mem_append.1 hev with hev | hev
        · exact (hbefore ev hev).not_completes
        · exact hnever ev hev
      · exact (hsettled ev hev).2
  | false =>
    -- If the reply tells of no failure, something is completed in the turn or the turn is, and the
    -- left side denies both.
    refine ⟨fun h => ?_, nofun⟩
    obtain ⟨⟨message, hmessage, -⟩, hnever⟩ := h
    rcases afterAsking_of_not_tellsFailure hfailed htells n hdelivery hthere with
      ⟨ev, hev, hc⟩ | hv
    · exact absurd hc (hnever ev (by simp [hev]))
    · rw [hv] at hmessage
      exact nomatch hmessage

/-- An engine with one assistant, whose service answers each request with the same reply. -/
def answering (r : ServiceReply) : Engine Unit :=
  .of {} (.ofAssistants [bare "a" none]) fun messages options =>
    .known ((Service.of "key" none).deliveryOver (fun _ => some r) messages options)

/-- The reply of a server in trouble, with a body. -/
def serverError (body : String) : ServiceReply := ⟨500, ⟨[Text.utf8 body.toList], false⟩⟩

/-- A first turn whose request a server in trouble answers with a body. -/
def troubled (body : String) : Turn Unit :=
  (answering (serverError body)).execute (firstTurn "a") (.of .user "hi") [] false ()

/-- The service of such an engine has an address, and replies. -/
theorem reply_answering (r : ServiceReply) (messages : List Value) (options : Object) :
    ((Service.of "key" none).request? messages options).bind (fun _ => some r) = some r := by
  have haddress : (Http.Address.parse? (Service.of "key" none).url).isSome = true := by
    decide +kernel
  obtain ⟨address, hparse⟩ := Option.isSome_iff_exists.1 haddress
  unfold Service.request?
  rw [hparse]
  rfl

/-- A turn fails if the server in trouble says so. -/
theorem failed_of_serverError :
    ∃ message, (troubled "\x7b\"error\":\"down\"\x7d").result = .failed message ∧
      Event.frames (troubled "\x7b\"error\":\"down\"\x7d").events = [.failed message] := by
  have hthere : (troubled "\x7b\"error\":\"down\"\x7d").events.all isThere = true := by
    decide +kernel
  have hrequest :
      (Event.firstRequest? (troubled "\x7b\"error\":\"down\"\x7d").events).isSome = true := by
    decide +kernel
  obtain ⟨⟨messages, options⟩, hfirst⟩ := Option.isSome_iff_exists.1 hrequest
  exact ((failed_iff_tellsFailure (answering (serverError "\x7b\"error\":\"down\"\x7d"))
    (Service.of "key" none) (fun _ => some (serverError "\x7b\"error\":\"down\"\x7d"))
    (firstTurn "a") (.of .user "hi") [] () (fun _ _ _ => rfl)
    (hungUp_not_mem hthere) hfirst (reply_answering _ messages options)
    (by decide)).2 (by decide +kernel)).1

/-- A server in trouble that has no text for it does not tell of its failure: the turn is completed,
and the client is sent that it is done. -/
theorem completed_of_empty_serverError :
    (serverError "").isSuccess = false ∧
      (Event.firstRequest? (troubled "").events).isSome = true ∧
      (troubled "").result = .completed ∧
      (Event.frames (troubled "").events).map (fun f => (f.done, f.isError)) = [(true, false)] := by
  decide +kernel

end Engine

end ChatRelay
