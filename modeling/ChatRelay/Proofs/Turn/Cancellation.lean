import ChatRelay.Proofs.Turn.HangUp

/-!
# Cooperative cancellation

When the client of a turn hangs up, nobody stops the task that runs the turn: it looks itself
whether the client is gone, before each leg, at each frame of the provider, and when the backend has
returned. Between two looks it goes on. What that amounts to is stated for every moment at which the
client may hang up, by splitting the events of the task at the first time it does
(`cancellation_streamChat`): the calls before that are over, the call in which it happens winds
down, and of the calls after it, of which there is one at most, nothing is seen
(`Course.exists_hangUp`). Such a moment may also come between the frame that ends a reply and the
return of the backend; the reply is dropped then.
-/

namespace ChatRelay

open Json (Value Object)

namespace Engine

variable {σ : Type} {e : Engine σ}

/-! ### Runs -/

/-- A call of a client that is gone fails before anything happens. -/
theorem of_hungUp {s : Summons σ} (hs : s.hungUp = true) :
    ∃ x, (e.entered s).value = .error x ∧ (e.played s).value = .error x ∧
      (e.played s).events = [] := by
  have hentered : ∃ x, e.entered s = ⟨.error x, [], s.world, s.hungUp⟩ := by
    unfold entered enter
    split
    · exact ⟨_, rfl⟩
    · rw [Flow.run_hasHungUp_bind, hs]
      exact ⟨_, rfl⟩
  obtain ⟨x, hx⟩ := hentered
  have hvalue : (e.entered s).value = .error x := by
    rw [hx]
  refine ⟨x, hvalue, ?_⟩
  rcases played_cases (e := e) s with
    ⟨y, hy, hplayed⟩ | ⟨l, y, hl, -, -⟩ | ⟨l, ended, k, hl, -, -, -⟩
  · cases hvalue.symm.trans hy
    rw [hplayed, hx]
    exact ⟨rfl, rfl⟩
  · exact nomatch hvalue.symm.trans hl
  · exact nomatch hvalue.symm.trans hl

/-- A run for a client that is gone is a single call, and fails before anything happens. -/
theorem Course.of_hungUp {s : Summons σ} {calls : List (Summons σ)} {o : Outcome σ TurnResult}
    (h : e.Course s calls o) (hs : s.hungUp = true) :
    calls = [s] ∧ o.events = [] ∧ ∃ x, o.value = .error x := by
  obtain ⟨x, -, hvalue, hevents⟩ := Engine.of_hungUp (e := e) hs
  cases h with
  | failed h => exact ⟨rfl, hevents, _, rfl⟩
  | ended h => exact nomatch hvalue.symm.trans h
  | handedOn h rest => exact nomatch hvalue.symm.trans h.value

/-- A run in which the client hangs up: the calls before are over, and after the call in which it
does so there is at most one, of which nothing is seen. If the run has a result it is that of the
call. -/
theorem Course.exists_hangUp {s : Summons σ} {calls : List (Summons σ)} {o : Outcome σ TurnResult}
    (h : e.Course s calls o) (hs : s.hungUp = false) {before after : List Event}
    (hevents : o.events = before ++ .hungUp :: after) (hbefore : .hungUp ∉ before) :
    ∃ earlier t rest first, calls = earlier ++ t :: rest ∧ t.hungUp = false ∧
      before = (earlier.flatMap fun s => (e.played s).events) ++ first ∧
      (e.played t).events = first ++ .hungUp :: after ∧ rest.length ≤ 1 ∧
      (∀ u ∈ rest, u.hungUp = true) ∧
      ∀ r, o.value = .ok r → (e.played t).value = .ok (.inl r) := by
  induction h generalizing before with
  | @failed s x h =>
    exact ⟨[], s, [], before, rfl, hs, rfl, hevents, Nat.zero_le 1,
      fun u hu => absurd hu List.not_mem_nil, fun r hr => nomatch hr⟩
  | @ended s r' h =>
    rw [Outcome.events_before, List.append_nil] at hevents
    refine ⟨[], s, [], before, rfl, hs, rfl, hevents, Nat.zero_le 1,
      fun u hu => absurd hu List.not_mem_nil, fun r hr => ?_⟩
    cases hr
    exact h
  | @handedOn s t calls o h rest ih =>
    rw [Outcome.events_before] at hevents
    by_cases hduring : .hungUp ∈ (e.played s).events
    · have ht : t.hungUp = true := by
        rw [h.hungUp, hungUp_played_iff]
        exact .inr hduring
      -- The next call finds the client gone, and it is the last: nothing happens in it.
      obtain ⟨rfl, hnil, x, hx⟩ := rest.of_hungUp ht
      rw [hnil, List.append_nil] at hevents
      refine ⟨[], s, [t], before, rfl, hs, rfl, hevents, Nat.le_refl 1, fun u hu => ?_,
        fun r hr => ?_⟩
      · rw [List.mem_singleton.1 hu]
        exact ht
      · exact nomatch hx.symm.trans hr
    · have ht : t.hungUp = false := by
        rw [h.hungUp]
        exact there_of_iff (hungUp_played_iff s) hs hduring
      -- This call is over when the client hangs up, so that its events stand before that.
      obtain ⟨more, rfl⟩ := Event.prefix_of_split hevents hduring
      rw [List.append_assoc, List.append_cancel_left_eq] at hevents
      obtain ⟨earlier, u, later, first, rfl, hu, rfl, hplayed, hlater, hgone, hvalue⟩ :=
        ih ht hevents fun hmem => hbefore (List.mem_append_right _ hmem)
      refine ⟨s :: earlier, u, later, first, rfl, hu, ?_, hplayed, hlater, hgone, hvalue⟩
      rw [List.flatMap_cons, List.append_assoc]

/-- The reply that a call receives is made of the first of the frames that are delivered before the
client hangs up. -/
theorem exists_reply_received (s : Summons σ) (l : Leg σ) (request : List Value) :
    ∃ n, (e.received s l request).taken.reply =
      ((Reply.start l.assistant.identity .empty).run
        (((if (e.requested s l).hungUp || (e.answered s l request).hungUp then []
          else (e.answered s l request).value.framesInTime.take n)).map .frame)).1 := by
  unfold received
  cases (e.requested s l).hungUp || (e.answered s l request).hungUp with
  | true =>
    obtain ⟨hreply, -⟩ := delivered_of_hungUp l.assistant.identity (e.answered s l request).value
    exact ⟨0, hreply⟩
  | false =>
    obtain ⟨n, -, hreply, -⟩ := reply_delivered l.assistant.identity (e.answered s l request).value
    exact ⟨n, hreply⟩

/-! ### Turns -/

/-- The task that runs a turn in the background of its caller. -/
def task (e : Engine σ) (c : TurnContext) (a : Assistant σ) (messages : List Message)
    (caller : Object) (w : σ) : Outcome σ TurnResult :=
  (settle (e.runFrom c a messages caller)).run w false

/-- The calls of assistants in a task. -/
def taskCalls (e : Engine σ) (c : TurnContext) (a : Assistant σ) (messages : List Message)
    (caller : Object) (w : σ) : List (Summons σ) :=
  e.calls (e.settings.maxDepth + 1 - c.depth) ⟨c, a, messages, caller⟩ w false

/-- If the client hangs up in a task, it does so in the run of its legs. -/
theorem hungUp_of_task {c : TurnContext} {a : Assistant σ} {messages : List Message}
    {caller : Object} {w : σ} {before after : List Event}
    (hevents : (e.task c a messages caller w).events = before ++ .hungUp :: after) :
    ((e.runFrom c a messages caller).run w false).hungUp = true := by
  obtain ⟨fs, hsettle⟩ := events_settle (e.runFrom c a messages caller) w false
  have hmem : .hungUp ∈ ((e.runFrom c a messages caller).run w false).events ++
      fs.map Event.frame := by
    rw [← hsettle]
    show .hungUp ∈ (e.task c a messages caller w).events
    rw [hevents]
    simp
  refine ((obeys_serve (e := e) (e.settings.maxDepth + 1 - c.depth)
    ⟨c, a, messages, caller⟩).hungUp_iff w false).2 (.inr ?_)
  rcases List.mem_append.1 hmem with hmem | hmem
  · exact hmem
  · obtain ⟨f, -, hf⟩ := List.mem_map.1 hmem
    exact nomatch hf

/-- What a turn still does after its client hangs up, at any moment at which its task calls a
collaborator. The caller returns at once, and the turn is canceled for it. Of the task at most one
further frame is sent, which ends the turn or is the notice of a hand-off, and at most one further
request is made, which is stopped at its first frame. No frame that the provider sends after that
moment is taken by any reply. The rest of the task is the rest of the call in which the client hangs
up; the call after it, if there is one, fails before anything happens in it. Records are kept only
if the backend of that call had returned before. The task is canceled as well, unless it sends a
frame that ends the turn or is asked to exit. -/
theorem cancellation_streamChat (e : Engine σ) (c : TurnContext) (a : Assistant σ)
    (messages : List Message) (caller : Object) (w : σ) {before after : List Event}
    (hevents : (e.task c a messages caller w).events = before ++ .hungUp :: after)
    (hbefore : .hungUp ∉ before) :
    (e.streamChat c a messages caller false w).events =
        before ++ .hungUp :: .returned :: after ∧
      (e.streamChat c a messages caller false w).result = .canceled ∧
      (Event.frames after).length ≤ 1 ∧
      (∀ f ∈ Event.frames after, f.done = true ∨ ∃ a : Assistant σ, f = a.notice) ∧
      (Event.requests after = [] ∨
        ∃ r d, Event.requests after = [r] ∧ Event.deliveries after = [d] ∧
          (d = (0, false) ∨ d = (1, true))) ∧
      (∀ s ∈ e.taskCalls c a messages caller w, ∀ l request, e.AsksBackend s l request →
        ∃ n, (e.received s l request).taken.reply =
          ((Reply.start l.assistant.identity .empty).run
            ((if (e.requested s l).hungUp || (e.answered s l request).hungUp then []
              else (e.answered s l request).value.framesInTime.take n).map .frame)).1) ∧
      ∃ earlier s rest first,
        e.taskCalls c a messages caller w = earlier ++ s :: rest ∧
        before = (earlier.flatMap fun s => (e.played s).events) ++ first ∧
        (e.played s).events = first ++ .hungUp :: after ∧
        (Event.kept after ≠ [] → Event.deliveries first ≠ []) ∧
        (∀ t ∈ rest, (∃ x, (e.entered t).value = .error x) ∧ (e.played t).events = []) ∧
        ∃ r, (e.task c a messages caller w).value = .ok r ∧
          (r = .canceled ∨ (∃ f ∈ Event.frames after, f.done = true) ∨
            (r = .completed ∧ AsksToExit (e.finalReply s))) := by
  have hcourse := course_serve (e := e) (e.settings.maxDepth + 1 - c.depth)
    ⟨c, a, messages, caller⟩ w false
  have hgone := hungUp_of_task (e := e) hevents
  have htask : e.task c a messages caller w =
      ⟨.ok (((e.runFrom c a messages caller).run w false).value.toOption.getD .canceled),
        ((e.runFrom c a messages caller).run w false).events,
        ((e.runFrom c a messages caller).run w false).world, true⟩ :=
    run_settle_of_hungUp hgone
  have hrun : ((e.runFrom c a messages caller).run w false).events =
      before ++ .hungUp :: after := by
    rw [htask] at hevents
    exact hevents
  have hchat : e.streamChat c a messages caller false w =
      ⟨.canceled, returnAtHangUp (e.task c a messages caller w).events,
        (e.task c a messages caller w).world⟩ := by
    have hleft : ((settle (e.runFrom c a messages caller)).run w false).hungUp = true := by
      rw [hungUp_settle]
      exact hgone
    unfold streamChat inBackground
    dsimp only
    rw [if_neg Bool.false_ne_true, if_pos hleft]
    rfl
  -- All that is said of the time after the hang-up is said of the one call in which it happens: the
  -- calls before it are over, and the one after it comes to nothing.
  obtain ⟨earlier, s, rest, first, hcalls, hs, hsplit, hplayed, -, hrest, hvalue⟩ :=
    hcourse.exists_hangUp rfl hrun hbefore
  have hfirst : .hungUp ∉ first := fun hmem => hbefore (hsplit ▸ List.mem_append_right _ hmem)
  have hwinds := windsDown_played hs hplayed hfirst
  refine ⟨?_, ?_, hwinds.frames, hwinds.frame, hwinds.requests, ?_, earlier, s, rest, first, hcalls,
    hsplit, hplayed, hwinds.kept, ?_, ?_⟩
  · rw [hchat, hevents]
    exact returnAtHangUp_append hbefore (.hungUp :: after)
  · rw [hchat]
  · intro t _ l request _
    exact exists_reply_received t l request
  · intro t ht
    obtain ⟨x, hx, -, hnil⟩ := Engine.of_hungUp (e := e) (hrest t ht)
    exact ⟨⟨x, hx⟩, hnil⟩
  · rw [htask]
    refine ⟨_, rfl, ?_⟩
    cases hv : ((e.runFrom c a messages caller).run w false).value with
    | error x => exact .inl rfl
    | ok r => exact .inr (hwinds.result r (hvalue r hv))

/-- A hook that hands on while the client leaves. -/
def leaving : Hook Unit := fun _ w =>
  ⟨.ok (some { next := some (.handOff ⟨"b", .raw "go on", []⟩) }), w, true⟩

/-- The task of a turn whose client leaves during the last hook of its first assistant. -/
def leavingTask : Outcome Unit TurnResult :=
  relaying.task (firstTurn "a") (bare "a" (some leaving)) [.of .user "hi"] [] ()

/-- The notice of the hand-off is still sent, but the model is not asked again, nothing is kept, and
the task is canceled. -/
theorem cancellation_streamChat_leaving :
    ∃ before after, leavingTask.events = before ++ .hungUp :: after ∧ .hungUp ∉ before ∧
      (relaying.streamChat (firstTurn "a") (bare "a" (some leaving)) [.of .user "hi"] [] false
        ()).events = before ++ .hungUp :: .returned :: after ∧
      (Event.requests before).length = 1 ∧ (Event.frames after).length = 1 ∧
      Event.requests after = [] ∧ leavingTask.value.toOption = some .canceled := by
  have hleaves : leavingTask.events.any (!isThere ·) = true := by decide +kernel
  have hmem : .hungUp ∈ leavingTask.events := by
    obtain ⟨ev, hev, hgone⟩ := List.any_eq_true.1 hleaves
    cases ev with
    | hungUp => exact hev
    | _ => exact nomatch hgone
  obtain ⟨before, after, hevents, hbefore⟩ := List.eq_append_cons_of_mem hmem
  have hlate : Event.late false leavingTask.events = after := by
    rw [hevents, Event.late_of_split hbefore]
  have hframes : (Event.frames (Event.late false leavingTask.events)).length = 1 := by
    decide +kernel
  have hrequests : (Event.requests (Event.late false leavingTask.events)).length = 0 := by
    decide +kernel
  have hall : (Event.requests leavingTask.events).length = 1 := by decide +kernel
  have hvalue : leavingTask.value.toOption = some .canceled := by decide +kernel
  rw [hlate] at hframes hrequests
  have hnone : Event.requests after = [] := List.length_eq_zero_iff.1 hrequests
  have hone : (Event.requests before).length = 1 := by
    have hsplit : Event.requests leavingTask.events =
        Event.requests before ++ Event.requests after := by
      rw [hevents, Event.requests_append]
      rfl
    rw [hsplit, hnone, List.append_nil] at hall
    exact hall
  obtain ⟨hturn, -⟩ := cancellation_streamChat relaying (firstTurn "a") (bare "a" (some leaving))
    [.of .user "hi"] [] () hevents hbefore
  exact ⟨before, after, hevents, hbefore, hturn, hone, hframes, hnone, hvalue⟩

/-- An engine whose model ends its reply with the first frame. Before the backend returns, the
client may leave. -/
def leftAtEnd (leaves : Bool) : Engine Unit :=
  let frame := "\x7b\"choices\":[\x7b\"delta\":\x7b\"content\":\"hello\"\x7d," ++
    "\"finish_reason\":\"stop\"\x7d]\x7d"
  let reply := BackendReply.ofFrames [Text.utf8 frame.toList]
  { Engine.of {} (.ofAssistants [bare "a" none]) fun _ _ =>
      .known { reply with hangUpOnceStopped := leaves } with
    archive := some ⟨fun _ _ => .known (.ok []), fun _ _ _ _ => .known (.ok ())⟩ }

/-- If it does, the turn is canceled and nothing is kept of it, though the reply is whole. -/
example : ∀ leaves : Bool,
    let task := (leftAtEnd leaves).task { firstTurn "a" with sessionId := "s" } (bare "a" none)
      [.of .user "hi"] [] ()
    Event.deliveries task.events = [(1, true)] ∧
      task.value.toOption = some (if leaves then .canceled else .completed) ∧
      (Event.kept task.events).length = if leaves then 0 else 1 := by
  decide +kernel

end Engine

end ChatRelay
