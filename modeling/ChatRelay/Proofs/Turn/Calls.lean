import ChatRelay.Proofs.Turn.Course
import ChatRelay.Proofs.Turn.Protocol

/-!
# The calls of a turn

A turn is prepared, and then is a run in the background of its caller. What an observer sees of it,
other than the caller's return and the report of a failure, is what happens in the calls of that run
(`filterMap_events_execute`). If the client stays, the turn is the course of the run and what it
settles for (`exists_course`).
-/

namespace ChatRelay

open Json (Value Object)

namespace Event

end Event

namespace Engine

variable {σ : Type} {e : Engine σ}

/-- The calls of assistants in a turn, whose client may have hung up before. -/
def callsIn (e : Engine σ) (c : TurnContext) (input : Message) (caller : Object) (hungUp : Bool)
    (w : σ) : List (Summons σ) :=
  match (e.prepare c input).run w hungUp with
  | ⟨.ok (a, messages), _, w, h⟩ =>
    e.calls (e.settings.maxDepth + 1 - c.depth) ⟨c, a, messages, caller⟩ w h
  | _ => []

/-! ### What an observer sees -/

/-- The caller's return is seen, or nothing changes. -/
theorem filterMap_returnAtHangUp {β : Type} {g : Event → Option β} (hreturned : g .returned = none)
    (events : List Event) : (returnAtHangUp events).filterMap g = events.filterMap g := by
  fun_induction returnAtHangUp events with
  | case1 => simp [hreturned]
  | case2 rest => simp [List.filterMap_cons, hreturned]
  | case3 event rest _ ih => simp only [List.filterMap_cons, ih]

/-- The caller returns when the client hangs up, and so not among events before that. -/
theorem returnAtHangUp_append {before : List Event} (h : .hungUp ∉ before) (after : List Event) :
    returnAtHangUp (before ++ after) = before ++ returnAtHangUp after := by
  induction before with
  | nil => rfl
  | cons ev before ih =>
    obtain ⟨hev, hbefore⟩ := not_or.1 (mt List.mem_cons.2 h)
    cases ev with
    | hungUp => exact absurd rfl hev
    | _ => exact congrArg _ (ih hbefore)

/-- What a run settles for is at most told in one frame. -/
theorem events_settle (f : Flow σ TurnResult) (w : σ) (h : Bool) :
    ∃ fs : List Frame,
      ((settle f).run w h).events = (f.run w h).events ++ fs.map .frame := by
  unfold settle
  rw [Flow.run_attempt_bind]
  cases (f.run w h).value with
  | ok r => exact ⟨[], rfl⟩
  | error x =>
    dsimp only
    rw [Flow.run_hasHungUp_bind]
    split
    · exact ⟨[], rfl⟩
    · exact ⟨[.failed x.message], rfl⟩

/-- A run in the background shows what it shows, for those who look neither at frames nor at the
caller's return. -/
theorem filterMap_events_inBackground {β : Type} {g : Event → Option β}
    (hreturned : g .returned = none) (hframe : ∀ f, g (.frame f) = none)
    (f : Flow σ TurnResult) (w : σ) (h : Bool) :
    (inBackground f w h).events.filterMap g = (f.run w h).events.filterMap g := by
  obtain ⟨fs, hfs⟩ := events_settle f w h
  have hsettle : ((settle f).run w h).events.filterMap g = (f.run w h).events.filterMap g := by
    rw [hfs, List.filterMap_append, List.filterMap_map]
    have hnone : fs.filterMap (g ∘ Event.frame) = [] :=
      List.filterMap_eq_nil_iff.2 fun f _ => hframe f
    rw [hnone, List.append_nil]
  unfold inBackground
  dsimp only
  split
  · rw [List.filterMap_cons_none hreturned]
    exact hsettle
  split
  · rw [filterMap_returnAtHangUp hreturned]
    exact hsettle
  · split <;> simp [hreturned, hsettle]

/-- A turn shows what its calls show, for those who look neither at what prepares it nor at frames
nor at the caller's return. -/
theorem filterMap_events_execute {β : Type} {g : Event → Option β}
    (hreturned : g .returned = none) (hframe : ∀ f, g (.frame f) = none)
    (hprepares : ∀ ev, ev.Prepares → g ev = none) (c : TurnContext) (input : Message)
    (caller : Object) (hungUp : Bool) (w : σ) :
    (e.execute c input caller hungUp w).events.filterMap g =
      (e.callsIn c input caller hungUp w).flatMap fun s => (e.played s).events.filterMap g := by
  have hbefore : ((e.prepare c input).run w hungUp).events.filterMap g = [] :=
    List.filterMap_eq_nil_iff.2 fun ev hev =>
      hprepares ev ((obeys_prepare (e := e) c input).event w hungUp ev hev)
  unfold execute callsIn
  generalize (e.prepare c input).run w hungUp = o at hbefore ⊢
  obtain ⟨value, before, w', h'⟩ := o
  cases value with
  | error x =>
    dsimp only at hbefore ⊢
    simp [hbefore, hframe, hreturned]
  | ok prepared =>
    obtain ⟨a, messages⟩ := prepared
    dsimp only at hbefore ⊢
    rw [List.filterMap_append, hbefore, List.nil_append, streamChat_eq,
      filterMap_events_inBackground hreturned hframe]
    have hcourse := course_serve (e := e) (e.settings.maxDepth + 1 - c.depth)
      ⟨c, a, messages, caller⟩ w' h'
    rw [hcourse.events_eq, List.filterMap_flatMap]

/-- A run that the client has left settles for its result, or is canceled, and tells nothing. -/
theorem run_settle_of_hungUp {f : Flow σ TurnResult} {w : σ} {h : Bool}
    (hgone : (f.run w h).hungUp = true) :
    (settle f).run w h =
      ⟨.ok ((f.run w h).value.toOption.getD .canceled), (f.run w h).events, (f.run w h).world,
        true⟩ := by
  unfold settle
  rw [Flow.run_attempt_bind]
  cases (f.run w h).value with
  | ok r => simp [hgone, Except.toOption]
  | error x => simp [Flow.run_hasHungUp_bind, hgone, Except.toOption]

/-- To settle for a result nobody is asked. -/
theorem hungUp_settle (f : Flow σ TurnResult) (w : σ) (h : Bool) :
    ((settle f).run w h).hungUp = (f.run w h).hungUp := by
  cases hgone : (f.run w h).hungUp with
  | true => rw [run_settle_of_hungUp hgone]
  | false => rw [run_settle hgone]

/-- In a run that the client does not leave, it leaves none of the calls. -/
theorem Course.there {s : Summons σ} {calls : List (Summons σ)} {o : Outcome σ TurnResult}
    (h : e.Course s calls o) (hs : s.hungUp = false) (hnever : .hungUp ∉ o.events) :
    ∀ t ∈ calls, t.hungUp = false ∧ .hungUp ∉ (e.played t).events := by
  have hquiet : ∀ t ∈ calls, .hungUp ∉ (e.played t).events := by
    intro t ht hev
    rw [h.events_eq] at hnever
    exact hnever (List.mem_flatMap.2 ⟨t, ht, hev⟩)
  have hthere : ∀ t ∈ calls, t.hungUp = false := by
    refine h.forall_mem hs fun t ht u hhands hbefore => ?_
    rw [hhands.hungUp]
    exact there_of_iff (hungUp_played_iff t) hbefore (hquiet t ht)
  exact fun t ht => ⟨hthere t ht, hquiet t ht⟩

/-- Of the frames of a run only the last may end the turn or be an error: the one with which the run
tells of its result, if it has one. -/
theorem Course.exists_last {s : Summons σ} {calls : List (Summons σ)} {o : Outcome σ TurnResult}
    (h : e.Course s calls o) :
    ∃ quiet exits last, Event.frames o.events = quiet ++ last.toList ∧
      (∀ f ∈ quiet, f.done = false ∧ f.isError = false) ∧
      match o.value with
      | .ok r => Closing exits r last
      | .error _ => last = none := by
  have hsent (s : Summons σ) : ∃ fs tail, Event.frames (e.played s).events = fs ++ tail ∧
      e.IsStreamOf s fs ∧ Sends (AsksToExit (e.finalReply s)) tail (e.played s).value :=
    sent_play s.levels s.brief s.world s.hungUp
  induction h with
  | @failed s x h =>
    obtain ⟨fs, tail, hframes, hstream, hsends⟩ := hsent s
    rw [h] at hsends
    cases hsends
    refine ⟨fs, True, none, ?_, quiet_of_isStreamOf hstream, rfl⟩
    rw [Outcome.events_failing, hframes]
    rfl
  | @ended s r h =>
    obtain ⟨fs, tail, hframes, hstream, hsends⟩ := hsent s
    rw [h] at hsends
    obtain ⟨last, rfl, hclosing⟩ := hsends
    refine ⟨fs, _, last, ?_, quiet_of_isStreamOf hstream, hclosing⟩
    rw [Outcome.events_before, List.append_nil, hframes]
  | @handedOn s t calls o h rest ih =>
    obtain ⟨quiet, exits, last, hlast, hquiet, hvalue⟩ := ih
    obtain ⟨fs, tail, hframes, hstream, hsends⟩ := hsent s
    -- What is sent on handing on is a notice, and the rest of the run sends the last frame.
    rw [h.value] at hsends
    cases hsends
    refine ⟨fs ++ [t.brief.assistant.notice] ++ quiet, exits, last, ?_, ?_, hvalue⟩
    · rw [Outcome.events_before, Event.frames_append, hframes, hlast, ← List.append_assoc]
    · intro f hf
      rcases List.mem_append.1 hf with hf | hf
      · rcases List.mem_append.1 hf with hf | hf
        · exact quiet_of_isStreamOf hstream f hf
        · rw [List.mem_singleton.1 hf]
          exact ⟨rfl, rfl⟩
      · exact hquiet f hf

/-- A turn that the client does not leave fails before any call, or is prepared and takes the course
of its calls, and is what that settles for. -/
theorem exists_course {c : TurnContext} {input : Message} {caller : Object} {w : σ}
    (hhungUp : .hungUp ∉ (e.execute c input caller false w).events) :
    ∃ before, (∀ ev ∈ before, ev.Prepares) ∧
      ((∃ x : Failure, e.callsOf c input caller w = [] ∧
          (e.execute c input caller false w).result = .failed x.message ∧
          (e.execute c input caller false w).events =
            before ++ [.frame (.failed x.message), .returned]) ∨
        ∃ s o, e.Course s (e.callsOf c input caller w) o ∧
          s.brief.context = c ∧ s.levels = e.settings.maxDepth + 1 - c.depth ∧
          s.hungUp = false ∧ .hungUp ∉ o.events ∧
          (e.execute c input caller false w).result = (settled o.value).1 ∧
          (e.execute c input caller false w).events =
            before ++ (o.events ++ ((settled o.value).2 ++ [.returned]))) := by
  have hprepares := (obeys_prepare (e := e) c input).event w false
  have hthere := hungUp_prepare_eq_false hhungUp
  unfold execute callsOf at *
  generalize (e.prepare c input).run w false = o at hprepares hthere hhungUp ⊢
  obtain ⟨value, before, w', h'⟩ := o
  refine ⟨before, hprepares, ?_⟩
  cases value with
  | error x =>
    left
    exact ⟨x, rfl, rfl, rfl⟩
  | ok prepared =>
    right
    obtain ⟨a, messages⟩ := prepared
    cases hthere
    dsimp only at hhungUp ⊢
    have hchat : .hungUp ∉ (e.streamChat c a messages caller false w').events := fun h =>
      hhungUp (List.mem_append_right _ h)
    rw [streamChat_eq] at hchat ⊢
    -- Once prepared, the turn is its run in the background, which the client sees to the end.
    have hcourse := course_serve (e := e) (e.settings.maxDepth + 1 - c.depth)
      ⟨c, a, messages, caller⟩ w' false
    have hrun := hungUp_eq_false (obeys_serve _ ⟨c, a, messages, caller⟩) hchat
    rw [inBackground_eq hrun]
    refine ⟨_, _, hcourse, rfl, rfl, rfl, fun h => hchat (mem_inBackground h), rfl, ?_⟩
    simp only [List.append_assoc]

end Engine

end ChatRelay
