import ChatRelay.Proofs.Turn.Legs

/-!
# The protocol of a turn

What the client of a turn is sent, when it does not hang up. First come the streams of the
assistants that are called, one after another, with a notice before each but the first. Then comes
at most one frame that ends the turn, and its result says what that frame says (`frames_execute`).
The parts of a turn in which an error may arise, before the first leg, within one, or between two,
all report it in the same place: `settle`, or the conclusion of the leg, but never both.
-/

namespace ChatRelay

open Json (Value Object)

namespace Engine

variable {σ : Type} {e : Engine σ}

/-! ### The frames of a run -/

/-- Pieces do not end a turn and are no errors. -/
theorem quiet_of_isPiece {f : Frame} (h : f.IsPiece) : f.done = false ∧ f.isError = false := by
  obtain ⟨text, kind, hkind, rfl⟩ := h
  exact ⟨rfl, by simpa [Frame.isError, Frame.piece] using hkind⟩

/-- The frames of a stream do not end a turn and are no errors. -/
theorem quiet_of_isStreamOf {s : Summons σ} {fs : List Frame} (h : e.IsStreamOf s fs) :
    ∀ f ∈ fs, f.done = false ∧ f.isError = false := by
  intro f hf
  unfold IsStreamOf at h
  split at h
  · cases fs with
    | nil => exact absurd hf List.not_mem_nil
    | cons g gs =>
      obtain ⟨⟨piece, hpiece, rfl⟩, hgs⟩ := h
      rcases List.mem_cons.1 hf with rfl | hf
      · have hquiet := quiet_of_isPiece hpiece
        exact ⟨hquiet.1, hquiet.2⟩
      · exact quiet_of_isPiece (hgs f hf)
  · subst h
    exact absurd hf List.not_mem_nil

/-- No frame of a run but the last ends the turn or is an error. -/
theorem quiet_of_mem_relay {streams : List (Summons σ × List Frame)}
    (h : ∀ p ∈ streams, e.IsStreamOf p.1 p.2) :
    ∀ f ∈ relay streams, f.done = false ∧ f.isError = false := by
  intro f hf
  cases streams with
  | nil => exact absurd hf List.not_mem_nil
  | cons p rest =>
    rcases List.mem_append.1 hf with hf | hf
    · exact quiet_of_isStreamOf (h p (by simp)) f hf
    · obtain ⟨q, hq, hf⟩ := List.mem_flatMap.1 hf
      rcases List.mem_cons.1 hf with rfl | hf
      · exact ⟨rfl, rfl⟩
      · exact quiet_of_isStreamOf (h q (List.mem_cons_of_mem _ hq)) f hf

/-! ### Turns -/

/-- A turn is prepared. -/
theorem obeys_prepare (c : TurnContext) (input : Message) :
    (e.prepare c input).Obeys Event.Prepares e.MayFail := by
  unfold prepare
  have hresolve := mayFail_of_ne_canceled (e := e) (e.assistants.resolve_ne_canceled c.assistantId)
  refine .bind (Flow.obeys_ofResult hresolve) fun a => ?_
  exact (obeys_conversation _ _ _).bind fun _ => Flow.obeys_pure _

/-- The calls of assistants in a turn. -/
def callsOf (e : Engine σ) (c : TurnContext) (input : Message) (caller : Object) (w : σ) :
    List (Summons σ) :=
  match (e.prepare c input).run w false with
  | ⟨.ok (a, messages), _, w, h⟩ =>
    e.calls (e.settings.maxDepth + 1 - c.depth) ⟨c, a, messages, caller⟩ w h
  | _ => []

/-- The client hangs up no less if its caller returns then. -/
theorem mem_returnAtHangUp {ev : Event} {events : List Event} (h : ev ∈ events) :
    ev ∈ returnAtHangUp events := by
  fun_induction returnAtHangUp events with
  | case1 => exact absurd h List.not_mem_nil
  | case2 rest =>
    rcases List.mem_cons.1 h with rfl | h
    · simp
    · simp [h]
  | case3 event rest _ ih =>
    rcases List.mem_cons.1 h with rfl | h
    · simp
    · exact List.mem_cons_of_mem _ (ih h)

/-- The result of a turn whose client is there, and what is sent with it. A failure is reported,
unless it says that the turn is canceled. -/
def settled : Result TurnResult → TurnResult × List Event
  | .ok r => (r, [])
  | .error x =>
    if x.isReportable then (.failed x.message, [.frame (.failed x.message)]) else (.canceled, [])

/-- A failure other than that the turn is canceled is reported. -/
theorem settled_of_ne_canceled {x : Failure} (hx : x ≠ .canceled) :
    settled (.error x) = (.failed x.message, [.frame (.failed x.message)]) := by
  refine if_pos ?_
  cases hr : x.isReportable with
  | true => rfl
  | false => exact absurd ((Failure.isReportable_eq_false_iff x).1 hr) hx

/-- A run settles for its result, or for its failure. -/
theorem run_settle {f : Flow σ TurnResult} {w : σ} {h : Bool}
    (hthere : (f.run w h).hungUp = false) :
    (settle f).run w h =
      ⟨.ok (settled (f.run w h).value).1, (f.run w h).events ++ (settled (f.run w h).value).2,
        (f.run w h).world, false⟩ := by
  unfold settle
  rw [Flow.run_attempt_bind]
  cases hv : (f.run w h).value with
  | ok r => simp [settled, hthere]
  | error x =>
    dsimp only
    rw [Flow.run_hasHungUp_bind, hthere]
    cases hx : x.isReportable <;> simp [settled, hx, run_endWithError]

/-- What happens in a run happens in the background of its caller. -/
theorem mem_inBackground {f : Flow σ TurnResult} {w : σ} {ev : Event}
    (h : ev ∈ (f.run w false).events) : ev ∈ (inBackground f w false).events := by
  have hsettle : ev ∈ ((settle f).run w false).events :=
    Flow.mem_events_bind (f := f.attempt) h _
  unfold inBackground
  dsimp only
  rw [if_neg nofun]
  split
  · exact mem_returnAtHangUp hsettle
  · split <;> exact List.mem_append_left _ hsettle

/-- A turn in which the client does not hang up is a run in which it does not. -/
theorem hungUp_eq_false {f : Flow σ TurnResult} {p : Event → Prop} {q : Failure → Prop}
    (hf : f.Obeys p q) {w : σ} (h : .hungUp ∉ (inBackground f w false).events) :
    (f.run w false).hungUp = false :=
  hf.hungUp_eq_false fun hev => h (mem_inBackground hev)

/-- A turn whose client stays is what its run settles for. -/
theorem inBackground_eq {f : Flow σ TurnResult} {w : σ}
    (hthere : (f.run w false).hungUp = false) :
    inBackground f w false =
      ⟨(settled (f.run w false).value).1,
        (f.run w false).events ++ (settled (f.run w false).value).2 ++ [.returned],
        (f.run w false).world⟩ := by
  unfold inBackground
  rw [run_settle hthere]
  rfl

/-- A turn for a conversation is a run of legs in the background. -/
theorem streamChat_eq (c : TurnContext) (a : Assistant σ) (messages : List Message)
    (caller : Object) (h : Bool) (w : σ) :
    e.streamChat c a messages caller h w =
      inBackground (e.serve (e.settings.maxDepth + 1 - c.depth) ⟨c, a, messages, caller⟩) w h := rfl

/-- What is sent in a turn for a conversation. -/
theorem sent_streamChat (c : TurnContext) (a : Assistant σ) (messages : List Message)
    (caller : Object) (w : σ) (hcanceled : ¬e.Gives .canceled)
    (hhungUp : .hungUp ∉ (e.streamChat c a messages caller false w).events) :
    ∃ (streams : List (Summons σ × List Frame)) (last : Option Frame),
      streams.map Prod.fst =
        e.calls (e.settings.maxDepth + 1 - c.depth) ⟨c, a, messages, caller⟩ w false ∧
      (∀ p ∈ streams, e.IsStreamOf p.1 p.2) ∧
      Event.frames (e.streamChat c a messages caller false w).events =
        relay streams ++ last.toList ∧
      Closing
        (e.Exits (e.calls (e.settings.maxDepth + 1 - c.depth) ⟨c, a, messages, caller⟩ w false))
        (e.streamChat c a messages caller false w).result last := by
  rw [streamChat_eq] at hhungUp ⊢
  generalize e.settings.maxDepth + 1 - c.depth = levels at hhungUp ⊢
  have hobeys := obeys_serve (e := e) levels ⟨c, a, messages, caller⟩
  have hthere := hungUp_eq_false hobeys hhungUp
  obtain ⟨streams, last, hcalls, hstreams, hsent, hlast⟩ :=
    sent_serve (e := e) levels ⟨c, a, messages, caller⟩ w false
  rw [inBackground_eq hthere]
  refine ⟨streams, ?_⟩
  cases hv : ((e.serve levels ⟨c, a, messages, caller⟩).run w false).value with
  | ok r =>
    rw [hv] at hlast
    refine ⟨last, hcalls, hstreams, ?_, hlast⟩
    rw [Event.frames_append, Event.frames_append, hsent]
    simp [settled, Event.frames, Event.frame?]
  | error x =>
    -- Nothing in the engine fails as canceled, and the client has not left: the failure is told.
    have hx : x ≠ .canceled := by
      rintro rfl
      exact hcanceled (hobeys.failure w false _ hv hthere rfl)
    rw [hv] at hlast
    cases hlast
    rw [settled_of_ne_canceled hx]
    refine ⟨some (.failed x.message), hcalls, hstreams, ?_, .failed _⟩
    rw [Event.frames_append, Event.frames_append, hsent]
    simp [Event.frames, Event.frame?]

/-- A turn in which the client does not hang up is prepared while it is there. -/
theorem hungUp_prepare_eq_false {c : TurnContext} {input : Message} {caller : Object} {w : σ}
    (h : .hungUp ∉ (e.execute c input caller false w).events) :
    ((e.prepare c input).run w false).hungUp = false := by
  refine (obeys_prepare c input).hungUp_eq_false fun hev => h ?_
  unfold execute
  dsimp only
  split <;> exact List.mem_append_left _ hev

/-- What is sent in a turn. -/
theorem sent_execute (c : TurnContext) (input : Message) (caller : Object) (w : σ)
    (hcanceled : ¬e.Gives .canceled)
    (hhungUp : .hungUp ∉ (e.execute c input caller false w).events) :
    ∃ (streams : List (Summons σ × List Frame)) (last : Option Frame),
      streams.map Prod.fst = e.callsOf c input caller w ∧
      (∀ p ∈ streams, e.IsStreamOf p.1 p.2) ∧
      Event.frames (e.execute c input caller false w).events = relay streams ++ last.toList ∧
      Closing (e.Exits (e.callsOf c input caller w))
        (e.execute c input caller false w).result last := by
  have hquiet := (obeys_prepare (e := e) c input).frames_of_prepares w false
  have hthere := hungUp_prepare_eq_false hhungUp
  unfold execute callsOf at *
  generalize (e.prepare c input).run w false = o at hquiet hthere hhungUp ⊢
  obtain ⟨value, events, w', h'⟩ := o
  cases value with
  | error x =>
    refine ⟨[], some (.failed x.message), rfl, by simp, ?_, .failed _⟩
    dsimp only at hquiet ⊢
    rw [Event.frames_append, hquiet]
    rfl
  | ok prepared =>
    obtain ⟨a, messages⟩ := prepared
    cases hthere
    dsimp only at hquiet hhungUp ⊢
    rw [Event.frames_append, hquiet, List.nil_append]
    exact sent_streamChat c a messages caller w' hcanceled fun h =>
      hhungUp (List.mem_append_right _ h)

/-- What the client of a turn is sent if it does not hang up and no collaborator claims that the
turn is canceled: the streams of the assistants that are called, with the notice of each call but
the first before its stream, and then at most one frame that ends the turn. Nothing before that
frame ends the turn or is an error. The turn fails exactly if that frame is an error, which then is
the error of the result. It is completed exactly if that frame is no error, or if there is no such
frame since the last hook asks to exit. -/
theorem frames_execute (c : TurnContext) (input : Message) (caller : Object) (w : σ)
    (hcanceled : ¬e.Gives .canceled)
    (hhungUp : .hungUp ∉ (e.execute c input caller false w).events) :
    ∃ (streams : List (Summons σ × List Frame)) (last : Option Frame),
      streams.map Prod.fst = e.callsOf c input caller w ∧
      (∀ p ∈ streams, e.IsStreamOf p.1 p.2) ∧
      Event.frames (e.execute c input caller false w).events = relay streams ++ last.toList ∧
      (∀ f ∈ relay streams, f.done = false ∧ f.isError = false) ∧
      (∀ f ∈ last, f.done = true) ∧
      ((e.execute c input caller false w).result.status = .failed ↔
        ∃ message, last = some (.failed message) ∧
          (e.execute c input caller false w).result.error = some message) ∧
      ((e.execute c input caller false w).result.status = .completed ↔
        (∃ f, last = some f ∧ f.isError = false) ∨
          (last = none ∧ e.Exits (e.callsOf c input caller w))) ∧
      (e.execute c input caller false w).result.status ≠ .canceled := by
  obtain ⟨streams, last, hcalls, hstreams, hsent, hlast⟩ := sent_execute c input caller w hcanceled
    hhungUp
  exact ⟨streams, last, hcalls, hstreams, hsent, quiet_of_mem_relay hstreams, hlast.done,
    hlast.failed_iff, hlast.completed_iff, hlast.not_canceled⟩

/-- An assistant with nothing of its own but an id and a last hook. -/
def bare (id : String) (done : Option (Hook Unit)) : Assistant Unit where
  id := id
  name := id
  avatar := none
  connector := ""
  options := []
  prompts := []
  tools := none
  vision := false
  hooks := { done }

/-- A first turn with an assistant, outside of any session. -/
def firstTurn (assistantId : String) : TurnContext where
  turnId := .nil
  sessionId := ""
  chatId := ""
  assistantId := assistantId
  vision := false
  rag := false
  depth := 0

/-- An engine of two assistants that both say hello, of which the first hands on to the second. -/
def relaying : Engine Unit :=
  let handOn : Hook Unit := fun _ =>
    .known (.ok (some { next := some (.handOff ⟨"b", .raw "go on", []⟩) }))
  .of {} (.ofAssistants [bare "a" (some handOn), bare "b" none]) fun _ _ =>
    .known (.ofFrames [Text.utf8 "\x7b\"text\":\"hello\"\x7d".toList])

/-- Whether an event leaves the client there. -/
def isThere : Event → Bool
  | .hungUp => false
  | _ => true

/-- The client has not hung up if every event leaves it there. -/
theorem hungUp_not_mem {es : List Event} (h : es.all isThere = true) : Event.hungUp ∉ es :=
  fun hmem => Bool.false_ne_true (List.all_eq_true.1 h _ hmem)

/-- Of a turn that is handed on once the client is sent two streams, the second after a notice. -/
theorem frames_execute_relaying :
    ∃ (streams : List (Summons Unit × List Frame)) (last : Option Frame),
      streams.length = 2 ∧
      Event.frames (relaying.execute (firstTurn "a") (.of .user "hi") [] false ()).events =
        relay streams ++ last.toList ∧
      (∀ f ∈ relay streams, f.done = false ∧ f.isError = false) ∧
      (∀ f ∈ last, f.done = true) ∧
      (relaying.execute (firstTurn "a") (.of .user "hi") [] false ()).result.status =
        .completed := by
  have hcanceled : ¬relaying.Gives .canceled := by
    intro h
    cases h with
    | load h => cases h
    | find h => cases h
    | read h => cases h
    | backend _ _ _ _ hx => cases hx
  have hthere : (relaying.execute (firstTurn "a") (.of .user "hi") [] false ()).events.all isThere =
      true := by decide +kernel
  obtain ⟨streams, last, hcalls, -, hsent, hquiet, hdone, -⟩ :=
    frames_execute (firstTurn "a") (.of .user "hi") [] () hcanceled (hungUp_not_mem hthere)
  refine ⟨streams, last, ?_, hsent, hquiet, hdone, by decide +kernel⟩
  rw [← List.length_map Prod.fst, hcalls]
  decide +kernel

end Engine

end ChatRelay
