import ChatRelay.Proofs.Reply.Reading
import ChatRelay.Proofs.Turn.Preparation
import ChatRelay.Turn.Stream

/-!
# What a stream sends

The frames that go to the client while a reply is streamed are what the reply says: pieces of it, of
which the first tells who answers (`arePieces_stream`). This is an invariant of what the backend
delivers, `Streaming.Sound`, and holds whatever is delivered, also when the client hangs up in
between. The stream itself is taken apart into its request and what follows it (`run_streamOf`).
-/

namespace ChatRelay

open Json (Value Object)

/-- What belongs to the completion of a leg: its last hook and the archive. -/
inductive Event.Completes : Event → Prop
  | hook (input : HookInput) : Completes (.hook .done input)
  | save (session chat : String) (records : List Record) (metadata : Object) :
    Completes (.save session chat records metadata)

/-- Before a request nothing is completed. -/
theorem Event.Prepares.not_completes {ev : Event} (h : ev.Prepares) : ¬ev.Completes := by
  cases h <;> exact nofun

/-- An event that is no frame sends none. -/
theorem Event.frames_cons_of_none {ev : Event} (h : ev.frame? = none) (events : List Event) :
    Event.frames (ev :: events) = Event.frames events :=
  List.filterMap_cons_none h

/-- Frames of a list are sent as they are. -/
@[simp] theorem Event.frames_map_frame (fs : List Frame) : Event.frames (fs.map .frame) = fs := by
  unfold frames
  rw [List.filterMap_map]
  exact List.filterMap_some

namespace BackendReply

variable {τ : Type} {onFrame : τ → List UInt8 → τ × Bool} {onHangUp : τ → τ}

/-- A reply is delivered by handing its deliveries over. If that stops the backend, the client may
hang up on top of it. -/
theorem deliver_cases (r : BackendReply) (t : τ) :
    let d := handOver onFrame onHangUp r.deliveries 0 t
    (d.stopped = true → r.hangUpOnceStopped = false) ∧ r.deliver onFrame onHangUp t = d ∨
      d.stopped = true ∧ r.hangUpOnceStopped = true ∧
        r.deliver onFrame onHangUp t = { d with taken := onHangUp d.taken } := by
  intro d
  unfold deliver
  dsimp only
  split
  · next h =>
    obtain ⟨hstopped, hhangsUp⟩ := Bool.and_eq_true_iff.1 h
    exact .inr ⟨hstopped, hhangsUp, rfl⟩
  · next h =>
    refine .inl ⟨fun hstopped => ?_, rfl⟩
    have hstopped : (handOver onFrame onHangUp r.deliveries 0 t).stopped = true := hstopped
    rwa [hstopped, Bool.true_and, Bool.not_eq_true] at h

/-- Whether the backend is stopped depends on its deliveries alone. -/
theorem stopped_deliver (r : BackendReply) (t : τ) :
    (r.deliver onFrame onHangUp t).stopped =
      (handOver onFrame onHangUp r.deliveries 0 t).stopped := by
  rcases r.deliver_cases t with ⟨-, heq⟩ | ⟨-, -, heq⟩
  · rw [heq]
  · rw [heq]

/-- Of a client that stays once the backend is stopped nothing but the deliveries counts. -/
theorem deliver_of_stays {r : BackendReply} (h : r.hangUpOnceStopped = false) (t : τ) :
    r.deliver onFrame onHangUp t = handOver onFrame onHangUp r.deliveries 0 t := by
  rcases r.deliver_cases t with ⟨-, heq⟩ | ⟨-, hleaves, -⟩
  · exact heq
  · exact nomatch h.symm.trans hleaves

/-- What holds before deliveries and is kept by each frame and each hang-up holds after them. -/
theorem handOver_preserves {P : τ → Prop} (hframe : ∀ t bytes, P t → P (onFrame t bytes).1)
    (hhangUp : ∀ t, P t → P (onHangUp t)) (deliveries : List Delivery) (count : Nat) {t : τ}
    (ht : P t) : P (handOver onFrame onHangUp deliveries count t).taken := by
  induction deliveries generalizing count t with
  | nil => exact ht
  | cons d rest ih =>
    cases d with
    | hangUp => exact ih count (hhangUp t ht)
    | frame bytes =>
      have hnext := hframe t bytes ht
      unfold handOver
      dsimp only
      split
      · exact ih _ hnext
      · exact hnext

/-- What holds before a reply is delivered and is kept by each frame and each hang-up holds when the
backend has returned. -/
theorem deliver_preserves {P : τ → Prop} (hframe : ∀ t bytes, P t → P (onFrame t bytes).1)
    (hhangUp : ∀ t, P t → P (onHangUp t)) (r : BackendReply) {t : τ} (ht : P t) :
    P (r.deliver onFrame onHangUp t).taken := by
  have hover := handOver_preserves hframe hhangUp r.deliveries 0 ht
  rcases r.deliver_cases t with ⟨-, heq⟩ | ⟨-, -, heq⟩
  · rw [heq]
    exact hover
  · rw [heq]
    exact hhangUp _ hover

end BackendReply

namespace Engine

variable {σ : Type} {e : Engine σ}

/-! ### Deliveries -/

/-- While frames are taken, from a client that had hung up or not, the frames that go out are what
the reply says, and nothing else happens but that the client hangs up. -/
structure Streaming.Sound (who : Identity) (hungUp : Bool) (s : Streaming) : Prop where
  speaks : (Reply.start who .empty).Speaks (Event.frames s.events) s.reply
  event : ∀ ev ∈ s.events, ¬ev.Completes
  hungUp_iff : s.hungUp = true ↔ hungUp = true ∨ .hungUp ∈ s.events

/-- A stream that has not begun. -/
theorem Streaming.sound_start (who : Identity) (hungUp : Bool) :
    (Streaming.start who hungUp).Sound who hungUp where
  speaks := Reply.speaks_nil Transcript.writtenAtEnd_empty rfl rfl rfl
  event _ hev := absurd hev List.not_mem_nil
  hungUp_iff := by simp [start]

/-- Frames of a reply complete nothing. -/
theorem not_completes_of_mem_map_frame {fs : List Frame} {ev : Event}
    (h : ev ∈ fs.map Event.frame) : ¬ev.Completes := by
  obtain ⟨f, -, rfl⟩ := List.mem_map.1 h
  exact nofun

/-- A provider frame is taken. -/
theorem Streaming.Sound.take {who : Identity} {hungUp : Bool} {s : Streaming}
    (hs : s.Sound who hungUp) (bytes : List UInt8) : (s.take bytes).1.Sound who hungUp := by
  unfold Streaming.take
  split
  · exact hs
  · refine ⟨?_, fun ev hev => ?_, ?_⟩
    · have hnext := hs.speaks.trans (Reply.speaks_step hs.speaks.writtenAtEnd (.frame bytes))
      rw [Event.frames_append, Event.frames_map_frame]
      exact hnext
    · rcases List.mem_append.1 hev with hev | hev
      · exact hs.event ev hev
      · exact not_completes_of_mem_map_frame hev
    · simpa using hs.hungUp_iff

/-- The client hangs up. -/
theorem Streaming.Sound.hangUp {who : Identity} {hungUp : Bool} {s : Streaming}
    (hs : s.Sound who hungUp) : s.hangUp.Sound who hungUp where
  speaks := by
    have hframes : Event.frames s.hangUp.events = Event.frames s.events := by
      show Event.frames (s.events ++ [.hungUp]) = _
      rw [Event.frames_append]
      exact List.append_nil _
    rw [hframes]
    exact hs.speaks
  event ev hev := by
    rcases List.mem_append.1 hev with hev | hev
    · exact hs.event ev hev
    · rw [List.mem_singleton.1 hev]
      exact nofun
  hungUp_iff := by simp [Streaming.hangUp]

/-- What a backend delivers to a stream. -/
def delivered (who : Identity) (hungUp : Bool) (r : BackendReply) : Delivered Streaming :=
  r.deliver Streaming.take Streaming.hangUp (.start who hungUp)

/-- What a stream takes is what is handed over. If that stops the backend, the client may hang up on
top of it. -/
theorem delivered_cases (who : Identity) (hungUp : Bool) (r : BackendReply) :
    let d :=
      BackendReply.handOver Streaming.take Streaming.hangUp r.deliveries 0 (.start who hungUp)
    (d.stopped = true → r.hangUpOnceStopped = false) ∧ delivered who hungUp r = d ∨
      d.stopped = true ∧ r.hangUpOnceStopped = true ∧
        delivered who hungUp r = { d with taken := d.taken.hangUp } :=
  r.deliver_cases _

/-- Whatever is delivered, the stream is sound. -/
theorem sound_delivered (who : Identity) (hungUp : Bool) (r : BackendReply) :
    (delivered who hungUp r).taken.Sound who hungUp :=
  r.deliver_preserves (fun _ bytes hs => hs.take bytes) (fun _ hs => hs.hangUp)
    (Streaming.sound_start who hungUp)

/-! ### The end of a stream -/

/-- The reply at the end of a stream, which ends it unless the provider did or something is left
unread. -/
def Streaming.ended (s : Streaming) : Reply.Advance :=
  if s.step = .more ∧ s.reply.pending = [] then s.reply.close else ⟨s.reply, [], s.step⟩

/-- How a stream has ended, by the reply at its end. -/
def streamEndOf (a : Reply.Advance) : StreamEnd :=
  match a.step with
  | .failed raw => .failed raw a.reply.transcript
  | _ =>
    if a.reply.pending = [] then .done a.reply.transcript a.reply.asides
    else .unread a.reply.pending

/-- A stream ends with a value, and with the frames of the reply's end. -/
theorem run_closeStream (s : Streaming) (w : σ) (h : Bool) :
    (closeStream s).run w h = ⟨.ok (streamEndOf s.ended), s.ended.frames.map .frame, w, h⟩ := by
  unfold closeStream Streaming.ended streamEndOf
  split
  · dsimp only
    rw [Flow.run_bind_of_ok (a := ()) rfl, Flow.pure_bind_eq]
    dsimp only
    cases hstep : s.reply.close.step with
    | failed raw => simp
    | _ => by_cases hp : s.reply.close.reply.pending = [] <;> simp [hp]
  · dsimp only
    cases hstep : s.step with
    | failed raw => simp
    | _ => by_cases hp : s.reply.pending = [] <;> simp [hp]

/-- How a stream ends: with the error of the provider, with what is left unread, or well. -/
theorem streamEndOf_ended (s : Streaming) :
    streamEndOf s.ended =
      match s.step with
      | .failed raw => .failed raw s.reply.transcript
      | _ =>
        if s.reply.pending = [] then .done s.ended.reply.transcript s.ended.reply.asides
        else .unread s.reply.pending := by
  have hsame (h : ¬(s.step = .more ∧ s.reply.pending = [])) : s.ended = ⟨s.reply, [], s.step⟩ :=
    if_neg h
  cases hstep : s.step with
  | failed raw =>
    rw [hsame (by simp [hstep]), hstep]
    rfl
  | done =>
    rw [hsame (by simp [hstep]), hstep]
    rfl
  | more =>
    dsimp only
    by_cases hpending : s.reply.pending = []
    · rw [if_pos hpending]
      have hended : s.ended = s.reply.close := if_pos ⟨hstep, hpending⟩
      have hdone : s.reply.close.step = .done := Reply.step_take _ _
      have hread : s.reply.close.reply.pending = [] := (Reply.pending_take _ _).trans hpending
      unfold streamEndOf
      rw [hended, hdone]
      exact if_pos hread
    · rw [if_neg hpending, hsame (by simp [hpending]), hstep]
      exact if_neg hpending

/-- A stream ends well if the provider has reported no error and nothing is left unread. -/
theorem streamEndOf_ended_eq_done_iff {s : Streaming} {t : Transcript} {asides : List Message} :
    streamEndOf s.ended = .done t asides ↔
      (s.step = .more ∨ s.step = .done) ∧ s.reply.pending = [] ∧
        s.ended.reply.transcript = t ∧ s.ended.reply.asides = asides := by
  rw [streamEndOf_ended]
  cases s.step with
  | failed raw => simp
  | _ => by_cases hpending : s.reply.pending = [] <;> simp [hpending]

/-- The end of a sound stream is what the reply says. -/
theorem Streaming.Sound.speaks_ended {who : Identity} {hungUp : Bool} {s : Streaming}
    (hs : s.Sound who hungUp) :
    (Reply.start who .empty).Speaks (Event.frames s.events ++ s.ended.frames) s.ended.reply := by
  unfold Streaming.ended
  split
  · exact hs.speaks.trans (Reply.speaks_step hs.speaks.writtenAtEnd .close)
  · simpa using hs.speaks

/-! ### Streams -/

/-- What follows the delivery of a reply. A failure of the backend counts if it has not ended. -/
def afterDelivery (r : BackendReply) (d : Delivered Streaming) : Flow σ StreamEnd := do
  if ← Flow.hasHungUp then .fail .canceled
  else
    match r.ending d.stopped, d.taken.step with
    | some f, .more => .fail f
    | _, _ => closeStream d.taken

/-- The stream of a reply to a request. -/
def streamOf (e : Engine σ) (l : Leg σ) (request : List Value) : Flow σ StreamEnd := do
  Flow.tell [.request request l.options]
  let reply ← Flow.call (e.backend request l.options)
  let d ← receive l.assistant.identity reply
  afterDelivery reply d

/-- A stream is that of its request. -/
theorem stream_eq (l : Leg σ) :
    e.stream l = e.requestFor l.assistant l.messages >>= fun request => e.streamOf l request := rfl

/-- What is received is what the backend delivers, and then its count. -/
theorem run_receive (who : Identity) (r : BackendReply) (w : σ) (h : Bool) :
    (receive who r).run w h =
      ⟨.ok (delivered who h r),
        (delivered who h r).taken.events ++
          [.delivered (delivered who h r).count (delivered who h r).stopped],
        w, (delivered who h r).taken.hungUp⟩ := rfl

/-- Frames are received, whatever is delivered. -/
theorem obeys_receive (who : Identity) (r : BackendReply) {q : Failure → Prop} :
    (receive who r : Flow σ _).Obeys (¬Event.Completes ·) q where
  event w h ev hev := by
    rw [run_receive] at hev
    rcases List.mem_append.1 hev with hev | hev
    · exact (sound_delivered who h r).event ev hev
    · rw [List.mem_singleton.1 hev]
      exact nofun
  failure _ _ _ hx := nomatch hx
  hungUp_iff w h := by
    rw [run_receive]
    show (delivered who h r).taken.hungUp = true ↔ _
    rw [(sound_delivered who h r).hungUp_iff]
    simp

/-- A stream ends. -/
theorem obeys_closeStream (s : Streaming) {q : Failure → Prop} :
    (closeStream s : Flow σ _).Obeys (¬Event.Completes ·) q where
  event w h ev hev := by
    rw [run_closeStream] at hev
    exact not_completes_of_mem_map_frame hev
  failure w h x hx _ := by
    rw [run_closeStream] at hx
    exact nomatch hx
  hungUp_iff w h := by
    rw [run_closeStream]
    simp

/-- The backend is asked, and its reply is streamed. -/
theorem obeys_streamOf (l : Leg σ) (request : List Value) :
    (e.streamOf l request).Obeys (¬Event.Completes ·) e.MayFail := by
  refine .bind (Flow.obeys_tell nofun nofun) fun _ => ?_
  refine .bindOf (Flow.obeys_call _ nofun) fun w h reply hreply => ?_
  refine .bind (obeys_receive _ _) fun d => ?_
  refine Flow.Obeys.unlessHungUp ?_
  split
  · next f _ hending _ =>
    cases hreply
    exact Flow.obeys_fail fun _ => .backend _ _ _ _ hending
  · exact obeys_closeStream _

/-- What follows a delivery sends nothing, or the frames of the reply's end. -/
theorem frames_afterDelivery (r : BackendReply) (d : Delivered Streaming) (w : σ) (h : Bool) :
    Event.frames ((afterDelivery r d).run w h).events = [] ∨
      Event.frames ((afterDelivery r d).run w h).events = d.taken.ended.frames := by
  unfold afterDelivery
  rw [Flow.run_bind_of_ok (a := h) rfl]
  cases h with
  | true => exact .inl rfl
  | false =>
    rw [if_neg nofun]
    split
    · exact .inl rfl
    · refine .inr ?_
      rw [run_closeStream]
      exact Event.frames_map_frame _

/-- A stream has its request, then what is delivered, and then what follows the delivery. -/
theorem run_streamOf (l : Leg σ) (request : List Value) (w : σ) (h : Bool) :
    (e.streamOf l request).run w h =
      let a := e.backend request l.options w
      let d := delivered l.assistant.identity (h || a.hungUp) a.value
      let o := (afterDelivery a.value d : Flow σ StreamEnd).run a.world d.taken.hungUp
      ⟨o.value,
        .request request l.options :: ((if a.hungUp then [.hungUp] else []) ++
          (d.taken.events ++ .delivered d.count d.stopped :: o.events)),
        o.world, o.hungUp⟩ := by
  have hreceive (a : Answer σ BackendReply) :
      (receive l.assistant.identity a.value >>= fun d => afterDelivery a.value d).run a.world
          (h || a.hungUp) = _ :=
    Flow.run_bind_of_ok (a := delivered l.assistant.identity (h || a.hungUp) a.value) rfl _
  unfold streamOf
  rw [Flow.run_bind_of_ok (a := ()) rfl, Flow.run_bind_of_ok (a := (e.backend _ _ w).value) rfl]
  simp only [Flow.run_tell, Flow.run_call, hreceive, run_receive, List.append_assoc,
    List.singleton_append]

/-- The frames of a stream are pieces of the reply, of which the first tells who answers. -/
theorem arePieces_streamOf (l : Leg σ) (request : List Value) (w : σ) (h : Bool) :
    Frame.ArePieces l.assistant.identity false
      (Event.frames ((e.streamOf l request).run w h).events) := by
  rw [run_streamOf]
  dsimp only
  generalize e.backend request l.options w = a
  have hsound := sound_delivered l.assistant.identity (h || a.hungUp) a.value
  generalize delivered l.assistant.identity (h || a.hungUp) a.value = d at hsound ⊢
  have hhangUp : Event.frames (if a.hungUp then [.hungUp] else []) = [] := by
    split <;> rfl
  rw [Event.frames_cons_of_none rfl, Event.frames_append, hhangUp, List.nil_append,
    Event.frames_append, Event.frames_cons_of_none rfl]
  rcases frames_afterDelivery a.value d a.world d.taken.hungUp with hend | hend
  · rw [hend, List.append_nil]
    exact hsound.speaks.pieces
  · rw [hend]
    exact hsound.speaks_ended.pieces

/-- The same for a stream with its request. -/
theorem arePieces_stream (l : Leg σ) (w : σ) (h : Bool) :
    Frame.ArePieces l.assistant.identity false (Event.frames ((e.stream l).run w h).events) := by
  rw [stream_eq]
  have hprepare := (obeys_requestFor (e := e) l.assistant l.messages).frames_of_prepares w h
  cases hv : ((e.requestFor l.assistant l.messages).run w h).value with
  | error x =>
    rw [Flow.run_bind_of_error hv, hprepare]
    trivial
  | ok request =>
    rw [Flow.run_bind_of_ok hv, Event.frames_append, hprepare]
    exact arePieces_streamOf l request _ _

/-- A request is made and its reply is streamed. -/
theorem obeys_stream (l : Leg σ) : (e.stream l).Obeys (¬Event.Completes ·) e.MayFail := by
  rw [stream_eq]
  refine .bind ?_ fun request => obeys_streamOf l request
  exact (obeys_requestFor _ _).mono fun _ h => h.not_completes

end Engine

end ChatRelay
