import ChatRelay.Proofs.Backend.Stopping
import ChatRelay.Proofs.Turn.Deliveries
import ChatRelay.Proofs.Turn.FailedReplies

/-!
# What follows the end of a reply

The frame that ends a reply, or tells an error, is answered with a no, and so is every frame after
the client has hung up. So the backend is stopped there (`stopped_handOver`), and neither what it
would have delivered after that frame nor how it ends then is looked at: turns are the same with two
backends whose replies agree up to the end (`execute_withBackend`). Only whether the client hangs up
before the backend returns still matters.

Main result: a service hands over the lines of an accepted reply up to the first no, and a
connection that breaks off after the end of the reply changes nothing (`delivered_up_to_stop`).
-/

namespace ChatRelay

open Json (Value Object)

/-- Some frame ends the reply, or tells an error, whoever answers. -/
def Reply.EndsWithin (frames : List (List UInt8)) : Prop :=
  ∃ before frame rest, frames = before ++ frame :: rest ∧
    ∀ who, (((start who .empty).run (before.map .frame)).1.takeFrame frame).step ≠ .more

namespace Reply

/-- What a frame does to what is left unread, and what comes after it, is not up to anything else in
the reply. -/
theorem takeFrame_of_pending_eq {r s : Reply} (h : r.pending = s.pending) (raw : List UInt8) :
    (r.takeFrame raw).step = (s.takeFrame raw).step ∧
      (r.takeFrame raw).reply.pending = (s.takeFrame raw).reply.pending := by
  have hread : r.read raw = s.read raw := by
    unfold read
    rw [h]
  rw [takeFrame_eq, takeFrame_eq, hread]
  cases (s.read raw).2 with
  | none => exact ⟨rfl, rfl⟩
  | some d => exact ⟨by simp only [step_take], by simp only [pending_take]⟩

/-- What frames leave unread is up to what was left unread before them, and to nothing else in the
reply. -/
theorem pending_run_of_pending_eq {r s : Reply} (h : r.pending = s.pending)
    (frames : List (List UInt8)) :
    (r.run (frames.map .frame)).1.pending = (s.run (frames.map .frame)).1.pending := by
  induction frames generalizing r s with
  | nil => exact h
  | cons raw rest ih => exact ih (takeFrame_of_pending_eq h raw).2

/-- A frame that ends the reply of one assistant ends it whoever answers. -/
theorem endsWithin_of_step (who : Identity) (before : List (List UInt8)) (frame : List UInt8)
    (rest : List (List UInt8))
    (h : (((start who .empty).run (before.map .frame)).1.takeFrame frame).step ≠ .more) :
    EndsWithin (before ++ frame :: rest) := by
  refine ⟨before, frame, rest, rfl, ?_⟩
  intro other
  have hpending : (start other .empty).pending = (start who .empty).pending := rfl
  rwa [(takeFrame_of_pending_eq (pending_run_of_pending_eq hpending before) frame).1]

end Reply

/-- Two replies of a backend are the same, or the same is delivered of them up to a frame that ends
the reply. What would be delivered after it, and the failures with which they end, may differ. But
of both the client hangs up once the backend is stopped, or of neither. -/
inductive BackendReply.AgreesToEnd : BackendReply → BackendReply → Prop
  | same (r : BackendReply) : AgreesToEnd r r
  | ended {common : List Delivery} (h : Reply.EndsWithin (common.filterMap Delivery.frame?))
      (more more' : List Delivery) (ending ending' : Bool → Option Failure) (leaves : Bool) :
      AgreesToEnd ⟨common ++ more, ending, leaves⟩ ⟨common ++ more', ending', leaves⟩

namespace Engine

variable {σ : Type} {e : Engine σ}

/-! ### Streams -/

/-- A backend is stopped at the frame that ends the reply, unless it has been stopped before. Once
the client has hung up any frame will do. -/
theorem stopped_handOver {deliveries : List Delivery} {before rest : List (List UInt8)}
    {frame : List UInt8} (count : Nat) {s : Streaming}
    (hframes : deliveries.filterMap Delivery.frame? = before ++ frame :: rest)
    (hends : s.hungUp = false →
      ((s.reply.run (before.map .frame)).1.takeFrame frame).step ≠ .more) :
    (BackendReply.handOver Streaming.take Streaming.hangUp deliveries count s).stopped = true := by
  induction deliveries generalizing before count s with
  | nil => exact absurd hframes.symm (List.append_ne_nil_of_right_ne_nil _ (List.cons_ne_nil _ _))
  | cons d more ih =>
    cases d with
    | hangUp => exact ih (s := s.hangUp) count hframes nofun
    | frame bytes =>
      unfold BackendReply.handOver
      cases hthere : s.hungUp with
      | true =>
        have htake : s.take bytes = (s, false) := if_pos hthere
        rw [htake]
        rfl
      | false =>
        rw [Streaming.take_of_there hthere]
        dsimp only
        split
        · next hgo =>
          have hmore : (s.reply.takeFrame bytes).step = .more := beq_iff_eq.1 hgo
          cases before with
          | nil =>
            obtain ⟨rfl, -⟩ := List.cons.inj hframes
            exact absurd hmore (hends hthere)
          | cons first before =>
            obtain ⟨rfl, hmoreFrames⟩ := List.cons.inj hframes
            exact ih _ hmoreFrames fun _ => hends hthere
        · rfl

/-- A backend is only stopped when the client has hung up or the reply is at its end. -/
theorem hungUp_or_ended_of_stopped_handOver {deliveries : List Delivery} {count : Nat}
    {s : Streaming}
    (h : (BackendReply.handOver Streaming.take Streaming.hangUp deliveries count s).stopped =
      true) :
    let d := BackendReply.handOver Streaming.take Streaming.hangUp deliveries count s
    d.taken.hungUp = true ∨ d.taken.step ≠ .more := by
  induction deliveries generalizing count s with
  | nil => exact nomatch h
  | cons d rest ih =>
    cases d with
    | hangUp => exact ih h
    | frame bytes =>
      unfold BackendReply.handOver at h ⊢
      dsimp only at h ⊢
      split
      · next hgo =>
        rw [if_pos hgo] at h
        exact ih h
      · next hno =>
        cases hthere : s.hungUp with
        | true =>
          have htake : s.take bytes = (s, false) := if_pos hthere
          rw [htake]
          exact .inl hthere
        | false =>
          rw [Streaming.take_of_there hthere] at hno ⊢
          exact .inr fun hmore => hno (beq_iff_eq.2 hmore)

/-- That is so whether or not the client hangs up before the backend returns. -/
theorem hungUp_or_ended_of_stopped {who : Identity} {hungUp : Bool} {r : BackendReply}
    (h : (delivered who hungUp r).stopped = true) :
    (delivered who hungUp r).taken.hungUp = true ∨ (delivered who hungUp r).taken.step ≠ .more := by
  rcases delivered_cases who hungUp r with ⟨-, heq⟩ | ⟨-, -, heq⟩
  · rw [heq] at h ⊢
    exact hungUp_or_ended_of_stopped_handOver h
  · rw [heq]
    exact .inl rfl

/-- Once a backend has been stopped, its failure is not looked at. -/
theorem afterDelivery_of_stopped (r r' : BackendReply) {d : Delivered Streaming}
    (h : d.taken.hungUp = true ∨ d.taken.step ≠ .more) (w : σ) :
    (afterDelivery r d : Flow σ StreamEnd).run w d.taken.hungUp =
      (afterDelivery r' d).run w d.taken.hungUp := by
  unfold afterDelivery
  rw [Flow.run_hasHungUp_bind, Flow.run_hasHungUp_bind]
  cases hthere : d.taken.hungUp with
  | true => rfl
  | false =>
    have hstep : d.taken.step ≠ .more := h.resolve_left (by simp [hthere])
    cases hd : d.taken.step with
    | more => exact absurd hd hstep
    | failed raw => cases r.ending d.stopped <;> cases r'.ending d.stopped <;> rfl
    | done => cases r.ending d.stopped <;> cases r'.ending d.stopped <;> rfl

/-- Of replies that agree up to the end the same is received, and the same follows. -/
theorem delivered_of_agreesToEnd {r r' : BackendReply} (h : r.AgreesToEnd r') (who : Identity)
    (hungUp : Bool) :
    delivered who hungUp r' = delivered who hungUp r ∧
      ∀ w : σ, (afterDelivery r' (delivered who hungUp r) : Flow σ StreamEnd).run w
          (delivered who hungUp r).taken.hungUp =
        (afterDelivery r (delivered who hungUp r)).run w (delivered who hungUp r).taken.hungUp := by
  cases h with
  | same => exact ⟨rfl, fun _ => rfl⟩
  | @ended common hends more more' ending ending' leaves =>
    obtain ⟨before, frame, rest, hframes, hlast⟩ := hends
    have hstopped := stopped_handOver 0 (s := .start who hungUp) hframes fun _ => hlast who
    have hsame (more : List Delivery) (ending : Bool → Option Failure) :
        delivered who hungUp ⟨common ++ more, ending, leaves⟩ =
          delivered who hungUp ⟨common, ending, leaves⟩ := by
      unfold delivered BackendReply.deliver
      dsimp only
      rw [BackendReply.handOver_append _ _ hstopped more]
    rw [hsame more ending, hsame more' ending']
    refine ⟨rfl, afterDelivery_of_stopped _ _ (hungUp_or_ended_of_stopped ?_)⟩
    exact (BackendReply.stopped_deliver ⟨common, ending, leaves⟩ _).trans hstopped

/-! ### Turns -/

/-- The engine with another backend. -/
def withBackend (e : Engine σ) (backend : List Value → Object → Call σ BackendReply) : Engine σ :=
  { e with backend }

variable {backend : List Value → Object → Call σ BackendReply}

/-- Two backends answer the same, but for what follows the end of a reply. -/
def BackendsAgree (b b' : List Value → Object → Call σ BackendReply) : Prop :=
  ∀ messages options w,
    (b messages options w).value.AgreesToEnd (b' messages options w).value ∧
      (b' messages options w).world = (b messages options w).world ∧
      (b' messages options w).hungUp = (b messages options w).hungUp

/-- A reply is streamed in the same way. -/
theorem streamOf_withBackend (h : BackendsAgree e.backend backend) (l : Leg σ)
    (request : List Value) :
    (e.withBackend backend).streamOf l request = e.streamOf l request := by
  funext w hungUp
  show ((e.withBackend backend).streamOf l request).run w hungUp =
    (e.streamOf l request).run w hungUp
  obtain ⟨hagrees, hworld, hhungUp⟩ := h request l.options w
  rw [run_streamOf, run_streamOf]
  have hbackend : (e.withBackend backend).backend = backend := rfl
  dsimp only
  rw [hbackend, hworld, hhungUp]
  obtain ⟨hdelivered, hafter⟩ := delivered_of_agreesToEnd (σ := σ) hagrees l.assistant.identity
    (hungUp || (e.backend request l.options w).hungUp)
  rw [hdelivered, hafter]

/-- A run takes the same course. -/
theorem runLegs_withBackend (h : BackendsAgree e.backend backend) (levels : Nat) (c : TurnContext)
    (a : Assistant σ) (messages : List Message) (caller : Object) :
    (e.withBackend backend).runLegs levels c a messages caller =
      e.runLegs levels c a messages caller := by
  have hstream (l : Leg σ) : (e.withBackend backend).stream l = e.stream l := by
    rw [stream_eq, stream_eq]
    exact bind_congr fun request => streamOf_withBackend h l request
  induction levels generalizing c a messages caller with
  | zero => rfl
  | succ levels ih =>
    unfold runLegs
    simp only [hstream, ih]
    rfl

/-- A turn is the same, with the same frames and the same records. -/
theorem execute_withBackend (h : BackendsAgree e.backend backend) (c : TurnContext)
    (input : Message) (caller : Object) (hungUp : Bool) (w : σ) :
    (e.withBackend backend).execute c input caller hungUp w =
      e.execute c input caller hungUp w := by
  unfold execute streamChat runFrom
  simp only [runLegs_withBackend h]
  rfl

/-! ### Accepted replies -/

/-- Accepted replies of a service with the same lines up to one that ends the reply agree up to the
end. -/
theorem agreesToEnd_delivery {r r' : ServiceReply} (hr : r.isSuccess = true)
    (hr' : r'.isSuccess = true) {common : List String}
    (hends : Reply.EndsWithin (common.map ServiceReply.frameOfLine))
    (h : common <+: r.texts) (h' : common <+: r'.texts) : r.delivery.AgreesToEnd r'.delivery := by
  obtain ⟨more, hmore⟩ := h
  obtain ⟨more', hmore'⟩ := h'
  -- Both deliveries are the common frames, then further ones, and the client stays.
  have hdelivery {r : ServiceReply} (hr : r.isSuccess = true) {more : List String}
      (h : common ++ more = r.texts) :
      r.delivery = ⟨(common.map ServiceReply.frameOfLine).map .frame ++
        (more.map ServiceReply.frameOfLine).map .frame, r.delivery.ending, false⟩ := by
    obtain ⟨hdeliveries, hstays, -⟩ := ServiceReply.delivery_of_isSuccess hr
    rw [← List.map_append, ← List.map_append, h, ← hdeliveries, ← hstays]
  have hframes : ((common.map ServiceReply.frameOfLine).map Delivery.frame).filterMap
      Delivery.frame? = common.map ServiceReply.frameOfLine := by
    rw [List.filterMap_map]
    exact List.filterMap_some
  rw [hdelivery hr hmore, hdelivery hr' hmore']
  exact .ended (by rwa [hframes]) _ _ _ _ _

/-- How a service delivers an accepted reply, whoever takes the frames. Those are the lines of the
body, in order, up to the first that is answered with a no; each before it is answered with a yes.
Without a no all lines are handed over, and then the call fails exactly if the body has broken off.
For a reply that is streamed, accepted replies with the same lines up to the end of the reply agree
up to the end, also if the one breaks off after it; and a turn is the same with backends whose
replies do. -/
theorem delivered_up_to_stop (s : Service) (network : Network) (messages : List Value)
    (options : Object) {r : ServiceReply}
    (hr : (s.request? messages options).bind network = some r) (hsuccess : r.isSuccess = true) :
    let reply := s.deliveryOver network messages options
    (∀ (τ : Type) (onFrame : τ → List UInt8 → τ × Bool) (onHangUp : τ → τ) (t : τ),
      let d := reply.deliver onFrame onHangUp t
      ∃ heard unheard n,
        r.content.lines = (heard ++ unheard).map .ok ++
          (if r.content.broken then [.error Http.brokenOff] else []) ∧
        heard ++ unheard = Http.textLines (!r.content.broken) (Text.decode r.content.bytes) ∧
        d.taken = BackendReply.after onFrame t (heard.map ServiceReply.frameOfLine) ∧
        BackendReply.answers onFrame t (heard.map ServiceReply.frameOfLine) =
          List.replicate n true ++ (if d.stopped then [false] else []) ∧
        d.count = heard.length ∧
        (d.stopped = false → unheard = []) ∧
        reply.ending d.stopped =
          if r.content.broken && !d.stopped then some Http.brokenOff else none) ∧
      (∀ (r' : ServiceReply) (common : List String), r'.isSuccess = true →
        Reply.EndsWithin (common.map ServiceReply.frameOfLine) →
        common <+: r.texts → common <+: r'.texts → reply.AgreesToEnd r'.delivery) ∧
      ∀ (e : Engine σ) (backend : List Value → Object → Call σ BackendReply),
        BackendsAgree e.backend backend →
        ∀ (c : TurnContext) (input : Message) (caller : Object) (hungUp : Bool) (w : σ),
          (e.withBackend backend).execute c input caller hungUp w =
            e.execute c input caller hungUp w := by
  intro reply
  have hreply : reply = r.delivery := Service.deliveryOver_of_reply hr
  obtain ⟨hdeliveries, hstays, hending⟩ := ServiceReply.delivery_of_isSuccess hsuccess
  rw [hreply]
  refine ⟨?_, fun r' common hr' hends h h' => agreesToEnd_delivery hsuccess hr' hends h h',
    fun e backend h c input caller hungUp w => execute_withBackend h c input caller hungUp w⟩
  intro τ onFrame onHangUp t
  -- A service delivers nothing but frames, one for each line of text.
  rw [BackendReply.deliver_of_stays hstays, hdeliveries]
  obtain ⟨heard, unheard, n, hframes, htaken, hanswers, hcount, hall⟩ :=
    BackendReply.handOver_frames onFrame onHangUp (r.texts.map ServiceReply.frameOfLine) 0 t
  obtain ⟨heardLines, unheardLines, htexts, rfl, rfl⟩ := List.map_eq_append_iff.1 hframes
  refine ⟨heardLines, unheardLines, n, ?_, htexts.symm, htaken, hanswers, ?_, ?_, hending _⟩
  · rw [← htexts]
    exact r.lines_content
  · rw [hcount, Nat.zero_add, List.length_map]
  · intro hgoes
    exact List.map_eq_nil_iff.1 (hall hgoes)

/-- An accepted reply that says hello and ends, with more behind its end. -/
def helloAnd (more : String) (broken : Bool) : ServiceReply :=
  let lines := ["data: \x7b\"text\":\"hello\"\x7d\n", "\n", "data: [DONE]\n", more]
  ⟨200, ⟨lines.map ServiceReply.frameOfLine, broken⟩⟩

/-- The lines of such a reply up to its end. -/
def helloLines : List String := ["data: \x7b\"text\":\"hello\"\x7d", "data: [DONE]"]

/-- A reply that breaks off behind its end, in the middle of a line. -/
def helloBroken : ServiceReply := helloAnd "data: x\ndata: \x7b" true

/-- Whoever says yes to all of that reply hears the whole line behind the end, and then the failure.
A turn is the same as with a reply that goes well. -/
theorem delivered_up_to_stop_helloBroken :
    (∃ heard : List String, helloBroken.content.lines = heard.map .ok ++ [.error Http.brokenOff] ∧
      (helloBroken.delivery.deliver (fun n _ => (n + 1, true)) id 0).count = heard.length) ∧
      (answering helloBroken).execute (firstTurn "a") (.of .user "hi") [] false () =
        (answering (helloAnd "" false)).execute (firstTurn "a") (.of .user "hi") [] false () := by
  have hends : Reply.EndsWithin (helloLines.map ServiceReply.frameOfLine) :=
    Reply.endsWithin_of_step ⟨"a", "a", none⟩
      [ServiceReply.frameOfLine (helloLines.head nofun)] _ [] (by decide +kernel)
  have hof (r : ServiceReply) (hr : r.isSuccess = true) (messages : List Value)
      (options : Object) :=
    delivered_up_to_stop (σ := Unit) (Service.of "key" none) (fun _ => some r) messages options
      (reply_answering r messages options) hr
  have hdelivery (r : ServiceReply) (messages : List Value) (options : Object) :
      (Service.of "key" none).deliveryOver (fun _ => some r) messages options = r.delivery :=
    Service.deliveryOver_of_reply (reply_answering r messages options)
  constructor
  · obtain ⟨heard, unheard, n, hlines, -, -, -, hcount, hall, -⟩ :=
      (hof helloBroken rfl [] []).1 Nat (fun n _ => (n + 1, true)) id 0
    rw [hdelivery] at hcount hall
    have hstopped : (helloBroken.delivery.deliver (fun n _ => (n + 1, true)) id 0).stopped =
        false := by
      decide +kernel
    rw [hall hstopped, List.append_nil] at hlines
    exact ⟨heard, hlines, hcount⟩
  · have hagree : BackendsAgree (answering (helloAnd "" false)).backend
        (answering helloBroken).backend := by
      intro messages options w
      refine ⟨?_, rfl, rfl⟩
      have hsame := (hof (helloAnd "" false) rfl messages options).2.1 helloBroken helloLines rfl
        hends (by decide +kernel) (by decide +kernel)
      rw [← hdelivery helloBroken messages options] at hsame
      exact hsame
    exact (hof (helloAnd "" false) rfl [] []).2.2 _ _ hagree _ _ _ _ _

end Engine

end ChatRelay
