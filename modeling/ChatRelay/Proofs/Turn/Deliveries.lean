import ChatRelay.Proofs.Turn.Streaming

/-!
# What a backend delivers

While the client is there, a reply takes the frames that the backend delivers, one after another, up
to the one that ends it; so it is made of some of the first of them (`Engine.reply_delivered`). Once
the client has hung up, the reply stays as it is, and the first frame that is delivered then stops
the backend (`Engine.delivered_of_hungUp`). Both are shown first of what is handed over, where a
hang-up is followed by further frames; a hang-up after the backend was told to stop comes last, and
moves nothing but the client.
-/

namespace ChatRelay

/-- The frame that is delivered. -/
def Delivery.frame? : Delivery → Option (List UInt8)
  | .frame bytes => some bytes
  | .hangUp => none

namespace BackendReply

/-- The frames that a backend delivers if it is not stopped. -/
def frames (r : BackendReply) : List (List UInt8) :=
  r.deliveries.filterMap Delivery.frame?

/-- The frames that a backend delivers before the client hangs up, if it is not stopped. -/
def framesInTime (r : BackendReply) : List (List UInt8) :=
  (r.deliveries.takeWhile (·.frame?.isSome)).filterMap Delivery.frame?

/-- The frames before the client hangs up are the first of all frames. -/
theorem framesInTime_prefix_frames (r : BackendReply) : r.framesInTime <+: r.frames :=
  (List.takeWhile_prefix _).filterMap _

end BackendReply

namespace Engine

/-- While frames are taken, frames are sent or the client hangs up. -/
theorem mem_events_delivered {who : Identity} {h : Bool} {r : BackendReply} {ev : Event}
    (hev : ev ∈ (delivered who h r).taken.events) : (∃ f, ev = .frame f) ∨ ev = .hungUp := by
  have hall : ∀ ev ∈ (delivered who h r).taken.events, (∃ f, ev = .frame f) ∨ ev = .hungUp := by
    refine BackendReply.deliver_preserves
      (P := fun s : Streaming => ∀ ev ∈ s.events, (∃ f, ev = .frame f) ∨ ev = .hungUp)
      ?_ ?_ r ?_
    · intro s bytes hs ev hev
      unfold Streaming.take at hev
      split at hev
      · exact hs ev hev
      · rcases List.mem_append.1 hev with hev | hev
        · exact hs ev hev
        · obtain ⟨f, -, rfl⟩ := List.mem_map.1 hev
          exact .inl ⟨f, rfl⟩
    · intro s hs ev hev
      rcases List.mem_append.1 hev with hev | hev
      · exact hs ev hev
      · exact .inr (List.mem_singleton.1 hev)
    · intro ev hev
      exact absurd hev List.not_mem_nil
  exact hall ev hev

/-- A frame that is delivered after the client has hung up stops the backend, and the reply stays as
it is. -/
theorem handOver_of_hungUp (deliveries : List Delivery) (count : Nat) {s : Streaming}
    (h : s.hungUp = true) :
    let d := BackendReply.handOver Streaming.take Streaming.hangUp deliveries count s
    d.taken.hungUp = true ∧ d.taken.reply = s.reply ∧
      (d.count = count ∧ d.stopped = false ∨ d.count = count + 1 ∧ d.stopped = true) := by
  induction deliveries generalizing s with
  | nil => exact ⟨h, rfl, .inl ⟨rfl, rfl⟩⟩
  | cons d rest ih =>
    cases d with
    | hangUp => exact ih (s := s.hangUp) rfl
    | frame bytes =>
      have htake : s.take bytes = (s, false) := if_pos h
      unfold BackendReply.handOver
      rw [htake]
      exact ⟨h, rfl, .inr ⟨rfl, rfl⟩⟩

/-- A delivery to a client that is gone leaves the reply as it is, and is stopped by its first
frame, if there is one. -/
theorem delivered_of_hungUp (who : Identity) (r : BackendReply) :
    (delivered who true r).taken.reply = .start who .empty ∧
      ((delivered who true r).count = 0 ∧ (delivered who true r).stopped = false ∨
        (delivered who true r).count = 1 ∧ (delivered who true r).stopped = true) := by
  obtain ⟨-, hreply, hcount⟩ := handOver_of_hungUp r.deliveries 0 (s := .start who true) rfl
  rcases delivered_cases who true r with ⟨-, heq⟩ | ⟨-, -, heq⟩
  · rw [heq]
    exact ⟨hreply, hcount⟩
  · rw [heq]
    exact ⟨hreply, hcount⟩

/-- If the client is there when the backend has returned, all there is to a delivery is what was
handed over. -/
theorem delivered_of_there {who : Identity} {h : Bool} {r : BackendReply}
    (hthere : (delivered who h r).taken.hungUp = false) :
    delivered who h r =
      BackendReply.handOver Streaming.take Streaming.hangUp r.deliveries 0 (.start who h) := by
  rcases delivered_cases who h r with ⟨-, heq⟩ | ⟨-, -, heq⟩
  · exact heq
  · rw [heq] at hthere
    exact nomatch hthere

/-- A frame that is delivered while the client is there advances the reply. -/
theorem Streaming.take_of_there {s : Streaming} (hs : s.hungUp = false) (bytes : List UInt8) :
    s.take bytes =
      (⟨(s.reply.takeFrame bytes).reply, (s.reply.takeFrame bytes).step, false,
          s.events ++ (s.reply.takeFrame bytes).frames.map .frame⟩,
        (s.reply.takeFrame bytes).step == .more) := by
  unfold Streaming.take
  rw [hs]
  rfl

/-- What is delivered while the client is there makes the reply. If it stays, as many frames are
taken as are counted. -/
theorem reply_handOver (deliveries : List Delivery) (count : Nat) {s : Streaming}
    (hs : s.hungUp = false) :
    let d := BackendReply.handOver Streaming.take Streaming.hangUp deliveries count s
    let frames := (deliveries.takeWhile (·.frame?.isSome)).filterMap Delivery.frame?
    ∃ n ≤ frames.length, d.taken.reply = (s.reply.run ((frames.take n).map .frame)).1 ∧
      (d.taken.hungUp = false → d.count = count + n) := by
  induction deliveries generalizing count s with
  | nil => exact ⟨0, Nat.le_refl 0, rfl, fun _ => rfl⟩
  | cons d rest ih =>
    cases d with
    | hangUp =>
      have hgone : s.hangUp.hungUp = true := rfl
      obtain ⟨hstays, hreply, -⟩ := handOver_of_hungUp rest count hgone
      refine ⟨0, Nat.zero_le _, hreply, fun hthere => ?_⟩
      exact nomatch hstays.symm.trans hthere
    | frame bytes =>
      unfold BackendReply.handOver
      rw [Streaming.take_of_there hs]
      dsimp only
      split
      · obtain ⟨n, hn, hreply, hcount⟩ := ih (count + 1) (s := ⟨(s.reply.takeFrame bytes).reply,
          (s.reply.takeFrame bytes).step, false,
          s.events ++ (s.reply.takeFrame bytes).frames.map .frame⟩) rfl
        refine ⟨n + 1, Nat.succ_le_succ hn, hreply, fun hthere => ?_⟩
        rw [hcount hthere]
        omega
      · exact ⟨1, Nat.succ_le_succ (Nat.zero_le _), rfl, fun _ => rfl⟩

/-- A reply to a client that is there takes the first of the frames before the client hangs up, and
as many as are counted if it does not. -/
theorem reply_delivered (who : Identity) (r : BackendReply) :
    ∃ n ≤ r.framesInTime.length,
      (delivered who false r).taken.reply =
        ((Reply.start who .empty).run ((r.framesInTime.take n).map .frame)).1 ∧
      ((delivered who false r).taken.hungUp = false → (delivered who false r).count = n) := by
  obtain ⟨n, hn, hreply, hcount⟩ := reply_handOver r.deliveries 0 (s := .start who false) rfl
  rcases delivered_cases who false r with ⟨-, heq⟩ | ⟨-, -, heq⟩
  · rw [heq]
    exact ⟨n, hn, hreply, fun hthere => (hcount hthere).trans (Nat.zero_add n)⟩
  · rw [heq]
    exact ⟨n, hn, hreply, nofun⟩

end Engine

end ChatRelay
