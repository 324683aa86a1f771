import ChatRelay.Backend.Completions
import ChatRelay.Proofs.Http.Lines

/-!
# Stopping a backend

Whoever takes the frames of a backend may stop it after any of them. The frames that are handed over
are then the first ones, up to the one that is answered with a no (`BackendReply.handOver_frames`),
and what would have followed makes no difference (`BackendReply.handOver_append`). The frames of an
accepted reply of a service are the lines of its body; where the body breaks off, the failure counts
unless the service has been stopped before (`ServiceReply.delivery_of_isSuccess`).
-/

namespace ChatRelay

namespace BackendReply

variable {τ : Type} (onFrame : τ → List UInt8 → τ × Bool) (onHangUp : τ → τ)

/-- What whoever takes frames has after some of them. -/
def after (t : τ) (frames : List (List UInt8)) : τ :=
  frames.foldl (fun u frame => (onFrame u frame).1) t

/-- How frames are answered that are handed over one after another. -/
def answers : τ → List (List UInt8) → List Bool
  | _, [] => []
  | t, frame :: rest => (onFrame t frame).2 :: answers (onFrame t frame).1 rest

/-- Frames are handed over in order, up to the first that is answered with a no. -/
theorem handOver_frames (frames : List (List UInt8)) (count : Nat) (t : τ) :
    let d := handOver onFrame onHangUp (frames.map .frame) count t
    ∃ heard unheard n, frames = heard ++ unheard ∧ d.taken = after onFrame t heard ∧
      answers onFrame t heard = List.replicate n true ++ (if d.stopped then [false] else []) ∧
      d.count = count + heard.length ∧ (d.stopped = false → unheard = []) := by
  induction frames generalizing count t with
  | nil => exact ⟨[], [], 0, rfl, rfl, rfl, rfl, fun _ => rfl⟩
  | cons frame rest ih =>
    rw [List.map_cons]
    unfold handOver
    dsimp only
    by_cases hgo : (onFrame t frame).2 = true
    · rw [if_pos hgo]
      obtain ⟨heard, unheard, n, hframes, htaken, hanswers, hcount, hall⟩ :=
        ih (count + 1) (onFrame t frame).1
      refine ⟨frame :: heard, unheard, n + 1, ?_, htaken, ?_, ?_, hall⟩
      · rw [hframes, List.cons_append]
      · rw [answers, hgo, hanswers, List.replicate_succ, List.cons_append]
      · rw [hcount, List.length_cons]
        omega
    · rw [if_neg hgo]
      refine ⟨[frame], rest, 0, rfl, rfl, ?_, rfl, nofun⟩
      rw [answers, Bool.eq_false_iff.2 hgo]
      rfl

/-- What follows the frame that is answered with a no is not handed over. -/
theorem handOver_append {deliveries : List Delivery} {count : Nat} {t : τ}
    (h : (handOver onFrame onHangUp deliveries count t).stopped = true) (more : List Delivery) :
    handOver onFrame onHangUp (deliveries ++ more) count t =
      handOver onFrame onHangUp deliveries count t := by
  induction deliveries generalizing count t with
  | nil => exact nomatch h
  | cons d rest ih =>
    cases d with
    | hangUp => exact ih h
    | frame bytes =>
      rw [List.cons_append]
      unfold handOver at h ⊢
      dsimp only at h ⊢
      split
      · next hgo =>
        rw [if_pos hgo] at h
        exact ih h
      · rfl

end BackendReply

/-! ### Accepted replies -/

namespace ServiceReply

/-- The frame that a line is delivered as. -/
def frameOfLine (line : String) : List UInt8 := Text.utf8 line.toList

/-- A reply that is accepted answers the request. -/
theorem isAnswer_of_isSuccess {r : ServiceReply} (h : r.isSuccess = true) : r.isAnswer = true := by
  unfold isSuccess at h
  unfold isAnswer
  simp only [Bool.and_eq_true, decide_eq_true_eq, Bool.or_eq_true, beq_iff_eq] at h ⊢
  omega

/-- Among lines of which only the last may be a failure, the failure is that. -/
theorem failureIn_append (texts : List String) (rest : List (Result String)) :
    failureIn (texts.map .ok ++ rest) = failureIn rest := by
  induction texts with
  | nil => rfl
  | cons text texts ih => exact ih

/-- The lines of a reply that arrive whole, as those of the text that the bytes of its body hold. -/
def texts (r : ServiceReply) : List String :=
  Http.textLines (!r.content.broken) (Text.decode r.content.bytes)

/-- A failure follows the lines of a reply if its body breaks off. -/
theorem lines_content (r : ServiceReply) :
    r.content.lines =
      r.texts.map .ok ++ if r.content.broken then [.error Http.brokenOff] else [] :=
  Http.Body.linesAfter_eq r.content.broken List.not_mem_nil r.content.chunks

/-- The lines of an accepted reply are delivered one by one. A body that breaks off fails the call
unless it was stopped before. -/
theorem delivery_of_isSuccess {r : ServiceReply} (h : r.isSuccess = true) :
    r.delivery.deliveries = (r.texts.map frameOfLine).map .frame ∧
      r.delivery.hangUpOnceStopped = false ∧
      ∀ stopped, r.delivery.ending stopped =
        if r.content.broken && !stopped then some Http.brokenOff else none := by
  have hdelivery : r.delivery =
      { deliveries := r.content.lines.filterMap fun line =>
          line.toOption.map fun s => frameOf s.toList
        ending := fun stopped => if stopped then none else failureIn r.content.lines } := by
    unfold delivery
    rw [isAnswer_of_isSuccess h, h]
    rfl
  rw [hdelivery, lines_content]
  refine ⟨?_, rfl, fun stopped => ?_⟩
  · have hlast : (if r.content.broken then [.error Http.brokenOff] else [] :
        List (Result String)).filterMap (fun line => line.toOption.map fun s => frameOf s.toList) =
          [] := by
      split <;> rfl
    dsimp only
    rw [List.filterMap_append, hlast, List.append_nil, List.filterMap_map, List.map_map]
    exact congrFun List.filterMap_eq_map r.texts
  · dsimp only
    rw [failureIn_append]
    cases stopped <;> cases r.content.broken <;> rfl

end ServiceReply

/-- The reply of a server is delivered if it can be reached. -/
theorem Service.deliveryOver_of_reply {s : Service} {network : Network} {messages : List Json.Value}
    {options : Json.Object} {r : ServiceReply}
    (hr : (s.request? messages options).bind network = some r) :
    s.deliveryOver network messages options = r.delivery := by
  unfold deliveryOver
  rw [hr]

end ChatRelay
