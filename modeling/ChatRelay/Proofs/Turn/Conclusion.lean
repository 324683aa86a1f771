import ChatRelay.Proofs.Turn.Streaming
import ChatRelay.Turn.Conclusion

/-!
# What a conclusion sends

A leg whose stream has ended comes to a continuation without fail. `Closing` lists the results to
which a leg may come, each with what the client is sent last: one error, one frame that is done, or
nothing, and the last only if the completion hook asks for it. A leg that is handed on sends nothing
(`tells_conclude`).
-/

namespace ChatRelay

open Json (Value Object)

/-- A result and the frame that tells the client of it. There may be none if the turn exits. -/
inductive Closing (exits : Prop) : TurnResult → Option Frame → Prop
  | failed (message : String) : Closing exits (.failed message) (some (.failed message))
  | ended : Closing exits .completed (some .ended)
  | output (text : String) : Closing exits .completed (some (.output text))
  | exit (h : exits) : Closing exits .completed none

/-- The frame that a turn ends with is done. -/
theorem Closing.done {exits : Prop} {r : TurnResult} {last : Option Frame}
    (h : Closing exits r last) : ∀ f ∈ last, f.done = true := by
  cases h <;> simp [Frame.failed, Frame.ended, Frame.output]

/-- A turn fails exactly if it ends with an error, which is the error of the result. -/
theorem Closing.failed_iff {exits : Prop} {r : TurnResult} {last : Option Frame}
    (h : Closing exits r last) :
    r.status = .failed ↔ ∃ message, last = some (.failed message) ∧ r.error = some message := by
  cases h with
  | failed message => exact ⟨fun _ => ⟨message, rfl, rfl⟩, fun _ => rfl⟩
  | ended => simp [TurnResult.completed]
  | output text => simp [TurnResult.completed]
  | exit h => simp [TurnResult.completed]

/-- A turn is completed exactly if it ends with a frame that is no error, or exits without one. -/
theorem Closing.completed_iff {exits : Prop} {r : TurnResult} {last : Option Frame}
    (h : Closing exits r last) :
    r.status = .completed ↔ (∃ f, last = some f ∧ f.isError = false) ∨ (last = none ∧ exits) := by
  cases h with
  | failed message => simp [TurnResult.failed, Frame.failed, Frame.isError]
  | ended => exact ⟨fun _ => .inl ⟨_, rfl, rfl⟩, fun _ => rfl⟩
  | output text => exact ⟨fun _ => .inl ⟨_, rfl, rfl⟩, fun _ => rfl⟩
  | exit h => exact ⟨fun _ => .inr ⟨rfl, h⟩, fun _ => rfl⟩

/-- A turn that tells the client of its result is not canceled. -/
theorem Closing.not_canceled {exits : Prop} {r : TurnResult} {last : Option Frame}
    (h : Closing exits r last) : r.status ≠ .canceled := by
  cases h <;> exact nofun

/-- What a continuation of a leg tells the client. -/
def Continuation.Tells (exits : Prop) (frames : List Frame) : Continuation → Prop
  | .ended r => ∃ last, frames = last.toList ∧ Closing exits r last
  | .handedOn _ => frames = []

/-- A stream that did not end well. -/
def StreamEnd.IsError : StreamEnd → Prop
  | .failed _ _ | .unread _ => True
  | .done _ _ => False

/-- A stream ends with an error or well. -/
theorem StreamEnd.isError_or_done (s : StreamEnd) : s.IsError ∨ ∃ t asides, s = .done t asides := by
  cases s with
  | done t asides => exact .inr ⟨t, asides, rfl⟩
  | _ => exact .inl trivial

/-- What may happen when an error is to be reported: nothing is sent and nothing completed. -/
def Event.PrecedesReport (ev : Event) : Prop :=
  ev.frame? = none ∧ ¬ev.Completes

namespace Engine

variable {σ : Type} {e : Engine σ}

/-- The reply of a leg's last hook, which is called if the reply of the model has ended. -/
def lastReply (l : Leg σ) : StreamEnd → Flow σ (Option HookReply)
  | .done t asides => consult l.assistant .done (l.hookInput (l.messages ++ asides) t none)
  | .failed _ _ | .unread _ => pure none

/-- Whether a hook's reply asks to end the turn without output. -/
def AsksToExit (reply : Result (Option HookReply)) : Prop :=
  ∃ r, reply = .ok (some r) ∧ r.next = some .exit

/-- The text of an error is found, with or without a hook. -/
theorem obeys_errorText (l : Leg σ) (raw : List Char) (t : Transcript) :
    (errorText l raw t).Obeys Event.PrecedesReport e.MayFail := by
  unfold errorText
  refine .bind (.attempt (obeys_consult (e := e) _ _ _ (fun _ => ?_) ?_)) fun reply => ?_
  · exact ⟨rfl, nofun⟩
  · exact ⟨rfl, nofun⟩
  · split <;> exact Flow.obeys_pure _

/-- The text of an error is found without fail. -/
theorem exists_errorText (l : Leg σ) (raw : List Char) (t : Transcript) (w : σ) (h : Bool) :
    ∃ message, ((errorText l raw t).run w h).value = .ok message := by
  unfold errorText
  rw [Flow.run_bind_of_ok rfl]
  split <;> exact ⟨_, rfl⟩

/-- An error ends a leg, and the client is told its text. -/
theorem run_endWithError (message : String) (w : σ) (h : Bool) :
    (endWithError message).run w h =
      ⟨.ok (.failed message), [.frame (.failed message)], w, h⟩ := rfl

/-- A leg is kept, and no frame is sent. -/
theorem obeys_keep (l : Leg σ) (t : Transcript) {q : Failure → Prop} :
    (e.keep l t).Obeys (·.frame? = none) q := by
  unfold keep
  split
  · split
    · exact Flow.obeys_pure _
    · refine .bind (Flow.obeys_tell rfl nofun) fun _ => ?_
      refine .bind (Flow.obeys_call _ rfl) fun _ => Flow.obeys_pure _
  · exact Flow.obeys_pure _

/-- A leg is kept without fail. -/
theorem value_keep (l : Leg σ) (t : Transcript) (w : σ) (h : Bool) :
    ((e.keep l t).run w h).value = .ok () := by
  unfold keep
  split
  · split
    · rfl
    · rw [Flow.run_bind_of_ok (a := ()) rfl, Flow.run_bind_of_ok rfl]
      rfl
  · rfl

/-- What follows the last hook: an error, or what its reply asks for. -/
def answer : Result (Option HookReply) → Flow σ Continuation
  | .error f => do return .ended (← endWithError f.message)
  | .ok r => follow (r.getD {})

/-- A leg is completed by its last hook, by keeping it, and by what the hook asks for. -/
theorem complete_eq (l : Leg σ) (t : Transcript) (asides : List Message) :
    e.complete l t asides =
      (lastReply l (.done t asides)).attempt >>= fun done =>
        (if isMalformed done then pure () else e.keep l t) >>= fun _ => answer done := by
  unfold complete lastReply
  congr 1
  funext done
  cases hmalformed : isMalformed done with
  | true =>
    cases done <;> rfl
  | false =>
    cases done <;> rfl

/-- A leg is completed with what follows its last hook. -/
theorem exists_value_complete (l : Leg σ) (t : Transcript) (asides : List Message) (w : σ)
    (h : Bool) :
    ∃ w' h', ((e.complete l t asides).run w h).value =
      ((answer ((lastReply l (.done t asides)).run w h).value : Flow σ _).run w' h').value := by
  have hkeep (reply : Result (Option HookReply)) (w : σ) (h : Bool) :
      ((if isMalformed reply then pure () else e.keep l t : Flow σ Unit).run w h).value =
        .ok () := by
    split
    · rfl
    · exact value_keep l t w h
  rw [complete_eq, Flow.run_attempt_bind]
  dsimp only
  rw [Flow.run_bind_of_ok (hkeep _ _ _)]
  exact ⟨_, _, rfl⟩

/-- If a last hook says anything, a leg is concluded with what follows that. -/
theorem exists_value_conclude {l : Leg σ} {ended : StreamEnd} {w : σ} {h : Bool}
    (hsaid : ((lastReply l ended).run w h).value ≠ .ok none) :
    ∃ w' h', ((e.conclude l ended).run w h).value =
      ((answer ((lastReply l ended).run w h).value : Flow σ _).run w' h').value := by
  cases ended with
  | failed raw t => exact absurd rfl hsaid
  | unread pending => exact absurd rfl hsaid
  | done t asides => exact exists_value_complete l t asides w h

/-- What follows the last hook tells the client of it. -/
theorem tells_answer (reply : Result (Option HookReply)) (w : σ) (h : Bool) :
    ∃ k, ((answer reply).run w h).value = .ok k ∧
      k.Tells (AsksToExit reply) (Event.frames ((answer reply).run w h).events) := by
  cases reply with
  | error x => exact ⟨.ended (.failed x.message), rfl, some _, rfl, .failed _⟩
  | ok r =>
    unfold answer follow
    dsimp only
    split
    · exact ⟨_, rfl, rfl⟩
    · next hnext =>
      refine ⟨.ended .completed, rfl, none, rfl, .exit ?_⟩
      cases r with
      | none => exact nomatch hnext
      | some r => exact ⟨r, rfl, hnext⟩
    · cases (r.getD {}).output with
      | none => exact ⟨.ended .completed, rfl, some _, rfl, .ended⟩
      | some text => exact ⟨.ended .completed, rfl, some _, rfl, .output text⟩

/-- What follows the last hook does not fail. -/
theorem obeys_answer (reply : Result (Option HookReply)) {q : Failure → Prop} :
    (answer reply : Flow σ _).Obeys (fun _ => True) q := by
  cases reply with
  | error x => exact (Flow.obeys_send trivial).bind fun _ => Flow.obeys_pure _
  | ok r =>
    unfold answer follow
    dsimp only
    split
    · exact Flow.obeys_pure _
    · exact Flow.obeys_pure _
    · exact (Flow.obeys_send trivial).bind fun _ => Flow.obeys_pure _

/-- The last hook is called, if it is called at all, without a frame. -/
theorem obeys_lastReply (l : Leg σ) (s : StreamEnd) :
    (lastReply l s).Obeys (·.frame? = none) e.MayFail := by
  cases s with
  | done t asides => exact obeys_consult _ _ _ (fun _ => rfl) rfl
  | failed raw t => exact Flow.obeys_pure _
  | unread pending => exact Flow.obeys_pure _

/-- A leg is completed without fail, and the client is told how. -/
theorem tells_complete (l : Leg σ) (t : Transcript) (asides : List Message) (w : σ) (h : Bool) :
    ∃ k, ((e.complete l t asides).run w h).value = .ok k ∧
      k.Tells (AsksToExit ((lastReply l (.done t asides)).run w h).value)
        (Event.frames ((e.complete l t asides).run w h).events) := by
  have hlast := (obeys_lastReply (e := e) l (.done t asides)).frames_eq_nil (fun _ h => h) w h
  rw [complete_eq]
  rw [Flow.run_attempt_bind]
  generalize (lastReply l (.done t asides)).run w h = o at hlast ⊢
  generalize hkeep : (if isMalformed o.value then pure () else e.keep l t : Flow σ Unit) = keep
  have hobeys : keep.Obeys (·.frame? = none) e.MayFail := by
    rw [← hkeep]
    split
    · exact Flow.obeys_pure _
    · exact obeys_keep l t
  have hvalue : (keep.run o.world o.hungUp).value = .ok () := by
    rw [← hkeep]
    split
    · rfl
    · exact value_keep l t _ _
  rw [Flow.run_bind_of_ok hvalue]
  simp only [Event.frames_append, hlast, hobeys.frames_eq_nil (fun _ h => h), List.nil_append]
  exact tells_answer o.value _ _

/-- A leg whose stream did not end well ends with an error, of which the client is told. -/
theorem exists_conclude_of_isError (l : Leg σ) {s : StreamEnd} (hs : s.IsError) (w : σ) (h : Bool) :
    ∃ message, ((e.conclude l s).run w h).value = .ok (.ended (.failed message)) ∧
      Event.frames ((e.conclude l s).run w h).events = [.failed message] := by
  cases s with
  | failed raw t =>
    obtain ⟨message, hmessage⟩ := exists_errorText l raw t w h
    have hquiet := (obeys_errorText (e := e) l raw t).frames_eq_nil (fun _ h => h.1) w h
    unfold conclude
    rw [Flow.run_bind_of_ok hmessage, Event.frames_append, hquiet]
    exact ⟨message, rfl, rfl⟩
  | unread pending => exact ⟨_, rfl, rfl⟩
  | done t asides => exact absurd hs id

/-- Nothing is completed when a leg ends with an error. -/
theorem obeys_conclude_of_isError (l : Leg σ) {s : StreamEnd} (hs : s.IsError) :
    (e.conclude l s).Obeys (¬Event.Completes ·) e.MayFail := by
  have hsend (message : String) :
      (endWithError message : Flow σ _).Obeys (¬Event.Completes ·) e.MayFail :=
    (Flow.obeys_send nofun).bind fun _ => Flow.obeys_pure _
  cases s with
  | failed raw t =>
    refine .bind ((obeys_errorText l raw t).mono fun _ h => h.2) fun message => ?_
    exact (hsend message).bind fun _ => Flow.obeys_pure _
  | unread pending => exact (hsend _).bind fun _ => Flow.obeys_pure _
  | done t asides => exact absurd hs id

/-- A leg is concluded. -/
theorem obeys_conclude (l : Leg σ) (s : StreamEnd) :
    (e.conclude l s).Obeys (fun _ => True) e.MayFail := by
  rcases s.isError_or_done with hs | ⟨t, asides, rfl⟩
  · exact (obeys_conclude_of_isError l hs).anyEvent
  · show (e.complete l t asides).Obeys _ _
    rw [complete_eq]
    refine (obeys_lastReply (e := e) l _).anyEvent.attempt.bind fun reply => ?_
    refine .bind ?_ fun _ => obeys_answer reply
    split
    · exact Flow.obeys_pure _
    · exact (obeys_keep l t).anyEvent

/-- A leg is concluded without fail, and the client is told how. -/
theorem tells_conclude (l : Leg σ) (s : StreamEnd) (w : σ) (h : Bool) :
    ∃ k, ((e.conclude l s).run w h).value = .ok k ∧
      k.Tells (AsksToExit ((lastReply l s).run w h).value)
        (Event.frames ((e.conclude l s).run w h).events) := by
  rcases s.isError_or_done with hs | ⟨t, asides, rfl⟩
  · obtain ⟨message, hv, hsent⟩ := exists_conclude_of_isError (e := e) l hs w h
    exact ⟨_, hv, some (.failed message), hsent, .failed message⟩
  · exact tells_complete l t asides w h

end Engine

end ChatRelay
