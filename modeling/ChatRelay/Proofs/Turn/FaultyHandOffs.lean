import ChatRelay.Proofs.Message.Faults
import ChatRelay.Proofs.Turn.Delegation
import ChatRelay.Proofs.Turn.Keeping

/-!
# Faulty hand-offs

The last hook of a leg may answer in JSON, with a next action that hands a message on. The answer is
read before the leg is kept, and the shape of the next action with it; but the message itself is
read only when it is handed on, and that is after. In both cases a fault is one of the input, and
the turn fails with one error (`Course.exists_failed`, `Course.filter_isError`). But only in the
first case the leg is not kept (`AnswersInJson.kept_eq_nil_iff`). Main result: `faultyNext_execute`
puts the two together for turns.
-/

namespace ChatRelay

open Json (Value Object)

namespace Engine

variable {σ : Type} {e : Engine σ}

/-! ### Calls whose last hook answers in JSON -/

variable (e) in
/-- The stream of a call comes to its end, and the last hook is called and answers in JSON. -/
structure AnswersInJson (s : Summons σ) (l : Leg σ) (t : Transcript) (v : Value) : Prop where
  entered : (e.entered s).value = .ok l
  answered : ∃ asides hook, (e.streamed s l).value = .ok (.done t asides) ∧
    l.assistant.hooks.done = some hook ∧
    (hook (l.hookInput (l.messages ++ asides) t none) (e.streamed s l).world).value =
      (HookReply.ofJson v).map some

section

variable {s : Summons σ} {l : Leg σ} {t : Transcript} {v : Value}

/-- What the hook says is what the answer is read as: its faults are faults of the input, and these
are reported as they are. -/
theorem AnswersInJson.finalReply_eq (h : e.AnswersInJson s l t v) :
    e.finalReply s = (HookReply.ofJson v).map some := by
  obtain ⟨asides, hook, hended, hhook, hanswer⟩ := h.answered
  have hreply : ((lastReply l (.done t asides)).run (e.streamed s l).world
      (e.streamed s l).hungUp).value =
        ((HookReply.ofJson v).map some).mapError HookStage.done.failure := by
    unfold lastReply consult
    have hat : l.assistant.hooks.at .done = some hook := hhook
    rw [hat]
    dsimp only
    rw [Flow.run_bind_of_ok (a := ()) rfl, Flow.run_bind_of_ok rfl, ← hanswer]
    rfl
  rw [Engine.finalReply_eq h.entered hended, hreply]
  cases hread : HookReply.ofJson v with
  | error x =>
    have hinput : HookStage.done.failure x = x := by
      unfold HookStage.failure
      rw [HookReply.blamesInput_ofJson v x hread]
    exact congrArg Except.error hinput
  | ok r => rfl

/-- A leg whose last hook fails ends with an error. -/
theorem value_conclude_of_error {ended : StreamEnd} {w : σ} {h : Bool} {x : Failure}
    (hlast : ((lastReply l ended).run w h).value = .error x) :
    ((e.conclude l ended).run w h).value = .ok (.ended (.failed x.message)) := by
  have hsaid : ((lastReply l ended).run w h).value ≠ .ok none := by
    rw [hlast]
    exact nofun
  obtain ⟨w', h', hvalue⟩ := exists_value_conclude (e := e) hsaid
  rw [hvalue, hlast]
  rfl

/-- A hand-off whose input cannot be read is not accepted. -/
theorem exists_error_accept {c : TurnContext} {handOff : HandOff} {x : Failure}
    (hinput : handOff.input.toMessage = .error x) (w : σ) (h : Bool) :
    ∃ y, y ≠ .canceled ∧ ((e.accept c handOff).run w h).value = .error y := by
  unfold accept
  cases hnext : e.assistants.resolve handOff.assistantId with
  | error y =>
    refine ⟨y, ?_, rfl⟩
    rintro rfl
    exact e.assistants.resolve_ne_canceled handOff.assistantId hnext
  | ok next =>
    refine ⟨x, ?_, ?_⟩
    · rintro rfl
      exact handOff.input.toMessage_ne_canceled hinput
    · rw [hinput]
      rfl

/-- A call whose last hook answers with a faulty next action fails, or ends in a failure. -/
theorem AnswersInJson.played_of_hasFaultyNext (h : e.AnswersInJson s l t v) {x : Failure}
    (hfault : HookReply.HasFaultyNext v x) :
    (∃ message, (e.played s).value = .ok (.inl (.failed message))) ∨
      ∃ y, y ≠ .canceled ∧ (e.played s).value = .error y := by
  have hfinal := h.finalReply_eq
  obtain ⟨asides, -, hended, -⟩ := h.answered
  have hlast := (Engine.finalReply_eq h.entered hended).symm.trans hfinal
  cases hread : HookReply.ofJson v with
  | error y =>
    rw [hread] at hlast
    have hconcluded : (e.concluded s l (.done t asides)).value = .ok (.ended (.failed y.message)) :=
      value_conclude_of_error hlast
    left
    refine ⟨y.message, ?_⟩
    rw [played_of_ended h.entered hended hconcluded]
    rfl
  | ok r =>
    rw [hread] at hlast
    obtain ⟨handOff, hnext, hinput⟩ := HookReply.exists_handOff_of_hasFaultyNext hread hfault
    have hconcluded : (e.concluded s l (.done t asides)).value = .ok (.handedOn handOff) :=
      value_conclude_of_handOff hlast hnext
    right
    obtain ⟨y, hy, haccept⟩ := exists_error_accept (e := e) (c := l.context) hinput
      (e.concluded s l (.done t asides)).world (e.concluded s l (.done t asides)).hungUp
    refine ⟨y, hy, ?_⟩
    rw [played_of_ended h.entered hended hconcluded]
    have hhanded : (e.handed s l (.done t asides) (.handedOn handOff)).value = .error y := by
      unfold handed handOn
      dsimp only
      rw [Flow.run_bind_of_error haccept]
    exact hhanded

/-! ### What such calls keep -/

/-- Such a call keeps its leg, if it is one to be kept, exactly if the answer of its last hook is
read, in spite of the fault or without one. -/
theorem AnswersInJson.kept_eq_nil_iff (h : e.AnswersInJson s l t v) :
    Event.kept (e.played s).events = [] ↔
      (∃ y, HookReply.ofJson v = .error y) ∨ e.archive = none ∨ keepsakes l t = [] := by
  obtain ⟨asides, -, hended, -⟩ := h.answered
  cases harchive : e.archive with
  | none =>
    constructor
    · intro _
      exact .inr (.inl rfl)
    · intro _
      exact kept_played_of_archive_eq_none harchive s
  | some archive =>
    rw [kept_played_of_done harchive h.entered hended, h.finalReply_eq]
    -- The hand-off is decoded after the leg is kept: only an answer that cannot be read at all
    -- prevents that.
    cases hread : HookReply.ofJson v with
    | error y =>
      have hmalformed : isMalformed ((.error y : Result HookReply).map some) = true := by
        show (y.category == .input) = true
        rw [HookReply.blamesInput_ofJson v y hread]
        rfl
      rw [hmalformed, if_pos rfl]
      constructor
      · intro _
        exact .inl ⟨y, rfl⟩
      · intro _
        rfl
    | ok r =>
      have hmalformed : isMalformed ((.ok r : Result HookReply).map some) = false := rfl
      rw [hmalformed, if_neg Bool.false_ne_true]
      constructor
      · intro hnothing
        exact .inr (.inr hnothing)
      · rintro (⟨y, hy⟩ | hnone | hnothing)
        · exact nomatch hy
        · exact nomatch hnone
        · exact hnothing

end

/-! ### Runs -/

/-- A run that settles for a failure tells the client of it in the only error that is sent. -/
theorem Course.filter_isError {s : Summons σ} {calls : List (Summons σ)} {o : Outcome σ TurnResult}
    (h : e.Course s calls o) {message : String} (hfailed : (settled o.value).1 = .failed message) :
    (Event.frames (o.events ++ (settled o.value).2)).filter Frame.isError = [.failed message] := by
  obtain ⟨quiet, exits, last, hframes, hquiet, hlast⟩ := h.exists_last
  have hbefore : quiet.filter Frame.isError = [] := by
    apply List.filter_eq_nil_iff.2
    intro f hf
    rw [(hquiet f hf).2]
    exact Bool.false_ne_true
  rw [Event.frames_append, hframes]
  cases hv : o.value with
  | ok r =>
    rw [hv] at hlast hfailed
    cases hfailed
    obtain ⟨own, rfl, hown⟩ := (Closing.failed_iff hlast).1 rfl
    cases hown
    simp [hbefore, settled, Frame.failed, Frame.isError, Event.frames]
  | error x =>
    rw [hv] at hlast hfailed
    cases hlast
    have hx : x ≠ .canceled := by
      rintro rfl
      cases hfailed
    rw [settled_of_ne_canceled hx] at hfailed ⊢
    cases hfailed
    simp [hbefore, Frame.failed, Frame.isError, Event.frames, Event.frame?]

/-- A run of which a call fails, or ends in a failure, settles for a failure. -/
theorem Course.exists_failed {s t : Summons σ} {calls : List (Summons σ)} {o : Outcome σ TurnResult}
    (h : e.Course s calls o) (ht : t ∈ calls)
    (hfails : (∃ message, (e.played t).value = .ok (.inl (.failed message))) ∨
      ∃ x, x ≠ .canceled ∧ (e.played t).value = .error x) :
    ∃ message, (settled o.value).1 = .failed message := by
  rcases hfails with ⟨message, hvalue⟩ | ⟨x, hx, hvalue⟩
  · rw [(h.eq_last ht hvalue).1]
    exact ⟨message, rfl⟩
  · rw [h.value_of_failed ht hvalue, settled_of_ne_canceled hx]
    exact ⟨x.message, rfl⟩

/-! ### Turns -/

/-- What becomes of a turn in which a last hook answers in JSON with a next action that is to hand a
message on, but is not well formed or hands on what is no message. What is wrong with it is a fault
of the input. If the client does not leave, the turn fails, and the client is told of that in the
only error that is sent. The leg of this hook is not kept exactly if the answer as a whole is not
read, which is so if anything is wrong but the object or the text that is to be the message; or if
there is nothing to keep of the leg, or no archive. -/
theorem faultyNext_execute (e : Engine σ) (c : TurnContext) (input : Message) (caller : Object)
    (hungUp : Bool) (w : σ) {s : Summons σ} (hs : s ∈ e.callsIn c input caller hungUp w)
    {l : Leg σ} {t : Transcript} {v : Value} (hanswers : e.AnswersInJson s l t v) {x : Failure}
    (hfault : HookReply.HasFaultyNext v x) :
    x.category = .input ∧
      (hungUp = false → .hungUp ∉ (e.execute c input caller hungUp w).events →
        ∃ message, (e.execute c input caller hungUp w).result = .failed message ∧
          (Event.frames (e.execute c input caller hungUp w).events).filter Frame.isError =
            [.failed message]) ∧
      (Event.kept (e.played s).events = [] ↔
        (∃ y, HookReply.ofJson v = .error y) ∨ e.archive = none ∨ keepsakes l t = []) := by
  refine ⟨HookReply.category_of_hasFaultyNext hfault, ?_, hanswers.kept_eq_nil_iff⟩
  rintro rfl hnever
  obtain ⟨before, hbefore, hturn⟩ := exists_course hnever
  rcases hturn with ⟨y, hnone, -⟩ | ⟨first, o, hcourse, -, -, -, -, hresult, hevents⟩
  · have hcalls : e.callsOf c input caller w = e.callsIn c input caller false w := rfl
    rw [← hcalls, hnone] at hs
    exact absurd hs List.not_mem_nil
  · obtain ⟨message, hfailed⟩ := hcourse.exists_failed hs (hanswers.played_of_hasFaultyNext hfault)
    refine ⟨message, hresult.trans hfailed, ?_⟩
    have hquiet : Event.frames before = [] :=
      Event.frames_eq_nil fun ev hev => (hbefore ev hev).frame?_eq_none
    have hreturned : Event.frames [.returned] = [] := rfl
    rw [hevents, Event.frames_append, hquiet, List.nil_append, ← List.append_assoc,
      Event.frames_append, hreturned, List.append_nil]
    exact hcourse.filter_isError hfailed

/-- The answer in JSON of a hook that hands an input on to an assistant with the id `a`. -/
def handingOn (input : Value) : Value :=
  Json.objectOf [("next", some (Json.objectOf [
    ("action", some (.string "assistant")),
    ("payload", some (Json.objectOf [
      ("assistant_id", some (.string "a")),
      ("input", some input)]))]))]

/-- An assistant with the id `a`, whose last hook answers in JSON. -/
def inJson (v : Value) : Assistant Unit :=
  bare "a" (some fun _ => .known ((HookReply.ofJson v).map some))

/-- An engine with an archive, whose only assistant is that one, and whose model says hello. -/
def answeringInJson (v : Value) : Engine Unit :=
  { remembering with assistants := .ofAssistants [inJson v] }

/-- The first call in a turn of a session with such an engine. -/
def firstCall (v : Value) : Summons Unit where
  levels := (answeringInJson v).settings.maxDepth + 1
  brief := ⟨sessionTurn, inJson v, [.of .user "hi"], []⟩
  world := ()
  hungUp := false

theorem firstCall_mem (v : Value) :
    firstCall v ∈ (answeringInJson v).callsIn sessionTurn (.of .user "hi") [] false () :=
  List.mem_cons_self

/-- The leg of that call. -/
def firstLeg (v : Value) : Leg Unit := (answeringInJson v).openingLeg (firstCall v).brief

/-- Whether a stream ends well. -/
def endsWell : Result StreamEnd → Bool
  | .ok (.done _ _) => true
  | _ => false

/-- If its stream ends well, the hook of that call answers in JSON. -/
theorem exists_answersInJson {v : Value}
    (hended : endsWell ((answeringInJson v).streamed (firstCall v) (firstLeg v)).value = true) :
    ∃ t, (answeringInJson v).AnswersInJson (firstCall v) (firstLeg v) t v := by
  cases hvalue : ((answeringInJson v).streamed (firstCall v) (firstLeg v)).value with
  | error x =>
    rw [hvalue] at hended
    exact nomatch hended
  | ok ended =>
    rw [hvalue] at hended
    cases ended with
    | done t asides => exact ⟨t, rfl, asides, _, hvalue, rfl, rfl⟩
    | failed raw t => exact nomatch hended
    | unread pending => exact nomatch hended

/-- A turn of a session with such an engine. -/
def turnInJson (v : Value) : Turn Unit :=
  (answeringInJson v).execute sessionTurn (.of .user "hi") [] false ()

/-- The answer of a hook that hands on what is no message. -/
def fromTruth : Value := handingOn (.bool true)

/-- That it is no message is found when the answer is read. The turn fails, and nothing is kept. -/
theorem faultyNext_execute_bool :
    (∃ message, (turnInJson fromTruth).result = .failed message ∧
        (Event.frames (turnInJson fromTruth).events).filter Frame.isError = [.failed message]) ∧
      Event.kept ((answeringInJson fromTruth).played (firstCall fromTruth)).events = [] := by
  have hended : endsWell ((answeringInJson fromTruth).streamed (firstCall fromTruth)
      (firstLeg fromTruth)).value = true := by
    decide +kernel
  have hthere : (turnInJson fromTruth).events.all isThere = true := by decide +kernel
  have hfault : HookReply.HasFaultyNext fromTruth
      (.invalidInput "input should be a string or a message, got true") := ⟨_, rfl, rfl⟩
  have hread : ∃ y, HookReply.ofJson fromTruth = .error y := ⟨_, rfl⟩
  obtain ⟨t, hanswers⟩ := exists_answersInJson hended
  obtain ⟨-, hfails, hkept⟩ := faultyNext_execute _ sessionTurn (.of .user "hi") [] false ()
    (firstCall_mem _) hanswers hfault
  exact ⟨hfails rfl (hungUp_not_mem hthere), hkept.2 (.inl hread)⟩

/-- The answer of a hook that hands on the message of a robot. -/
def fromRobot : Value := handingOn (.object [("role", .string "robot")])

/-- That there is no such role is found when the leg of the hook is already kept. -/
theorem kept_played_fromRobot :
    ∃ s ∈ (answeringInJson fromRobot).callsIn sessionTurn (.of .user "hi") [] false (),
      (∃ l t, (answeringInJson fromRobot).AnswersInJson s l t fromRobot) ∧
        HookReply.HasFaultyNext fromRobot (.invalidInput "unknown role: robot") ∧
        Event.kept ((answeringInJson fromRobot).played s).events ≠ [] := by
  have hended : endsWell ((answeringInJson fromRobot).streamed (firstCall fromRobot)
      (firstLeg fromRobot)).value = true := by
    decide +kernel
  have hkept :
      (Event.kept ((answeringInJson fromRobot).played (firstCall fromRobot)).events).length =
        1 := by
    decide +kernel
  obtain ⟨t, hanswers⟩ := exists_answersInJson hended
  refine ⟨firstCall fromRobot, firstCall_mem fromRobot, ⟨_, t, hanswers⟩, ⟨_, rfl, rfl⟩, ?_⟩
  intro hnothing
  rw [hnothing] at hkept
  exact nomatch hkept

end Engine

end ChatRelay
