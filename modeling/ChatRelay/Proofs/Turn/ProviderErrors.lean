import ChatRelay.Proofs.Json.Rereading
import ChatRelay.Proofs.Provider.ErrorTexts
import ChatRelay.Proofs.Reply.Joining
import ChatRelay.Proofs.Turn.FaultyHandOffs

/-!
# Errors that the provider reports

A provider reports an error in a frame, as a string or as an object with a message. A reply takes
that message out of the frame as it is, whatever is pending (`Delta.ofFrame?_of_reports`), and the
frame is the last that the reply takes (`step_delivered_of_reports`). Without help from the hook for
errors, the turn then fails with what is read in the message once more (`toldError_execute`): the
client and the result of the turn tell the message itself exactly if nothing else is read in it.
-/

namespace ChatRelay

open Json (Value Object)

/-! ### Frames that report an error -/

namespace Provider

/-- The error has a message: it is a string, or an object in which a string is the message. -/
def HasMessage (error : Value) (m : String) : Prop :=
  error = .string m ∨ ∃ o, error = .object o ∧ Table.get? o "message" = some (.string m)

/-- The text of an error that has a message is the message. -/
theorem HasMessage.errorText_eq {error : Value} {m : String} (h : HasMessage error m) :
    errorText error = m.toList := by
  rcases h with rfl | ⟨o, rfl, hmessage⟩
  · rfl
  · have hstring : ((Value.object o).member? "message").bind Value.asString? = some m := by
      rw [Value.member?, hmessage]
      rfl
    simp only [errorText, hstring]

/-- An error that has a message is not null. -/
theorem HasMessage.isNull_eq_false {error : Value} {m : String} (h : HasMessage error m) :
    error.isNull = false := by
  rcases h with rfl | ⟨o, rfl, -⟩
  · rfl
  · rfl

/-- The frame reports an error with a message: its data are an object that holds the error. -/
def Reports (raw : List UInt8) (m : String) : Prop :=
  ∃ o error, Delta.HoldsObject raw o ∧ Table.get? o "error" = some error ∧ HasMessage error m

end Provider

open Provider (Reports)

/-- A frame that reports an error is read as its message. -/
theorem Delta.ofFrame?_of_reports {raw : List UInt8} {m : String} (h : Reports raw m) :
    ofFrame? raw = some (.on .error m.toList) := by
  obtain ⟨o, error, hobject, herror, hmessage⟩ := h
  rw [hobject.ofFrame?_eq, ofObject?_of_error _ herror hmessage.isNull_eq_false,
    hmessage.errorText_eq]

/-- A reply ends with such a frame, whatever is pending. -/
theorem Reply.step_takeFrame_of_reports (r : Reply) {raw : List UInt8} {m : String}
    (h : Reports raw m) : (r.takeFrame raw).step = .failed m.toList := by
  rw [takeFrame_eq, r.read_of_readable (Delta.ofFrame?_of_reports h) rfl]
  exact step_take _ _

namespace Engine

/-- If any of the frames that a stream takes while the client is there reports an error, the stream
comes to that error. -/
theorem step_handOver_of_reports {raw : List UInt8} {m : String} (hraw : Reports raw m)
    (deliveries : List Delivery) (count : Nat) {s : Streaming} :
    let d := BackendReply.handOver Streaming.take Streaming.hangUp deliveries count s
    d.taken.hungUp = false →
      raw ∈ (deliveries.filterMap Delivery.frame?).take (d.count - count) →
        d.taken.step = .failed m.toList := by
  induction deliveries generalizing count s with
  | nil =>
    intro d _ hmem
    exact absurd (List.mem_of_mem_take hmem) List.not_mem_nil
  | cons delivery rest ih =>
    intro d hthere hmem
    cases delivery with
    | hangUp =>
      have hgone := (handOver_of_hungUp rest count (s := s.hangUp) rfl).1
      exact nomatch hthere.symm.trans hgone
    | frame bytes =>
      have hs : s.hungUp = false := by
        refine Bool.eq_false_iff.2 fun hs => ?_
        have hgone := (handOver_of_hungUp (.frame bytes :: rest) count hs).1
        exact nomatch hthere.symm.trans hgone
      have hfirst (heq : raw = bytes) : (s.reply.takeFrame bytes).step = .failed m.toList :=
        s.reply.step_takeFrame_of_reports (heq ▸ hraw)
      have hcases (n : Nat) (h : raw ∈ (bytes :: rest.filterMap Delivery.frame?).take n) :
          raw = bytes ∨ raw ∈ (rest.filterMap Delivery.frame?).take (n - 1) := by
        cases n with
        | zero => exact absurd h List.not_mem_nil
        | succ n => exact List.mem_cons.1 h
      unfold d BackendReply.handOver at hthere hmem ⊢
      rw [Streaming.take_of_there hs] at hthere hmem ⊢
      dsimp only at hthere hmem ⊢
      -- The frame that reports the error ends the reply. So if the reply goes on, that frame is yet
      -- to come; and if the reply does not go on, no later frame is counted.
      split at hthere
      · next hmore =>
        rw [if_pos hmore] at hmem ⊢
        rcases hcases _ hmem with heq | htail
        · rw [hfirst heq] at hmore
          exact absurd hmore Bool.false_ne_true
        · rw [Nat.sub_sub] at htail
          exact ih (count + 1) hthere htail
      · next hmore =>
        rw [if_neg hmore] at hmem ⊢
        rcases hcases _ hmem with heq | htail
        · exact hfirst heq
        · rw [Nat.add_sub_cancel_left] at htail
          exact absurd htail List.not_mem_nil

/-- So does the stream of a reply, if the client is there when the backend has returned. -/
theorem step_delivered_of_reports {raw : List UInt8} {m : String} (hraw : Reports raw m)
    {who : Identity} {h : Bool} {r : BackendReply}
    (hthere : (delivered who h r).taken.hungUp = false)
    (hmem : raw ∈ r.frames.take (delivered who h r).count) :
    (delivered who h r).taken.step = .failed m.toList := by
  have hover := delivered_of_there hthere
  rw [hover] at hthere hmem ⊢
  exact step_handOver_of_reports hraw _ 0 hthere hmem

variable {σ : Type} {e : Engine σ} {s : Summons σ} {l : Leg σ} {request : List Value}
  {raw : List UInt8} {m : String}

/-! ### Calls -/

/-- The hook for errors does not help with an error: there is none, or it fails. -/
def Unaided (l : Leg σ) (t : Transcript) (raw : List Char) (w : σ) : Prop :=
  ∀ hook, l.assistant.hooks.at .fail = some hook →
    ∃ x, (hook (l.hookInput l.messages t (some raw)) w).value = .error x

/-- Without help the text of an error is what is read in it. -/
theorem value_errorText_of_unaided {t : Transcript} {text : List Char} {w : σ}
    (h : Unaided l t text w) (hungUp : Bool) :
    ((errorText l text t).run w hungUp).value =
      .ok (String.ofList (Provider.errorTextOfBody text)) := by
  unfold errorText
  rw [Flow.run_attempt_bind]
  have hreply : ((consult l.assistant .fail (l.hookInput l.messages t (some text))).run w
      hungUp).value = .ok none ∨ ∃ x, ((consult l.assistant .fail
        (l.hookInput l.messages t (some text))).run w hungUp).value = .error x := by
    unfold consult
    cases hhook : l.assistant.hooks.at .fail with
    | none => exact .inl rfl
    | some hook =>
      obtain ⟨x, hx⟩ := h hook hhook
      refine .inr ⟨HookStage.fail.failure x, ?_⟩
      rw [Flow.run_bind_of_ok (a := ()) rfl, Flow.run_bind_of_ok rfl]
      show Except.mapError HookStage.fail.failure
        (hook (l.hookInput l.messages t (some text)) w).value = _
      rw [hx]
      rfl
  rcases hreply with hreply | ⟨x, hreply⟩
  · rw [hreply]
    rfl
  · rw [hreply]
    rfl

/-- The frames of a call's reply that the stream takes. -/
def taken (e : Engine σ) (s : Summons σ) (l : Leg σ) (request : List Value) : List (List UInt8) :=
  (e.answered s l request).value.frames.take (e.received s l request).count

/-- A call that takes a frame which reports an error, and has no help with it, ends with what is
read in the message. -/
theorem played_of_reports (h : e.AsksBackend s l request) (hs : s.hungUp = false)
    (hnever : .hungUp ∉ (e.played s).events) (hraw : Reports raw m)
    (htaken : raw ∈ e.taken s l request)
    (hunaided : Unaided l (e.received s l request).taken.reply.transcript m.toList
      (e.streamed s l).world) :
    (e.played s).value =
      .ok (.inl (.failed (String.ofList (Provider.errorTextOfBody m.toList)))) := by
  obtain ⟨hstart, hthere⟩ := h.there hs hnever
  have hstep : (e.received s l request).taken.step = .failed m.toList :=
    step_delivered_of_reports hraw hthere htaken
  have hstreamed : (e.streamed s l).value =
      .ok (.failed m.toList (e.received s l request).taken.reply.transcript) := by
    rcases h.streamed_cases hthere with ⟨x, -, hmore, -⟩ | ⟨-, hvalue⟩
    · exact nomatch hstep.symm.trans hmore
    · rw [hvalue, streamEndOf_ended, hstep]
  have hconcluded : (e.concluded s l
      (.failed m.toList (e.received s l request).taken.reply.transcript)).value =
        .ok (.ended (.failed (String.ofList (Provider.errorTextOfBody m.toList)))) := by
    unfold concluded conclude
    rw [Flow.run_bind_of_ok (value_errorText_of_unaided hunaided _)]
    rfl
  rw [played_of_ended h.entered hstreamed hconcluded]
  rfl

/-! ### Turns -/

/-- What the client and the result of a turn tell of an error that the provider reports with a
message, if the client does not leave and the hook for errors does not help: what is read in the
message, in the only error that is sent. It is the message itself exactly if nothing else is read in
it. -/
theorem toldError_execute (e : Engine σ) (c : TurnContext) (input : Message) (caller : Object)
    (w : σ) (hnever : .hungUp ∉ (e.execute c input caller false w).events)
    (hs : s ∈ e.callsOf c input caller w) (hasks : e.AsksBackend s l request) (hraw : Reports raw m)
    (htaken : raw ∈ e.taken s l request)
    (hunaided : Unaided l (e.received s l request).taken.reply.transcript m.toList
      (e.streamed s l).world) :
    ∃ told, (e.execute c input caller false w).result = .failed told ∧
      (Event.frames (e.execute c input caller false w).events).filter Frame.isError =
        [.failed told] ∧
      (told = m ↔ Provider.ReadsAsItself m.toList) := by
  obtain ⟨before, hbefore, hturn⟩ := exists_course hnever
  rcases hturn with ⟨x, hnone, -⟩ | ⟨first, o, hcourse, -, -, hfirst, hnever, hresult, hevents⟩
  · rw [hnone] at hs
    exact absurd hs List.not_mem_nil
  · -- A call that ends does not hand on, so it is the last of the turn, which is settled with its
    -- end.
    obtain ⟨hthere, hquiet⟩ := hcourse.there hfirst hnever s hs
    have hplayed := played_of_reports hasks hthere hquiet hraw htaken hunaided
    have hvalue := (hcourse.eq_last hs hplayed).1
    have hfailed : (settled o.value).1 =
        .failed (String.ofList (Provider.errorTextOfBody m.toList)) := by
      rw [hvalue]
      rfl
    refine ⟨_, hresult.trans hfailed, ?_, ?_⟩
    · have hbeforeFrames : Event.frames before = [] :=
        Event.frames_eq_nil fun ev hev => (hbefore ev hev).frame?_eq_none
      have hreturned : Event.frames [.returned] = [] := rfl
      rw [hevents, Event.frames_append, hbeforeFrames, List.nil_append, ← List.append_assoc,
        Event.frames_append, hreturned, List.append_nil]
      exact hcourse.filter_isError hfailed
    · rw [← Provider.errorTextOfBody_eq_self_iff]
      constructor
      · intro htold
        exact String.toList_ofList.symm.trans (congrArg String.toList htold)
      · intro hself
        rw [hself, String.ofList_toList]

/-- An assistant whose hook for errors always fails. -/
def helpless : Assistant Unit :=
  { bare "a" none with hooks := { fail := some fun _ => .known (.error (.provider "crashed")) } }

/-- The frame of a provider whose error is a string or an object. -/
def errorFrame (error : Value) : List UInt8 :=
  Text.utf8 (Value.object [("error", error)]).render

/-- The frame holds the error, if the error is read in what it is written as. -/
theorem holdsObject_errorFrame {error : Value}
    (hline : Delta.isControlLine (Text.trim (Text.decode (errorFrame error))) = false)
    (hdata : Delta.dataOf (Text.trim (Text.decode (errorFrame error))) =
      (Value.object [("error", error)]).render)
    (hread : Json.ReadsBack 126 error) :
    Delta.HoldsObject (errorFrame error) [("error", error)] :=
  Delta.holdsObject_of_text hline hdata
    (Json.parse?_render_object rfl (List.pairwise_singleton _ _)
      (List.forall_mem_singleton.2 hread))

/-- An engine with that assistant, whose model says a word and then reports an error. -/
def reporting (error : Value) : Engine Unit :=
  .of {} (.ofAssistants [helpless]) fun _ _ =>
    .known (.ofFrames [Text.utf8 "\x7b\"text\":\"par\"\x7d".toList, errorFrame error])

/-- The first turn of such an engine. -/
def reportingTurn (error : Value) : Turn Unit :=
  (reporting error).execute (firstTurn "a") (.of .user "hi") [] false ()

/-- The only call of such a turn. -/
def reportingCall (error : Value) : Summons Unit where
  levels := (reporting error).settings.maxDepth + 1
  brief := ⟨firstTurn "a", helpless, [.of .user "hi"], []⟩
  world := ()
  hungUp := false

/-- The leg of that call. -/
def reportingLeg (error : Value) : Leg Unit :=
  (reporting error).openingLeg (reportingCall error).brief

theorem reportingCall_mem (error : Value) :
    reportingCall error ∈ (reporting error).callsOf (firstTurn "a") (.of .user "hi") [] () :=
  List.mem_cons_self

/-- The call asks for a reply, whatever the error is. -/
theorem exists_asksBackend_reporting (error : Value) :
    ∃ request,
      (reporting error).AsksBackend (reportingCall error) (reportingLeg error) request := by
  have hsame : ((reporting error).requested (reportingCall error) (reportingLeg error)).value =
      ((reporting .null).requested (reportingCall .null) (reportingLeg .null)).value := rfl
  have hok : ((reporting .null).requested (reportingCall .null) (reportingLeg .null)).value.isOk =
      true := by decide +kernel
  cases hrequest :
    ((reporting error).requested (reportingCall error) (reportingLeg error)).value with
  | ok request => exact ⟨request, rfl, hrequest⟩
  | error x =>
    rw [← hsame, hrequest] at hok
    exact nomatch hok

/-- What the stream takes of its reply does not depend on the request. -/
theorem mem_taken_reporting {error : Value} (request : List Value)
    (h : ((reporting error).taken (reportingCall error) (reportingLeg error) []).contains
      (errorFrame error) = true) :
    errorFrame error ∈
      (reporting error).taken (reportingCall error) (reportingLeg error) request := by
  have hsame : (reporting error).taken (reportingCall error) (reportingLeg error) request =
      (reporting error).taken (reportingCall error) (reportingLeg error) [] := rfl
  rw [hsame]
  exact List.contains_iff_mem.1 h

/-- Nobody helps with the error. -/
theorem unaided_reporting (error : Value) (t : Transcript) (raw : List Char) (w : Unit) :
    Unaided (reportingLeg error) t raw w := by
  intro hook hhook
  cases hhook
  exact ⟨_, rfl⟩

/-- An error as an object with a message. -/
def errorObject (message : String) : Value := .object [("message", .string message)]

/-- The frame of such an error reports its message. -/
theorem reports_overloaded : Reports (errorFrame (errorObject "overloaded")) "overloaded" := by
  have hmessage : Json.ReadsBack 126 (errorObject "overloaded") :=
    Json.readsBack_object (List.pairwise_singleton _ _)
      (List.forall_mem_singleton.2 (Json.readsAs_string 125 _))
  have hholds := holdsObject_errorFrame (by decide +kernel) (by decide +kernel) hmessage
  exact ⟨_, _, hholds, rfl, .inr ⟨_, rfl, rfl⟩⟩

/-- A message that is no JSON text is told as it is. -/
theorem toldError_execute_overloaded :
    (reportingTurn (errorObject "overloaded")).result = .failed "overloaded" ∧
      (Event.frames (reportingTurn (errorObject "overloaded")).events).filter Frame.isError =
        [.failed "overloaded"] := by
  have hthere : (reportingTurn (errorObject "overloaded")).events.all isThere = true := by
    decide +kernel
  have htaken : ((reporting (errorObject "overloaded")).taken
      (reportingCall (errorObject "overloaded")) (reportingLeg (errorObject "overloaded"))
        []).contains (errorFrame (errorObject "overloaded")) = true := by
    decide +kernel
  have hnone : Value.parse? (Text.trim "overloaded".toList) = none :=
    Option.isNone_iff_eq_none.1 (by decide +kernel)
  obtain ⟨request, hasks⟩ := exists_asksBackend_reporting (errorObject "overloaded")
  obtain ⟨told, hresult, hframes, htold⟩ := toldError_execute _ (firstTurn "a") (.of .user "hi") []
    () (hungUp_not_mem hthere) (reportingCall_mem _) hasks reports_overloaded
    (mem_taken_reporting request htaken) (unaided_reporting _ _ _ _)
  have hsame : told = "overloaded" := htold.2 fun v hv =>
    absurd (hv.symm.trans hnone) (Option.some_ne_none v)
  cases hsame
  exact ⟨hresult, hframes⟩

/-- A message that is a JSON text with a message in it. -/
def jsonMessage : String := "\x7b\"message\":\"x\"\x7d"

/-- Of such a message only the one inside of it is told, in the result of the turn and to the
client. -/
theorem toldError_jsonMessage :
    ∃ s ∈ (reporting (.string jsonMessage)).callsOf (firstTurn "a") (.of .user "hi") [] (),
      ∃ l request, (reporting (.string jsonMessage)).AsksBackend s l request ∧
        Reports (errorFrame (.string jsonMessage)) jsonMessage ∧
        errorFrame (.string jsonMessage) ∈ (reporting (.string jsonMessage)).taken s l request ∧
        (∀ t raw w, Unaided l t raw w) ∧
        .hungUp ∉ (reportingTurn (.string jsonMessage)).events ∧
        (reportingTurn (.string jsonMessage)).result = .failed "x" ∧
        ((Event.frames (reportingTurn (.string jsonMessage)).events).filter Frame.isError).map
          Frame.text = [some "x"] := by
  have hthere : (reportingTurn (.string jsonMessage)).events.all isThere = true := by
    decide +kernel
  have htaken : ((reporting (.string jsonMessage)).taken (reportingCall (.string jsonMessage))
      (reportingLeg (.string jsonMessage)) []).contains
        (errorFrame (.string jsonMessage)) = true := by
    decide +kernel
  have hstring : Json.ReadsBack 126 (.string jsonMessage) := Json.readsAs_string 126 jsonMessage
  have hholds := holdsObject_errorFrame (by decide +kernel) (by decide +kernel) hstring
  have hreports : Reports (errorFrame (.string jsonMessage)) jsonMessage :=
    ⟨_, _, hholds, rfl, .inl rfl⟩
  obtain ⟨request, hasks⟩ := exists_asksBackend_reporting (.string jsonMessage)
  refine ⟨_, reportingCall_mem _, reportingLeg _, request, hasks, hreports, ?_, ?_, ?_, ?_, ?_⟩
  · exact mem_taken_reporting request htaken
  · exact unaided_reporting _
  · exact hungUp_not_mem hthere
  · decide +kernel
  · decide +kernel

end Engine

end ChatRelay
