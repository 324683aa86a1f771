import ChatRelay.Proofs.Turn.Calls
import ChatRelay.Proofs.Turn.FailedReplies

/-!
# What is kept of a turn

Records are given to the archive when a leg is completed, and nowhere else (`kept_played`). So what
a turn keeps is what its calls keep, one after another, and a call keeps its leg before the next
call begins. `Engine.Keeps` lists all that this takes: a stream that ended with nothing left unread,
a last hook whose answer is not malformed, a reply that says something, a session, and an input.

The input of a hand-off is hidden, and is still the last message of the leg to which it is handed,
unless the first hook there rewrites the messages (`getLast?_entered`). So of such a leg only the
reply is kept. What the archive answers when records are given to it does not matter
(`execute_answeringSaves`).
-/

namespace ChatRelay

open Json (Value Object)

/-- Records that are given to an archive. -/
structure Kept where
  session : String
  chat : String
  records : List Record
  metadata : Object

namespace Event

/-- The records that an event gives to the archive. -/
def kept? : Event → Option Kept
  | save session chat records metadata => some ⟨session, chat, records, metadata⟩
  | _ => none

/-- What is given to the archive among events, one entry for each time. -/
def kept (events : List Event) : List Kept :=
  events.filterMap kept?

@[simp] theorem kept_nil : kept [] = [] := rfl

@[simp] theorem kept_append (a b : List Event) : kept (a ++ b) = kept a ++ kept b :=
  List.filterMap_append

/-- Events that complete nothing keep nothing. -/
theorem kept_eq_nil {events : List Event} (h : ∀ ev ∈ events, ¬ev.Completes) :
    kept events = [] := by
  refine List.filterMap_eq_nil_iff.2 fun ev hev => ?_
  cases ev with
  | save session chat records metadata => exact absurd (.save _ _ _ _) (h _ hev)
  | _ => rfl

/-- Events that are no saves keep nothing. -/
theorem kept_eq_nil_of_kept? {events : List Event} (h : ∀ ev ∈ events, ev.kept? = none) :
    kept events = [] :=
  List.filterMap_eq_nil_iff.2 h

end Event

namespace Engine

variable {σ : Type} {e : Engine σ}

/-! ### What a leg keeps -/

/-- What there is to keep of a leg and a reply: nothing without an input, a session or a reply. -/
def keepsakes (l : Leg σ) (t : Transcript) : List Kept :=
  match l.messages.getLast? with
  | some input =>
    if t.isEmpty ∨ l.context.sessionId = "" then []
    else [⟨l.context.sessionId, l.context.chatId, recordsOf l input t, l.context.metadata⟩]
  | none => []

/-- The records of a leg are the input's, unless it is hidden, and the reply's. -/
theorem recordsOf_eq (l : Leg σ) (input : Message) (t : Transcript) :
    recordsOf l input t =
      (if input.hidden then [] else [.ofUser input.text l.context.sessionId]) ++
        [.ofAssistant t.json l.context.sessionId l.assistant.identity] := by
  unfold recordsOf
  cases input.hidden <;> rfl

/-- With an archive a leg is kept. -/
theorem kept_keep {archive : Archive σ} (harchive : e.archive = some archive) (l : Leg σ)
    (t : Transcript) (w : σ) (h : Bool) :
    Event.kept ((e.keep l t).run w h).events = keepsakes l t := by
  unfold keep keepsakes
  rw [harchive]
  cases l.messages.getLast? with
  | none => rfl
  | some input =>
    dsimp only
    split
    · rfl
    · rw [Flow.run_bind_of_ok (a := ()) rfl, Flow.run_bind_of_ok rfl]
      dsimp only [Flow.run_tell, Flow.run_call, Flow.run_pure]
      split <;> rfl

/-- What follows the last hook keeps nothing. -/
theorem kept_answer (reply : Result (Option HookReply)) (w : σ) (h : Bool) :
    Event.kept ((answer reply : Flow σ _).run w h).events = [] := by
  cases reply with
  | error x => rfl
  | ok r =>
    unfold answer follow
    dsimp only
    split <;> rfl

/-- When a leg is completed nothing else is kept than the leg, and not that if the last hook's
answer is malformed. -/
theorem exists_kept_complete (l : Leg σ) (t : Transcript) (asides : List Message) (w : σ)
    (h : Bool) :
    ∃ w' h', Event.kept ((e.complete l t asides).run w h).events =
      if isMalformed ((lastReply l (.done t asides)).run w h).value then []
      else Event.kept ((e.keep l t).run w' h').events := by
  have hhook : Event.kept ((lastReply l (.done t asides)).run w h).events = [] := by
    have hobeys : (lastReply l (.done t asides)).Obeys (·.kept? = none) e.MayFail :=
      obeys_consult (e := e) _ _ _ (fun _ => rfl) rfl
    exact Event.kept_eq_nil_of_kept? (hobeys.event w h)
  rw [complete_eq, Flow.run_attempt_bind, Event.kept_append, hhook, List.nil_append]
  generalize (lastReply l (.done t asides)).run w h = o
  refine ⟨o.world, o.hungUp, ?_⟩
  cases hmalformed : isMalformed o.value with
  | true => exact kept_answer _ _ _
  | false =>
    rw [if_neg Bool.false_ne_true, if_neg Bool.false_ne_true,
      Flow.run_bind_of_ok (value_keep l t _ _), Event.kept_append, kept_answer, List.append_nil]

/-- With an archive a leg is kept when it is completed, unless the last hook's answer is malformed.
-/
theorem kept_complete {archive : Archive σ} (harchive : e.archive = some archive) (l : Leg σ)
    (t : Transcript) (asides : List Message) (w : σ) (h : Bool) :
    Event.kept ((e.complete l t asides).run w h).events =
      if isMalformed ((lastReply l (.done t asides)).run w h).value then [] else keepsakes l t := by
  obtain ⟨w', h', hkept⟩ := exists_kept_complete (e := e) l t asides w h
  rw [hkept, kept_keep harchive]

/-! ### What a call keeps -/

variable (e) in
/-- The stream of a call ends, since the provider ended it or since the backend is through without
fail, and nothing of it is left unread. This is the transcript then. -/
structure EndsWell (s : Summons σ) (l : Leg σ) (request : List Value) (t : Transcript) : Prop
    extends e.AsksBackend s l request where
  ended : (e.received s l request).taken.step = .done ∨
    (e.received s l request).taken.step = .more ∧
      (e.answered s l request).value.ending (e.received s l request).stopped = none
  read : (e.received s l request).taken.reply.pending = []
  transcript : (e.received s l request).taken.ended.reply.transcript = t

variable (e) in
/-- All that it takes for a call to be kept, with the input and the reply of its leg. -/
structure Keeps (s : Summons σ) (l : Leg σ) (request : List Value) (t : Transcript)
    (input : Message) : Prop extends e.EndsWell s l request t where
  wellFormed : isMalformed (e.finalReply s) = false
  nonempty : t.isEmpty = false
  session : l.context.sessionId ≠ ""
  input : l.messages.getLast? = some input

/-- The stream of a call that the client does not leave comes to an end of that kind exactly if it
ends well. -/
theorem streamed_eq_done_iff {s : Summons σ} {l : Leg σ} {t : Transcript}
    (hl : (e.entered s).value = .ok l)
    (hthere : ∀ request, e.AsksBackend s l request →
      (e.received s l request).taken.hungUp = false) :
    (∃ asides, (e.streamed s l).value = .ok (.done t asides)) ↔
      ∃ request, e.EndsWell s l request t := by
  constructor
  · intro ⟨asides, hdone⟩
    obtain ⟨request, hasks⟩ := exists_asksBackend hl hdone
    rcases hasks.streamed_cases (hthere request hasks) with ⟨x, -, -, hfails⟩ | ⟨hending, hvalue⟩
    · exact nomatch hdone.symm.trans hfails
    · obtain ⟨hstep, hread, ht, -⟩ :=
        streamEndOf_ended_eq_done_iff.1 (Except.ok.inj (hvalue.symm.trans hdone))
      refine ⟨request, hasks, ?_, hread, ht⟩
      rcases hstep with hmore | hended
      · exact .inr ⟨hmore, hending.resolve_right fun h => h hmore⟩
      · exact .inl hended
  · intro ⟨request, h⟩
    have hstep : (e.received s l request).taken.step = .more ∨
        (e.received s l request).taken.step = .done := by
      rcases h.ended with hended | ⟨hmore, -⟩
      · exact .inr hended
      · exact .inl hmore
    rcases h.streamed_cases (hthere request h.toAsksBackend) with ⟨x, hx, hmore, -⟩ | ⟨-, hvalue⟩
    · rcases h.ended with hended | ⟨-, hnone⟩
      · exact nomatch hmore.symm.trans hended
      · exact nomatch hx.symm.trans hnone
    · refine ⟨(e.received s l request).taken.ended.reply.asides, ?_⟩
      rw [hvalue, streamEndOf_ended_eq_done_iff.2 ⟨hstep, h.read, h.transcript, rfl⟩]

/-- What a call keeps is what is kept when its leg is concluded. -/
theorem kept_played (s : Summons σ) :
    Event.kept (e.played s).events =
      match (e.entered s).value with
      | .error _ => []
      | .ok l =>
        match (e.streamed s l).value with
        | .error _ => []
        | .ok ended => Event.kept (e.concluded s l ended).events := by
  have hentered : Event.kept (e.entered s).events = [] :=
    Event.kept_eq_nil fun ev hev => (prepares_entered s ev hev).not_completes
  have hstreamed (l : Leg σ) : Event.kept (e.streamed s l).events = [] :=
    Event.kept_eq_nil ((obeys_stream (e := e) l).event _ _)
  rcases played_cases (e := e) s with
    ⟨x, hl, hplayed⟩ | ⟨l, x, hl, hfails, hplayed⟩ | ⟨l, ended, k, hl, hended, -, hplayed⟩
  · rw [hplayed, hl]
    exact hentered
  · rw [hplayed, hl]
    simp [hfails, hentered, hstreamed]
  · have hhanded : Event.kept (e.handed s l ended k).events = [] := by
      have hobeys : (e.handOn l k).Obeys (·.kept? = none) e.MayFail := by
        refine obeys_handOn_of (fun ev h => ?_) (fun _ => rfl) l k
        cases h <;> rfl
      exact Event.kept_eq_nil_of_kept? (hobeys.event _ _)
    rw [hplayed, hl]
    simp [hended, hentered, hstreamed, hhanded]

/-- A call whose stream ends well keeps what there is to keep, unless its last hook's answer is
malformed. -/
theorem kept_played_of_done {archive : Archive σ} (harchive : e.archive = some archive)
    {s : Summons σ} {l : Leg σ} {t : Transcript} {asides : List Message}
    (hl : (e.entered s).value = .ok l) (hdone : (e.streamed s l).value = .ok (.done t asides)) :
    Event.kept (e.played s).events =
      if isMalformed (e.finalReply s) then [] else keepsakes l t := by
  rw [kept_played, hl, finalReply_eq hl hdone]
  dsimp only
  rw [hdone]
  exact kept_complete harchive l t asides _ _

/-- Without an archive a call keeps nothing. -/
theorem kept_played_of_archive_eq_none (harchive : e.archive = none) (s : Summons σ) :
    Event.kept (e.played s).events = [] := by
  have hkeep (l : Leg σ) (t : Transcript) : e.keep l t = pure () := by
    unfold keep
    rw [harchive]
  rw [kept_played]
  split
  · rfl
  split
  · rfl
  · next l _ _ ended _ =>
    rcases ended.isError_or_done with herror | ⟨t, asides, rfl⟩
    · exact Event.kept_eq_nil ((obeys_conclude_of_isError (e := e) l herror).event _ _)
    · obtain ⟨w', h', hkept⟩ := exists_kept_complete (e := e) l t asides (e.streamed s l).world
        (e.streamed s l).hungUp
      rw [hkeep] at hkept
      refine hkept.trans ?_
      split <;> rfl

/-- A call that meets all conditions for it, and that the client does not leave, keeps its leg. -/
theorem Keeps.kept_eq {archive : Archive σ} (harchive : e.archive = some archive) {s : Summons σ}
    {l : Leg σ} {request : List Value} {t : Transcript} {input : Message}
    (h : e.Keeps s l request t input) (hs : s.hungUp = false)
    (hnever : .hungUp ∉ (e.played s).events) :
    Event.kept (e.played s).events =
      [⟨l.context.sessionId, l.context.chatId, recordsOf l input t, l.context.metadata⟩] := by
  obtain ⟨asides, hdone⟩ := (streamed_eq_done_iff h.entered fun _ hasks =>
    (hasks.there hs hnever).2).2 ⟨request, h.toEndsWell⟩
  have hkept : ¬(t.isEmpty = true ∨ l.context.sessionId = "") := by
    rw [not_or, h.nonempty]
    exact ⟨Bool.false_ne_true, h.session⟩
  rw [kept_played_of_done harchive h.entered hdone, h.wellFormed, if_neg Bool.false_ne_true]
  unfold keepsakes
  rw [h.input]
  exact if_neg hkept

/-- Only a call whose stream ends well keeps anything. -/
theorem exists_done_of_kept {s : Summons σ} (hkept : Event.kept (e.played s).events ≠ []) :
    ∃ l t asides, (e.entered s).value = .ok l ∧ (e.streamed s l).value = .ok (.done t asides) := by
  rw [kept_played] at hkept
  cases hl : (e.entered s).value with
  | error x =>
    rw [hl] at hkept
    exact absurd rfl hkept
  | ok l =>
    rw [hl] at hkept
    dsimp only at hkept
    cases hended : (e.streamed s l).value with
    | error x =>
      rw [hended] at hkept
      exact absurd rfl hkept
    | ok ended =>
      rw [hended] at hkept
      rcases ended.isError_or_done with herror | ⟨t, asides, rfl⟩
      · have hquiet := (obeys_conclude_of_isError (e := e) l herror).event (e.streamed s l).world
          (e.streamed s l).hungUp
        exact absurd (Event.kept_eq_nil hquiet) hkept
      · exact ⟨l, t, asides, rfl, hended⟩

/-- There is something to keep of a leg only with an input, a session and a reply. -/
theorem exists_input_of_keepsakes {l : Leg σ} {t : Transcript} (h : keepsakes l t ≠ []) :
    ∃ input, l.messages.getLast? = some input ∧ t.isEmpty = false ∧ l.context.sessionId ≠ "" := by
  unfold keepsakes at h
  cases hinput : l.messages.getLast? with
  | none =>
    rw [hinput] at h
    exact absurd rfl h
  | some input =>
    rw [hinput] at h
    dsimp only at h
    split at h
    · exact absurd rfl h
    · next hneither =>
      obtain ⟨hnonempty, hsession⟩ := not_or.1 hneither
      exact ⟨input, rfl, Bool.eq_false_iff.2 hnonempty, hsession⟩

/-- A call that keeps anything, and that the client does not leave, meets all conditions for it. -/
theorem exists_keeps {archive : Archive σ} (harchive : e.archive = some archive) {s : Summons σ}
    (hs : s.hungUp = false) (hnever : .hungUp ∉ (e.played s).events)
    (hkept : Event.kept (e.played s).events ≠ []) :
    ∃ l request t input, e.Keeps s l request t input := by
  obtain ⟨l, t, asides, hl, hdone⟩ := exists_done_of_kept hkept
  obtain ⟨request, hends⟩ := (streamed_eq_done_iff hl fun _ hasks =>
    (hasks.there hs hnever).2).1 ⟨asides, hdone⟩
  rw [kept_played_of_done harchive hl hdone] at hkept
  cases hmalformed : isMalformed (e.finalReply s) with
  | true =>
    rw [hmalformed] at hkept
    exact absurd rfl hkept
  | false =>
    rw [hmalformed, if_neg Bool.false_ne_true] at hkept
    obtain ⟨input, hinput, hnonempty, hsession⟩ := exists_input_of_keepsakes hkept
    exact ⟨l, request, t, input, hends, hmalformed, hnonempty, hsession, hinput⟩

/-! ### The input of a hand-off -/

/-- The leg with which an assistant begins, before its first hook. -/
def openingLeg (e : Engine σ) (b : Brief σ) : Leg σ where
  context := { b.context with vision := b.assistant.vision }
  assistant := b.assistant
  messages := b.messages
  options := b.assistant.optionsFor e.connectors b.caller

/-- The answer of the first hook in a call. -/
def firstReply (e : Engine σ) (s : Summons σ) : Result (Option HookReply) :=
  ((consult s.brief.assistant .init
    ((e.openingLeg s.brief).hookInput s.brief.messages .empty none)).run s.world s.hungUp).value

/-- Whether the first hook in a call rewrites the messages. -/
def rewrites (e : Engine σ) (s : Summons σ) : Bool :=
  match e.firstReply s with
  | .ok (some reply) => reply.messages.isSome
  | _ => false

/-- After a switch the last message is still the last. -/
theorem getLast?_switch (l : Leg σ) (id : String) (caller : Object) :
    (e.switch l id caller).Yields (·.messages.getLast? = l.messages.getLast?) := by
  unfold switch
  refine Flow.yields_bind fun next => ?_
  split
  · exact Flow.yields_fail _
  · next input hinput =>
    refine Flow.Yields.bind (P := fun ms : List Message => ms.getLast? = some input) ?_
      fun messages hmessages => Flow.yields_pure ?_
    · unfold conversation
      refine Flow.yields_bind fun recalled => Flow.yields_pure ?_
      exact List.getLast?_concat
    · exact hmessages.trans hinput.symm

/-- A first hook that does not rewrite the messages leaves the last one. -/
theorem getLast?_revise (l : Leg σ) {reply : HookReply} (h : reply.messages = none)
    (caller : Object) :
    (e.revise l reply caller).Yields (·.messages.getLast? = l.messages.getLast?) := by
  unfold revise
  rw [h]
  dsimp only [Option.getD_none]
  split
  · exact (getLast?_switch _ _ _).bind fun l' hl' => Flow.yields_pure hl'
  · exact Flow.yields_pure rfl

/-- An assistant begins with its first hook, and then with what that asks for. -/
theorem beginLeg_eq (b : Brief σ) :
    e.beginLeg b.context b.assistant b.messages b.caller =
      consult b.assistant .init ((e.openingLeg b).hookInput b.messages .empty none) >>= fun reply =>
        match reply with
        | some reply => e.revise (e.openingLeg b) reply b.caller
        | none => pure (e.openingLeg b) := rfl

/-- Unless the first hook of a call rewrites the messages, the last one is that of the call. -/
theorem getLast?_entered {s : Summons σ} {l : Leg σ} (hl : (e.entered s).value = .ok l)
    (h : e.rewrites s = false) : l.messages.getLast? = s.brief.messages.getLast? := by
  unfold entered enter at hl
  split at hl
  · exact nomatch hl
  rw [Flow.run_hasHungUp_bind] at hl
  split at hl
  · exact nomatch hl
  rw [beginLeg_eq] at hl
  unfold rewrites at h
  cases hfirst : e.firstReply s with
  | error x =>
    rw [Flow.run_bind_of_error hfirst] at hl
    exact nomatch hl
  | ok reply =>
    rw [Flow.run_bind_of_ok hfirst] at hl
    rw [hfirst] at h
    cases reply with
    | none =>
      cases hl
      rfl
    | some reply =>
      have hkeeps : reply.messages = none := Option.isNone_iff_eq_none.1 (by simpa using h)
      exact getLast?_revise (e.openingLeg s.brief) hkeeps s.brief.caller _ _ l hl

/-- A call to which another hands on has a hidden input. -/
theorem HandsOnTo.exists_hidden {s t : Summons σ} (h : e.HandsOnTo s t) :
    ∃ input, t.brief.messages.getLast? = some input ∧ input.hidden = true := by
  have haccept (c : TurnContext) (handOff : HandOff) : (e.accept c handOff).Yields
      fun a => ∃ input : Message, a.2.2.getLast? = some input ∧ input.hidden = true := by
    unfold accept
    refine Flow.yields_bind fun next => Flow.yields_bind fun input => ?_
    refine Flow.Yields.bind
      (P := fun ms : List Message => ∃ i : Message, ms.getLast? = some i ∧ i.hidden = true) ?_
      fun messages hmessages => Flow.yields_bind fun _ => Flow.yields_pure hmessages
    unfold conversation
    refine Flow.yields_bind fun recalled => Flow.yields_pure ?_
    exact ⟨_, List.getLast?_concat, rfl⟩
  have hplay : (e.play s.levels s.brief).Yields
      (Sum.elim (fun _ => True)
        fun b => ∃ input, b.messages.getLast? = some input ∧ input.hidden = true) := by
    refine Flow.yields_bind fun l => Flow.yields_bind fun ended => Flow.yields_bind fun k => ?_
    cases k with
    | ended r => exact Flow.yields_pure trivial
    | handedOn handOff => exact (haccept _ _).bind fun a ha => Flow.yields_pure ha
  exact hplay _ _ _ h.value

/-- Of a call to which another hands on, and whose first hook does not rewrite the messages, only
the reply is kept. -/
theorem roles_kept_of_handsOnTo {archive : Archive σ} (harchive : e.archive = some archive)
    {s t : Summons σ} (h : e.HandsOnTo s t) (hrewrites : e.rewrites t = false)
    (ht : t.hungUp = false) (hnever : .hungUp ∉ (e.played t).events) :
    ∀ k ∈ Event.kept (e.played t).events, k.records.map Record.role = [.assistant] := by
  intro k hk
  obtain ⟨l, request, transcript, input, hkeeps⟩ :=
    exists_keeps harchive ht hnever (List.ne_nil_of_mem hk)
  obtain ⟨handed, hlast, hhidden⟩ := h.exists_hidden
  have hsame : input = handed := by
    have hinput := hkeeps.input
    rw [getLast?_entered hkeeps.entered hrewrites, hlast] at hinput
    exact (Option.some.inj hinput).symm
  rw [hkeeps.kept_eq harchive ht hnever] at hk
  rw [List.mem_singleton.1 hk, hsame]
  unfold recordsOf
  rw [hhidden]
  rfl

/-! ### What the archive answers -/

/-- The engine with an archive that gives other answers when records are given to it. -/
def answeringSaves (e : Engine σ)
    (answer : (session chat : String) → List Record → Object → σ → Result Unit) : Engine σ :=
  { e with
    archive := e.archive.map fun archive =>
      { archive with
        save := fun session chat records metadata w =>
          { archive.save session chat records metadata w with
            value := answer session chat records metadata w } } }

variable (answer : (session chat : String) → List Record → Object → σ → Result Unit)

/-- A leg is kept in the same way. -/
theorem keep_answeringSaves (l : Leg σ) (t : Transcript) :
    (e.answeringSaves answer).keep l t = e.keep l t := by
  unfold keep answeringSaves
  cases e.archive with
  | none => rfl
  | some archive =>
    cases l.messages.getLast? with
    | none => rfl
    | some input => rfl

/-- A conversation is made in the same way. -/
theorem conversation_answeringSaves (c : TurnContext) (a : Assistant σ) (input : Message) :
    (e.answeringSaves answer).conversation c a input = e.conversation c a input := by
  unfold conversation recalled answeringSaves
  cases e.archive with
  | none => rfl
  | some archive => rfl

/-- A leg begins in the same way. -/
theorem beginLeg_answeringSaves (c : TurnContext) (a : Assistant σ) (messages : List Message)
    (caller : Object) :
    (e.answeringSaves answer).beginLeg c a messages caller = e.beginLeg c a messages caller := by
  unfold beginLeg revise switch
  simp only [conversation_answeringSaves]
  rfl

/-- A leg is concluded in the same way. -/
theorem conclude_answeringSaves (l : Leg σ) (ended : StreamEnd) :
    (e.answeringSaves answer).conclude l ended = e.conclude l ended := by
  cases ended with
  | done t asides =>
    show (e.answeringSaves answer).complete l t asides = e.complete l t asides
    unfold complete
    simp only [keep_answeringSaves]
  | failed raw t => rfl
  | unread pending => rfl

/-- A hand-off is accepted in the same way. -/
theorem accept_answeringSaves (c : TurnContext) (handOff : HandOff) :
    (e.answeringSaves answer).accept c handOff = e.accept c handOff := by
  unfold accept
  simp only [conversation_answeringSaves]
  rfl

/-- A run takes the same course. -/
theorem runLegs_answeringSaves (levels : Nat) (c : TurnContext) (a : Assistant σ)
    (messages : List Message) (caller : Object) :
    (e.answeringSaves answer).runLegs levels c a messages caller =
      e.runLegs levels c a messages caller := by
  induction levels generalizing c a messages caller with
  | zero => rfl
  | succ levels ih =>
    unfold runLegs
    simp only [beginLeg_answeringSaves, conclude_answeringSaves, accept_answeringSaves, ih]
    rfl

/-- Whatever the archive answers when records are given to it, a turn is the same. -/
theorem execute_answeringSaves (c : TurnContext) (input : Message) (caller : Object)
    (hungUp : Bool) (w : σ) :
    (e.answeringSaves answer).execute c input caller hungUp w =
      e.execute c input caller hungUp w := by
  unfold execute prepare streamChat runFrom
  simp only [conversation_answeringSaves, runLegs_answeringSaves]
  rfl

/-! ### Turns -/

/-- What a turn gives to its archive, if the client does not leave. What happens in the calls of the
turn happens in their order, and nothing else is kept. A call keeps its leg once if its stream ends
with nothing left unread, its last hook's answer is not malformed, and there are a reply, a session
and an input; otherwise it keeps nothing. The records are the input, unless it is hidden, and then
the reply of the assistant that streamed. A call to which another hands on, and whose first hook
does not rewrite the messages, keeps the reply alone. How the archive answers changes nothing in the
turn. -/
theorem kept_execute (e : Engine σ) {archive : Archive σ} (harchive : e.archive = some archive)
    (c : TurnContext) (input : Message) (caller : Object) (w : σ)
    (hhungUp : .hungUp ∉ (e.execute c input caller false w).events) :
    (∃ before after, Event.kept before = [] ∧ Event.kept after = [] ∧
        (e.execute c input caller false w).events =
          before ++ ((e.callsOf c input caller w).flatMap fun s => (e.played s).events) ++ after) ∧
      (∀ s ∈ e.callsOf c input caller w, ∀ l request t message,
        e.Keeps s l request t message →
          Event.kept (e.played s).events =
            [⟨l.context.sessionId, l.context.chatId,
              (if message.hidden then [] else [.ofUser message.text l.context.sessionId]) ++
                [.ofAssistant t.json l.context.sessionId l.assistant.identity],
              l.context.metadata⟩]) ∧
      (∀ s ∈ e.callsOf c input caller w,
        (∀ l request t message, ¬e.Keeps s l request t message) →
          Event.kept (e.played s).events = []) ∧
      (∀ s ∈ (e.callsOf c input caller w).tail, e.rewrites s = false →
        ∀ k ∈ Event.kept (e.played s).events, k.records.map Record.role = [.assistant]) ∧
      ∀ answer, (e.answeringSaves answer).execute c input caller false w =
        e.execute c input caller false w := by
  obtain ⟨before, hbefore, hturn⟩ := exists_course hhungUp
  have hprepared : Event.kept before = [] :=
    Event.kept_eq_nil fun ev hev => (hbefore ev hev).not_completes
  have hsame : ∀ answer, (e.answeringSaves answer).execute c input caller false w =
      e.execute c input caller false w := fun answer => execute_answeringSaves answer _ _ _ _ _
  rcases hturn with ⟨x, hnone, -, hevents⟩ | ⟨first, o, hcourse, -, -, hfirst, hnever, -, hevents⟩
  · rw [hnone]
    have hempty {p : Summons σ → Prop} : ∀ s ∈ ([] : List (Summons σ)), p s := fun s hs =>
      absurd hs List.not_mem_nil
    refine ⟨⟨before, [.frame (.failed x.message), .returned], hprepared, rfl, ?_⟩, hempty, hempty,
      hempty, hsame⟩
    simpa using hevents
  · have hthere := hcourse.there hfirst hnever
    refine ⟨?_, ?_, ?_, ?_, hsame⟩
    · have hafter : Event.kept ((settled o.value).2 ++ [.returned]) = [] :=
        Event.kept_eq_nil fun ev hev => (settled_quiet o.value ev hev).2
      refine ⟨before, _, hprepared, hafter, ?_⟩
      rw [hevents, hcourse.events_eq]
      simp only [List.append_assoc]
    · intro s hs l request t message hkeeps
      rw [hkeeps.kept_eq harchive (hthere s hs).1 (hthere s hs).2, recordsOf_eq]
    · intro s hs hnot
      refine Classical.byContradiction fun hkept => ?_
      obtain ⟨l, request, t, message, hkeeps⟩ :=
        exists_keeps harchive (hthere s hs).1 (hthere s hs).2 hkept
      exact hnot l request t message hkeeps
    · intro s hs hrewrites
      have hmem := hthere s (List.mem_of_mem_tail hs)
      -- Every call but the first has been handed on to, with an input that is hidden.
      obtain ⟨earlier, hhands⟩ := hcourse.exists_handsOnTo s hs
      exact roles_kept_of_handsOnTo harchive hhands hrewrites hmem.1 hmem.2

/-- An engine of two assistants, of which the first hands on to the second, with an archive that has
no room for any record. -/
def remembering : Engine Unit :=
  { relaying with
    archive := some ⟨fun _ _ => .known (.ok []), fun _ _ _ _ => .known (.error (.storage "full"))⟩ }

/-- A first turn of a session. -/
def sessionTurn : TurnContext := { firstTurn "a" with sessionId := "s" }

/-- The calls of such a turn. -/
def rememberingCalls : List (Summons Unit) :=
  remembering.callsOf sessionTurn (.of .user "hi") [] ()

/-- Both calls of such a turn keep their legs, the second its reply alone. -/
theorem kept_execute_remembering :
    rememberingCalls.length = 2 ∧
      (∀ s ∈ rememberingCalls, ∃ l request t message, remembering.Keeps s l request t message ∧
        (Event.kept (remembering.played s).events).map Kept.session = [l.context.sessionId]) ∧
      ∀ s ∈ rememberingCalls.tail, ∀ k ∈ Event.kept (remembering.played s).events,
        k.records.map Record.role = [.assistant] := by
  have hthere : (remembering.execute sessionTurn (.of .user "hi") [] false ()).events.all isThere =
      true := by decide +kernel
  have hlength : rememberingCalls.length = 2 := by decide +kernel
  have hkept : rememberingCalls.all (fun s =>
      !(Event.kept (remembering.played s).events).isEmpty) = true := by decide +kernel
  have hrewrites : rememberingCalls.tail.all (fun s => !remembering.rewrites s) = true := by
    decide +kernel
  obtain ⟨-, hkeeps, hnot, hroles, -⟩ := kept_execute remembering rfl sessionTurn (.of .user "hi")
    [] () (hungUp_not_mem hthere)
  refine ⟨hlength, fun s hs => ?_, fun s hs => ?_⟩
  · have hempty := List.all_eq_true.1 hkept s hs
    obtain ⟨l, request, t, message, hall⟩ :
        ∃ l request t message, remembering.Keeps s l request t message := by
      refine Classical.byContradiction fun hnone => ?_
      rw [hnot s hs fun l request t message hk => hnone ⟨l, request, t, message, hk⟩] at hempty
      exact nomatch hempty
    refine ⟨l, request, t, message, hall, ?_⟩
    rw [hkeeps s hs l request t message hall]
    rfl
  · have hsame := List.all_eq_true.1 hrewrites s hs
    exact hroles s hs (by simpa using hsame)

end Engine

end ChatRelay
