import ChatRelay.Proofs.Turn.Delegation
import ChatRelay.Proofs.Turn.Keeping
import ChatRelay.Proofs.Turn.Requests

/-!
# How tools reach a model

The tools of an assistant are an option of its requests, if its connector accepts tools, and else
they are described among its instructions. Two parts of a call decide on this, each for itself: the
conversation is made before the assistant is called, and the options when its leg begins. They
decide alike, whatever the caller's options and the assistant's own are
(`Engine.channel_of_mem_callsIn`): either the request has the tools as an option and no word of them
in the messages, or it has the description of the tools right before the input and no such option.

In each call the conversation is what is recalled, the instructions of the assistant, and an input
(`Engine.converses_of_mem_callsIn`); so the instructions are never the last message, and all of them
are sent but the blank ones.
-/

namespace ChatRelay

open Json (Value Object)

variable {σ : Type}

/-! ### Options -/

namespace Assistant

/-- The value of a key among the options of a caller, or else among those of the assistant. -/
def chosen (a : Assistant σ) (caller : Object) (key : String) : Option Value :=
  (caller.get? key).or (a.options.get? key)

variable {a : Assistant σ} {connectors : Connectors} {caller : Object} {t : ToolSet}

/-- Where the options of a caller are set over those of the assistant, a key has the chosen value.
-/
theorem get?_setAll_options (hcaller : caller.Sorted) (key : String) :
    (Table.setAll a.options caller).get? key = a.chosen caller key :=
  Table.get?_setAll a.options hcaller key

/-- Options with tools have these tools. -/
theorem get?_withTools_tools (options : Object) (tools : List Value) :
    (withTools options tools).get? "tools" = some (.array tools) := by
  unfold withTools
  dsimp only
  split
  · rw [Table.get?_set_of_ne _ _ (by decide), Table.get?_set_self]
  · rw [Table.get?_set_self]

/-- The choice among tools is the one that the options make, unless that is null, or else it is up
to the model. -/
theorem get?_withTools_choice (options : Object) (tools : List Value) :
    (withTools options tools).get? "tool_choice" =
      some (((options.get? "tool_choice").filter (!·.isNull)).getD (.string "auto")) := by
  have hsame : (options.set "tools" (.array tools)).get? "tool_choice" =
      options.get? "tool_choice" := Table.get?_set_of_ne _ _ (by decide)
  unfold withTools
  dsimp only
  rw [hsame]
  cases hchoice : options.get? "tool_choice" with
  | none =>
    rw [Option.all_none, if_pos rfl, Table.get?_set_self]
    rfl
  | some v =>
    rw [Option.all_some]
    cases hnull : v.isNull with
    | true =>
      have hfilter : (some v).filter (!·.isNull) = none := by simp [hnull]
      rw [if_pos rfl, Table.get?_set_self, hfilter]
      rfl
    | false =>
      have hfilter : (some v).filter (!·.isNull) = some v := by simp [hnull]
      rw [if_neg Bool.false_ne_true, hsame, hchoice, hfilter]
      rfl

/-- Tools change nothing else among options. -/
theorem get?_withTools_of_ne (options : Object) (tools : List Value) {key : String}
    (htools : key ≠ "tools") (hchoice : key ≠ "tool_choice") :
    (withTools options tools).get? key = options.get? key := by
  unfold withTools
  dsimp only
  split
  · rw [Table.get?_set_of_ne _ _ hchoice, Table.get?_set_of_ne _ _ htools]
  · rw [Table.get?_set_of_ne _ _ htools]

/-- With a connector that accepts tools the options are those that are chosen, with the tools. -/
theorem optionsFor_of_native (h : connectors.supportTools a.connector = true)
    (ht : a.toolSet? = some t) :
    a.optionsFor connectors caller = withTools (Table.setAll a.options caller) t.tools := by
  unfold optionsFor
  dsimp only
  rw [if_pos h, ht]

/-- With any other connector they are those that are chosen, without tools. -/
theorem optionsFor_of_not_native (h : connectors.supportTools a.connector = false) :
    a.optionsFor connectors caller = (Table.setAll a.options caller).remove "tools" := by
  unfold optionsFor
  dsimp only
  rw [if_neg (Bool.eq_false_iff.1 h)]

/-! ### Instructions -/

/-- What is sent for the prompts of an assistant. -/
def promptLines (a : Assistant σ) : List Value :=
  a.prompts.flatMap fun p => Request.line p.role (some (p.name.getD a.name)) p.content

end Assistant

/-- What is sent for tools that are described: their list in JSON, how and when they are called, and
their prompts. -/
def ToolSet.lines (t : ToolSet) : List Value :=
  Request.spoken .system (some Assistant.toolListName) (Value.array t.tools).text ::
    Request.spoken .system (some Assistant.toolCallsName) Assistant.toolFormat ::
      Request.spoken .system (some Assistant.toolCallsName) Assistant.toolGuidelines ::
        t.prompts.flatMap fun p => Request.line p.role p.name p.content

namespace Request

/-- A plain message is sent for its text. -/
theorem passed_of_plain {m : Message} (hkind : m.kind = none) (hattachments : m.attachments = []) :
    passed m = line m.role m.name m.text := by
  have htext : m.contentType = .text := by
    rw [Message.contentType, hkind]
    rfl
  rw [passed_eq_sent hattachments, sent, if_pos htext]

/-- A text that is not blank is sent as one line. -/
theorem line_of_not_blank (role : Role) (name : Option String) {text : String}
    (h : Text.isAllBlank text.toList = false) : line role name text = [spoken role name text] :=
  if_neg (Bool.eq_false_iff.1 h)

end Request

/-- The JSON text of a list is not blank. -/
theorem not_blank_text_array (vs : List Value) :
    Text.isAllBlank (Value.array vs).text.toList = false := by
  have htext : (Value.array vs).text.toList = (Value.array vs).render := String.toList_ofList
  rw [htext, Value.render, Json.renderItems]
  rfl

/-- Lines are not blank if the first of them is not. -/
theorem not_blank_intercalate {first : String} (next : String) (rest : List String)
    (h : Text.isAllBlank first.toList = false) :
    Text.isAllBlank (String.intercalate "\n" (first :: next :: rest)).toList = false := by
  unfold Text.isAllBlank at h ⊢
  rw [String.toList_intercalate, List.map_cons, List.map_cons, List.intercalate_cons_cons,
    List.all_append, List.all_append, h, Bool.false_and, Bool.false_and]

namespace Assistant

variable {a : Assistant σ} {connectors : Connectors} {t : ToolSet}

theorem not_blank_toolFormat : Text.isAllBlank toolFormat.toList = false :=
  not_blank_intercalate _ _ (by decide +kernel)

theorem not_blank_toolGuidelines : Text.isAllBlank toolGuidelines.toList = false :=
  not_blank_intercalate _ _ (by decide +kernel)

/-- The prompts of an assistant are sent as their lines. -/
theorem flatMap_passed_promptMessages (a : Assistant σ) :
    a.promptMessages.flatMap Request.passed = a.promptLines := by
  rw [promptMessages, List.flatMap_map, promptLines]
  exact List.flatMap_congr fun p _ => Request.passed_of_plain rfl rfl

/-- Tools that are described are sent as their lines. -/
theorem flatMap_passed_toolMessages (t : ToolSet) :
    (toolMessages t).flatMap Request.passed = t.lines := by
  have hsystem {name text : String} (h : Text.isAllBlank text.toList = false) :
      Request.passed ((Message.of .system text).named name) =
        [Request.spoken .system (some name) text] :=
    (Request.passed_of_plain rfl rfl).trans (Request.line_of_not_blank _ _ h)
  have hprompts : (t.prompts.map fun p : Prompt =>
      ({ role := p.role, text := p.content, name := p.name } : Message)).flatMap Request.passed =
        t.prompts.flatMap fun p => Request.line p.role p.name p.content := by
    rw [List.flatMap_map]
    exact List.flatMap_congr fun p _ => Request.passed_of_plain rfl rfl
  rw [toolMessages, List.flatMap_cons, List.flatMap_cons, List.flatMap_cons, hprompts,
    hsystem (not_blank_text_array t.tools), hsystem not_blank_toolFormat,
    hsystem not_blank_toolGuidelines]
  rfl

/-- What is sent for the instructions of an assistant with tools: its prompts, and the tools if its
connector does not accept any. -/
theorem flatMap_passed_instructions (ht : a.toolSet? = some t) :
    (a.instructions connectors).flatMap Request.passed =
      a.promptLines ++ if connectors.supportTools a.connector then [] else t.lines := by
  rw [instructions, ht, List.flatMap_append, flatMap_passed_promptMessages]
  dsimp only
  split
  · rfl
  · rw [flatMap_passed_toolMessages]

end Assistant

/-! ### The conversation of a call -/

namespace Engine

variable {e : Engine σ}

variable (e) in
/-- A call is given what is recalled, the instructions of its assistant, and an input. -/
structure Converses (b : Brief σ) (past : List Message) (input : Message) : Prop where
  recalls : ∃ w h, ((e.recalled b.context).run w h).value = .ok past
  messages_eq : b.messages = past ++ b.assistant.instructions e.connectors ++ [input]

/-- A conversation is what is recalled, the instructions of its assistant, and the input. -/
theorem yields_conversation (c : TurnContext) (a : Assistant σ) (input : Message)
    (caller : Object) :
    (e.conversation c a input).Yields fun messages =>
      ∃ past, e.Converses ⟨c, a, messages, caller⟩ past input := by
  have hrecalls : (e.recalled c).Yields fun past =>
      ∃ w h, ((e.recalled c).run w h).value = .ok past := fun w h past hpast => ⟨w, h, hpast⟩
  exact hrecalls.bind fun past hpast => Flow.yields_pure ⟨past, hpast, rfl⟩

/-- So it is for the first call of a turn. -/
theorem yields_prepare (c : TurnContext) (input : Message) (caller : Object) :
    (e.prepare c input).Yields fun prepared =>
      ∃ past, e.Converses ⟨c, prepared.1, prepared.2, caller⟩ past input := by
  refine Flow.yields_bind fun a => ?_
  exact (yields_conversation c a input caller).bind fun messages h => Flow.yields_pure h

/-- And for a call to which another one hands on. -/
theorem HandsOnTo.converses {s u : Summons σ} (h : e.HandsOnTo s u) :
    ∃ past input, e.Converses u.brief past input := by
  have hhandOn (l : Leg σ) (k : Continuation) : (e.handOn l k).Yields
      (Sum.elim (fun _ => True) fun b => ∃ past input, e.Converses b past input) := by
    cases k with
    | ended r => exact Flow.yields_pure trivial
    | handedOn hand =>
      have haccept : (e.accept l.context hand).Yields fun r => ∃ past input,
          e.Converses ⟨r.1, r.2.1, r.2.2, hand.options⟩ past input := by
        refine Flow.yields_bind fun next => Flow.yields_bind fun input => ?_
        refine (yields_conversation _ next _ hand.options).bind fun messages hmessages => ?_
        obtain ⟨past, hpast⟩ := hmessages
        exact Flow.yields_bind fun _ => Flow.yields_pure ⟨past, _, hpast⟩
      exact haccept.bind fun r hr => Flow.yields_pure hr
  have hplay : (e.play s.levels s.brief).Yields
      (Sum.elim (fun _ => True) fun b => ∃ past input, e.Converses b past input) :=
    Flow.yields_bind fun l => Flow.yields_bind fun ended => Flow.yields_bind (hhandOn l)
  exact hplay _ _ _ h.value

/-- So it is for every call of a turn. -/
theorem converses_of_mem_callsIn {c : TurnContext} {input : Message} {caller : Object}
    {hungUp : Bool} {w : σ} {s : Summons σ} (hs : s ∈ e.callsIn c input caller hungUp w) :
    ∃ past input', e.Converses s.brief past input' := by
  unfold callsIn at hs
  split at hs
  · next a messages _ w' h' hprepared =>
    have hvalue : ((e.prepare c input).run w hungUp).value = .ok (a, messages) := by rw [hprepared]
    obtain ⟨past, hpast⟩ := yields_prepare c input caller _ _ _ hvalue
    have hcourse := course_serve (e := e) (e.settings.maxDepth + 1 - c.depth)
      ⟨c, a, messages, caller⟩ w' h'
    exact hcourse.forall_mem ⟨past, input, hpast⟩ (fun _ _ _ hands _ => hands.converses) s hs
  · exact absurd hs List.not_mem_nil

/-! ### The request of a call -/

variable (e) in
/-- The first hook in a call asks for no change: there is none, or it has no answer, or its answer
is what the call has already. -/
def Unrevised (s : Summons σ) : Prop :=
  ∀ r, e.firstReply s = .ok (some r) →
    (∀ messages ∈ r.messages, messages = s.brief.messages) ∧
      (∀ id ∈ r.assistantId, id = s.brief.assistant.id) ∧
      ∀ options ∈ r.options, options = (e.openingLeg s.brief).options

/-- Without a hook there is nobody to ask for a change. -/
theorem unrevised_of_no_hook {s : Summons σ} (h : s.brief.assistant.hooks.init = none) :
    e.Unrevised s := by
  intro r hr
  have hconsult (input : HookInput) : consult s.brief.assistant .init input = pure none := by
    unfold consult Hooks.at
    dsimp only
    rw [h]
  unfold firstReply at hr
  rw [hconsult] at hr
  exact nomatch hr

/-- If the first hook asks for no change, a call enters the leg with which its assistant begins. -/
theorem Unrevised.entered_eq {s : Summons σ} (h : e.Unrevised s) {l : Leg σ}
    (hl : (e.entered s).value = .ok l) : l = e.openingLeg s.brief := by
  unfold entered enter at hl
  split at hl
  · exact nomatch hl
  rw [Flow.run_hasHungUp_bind] at hl
  split at hl
  · exact nomatch hl
  rw [beginLeg_eq] at hl
  cases hfirst : e.firstReply s with
  | error x =>
    rw [Flow.run_bind_of_error hfirst] at hl
    exact nomatch hl
  | ok reply =>
    rw [Flow.run_bind_of_ok hfirst] at hl
    cases reply with
    | none =>
      cases hl
      rfl
    | some r =>
      obtain ⟨hmessages, hid, hoptions⟩ := h r hfirst
      have hsame : r.messages.getD s.brief.messages = s.brief.messages := by
        cases hr : r.messages with
        | none => rfl
        | some messages => exact hmessages messages hr
      -- To name the assistant that is called already is not to switch.
      have hown : r.assistantId.filter (· != s.brief.assistant.id) = none := by
        refine Option.filter_eq_none_iff.2 fun id hr => ?_
        rw [hid id hr]
        simp
      have hkept :
          r.options.getD (e.openingLeg s.brief).options = (e.openingLeg s.brief).options := by
        cases hr : r.options with
        | none => rfl
        | some options => exact hoptions options hr
      unfold revise at hl
      dsimp only [openingLeg] at hl hkept
      rw [hsame, hown] at hl
      cases hl
      rw [openingLeg, hkept]

/-- The requests of a call are those for which it asks the backend, with the options of the leg. -/
theorem mem_requests_played_iff {s : Summons σ} {request : List Value} {options : Object} :
    (request, options) ∈ Event.requests (e.played s).events ↔
      ∃ l, e.AsksBackend s l request ∧ l.options = options := by
  rw [requests_played]
  unfold asks
  cases hl : (e.entered s).value with
  | error x =>
    refine ⟨fun h => absurd h List.not_mem_nil, fun ⟨l, hasks, _⟩ => ?_⟩
    exact nomatch hl.symm.trans hasks.entered
  | ok l =>
    dsimp only
    rw [requests_streamed]
    cases hrequest : (e.requested s l).value with
    | error x =>
      refine ⟨fun h => absurd h List.not_mem_nil, fun ⟨l', hasks, _⟩ => ?_⟩
      cases hl.symm.trans hasks.entered
      exact nomatch hrequest.symm.trans hasks.requested
    | ok request' =>
      rw [List.map_singleton, List.map_singleton, List.mem_singleton]
      constructor
      · intro h
        cases h
        exact ⟨l, ⟨hl, hrequest⟩, rfl⟩
      · rintro ⟨l', hasks, rfl⟩
        cases hl.symm.trans hasks.entered
        cases hrequest.symm.trans hasks.requested
        rfl

/-- What is sent for a conversation that a call is given: what is recalled, the prompts of the
assistant, its tools if its connector accepts none, and the input. -/
theorem Converses.yields_requestFor {b : Brief σ} {past : List Message} {input : Message}
    (h : e.Converses b past input) {t : ToolSet} (ht : b.assistant.toolSet? = some t) :
    (e.requestFor b.assistant b.messages).Yields fun request => ∃ last,
      (∃ w h, ((Request.entries e.files b.assistant.vision input true).run w h).value = .ok last) ∧
        request = past.flatMap Request.passed ++ b.assistant.promptLines ++
          (if e.connectors.supportTools b.assistant.connector then [] else t.lines) ++ last := by
  have hlast : (Request.entries e.files b.assistant.vision input true).Yields fun last =>
      ∃ w h, ((Request.entries e.files b.assistant.vision input true).run w h).value = .ok last :=
    fun w h last hlast => ⟨w, h, hlast⟩
  unfold requestFor
  rw [h.messages_eq, Request.ofMessages_concat_last]
  refine hlast.bind fun last hsent => Flow.yields_pure ⟨last, hsent, ?_⟩
  rw [List.flatMap_append, Assistant.flatMap_passed_instructions ht]
  simp only [List.append_assoc]

/-- How the tools of an assistant reach its model in a call of a turn, if the first hook in the call
asks for no change. With a connector that accepts tools they are an option of the request, whatever
the caller and the assistant give for that option, and the choice among them is the one that is
made, unless it is null, or else it is up to the model; nothing is said of them in the messages.
With any other connector there is no such option, and the tools are described after the prompts of
the assistant and before the input. All other options are those of the caller, or else of the
assistant. -/
theorem channel_of_mem_callsIn (e : Engine σ) (c : TurnContext) (input : Message) (caller : Object)
    (hungUp : Bool) (w : σ) {s : Summons σ} (hs : s ∈ e.callsIn c input caller hungUp w)
    {t : ToolSet} (ht : s.brief.assistant.toolSet? = some t) (hcaller : s.brief.caller.Sorted)
    (hinit : e.Unrevised s) :
    ∃ past input', e.Converses s.brief past input' ∧
      ∀ request options, (request, options) ∈ Event.requests (e.played s).events →
        (∃ last, (∃ w h, ((Request.entries e.files s.brief.assistant.vision input' true).run
            w h).value = .ok last) ∧
          request = past.flatMap Request.passed ++ s.brief.assistant.promptLines ++
            (if e.connectors.supportTools s.brief.assistant.connector then [] else t.lines) ++
            last) ∧
        (options.get? "tools" =
          if e.connectors.supportTools s.brief.assistant.connector then some (.array t.tools)
          else none) ∧
        (options.get? "tool_choice" =
          if e.connectors.supportTools s.brief.assistant.connector then
            some (((s.brief.assistant.chosen s.brief.caller "tool_choice").filter (!·.isNull)).getD
              (.string "auto"))
          else s.brief.assistant.chosen s.brief.caller "tool_choice") ∧
        ∀ key, key ≠ "tools" → key ≠ "tool_choice" →
          options.get? key = s.brief.assistant.chosen s.brief.caller key := by
  obtain ⟨past, input', hconverses⟩ := converses_of_mem_callsIn hs
  refine ⟨past, input', hconverses, fun request options hrequest => ?_⟩
  obtain ⟨l, hasks, hoptions⟩ := mem_requests_played_iff.1 hrequest
  -- The leg is the one with which the assistant begins. Its options and the messages that it has
  -- been given are made apart from each other, but from the same connector and the same tools.
  obtain rfl := hinit.entered_eq hasks.entered
  refine ⟨hconverses.yields_requestFor ht _ _ request hasks.requested, ?_⟩
  have hopening : options =
      s.brief.assistant.optionsFor e.connectors s.brief.caller := hoptions.symm
  rw [hopening]
  cases hnative : e.connectors.supportTools s.brief.assistant.connector with
  | true =>
    rw [Assistant.optionsFor_of_native hnative ht]
    refine ⟨Assistant.get?_withTools_tools _ _, ?_, fun key htools hchoice => ?_⟩
    · rw [Assistant.get?_withTools_choice, Assistant.get?_setAll_options hcaller]
      rfl
    · rw [Assistant.get?_withTools_of_ne _ _ htools hchoice, Assistant.get?_setAll_options hcaller]
  | false =>
    rw [Assistant.optionsFor_of_not_native hnative]
    refine ⟨Table.get?_remove_self _ _, ?_, fun key htools _ => ?_⟩
    · rw [Table.get?_remove_of_ne _ (by decide), Assistant.get?_setAll_options hcaller]
      rfl
    · rw [Table.get?_remove_of_ne _ htools, Assistant.get?_setAll_options hcaller]

/-- Tools with a prompt. -/
def searchTools : ToolSet := ⟨[.string "search"], [.system "Search little."]⟩

/-- An assistant with these tools, and with options that say something else. -/
def searcher : Assistant Unit :=
  { bare "a" none with
    connector := "k"
    options := [("temperature", .ofNat 0), ("tools", .null)]
    prompts := [.system "Be brief."]
    tools := some searchTools }

/-- An engine with that assistant, whose connector accepts tools or not. -/
def searching (native : Bool) : Engine Unit :=
  .of { connectors := [("k", ⟨native⟩)] } (.ofAssistants [searcher]) fun _ _ =>
    .known (.ofFrames [])

/-- Options of a caller who wants no tools. -/
def withoutTools : Object :=
  Table.ofList [("temperature", .ofNat 1), ("tool_choice", .null), ("tools", .array [])]

/-- The only call of a turn with these options. -/
def searchingCall (native : Bool) : Summons Unit where
  levels := (searching native).settings.maxDepth + 1
  brief := ⟨firstTurn "a", searcher, searcher.instructions (searching native).connectors ++
    [.of .user "hi"], withoutTools⟩
  world := ()
  hungUp := false

theorem searchingCall_mem (native : Bool) : searchingCall native ∈
    (searching native).callsIn (firstTurn "a") (.of .user "hi") withoutTools false () :=
  List.mem_cons_self

theorem isQuestion_hi : (Message.of .user "hi").IsQuestion where
  role := rfl
  attachments := rfl
  notBlank := by
    show Text.isAllBlank "hi".toList = false
    decide +kernel
  notObject o h := by
    have hparse : (Value.parse? (Text.trim "hi".toList)).isNone = true := by decide +kernel
    exact nomatch (Option.isNone_iff_eq_none.1 hparse).symm.trans h

/-- The call makes a request. -/
theorem exists_request_searching (native : Bool) : ∃ request options, (request, options) ∈
    Event.requests ((searching native).played (searchingCall native)).events := by
  have hrequest : (searching native).requestFor searcher (searchingCall native).brief.messages =
      pure ((searcher.instructions (searching native).connectors).flatMap Request.passed ++
        Request.asked (.of .user "hi")) := by
    unfold requestFor searchingCall
    dsimp only
    rw [Request.ofMessages_concat_last, Request.entries_question _ _ isQuestion_hi,
      Flow.pure_bind_eq]
  have hentered : ((searching native).entered (searchingCall native)).value =
      .ok ((searching native).openingLeg (searchingCall native).brief) := rfl
  have hrequested : ((searching native).requested (searchingCall native)
      ((searching native).openingLeg (searchingCall native).brief)).value =
        .ok ((searcher.instructions (searching native).connectors).flatMap Request.passed ++
          Request.asked (.of .user "hi")) := by
    have hrun (w : Unit) (h : Bool) : (((searching native).requestFor searcher
        (searchingCall native).brief.messages).run w h).value = _ :=
      congrArg (fun f => (f.run w h).value) hrequest
    exact hrun _ _
  exact ⟨_, _, mem_requests_played_iff.2 ⟨_, ⟨hentered, hrequested⟩, rfl⟩⟩

/-- The same tools, once as an option and once in the messages. -/
theorem channel_of_mem_callsIn_searching :
    (∃ request options, (request, options) ∈
        Event.requests ((searching true).played (searchingCall true)).events ∧
      options.get? "tools" = some (.array [.string "search"]) ∧
      options.get? "tool_choice" = some (.string "auto") ∧
      options.get? "temperature" = some (.ofNat 1)) ∧
    ∃ last options, (searcher.promptLines ++ searchTools.lines ++ last, options) ∈
        Event.requests ((searching false).played (searchingCall false)).events ∧
      options.get? "tools" = none := by
  have hsorted : withoutTools.Sorted := Table.sorted_ofList _
  have hunrevised (native : Bool) : (searching native).Unrevised (searchingCall native) :=
    unrevised_of_no_hook rfl
  have hnative (native : Bool) : (searching native).connectors.supportTools
      (searchingCall native).brief.assistant.connector = native := by
    cases native <;> decide +kernel
  constructor
  · obtain ⟨request, options, hrequest⟩ := exists_request_searching true
    obtain ⟨past, input', -, hall⟩ := channel_of_mem_callsIn (searching true) (firstTurn "a")
      (.of .user "hi") withoutTools false () (searchingCall_mem true) (t := searchTools) rfl hsorted
      (hunrevised true)
    obtain ⟨-, htools, hchoice, hothers⟩ := hall request options hrequest
    rw [hnative, if_pos rfl] at htools hchoice
    exact ⟨request, options, hrequest, htools, hchoice,
      hothers "temperature" (by decide) (by decide)⟩
  · obtain ⟨request, options, hrequest⟩ := exists_request_searching false
    obtain ⟨past, input', hconverses, hall⟩ := channel_of_mem_callsIn (searching false)
      (firstTurn "a") (.of .user "hi") withoutTools false () (searchingCall_mem false)
      (t := searchTools) rfl hsorted (hunrevised false)
    obtain ⟨⟨last, -, hlines⟩, htools, -⟩ := hall request options hrequest
    obtain ⟨_, _, hpast⟩ := hconverses.recalls
    obtain rfl : [] = past := Except.ok.inj hpast
    rw [hnative, if_neg Bool.false_ne_true] at hlines htools
    exact ⟨last, options, hlines ▸ hrequest, htools⟩

end Engine

end ChatRelay
