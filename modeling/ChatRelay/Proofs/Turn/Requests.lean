import ChatRelay.Proofs.History.Replay
import ChatRelay.Proofs.Turn.Calls
import ChatRelay.Proofs.Turn.FailedReplies

/-!
# What a model is sent

A turn's first request is made of what is kept of the chat, of the assistant's instructions and of
the input. Of a kept conversation a model is shown what was said: the texts of the user, and the
text segments of the replies. Reasoning, tool calls and errors stay behind, and so do blank texts.

`Passage.lines` says what is sent for what a user said or for a reply with any transcript; it is
what becomes of the record that is kept (`Passage.flatMap_sent`). Main result: the first request of
a turn consists of the lines of the newest passages, the instructions, and the trimmed input if it
is text (`Engine.firstRequest?_execute`). So what the model is not shown has no influence on it.
-/

namespace ChatRelay

open Json (Value Object)

variable {σ : Type}

namespace Request

/-- What is sent for a text. A name stands as it is if the system speaks, and else by its digest. -/
def spoken (role : Role) (name : Option String) (text : String) : Value :=
  Json.objectOf [
    ("role", some (.string role.name)),
    ("content", some (.string text)),
    ("name", name.map fun n => .string <|
      if role = .system then n
      else String.ofList (Text.hexBytes (Digest.sha256 (Text.utf8 n.toList))))]

/-- What is sent for a text, which is nothing if the text is blank. -/
def line (role : Role) (name : Option String) (text : String) : List Value :=
  if Text.isAllBlank text.toList then [] else [spoken role name text]

/-- What is sent for a message that is not the input. -/
def sent (m : Message) : List Value :=
  if m.contentType = .text then line m.role m.name m.text else []

/-- A message is sent as its text, spoken by its role. -/
theorem entry_eq_spoken (m : Message) (text : String) :
    entry m (.string text) = spoken m.role m.name text := by
  unfold entry spoken sentName
  rw [Option.map_map]
  rfl

/-- Text is all that a model is shown. -/
theorem isModelVisible_eq (kind : ContentType) : kind.isModelVisible = decide (kind = .text) := by
  cases kind <;> rfl

/-- What is sent for a message, with or without attachments, that is not the last one. -/
def passed (m : Message) : List Value :=
  if m.contentType.isModelVisible && !isBlank m then [entry m (.string m.text)] else []

/-- A message that is not the last one is sent without fail. -/
theorem entries_eq_passed (files : Option (FileStore σ)) (vision : Bool) (m : Message) :
    entries files vision m false = pure (passed m) := by
  unfold entries passed
  cases m.contentType.isModelVisible <;> cases isBlank m <;> rfl

/-- A message without attachments is sent for its text alone. -/
theorem passed_eq_sent {m : Message} (h : m.attachments = []) : passed m = sent m := by
  unfold passed sent line
  rw [isModelVisible_eq, isBlank, h, entry_eq_spoken]
  by_cases htext : m.contentType = .text
  · cases hblank : Text.isAllBlank m.text.toList with
    | true => simp [htext]
    | false => simp [htext]
  · simp [htext]

/-- Nothing of a conversation may fail to be sent but its last message. -/
theorem ofMessages_concat_last (files : Option (FileStore σ)) (vision : Bool) (past : List Message)
    (m : Message) :
    ofMessages files vision (past ++ [m]) =
      entries files vision m true >>= fun last => pure (past.flatMap passed ++ last) := by
  induction past with
  | nil =>
    show ofMessages files vision [m] = _
    rw [ofMessages, List.isEmpty_nil, ofMessages]
    simp
  | cons n past ih =>
    have hlast : (past ++ [m]).isEmpty = false := by simp
    rw [List.cons_append, ofMessages, hlast, entries_eq_passed, Flow.pure_bind_eq, ih, bind_assoc]
    simp [List.append_assoc]

end Request

/-- A question of a user: it says something, and is no message written as JSON. -/
structure Message.IsQuestion (m : Message) : Prop where
  role : m.role = .user
  attachments : m.attachments = []
  notBlank : Text.isAllBlank m.text.toList = false
  notObject : ∀ o, Value.parse? (Text.trim m.text.toList) ≠ some (.object o)

namespace Message

/-- The text of a message is a JSON object, which is read in place of it. -/
structure Wraps (m : Message) (o : Object) : Prop where
  opens : (Text.trim m.text.toList).head? = some '{'
  parses : Value.parse? (Text.trim m.text.toList) = some (.object o)

variable {m : Message}

/-- A text that is no JSON object is read as itself. -/
theorem ofRaw_of_not_wraps (h : ∀ o, ¬m.Wraps o) :
    ofRaw (String.ofList (Text.trim m.text.toList)) .user =
      .ok (of .user (String.ofList (Text.trim m.text.toList))) := by
  unfold ofRaw
  dsimp only
  rw [String.toList_ofList, Text.trim_trim]
  split
  next o hopens hparses => exact absurd ⟨hopens, hparses⟩ (h o)
  next => rfl

/-- A question is no object in disguise. -/
theorem IsQuestion.not_wraps (h : m.IsQuestion) (o : Object) : ¬m.Wraps o :=
  fun hwraps => h.notObject o hwraps.parses

end Message

namespace Request

/-- What is sent for the input: its trimmed text, unless it is of a type that a model is not shown.
-/
def asked (m : Message) : List Value :=
  if m.contentType = .text then [spoken .user m.name (String.ofList (Text.trim m.text.toList))]
  else []

/-- An input without attachments is sent for the text that its text stands for. -/
theorem inputEntries_eq_ofResult (files : Option (FileStore σ)) (vision : Bool) {m : Message}
    (h : m.attachments = []) :
    inputEntries files vision m =
      Flow.ofResult ((Message.ofRaw (String.ofList (Text.trim m.text.toList)) .user).map
        fun input => [spoken m.role m.name input.text]) := by
  unfold inputEntries
  dsimp only
  cases Message.ofRaw (String.ofList (Text.trim m.text.toList)) .user with
  | error x => rfl
  | ok input =>
    rw [Flow.ofResult_ok, Flow.pure_bind_eq, h, if_pos List.isEmpty_nil, entry_eq_spoken]
    rfl

/-- A question that is the last message is sent as the input. -/
theorem entries_question (files : Option (FileStore σ)) (vision : Bool) {m : Message}
    (h : m.IsQuestion) : entries files vision m true = pure (asked m) := by
  have hinput : inputEntries files vision m =
      pure [spoken .user m.name (String.ofList (Text.trim m.text.toList))] := by
    rw [inputEntries_eq_ofResult files vision h.attachments,
      Message.ofRaw_of_not_wraps h.not_wraps, h.role]
    rfl
  have hrole : (true && m.role == .user) = true := by
    rw [h.role]
    rfl
  unfold entries asked
  dsimp only
  rw [isModelVisible_eq, hrole, isBlank, h.notBlank, Bool.false_and, hinput]
  by_cases htext : m.contentType = .text
  · simp [htext]
  · simp [htext]

/-- What is sent for messages without attachments, before a question. -/
theorem ofMessages_concat (files : Option (FileStore σ)) (vision : Bool) {ms : List Message}
    (hms : ∀ m ∈ ms, m.attachments = []) {input : Message} (hinput : input.IsQuestion) :
    ofMessages files vision (ms ++ [input]) = pure (ms.flatMap sent ++ asked input) := by
  have hsent : ms.flatMap passed = ms.flatMap sent :=
    List.flatMap_congr fun m hm => passed_eq_sent (hms m hm)
  rw [ofMessages_concat_last, entries_question files vision hinput, Flow.pure_bind_eq, hsent]

end Request

/-! ### Kept conversations -/

/-- What is kept of a conversation at one time. -/
inductive Passage where
  /-- What a user said. -/
  | said (r : Record)
  /-- A reply, by its transcript. -/
  | replied (r : Record) (t : Transcript)

namespace Passage

/-- The record that is kept. A reply is kept as the JSON text of its transcript. -/
def record : Passage → Record
  | said r => { r with role := .user }
  | replied r t => { r with role := .assistant, content := t.json }

/-- What a model is shown: the text of a user, or the text segments of a reply. -/
def lines : Passage → List Value
  | said r => Request.line .user r.name r.content
  | replied r t =>
    (t.segments.filter (·.kind = .text)).flatMap fun g =>
      Request.line .assistant r.name (String.ofList g.text)

/-- Two passages differ in nothing but what a model is not shown. -/
def Alike : Passage → Passage → Prop
  | said r, said s => r.name = s.name ∧ r.content = s.content
  | replied r t, replied s u =>
    r.name = s.name ∧ (t.segments.filter (·.kind = .text)).map Segment.text =
      (u.segments.filter (·.kind = .text)).map Segment.text
  | _, _ => False

/-- What is sent for the record of a passage is what a model is shown of it. -/
theorem flatMap_sent (p : Passage) : p.record.messages.flatMap Request.sent = p.lines := by
  cases p with
  | said r =>
    rw [Record.messages_of_user rfl, List.flatMap_singleton]
    rfl
  | replied r t =>
    rw [Record.messages_of_json rfl rfl, List.flatMap_map, lines]
    induction t.segments with
    | nil => rfl
    | cons g gs ih =>
      by_cases hkind : g.kind = .text
      · rw [List.filter_cons_of_pos (by simpa using hkind), List.flatMap_cons, List.flatMap_cons,
          ih]
        exact congrArg (· ++ _) (if_pos hkind)
      · rw [List.filter_cons_of_neg (by simpa using hkind), List.flatMap_cons, ih]
        exact congrArg (· ++ _) (if_neg hkind)

/-- Messages that are recalled have no attachments. -/
theorem attachments_of_mem {p : Passage} {m : Message} (h : m ∈ p.record.messages) :
    m.attachments = [] := by
  cases p with
  | said r =>
    rw [Record.messages_of_user rfl, List.mem_singleton] at h
    rw [h]
  | replied r t =>
    rw [Record.messages_of_json rfl rfl] at h
    obtain ⟨g, -, rfl⟩ := List.mem_map.1 h
    rfl

/-- A model is shown the same of passages that differ in nothing else. -/
theorem Alike.lines_congr {p q : Passage} (h : p.Alike q) : p.lines = q.lines := by
  cases p with
  | said r =>
    cases q with
    | said s =>
      obtain ⟨hname, hcontent⟩ := h
      rw [lines, lines, hname, hcontent]
    | replied s u => exact h.elim
  | replied r t =>
    cases q with
    | said s => exact h.elim
    | replied s u =>
      obtain ⟨hname, htexts⟩ := h
      have hlines (r : Record) (t : Transcript) : (replied r t).lines =
          ((t.segments.filter (·.kind = .text)).map Segment.text).flatMap fun text =>
            Request.line .assistant r.name (String.ofList text) := by
        rw [lines, List.flatMap_map]
      rw [hlines, hlines, hname, htexts]

end Passage

/-! ### Instructions -/

/-- Instructions are plain text. -/
theorem Assistant.plain_of_mem_instructions {a : Assistant σ} {connectors : Connectors}
    {m : Message} (h : m ∈ a.instructions connectors) : m.kind = none ∧ m.attachments = [] := by
  have hprompt : ∀ m ∈ a.promptMessages, m.kind = none ∧ m.attachments = [] := by
    intro m hm
    obtain ⟨p, -, rfl⟩ := List.mem_map.1 hm
    exact ⟨rfl, rfl⟩
  have htool : ∀ t, ∀ m ∈ toolMessages t, m.kind = none ∧ m.attachments = [] := by
    intro t m hm
    simp only [toolMessages, List.mem_cons, List.mem_map] at hm
    rcases hm with rfl | rfl | rfl | ⟨p, -, rfl⟩ <;> exact ⟨rfl, rfl⟩
  unfold instructions at h
  rcases List.mem_append.1 h with hm | hm
  · exact hprompt m hm
  · split at hm
    · split at hm
      · exact absurd hm List.not_mem_nil
      · exact htool _ m hm
    · exact absurd hm List.not_mem_nil

namespace Engine

variable (e : Engine σ)

/-- What is sent for the newest passages of a conversation, the instructions and a question. -/
def requestAfter (a : Assistant σ) (past : List Passage) (input : Message) : List Value :=
  (Store.newest e.settings.historyMaxSize past).flatMap Passage.lines ++
    ((a.instructions e.connectors).flatMap fun m => Request.line m.role m.name m.text) ++
    Request.asked input

variable {e}

/-- The request for what is recalled of passages, with instructions and a question. -/
theorem requestFor_eq (a : Assistant σ) (past : List Passage) {input : Message}
    (hinput : input.IsQuestion) :
    e.requestFor a ((Store.newest e.settings.historyMaxSize (past.map Passage.record)).flatMap
        Record.messages ++ a.instructions e.connectors ++ [input]) =
      pure (e.requestAfter a past input) := by
  have hplain : ∀ m ∈ (Store.newest e.settings.historyMaxSize (past.map Passage.record)).flatMap
      Record.messages ++ a.instructions e.connectors, m.attachments = [] := by
    intro m hm
    rcases List.mem_append.1 hm with hm | hm
    · rw [Store.newest_map] at hm
      obtain ⟨r, hr, hm⟩ := List.mem_flatMap.1 hm
      obtain ⟨p, -, rfl⟩ := List.mem_map.1 hr
      exact Passage.attachments_of_mem hm
    · exact (Assistant.plain_of_mem_instructions hm).2
  have hinstructions : (a.instructions e.connectors).flatMap Request.sent =
      (a.instructions e.connectors).flatMap fun m => Request.line m.role m.name m.text := by
    refine List.flatMap_congr fun m hm => ?_
    have htext : m.contentType = .text := by
      rw [Message.contentType, (Assistant.plain_of_mem_instructions hm).1]
      rfl
    exact if_pos htext
  have hpast : ((Store.newest e.settings.historyMaxSize (past.map Passage.record)).flatMap
      Record.messages).flatMap Request.sent =
      (Store.newest e.settings.historyMaxSize past).flatMap Passage.lines := by
    rw [Store.newest_map, List.flatMap_map, List.flatMap_assoc]
    exact List.flatMap_congr fun p _ => p.flatMap_sent
  rw [requestFor, Request.ofMessages_concat _ _ hplain hinput, List.flatMap_append, hpast,
    hinstructions, requestAfter]

/-- What a model is not shown of a conversation has no part in the request. -/
theorem requestAfter_eq_of_alike {a : Assistant σ} {past past' : List Passage} {input : Message}
    (h : List.Forall₂ Passage.Alike past past') :
    e.requestAfter a past input = e.requestAfter a past' input := by
  have hlines : past.map Passage.lines = past'.map Passage.lines := by
    induction h with
    | nil => rfl
    | cons hp _ ih => rw [List.map_cons, List.map_cons, hp.lines_congr, ih]
  have hnewest (past : List Passage) :
      (Store.newest e.settings.historyMaxSize past).flatMap Passage.lines =
        (Store.newest e.settings.historyMaxSize (past.map Passage.lines)).flatten := by
    rw [Store.newest_map, List.flatMap_def]
  rw [requestAfter, requestAfter, hnewest, hnewest, hlines]

/-! ### The first request -/

/-- Of what an archive has, the newest records are recalled. -/
theorem run_recalled {archive : Archive σ} (harchive : e.archive = some archive) {c : TurnContext}
    (hsession : c.sessionId ≠ "") {w : σ} {records : List Record}
    (hload : (archive.load c.sessionId c.chatId w).value = .ok records) (h : Bool) :
    ((e.recalled c).run w h).value =
        .ok ((Store.newest e.settings.historyMaxSize records).flatMap Record.messages) ∧
      ((e.recalled c).run w h).hungUp = (h || (archive.load c.sessionId c.chatId w).hungUp) := by
  have hask : ((Flow.ask (archive.load c.sessionId c.chatId)).run w h).value = .ok records := by
    rw [Flow.run_ask, hload]
  unfold recalled
  rw [harchive]
  dsimp only
  rw [if_neg hsession, Flow.run_bind_of_ok hask, Flow.run_ask]
  exact ⟨rfl, rfl⟩

/-- A conversation is made of what is recalled. -/
theorem run_conversation {c : TurnContext} {w : σ} {h : Bool} {recalled : List Message}
    (hrecalled : ((e.recalled c).run w h).value = .ok recalled) (a : Assistant σ)
    (input : Message) :
    (e.conversation c a input).run w h =
      ⟨.ok (recalled ++ a.instructions e.connectors ++ [input]), ((e.recalled c).run w h).events,
        ((e.recalled c).run w h).world, ((e.recalled c).run w h).hungUp⟩ := by
  unfold conversation
  rw [Flow.run_bind_of_ok hrecalled]
  dsimp only [Flow.run_pure]
  rw [List.append_nil]

/-- A turn is prepared with what is recalled. -/
theorem run_prepare {c : TurnContext} {a : Assistant σ}
    (hresolve : e.assistants.resolve c.assistantId = .ok a) (input : Message) {w : σ} {h : Bool}
    {recalled : List Message} (hrecalled : ((e.recalled c).run w h).value = .ok recalled) :
    (e.prepare c input).run w h =
      ⟨.ok (a, recalled ++ a.instructions e.connectors ++ [input]),
        ((e.recalled c).run w h).events, ((e.recalled c).run w h).world,
        ((e.recalled c).run w h).hungUp⟩ := by
  have hconversation := run_conversation hrecalled a input
  unfold prepare
  rw [hresolve, Flow.ofResult_ok, Flow.pure_bind_eq,
    Flow.run_bind_of_ok (congrArg Outcome.value hconversation), hconversation]
  dsimp only [Flow.run_pure]
  rw [List.append_nil]

/-- The first request in the background is the first one of the run. -/
theorem firstRequest?_inBackground (f : Flow σ TurnResult) (w : σ) (h : Bool) :
    Event.firstRequest? (inBackground f w h).events = Event.firstRequest? (f.run w h).events := by
  unfold Event.firstRequest?
  rw [← List.head?_filterMap, ← List.head?_filterMap,
    filterMap_events_inBackground rfl fun _ => rfl]

/-- The leg with which a run begins if its first assistant has no hook to revise it. -/
def opening (e : Engine σ) (b : Brief σ) : Leg σ where
  context := { b.context with vision := b.assistant.vision }
  assistant := b.assistant
  messages := b.messages
  options := b.assistant.optionsFor e.connectors b.caller

/-- Without such a hook a leg begins at once. -/
theorem run_enter {b : Brief σ} (hinit : b.assistant.hooks.init = none) (levels : Nat) (w : σ) :
    (e.enter (levels + 1) b).run w false = ⟨.ok (e.opening b), [], w, false⟩ := by
  have hconsult (input : HookInput) : consult b.assistant .init input = pure none := by
    unfold consult Hooks.at
    dsimp only
    rw [hinit]
  unfold enter beginLeg
  dsimp only
  rw [hconsult]
  rfl

/-- A run whose first assistant has no hook to revise the conversation begins with the request for
it, unless the client has hung up or no level is left. -/
theorem firstRequest?_serve {b : Brief σ} {request : List Value}
    (hinit : b.assistant.hooks.init = none)
    (hrequest : e.requestFor b.assistant b.messages = pure request) (levels : Nat) (w : σ)
    (h : Bool) :
    Event.firstRequest? ((e.serve levels b).run w h).events =
      if h = true ∨ levels = 0 then none
      else some (request, b.assistant.optionsFor e.connectors b.caller) := by
  cases levels with
  | zero =>
    rw [serve_zero, if_pos (.inr rfl)]
    rfl
  | succ n =>
    rw [serve_succ_eq_ask]
    cases h with
    | true =>
      rw [if_pos (.inl rfl), Flow.run_bind_of_error (x := .canceled) rfl]
      rfl
    | false =>
      have henter := run_enter (e := e) hinit n w
      have hask : (e.ask (n + 1) b).run w false = ⟨.ok (e.opening b, request), [], w, false⟩ := by
        unfold ask
        rw [Flow.run_bind_of_ok (congrArg Outcome.value henter), henter]
        dsimp only [opening]
        rw [hrequest]
        rfl
      rw [Flow.run_bind_of_ok (congrArg Outcome.value hask), hask]
      dsimp only
      rw [List.nil_append, firstRequest?_afterAsking, if_neg (by simp)]
      rfl

/-- The first request of a turn whose archive has a conversation of users and assistants, unless the
client has hung up by then or the turn has been handed on too often. -/
theorem firstRequest?_of_load {archive : Archive σ} (harchive : e.archive = some archive)
    {c : TurnContext} (hsession : c.sessionId ≠ "") {a : Assistant σ}
    (hresolve : e.assistants.resolve c.assistantId = .ok a) (hinit : a.hooks.init = none)
    {input : Message} (hinput : input.IsQuestion) (caller : Object) (hungUp : Bool) {w : σ}
    {past : List Passage}
    (hload : (archive.load c.sessionId c.chatId w).value = .ok (past.map Passage.record)) :
    Event.firstRequest? (e.execute c input caller hungUp w).events =
      if (hungUp || (archive.load c.sessionId c.chatId w).hungUp) = true ∨
          e.settings.maxDepth < c.depth then none
      else some (e.requestAfter a past input, a.optionsFor e.connectors caller) := by
  obtain ⟨hrecalled, hleft⟩ := run_recalled harchive hsession hload hungUp
  have hprepares := (obeys_prepare (e := e) c input).event w hungUp
  have hlevels : e.settings.maxDepth + 1 - c.depth = 0 ↔ e.settings.maxDepth < c.depth := by omega
  rw [run_prepare hresolve input hrecalled] at hprepares
  unfold execute
  dsimp only
  rw [run_prepare hresolve input hrecalled]
  dsimp only
  rw [Event.firstRequest?_append_of_prepares hprepares, streamChat_eq, firstRequest?_inBackground,
    firstRequest?_serve hinit (requestFor_eq a past hinput), hleft]
  simp only [hlevels]

/-- The first request of a turn, for an assistant without a hook to revise the conversation and an
archive that has a conversation of users and assistants: the lines of the newest passages, the
instructions, and the trimmed input if it is text. It is sent unless the client has hung up by then
or the turn has been handed on too often. Had the archive a conversation that differs in nothing but
what a model is not shown, the request would be the same. -/
theorem firstRequest?_execute (e : Engine σ) {archive : Archive σ}
    (harchive : e.archive = some archive) {c : TurnContext} (hsession : c.sessionId ≠ "")
    {a : Assistant σ} (hresolve : e.assistants.resolve c.assistantId = .ok a)
    (hinit : a.hooks.init = none) {input : Message} (hinput : input.IsQuestion) (caller : Object)
    (hungUp : Bool) {w : σ} {past : List Passage}
    (hload : (archive.load c.sessionId c.chatId w).value = .ok (past.map Passage.record)) :
    Event.firstRequest? (e.execute c input caller hungUp w).events =
        (if (hungUp || (archive.load c.sessionId c.chatId w).hungUp) = true ∨
            e.settings.maxDepth < c.depth then none
          else some (e.requestAfter a past input, a.optionsFor e.connectors caller)) ∧
      ∀ w' past', (archive.load c.sessionId c.chatId w').value = .ok (past'.map Passage.record) →
        (archive.load c.sessionId c.chatId w').hungUp =
          (archive.load c.sessionId c.chatId w).hungUp →
        List.Forall₂ Passage.Alike past past' →
        Event.firstRequest? (e.execute c input caller hungUp w').events =
          Event.firstRequest? (e.execute c input caller hungUp w).events := by
  have hfirst := firstRequest?_of_load harchive hsession hresolve hinit hinput caller hungUp hload
  refine ⟨hfirst, fun w' past' hload' hleft halike => ?_⟩
  rw [hfirst, firstRequest?_of_load harchive hsession hresolve hinit hinput caller hungUp hload',
    hleft, requestAfter_eq_of_alike halike]

/-- A question and its answer, which may have been thought about. -/
def redBall (thoughts : List Segment) : List Passage := [
  .said (.ofUser "What color?" "u"),
  .replied ⟨.assistant, "", none, none, none, none⟩
    { Transcript.empty with segments := thoughts ++ [⟨⟨2⟩, .text, "Red.".toList, [], 1⟩] }]

/-- An archive in which that answer is kept with the thoughts that are the world. -/
def diary : Archive (List Segment) where
  load _ _ thoughts := ⟨.ok ((redBall thoughts).map Passage.record), thoughts, false⟩
  save _ _ _ _ := .known (.ok ())

theorem load_diary (session chat : String) (thoughts : List Segment) :
    (diary.load session chat thoughts).value = .ok ((redBall thoughts).map Passage.record) := rfl

/-- An assistant with a prompt. -/
def brief : Assistant (List Segment) :=
  { Assistant.ofConnector "k" with prompts := [.system "Be brief."] }

/-- An engine of that assistant and that archive. -/
def replaying : Engine (List Segment) :=
  { Engine.of {} (.ofAssistants [brief]) fun _ _ => .known (.ofFrames []) with
    archive := some diary }

/-- A turn of a session with that assistant. -/
def replayingTurn : TurnContext := { firstTurn "connector:k" with sessionId := "s" }

/-- A thought. -/
def hm : Segment := ⟨⟨1⟩, .think, "Hm.".toList, [], 0⟩

/-- A question, said to be of some type. -/
def why (kind : Option ContentType) : Message :=
  { role := .user, text := " Why? ", kind }

theorem isQuestion_why (kind : Option ContentType) : (why kind).IsQuestion where
  role := rfl
  attachments := rfl
  notBlank := by
    show Text.isAllBlank " Why? ".toList = false
    decide +kernel
  notObject o h := by
    have hparse : (Value.parse? (Text.trim " Why? ".toList)).isNone = true := by decide +kernel
    exact nomatch (Option.isNone_iff_eq_none.1 hparse).symm.trans h

/-- What the model is sent before the input. -/
def replayed : List Value := [
  Json.objectOf [("role", some (.string "user")), ("content", some (.string "What color?")),
    ("name", some (.string (Request.hashedName "u")))],
  Json.objectOf [("role", some (.string "assistant")), ("content", some (.string "Red."))],
  Json.objectOf [("role", some (.string "system")), ("content", some (.string "Be brief.")),
    ("name", some (.string "k"))]]

/-- What that assistant's model is sent for a question, whether or not the thoughts are kept. -/
theorem firstRequest?_execute_replaying :
    Event.firstRequest? (replaying.execute replayingTurn (why none) [] false [hm]).events =
        some (replayed ++ [Request.spoken .user none "Why?"], []) ∧
      Event.firstRequest? (replaying.execute replayingTurn (why none) [] false []).events =
        Event.firstRequest? (replaying.execute replayingTurn (why none) [] false [hm]).events := by
  have hfirst := firstRequest?_execute replaying rfl (c := replayingTurn) (by decide) (a := brief)
    rfl rfl (isQuestion_why none) [] false (load_diary _ _ [hm])
  refine ⟨?_, hfirst.2 [] (redBall []) (load_diary _ _ []) rfl ?_⟩
  · rw [hfirst.1]
    rfl
  · exact .cons ⟨rfl, rfl⟩ (.cons ⟨rfl, rfl⟩ .nil)

/-- An input that is said to be a thought is not sent: the request ends with the instructions. -/
theorem firstRequest?_execute_thought :
    (why (some .think)).IsQuestion ∧
      Event.firstRequest?
          (replaying.execute replayingTurn (why (some .think)) [] false [hm]).events =
        some (replayed, []) ∧
      replayed.getLast? ≠ some (Request.spoken .user none "Why?") := by
  refine ⟨isQuestion_why _, ?_, ?_⟩
  · rw [firstRequest?_of_load rfl (c := replayingTurn) (by decide) (a := brief) rfl rfl
      (isQuestion_why (some .think)) [] false (load_diary _ _ [hm])]
    rfl
  · show some (Value.object [_, _, _]) ≠ some (.object [_, _])
    simp

end Engine

end ChatRelay
