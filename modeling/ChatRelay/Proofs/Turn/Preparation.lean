import ChatRelay.Proofs.Message.Faults
import ChatRelay.Proofs.Turn.Flow
import ChatRelay.Turn.Leg

/-!
# What prepares a request

Up to a request to the model a turn reads histories and files and calls the first hook of an
assistant. `Event.Prepares` lists what an observer sees of that; none of it is a frame. The parts of
a turn before the request obey it (`obeys_beginLeg`, `obeys_requestFor`).

Failures of the engine itself are all reported to the client. So a turn that fails without a report
though the client is there has the failure from a collaborator (`Engine.MayFail`).
-/

namespace ChatRelay

open Json (Value Object)

/-- What may happen before a request. -/
inductive Event.Prepares : Event → Prop
  | historyRead (session chat : String) (count : Nat) : Prepares (.historyRead session chat count)
  | hook (input : HookInput) : Prepares (.hook .init input)
  | hungUp : Prepares .hungUp

/-- Nothing of it is a frame. -/
theorem Event.Prepares.frame?_eq_none {ev : Event} (h : ev.Prepares) : ev.frame? = none := by
  cases h <;> rfl

/-- Events that are no frames send none. -/
theorem Event.frames_eq_nil {events : List Event} (h : ∀ ev ∈ events, ev.frame? = none) :
    Event.frames events = [] :=
  List.filterMap_eq_nil_iff.2 h

/-- Flows whose events are no frames send nothing. -/
theorem Flow.Obeys.frames_eq_nil {σ α : Type} {p : Event → Prop} {q : Failure → Prop}
    {f : Flow σ α} (hf : f.Obeys p q) (hp : ∀ ev, p ev → ev.frame? = none) (w : σ) (h : Bool) :
    Event.frames (f.run w h).events = [] :=
  Event.frames_eq_nil fun ev hev => hp ev (hf.event w h ev hev)

/-- What only prepares a request sends nothing. -/
theorem Flow.Obeys.frames_of_prepares {σ α : Type} {q : Failure → Prop} {f : Flow σ α}
    (hf : f.Obeys Event.Prepares q) (w : σ) (h : Bool) : Event.frames (f.run w h).events = [] :=
  hf.frames_eq_nil (fun _ hev => hev.frame?_eq_none) w h

/-! ### Failures that are reported -/

/-- A fault of the input is reported. -/
theorem Result.BlamesInput.ne_canceled {α : Type} {r : Result α} (h : r.BlamesInput) :
    r ≠ .error .canceled := by
  rintro rfl
  exact nomatch h .canceled rfl

/-- What is wrong with a raw message is reported. -/
theorem Message.ofRaw_ne_canceled (raw : String) (default : Role) :
    Message.ofRaw raw default ≠ .error .canceled :=
  (blamesInput_ofRaw raw default).ne_canceled

/-- What is wrong with the input of a hand-off is reported. -/
theorem HandOffInput.toMessage_ne_canceled (input : HandOffInput) :
    input.toMessage ≠ .error .canceled :=
  input.blamesInput_toMessage.ne_canceled

/-- That there is no assistant with an id is reported. -/
theorem Registry.resolve_ne_canceled {σ : Type} (r : Registry σ) (id : String) :
    r.resolve id ≠ .error .canceled := by
  unfold resolve
  split <;> exact nofun

/-- The failure of a hook is reported, whatever the hook answers. -/
theorem HookStage.failure_ne_canceled (stage : HookStage) (x : Failure) :
    stage.failure x ≠ .canceled := by
  cases x <;> exact nofun

namespace Engine

variable {σ : Type} (e : Engine σ)

/-- The failures with which a collaborator of the engine answers, other than hooks. -/
inductive Gives : Failure → Prop
  | load {archive : Archive σ} (h : e.archive = some archive) (session chat : String) (w : σ)
      {x : Failure} (hx : (archive.load session chat w).value = .error x) : Gives x
  | find {files : FileStore σ} (h : e.files = some files) (id : String) (w : σ)
      {x : Failure} (hx : (files.exists? id w).value = .error x) : Gives x
  | read {files : FileStore σ} (h : e.files = some files) (id : String) (w : σ)
      {x : Failure} (hx : (files.read id w).value = .error x) : Gives x
  | backend (messages : List Value) (options : Object) (w : σ) (stopped : Bool)
      {x : Failure} (hx : (e.backend messages options w).value.ending stopped = some x) : Gives x

/-- The failures of a turn whose client is there: all that are reported, and those of its
collaborators. -/
def MayFail (x : Failure) : Prop :=
  x = .canceled → e.Gives x

variable {e}

/-- A result that is not canceled fails as the engine may. -/
theorem mayFail_of_ne_canceled {α : Type} {r : Result α} (h : r ≠ .error .canceled) :
    ∀ x, r = .error x → e.MayFail x := by
  intro x hx hcanceled
  subst hcanceled
  exact absurd hx h

/-- A hook is called. -/
theorem obeys_consult (a : Assistant σ) (stage : HookStage) (input : HookInput)
    {p : Event → Prop} (hp : ∀ input, p (.hook stage input)) (hhungUp : p .hungUp) :
    (consult a stage input).Obeys p e.MayFail := by
  unfold consult
  split
  · exact Flow.obeys_pure _
  · refine .bind (Flow.obeys_tell (hp input) nofun) fun _ => ?_
    refine .bind (Flow.obeys_call _ hhungUp) fun reply => ?_
    refine Flow.obeys_ofResult fun x hx => ?_
    cases reply with
    | error y =>
      cases hx
      exact fun h => absurd h (HookStage.failure_ne_canceled stage y)
    | ok r => exact nomatch hx

/-- A chat's records are read. -/
theorem obeys_recalled (c : TurnContext) : (e.recalled c).Obeys Event.Prepares e.MayFail := by
  unfold recalled
  split
  · exact Flow.obeys_pure _
  next archive harchive =>
  split
  · exact Flow.obeys_pure _
  refine .bind (Flow.obeys_ask .hungUp fun w x hx _ => .load harchive _ _ w hx) fun records => ?_
  exact .bind (Flow.obeys_tell (.historyRead _ _ _) nofun) fun _ => Flow.obeys_pure _

/-- A conversation is made. -/
theorem obeys_conversation (c : TurnContext) (a : Assistant σ) (input : Message) :
    (e.conversation c a input).Obeys Event.Prepares e.MayFail :=
  (obeys_recalled c).bind fun _ => Flow.obeys_pure _

/-! ### Legs -/

/-- Another assistant is switched to. -/
theorem obeys_switch (l : Leg σ) (id : String) (caller : Object) :
    (e.switch l id caller).Obeys Event.Prepares e.MayFail := by
  unfold switch
  have hresolve := mayFail_of_ne_canceled (e := e) (Registry.resolve_ne_canceled e.assistants id)
  refine .bind (Flow.obeys_ofResult hresolve) fun next => ?_
  split
  · exact Flow.obeys_fail nofun
  · exact (obeys_conversation _ _ _).bind fun _ => Flow.obeys_pure _

/-- A leg is revised. -/
theorem obeys_revise (l : Leg σ) (r : HookReply) (caller : Object) :
    (e.revise l r caller).Obeys Event.Prepares e.MayFail := by
  unfold revise
  dsimp only
  split
  · exact (obeys_switch _ _ _).bind fun _ => Flow.obeys_pure _
  · exact Flow.obeys_pure _

/-- A leg begins. -/
theorem obeys_beginLeg (c : TurnContext) (a : Assistant σ) (messages : List Message)
    (caller : Object) : (e.beginLeg c a messages caller).Obeys Event.Prepares e.MayFail := by
  unfold beginLeg
  refine .bind (obeys_consult _ _ _ .hook .hungUp) fun reply => ?_
  split
  · exact obeys_revise _ _ _
  · exact Flow.obeys_pure _

/-! ### Requests -/

/-- A file is read as Base64, and fails as the file store does or is not found. -/
theorem mayFail_base64 {files : FileStore σ} (hfiles : e.files = some files) (id : String) (w : σ)
    (x : Failure) (hx : (files.base64 id w).value = .error x) : e.MayFail x := by
  intro hcanceled
  subst hcanceled
  unfold FileStore.base64 Call.andThen at hx
  dsimp only at hx
  cases hfind : (files.exists? id w).value with
  | error y =>
    rw [hfind] at hx
    cases hx
    exact .find hfiles id w hfind
  | ok found =>
    rw [hfind] at hx
    cases found with
    | false => exact nomatch hx
    | true =>
      dsimp only at hx
      cases hread : (files.read id (files.exists? id w).world).value with
      | error y =>
        rw [hread] at hx
        cases hx
        exact .read hfiles id _ hread
      | ok bytes =>
        rw [hread] at hx
        exact nomatch hx

/-- An image is addressed. -/
theorem obeys_imageUrl (a : Attachment) :
    (Request.imageUrl e.files a).Obeys Event.Prepares e.MayFail := by
  unfold Request.imageUrl
  split
  · exact Flow.obeys_pure _
  split
  · exact Flow.obeys_fail nofun
  next files hfiles =>
  exact (Flow.obeys_ask .hungUp (mayFail_base64 hfiles a.url)).bind fun _ => Flow.obeys_pure _

/-- Images are addressed one after another. -/
theorem obeys_imageParts (attachments : List Attachment) :
    (Request.imageParts e.files attachments).Obeys Event.Prepares e.MayFail := by
  induction attachments with
  | nil => exact Flow.obeys_pure _
  | cons a rest ih => exact (obeys_imageUrl a).bind fun _ => ih.bind fun _ => Flow.obeys_pure _

/-- The input is sent with its images. -/
theorem obeys_inputEntries (vision : Bool) (m : Message) :
    (Request.inputEntries e.files vision m).Obeys Event.Prepares e.MayFail := by
  unfold Request.inputEntries
  have hraw := mayFail_of_ne_canceled (e := e)
    (Message.ofRaw_ne_canceled (String.ofList (Text.trim m.text.toList)) .user)
  refine .bind (Flow.obeys_ofResult hraw) fun input => ?_
  split
  · exact Flow.obeys_pure _
  split
  · exact (obeys_imageParts _).bind fun _ => Flow.obeys_pure _
  · exact Flow.obeys_pure _

/-- A message is sent, or left out. -/
theorem obeys_entries (vision : Bool) (m : Message) (isLast : Bool) :
    (Request.entries e.files vision m isLast).Obeys Event.Prepares e.MayFail := by
  unfold Request.entries
  dsimp only
  split
  · exact Flow.obeys_pure _
  split
  · split
    · exact Flow.obeys_fail nofun
    · exact Flow.obeys_pure _
  split
  · exact obeys_inputEntries _ _
  · exact Flow.obeys_pure _

/-- A request is made of a conversation. -/
theorem obeys_requestFor (a : Assistant σ) (messages : List Message) :
    (e.requestFor a messages).Obeys Event.Prepares e.MayFail := by
  unfold requestFor
  induction messages with
  | nil => exact Flow.obeys_pure _
  | cons m rest ih =>
    exact (obeys_entries _ _ _).bind fun _ => ih.bind fun _ => Flow.obeys_pure _

end Engine

end ChatRelay
