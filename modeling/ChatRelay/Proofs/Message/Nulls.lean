import ChatRelay.Proofs.Json.Nulls
import ChatRelay.Proofs.Json.Numbers
import ChatRelay.Proofs.Message.Faults

/-!
# Nulls in messages and in the answers of hooks

Where a message, a hook's answer or a follow-up gives null for something, it gives nothing, and the
null may as well be absent; that holds also of the payload of a follow-up
(`FollowUp.ofJson_of_withoutNulls`). There are two exceptions, where a key stands in for another: a
content that is null hides the text of a message, and an input that is null hides the messages of an
answer. `withoutNulls_iff` says just when a null makes a difference.
-/

namespace ChatRelay

open Json (Value Object SameButNull WithoutNulls DropsNulls)
open Result (FailsWith)

/-! ### Messages -/

namespace Message

variable {o o' : Object}

/-- A role that is null is read as an absent one. -/
theorem roleIn_of_sameButNull (h : SameButNull o o' "role") (default : Role) :
    roleIn o' default = roleIn o default := by
  unfold roleIn
  rcases h with hsame | ⟨hnull, hnone⟩
  · rw [hsame]
  · rw [hnull, hnone]

/-- A type that is null is read as an absent one. -/
theorem kindIn_of_sameButNull (h : SameButNull o o' "type") : kindIn o' = kindIn o := by
  unfold kindIn
  rw [h.bind_eq rfl]

/-- Attachments that are null are read as absent ones. -/
theorem attachmentsIn_of_sameButNull (h : SameButNull o o' "attachments") :
    attachmentsIn o' = attachmentsIn o := by
  unfold attachmentsIn
  rcases h with hsame | ⟨hnull, hnone⟩
  · rw [hsame]
  · rw [hnull, hnone]

/-- A string that is null is read as an absent one, where it may not be empty. -/
theorem nonEmptyString?_of_sameButNull {key : String} (h : SameButNull o o' key) :
    nonEmptyString? o' key = nonEmptyString? o key := by
  unfold nonEmptyString?
  rw [h.bind_eq rfl]

/-- Without some of its nulls an object is read as the same message, but perhaps for its text. -/
theorem ofObject_of_withoutNulls (h : WithoutNulls o o') (default : Role) :
    ofObject o' default = (ofObject o default).map fun m => { m with text := textIn o' } := by
  have hhidden : (o'.get? "hidden").bind Value.asBool? = (o.get? "hidden").bind Value.asBool? :=
    (h.sameButNull "hidden").bind_eq rfl
  unfold ofObject
  rw [roleIn_of_sameButNull (h.sameButNull "role"), kindIn_of_sameButNull (h.sameButNull "type"),
    attachmentsIn_of_sameButNull (h.sameButNull "attachments"),
    nonEmptyString?_of_sameButNull (h.sameButNull "name"), hhidden]
  cases roleIn o default with
  | error x => rfl
  | ok role =>
    cases kindIn o with
    | error x => rfl
    | ok kind => cases attachmentsIn o <;> rfl

/-- The content of the first object is null, and hides a text that the second has. -/
def HidesText (o o' : Object) : Prop :=
  o.get? "content" = some .null ∧ o'.get? "content" = none ∧
    ∃ v, o'.get? "text" = some v ∧ v ≠ .null ∧ v ≠ .string ""

/-- A content that is null hides the text. -/
theorem textIn_of_content_eq_null (h : o.get? "content" = some .null) : textIn o = "" := by
  unfold textIn
  rw [h]
  rfl

/-- Where there is no content, a message has a text exactly if the text is neither null nor
empty. -/
theorem textIn_eq_empty_iff (h : o.get? "content" = none) :
    textIn o = "" ↔ ∀ v, o.get? "text" = some v → v = .null ∨ v = .string "" := by
  unfold textIn
  rw [h, Option.none_or]
  cases htext : o.get? "text" with
  | none => exact ⟨fun _ => nofun, fun _ => rfl⟩
  | some v =>
    have hrender : v.text ≠ "" := by
      intro hempty
      obtain ⟨c, rest, hcons, -⟩ := v.exists_render_eq_cons
      have hnil : v.render = [] := by simpa [Value.text] using congrArg String.toList hempty
      exact nomatch hcons.symm.trans hnil
    cases v with
    | null => exact ⟨fun _ v hv => .inl (Option.some.inj hv).symm, fun _ => rfl⟩
    | string s =>
      constructor
      · rintro rfl v hv
        exact .inr (Option.some.inj hv).symm
      · intro hall
        rcases hall _ rfl with hnull | hempty
        · exact nomatch hnull
        · exact Value.string.inj hempty
    | _ =>
      refine ⟨fun hempty => absurd hempty hrender, fun hall => ?_⟩
      rcases hall _ rfl with hnull | hempty
      · exact nomatch hnull
      · exact nomatch hempty

/-- Without some of its nulls an object gives the same text, unless one of them hides a text. -/
theorem textIn_of_withoutNulls (h : WithoutNulls o o') :
    textIn o' = textIn o ↔ ¬HidesText o o' := by
  rcases h.sameButNull "content" with hcontent | ⟨hnull, hnone⟩
  · have hsame : textIn o' = textIn o := by
      unfold textIn
      rw [hcontent]
      cases hget : o.get? "content" with
      | some v => rfl
      | none =>
        rw [Option.none_or, Option.none_or]
        rcases h.sameButNull "text" with htext | ⟨hnull, hnone⟩
        · rw [htext]
        · rw [hnull, hnone]
    refine ⟨fun _ ⟨hnull, hnone, _⟩ => ?_, fun _ => hsame⟩
    exact nomatch hnull.symm.trans (hcontent.symm.trans hnone)
  · rw [textIn_of_content_eq_null hnull, textIn_eq_empty_iff hnone]
    constructor
    · rintro hall ⟨-, -, v, hv, hnonnull, hnonempty⟩
      rcases hall v hv with rfl | rfl
      · exact hnonnull rfl
      · exact hnonempty rfl
    · intro hnot v hv
      by_contra hboth
      obtain ⟨hnonnull, hnonempty⟩ := not_or.1 hboth
      exact hnot ⟨hnull, hnone, v, hv, hnonnull, hnonempty⟩

/-- Without some of its nulls an object is read as the same message, or fails in the same way,
unless one of them hides the text of a message. -/
theorem ofObject_eq_iff (h : WithoutNulls o o') (default : Role) :
    ofObject o' default = ofObject o default ↔
      ¬(HidesText o o' ∧ ∃ m, ofObject o default = .ok m) := by
  rw [ofObject_of_withoutNulls h]
  have hread := readAs_ofObject o default
  revert hread
  generalize ofObject o default = r
  intro hread
  cases hread with
  | refused | undecoded => exact ⟨fun _ ⟨_, m, hm⟩ => (nomatch hm), fun _ => rfl⟩
  | read m _ htext _ =>
    have hiff := textIn_of_withoutNulls h
    constructor
    · rintro hsame ⟨hhides, -⟩
      have hm : { m with text := textIn o' } = m := Except.ok.inj hsame
      exact hiff.1 ((congrArg Message.text hm).trans htext) hhides
    · intro hnot
      have hkeeps : textIn o' = textIn o := hiff.2 fun hhides => hnot ⟨hhides, m, rfl⟩
      show (.ok { m with text := textIn o' } : Result Message) = .ok m
      rw [hkeeps, ← htext]

end Message

/-! ### Follow-ups -/

namespace FollowUp

/-- The second of two objects is the first without some of its nulls, also of its payload. -/
def WithoutNulls : Object → Object → Prop :=
  DropsNulls (fun _ => True) (Json.At "payload" (Json.AsObjects Json.WithoutNulls))

/-- A hand-off is read in the same way without its nulls. -/
theorem handOffOf_of_withoutNulls {p p' : Object} (h : Json.WithoutNulls p p') :
    handOffOf p' = handOffOf p := by
  have hinput : inputIn p' = inputIn p := by
    unfold inputIn
    rcases h.sameButNull "input" with hsame | ⟨hnull, hnone⟩
    · rw [hsame]
    · rw [hnull, hnone]
  have hoptions : optionsIn p' = optionsIn p := by
    unfold optionsIn
    rcases h.sameButNull "options" with hsame | ⟨hnull, hnone⟩
    · rw [hsame]
    · rw [hnull, hnone]
  unfold handOffOf
  rw [Message.nonEmptyString?_of_sameButNull (h.sameButNull "assistant_id"), hinput, hoptions]

/-- Without some of its nulls, at the top or in its payload, an object is read as the same
follow-up, or fails in the same way. -/
theorem ofJson_of_withoutNulls {a a' : Object} (h : WithoutNulls a a') :
    ofJson (.object a') = ofJson (.object a) := by
  have haction : (a'.get? "action").bind Value.asString? = (a.get? "action").bind Value.asString? :=
    (h.sameButNull_of_ne "action" (by decide)).bind_eq rfl
  unfold ofJson Value.member?
  dsimp only
  rw [haction]
  rcases h "payload" with hsame | ⟨-, hnull, hnone⟩ | ⟨v, v', hv, hv', -, hinside⟩
  · rw [hsame]
  · rw [hnull, hnone]
    rfl
  · cases hinside with
    | object hp =>
      rw [hv, hv']
      simp only [Option.bind_some, Value.asObject?, handOffOf_of_withoutNulls hp]

end FollowUp

/-! ### Answers of hooks -/

namespace HookReply

/-- The second of two objects is the first without some of its nulls, also of its next action. -/
def WithoutNulls : Object → Object → Prop :=
  DropsNulls (fun _ => True) (Json.At "next" (Json.AsObjects FollowUp.WithoutNulls))

/-! #### What a failure is about -/

/-- A failure is about a message: its role, its type, its attachments, or that there is none where
one should be. -/
def isOfMessages : Failure → Bool
  | .decoding _ => true
  | .invalidInput detail =>
    ["unknown ", "role must be", "input item", "input should be a message"].any fun beginning =>
      beginning.toList.isPrefixOf detail.toList
  | _ => false

/-- What is wrong with a message is about a message. -/
theorem failsWith_ofObject (o : Object) (default : Role) :
    (Message.ofObject o default).FailsWith (isOfMessages · = true) := by
  unfold Message.ofObject
  apply FailsWith.bind
  · unfold Message.roleIn
    split
    · exact .ok _
    · exact .ok _
    · exact .ok _
    · split
      · exact .ok _
      · apply FailsWith.error
        simp only [isOfMessages, String.toList_append]
        rfl
    · apply FailsWith.error
      simp only [isOfMessages, String.toList_append]
      rfl
  intro role
  apply FailsWith.bind
  · unfold Message.kindIn
    split
    · exact .ok _
    · split
      · exact .ok _
      · apply FailsWith.error
        simp only [isOfMessages, String.toList_append]
        rfl
  intro kind
  apply FailsWith.bind
  · intro x hx
    obtain ⟨fault, rfl⟩ := Message.attachmentsIn_eq_error hx
    rfl
  intro attachments
  exact .ok _

/-- What is wrong with the messages of an answer is about messages. -/
theorem failsWith_messagesIn (o : Object) :
    (messagesIn o).FailsWith (isOfMessages · = true) := by
  unfold messagesIn
  split
  · exact .ok _
  · exact .ok _
  · apply FailsWith.map
    apply FailsWith.mapM
    intro v
    unfold messageOf
    split
    · exact failsWith_ofObject _ _
    · unfold Message.ofRaw
      dsimp only
      split
      · exact failsWith_ofObject _ _
      · exact .ok _
    · exact .error rfl
  · exact .error rfl

/-- What is wrong with a follow-up is not about messages. -/
theorem failsWith_followUp (v : Value) :
    (FollowUp.ofJson v).FailsWith (isOfMessages · = false) := by
  unfold FollowUp.ofJson
  split
  · exact .error rfl
  · split
    · exact .error rfl
    · apply FailsWith.map
      unfold FollowUp.handOffOf
      split
      · exact .error rfl
      · apply FailsWith.bind
        · unfold FollowUp.inputIn
          split
          · exact .error rfl
          · exact .error rfl
          · unfold HandOffInput.ofJson
            split
            · exact .ok _
            · exact .ok _
            · apply FailsWith.error
              simp only [isOfMessages, String.toList_append]
              rfl
        intro input
        apply FailsWith.bind
        · unfold FollowUp.optionsIn
          split
          · exact .ok _
          · exact .ok _
          · exact .ok _
          · exact .error rfl
        intro options
        exact .ok _
  · exact .ok _
  · exact .error rfl

/-- What is wrong with the next action of an answer is not about messages. -/
theorem failsWith_nextIn (o : Object) : (nextIn o).FailsWith (isOfMessages · = false) := by
  unfold nextIn
  split
  · exact .ok _
  · exact .ok _
  · exact (failsWith_followUp _).map _

/-! #### Answers without nulls -/

variable {o o' : Object}

/-- Options that are null are read as absent ones. -/
theorem optionsIn_of_sameButNull (h : SameButNull o o' "options") : optionsIn o' = optionsIn o := by
  unfold optionsIn
  rcases h with hsame | ⟨hnull, hnone⟩
  · rw [hsame]
  · rw [hnull, hnone]

/-- An output that is null is read as an absent one. -/
theorem outputIn_of_sameButNull (h : SameButNull o o' "output") : outputIn o' = outputIn o := by
  unfold outputIn
  rcases h with hsame | ⟨hnull, hnone⟩
  · rw [hsame]
  · rw [hnull, hnone]

/-- The next action is read in the same way without nulls in it. -/
theorem nextIn_of_withoutNulls (h : WithoutNulls o o') : nextIn o' = nextIn o := by
  unfold nextIn
  rcases h "next" with hsame | ⟨-, hnull, hnone⟩ | ⟨v, v', hv, hv', -, hinside⟩
  · rw [hsame]
  · rw [hnull, hnone]
  · cases hinside with
    | object ha =>
      rw [hv, hv']
      exact congrArg (Except.map some) (FollowUp.ofJson_of_withoutNulls ha)

/-- The messages are read in the same way, unless a null that is removed stood for all of them. -/
theorem messagesIn_of_withoutNulls (h : WithoutNulls o o') :
    messagesIn o' = messagesIn o ∨
      o.get? "input" = some .null ∧ o'.get? "input" = none ∧ messagesIn o = .ok none := by
  rcases h.sameButNull_of_ne "input" (by decide) with hinput | ⟨hnull, hnone⟩
  · left
    unfold messagesIn
    rw [hinput]
    cases hget : o.get? "input" with
    | some v => rfl
    | none =>
      rw [Option.none_or, Option.none_or]
      rcases h.sameButNull_of_ne "messages" (by decide) with hsame | ⟨hnull, hnone⟩
      · rw [hsame]
      · rw [hnull, hnone]
  · right
    refine ⟨hnull, hnone, ?_⟩
    unfold messagesIn
    rw [hnull]
    rfl

/-- The input of the first object is null and hides messages that the second has: something is made
of them, or it is seen that nothing can be. -/
def HidesMessages (o o' : Object) : Prop :=
  o.get? "input" = some .null ∧ o'.get? "input" = none ∧
    (∃ options, optionsIn o = .ok options) ∧
    (∃ v, o'.get? "messages" = some v ∧ v ≠ .null) ∧
    ((∃ x, messagesIn o' = .error x) ∨ ∃ next, nextIn o = .ok next)

/-- Where there is no input, the messages are all that there is. -/
theorem messagesIn_eq_none_iff (h : o.get? "input" = none) :
    messagesIn o = .ok none ↔ ∀ v, o.get? "messages" = some v → v = .null := by
  unfold messagesIn
  rw [h, Option.none_or]
  cases hget : o.get? "messages" with
  | none => exact ⟨fun _ => nofun, fun _ => rfl⟩
  | some v =>
    have hall : (∀ w, some v = some w → w = .null) ↔ v = .null :=
      ⟨fun hall => hall v rfl, fun hv w hw => (Option.some.inj hw).symm.trans hv⟩
    rw [hall]
    cases v with
    | null => exact ⟨fun _ => rfl, fun _ => rfl⟩
    | array items =>
      refine ⟨fun hnone => ?_, nofun⟩
      cases hitems : items.mapM messageOf with
      | error x =>
        change (items.mapM messageOf).map some = .ok none at hnone
        rw [hitems] at hnone
        exact nomatch hnone
      | ok ms =>
        change (items.mapM messageOf).map some = .ok none at hnone
        rw [hitems] at hnone
        exact nomatch hnone
    | _ => exact ⟨nofun, nofun⟩

/-- Without some of its nulls an answer is read in the same way, but perhaps for its messages. -/
theorem ofJson_of_withoutNulls (h : WithoutNulls o o') :
    ofJson (.object o') = (do
      let options ← optionsIn o
      let messages ← messagesIn o'
      let next ← nextIn o
      return {
        options, messages, next
        assistantId := Message.nonEmptyString? o "assistant_id"
        output := outputIn o
        error := Message.nonEmptyString? o "error" }) := by
  unfold ofJson
  dsimp only
  rw [optionsIn_of_sameButNull (h.sameButNull_of_ne "options" (by decide)),
    nextIn_of_withoutNulls h,
    outputIn_of_sameButNull (h.sameButNull_of_ne "output" (by decide)),
    Message.nonEmptyString?_of_sameButNull (h.sameButNull_of_ne "assistant_id" (by decide)),
    Message.nonEmptyString?_of_sameButNull (h.sameButNull_of_ne "error" (by decide))]

/-- If messages are hidden, something is made of those that are. -/
theorem HidesMessages.messagesIn_ne (h : HidesMessages o o') : messagesIn o' ≠ messagesIn o := by
  obtain ⟨hnull, hnone, -, ⟨v, hv, hnonnull⟩, -⟩ := h
  have hempty : messagesIn o = .ok none := by
    unfold messagesIn
    rw [hnull]
    rfl
  intro hsame
  exact hnonnull ((messagesIn_eq_none_iff hnone).1 (hsame.trans hempty) v hv)

/-- Without some of its nulls an answer is read in the same way, or fails in the same way, unless
one of them hides messages. -/
theorem ofJson_eq_iff (h : WithoutNulls o o') :
    ofJson (.object o') = ofJson (.object o) ↔ ¬HidesMessages o o' := by
  rcases messagesIn_of_withoutNulls h with hsame | ⟨hnull, hnone, hempty⟩
  · refine ⟨fun _ hhides => hhides.messagesIn_ne hsame, fun _ => ?_⟩
    rw [ofJson_of_withoutNulls h, hsame]
    rfl
  have hself : ofJson (.object o) = _ := ofJson_of_withoutNulls (DropsNulls.refl o)
  rw [ofJson_of_withoutNulls h, hself, hempty]
  unfold HidesMessages
  have hvisible : (∃ v, o'.get? "messages" = some v ∧ v ≠ .null) ↔ messagesIn o' ≠ .ok none := by
    rw [Ne, messagesIn_eq_none_iff hnone]
    exact ⟨fun ⟨v, hv, hne⟩ hall => hne (hall v hv), fun hnot => by simpa using hnot⟩
  rw [hvisible]
  cases hoptions : optionsIn o with
  | error x => exact ⟨fun _ ⟨_, _, ⟨_, hok⟩, _⟩ => (nomatch hok), fun _ => rfl⟩
  | ok options =>
    cases hnext : nextIn o with
    | error x =>
      cases hmessages : messagesIn o' with
      | error y =>
        -- The two failures are about different things.
        have hne : y ≠ x := by
          rintro rfl
          have hof := failsWith_messagesIn o' y hmessages
          exact nomatch hof.symm.trans (failsWith_nextIn o y hnext)
        refine ⟨fun heq => absurd (Except.error.inj heq) hne, fun hnot => absurd ?_ hnot⟩
        exact ⟨hnull, hnone, ⟨options, rfl⟩, nofun, .inl ⟨y, rfl⟩⟩
      | ok ms =>
        refine ⟨fun _ ⟨_, _, _, _, hread⟩ => ?_, fun _ => rfl⟩
        rcases hread with ⟨y, hy⟩ | ⟨next, hok⟩
        · exact nomatch hy
        · exact nomatch hok
    | ok next =>
      cases hmessages : messagesIn o' with
      | error y =>
        refine ⟨fun heq => (nomatch heq), fun hnot => absurd ?_ hnot⟩
        exact ⟨hnull, hnone, ⟨options, rfl⟩, nofun, .inl ⟨y, rfl⟩⟩
      | ok ms =>
        constructor
        · rintro heq ⟨-, -, -, hne, -⟩
          have hms : ms = none := congrArg HookReply.messages (Except.ok.inj heq)
          exact hne (congrArg Except.ok hms)
        · intro hnot
          cases ms with
          | none => rfl
          | some ms =>
            refine absurd ?_ hnot
            exact ⟨hnull, hnone, ⟨options, rfl⟩, nofun, .inr ⟨next, rfl⟩⟩

end HookReply

/-! ### When a null makes a difference -/

/-- What difference it makes to remove some nulls. A message, an answer of a hook, and a follow-up
are read in the same way or fail in the same way, whichever nulls are removed, also from the payload
of the follow-up, with two exceptions. A message becomes another if its content is null and it has a
text, and an answer becomes another if its input is null and it has messages, unless something else
is wrong that is seen first. -/
theorem withoutNulls_iff {o o' a a' r r' : Object} (ho : Json.WithoutNulls o o')
    (ha : FollowUp.WithoutNulls a a') (hr : HookReply.WithoutNulls r r') (default : Role) :
    (Message.ofObject o' default = Message.ofObject o default ↔
        ¬(Message.HidesText o o' ∧ ∃ m, Message.ofObject o default = .ok m)) ∧
      FollowUp.ofJson (.object a') = FollowUp.ofJson (.object a) ∧
      (HookReply.ofJson (.object r') = HookReply.ofJson (.object r) ↔
        ¬HookReply.HidesMessages r r') := by
  refine ⟨?_, ?_, ?_⟩
  · exact Message.ofObject_eq_iff ho default
  · exact FollowUp.ofJson_of_withoutNulls ha
  · exact HookReply.ofJson_eq_iff hr

/-- A message with a text and a content that is null. -/
def voidContent : Object :=
  [("content", .null), ("name", .null), ("text", .string "hi")]

/-- A follow-up that hands on with options that are null. -/
def voidOptions : Object :=
  [("action", .string "assistant"),
    ("payload", .object [("assistant_id", .string "b"), ("input", .string "go on"),
      ("options", .null)])]

/-- An answer with messages and an input that is null. -/
def voidInput : Object :=
  [("input", .null), ("messages", .array [.string "hi"]), ("output", .null)]

/-- It makes no difference whether such a message has a name that is null, nor whether such options
are there; but without its content the message is another, and so is the answer without its input.
-/
theorem withoutNulls_iff_void :
    Message.ofObject (voidContent.remove "name") .user = Message.ofObject voidContent .user ∧
      Message.ofObject (voidContent.remove "content") .user ≠ Message.ofObject voidContent .user ∧
      FollowUp.ofJson (.object (voidOptions.set "payload"
          (.object [("assistant_id", .string "b"), ("input", .string "go on")]))) =
        FollowUp.ofJson (.object voidOptions) ∧
      HookReply.ofJson (.object (voidInput.remove "output")) =
        HookReply.ofJson (.object voidInput) ∧
      HookReply.ofJson (.object (voidInput.remove "input")) ≠
        HookReply.ofJson (.object voidInput) := by
  have hname : Json.WithoutNulls voidContent (voidContent.remove "name") :=
    Json.dropsNulls_remove _ trivial rfl
  have hcontent : Json.WithoutNulls voidContent (voidContent.remove "content") :=
    Json.dropsNulls_remove _ trivial rfl
  have hoptions : FollowUp.WithoutNulls voidOptions (voidOptions.set "payload"
      (.object [("assistant_id", .string "b"), ("input", .string "go on")])) :=
    Json.dropsNulls_set _ rfl ⟨rfl, .object (Json.dropsNulls_remove "options" trivial rfl)⟩
  have houtput : HookReply.WithoutNulls voidInput (voidInput.remove "output") :=
    Json.dropsNulls_remove _ trivial rfl
  have hinput : HookReply.WithoutNulls voidInput (voidInput.remove "input") :=
    Json.dropsNulls_remove _ trivial rfl
  -- First the nulls that make no difference, then the two that do.
  obtain ⟨hmessage, hfollowUp, hanswer⟩ := withoutNulls_iff hname hoptions houtput .user
  obtain ⟨hhidden, -, hhides⟩ := withoutNulls_iff hcontent hoptions hinput .user
  refine ⟨hmessage.2 ?_, mt hhidden.1 (not_not.2 ?_), hfollowUp, hanswer.2 ?_,
    mt hhides.1 (not_not.2 ?_)⟩
  · rintro ⟨⟨-, hnone, -⟩, -⟩
    exact nomatch hnone
  · exact ⟨⟨rfl, rfl, .string "hi", rfl, nofun, by simp⟩, _, rfl⟩
  · rintro ⟨-, hnone, -⟩
    exact nomatch hnone
  · exact ⟨rfl, rfl, ⟨_, rfl⟩, ⟨.array [.string "hi"], rfl, nofun⟩, .inr ⟨_, rfl⟩⟩

/-- A content that is null hides the text of a message, and an input that is null hides the messages
of an answer. -/
theorem void_hides :
    (Message.ofObject voidContent .user).toOption.map Message.text = some "" ∧
      (Message.ofObject (voidContent.remove "content") .user).toOption.map Message.text =
        some "hi" ∧
      (HookReply.ofJson (.object voidInput)).toOption.map (fun r => r.messages.isSome) =
        some false ∧
      (HookReply.ofJson (.object (voidInput.remove "input"))).toOption.map
        (fun r => r.messages.isSome) = some true := by
  refine ⟨by decide +kernel, by decide +kernel, by decide +kernel, by decide +kernel⟩

end ChatRelay
