import ChatRelay.Hook

/-!
# Faults of messages

A message may be given as a loosely typed object or as raw text, and so may the input of a hand-off
and all that a hook answers. The role and the type of an object are read first, and then its
attachments: an object is refused, or does not decode, or is read (`Message.ReadAs`). All faults
that are found in this way are faults of the input (`HookReply.blamesInput_ofJson`,
`FollowUp.blamesInput_messageIn`).
-/

namespace ChatRelay

open Json (Value Object)

namespace Message

variable {o : Object} {default : Role}

/-- A role is only ever refused as an invalid input. -/
theorem roleIn_eq_error {x : Failure} (h : roleIn o default = .error x) :
    ∃ detail, x = .invalidInput detail := by
  unfold roleIn at h
  split at h
  · exact nomatch h
  · exact nomatch h
  · exact nomatch h
  · split at h
    · exact nomatch h
    · cases h
      exact ⟨_, rfl⟩
  · cases h
    exact ⟨_, rfl⟩

/-- A type is only ever refused as an invalid input. -/
theorem kindIn_eq_error {x : Failure} (h : kindIn o = .error x) :
    ∃ detail, x = .invalidInput detail := by
  unfold kindIn at h
  split at h
  · exact nomatch h
  · split at h
    · exact nomatch h
    · cases h
      exact ⟨_, rfl⟩

/-- Attachments only ever fail to decode. -/
theorem attachmentsIn_eq_error {x : Failure} (h : attachmentsIn o = .error x) :
    ∃ fault, x = .decoding fault := by
  unfold attachmentsIn Result.ofDecoded at h
  split at h
  · next items _ =>
    cases hitems : items.mapM Attachment.decode with
    | error fault =>
      rw [hitems] at h
      cases h
      exact ⟨fault, rfl⟩
    | ok attachments =>
      rw [hitems] at h
      exact nomatch h
  · exact nomatch h

/-- An object whose role or type is none that there is. -/
def IsRefused (o : Object) (default : Role) : Prop :=
  (∃ x, roleIn o default = .error x) ∨ ∃ x, kindIn o = .error x

/-- What an object is read as: it is refused for its role or its type, or else its attachments do
not decode, or else it is a message with the text that the object gives. -/
inductive ReadAs (o : Object) (default : Role) : Result Message → Prop
  | refused (detail : String) (h : IsRefused o default) :
    ReadAs o default (.error (.invalidInput detail))
  | undecoded (fault : Json.DecodeError) (hknown : ¬IsRefused o default)
      (h : attachmentsIn o = .error (.decoding fault)) : ReadAs o default (.error (.decoding fault))
  | read (m : Message) (hknown : ¬IsRefused o default) (htext : m.text = textIn o)
      (h : attachmentsIn o = .ok m.attachments) : ReadAs o default (.ok m)

/-- Each object is refused, or does not decode, or is read. -/
theorem readAs_ofObject (o : Object) (default : Role) : ReadAs o default (ofObject o default) := by
  unfold ofObject
  cases hrole : roleIn o default with
  | error x =>
    obtain ⟨detail, rfl⟩ := roleIn_eq_error hrole
    exact .refused detail (.inl ⟨_, hrole⟩)
  | ok role =>
    cases hkind : kindIn o with
    | error x =>
      obtain ⟨detail, rfl⟩ := kindIn_eq_error hkind
      exact .refused detail (.inr ⟨_, hkind⟩)
    | ok kind =>
      have hknown : ¬IsRefused o default := by
        rintro (⟨x, hx⟩ | ⟨x, hx⟩)
        · exact nomatch hrole.symm.trans hx
        · exact nomatch hkind.symm.trans hx
      cases hattachments : attachmentsIn o with
      | error x =>
        obtain ⟨fault, rfl⟩ := attachmentsIn_eq_error hattachments
        exact .undecoded fault hknown hattachments
      | ok attachments => exact .read _ hknown rfl hattachments

end Message

/-! ### Faults of the input -/

/-- Of results one after another that are well in the end, the first one is. -/
theorem Result.exists_of_bind_eq_ok {α β : Type} {r : Result α} {next : α → Result β} {b : β}
    (h : r >>= next = .ok b) : ∃ a, r = .ok a ∧ next a = .ok b := by
  cases r with
  | error x => exact nomatch h
  | ok a => exact ⟨a, rfl, h⟩

/-- A result whose failure, if it is one, satisfies `P`. -/
def Result.FailsWith {α : Type} (P : Failure → Prop) (r : Result α) : Prop :=
  ∀ x, r = .error x → P x

namespace Result.FailsWith

variable {α β : Type} {P : Failure → Prop}

theorem ok (a : α) : FailsWith P (.ok a : Result α) := nofun

/-- A failure fails with what holds of it. -/
theorem error {x : Failure} (h : P x) : FailsWith P (.error x : Result α) := by
  rintro _ ⟨⟩
  exact h

/-- What goes on from a result fails with nothing but what the one or the other may fail with. -/
theorem bind {r : Result α} {next : α → Result β} (hr : r.FailsWith P)
    (hnext : ∀ a, (next a).FailsWith P) : (r >>= next).FailsWith P := by
  cases r with
  | error x => exact error (hr x rfl)
  | ok a => exact hnext a

/-- What is made of the value of a result fails as the result does. -/
theorem map {r : Result α} (hr : r.FailsWith P) (f : α → β) : FailsWith P (r.map f) := by
  cases r with
  | error x => exact error (hr x rfl)
  | ok a => exact ok (f a)

/-- Results one after another fail with nothing but what each of them may fail with. -/
theorem mapM {f : α → Result β} (hf : ∀ a, (f a).FailsWith P) (as : List α) :
    FailsWith P (as.mapM f) := by
  induction as with
  | nil => exact ok []
  | cons a as ih =>
    rw [List.mapM_cons]
    exact (hf a).bind fun b => ih.bind fun bs => ok _

end Result.FailsWith

/-- A result whose failure, if it is one, is a fault of the input. -/
def Result.BlamesInput {α : Type} (r : Result α) : Prop :=
  ∀ x, r = .error x → x.category = .input

namespace Result.BlamesInput

variable {α β : Type}

theorem ok (a : α) : BlamesInput (.ok a : Result α) := FailsWith.ok a

/-- A failure of the input blames the input. -/
theorem error {x : Failure} (h : x.category = .input) : BlamesInput (.error x : Result α) :=
  FailsWith.error h

/-- What goes on from a result blames nothing but the input if neither part does. -/
theorem bind {r : Result α} {next : α → Result β} (hr : r.BlamesInput)
    (hnext : ∀ a, (next a).BlamesInput) : (r >>= next).BlamesInput :=
  FailsWith.bind hr hnext

/-- What is made of the value of a result blames what the result does. -/
theorem map {r : Result α} (hr : r.BlamesInput) (f : α → β) : BlamesInput (r.map f) :=
  FailsWith.map hr f

/-- Results one after another blame nothing but the input if none of them does. -/
theorem mapM {f : α → Result β} (hf : ∀ a, (f a).BlamesInput) (as : List α) :
    BlamesInput (as.mapM f) :=
  FailsWith.mapM hf as

end Result.BlamesInput

open Result (BlamesInput)

/-- An object that cannot be read as a message is blamed on the input. -/
theorem Message.blamesInput_ofObject (o : Object) (default : Role) :
    (ofObject o default).BlamesInput := by
  intro x hx
  have hread := readAs_ofObject o default
  rw [hx] at hread
  cases hread with
  | refused => rfl
  | undecoded => rfl

/-- A text that cannot be read as a message is blamed on the input. -/
theorem Message.blamesInput_ofRaw (raw : String) (default : Role) :
    (ofRaw raw default).BlamesInput := by
  unfold ofRaw
  dsimp only
  split
  · exact blamesInput_ofObject _ _
  · exact .ok _

/-- The input of a hand-off that cannot be read is blamed on the input. -/
theorem HandOffInput.blamesInput_toMessage (input : HandOffInput) :
    input.toMessage.BlamesInput := by
  cases input with
  | message m => exact .ok m
  | object o => exact Message.blamesInput_ofObject o .user
  | raw s => exact Message.blamesInput_ofRaw s .user

namespace FollowUp

/-- Options that cannot be read in an action are blamed on the input. -/
theorem blamesInput_optionsIn (payload : Object) : (optionsIn payload).BlamesInput := by
  unfold optionsIn
  split
  · exact .ok _
  · exact .ok _
  · exact .ok _
  · exact .error rfl

/-- An input that cannot be read in an action is blamed on the input. -/
theorem blamesInput_inputIn (payload : Object) : (inputIn payload).BlamesInput := by
  unfold inputIn
  split
  · exact .error rfl
  · exact .error rfl
  · unfold HandOffInput.ofJson
    split
    · exact .ok _
    · exact .ok _
    · exact .error rfl

/-- An action that cannot be read as a hand-off is blamed on the input. -/
theorem blamesInput_handOffOf (payload : Object) : (handOffOf payload).BlamesInput := by
  unfold handOffOf
  split
  · exact .error rfl
  · apply (blamesInput_inputIn payload).bind
    intro input
    apply (blamesInput_optionsIn payload).bind
    intro options
    exact .ok _

/-- Whatever is wrong with an action is blamed on the input. -/
theorem blamesInput_ofJson (v : Value) : (ofJson v).BlamesInput := by
  unfold ofJson
  split
  · exact .error rfl
  · split
    · exact .error rfl
    · exact (blamesInput_handOffOf _).map _
  · exact .ok _
  · exact .error rfl

/-- The message that a follow-up in JSON hands on, if it hands on at all. -/
def messageIn (v : Value) : Result (Option Message) := do
  match ← ofJson v with
  | .handOff h => h.input.toMessage.map some
  | .exit => return none

/-- A message that an action gives is blamed on the input. -/
theorem blamesInput_messageIn (v : Value) : (messageIn v).BlamesInput := by
  apply (blamesInput_ofJson v).bind
  intro next
  cases next with
  | handOff h => exact h.input.blamesInput_toMessage.map some
  | exit => exact .ok none

/-- A follow-up that is read, but hands no message on because of a fault, has an input with this
fault. -/
theorem exists_handOff_of_messageIn {v : Value} {next : FollowUp} {x : Failure}
    (hnext : ofJson v = .ok next) (hfault : messageIn v = .error x) :
    ∃ h, next = .handOff h ∧ h.input.toMessage = .error x := by
  unfold messageIn at hfault
  rw [hnext] at hfault
  cases next with
  | exit => exact nomatch hfault
  | handOff h =>
    refine ⟨h, rfl, ?_⟩
    change h.input.toMessage.map some = .error x at hfault
    cases hinput : h.input.toMessage with
    | error y =>
      rw [hinput] at hfault
      cases hfault
      rfl
    | ok m =>
      rw [hinput] at hfault
      exact nomatch hfault

end FollowUp

namespace HookReply

/-- The options that a hook answers are blamed on the input if they cannot be read. -/
theorem blamesInput_optionsIn (o : Object) : (optionsIn o).BlamesInput := by
  unfold optionsIn
  split
  · exact .ok _
  · exact .ok _
  · exact .ok _
  · exact .error rfl

/-- A message that a hook answers is blamed on the input if it cannot be read. -/
theorem blamesInput_messageOf (v : Value) : (messageOf v).BlamesInput := by
  unfold messageOf
  split
  · exact Message.blamesInput_ofObject _ _
  · exact Message.blamesInput_ofRaw _ _
  · exact .error rfl

/-- The messages that a hook answers are blamed on the input if one of them cannot be read. -/
theorem blamesInput_messagesIn (o : Object) : (messagesIn o).BlamesInput := by
  unfold messagesIn
  split
  · exact .ok _
  · exact .ok _
  · exact (BlamesInput.mapM blamesInput_messageOf _).map _
  · exact .error rfl

/-- What a hook asks for next is blamed on the input if it cannot be read. -/
theorem blamesInput_nextIn (o : Object) : (nextIn o).BlamesInput := by
  unfold nextIn
  split
  · exact .ok _
  · exact .ok _
  · exact (FollowUp.blamesInput_ofJson _).map _

/-- Whatever is wrong with the answer of a hook is blamed on the input. -/
theorem blamesInput_ofJson (v : Value) : (ofJson v).BlamesInput := by
  unfold ofJson
  split
  · next o =>
    apply (blamesInput_optionsIn o).bind
    intro options
    apply (blamesInput_messagesIn o).bind
    intro messages
    apply (blamesInput_nextIn o).bind
    intro next
    exact .ok _
  · exact .error rfl

/-- An answer that is read is an object, of which the next action is read. -/
theorem exists_object_of_ofJson {v : Value} {r : HookReply} (h : ofJson v = .ok r) :
    ∃ o, v = .object o ∧ nextIn o = .ok r.next := by
  unfold ofJson at h
  split at h
  · next o =>
    obtain ⟨options, -, h⟩ := Result.exists_of_bind_eq_ok h
    obtain ⟨messages, -, h⟩ := Result.exists_of_bind_eq_ok h
    obtain ⟨next, hnext, h⟩ := Result.exists_of_bind_eq_ok h
    cases h
    exact ⟨o, rfl, hnext⟩
  · exact nomatch h

/-- The next action that a hook's answer in JSON gives, if it gives one. -/
def nextJson? (v : Value) : Option Value :=
  match v.member? "next" with
  | none | some .null => none
  | some next => some next

/-- The next action of a hook's answer cannot be made the message that it is to hand on. -/
def HasFaultyNext (v : Value) (x : Failure) : Prop :=
  ∃ next, nextJson? v = some next ∧ FollowUp.messageIn next = .error x

/-- An action that cannot be read is a fault of the input. -/
theorem category_of_hasFaultyNext {v : Value} {x : Failure} (h : HasFaultyNext v x) :
    x.category = .input := by
  obtain ⟨next, -, hmessage⟩ := h
  exact FollowUp.blamesInput_messageIn next x hmessage

/-- What an answer asks for next is read as an action. -/
theorem nextIn_eq_of_nextJson? {o : Object} {next : Value} (h : nextJson? (.object o) = some next) :
    nextIn o = (FollowUp.ofJson next).map some := by
  have hget : o.get? "next" = some next ∧ next ≠ .null := by
    change (match Table.get? o "next" with
      | none | some .null => none
      | some next => some next) = some next at h
    split at h
    · exact nomatch h
    · exact nomatch h
    · next hnull hget =>
      cases h
      exact ⟨hget, fun heq => hnull heq⟩
  unfold nextIn
  rw [hget.1]
  cases next with
  | null => exact absurd rfl hget.2
  | _ => rfl

/-- An answer that is read though its next action has a fault hands on an input with this fault. -/
theorem exists_handOff_of_hasFaultyNext {v : Value} {r : HookReply} {x : Failure}
    (hr : ofJson v = .ok r) (hfault : HasFaultyNext v x) :
    ∃ h, r.next = some (.handOff h) ∧ h.input.toMessage = .error x := by
  obtain ⟨o, rfl, hread⟩ := exists_object_of_ofJson hr
  obtain ⟨next, hnext, hmessage⟩ := hfault
  rw [nextIn_eq_of_nextJson? hnext] at hread
  cases hfollow : FollowUp.ofJson next with
  | error y =>
    rw [hfollow] at hread
    exact nomatch hread
  | ok follow =>
    rw [hfollow] at hread
    obtain ⟨h, rfl, hinput⟩ := FollowUp.exists_handOff_of_messageIn hfollow hmessage
    exact ⟨h, (Except.ok.inj hread).symm, hinput⟩

end HookReply

end ChatRelay
