import ChatRelay.FollowUp
import ChatRelay.Proofs.Json.Rereading

/-!
# Messages that are written and read

A message is written by its own JSON form and read from a loosely typed object, and the two share
nothing but the names of the fields. What is written is read as the message that it was, whatever
the default role is: as an object (`Message.ofObject_toJson`), and as raw text, with its fields in
either of the two orders in which they are written and with blanks around it
(`Message.ofRaw_of_renderMembers` with `Message.parse?_jsonText`). Only a name that is empty is
lost.

Main result: a hand-off may carry a message as it is, as an object, or as text
(`HandOffInput.toMessage_of_shapes`).
-/

namespace ChatRelay

open Json (Value Object Decoder Shape ReadsAs ReadsBack ReadsAsMember)

/-! ### Fields -/

namespace Json.Shape

variable {α : Type} (s : Shape) {o : Object} {field : String} {decode : Decoder α}

/-- A field that must be present is read from what is written for it. -/
theorem required_of_get? {v : Value} {a : α} (h : o.get? field = some v) (hv : decode v = .ok a) :
    s.required (.named o) field decode = .ok a := by
  unfold required find?
  dsimp only
  rw [h]
  exact hv

/-- A field that is there and decodes is what it decodes to, whatever stands for an absent one. -/
theorem defaulted_of_get? {v : Value} {a : α} (absent : α) (h : o.get? field = some v)
    (hv : decode v = .ok a) : s.defaulted (.named o) field absent decode = .ok a := by
  unfold defaulted find?
  dsimp only
  rw [h]
  exact hv

/-- A field that may be absent is read from what is written for it, which is not null. -/
theorem optional_of_get? (write : α → Value) {a? : Option α} (h : o.get? field = a?.map write)
    (hwrite : ∀ a ∈ a?, write a ≠ .null ∧ decode (write a) = .ok a) :
    s.optional (.named o) field decode = .ok a? := by
  unfold optional defaulted find?
  dsimp only
  rw [h]
  cases a? with
  | none => rfl
  | some a =>
    obtain ⟨hnull, hread⟩ := hwrite a rfl
    show Decoder.nullable decode (write a) = _
    unfold Decoder.nullable
    split
    · contradiction
    · rw [hread]
      rfl

end Json.Shape

/-! ### Attachments -/

namespace Attachment

/-- The size of the file, where it is known, fits sixty-four bits. -/
def IsSized (a : Attachment) : Prop :=
  ∀ n ∈ a.bytes, n < Nat.pow 2 64

/-- The fields of the JSON form. -/
def fields (a : Attachment) : List (String × Option Value) :=
  [("name", a.name.map .string), ("url", some (.string a.url)),
    ("content_type", some (.string a.contentType)), ("bytes", a.bytes.map .ofNat)]

/-- The fields of an attachment have different names. -/
theorem nodup_keys_fields (a : Attachment) : (a.fields.map Prod.fst).Nodup := by
  have hkeys : a.fields.map Prod.fst = ["name", "url", "content_type", "bytes"] := rfl
  rw [hkeys]
  decide

/-- A number of sixty-four bits decodes as itself. -/
theorem natural_ofNat {n : Nat} (h : n < Nat.pow 2 64) (expected : String) :
    Decoder.natural expected (.ofNat n) = .ok n := by
  have hfits : (0 : Int) ≤ n ∧ (n : Int) < (Nat.pow 2 64 : Nat) :=
    ⟨Int.natCast_nonneg n, Int.ofNat_lt.mpr h⟩
  unfold Decoder.natural Value.ofNat
  exact if_pos hfits

/-- An attachment is read from its own JSON form. -/
theorem decode_toJson {a : Attachment} (h : a.IsSized) : decode a.toJson = .ok a := by
  obtain ⟨o, ho⟩ : ∃ o, a.toJson = .object o := ⟨_, rfl⟩
  have hget : ∀ key, Table.get? o key = (Table.get? a.fields key).join :=
    Json.get?_of_objectOf_eq a.nodup_keys_fields ho
  have hdecode : decode (.object o) = (do
      let bytes ← shape.optional (.named o) "bytes" (.natural "u64")
      let contentType ← shape.defaulted (.named o) "content_type" "" .string
      let name ← shape.optional (.named o) "name" .string
      let url ← shape.required (.named o) "url" .string
      return { name, url, contentType, bytes } : Except Json.DecodeError Attachment) := rfl
  have hname : shape.optional (.named o) "name" .string = .ok a.name := by
    apply shape.optional_of_get? .string
    · rw [hget]
      simp [fields, Table.get?_cons]
    · exact fun s _ => ⟨nofun, rfl⟩
  have hurl : shape.required (.named o) "url" .string = .ok a.url :=
    shape.required_of_get? (hget "url") rfl
  have htype : shape.defaulted (.named o) "content_type" "" .string = .ok a.contentType :=
    shape.defaulted_of_get? "" (hget "content_type") rfl
  have hbytes : shape.optional (.named o) "bytes" (.natural "u64") = .ok a.bytes := by
    apply shape.optional_of_get? .ofNat
    · rw [hget]
      simp [fields, Table.get?_cons]
    · exact fun n hn => ⟨nofun, natural_ofNat (h n hn) "u64"⟩
  rw [ho, hdecode, hbytes, htype, hname, hurl]
  rfl

/-- The text of an attachment is read as its JSON form. -/
theorem readsAs_text {a : Attachment} (h : a.IsSized) (depth : Nat) :
    ReadsAs (depth + 1) a.text.toList a.toJson := by
  obtain ⟨name, url, contentType, bytes⟩ := a
  have hurl : ReadsAsMember depth ("url".toList, (Value.string url).render) ("url", .string url) :=
    ⟨rfl, Json.readsAs_string depth url⟩
  have htype : ReadsAsMember depth ("content_type".toList, (Value.string contentType).render)
      ("content_type", .string contentType) := ⟨rfl, Json.readsAs_string depth contentType⟩
  have hbytes : List.Forall₂ (ReadsAsMember depth)
      (bytes.map fun n => ("bytes".toList, (Value.ofNat n).render)).toList
      (bytes.map fun n => ("bytes", Value.ofNat n)).toList := by
    cases bytes with
    | none => exact .nil
    | some n => exact .cons ⟨rfl, Json.readsAs_ofNat depth (h n rfl)⟩ .nil
  unfold text
  rw [String.toList_ofList]
  cases name with
  | none =>
    have hfields := Json.readsAs_renderMembers (.cons hurl (.cons htype hbytes))
    cases bytes <;> exact hfields
  | some name =>
    have hname : ReadsAsMember depth ("name".toList, (Value.string name).render)
        ("name", .string name) := ⟨rfl, Json.readsAs_string depth name⟩
    have hfields := Json.readsAs_renderMembers (.cons hname (.cons hurl (.cons htype hbytes)))
    cases bytes <;> exact hfields

/-- What is written for an attachment is read as it. -/
theorem readsBack_toJson {a : Attachment} (h : a.IsSized) (depth : Nat) :
    ReadsBack (depth + 1) a.toJson := by
  apply Json.readsBack_objectOf
  intro m hm v hv
  simp only [List.mem_cons, List.not_mem_nil, or_false] at hm
  rcases hm with rfl | rfl | rfl | rfl
  · obtain ⟨s, -, rfl⟩ := Option.map_eq_some_iff.mp hv
    exact Json.readsAs_string depth s
  · cases hv
    exact Json.readsAs_string depth a.url
  · cases hv
    exact Json.readsAs_string depth a.contentType
  · obtain ⟨n, hn, rfl⟩ := Option.map_eq_some_iff.mp hv
    exact Json.readsAs_ofNat depth (h n hn)

end Attachment

/-! ### Messages -/

namespace Message

/-- The fields of the JSON form. -/
def fields (m : Message) : List (String × Option Value) :=
  [("role", some m.role.toJson), ("name", m.name.map .string), ("text", some (.string m.text)),
    ("type", m.kind.map ContentType.toJson),
    ("attachments",
      if m.attachments.isEmpty then none else some (.array (m.attachments.map Attachment.toJson))),
    ("hidden", some (.bool m.hidden))]

/-- The texts of the fields. -/
def fieldTexts (m : Message) : List (String × Option (List Char)) :=
  [("role", some m.role.toJson.render), ("name", m.name.map fun n => (Value.string n).render),
    ("text", some (Value.string m.text).render), ("type", m.kind.map fun k => k.toJson.render),
    ("attachments",
      if m.attachments.isEmpty then none
      else some (Json.renderItems (m.attachments.map fun a => a.text.toList))),
    ("hidden", some (Value.bool m.hidden).render)]

/-- The JSON text of a message, with its fields in their declared order. -/
def jsonText (m : Message) : String :=
  String.ofList <| Json.renderMembers <| m.fieldTexts.filterMap fun f => f.2.map (f.1.toList, ·)

/-- The sizes of all attachments fit sixty-four bits. -/
def IsSized (m : Message) : Prop :=
  ∀ a ∈ m.attachments, a.IsSized

/-- The fields of a message have different names. -/
theorem nodup_keys_fields (m : Message) : (m.fields.map Prod.fst).Nodup := by
  have hkeys : m.fields.map Prod.fst =
      ["role", "name", "text", "type", "attachments", "hidden"] := rfl
  rw [hkeys]
  decide

/-- Attachments decode from what is written for them. -/
theorem mapM_decode_toJson {as : List Attachment} (h : ∀ a ∈ as, a.IsSized) :
    (as.map Attachment.toJson).mapM Attachment.decode = .ok as := by
  induction as with
  | nil => rfl
  | cons a as ih =>
    have hfirst := Attachment.decode_toJson (h a List.mem_cons_self)
    have hrest := ih fun b hb => h b (List.mem_cons_of_mem a hb)
    rw [List.map_cons, List.mapM_cons, hfirst, hrest]
    rfl

section

variable {o : Object}

/-- The role that is written is the role that is read. -/
theorem roleIn_of_get? {role : Role} (h : o.get? "role" = some role.toJson) (default : Role) :
    roleIn o default = .ok role := by
  unfold roleIn
  rw [h]
  cases role <;> rfl

/-- The type that is written, if there is one, is the type that is read. -/
theorem kindIn_of_get? {kind : Option ContentType}
    (h : o.get? "type" = kind.map ContentType.toJson) : kindIn o = .ok kind := by
  unfold kindIn
  rw [h]
  cases kind with
  | none => rfl
  | some kind => cases kind <;> rfl

/-- A list of attachments is left out where it is empty, and then read as an empty one. -/
theorem attachmentsIn_of_get? {as : List Attachment} (hsized : ∀ a ∈ as, a.IsSized)
    (h : o.get? "attachments" =
      if as.isEmpty then none else some (.array (as.map Attachment.toJson))) :
    attachmentsIn o = .ok as := by
  unfold attachmentsIn
  rw [h]
  cases as with
  | nil => rfl
  | cons a as =>
    show Result.ofDecoded (((a :: as).map Attachment.toJson).mapM Attachment.decode) = _
    rw [mapM_decode_toJson hsized]
    rfl

/-- A string that is not empty is read if it is there. -/
theorem nonEmptyString?_of_get? {key : String} {s? : Option String} (hs : s? ≠ some "")
    (h : o.get? key = s?.map .string) : nonEmptyString? o key = s? := by
  unfold nonEmptyString?
  rw [h]
  cases s? with
  | none => rfl
  | some s =>
    have hne : (s != "") = true := by simpa using hs
    show (some s).filter (· != "") = _
    rw [Option.filter_some, hne]
    rfl

/-- The text is read from its field, where no content takes its place. -/
theorem textIn_of_get? {text : String} (hcontent : o.get? "content" = none)
    (h : o.get? "text" = some (.string text)) : textIn o = text := by
  unfold textIn
  rw [hcontent, h]
  rfl

end

/-- A message is read from its own JSON form, whatever the default role is, unless it has a name
that is empty. -/
theorem ofObject_toJson {m : Message} (hname : m.name ≠ some "") (hsized : m.IsSized) {o : Object}
    (ho : m.toJson = .object o) (default : Role) : ofObject o default = .ok m := by
  have hget : ∀ key, Table.get? o key = (Table.get? m.fields key).join :=
    Json.get?_of_objectOf_eq m.nodup_keys_fields ho
  simp only [fields, Table.get?_cons, Table.get?_nil] at hget
  have hrole : roleIn o default = .ok m.role := roleIn_of_get? (hget "role") default
  have hkind : kindIn o = .ok m.kind := kindIn_of_get? (by simp [hget])
  have hattachments : attachmentsIn o = .ok m.attachments :=
    attachmentsIn_of_get? hsized (by simp [hget])
  have hnameIn : nonEmptyString? o "name" = m.name :=
    nonEmptyString?_of_get? hname (by simp [hget])
  have htext : textIn o = m.text := textIn_of_get? (hget "content") (hget "text")
  have hhidden : ((Table.get? o "hidden").bind Value.asBool?).getD false = m.hidden := by
    have hfield : Table.get? o "hidden" = some (.bool m.hidden) := hget "hidden"
    rw [hfield]
    rfl
  unfold ofObject
  rw [hrole, hkind, hattachments, hnameIn, htext, hhidden]
  rfl

/-! ### Written messages -/

variable {m : Message}

/-- Each field of a message is read as it is written. -/
theorem readsBack_of_mem_fields (hsized : m.IsSized) (depth : Nat) :
    ∀ f ∈ m.fields, ∀ v ∈ f.2, ReadsBack (depth + 2) v := by
  intro f hf v hv
  simp only [fields, List.mem_cons, List.not_mem_nil, or_false] at hf
  rcases hf with rfl | rfl | rfl | rfl | rfl | rfl
  · cases hv
    exact Json.readsAs_string _ m.role.name
  · obtain ⟨name, -, rfl⟩ := Option.map_eq_some_iff.mp hv
    exact Json.readsAs_string _ name
  · cases hv
    exact Json.readsAs_string _ m.text
  · obtain ⟨kind, -, rfl⟩ := Option.map_eq_some_iff.mp hv
    exact Json.readsAs_string _ kind.name
  · dsimp only at hv
    split at hv
    · exact nomatch hv
    · cases hv
      apply Json.readsBack_array
      intro w hw
      obtain ⟨a, ha, rfl⟩ := List.mem_map.mp hw
      exact Attachment.readsBack_toJson (hsized a ha) depth
  · cases hv
    exact Json.readsAs_bool _ m.hidden

/-- The value of a message is read from what is written for it. -/
theorem parse?_render_toJson (hsized : m.IsSized) :
    Value.parse? m.toJson.render = some m.toJson :=
  Json.parse?_render_objectOf rfl (readsBack_of_mem_fields hsized 124)

/-- The texts of the fields are read as the fields, absent ones included. -/
theorem readsAsField_fieldTexts (hsized : m.IsSized) (depth : Nat) :
    List.Forall₂ (Json.ReadsAsField (depth + 2)) m.fieldTexts m.fields := by
  have hname : Option.Rel (ReadsAs (depth + 2)) (m.name.map fun n => (Value.string n).render)
      (m.name.map .string) := by
    cases m.name with
    | none => exact .none
    | some name => exact .some (Json.readsAs_string _ name)
  have hkind : Option.Rel (ReadsAs (depth + 2)) (m.kind.map fun k => k.toJson.render)
      (m.kind.map ContentType.toJson) := by
    cases m.kind with
    | none => exact .none
    | some kind => exact .some (Json.readsAs_string _ kind.name)
  have hattachments : List.Forall₂ (ReadsAs (depth + 1))
      (m.attachments.map fun a => a.text.toList) (m.attachments.map Attachment.toJson) := by
    rw [List.forall₂_map_left_iff, List.forall₂_map_right_iff, List.forall₂_same]
    exact fun a ha => Attachment.readsAs_text (hsized a ha) depth
  have hlist : Option.Rel (ReadsAs (depth + 2))
      (if m.attachments.isEmpty then none
        else some (Json.renderItems (m.attachments.map fun a => a.text.toList)))
      (if m.attachments.isEmpty then none
        else some (.array (m.attachments.map Attachment.toJson))) := by
    split
    · exact .none
    · exact .some (Json.readsAs_renderItems hattachments)
  exact .cons ⟨rfl, .some (Json.readsAs_string _ m.role.name)⟩ <| .cons ⟨rfl, hname⟩ <|
    .cons ⟨rfl, .some (Json.readsAs_string _ m.text)⟩ <| .cons ⟨rfl, hkind⟩ <|
    .cons ⟨rfl, hlist⟩ <| .cons ⟨rfl, .some (Json.readsAs_bool _ m.hidden)⟩ .nil

/-- The value of a message is read from its JSON text. -/
theorem parse?_jsonText (hsized : m.IsSized) :
    Value.parse? m.jsonText.toList = some m.toJson := by
  have hfields := Json.forall₂_present (readsAsField_fieldTexts hsized 124)
  rw [jsonText, String.toList_ofList]
  exact Json.parse?_renderMembers rfl hfields

/-- The text of an object is read as that object, also with blanks around it. -/
theorem ofRaw_of_renderMembers {ms : List (List Char × List Char)} {o : Object}
    (hparse : Value.parse? (Json.renderMembers ms) = some (.object o)) {before after : List Char}
    (hbefore : Text.isAllBlank before = true) (hafter : Text.isAllBlank after = true)
    {raw : String} (hraw : raw.toList = before ++ Json.renderMembers ms ++ after)
    (default : Role) : ofRaw raw default = ofObject o default := by
  have htrim : Text.trim raw.toList = Json.renderMembers ms := by
    rw [hraw, Text.trim_append_of_blank_right _ hafter, Text.trim_append_of_blank_left hbefore]
    exact Text.trim_of_ends rfl rfl _
  unfold ofRaw
  rw [htrim]
  dsimp only
  rw [hparse]
  rfl

end Message

/-- A message that is handed on arrives as it is, as an object, and as its JSON text with any blanks
around it, with the fields in alphabetical or in declared order. Only a name must not be empty. -/
theorem HandOffInput.toMessage_of_shapes {m : Message} (hname : m.name ≠ some "")
    (hsized : m.IsSized) {before after : String} (hbefore : Text.isAllBlank before.toList = true)
    (hafter : Text.isAllBlank after.toList = true) (default : Role) :
    (HandOffInput.message m).toMessage = .ok m ∧
      (∃ o, m.toJson = .object o ∧ (HandOffInput.object o).toMessage = .ok m ∧
        Message.ofObject o default = .ok m) ∧
      ∀ text ∈ [m.toJson.text, m.jsonText],
        (HandOffInput.raw (before ++ text ++ after)).toMessage = .ok m ∧
          Message.ofRaw (before ++ text ++ after) default = .ok m := by
  obtain ⟨o, ho⟩ : ∃ o, m.toJson = .object o := ⟨_, rfl⟩
  have hobject : ∀ role, Message.ofObject o role = .ok m :=
    Message.ofObject_toJson hname hsized ho
  refine ⟨rfl, ⟨o, ho, hobject .user, hobject default⟩, ?_⟩
  intro text htext
  have hraw : ∀ role, Message.ofRaw (before ++ text ++ after) role = .ok m := by
    intro role
    obtain ⟨ms, hms, hparse⟩ : ∃ ms, text.toList = Json.renderMembers ms ∧
        Value.parse? (Json.renderMembers ms) = some (.object o) := by
      simp only [List.mem_cons, List.not_mem_nil, or_false] at htext
      rcases htext with rfl | rfl
      · exact ⟨_, String.toList_ofList, (Message.parse?_render_toJson hsized).trans (ho ▸ rfl)⟩
      · have hread := Message.parse?_jsonText hsized
        rw [Message.jsonText, String.toList_ofList] at hread
        exact ⟨_, String.toList_ofList, ho ▸ hread⟩
    have hjoined : (before ++ text ++ after).toList =
        before.toList ++ Json.renderMembers ms ++ after.toList := by
      rw [String.toList_append, String.toList_append, hms]
    rw [Message.ofRaw_of_renderMembers hparse hbefore hafter hjoined, hobject]
  exact ⟨hraw .user, hraw default⟩

/-- A message that has all there is, with characters that are escaped. -/
def fullMessage : Message where
  role := .assistant
  name := some "bot"
  text := "a \"b\"\n\tü\x01"
  kind := some .think
  attachments := [⟨none, "https://x/y.png", "image/png", some 18446744073709551615⟩,
    ⟨some "", "notes.txt", "", none⟩]
  hidden := true

/-- Its text is read as the message also where the default role is another and blanks are around it.
-/
theorem HandOffInput.toMessage_of_shapes_full :
    fullMessage.name ≠ some "" ∧ fullMessage.IsSized ∧
      (HandOffInput.raw ("\n " ++ fullMessage.jsonText ++ "\t")).toMessage = .ok fullMessage ∧
      Message.ofRaw ("\n " ++ fullMessage.toJson.text ++ "\t") .system = .ok fullMessage := by
  have hname : fullMessage.name ≠ some "" := by decide
  have hsized : fullMessage.IsSized := by
    intro a ha
    simp only [fullMessage, List.mem_cons, List.not_mem_nil, or_false] at ha
    rcases ha with rfl | rfl
    · rintro n ⟨⟩
      decide
    · exact nofun
  have hbefore : Text.isAllBlank "\n ".toList = true := by decide
  have hafter : Text.isAllBlank "\t".toList = true := by decide
  have hshapes := (HandOffInput.toMessage_of_shapes hname hsized hbefore hafter .system).2.2
  exact ⟨hname, hsized, (hshapes _ (.tail _ (.head _))).1, (hshapes _ (.head _)).2⟩

end ChatRelay
