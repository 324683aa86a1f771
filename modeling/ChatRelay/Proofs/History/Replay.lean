import ChatRelay.History.Record
import ChatRelay.Transcript.Basic
import ChatRelay.Proofs.Json.Numbers
import ChatRelay.Proofs.Transcript.Numbering

/-!
# Kept replies are replayed

A reply is kept as the JSON text of its transcript. Whatever its segments hold, the text reads back
as the types and the texts of all segments, in their order (`Record.keptSegments?_json`), and so the
record of a reply is replayed as one message for each segment (`Record.messages_of_json`). Main
result: this is so for whatever can be done to a transcript (`Record.messages_ofAssistant_after`).
-/

namespace ChatRelay

open Json (Value Tree Piece Reads ReadsMember pieces)

/-- What is kept of a segment. -/
def Segment.kept (s : Segment) : Record.KeptSegment :=
  ⟨s.kind, String.ofList s.text⟩

namespace Record

/-- The pieces in which a string is read are put together to the string. -/
theorem stringOf?_pieces_toList (s : String) : Json.stringOf? (pieces s.toList) = some s := by
  rw [Json.stringOf?_pieces, String.ofList_toList]

/-- The type of a segment is read by its name. -/
theorem kindOfTree?_name (kind : ContentType) :
    kindOfTree? (.string (pieces kind.name.toList)) = some kind := by
  rw [kindOfTree?, stringOf?_pieces_toList, Option.bind_some, ContentType.ofName?_name]

/-- A string is read in what it is written as. -/
theorem readsMember_string (name : String) (s : List Char) :
    ReadsMember (name.toList, (Value.ofText s).render)
      (pieces name.toList, .string (pieces s)) where
  key_eq := rfl
  value := by
    have hrender : (Value.ofText s).render = Json.renderString s := by
      rw [Value.ofText, Value.render, String.toList_ofList]
    rw [hrender]
    exact (Json.endsItself_renderString s).reads

/-- The members as which a segment is read, of which an id and properties may be anything. -/
def membersRead (s : Segment) (id : Tree) (props : Option Tree) : List (List Piece × Tree) :=
  [(pieces "id".toList, id),
    (pieces "type".toList, .string (pieces s.kind.name.toList)),
    (pieces "text".toList, .string (pieces s.text))] ++
  (props.map (pieces "props".toList, ·)).toList

/-- These members tell the type and the text. -/
theorem keptOfMembers?_membersRead (s : Segment) (id : Tree) (props : Option Tree) :
    keptOfMembers? none none (membersRead s id props) = some s.kept := by
  cases props with
  | none =>
    simp [membersRead, keptOfMembers?, kindOfTree?_name, textOfTree?, Json.stringOf?_pieces,
      Segment.kept]
  | some t =>
    simp [membersRead, keptOfMembers?, kindOfTree?_name, textOfTree?, Json.stringOf?_pieces,
      Segment.kept]

/-- A segment is read as an object that tells its type and its text. -/
theorem exists_reads_segment (s : Segment) :
    ∃ t, Reads s.render t ∧ keptOfTree? t = some s.kept := by
  obtain ⟨id, hid, -⟩ := (Value.ofNat s.id.number.toNat).exists_reads
  have hmember : ReadsMember ("id".toList, (Value.ofNat s.id.number.toNat).render)
      (pieces "id".toList, id) := ⟨rfl, hid⟩
  have hkind : ReadsMember ("type".toList, s.kind.toJson.render)
      (pieces "type".toList, .string (pieces s.kind.name.toList)) := by
    have hrender : s.kind.toJson = Value.ofText s.kind.name.toList := by
      rw [Value.ofText, String.ofList_toList]
      rfl
    rw [hrender]
    exact readsMember_string "type" s.kind.name.toList
  have htext := readsMember_string "text" s.text
  obtain ⟨props, hprops⟩ : ∃ props, Reads s.render (.object (membersRead s id props)) := by
    unfold Segment.render
    dsimp only
    split
    · refine ⟨none, (Json.endsItself_renderMembers ?_).reads⟩
      exact .cons hmember (.cons hkind (.cons htext .nil))
    · obtain ⟨t, ht, -⟩ := (Value.object s.props).exists_reads
      refine ⟨some t, (Json.endsItself_renderMembers ?_).reads⟩
      exact .cons hmember (.cons hkind (.cons htext (.cons ⟨rfl, ht⟩ .nil)))
  exact ⟨_, hprops, keptOfMembers?_membersRead s id props⟩

/-- What is written for segments is read as trees of which they are kept. -/
theorem exists_reads_segments (ss : List Segment) :
    ∃ ts, List.Forall₂ Reads (ss.map Segment.render) ts ∧
      ts.mapM keptOfTree? = some (ss.map Segment.kept) := by
  induction ss with
  | nil => exact ⟨[], .nil, rfl⟩
  | cons s ss ih =>
    obtain ⟨t, hread, hkept⟩ := exists_reads_segment s
    obtain ⟨ts, hreads, hrest⟩ := ih
    refine ⟨t :: ts, .cons hread hreads, ?_⟩
    rw [List.mapM_cons, hkept, hrest]
    rfl

/-- The text of a transcript reads back as its segments. -/
theorem keptSegments?_json (t : Transcript) :
    keptSegments? t.json = some (t.segments.map Segment.kept) := by
  obtain ⟨ts, hreads, hkept⟩ := exists_reads_segments t.segments
  rw [keptSegments?, Transcript.json, String.toList_ofList,
    (Json.endsItself_renderItems hreads).parse?]
  exact hkept

/-- The record of a reply stands for one message for each segment of its transcript. -/
theorem messages_of_json {r : Record} {t : Transcript} (hrole : r.role = .assistant)
    (hcontent : r.content = t.json) :
    r.messages = t.segments.map fun s =>
      { role := .assistant
        name := r.name
        text := String.ofList s.text
        kind := some s.kind } := by
  unfold messages
  dsimp only
  rw [if_pos hrole, hcontent, keptSegments?_json]
  dsimp only
  rw [List.map_map, hrole]
  rfl

/-- The record of what a user said stands for one message with its text. -/
theorem messages_of_user {r : Record} (hrole : r.role = .user) :
    r.messages = [{ role := .user, name := r.name, text := r.content }] := by
  unfold messages
  dsimp only
  rw [hrole, if_neg nofun]

/-- Whatever has been done to an empty transcript, with any text and any properties: its JSON text,
in the record of a reply, is replayed as one message of the assistant for each segment, in the order
of the segments, with the type and the text of the segment and the name of the record. -/
theorem messages_ofAssistant_after (edits : List Transcript.Edit) (name : String) (who : Identity) :
    (ofAssistant (Transcript.after edits).json name who).messages =
      (Transcript.after edits).segments.map fun s =>
        { role := .assistant
          name := some name
          text := String.ofList s.text
          kind := some s.kind } :=
  messages_of_json rfl rfl

/-- A text that itself looks like a kept transcript is replayed as text. -/
example :
    (ofAssistant
      (Transcript.after [.append "[\x7b\"text\":\"\\\"\x7d]<think>".toList, .scan]).json "user"
      ⟨"a", "A", none⟩).messages.map Message.text =
      ["[\x7b\"text\":\"\\\"\x7d]", "<think>"] := by
  decide +kernel

end Record

end ChatRelay
