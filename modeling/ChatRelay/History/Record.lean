import ChatRelay.Frame

/-!
# History records

What is kept of a conversation: one record for what the user said, and one for each reply, whose
content is the JSON text of its transcript. A reply's record is replayed as one message for each
segment; a record whose content is no such text is replayed as one message.
-/

namespace ChatRelay

open Json (Value Decoder Shape Tree Piece)

/-- One kept entry of a conversation. -/
structure Record where
  role : Role
  content : String
  name : Option String
  assistantId : Option String := none
  assistantName : Option String := none
  assistantAvatar : Option String := none

namespace Record

/-- The record of what a user said. -/
def ofUser (content name : String) : Record :=
  { role := .user, content, name := some name }

/-- The record of a reply. -/
def ofAssistant (content name : String) (i : Identity) : Record :=
  { role := .assistant, content, name := some name
    assistantId := some i.id, assistantName := some i.name, assistantAvatar := i.avatar }

/-- A record in JSON. -/
def toJson (r : Record) : Value :=
  Json.objectOf [
    ("role", some r.role.toJson),
    ("content", some (.string r.content)),
    ("name", r.name.map .string),
    ("assistant_id", r.assistantId.map .string),
    ("assistant_name", r.assistantName.map .string),
    ("assistant_avatar", r.assistantAvatar.map .string)]

/-- The fields of a record. -/
def shape : Shape :=
  ⟨"Record", ["role", "content", "name", "assistant_id", "assistant_name",
    "assistant_avatar"]⟩

/-- A record out of JSON. -/
def decode : Decoder Record := fun v => do
  let r ← shape.record v
  let role ← shape.required r "role" Role.decode
  let content ← shape.required r "content" .string
  let name ← shape.optional r "name" .string
  let assistantId ← shape.optional r "assistant_id" .string
  let assistantName ← shape.optional r "assistant_name" .string
  let assistantAvatar ← shape.optional r "assistant_avatar" .string
  shape.done r
  return { role, content, name, assistantId, assistantName, assistantAvatar }

/-! ### The segments of a kept transcript -/

/-- What is read back of a segment. -/
structure KeptSegment where
  kind : ContentType
  text : String
deriving DecidableEq

/-- The type that a tree names: by a string, or by an object with that key and null. -/
def kindOfTree? : Tree → Option ContentType
  | .string name => (Json.stringOf? name).bind ContentType.ofName?
  | .object [(name, .null)] => (Json.stringOf? name).bind ContentType.ofName?
  | _ => none

/-- The text of a tree that is a string. -/
def textOfTree? : Tree → Option String
  | .string s => Json.stringOf? s
  | _ => none

/-- The type and the text among the members of a segment, after those found before. Neither may
occur twice; what other keys hold does not matter. -/
def keptOfMembers? (kind : Option ContentType) (text : Option String) :
    List (List Piece × Tree) → Option KeptSegment
  | [] => some ⟨kind.getD .text, text.getD ""⟩
  | (key, t) :: rest => do
    match ← Json.stringOf? key with
    | "type" =>
      if kind.isSome then none else keptOfMembers? (some (← kindOfTree? t)) text rest
    | "text" =>
      if text.isSome then none else keptOfMembers? kind (some (← textOfTree? t)) rest
    | _ => keptOfMembers? kind text rest

/-- A segment of a kept transcript, written as an object or as its type and its text. -/
def keptOfTree? : Tree → Option KeptSegment
  | .object members => keptOfMembers? none none members
  | .array [] => some ⟨.text, ""⟩
  | .array [kind] => (kindOfTree? kind).map (⟨·, ""⟩)
  | .array [kind, text] => do return ⟨← kindOfTree? kind, ← textOfTree? text⟩
  | _ => none

/-- The segments of a kept transcript, if the text is one. -/
def keptSegments? (content : String) : Option (List KeptSegment) :=
  match Tree.parse? content.toList with
  | some (.array items) => items.mapM keptOfTree?
  | _ => none

/-- The messages for which a record stands. -/
def messages (r : Record) : List Message :=
  let whole : Message := { role := r.role, name := r.name, text := r.content }
  if r.role = .assistant then
    match keptSegments? r.content with
    | some segments =>
      segments.map fun s => { role := r.role, name := r.name, text := s.text, kind := some s.kind }
    | none => [whole]
  else [whole]

end Record

end ChatRelay
