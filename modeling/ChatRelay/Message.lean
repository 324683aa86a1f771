import ChatRelay.Failure
import ChatRelay.Json.Reader
import ChatRelay.Text.Blank

/-!
# Messages

A conversation is a list of messages, oldest first. A message has a role, a text, and perhaps a
name, a type and attachments; only messages of type text are replayed to a model. Besides their own
JSON form, messages are read from loosely typed objects (`Message.ofObject`), and from raw text that
may itself be such an object (`Message.ofRaw`).
-/

namespace ChatRelay

open Json (Value Object Decoder Shape)

/-- Who speaks. -/
inductive Role where
  | system
  | user
  | assistant
deriving DecidableEq

namespace Role

/-- The name of a role. -/
def name : Role → String
  | system => "system"
  | user => "user"
  | assistant => "assistant"

/-- The role with a name. -/
def ofName? : String → Option Role
  | "system" => some system
  | "user" => some user
  | "assistant" => some assistant
  | _ => none

/-- A role is found by its name. -/
@[simp] theorem ofName?_name (r : Role) : ofName? r.name = some r := by
  cases r <;> rfl

/-- A role in JSON. -/
def toJson (r : Role) : Value := .string r.name

/-- A role out of JSON. -/
def decode : Decoder Role := .variant ofName?

end Role

/-- What kind of content a message or a part of a transcript is. -/
inductive ContentType where
  | text
  | think
  | tool
  | error
deriving DecidableEq

namespace ContentType

/-- The name of a type. -/
def name : ContentType → String
  | text => "text"
  | think => "think"
  | tool => "tool"
  | error => "error"

/-- The type with a name. -/
def ofName? : String → Option ContentType
  | "text" => some text
  | "think" => some think
  | "tool" => some tool
  | "error" => some error
  | _ => none

/-- A type is found by its name. -/
@[simp] theorem ofName?_name (t : ContentType) : ofName? t.name = some t := by
  cases t <;> rfl

/-- Reasoning, tool calls and errors are not shown to a model again. -/
def isModelVisible (t : ContentType) : Bool :=
  t == text

/-- A type in JSON. -/
def toJson (t : ContentType) : Value := .string t.name

/-- A type out of JSON. -/
def decode : Decoder ContentType := .variant ofName?

end ContentType

/-- A file that goes with a message: a remote address or the id of a stored file. -/
structure Attachment where
  name : Option String
  url : String
  contentType : String
  bytes : Option Nat

namespace Attachment

/-- Whether the file is an image. -/
def isImage (a : Attachment) : Bool :=
  a.contentType.startsWith "image/"

/-- An attachment in JSON. -/
def toJson (a : Attachment) : Value :=
  Json.objectOf [
    ("name", a.name.map .string),
    ("url", some (.string a.url)),
    ("content_type", some (.string a.contentType)),
    ("bytes", a.bytes.map .ofNat)]

/-- The JSON text of an attachment, with its fields in their declared order. -/
def text (a : Attachment) : String :=
  let field (name : String) (v : Value) : List Char × List Char := (name.toList, v.render)
  String.ofList <| Json.renderMembers <|
    (a.name.map fun n => field "name" (.string n)).toList ++
      [field "url" (.string a.url), field "content_type" (.string a.contentType)] ++
      (a.bytes.map fun n => field "bytes" (.ofNat n)).toList

/-- The fields of an attachment. -/
def shape : Shape := ⟨"Attachment", ["name", "url", "content_type", "bytes"]⟩

/-- An attachment out of JSON. The first fault in an array is found by position, and in an object by
the order of the keys, where a missing address comes last. -/
def decode : Decoder Attachment := fun v => do
  let r ← shape.record v
  match r with
  | .positional _ =>
    let name ← shape.optional r "name" .string
    let url ← shape.required r "url" .string
    let contentType ← shape.defaulted r "content_type" "" .string
    let bytes ← shape.optional r "bytes" (.natural "u64")
    shape.done r
    return { name, url, contentType, bytes }
  | .named _ =>
    let bytes ← shape.optional r "bytes" (.natural "u64")
    let contentType ← shape.defaulted r "content_type" "" .string
    let name ← shape.optional r "name" .string
    let url ← shape.required r "url" .string
    return { name, url, contentType, bytes }

end Attachment

/-- A message of a conversation. -/
structure Message where
  role : Role
  name : Option String := none
  text : String := ""
  kind : Option ContentType := none
  attachments : List Attachment := []
  /-- A hidden message reaches the model and is left out of the stored history. -/
  hidden : Bool := false

namespace Message

/-- A message with a role and a text. -/
def of (role : Role) (text : String) : Message := { role, text }

/-- A message with a name. -/
def named (m : Message) (name : String) : Message := { m with name := some name }

/-- The type of a message; a message without one is text. -/
def contentType (m : Message) : ContentType :=
  m.kind.getD .text

/-- A message in JSON. -/
def toJson (m : Message) : Value :=
  Json.objectOf [
    ("role", some m.role.toJson),
    ("name", m.name.map .string),
    ("text", some (.string m.text)),
    ("type", m.kind.map ContentType.toJson),
    ("attachments",
      if m.attachments.isEmpty then none else some (.array (m.attachments.map Attachment.toJson))),
    ("hidden", some (.bool m.hidden))]

/-- The fields of a message. -/
def shape : Shape := ⟨"Message", ["role", "name", "text", "type", "attachments", "hidden"]⟩

/-- A message out of its own JSON form. -/
def decode : Decoder Message := fun v => do
  let r ← shape.record v
  let role ← shape.required r "role" Role.decode
  let name ← shape.optional r "name" .string
  let text ← shape.defaulted r "text" "" .string
  let kind ← shape.optional r "type" ContentType.decode
  let attachments ← shape.defaulted r "attachments" [] (.list Attachment.decode)
  let hidden ← shape.defaulted r "hidden" false .bool
  shape.done r
  return { role, name, text, kind, attachments, hidden }

/-- The role that a loosely typed message gives, or the default role. -/
def roleIn (o : Object) (default : Role) : Result Role :=
  match o.get? "role" with
  | none | some .null => .ok default
  | some (.string "") => .ok default
  | some (.string name) =>
    match Role.ofName? name with
    | some role => .ok role
    | none => .error (.invalidInput ("unknown role: " ++ name))
  | some other => .error (.invalidInput ("role must be a string, got " ++ other.text))

/-- The text that a loosely typed message gives: its content, or else its text. A body that is not a
string is kept as JSON. -/
def textIn (o : Object) : String :=
  match (o.get? "content").or (o.get? "text") with
  | none | some .null => ""
  | some (.string s) => s
  | some other => other.text

/-- The type that a loosely typed message gives. -/
def kindIn (o : Object) : Result (Option ContentType) :=
  match (o.get? "type").bind Value.asString? with
  | none => .ok none
  | some name =>
    match ContentType.ofName? name with
    | some kind => .ok (some kind)
    | none => .error (.invalidInput ("unknown type: " ++ name))

/-- The attachments that a loosely typed message gives. -/
def attachmentsIn (o : Object) : Result (List Attachment) :=
  match o.get? "attachments" with
  | some (.array items) => .ofDecoded (items.mapM Attachment.decode)
  | _ => .ok []

/-- A string field that counts only when it is not empty. -/
def nonEmptyString? (o : Object) (key : String) : Option String :=
  ((o.get? key).bind Value.asString?).filter (· != "")

/-- A message out of a loosely typed object, with a role for when the object gives none. -/
def ofObject (o : Object) (default : Role) : Result Message := do
  let role ← roleIn o default
  let kind ← kindIn o
  let attachments ← attachmentsIn o
  return {
    role, kind, attachments
    name := nonEmptyString? o "name"
    text := textIn o
    hidden := ((o.get? "hidden").bind Value.asBool?).getD false }

/-- A message out of raw text: a JSON object is read as a message, and anything else is the text of
a message in the default role. -/
def ofRaw (raw : String) (default : Role) : Result Message :=
  let trimmed := Text.trim raw.toList
  match trimmed.head?, Value.parse? trimmed with
  | some '{', some (.object o) => ofObject o default
  | _, _ => .ok (of default raw)

end Message

end ChatRelay
