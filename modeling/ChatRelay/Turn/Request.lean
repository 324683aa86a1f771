import ChatRelay.Assistant.Basic
import ChatRelay.Digest.Sha256
import ChatRelay.Files.Store
import ChatRelay.Turn.Flow

/-!
# Requests

How a conversation is sent to a model. Only text is sent; blank messages are left out, and names
other than those of system messages are replaced by their digests. The last message, when it is a
user's, is the input: it is trimmed and read once more, it must not be blank, and its images go with
it, either as images or, to a model that has no eyes for them, as descriptions.
-/

namespace ChatRelay

open Json (Value Object)

namespace Request

variable {σ : Type}

/-- The digest that stands for a participant's name. -/
def hashedName (name : String) : String :=
  String.ofList (Text.hexBytes (Digest.sha256 (Text.utf8 name.toList)))

/-- The name under which a message is sent. -/
def sentName (m : Message) : Option String :=
  m.name.map fun name => if m.role = .system then name else hashedName name

/-- A message as it is sent, with some content. -/
def entry (m : Message) (content : Value) : Value :=
  Json.objectOf [
    ("role", some m.role.toJson),
    ("content", some content),
    ("name", (sentName m).map .string)]

/-- The images among attachments. -/
def images (attachments : List Attachment) : List Attachment :=
  attachments.filter Attachment.isImage

/-- The system message that describes an image. -/
def description (a : Attachment) : Value :=
  Json.objectOf [("role", some Role.system.toJson), ("content", some (.string a.text))]

/-- The address under which a model finds an image: its own, or its bytes. -/
def imageUrl (files : Option (FileStore σ)) (a : Attachment) : Flow σ String :=
  if Files.isRemote a.url then pure a.url
  else
    match files with
    | none => .fail (.configuration "file store is not configured")
    | some files => do
      let data ← Flow.ask (files.base64 a.url)
      return "data:" ++ a.contentType ++ ";base64," ++ data

/-- A part of a content that is text. -/
def textPart (text : String) : Value :=
  Json.objectOf [("type", some (.string "text")), ("text", some (.string text))]

/-- A part of a content that is an image. -/
def imagePart (url : String) : Value :=
  Json.objectOf [
    ("type", some (.string "image_url")),
    ("image_url", some (Json.objectOf [("url", some (.string url))]))]

/-- The parts for images. -/
def imageParts (files : Option (FileStore σ)) : List Attachment → Flow σ (List Value)
  | [] => pure []
  | a :: rest => do
    let url ← imageUrl files a
    let parts ← imageParts files rest
    return imagePart url :: parts

/-- Whether a message says nothing. -/
def isBlank (m : Message) : Bool :=
  Text.isAllBlank m.text.toList && m.attachments.isEmpty

/-- What is sent for the input. -/
def inputEntries (files : Option (FileStore σ)) (vision : Bool) (m : Message) :
    Flow σ (List Value) := do
  let trimmed := String.ofList (Text.trim m.text.toList)
  let input ← Flow.ofResult (Message.ofRaw trimmed .user)
  if m.attachments.isEmpty then return [entry m (.string input.text)]
  else if vision then
    let parts ← imageParts files (images m.attachments)
    return [entry m (.array (textPart input.text :: parts))]
  else return (images m.attachments).map description ++ [entry m (.string input.text)]

/-- What is sent for a message, which may be the last one. -/
def entries (files : Option (FileStore σ)) (vision : Bool) (m : Message) (isLast : Bool) :
    Flow σ (List Value) :=
  let isInput := isLast && m.role == .user
  if !m.contentType.isModelVisible then pure []
  else if isBlank m then
    if isInput then .fail (.invalidInput "content should not be empty") else pure []
  else if isInput then inputEntries files vision m
  else pure [entry m (.string m.text)]

/-- What is sent for a conversation. -/
def ofMessages (files : Option (FileStore σ)) (vision : Bool) : List Message → Flow σ (List Value)
  | [] => pure []
  | m :: rest => do
    let sent ← entries files vision m rest.isEmpty
    let more ← ofMessages files vision rest
    return sent ++ more

end Request

end ChatRelay
