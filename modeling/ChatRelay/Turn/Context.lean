import ChatRelay.Json.Decode

/-!
# Turn contexts

Which turn is being run: its id, the session and the chat it belongs to, the assistant that answers,
and how often it has been handed on. The metadata of a turn is stored with the history it leaves.
-/

namespace ChatRelay

open Json (Value Object Decoder Shape)

/-- The id of a turn, a number of 128 bits. -/
structure TurnId where
  number : Nat
deriving DecidableEq

namespace TurnId

/-- The id that no turn is given by chance. -/
def nil : TurnId := ⟨0⟩

/-- The thirty-two digits of an id. -/
def digits (id : TurnId) : List Char :=
  (List.range 32).map fun i => Text.hexDigit (id.number / Nat.pow 16 (31 - i) % 16)

/-- Thirty-two digits in groups of 8, 4, 4, 4 and 12 with hyphens between them. -/
def grouped (digits : List Char) : List Char :=
  digits.take 8 ++ '-' :: (digits.drop 8).take 4 ++ '-' :: (digits.drop 12).take 4 ++
    '-' :: (digits.drop 16).take 4 ++ '-' :: digits.drop 20

/-- The text of an id. -/
def text (id : TurnId) : String :=
  String.ofList (grouped id.digits)

/-- The id that thirty-two digits of either case make. -/
def ofDigits? (digits : List Char) : Option TurnId :=
  if digits.length = 32 then
    (digits.mapM Text.hexValue?).map fun ds => ⟨ds.foldl (fun n d => n * 16 + d) 0⟩
  else none

/-- The id that digits with hyphens in their places make. -/
def ofGrouped? (s : List Char) : Option TurnId :=
  let digits := s.filter (· != '-')
  if grouped digits = s then ofDigits? digits else none

/-- The id of a text: digits with or without hyphens, in braces or after `urn:uuid:` in letters of
either case only with hyphens. -/
def ofText? (s : List Char) : Option TurnId :=
  if s.length = 32 then ofDigits? s
  else if s.length = 36 then ofGrouped? s
  else if s.length = 38 ∧ s.head? = some '\x7b' ∧ s.getLast? = some '\x7d' then
    ofGrouped? (s.drop 1).dropLast
  else if s.length = 45 ∧ (s.take 9).map Char.toLower = "urn:uuid:".toList then
    ofGrouped? (s.drop 9)
  else none

/-- An id out of JSON. -/
def decode : Decoder TurnId := fun v => do
  let s ← Decoder.string v
  match ofText? s.toList with
  | some id => .ok id
  | none => .error (.malformed "turn id")

end TurnId

/-- Which turn is being run. -/
structure TurnContext where
  turnId : TurnId
  sessionId : String
  chatId : String
  assistantId : String
  /-- The assistant that answers accepts images. -/
  vision : Bool
  /-- Retrieval goes with this turn. -/
  rag : Bool
  /-- How often the turn has been handed on to another assistant. -/
  depth : Nat

namespace TurnContext

/-- A turn in JSON. -/
def toJson (c : TurnContext) : Value :=
  Json.objectOf [
    ("turn_id", some (.string c.turnId.text)),
    ("session_id", some (.string c.sessionId)),
    ("chat_id", some (.string c.chatId)),
    ("assistant_id", some (.string c.assistantId)),
    ("vision", some (.bool c.vision)),
    ("rag", some (.bool c.rag)),
    ("depth", some (.ofNat c.depth))]

/-- The fields of a turn. -/
def shape : Shape :=
  ⟨"TurnContext", ["turn_id", "session_id", "chat_id", "assistant_id", "vision", "rag", "depth"]⟩

/-- A turn out of JSON. -/
def decode : Decoder TurnContext := fun v => do
  let r ← shape.record v
  let turnId ← shape.required r "turn_id" TurnId.decode
  let sessionId ← shape.required r "session_id" .string
  let chatId ← shape.required r "chat_id" .string
  let assistantId ← shape.required r "assistant_id" .string
  let vision ← shape.defaulted r "vision" false .bool
  let rag ← shape.defaulted r "rag" false .bool
  let depth ← shape.defaulted r "depth" 0 (.natural "usize")
  shape.done r
  return { turnId, sessionId, chatId, assistantId, vision, rag, depth }

/-- What is stored about a turn with its history. -/
def metadata (c : TurnContext) : Object :=
  Table.ofList [
    ("turn_id", .string c.turnId.text),
    ("assistant_id", .string c.assistantId),
    ("depth", .ofNat c.depth),
    ("rag", .bool c.rag)]

end TurnContext

/-- How a turn ended. -/
inductive TurnStatus where
  | completed
  | failed
  | canceled
deriving DecidableEq

namespace TurnStatus

/-- The name of a status. -/
def name : TurnStatus → String
  | completed => "completed"
  | failed => "failed"
  | canceled => "canceled"

/-- The status with a name. -/
def ofName? : String → Option TurnStatus
  | "completed" => some completed
  | "failed" => some failed
  | "canceled" => some canceled
  | _ => none

end TurnStatus

/-- The result of a turn. -/
structure TurnResult where
  status : TurnStatus
  error : Option String
deriving DecidableEq

namespace TurnResult

/-- A turn that ended well. -/
def completed : TurnResult := ⟨.completed, none⟩

/-- A turn whose client went away. -/
def canceled : TurnResult := ⟨.canceled, none⟩

/-- A turn that failed. -/
def failed (message : String) : TurnResult := ⟨.failed, some message⟩

end TurnResult

end ChatRelay
