import ChatRelay.Assistant.Registry
import ChatRelay.Toml.Reader

/-!
# Settings

The settings of an engine. Every setting has a value from the start; a document in JSON or TOML
changes those that it names. The key of the model's service is a setting too, but it is never
written out.
-/

namespace ChatRelay

open Json (Value Object Decoder Shape)

/-- The settings of an engine. -/
structure Settings where
  /-- How many history records are replayed to the model. -/
  historyMaxSize : Nat := 20
  /-- How many seconds a history record lives. -/
  historyLifetime : Option Nat := none
  /-- How often a turn may be handed on to another assistant. -/
  maxDepth : Nat := 8
  /-- The messages of a request are logged. -/
  printRequests : Bool := false
  /-- The address of the model's service. -/
  baseUrl : Option String := none
  /-- The key for the model's service. -/
  apiKey : Option String := none
  connectors : Connectors := []
deriving DecidableEq

namespace Settings

/-- Settings in JSON, without the key. -/
def toJson (s : Settings) : Value :=
  let nullable (v : Option Value) : Option Value := some (v.getD .null)
  Json.objectOf [
    ("history_max_size", some (.ofNat s.historyMaxSize)),
    ("history_ttl_secs", nullable (s.historyLifetime.map .ofNat)),
    ("max_delegation_depth", some (.ofNat s.maxDepth)),
    ("print_request_messages", some (.bool s.printRequests)),
    ("openai_base_url", nullable (s.baseUrl.map .string)),
    ("connectors", some (.object (s.connectors.map fun c => (c.1, c.2.toJson))))]

/-- The fields of settings. -/
def shape : Shape :=
  ⟨"Settings", ["history_max_size", "history_ttl_secs", "max_delegation_depth",
    "print_request_messages", "openai_base_url", "openai_api_key", "connectors"]⟩

/-- Settings out of JSON. -/
def decode : Decoder Settings := fun v => do
  let s : Settings := {}
  let r ← shape.record v
  let historyMaxSize ←
    shape.defaulted r "history_max_size" s.historyMaxSize (.natural "usize")
  let historyLifetime ← shape.optional r "history_ttl_secs" (.natural "u64")
  let maxDepth ← shape.defaulted r "max_delegation_depth" s.maxDepth (.natural "usize")
  let printRequests ← shape.defaulted r "print_request_messages" s.printRequests .bool
  let baseUrl ← shape.optional r "openai_base_url" .string
  let apiKey ← shape.optional r "openai_api_key" .string
  let connectors ←
    shape.defaulted r "connectors" s.connectors (.table ConnectorSettings.decode)
  shape.done r
  return { historyMaxSize, historyLifetime, maxDepth, printRequests, baseUrl, apiKey, connectors }

/-- The part of a TOML document that settings are read from. Connectors may be given as arrays of
their fields, and items after the last field are not looked at. -/
def readPart : Toml.Value → Toml.Value :=
  .mapTableAt "connectors" (.firstItems ConnectorSettings.shape.fields.length)

/-- Settings out of a TOML document. -/
def ofToml (text : String) : Result Settings :=
  match (Toml.parse? text.toList).bind fun document => (readPart document).toJson? with
  | none => .error (.settingsSyntax "not a TOML document")
  | some v => (decode v).mapError fun e => .settingsSyntax e.message

/-- The settings of a file, of which only its text matters here, if there is such a file. -/
def ofFile (text : Option String) : Result Settings :=
  match text with
  | some text => ofToml text
  | none => .error (.io "No such file or directory (os error 2)")

/-- The settings with one more connector, in place of any that has its name. -/
def withConnector (s : Settings) (name : String) (c : ConnectorSettings) : Settings :=
  { s with connectors := Table.set s.connectors name c }

end Settings

end ChatRelay
