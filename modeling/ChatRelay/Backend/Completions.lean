import ChatRelay.Backend.Basic
import ChatRelay.Http.Headers
import ChatRelay.Http.Lines
import ChatRelay.Settings.Basic

/-!
# Chat completions over HTTP

The backend that asks a chat completions service. A request carries the messages and the options;
the options may name a model of their own. A reply of status 2xx is delivered line by line; any
other reply is delivered whole, as a single frame that tells what went wrong.
-/

namespace ChatRelay

open Json (Value Object)

/-- A chat completions service. -/
structure Service where
  baseUrl : String
  apiKey : String
  /-- The model that is asked when the options name none. -/
  model : String

/-- A request as it is sent. -/
structure ServiceRequest where
  /-- Where it is sent. -/
  address : Http.Address
  authorization : Option String
  body : Value

/-- A reply of a server. -/
structure ServiceReply where
  status : Nat
  body : Http.Body

namespace Service

/-- The name of this kind of backend. -/
def name : String := "openai"

/-- The address of the service unless another is set. -/
def defaultUrl : String := "https://api.openai.com/v1"

/-- The model unless another is set. -/
def defaultModel : String := "gpt-4o-mini"

/-- A service with a key, at an address. Slashes at the end of the address do not count. -/
def of (apiKey : String) (baseUrl : Option String) : Service where
  baseUrl :=
    String.ofList ((baseUrl.getD defaultUrl).toList.reverse.dropWhile (· == '/')).reverse
  apiKey := apiKey
  model := defaultModel

/-- The service that settings name. -/
def ofSettings (s : Settings) : Result Service :=
  match s.apiKey with
  | some key => .ok (of key s.baseUrl)
  | none => .error (.configuration "OPENAI_API_KEY is not set")

/-- The body of a request. Messages and streaming are not up to the options. -/
def body (s : Service) (messages : List Value) (options : Object) : Value :=
  let chosen := Table.setAll [("model", .string s.model)] options
  .object ((Table.set chosen "messages" (.array messages)).set "stream" (.bool true))

/-- The address of the service's completions. -/
def url (s : Service) : String := s.baseUrl ++ "/chat/completions"

/-- The request for messages with options, if the service has an address. -/
def request? (s : Service) (messages : List Value) (options : Object) : Option ServiceRequest :=
  (Http.Address.parse? s.url).map fun address =>
    { address, authorization := Http.arrivingAuthorization? s.apiKey address.server
      body := s.body messages options }

end Service

namespace ServiceReply

/-- Whether the service accepted the request. -/
def isSuccess (r : ServiceReply) : Bool :=
  200 ≤ r.status && r.status ≤ 299

/-- Whether the reply answers the request. Its status has three digits, and does not only announce a
reply that is still to come. -/
def isAnswer (r : ServiceReply) : Bool :=
  r.status == 101 || (200 ≤ r.status && r.status ≤ 999)

/-- The body of a reply; some statuses have none. -/
def content (r : ServiceReply) : Http.Body :=
  if r.status = 101 ∨ r.status = 204 ∨ r.status = 304 then ⟨[], false⟩ else r.body

/-- The bytes of a text as a frame. -/
def frameOf (text : List Char) : Delivery :=
  .frame (Text.utf8 text)

/-- The failure among lines, if there is one. -/
def failureIn : List (Result String) → Option Failure
  | [] => none
  | .error f :: _ => some f
  | .ok _ :: rest => failureIn rest

/-- The failure of a request that is not answered. -/
def unanswered : Failure := .network "error sending request"

/-- What is delivered of a reply. A body that breaks off fails the call unless it was stopped
before. -/
def delivery (r : ServiceReply) : BackendReply :=
  if !r.isAnswer then .failing unanswered
  else if r.isSuccess then
    let lines := r.content.lines
    { deliveries := lines.filterMap fun line => line.toOption.map fun s => frameOf s.toList
      ending := fun stopped => if stopped then none else failureIn lines }
  else if r.content.broken then .failing Http.brokenOff
  else .ofFrames [Text.utf8 (Text.decode r.content.bytes)]

end ServiceReply

/-- What the servers of a network reply to a request. No reply means that no connection is made. -/
abbrev Network := ServiceRequest → Option ServiceReply

/-- What the answer of a service that is reached over a network is delivered as. -/
def Service.deliveryOver (s : Service) (network : Network) (messages : List Value)
    (options : Object) : BackendReply :=
  match (s.request? messages options).bind network with
  | some r => r.delivery
  | none => .failing ServiceReply.unanswered

end ChatRelay
