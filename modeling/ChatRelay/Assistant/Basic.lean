import ChatRelay.Frame
import ChatRelay.Hook

/-!
# Assistants

An assistant is a name and a model endpoint with prompts, options, tools and hooks of its own. The
endpoint is named by a connector; whether it accepts tools natively is a setting of the connector.
-/

namespace ChatRelay

open Json (Value Object Decoder Shape)

/-- A prompt that an assistant puts before the input. -/
structure Prompt where
  role : Role
  content : String
  name : Option String

namespace Prompt

/-- A system prompt. -/
def system (content : String) : Prompt := ⟨.system, content, none⟩

/-- A prompt in JSON. -/
def toJson (p : Prompt) : Value :=
  Json.objectOf [
    ("role", some p.role.toJson),
    ("content", some (.string p.content)),
    ("name", p.name.map .string)]

/-- The fields of a prompt. -/
def shape : Shape := ⟨"Prompt", ["role", "content", "name"]⟩

/-- A prompt out of JSON; without a role it is a system prompt. -/
def decode : Decoder Prompt := fun v => do
  let r ← shape.record v
  let role ← shape.defaulted r "role" .system Role.decode
  let content ← shape.required r "content" .string
  let name ← shape.optional r "name" .string
  shape.done r
  return { role, content, name }

end Prompt

/-- The tools that an assistant offers to the model, and prompts that go with them. -/
structure ToolSet where
  tools : List Value
  prompts : List Prompt

namespace ToolSet

/-- A tool set in JSON. -/
def toJson (t : ToolSet) : Value :=
  Json.objectOf [
    ("tools", some (.array t.tools)),
    ("prompts", some (.array (t.prompts.map Prompt.toJson)))]

/-- The fields of a tool set. -/
def shape : Shape := ⟨"ToolSet", ["tools", "prompts"]⟩

/-- A tool set out of JSON. -/
def decode : Decoder ToolSet := fun v => do
  let r ← shape.record v
  let tools ← shape.defaulted r "tools" [] (.list .any)
  let prompts ← shape.defaulted r "prompts" [] (.list Prompt.decode)
  shape.done r
  return { tools, prompts }

end ToolSet

/-- What a connector's endpoint can do. -/
structure ConnectorSettings where
  /-- The endpoint accepts tools as an option of a request. -/
  tools : Bool
deriving DecidableEq

namespace ConnectorSettings

/-- Settings in JSON. -/
def toJson (s : ConnectorSettings) : Value :=
  Json.objectOf [("tools", some (.bool s.tools))]

/-- The fields of settings. -/
def shape : Shape := ⟨"ConnectorSettings", ["tools"]⟩

/-- Settings out of JSON. -/
def decode : Decoder ConnectorSettings := fun v => do
  let r ← shape.record v
  let tools ← shape.defaulted r "tools" false .bool
  shape.done r
  return { tools }

end ConnectorSettings

/-- An assistant in a world of collaborators. -/
structure Assistant (σ : Type) where
  id : String
  name : String
  avatar : Option String
  connector : String
  options : Object
  prompts : List Prompt
  tools : Option ToolSet
  /-- The model accepts images. -/
  vision : Bool
  hooks : Hooks σ

namespace Assistant

variable {σ : Type}

/-- Who the assistant is. -/
def identity (a : Assistant σ) : Identity := ⟨a.id, a.name, a.avatar⟩

/-- The assistant's tools, if it has any. -/
def toolSet? (a : Assistant σ) : Option ToolSet :=
  a.tools.filter fun t => !t.tools.isEmpty

/-- The assistant of a bare connector. -/
def ofConnector (connector : String) : Assistant σ where
  id := "connector:" ++ connector
  name := connector
  avatar := none
  connector := connector
  options := []
  prompts := []
  tools := none
  vision := false
  hooks := {}

end Assistant

end ChatRelay
