import ChatRelay.Json.Decode

/-!
# Completion chunks

The pieces in which an OpenAI-compatible endpoint sends a reply. A chunk holds choices; a choice
holds what has been added to its text, its reasoning and its tool calls, and the reason for which
the reply has ended, if it has.
-/

namespace ChatRelay.Provider

open Json (Decoder Shape)

/-- What a chunk adds to the function of a tool call. -/
structure FunctionPart where
  name : Option String
  arguments : Option String
deriving DecidableEq

/-- What a chunk adds to a tool call. -/
structure ToolCallPart where
  index : Nat
  id : Option String
  function : Option FunctionPart
deriving DecidableEq

/-- What a chunk adds to a reply. -/
structure Addition where
  content : Option String
  reasoningContent : Option String
  reasoning : Option String
  toolCalls : List ToolCallPart
deriving DecidableEq

/-- One of the replies that a chunk adds to. -/
structure Choice where
  addition : Addition
  finishReason : Option String
deriving DecidableEq

namespace FunctionPart

/-- The fields of a function. -/
def shape : Shape := ⟨"FunctionPart", ["name", "arguments"]⟩

/-- A function out of JSON. -/
def decode : Decoder FunctionPart := fun v => do
  let r ← shape.record v
  let name ← shape.nullable r "name" .string
  let arguments ← shape.nullable r "arguments" .string
  shape.done r
  return { name, arguments }

end FunctionPart

namespace ToolCallPart

/-- The fields of a tool call. -/
def shape : Shape := ⟨"ToolCallPart", ["index", "id", "function"]⟩

/-- A tool call out of JSON. -/
def decode : Decoder ToolCallPart := fun v => do
  let r ← shape.record v
  let index ← shape.defaulted r "index" 0 (.natural "usize")
  let id ← shape.nullable r "id" .string
  let function ← shape.nullable r "function" FunctionPart.decode
  shape.done r
  return { index, id, function }

end ToolCallPart

namespace Addition

/-- Nothing is added. -/
def none : Addition := ⟨.none, .none, .none, []⟩

/-- The fields of an addition. -/
def shape : Shape := ⟨"Addition", ["content", "reasoning_content", "reasoning", "tool_calls"]⟩

/-- An addition out of JSON. -/
def decode : Decoder Addition := fun v => do
  let r ← shape.record v
  let content ← shape.nullable r "content" .string
  let reasoningContent ← shape.nullable r "reasoning_content" .string
  let reasoning ← shape.nullable r "reasoning" .string
  let toolCalls ← shape.defaulted r "tool_calls" [] (.list ToolCallPart.decode)
  shape.done r
  return { content, reasoningContent, reasoning, toolCalls }

end Addition

namespace Choice

/-- The fields of a choice. -/
def shape : Shape := ⟨"Choice", ["delta", "finish_reason"]⟩

/-- A choice out of JSON. -/
def decode : Decoder Choice := fun v => do
  let r ← shape.record v
  let addition ← shape.defaulted r "delta" Addition.none Addition.decode
  let finishReason ← shape.nullable r "finish_reason" .string
  shape.done r
  return { addition, finishReason }

end Choice

/-- The choices of a chunk out of JSON. -/
def decodeChoices : Decoder (List Choice) := .list Choice.decode

end ChatRelay.Provider
