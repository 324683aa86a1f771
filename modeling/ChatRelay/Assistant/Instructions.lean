import ChatRelay.Assistant.Registry

/-!
# Instructions

What an assistant adds to a conversation and to the options of a request. An assistant's tools reach
the model either as an option, when its connector accepts tools natively, or as instructions in the
conversation.
-/

namespace ChatRelay

open Json (Value Object)

namespace Assistant

variable {σ : Type}

/-- The name of the message that lists the tools. -/
def toolListName : String := "TOOL_CALLS_SCHEMA"

/-- The name of the messages that say how tools are called. -/
def toolCallsName : String := "TOOL_CALLS"

/-- How a reply calls a tool. -/
def toolFormat : String := String.intercalate "\n" [
  "## Tool Response Format",
  "1. If no matching function exists in TOOL_CALLS_SCHEMA, respond normally without using tool " ++
    "calls",
  "2. When using tools, wrap function calls in <tool> and </tool> tags",
  "3. The tool call must be a valid JSON object",
  "4. Follow the JSON Schema defined in TOOL_CALLS_SCHEMA",
  "5. One complete tool call per response",
  "6. Parameter values MUST strictly follow the descriptions and validation rules defined in " ++
    "properties",
  "7. For each parameter, carefully check and comply with:",
  "   - Data type requirements",
  "   - Format restrictions",
  "   - Value range limitations",
  "   - Pattern matching rules",
  "   - Required field validations",
  "",
  "Example:",
  "<tool>",
  "\x7b\"function\":\"<FunctionName>\",\"arguments\":" ++
    "\x7b\"<ArgumentName>\":\"<ArgumentValue>\"\x7d\x7d",
  "</tool>"]

/-- When a reply calls a tool. -/
def toolGuidelines : String := String.intercalate "\n" [
  "## Tool Usage Guidelines",
  "1. Use functions defined in TOOL_CALLS_SCHEMA only when they match your needs",
  "2. If no matching function exists, respond normally as a helpful assistant",
  "3. When using tools, arguments must match the schema definition exactly",
  "4. All parameter values must strictly adhere to the validation rules specified in properties",
  "5. Never skip or ignore any validation requirements defined in the schema"]

/-- The messages of a tool set for a model that has no tools of its own. -/
def toolMessages (t : ToolSet) : List Message :=
  (Message.of .system (Value.array t.tools).text).named toolListName ::
    (Message.of .system toolFormat).named toolCallsName ::
    (Message.of .system toolGuidelines).named toolCallsName ::
    t.prompts.map fun p => { role := p.role, text := p.content, name := p.name }

/-- The messages of the assistant's own prompts, which carry its name unless they have one. -/
def promptMessages (a : Assistant σ) : List Message :=
  a.prompts.map fun p => (Message.of p.role p.content).named (p.name.getD a.name)

/-- The messages that an assistant puts before the input. -/
def instructions (a : Assistant σ) (connectors : Connectors) : List Message :=
  a.promptMessages ++
    match a.toolSet? with
    | some t => if connectors.supportTools a.connector then [] else toolMessages t
    | none => []

/-- Options with tools and a choice among them, which is up to the model unless one is made. -/
def withTools (options : Object) (tools : List Value) : Object :=
  let options := options.set "tools" (.array tools)
  if (options.get? "tool_choice").all Value.isNull then
    options.set "tool_choice" (.string "auto")
  else options

/-- The options of a request: the assistant's, those of the caller in their place, and the
assistant's tools if its connector accepts any. -/
def optionsFor (a : Assistant σ) (connectors : Connectors) (caller : Object) : Object :=
  let options := Table.setAll a.options caller
  if connectors.supportTools a.connector then
    match a.toolSet? with
    | some t => withTools options t.tools
    | none => options
  else options.remove "tools"

end Assistant

end ChatRelay
