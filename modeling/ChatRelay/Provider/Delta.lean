import ChatRelay.Delta
import ChatRelay.Json.Reader
import ChatRelay.Provider.Chunk
import ChatRelay.Text.Blank
import ChatRelay.Text.Search
import ChatRelay.Text.Utf8

/-!
# Deltas of provider frames

A provider sends its reply as frames of bytes. A frame that carries something visible, an error or
the end of the reply is read as a delta; comments, keep-alives and other chunks without content are
read as nothing; and a frame that cannot be understood is kept as unread text, since it may be the
first part of a frame that was cut in two.
-/

namespace ChatRelay

open Json (Value)

namespace Provider

/-- The text of an error that a provider reports: the error itself if it is a string, else its
message if it has one, else its JSON text. -/
def errorText (error : Value) : List Char :=
  match error with
  | .string s => s.toList
  | .object _ =>
    match (error.member? "message").bind Value.asString? with
    | some message => message.toList
    | none => error.render
  | _ => error.render

/-- The text of an error in a body that may or may not be JSON. A body that is not JSON is its own
text. -/
def errorTextOfBody (raw : List Char) : List Char :=
  match Value.parse? (Text.trim raw) with
  | some v => errorText ((v.member? "error").getD v)
  | none => raw

/-- What a part of a tool call adds to the text of the calls. The first part of a call begins an
object with its id and its function, and ends the object before it; arguments are written as they
come. -/
def toolCallText (call : ToolCallPart) : List Char :=
  let name := call.function.bind FunctionPart.name
  let head :=
    if call.id.isSome || name.isSome then
      (if 0 < call.index then "\x7d\n".toList else []) ++
        "\x7b\"id\":".toList ++ Json.renderString (call.id.getD "").toList ++
        ",\"function\":".toList ++ Json.renderString (name.getD "").toList ++
        ",\"arguments\":".toList
    else []
  head ++ ((call.function.bind FunctionPart.arguments).getD "").toList

/-- A text that is present and not empty. -/
def nonEmpty? (s : Option String) : Option (List Char) :=
  (s.filter (· != "")).map String.toList

/-- The delta of a choice: its reasoning if there is any, else its tool calls, else its content,
else the bare end of the reply. -/
def Choice.delta? (c : Choice) : Option Delta :=
  let a := c.addition
  let done := c.finishReason.isSome
  let piece? : Option Delta :=
    match nonEmpty? (a.reasoningContent.or a.reasoning) with
    | some text => some (.on .think text)
    | none =>
      if a.toolCalls.isEmpty then (nonEmpty? a.content).map (.on .text)
      else some (.on .toolCalls (a.toolCalls.flatMap toolCallText))
  match piece? with
  | some d => some (if done then d.finished else d)
  | none => if done then some (.last []) else none

end Provider

namespace Delta

open Provider

/-- The delta of a JSON object, whose text is `data`. -/
def ofObject? (data : List Char) (v : Value) : Option Delta :=
  match (v.member? "error").filter (!·.isNull), v.member? "choices" with
  | some error, _ => some (.on .error (errorText error))
  | none, some choices =>
    match decodeChoices choices with
    | .ok cs => cs.head?.bind Choice.delta?
    | .error _ => some (.unread data)
  | none, none => (nonEmpty? ((v.member? "text").bind Value.asString?)).map (.on .other)

/-- The delta of the data of a frame. -/
def ofData? (data : List Char) : Option Delta :=
  if data.isEmpty then none
  else if data = "[DONE]".toList then some (.last [])
  else
    match Value.parse? data with
    | some (.object o) => ofObject? data (.object o)
    | _ => some (.unread data)

/-- Whether a line is a comment or names an event, and so carries no data. -/
def isControlLine (line : List Char) : Bool :=
  line.head? == some ':' || (Text.after? "event:".toList line).isSome

/-- The data of a line: what follows the field name, or the whole line if it has none. -/
def dataOf (line : List Char) : List Char :=
  ((Text.after? "data:".toList line).map Text.trimStart).getD line

/-- The delta of a provider frame, if it carries any. -/
def ofFrame? (raw : List UInt8) : Option Delta :=
  let line := Text.trim (Text.decode raw)
  if isControlLine line then none else ofData? (dataOf line)

end Delta

end ChatRelay
