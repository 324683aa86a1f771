import ChatRelay.Settings.Environment
import ChatRelay.Text.Alphanumeric

/-!
# Environment files

A file of lines `KEY=value` that adds variables to an environment. A variable that is set already
keeps its value. A line goes on after a line end inside quotes, a value may be quoted, and `$` puts
the value of another variable in. Reading stops at the first line that is wrong; what the lines
before it set stays set.
-/

namespace ChatRelay.EnvironmentFile

/-! ### Lines -/

/-- Where in a line the reading stands. -/
inductive LineState where
  | plain
  /-- After a blank, where a number sign begins a comment. -/
  | blank
  | escaped
  | single
  | singleEscaped
  | double
  | doubleEscaped
deriving DecidableEq

/-- The state after one more character outside quotes. -/
def LineState.open (c : Char) : LineState :=
  if c = '\\' then escaped
  else if c = '"' then double
  else if c = '\'' then single
  else plain

/-- The state after one more character. -/
def LineState.next (s : LineState) (c : Char) : LineState :=
  match s with
  | plain => if Text.isBlank c && c != '\n' && c != '\r' then blank else .open c
  | blank => .open c
  | escaped => plain
  | single => if c = '\\' then singleEscaped else if c = '\'' then plain else single
  | singleEscaped => single
  | double => if c = '\\' then doubleEscaped else if c = '"' then plain else double
  | doubleEscaped => double

/-- The state at the end of a piece of a line, or the characters before its comment. -/
def scanPiece (state : LineState) (read : List Char) : List Char → LineState ⊕ List Char
  | [] => .inl state
  | c :: rest =>
    if state = .blank ∧ c = '#' then .inr read.reverse
    else scanPiece (state.next c) (c :: read) rest

/-- The pieces of a text, each of which ends after a line end or with the text. -/
def pieces (text : List Char) : List (List Char) :=
  match text with
  | [] => []
  | c :: rest =>
    if c = '\n' then [c] :: pieces rest
    else
      match pieces rest with
      | [] => [[c]]
      | p :: ps => (c :: p) :: ps

/-- A line without the line end. -/
def withoutLineEnd (line : List Char) : List Char :=
  match line.reverse with
  | '\n' :: '\r' :: rest => rest.reverse
  | '\n' :: rest => rest.reverse
  | _ => line

/-- The lines that pieces make, after the beginning of a line that goes on. A line that never ends
is given as nothing, and is the last. -/
def lines (state : LineState) (line : List Char) : List (List Char) → List (Option (List Char))
  | [] => if state = .plain then [] else [none]
  | piece :: rest =>
    if (Text.trimStart (line ++ piece)).head? = some '#' then some [] :: lines .plain [] rest
    else
      match scanPiece state [] piece with
      | .inr before => some (line ++ before) :: lines .plain [] rest
      | .inl .plain => some (withoutLineEnd (line ++ piece)) :: lines .plain [] rest
      | .inl state => lines state (line ++ piece) rest

/-! ### Values -/

/-- Whether a variable's name is being read. -/
inductive Naming where
  | none
  /-- After a dollar sign. -/
  | bare
  /-- Inside braces after a dollar sign. -/
  | braced
deriving DecidableEq

/-- How far a value has been read. -/
structure ValueState where
  /-- The value so far, newest character first. -/
  output : List Char := []
  single : Bool := false
  double : Bool := false
  escaped : Bool := false
  /-- Only a comment may follow. -/
  ended : Bool := false
  naming : Naming := .none
  /-- The name that is being read, newest character first. -/
  name : List Char := []

namespace ValueState

/-- One more character of the value. -/
def put (s : ValueState) (c : Char) : ValueState :=
  { s with output := c :: s.output }

/-- The value of the variable whose name has been read is put in. -/
def substitute (s : ValueState) (env : Environment) : ValueState :=
  let value := ((env.lookup (String.ofList s.name.reverse)).getD "").toList
  { s with output := value.reverse ++ s.output, name := [] }

/-- The state after one more character while a name is being read. -/
def stepName (s : ValueState) (env : Environment) (c : Char) : ValueState :=
  if Text.isAlphanumeric c then { s with name := c :: s.name }
  else if s.naming = .braced then
    if c = '\x7d' then { s.substitute env with naming := .none }
    else { s with name := c :: s.name }
  else if c = '\x7b' ∧ s.name.isEmpty then { s with naming := .braced }
  else if c = '$' then s.substitute env
  else ({ s.substitute env with naming := .none }).put c

/-- The state after one more character; nothing if it may not stand there. -/
def step (env : Environment) (s : ValueState) (c : Char) : Option ValueState :=
  if s.ended then if c = ' ' ∨ c = '\t' then some s else none
  else if s.escaped then
    let plain := { s with escaped := false }
    if c = 'n' then some (plain.put '\n')
    else if c = '\\' ∨ c = '\'' ∨ c = '"' ∨ c = '$' ∨ c = ' ' then some (plain.put c)
    else none
  else if s.single then some (if c = '\'' then { s with single := false } else s.put c)
  else if s.naming != .none then some (s.stepName env c)
  else if c = '$' then some { s with naming := .bare }
  else if c = '\\' then some { s with escaped := true }
  else if s.double then some (if c = '"' then { s with double := false } else s.put c)
  else if c = '\'' then some { s with single := true }
  else if c = '"' then some { s with double := true }
  else if c = ' ' ∨ c = '\t' then some { s with ended := true }
  else some (s.put c)

end ValueState

/-- The value of a text, in an environment whose variables may be put in. -/
def value? (env : Environment) (s : ValueState) : List Char → Option String
  | [] =>
    if s.naming = .braced ∨ s.single ∨ s.double then none
    else some (String.ofList (s.substitute env).output.reverse)
  | c :: rest =>
    if s.ended ∧ c = '#' then value? env s []
    else (s.step env c).bind fun s => value? env s rest

/-! ### Assignments -/

/-- A key and the text after it. -/
def key? (s : List Char) : Option (String × List Char) :=
  match s with
  | [] => none
  | c :: _ =>
    if c.isAlpha || c = '_' then
      let inKey (c : Char) : Bool := c.isAlphanum || c = '_' || c = '.'
      some (String.ofList (s.takeWhile inKey), s.dropWhile inKey)
    else none

/-- The text after an equals sign. -/
def afterEquals? : List Char → Option (List Char)
  | '=' :: rest => some rest
  | _ => none

/-- The key of a line and the text after its equals sign. The word `export` may stand before a key,
and is a key itself when an equals sign follows it. -/
def assignment? (line : List Char) : Option (String × List Char) := do
  let (key, rest) ← key? line
  let rest := Text.trimStart rest
  match key, afterEquals? rest with
  | _, some value => return (key, Text.trimStart value)
  | "export", none =>
    let (key, rest) ← key? rest
    let value ← afterEquals? (Text.trimStart rest)
    return (key, Text.trimStart value)
  | _, none => none

/-- The environment after one line, if the line is right. -/
def readLine (env : Environment) (line : List Char) : Option Environment := do
  let line := Text.trimStart (Text.trimEnd line)
  if line.isEmpty ∨ line.head? = some '#' then return env
  else
    let (key, text) ← assignment? line
    let value ← if text.head? = some '#' then some "" else value? env {} text
    return if (env.lookup key).isSome then env else env ++ [(key, value)]

/-- The environment after lines, up to the first that is wrong. -/
def readLines (env : Environment) : List (Option (List Char)) → Environment
  | [] => env
  | line :: rest =>
    match line.bind (readLine env) with
    | some env => readLines env rest
    | none => env

/-- The environment with the variables that a file adds. A byte order mark before the first line
does not count. -/
def read (env : Environment) (text : String) : Environment :=
  let text := if text.toList.head? = some '\uFEFF' then text.toList.drop 1 else text.toList
  readLines env (lines .plain [] (pieces text))

end ChatRelay.EnvironmentFile
