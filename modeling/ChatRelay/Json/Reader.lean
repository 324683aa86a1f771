import ChatRelay.Json.Tree
import ChatRelay.Text.Hex

/-!
# Reading JSON

A JSON text is read one character at a time. The state of a reading is the stack of the containers
that are open and a mode, which says what may come next; a character that may not come ends the
reading without a result. Since reading is a fold over the characters, reading a text in two parts
is the same as reading it whole (`State.readAll_append`).
-/

namespace ChatRelay.Json

namespace Reader

/-- A container that is open, with its contents newest first. -/
inductive Container where
  | array (items : List Tree)
  | object (members : List (List Piece × Tree))
  /-- An object in which the value of a key is being read. -/
  | member (members : List (List Piece × Tree)) (key : List Piece)

/-- Which part of a number has been reached. -/
inductive Place where
  | sign
  | leadingZero
  | whole
  | point
  | fraction
  | exponentMark
  | exponentSign
  | exponent
deriving DecidableEq

/-- A number of which some characters have been read, digits newest first. -/
structure Numeral where
  place : Place
  negative : Bool
  whole : List Nat
  fraction : List Nat
  exponentNegative : Bool
  exponent : List Nat

/-- What may come next. -/
inductive Mode where
  | value
  /-- A value, or the end of an array that has just begun. -/
  | firstItem
  | key
  /-- A key, or the end of an object that has just begun. -/
  | firstKey
  | colon
  /-- A separator or the end of the innermost container. -/
  | separator
  /-- The rest of a word that stands for a value. -/
  | word (rest : List Char) (t : Tree)
  | number (n : Numeral)
  | string (isKey : Bool) (pieces : List Piece)
  | escape (isKey : Bool) (pieces : List Piece)
  /-- The digits of an escaped code unit that are still owed, one more than `owed`. -/
  | codeUnit (isKey : Bool) (pieces : List Piece) (owed : Nat) (unit : Nat)
  /-- Nothing but blanks after a whole value. -/
  | finished (t : Tree)

/-- The state of a reading. -/
structure State where
  stack : List Container
  mode : Mode

/-- Nothing has been read. -/
def State.initial : State := ⟨[], .value⟩

/-- The blanks of JSON. -/
def isSpace (c : Char) : Bool :=
  c = ' ' || c = '\t' || c = '\n' || c = '\r'

/-- The number a decimal digit stands for. -/
def digit? (c : Char) : Option Nat :=
  if '0' ≤ c ∧ c ≤ '9' then some (c.toNat - 48) else none

/-- The state after a value that has been read to its end. -/
def completed (stack : List Container) (t : Tree) : Option State :=
  match stack with
  | [] => some ⟨[], .finished t⟩
  | .array items :: outer => some ⟨.array (t :: items) :: outer, .separator⟩
  | .member members key :: outer => some ⟨.object ((key, t) :: members) :: outer, .separator⟩
  | .object _ :: _ => none

/-- The state after the mark that ends the innermost container. -/
def closed (stack : List Container) (c : Char) : Option State :=
  match stack, c with
  | .array items :: outer, ']' => completed outer (.array items.reverse)
  | .object members :: outer, '}' => completed outer (.object members.reverse)
  | _, _ => none

/-- The state after the first character of a value. -/
def begun (stack : List Container) (c : Char) : Option State :=
  match c with
  | '{' => some ⟨.object [] :: stack, .firstKey⟩
  | '[' => some ⟨.array [] :: stack, .firstItem⟩
  | '"' => some ⟨stack, .string false []⟩
  | 'n' => some ⟨stack, .word ['u', 'l', 'l'] .null⟩
  | 't' => some ⟨stack, .word ['r', 'u', 'e'] (.bool true)⟩
  | 'f' => some ⟨stack, .word ['a', 'l', 's', 'e'] (.bool false)⟩
  | '-' => some ⟨stack, .number ⟨.sign, true, [], [], false, []⟩⟩
  | '0' => some ⟨stack, .number ⟨.leadingZero, false, [0], [], false, []⟩⟩
  | c => (digit? c).map fun d => ⟨stack, .number ⟨.whole, false, [d], [], false, []⟩⟩

/-- Whether a numeral may end where it stands. -/
def Numeral.canEnd (n : Numeral) : Bool :=
  match n.place with
  | .leadingZero | .whole | .fraction | .exponent => true
  | .sign | .point | .exponentMark | .exponentSign => false

/-- The literal of a numeral that has ended. -/
def Numeral.literal (n : Numeral) : Literal where
  negative := n.negative
  whole := n.whole.reverse
  fraction := n.fraction.reverse
  exponent :=
    if n.place = .exponent then some (n.exponentNegative, n.exponent.reverse) else none

/-- The numeral with one more character, if that character continues it. -/
def Numeral.push? (n : Numeral) (c : Char) : Option Numeral :=
  match n.place, digit? c with
  | .sign, some 0 => some { n with place := .leadingZero, whole := [0] }
  | .sign, some d => some { n with place := .whole, whole := [d] }
  | .whole, some d => some { n with whole := d :: n.whole }
  | .point, some d | .fraction, some d =>
    some { n with place := .fraction, fraction := d :: n.fraction }
  | .exponentMark, some d | .exponentSign, some d | .exponent, some d =>
    some { n with place := .exponent, exponent := d :: n.exponent }
  | .leadingZero, none | .whole, none =>
    if c = '.' then some { n with place := .point }
    else if c = 'e' ∨ c = 'E' then some { n with place := .exponentMark }
    else none
  | .fraction, none =>
    if c = 'e' ∨ c = 'E' then some { n with place := .exponentMark } else none
  | .exponentMark, none =>
    if c = '+' then some { n with place := .exponentSign }
    else if c = '-' then some { n with place := .exponentSign, exponentNegative := true }
    else none
  | _, _ => none

/-- The state after a character between the values of a container, or after the outermost value. -/
def separated (stack : List Container) (c : Char) : Option State :=
  if isSpace c then some ⟨stack, .separator⟩
  else if c = ',' then
    match stack with
    | .array _ :: _ => some ⟨stack, .value⟩
    | .object _ :: _ => some ⟨stack, .key⟩
    | _ => none
  else closed stack c

/-- The state after a string that has been read to its end. -/
def stringEnded (stack : List Container) (isKey : Bool) (pieces : List Piece) : Option State :=
  if isKey then
    match stack with
    | .object members :: outer => some ⟨.member members pieces.reverse :: outer, .colon⟩
    | _ => none
  else completed stack (.string pieces.reverse)

/-- The character that a short escape stands for. -/
def shortEscape? : Char → Option Char
  | '"' => some '"'
  | '\\' => some '\\'
  | '/' => some '/'
  | 'b' => some '\x08'
  | 'f' => some '\x0c'
  | 'n' => some '\n'
  | 'r' => some '\r'
  | 't' => some '\t'
  | _ => none

/-- The state after one more character, if that character may come. -/
def State.read? (s : State) (c : Char) : Option State :=
  match s.mode with
  | .value => if isSpace c then some s else begun s.stack c
  | .firstItem =>
    if isSpace c then some s
    else if c = ']' then closed s.stack c
    else begun s.stack c
  | .key =>
    if isSpace c then some s
    else if c = '"' then some ⟨s.stack, .string true []⟩
    else none
  | .firstKey =>
    if isSpace c then some s
    else if c = '}' then closed s.stack c
    else if c = '"' then some ⟨s.stack, .string true []⟩
    else none
  | .colon =>
    if isSpace c then some s
    else if c = ':' then some ⟨s.stack, .value⟩
    else none
  | .separator => separated s.stack c
  | .word [] _ => none
  | .word (w :: rest) t =>
    if c = w then
      if rest.isEmpty then completed s.stack t else some ⟨s.stack, .word rest t⟩
    else none
  | .number n =>
    match n.push? c with
    | some n => some ⟨s.stack, .number n⟩
    | none =>
      if n.canEnd && (digit? c).isNone then
        match s.stack with
        | [] => if isSpace c then some ⟨[], .finished (.number n.literal)⟩ else none
        | stack => (completed stack (.number n.literal)).bind fun t => separated t.stack c
      else none
  | .string isKey pieces =>
    if c = '"' then stringEnded s.stack isKey pieces
    else if c = '\\' then some ⟨s.stack, .escape isKey pieces⟩
    else if c.toNat < 0x20 then none
    else some ⟨s.stack, .string isKey (.char c :: pieces)⟩
  | .escape isKey pieces =>
    if c = 'u' then some ⟨s.stack, .codeUnit isKey pieces 3 0⟩
    else (shortEscape? c).map fun e => ⟨s.stack, .string isKey (.char e :: pieces)⟩
  | .codeUnit isKey pieces owed unit =>
    (Text.hexValue? c).map fun d =>
      match owed with
      | 0 => ⟨s.stack, .string isKey (.unit (unit * 16 + d) :: pieces)⟩
      | owed + 1 => ⟨s.stack, .codeUnit isKey pieces owed (unit * 16 + d)⟩
  | .finished _ => if isSpace c then some s else none

/-- The state after a text, if each of its characters may come. -/
def State.readAll? (s : State) (text : List Char) : Option State :=
  text.foldlM State.read? s

/-- The tree of a reading that may end where it stands. -/
def State.result? (s : State) : Option Tree :=
  match s.stack, s.mode with
  | [], .finished t => some t
  | [], .number n => if n.canEnd then some (.number n.literal) else none
  | _, _ => none

/-- Two texts in a row are read one after the other. -/
theorem State.readAll_append (s : State) (a b : List Char) :
    s.readAll? (a ++ b) = (s.readAll? a).bind fun t => t.readAll? b := by
  simp [State.readAll?, List.foldlM_append]

end Reader

/-- The tree of a JSON text, if the text is well formed. -/
def Tree.parse? (text : List Char) : Option Tree :=
  (Reader.State.initial.readAll? text).bind Reader.State.result?

/-- The value of a JSON text, if it has one. -/
def Value.parse? (text : List Char) : Option Value :=
  (Tree.parse? text).bind Value.ofTree?

end ChatRelay.Json
