import ChatRelay.Decimal.Shortest
import ChatRelay.Json.Value
import ChatRelay.Text.Hex

/-!
# Writing JSON

The compact text of a value. Strings escape quotes, backslashes and the control characters below
U+0020; every other character stands for itself. A floating-point number always shows a point or an
exponent, so that it is never taken for a whole number.
-/

namespace ChatRelay.Json

/-- Floating-point numbers are written in full from a leading digit in the fifth place after the
point to a leading digit in the sixteenth place before it. -/
def binaryLayout : Decimal.Layout where
  leastPositional := -5
  greatestPositional := 15

/-- The decimal text of an integer. -/
def renderInt (i : Int) : List Char :=
  (if i < 0 then ['-'] else []) ++ Nat.toDigits 10 i.natAbs

/-- The text of a number. -/
def Number.render : Number → List Char
  | .whole i => renderInt i
  | .binary x => binaryLayout.render x

/-- One character inside a string. -/
def escapedChar (c : Char) : List Char :=
  if c = '"' then ['\\', '"']
  else if c = '\\' then ['\\', '\\']
  else if c = '\x08' then ['\\', 'b']
  else if c = '\x0c' then ['\\', 'f']
  else if c = '\n' then ['\\', 'n']
  else if c = '\r' then ['\\', 'r']
  else if c = '\t' then ['\\', 't']
  else if c.toNat < 0x20 then ['\\', 'u'] ++ ['0', '0'] ++ Text.hexByte (UInt8.ofNat c.toNat)
  else [c]

/-- A text as a JSON string. -/
def renderString (s : List Char) : List Char :=
  '"' :: s.flatMap escapedChar ++ ['"']

/-- Texts with commas between them. -/
def commaSeparated : List (List Char) → List Char
  | [] => []
  | [t] => t
  | t :: ts => t ++ ',' :: commaSeparated ts

/-- The texts of the members of an object, in their order. -/
def renderMembers (members : List (List Char × List Char)) : List Char :=
  '{' :: commaSeparated (members.map fun m => renderString m.1 ++ ':' :: m.2) ++ ['}']

/-- The texts of the items of an array. -/
def renderItems (items : List (List Char)) : List Char :=
  '[' :: commaSeparated items ++ [']']

mutual

/-- The compact text of a value. -/
def Value.render : Value → List Char
  | .null => ['n', 'u', 'l', 'l']
  | .bool true => ['t', 'r', 'u', 'e']
  | .bool false => ['f', 'a', 'l', 's', 'e']
  | .number n => n.render
  | .string s => renderString s.toList
  | .array items => renderItems (renderAll items)
  | .object members => renderMembers (renderMemberValues members)

/-- The texts of values. -/
def renderAll : List Value → List (List Char)
  | [] => []
  | v :: vs => v.render :: renderAll vs

/-- The keys of members with the texts of their values. -/
def renderMemberValues : List (String × Value) → List (List Char × List Char)
  | [] => []
  | (k, v) :: ms => (k.toList, v.render) :: renderMemberValues ms

end

/-- The compact text of a value as a string. -/
def Value.text (v : Value) : String :=
  String.ofList v.render

/-- The compact text of an object as a string. -/
def Object.text (o : Object) : String :=
  (Value.object o).text

end ChatRelay.Json
