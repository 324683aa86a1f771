import ChatRelay.Text.Hex
import ChatRelay.Text.Invisible

/-!
# Quoted text

The form in which a message shows a text it complains about: between double quotes, with the usual
short escapes, and with a braced code point for each character that has no visible form.
-/

namespace ChatRelay.Text

/-- One character inside quotes. -/
def quotedChar (c : Char) : List Char :=
  if c = '\x00' then ['\\', '0']
  else if c = '\t' then ['\\', 't']
  else if c = '\r' then ['\\', 'r']
  else if c = '\n' then ['\\', 'n']
  else if c = '"' then ['\\', '"']
  else if c = '\\' then ['\\', '\\']
  else if isInvisible c then ['\\', 'u', '\x7b'] ++ hexNumber c.toNat ++ ['\x7d']
  else [c]

/-- A text between double quotes. -/
def quoted (s : List Char) : List Char :=
  '"' :: s.flatMap quotedChar ++ ['"']

end ChatRelay.Text
