import ChatRelay.Text.AsciiForm
import ChatRelay.Text.Hex
import ChatRelay.Text.Utf8

/-!
# Hosts

The host of a web address: a name, or the number of a machine. A number of version 4 has up to four
parts, each decimal, octal after a zero or hexadecimal after `0x`, the last of which fills what the
others leave; a host whose last label is a number has to be such a number. A number of version 6
stands in brackets.
-/

namespace ChatRelay.Http

/-- What the server part of an address names. -/
inductive Host where
  | name (text : List Char)
  /-- A number of 32 bits. -/
  | version4 (number : Nat)
  /-- Eight groups of 16 bits. -/
  | version6 (groups : List Nat)
deriving DecidableEq

/-- The pieces between the characters that pass a test. -/
def splitAt (separates : Char → Bool) : List Char → List (List Char)
  | [] => [[]]
  | c :: rest =>
    if separates c then [] :: splitAt separates rest
    else
      match splitAt separates rest with
      | [] => [[c]]
      | piece :: more => (c :: piece) :: more

/-- The bytes of a text with percent escapes read. A percent sign that begins no escape stays. -/
def unescaped : List Char → List UInt8
  | [] => []
  | '%' :: a :: b :: rest =>
    match Text.hexValue? a, Text.hexValue? b with
    | some high, some low => UInt8.ofNat (high * 16 + low) :: unescaped rest
    | _, _ => Text.utf8 ['%'] ++ unescaped (a :: b :: rest)
  | c :: rest => Text.utf8 [c] ++ unescaped rest

/-- The number that digits of a base make, if all are. -/
def digitsValue? (base : Nat) (s : List Char) : Option Nat :=
  s.foldlM (fun n c => (Text.hexValue? c).filter (· < base) |>.map (n * base + ·)) 0

/-! ### Numbers of version 4 -/

/-- The number of a part of a host. -/
def partValue? : List Char → Option Nat
  | [] => none
  | '0' :: 'x' :: digits => digitsValue? 16 digits
  | '0' :: c :: digits => digitsValue? 8 (c :: digits)
  | digits => digitsValue? 10 digits

/-- The labels of a name without an empty last one. -/
def labels (name : List Char) : List (List Char) :=
  let all := splitAt (· = '.') name
  if all.length > 1 ∧ all.getLast? = some [] then all.dropLast else all

/-- Whether the last label of a name is a number. -/
def endsInNumber (name : List Char) : Bool :=
  match (labels name).getLast? with
  | some label =>
    (partValue? label).isSome || (!label.isEmpty && label.all fun c => '0' ≤ c && c ≤ '9')
  | none => false

/-- The number that parts make, after a number that earlier parts made of so many bytes: a byte
each, but the last part fills what is left of four bytes. -/
def join? (bytes before : Nat) : List Nat → Option Nat
  | [] => none
  | [last] =>
    let room := Nat.pow 256 (4 - bytes)
    if bytes < 4 ∧ last < room then some (before * room + last) else none
  | part :: rest => if part < 256 then join? (bytes + 1) (before * 256 + part) rest else none

/-- The number of version 4 that a name stands for. -/
def version4? (name : List Char) : Option Nat :=
  ((labels name).mapM partValue?).bind (join? 0 0)

/-! ### Numbers of version 6 -/

/-- A byte in decimal digits without a leading zero. -/
def byte? (s : List Char) : Option Nat :=
  if s.isEmpty ∨ (s.head? = some '0' ∧ s ≠ ['0']) then none
  else (digitsValue? 10 s).filter (· < 256)

/-- The two groups of a number of version 4 in four bytes. -/
def groupsOfBytes? (s : List Char) : Option (List Nat) :=
  match (splitAt (· = '.') s).mapM byte? with
  | some [a, b, c, d] => some [a * 256 + b, c * 256 + d]
  | _ => none

/-- The groups between colons. The last may be written as a number of version 4 where that is
allowed. -/
def groups? (bytesLast : Bool) : List (List Char) → Option (List Nat)
  | [] => some []
  | s :: rest =>
    if rest.isEmpty ∧ bytesLast = true ∧ s.contains '.' then groupsOfBytes? s
    else do
      if s.isEmpty ∨ 4 < s.length then none
      else
        let n ← digitsValue? 16 s
        let more ← groups? bytesLast rest
        return n :: more

/-- The text before and after the first two colons in a row. -/
def cutAtColons? : List Char → Option (List Char × List Char)
  | ':' :: ':' :: rest => some ([], rest)
  | c :: rest => (cutAtColons? rest).map fun (before, rest) => (c :: before, rest)
  | [] => none

/-- The number of version 6 that is written without its brackets. Two colons in a row stand for at
least one group of zeros. -/
def version6? (s : List Char) : Option (List Nat) := do
  let read (bytesLast : Bool) (s : List Char) : Option (List Nat) :=
    if s.isEmpty then some [] else groups? bytesLast (splitAt (· = ':') s)
  match cutAtColons? s with
  | some (before, rest) =>
    let before ← read false before
    let rest ← read true rest
    let missing := 8 - (before.length + rest.length)
    if missing = 0 then none else some (before ++ List.replicate missing 0 ++ rest)
  | none =>
    let groups ← read true s
    if groups.length = 8 then some groups else none

/-! ### Hosts -/

/-- The characters that no name of a host may hold. -/
def isForbiddenInName (c : Char) : Bool :=
  c.toNat ≤ 0x20 || c.toNat = 0x7F || c = Text.replacement || "#%/:<>?@[\\]^|".toList.contains c

/-- The host that a text names. Escapes are read, and characters that are forms of ASCII text count
as that text. -/
def Host.parse? (s : List Char) : Option Host :=
  match s with
  | '[' :: rest =>
    if rest.getLast? = some ']' then (version6? rest.dropLast).map .version6 else none
  | _ =>
    let name := Text.asciiForm (Text.decode (unescaped s))
    if name.isEmpty || name.any isForbiddenInName then none
    else if endsInNumber name then (version4? name).map .version4
    else some (.name name)

end ChatRelay.Http
