import ChatRelay.Json.Literal

/-!
# JSON trees

What a JSON text says before any of it is judged: numbers as they are written, strings as the
characters and escaped code units they are made of, and the members of an object in their order,
repeated keys included. `Value.ofTree?` makes a value of a tree. It refuses a tree whose containers
lie too deep inside each other, a number out of range, and a string with half of a surrogate pair;
of the members with one key it keeps the last.
-/

namespace ChatRelay.Json

/-- One part of a string: a character, or the code unit of an escape `\uXXXX`. -/
inductive Piece where
  | char (c : Char)
  | unit (n : Nat)
deriving DecidableEq

/-- What a JSON text says. -/
inductive Tree where
  | null
  | bool (b : Bool)
  | number (l : Literal)
  | string (pieces : List Piece)
  | array (items : List Tree)
  | object (members : List (List Piece × Tree))
deriving Inhabited

/-- The characters of a string, unless half of a surrogate pair stands alone. -/
def charsOf? : List Piece → Option (List Char)
  | [] => some []
  | .char c :: rest => (charsOf? rest).map (c :: ·)
  | .unit high :: .unit low :: rest =>
    if 0xD800 ≤ high ∧ high < 0xDC00 then
      if 0xDC00 ≤ low ∧ low < 0xE000 then
        let n := 0x10000 + (high - 0xD800) * 0x400 + (low - 0xDC00)
        (charsOf? rest).map (Char.ofNat n :: ·)
      else none
    else if 0xDC00 ≤ high ∧ high < 0xE000 then none
    else (charsOf? (.unit low :: rest)).map (Char.ofNat high :: ·)
  | .unit n :: rest =>
    if 0xD800 ≤ n ∧ n < 0xE000 then none
    else (charsOf? rest).map (Char.ofNat n :: ·)

/-- The string of its parts, unless half of a surrogate pair stands alone. -/
def stringOf? (pieces : List Piece) : Option String :=
  (charsOf? pieces).map String.ofList

/-- How many containers may lie inside each other. -/
def depthLimit : Nat := 127

mutual

/-- The value of a tree in which at most `depth` containers may lie inside each other. -/
def Value.ofTreeWithin? (depth : Nat) : Tree → Option Value
  | .null => some .null
  | .bool b => some (.bool b)
  | .number l => l.toNumber?.map .number
  | .string pieces => (stringOf? pieces).map .string
  | .array items =>
    match depth with
    | 0 => none
    | depth + 1 => (itemsOfTrees? depth items).map .array
  | .object members =>
    match depth with
    | 0 => none
    | depth + 1 => (membersOfTrees? depth members).map fun ms => .object (Table.ofList ms)

/-- The values of the items of an array. -/
def itemsOfTrees? (depth : Nat) : List Tree → Option (List Value)
  | [] => some []
  | t :: ts => do
    let v ← Value.ofTreeWithin? depth t
    let vs ← itemsOfTrees? depth ts
    return v :: vs

/-- The keys and values of the members of an object, in their order. -/
def membersOfTrees? (depth : Nat) : List (List Piece × Tree) → Option (List (String × Value))
  | [] => some []
  | (k, t) :: ms => do
    let key ← stringOf? k
    let v ← Value.ofTreeWithin? depth t
    let rest ← membersOfTrees? depth ms
    return (key, v) :: rest

end

/-- The value of a tree. -/
def Value.ofTree? (t : Tree) : Option Value :=
  Value.ofTreeWithin? depthLimit t

end ChatRelay.Json
