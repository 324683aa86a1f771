import ChatRelay.Json.Value

/-!
# TOML values

The value of a document as TOML writes it, and its form in JSON. TOML tells apart more kinds of
values than JSON does, and a word may have the form of a number although no number is written that
way; such a word does no harm where nobody asks for its value, so it is kept until a value is read
in JSON.
-/

namespace ChatRelay.Toml

/-- A value of a document. -/
inductive Value where
  | string (s : String)
  | bool (b : Bool)
  /-- A word that has the form of a number, and the number if it stands for one. -/
  | number (n : Option Json.Number)
  /-- A date, a time or both, as it is written. -/
  | dateTime (text : List Char)
  | array (items : List Value)
  | table (members : List (String × Value))

namespace Value

mutual

/-- The value in JSON, where a date or a time is an object, unless a number in it stands for
nothing. -/
def toJson? : Value → Option Json.Value
  | .string s => some (.string s)
  | .bool b => some (.bool b)
  | .number n => n.map .number
  | .dateTime text => some (.object [("datetime", .ofText text)])
  | .array items => (itemsToJson? items).map .array
  | .table members => (membersToJson? members).map fun ms => .object (Table.ofList ms)

/-- Items in JSON. -/
def itemsToJson? : List Value → Option (List Json.Value)
  | [] => some []
  | v :: rest => do
    let j ← v.toJson?
    let js ← itemsToJson? rest
    return j :: js

/-- Members of a table in JSON. -/
def membersToJson? : List (String × Value) → Option (List (String × Json.Value))
  | [] => some []
  | (k, v) :: rest => do
    let j ← v.toJson?
    let js ← membersToJson? rest
    return (k, j) :: js

end

/-- The value with no more than the first items of an array. -/
def firstItems (n : Nat) : Value → Value
  | .array items => .array (items.take n)
  | v => v

/-- The table with a change made to the values of a key's table. -/
def mapTableAt (key : String) (change : Value → Value) : Value → Value
  | .table members => .table <| members.map fun
    | (k, .table inner) =>
      if k = key then (k, .table (inner.map fun m => (m.1, change m.2))) else (k, .table inner)
    | m => m
  | v => v

end Value

end ChatRelay.Toml
