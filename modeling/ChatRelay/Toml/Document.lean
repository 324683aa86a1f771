import ChatRelay.Toml.Value

/-!
# TOML documents

The tables of a TOML document as its headers and keys build them. A table remembers how it came to
be, since that decides what may still be added to it: a table that only stands on the way to another
one may be given a header of its own later, a table made by dotted keys may be extended by dotted
keys but not be given a header, and a value is closed once it is written.
-/

namespace ChatRelay.Toml

/-- How a table came to be. -/
inductive Origin where
  /-- It stands on the way to a table with a header. -/
  | passed
  /-- It has a header of its own. -/
  | headed
  /-- Dotted keys made it. -/
  | dotted
deriving DecidableEq

/-- What a key of a document stands for. -/
inductive Node where
  /-- A value that is written whole. -/
  | value (v : Value)
  | table (origin : Origin) (members : List (String × Node))
  /-- An array of tables, the last first. -/
  | tables (newestFirst : List (List (String × Node)))

/-- The keys of a table and what they stand for, in the order in which they were written. -/
abbrev Members := List (String × Node)

/-- The members in which a key stands for what a change makes of what it stood for. -/
def alter (key : String) (change : Option Node → Option Node) : Members → Option Members
  | [] => (change none).map fun n => [(key, n)]
  | (k, n) :: rest =>
    if k = key then (change (some n)).map fun m => (k, m) :: rest
    else (alter key change rest).map ((k, n) :: ·)

/-- Adds a table with a header. -/
def addTable : List String → Members → Option Members
  | [], _ => none
  | [key], ms =>
    alter key (fun
      | none => some (.table .headed [])
      | some (.table .passed inner) => some (.table .headed inner)
      | some _ => none) ms
  | key :: path, ms =>
    alter key (fun
      | none => (addTable path []).map (.table .passed)
      | some (.table origin inner) => (addTable path inner).map (.table origin)
      | some (.tables (newest :: older)) =>
        (addTable path newest).map fun t => .tables (t :: older)
      | some _ => none) ms

/-- Adds a table to an array of tables. -/
def addToArray : List String → Members → Option Members
  | [], _ => none
  | [key], ms =>
    alter key (fun
      | none => some (.tables [[]])
      | some (.tables newestFirst) => some (.tables ([] :: newestFirst))
      | some _ => none) ms
  | key :: path, ms =>
    alter key (fun
      | none => (addToArray path []).map (.table .passed)
      | some (.table origin inner) => (addToArray path inner).map (.table origin)
      | some (.tables (newest :: older)) =>
        (addToArray path newest).map fun t => .tables (t :: older)
      | some _ => none) ms

/-- Gives a dotted key a value. -/
def addValue (v : Value) : List String → Members → Option Members
  | [], _ => none
  | [key], ms =>
    alter key (fun
      | none => some (.value v)
      | some _ => none) ms
  | key :: next :: path, ms =>
    alter key (fun
      | none => (addValue v (next :: path) []).map (.table .dotted)
      | some (.table .dotted inner) => (addValue v (next :: path) inner).map (.table .dotted)
      | some (.table .passed inner) =>
        if path.isEmpty then none else (addValue v (next :: path) inner).map (.table .passed)
      | some (.tables (newest :: older)) =>
        if path.isEmpty then none
        else (addValue v (next :: path) newest).map fun t => .tables (t :: older)
      | some _ => none) ms

/-- Gives a dotted key a value in the table with a header. -/
def addValueUnder (v : Value) (key : List String) : List String → Members → Option Members
  | [], ms => addValue v key ms
  | name :: header, ms =>
    alter name (fun
      | some (.table origin inner) =>
        (addValueUnder v key header inner).map (.table origin)
      | some (.tables (newest :: older)) =>
        (addValueUnder v key header newest).map fun t => .tables (t :: older)
      | _ => none) ms

mutual

/-- The value of a node. -/
def Node.toValue : Node → Value
  | .value v => v
  | .table _ members => .table (membersToValues members)
  | .tables newestFirst => .array (tablesToValues newestFirst).reverse

/-- The values of members. -/
def membersToValues : List (String × Node) → List (String × Value)
  | [] => []
  | (k, n) :: rest => (k, n.toValue) :: membersToValues rest

/-- The values of tables. -/
def tablesToValues : List (List (String × Node)) → List Value
  | [] => []
  | ms :: rest => .table (membersToValues ms) :: tablesToValues rest

end

end ChatRelay.Toml
