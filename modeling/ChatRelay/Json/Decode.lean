import ChatRelay.Json.Writer
import ChatRelay.Text.Quoted

/-!
# Decoding values

How a value of a domain type is read from JSON. A record may be written as an object, whose members
are its fields by name, or as an array, whose items are its fields by position. In an object unknown
members are ignored; in an array no item may be left over. A failed decoding names what it found and
what it expected there.
-/

namespace ChatRelay.Json

/-- Why a value does not decode. -/
inductive DecodeError where
  | missingField (name : String)
  | wrongType (found : Value) (expected : String)
  | wrongValue (found : Value) (expected : String)
  | wrongLength (length : Nat) (expected : String)
  | unknownVariant (name : String)
  | malformed (what : String)

/-- A value as an error shows it. -/
def describe : Value → String
  | .null => "null"
  | .bool b => "boolean `" ++ String.ofList (Value.bool b).render ++ "`"
  | .number (.whole i) => "integer `" ++ String.ofList (renderInt i) ++ "`"
  | .number (.binary x) => "floating point `" ++ String.ofList (binaryLayout.render x) ++ "`"
  | .string s => "string " ++ String.ofList (Text.quoted s.toList)
  | .array _ => "sequence"
  | .object _ => "map"

/-- The text of a decoding error. -/
def DecodeError.message : DecodeError → String
  | .missingField name => "missing field `" ++ name ++ "`"
  | .wrongType found expected => "invalid type: " ++ describe found ++ ", expected " ++ expected
  | .wrongValue found expected => "invalid value: " ++ describe found ++ ", expected " ++ expected
  | .wrongLength n expected => "invalid length " ++ toString n ++ ", expected " ++ expected
  | .unknownVariant name => "unknown variant `" ++ name ++ "`"
  | .malformed what => "malformed " ++ what

/-- A way to decode a value. -/
abbrev Decoder (α : Type) := Value → Except DecodeError α

namespace Decoder

/-- A string. -/
def string : Decoder String
  | .string s => .ok s
  | v => .error (.wrongType v "a string")

/-- A truth value. -/
def bool : Decoder Bool
  | .bool b => .ok b
  | v => .error (.wrongType v "a boolean")

/-- A whole number of at most sixty-four bits, `expected` naming its kind in errors. -/
def natural (expected : String) : Decoder Nat
  | .number (.whole i) =>
    if 0 ≤ i ∧ i < (Nat.pow 2 64 : Int) then .ok i.toNat
    else .error (.wrongValue (.number (.whole i)) expected)
  | v => .error (.wrongType v expected)

/-- A value that stands for itself. -/
def any : Decoder Value := .ok

/-- Null for nothing, and otherwise a value. -/
def nullable {α : Type} (decode : Decoder α) : Decoder (Option α)
  | .null => .ok none
  | v => (decode v).map some

/-- An array of values of one kind. -/
def list {α : Type} (decode : Decoder α) : Decoder (List α)
  | .array items => items.mapM decode
  | v => .error (.wrongType v "a sequence")

/-- The members of an object. -/
def object : Decoder Object
  | .object o => .ok o
  | v => .error (.wrongType v "a map")

/-- An object whose values are of one kind. -/
def table {α : Type} (decode : Decoder α) : Decoder (List (String × α))
  | .object o => o.mapM fun m => (decode m.2).map (m.1, ·)
  | v => .error (.wrongType v "a map")

/-- A name out of a fixed set, written as a string or as an object with that name and null. -/
def variant {α : Type} (ofName? : String → Option α) : Decoder α
  | .string s => (ofName? s).elim (.error (.unknownVariant s)) .ok
  | .object [(k, v)] =>
    match ofName? k with
    | none => .error (.unknownVariant k)
    | some a => if v.isNull then .ok a else .error (.wrongType v "unit")
  | v => .error (.wrongType v "string or map")

end Decoder

/-- The name of a record type and its fields in their declared order. -/
structure Shape where
  name : String
  fields : List String

/-- The fields of a record by name or by position. -/
inductive Record where
  | named (o : Object)
  | positional (items : List Value)

namespace Shape

/-- The fields that a value gives a record. -/
def record (s : Shape) : Decoder Record
  | .object o => .ok (.named o)
  | .array items => .ok (.positional items)
  | v => .error (.wrongType v ("struct " ++ s.name))

/-- The value of a field, if it is present. -/
def find? (s : Shape) (r : Record) (field : String) : Option Value :=
  match r with
  | .named o => o.get? field
  | .positional items => items[s.fields.idxOf field]?

/-- The error for a field that must be present and is not. -/
def missing (s : Shape) (r : Record) (field : String) : DecodeError :=
  match r with
  | .named _ => .missingField field
  | .positional _ =>
    .wrongLength (s.fields.idxOf field)
      ("struct " ++ s.name ++ " with " ++ toString s.fields.length ++ " elements")

/-- A field that must be present. -/
def required {α : Type} (s : Shape) (r : Record) (field : String) (decode : Decoder α) :
    Except DecodeError α :=
  match s.find? r field with
  | some v => decode v
  | none => .error (s.missing r field)

/-- A field that has a value when it is absent. -/
def defaulted {α : Type} (s : Shape) (r : Record) (field : String) (absent : α)
    (decode : Decoder α) : Except DecodeError α :=
  match s.find? r field with
  | some v => decode v
  | none => .ok absent

/-- A field that may be absent or null. -/
def optional {α : Type} (s : Shape) (r : Record) (field : String) (decode : Decoder α) :
    Except DecodeError (Option α) :=
  s.defaulted r field none (.nullable decode)

/-- A field that may be null, and may be absent from an object but not from an array. -/
def nullable {α : Type} (s : Shape) (r : Record) (field : String) (decode : Decoder α) :
    Except DecodeError (Option α) :=
  match r with
  | .named _ => s.optional r field decode
  | .positional _ => s.required r field (.nullable decode)

/-- No item of an array may be left over once its fields are read. -/
def done (s : Shape) (r : Record) : Except DecodeError Unit :=
  match r with
  | .named _ => .ok ()
  | .positional items =>
    if items.length ≤ s.fields.length then .ok ()
    else .error (.wrongLength items.length "fewer elements in array")

end Shape

end ChatRelay.Json
