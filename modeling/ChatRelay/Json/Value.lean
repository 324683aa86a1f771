import ChatRelay.Decimal.Binary64
import ChatRelay.Table

/-!
# JSON values

A value with the members of its objects in increasing order of their keys, each key once. Whole
numbers that fit sixty-four bits are kept as such; every other number is a finite 64-bit
floating-point number. The members of an object are a table.
-/

namespace ChatRelay.Json

/-- A number: whole, or binary floating point. -/
inductive Number where
  | whole (i : Int)
  | binary (x : Decimal.Binary64)
deriving DecidableEq

/-- A JSON value. -/
inductive Value where
  | null
  | bool (b : Bool)
  | number (n : Number)
  | string (s : String)
  | array (items : List Value)
  | object (members : List (String × Value))
deriving Inhabited

/-- The members of an object. -/
abbrev Object := Table Value

namespace Value

/-- A whole number. -/
def ofNat (n : Nat) : Value := .number (.whole n)

/-- A text. -/
def ofText (s : List Char) : Value := .string (String.ofList s)

/-- The text of a string value. -/
def asString? : Value → Option String
  | .string s => some s
  | _ => none

/-- The truth value of a boolean value. -/
def asBool? : Value → Option Bool
  | .bool b => some b
  | _ => none

/-- The members of an object value. -/
def asObject? : Value → Option Object
  | .object o => some o
  | _ => none

/-- The value of a key, when the value is an object that has it. -/
def member? (v : Value) (key : String) : Option Value :=
  match v with
  | .object o => Table.get? o key
  | _ => none

/-- Whether the value is null. -/
def isNull : Value → Bool
  | .null => true
  | _ => false

end Value

/-- An object of the members that are present. -/
def objectOf (members : List (String × Option Value)) : Value :=
  .object (Table.ofList (members.filterMap fun m => m.2.map (m.1, ·)))

/-- The keys that are present are some of the keys, in their order. -/
theorem sublist_keys_present (members : List (String × Option Value)) :
    ((members.filterMap fun m => m.2.map (m.1, ·)).map Prod.fst).Sublist
      (members.map Prod.fst) := by
  induction members with
  | nil => exact .slnil
  | cons m ms ih =>
    obtain ⟨k, v⟩ := m
    cases v with
    | none => exact ih.cons k
    | some v => exact ih.cons_cons k

/-- Where keys differ, what is present of a key is its value, if it has one. -/
theorem get?_present {members : List (String × Option Value)} (h : (members.map Prod.fst).Nodup)
    (key : String) :
    Table.get? (members.filterMap fun m => m.2.map (m.1, ·)) key =
      (Table.get? members key).join := by
  induction members with
  | nil => rfl
  | cons m ms ih =>
    obtain ⟨k, v⟩ := m
    obtain ⟨hlater, hms⟩ := List.nodup_cons.mp h
    have hrest := ih hms
    rw [Table.get?_cons]
    by_cases hkey : key = k
    · subst hkey
      rw [Table.get?_eq_none hlater] at hrest
      cases v with
      | none => simpa using hrest
      | some v => simp [Table.get?_cons]
    · rw [if_neg (by simpa using hkey), ← hrest]
      cases v with
      | none => rfl
      | some v => simp [Table.get?_cons, hkey]

/-- The value of a key in the object that is made of members, each with a key of its own. -/
theorem get?_of_objectOf_eq {members : List (String × Option Value)}
    (h : (members.map Prod.fst).Nodup) {o : Object} (ho : objectOf members = .object o)
    (key : String) : Table.get? o key = (Table.get? members key).join := by
  cases ho
  exact (Table.get?_ofList (h.sublist (sublist_keys_present members)) key).trans
    (get?_present h key)

end ChatRelay.Json
