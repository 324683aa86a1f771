import ChatRelay.Toml.Number

/-!
# TOML dates and times

A date, a time or a date with a time, which may have an offset. Days are checked against the
calendar; a minute may have sixty-one seconds, and the seconds of a time may be left out.
-/

namespace ChatRelay.Toml

/-- A number of exactly `n` digits. -/
def fixed? (n : Nat) (s : List Char) : Option Nat :=
  if s.length = n ∧ s.all isDigit then some (digitsValue 10 s) else none

/-- The number of days of a month. -/
def daysOf (year month : Nat) : Nat :=
  if month = 2 then
    if (year % 4 = 0 ∧ year % 100 ≠ 0) ∨ year % 400 = 0 then 29 else 28
  else if month = 4 ∨ month = 6 ∨ month = 9 ∨ month = 11 then 30
  else 31

/-- Whether a text is a date. -/
def isDate (s : List Char) : Bool :=
  match fixed? 4 (s.take 4), s.drop 4 with
  | some year, '-' :: rest =>
    match fixed? 2 (rest.take 2), rest.drop 2 with
    | some month, '-' :: day =>
      match fixed? 2 day with
      | some day => 1 ≤ month && month ≤ 12 && 1 ≤ day && day ≤ daysOf year month
      | none => false
    | _, _ => false
  | _, _ => false

/-- Whether a text is hours and minutes. -/
def isClock (s : List Char) : Bool :=
  match fixed? 2 (s.take 2), s.drop 2 with
  | some hour, ':' :: minute => hour ≤ 23 && (fixed? 2 minute).any (· ≤ 59)
  | _, _ => false

/-- Whether a text is a time; seconds and their fraction may be left out. -/
def isTime (s : List Char) : Bool :=
  isClock (s.take 5) &&
    match s.drop 5 with
    | [] => true
    | ':' :: rest =>
      (fixed? 2 (rest.take 2)).any (· ≤ 60) &&
        match rest.drop 2 with
        | [] => true
        | '.' :: fraction => !fraction.isEmpty && fraction.all isDigit
        | _ => false
    | _ => false

/-- Whether a text is a time with an offset. -/
def isOffsetTime (s : List Char) : Bool :=
  match s.getLast? with
  | some 'Z' | some 'z' => isTime s.dropLast
  | _ =>
    let n := s.length - 6
    match s.drop n with
    | '+' :: clock | '-' :: clock => isTime (s.take n) && isClock clock
    | _ => false

/-- Whether a text is a date, a time, or both. -/
def isDateTime (s : List Char) : Bool :=
  isTime s || isDate s ||
    (isDate (s.take 10) &&
      match s.drop 10 with
      | 'T' :: time | 't' :: time | ' ' :: time => isTime time || isOffsetTime time
      | _ => false)

end ChatRelay.Toml
