import ChatRelay.Settings.Basic
import ChatRelay.Text.Blank

/-!
# Settings from the environment

Variables of the environment override settings one after another; the first whose value cannot be
read stops the reading. A blank variable counts as one that is not set.
-/

namespace ChatRelay

/-- The variables of an environment and their values. -/
abbrev Environment := List (String × String)

namespace Environment

/-- The largest number that a variable may hold. -/
def maxNumber : Nat := Nat.pow 2 64 - 1

/-- The number of a text: decimal digits, perhaps after a plus sign. -/
def numberOf? (s : List Char) : Option Nat :=
  let digits := if s.head? = some '+' then s.drop 1 else s
  if digits.isEmpty || !digits.all (fun c => '0' ≤ c && c ≤ '9') then none
  else
    let n := digits.foldl (fun n c => n * 10 + (c.toNat - '0'.toNat)) 0
    if n ≤ maxNumber then some n else none

/-- The truth value of a text. -/
def boolOf? (s : List Char) : Option Bool :=
  if s = "true".toList then some true
  else if s = "false".toList then some false
  else none

/-- What a variable is read as, if it is set. -/
def read {α : Type} (env : Environment) (key : String) (ofText? : List Char → Option α) :
    Result (Option α) :=
  match (env.lookup key).map fun s => Text.trim s.toList with
  | none | some [] => .ok none
  | some text =>
    match ofText? text with
    | some value => .ok (some value)
    | none =>
      .error (.configuration (key ++ " has an invalid value: " ++ String.ofList text))

/-- The value of a variable as it stands, unless it is empty. -/
def textOf? (env : Environment) (key : String) : Option String :=
  (env.lookup key).filter (· != "")

end Environment

/-- The settings with what the environment overrides. -/
def Settings.withEnvironment (s : Settings) (env : Environment) : Result Settings := do
  let size ← env.read "PARLEY_HISTORY_MAX_SIZE" Environment.numberOf?
  let lifetime ← env.read "PARLEY_HISTORY_TTL_SECS" Environment.numberOf?
  let depth ← env.read "PARLEY_MAX_DELEGATION_DEPTH" Environment.numberOf?
  let print ← env.read "PARLEY_PRINT_REQUEST_MESSAGES" Environment.boolOf?
  return {
    historyMaxSize := size.getD s.historyMaxSize
    historyLifetime := lifetime.or s.historyLifetime
    maxDepth := depth.getD s.maxDepth
    printRequests := print.getD s.printRequests
    baseUrl := (env.textOf? "OPENAI_BASE_URL").or s.baseUrl
    apiKey := (env.textOf? "OPENAI_API_KEY").or s.apiKey
    connectors := s.connectors }

end ChatRelay
