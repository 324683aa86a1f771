import ChatRelay.Json.Decode

/-!
# Failures

The causes for which an operation fails, each with its category and its text. Every failure is
reported to the client except a canceled turn, which has no client left.
-/

namespace ChatRelay

/-- The points of a turn at which an assistant's hooks run. -/
inductive HookStage where
  | init
  | fail
  | done
deriving DecidableEq

/-- The name of a stage. -/
def HookStage.name : HookStage → String
  | .init => "init"
  | .fail => "fail"
  | .done => "done"

/-- Why an operation failed. -/
inductive Failure where
  | configuration (detail : String)
  | invalidInput (detail : String)
  | unknownAction (action : String)
  | provider (detail : String)
  | hook (stage : HookStage) (detail : String)
  | assistantNotFound (id : String)
  | attachmentNotFound (id : String)
  | storage (detail : String)
  | delegationTooDeep (limit : Nat)
  | canceled
  | network (detail : String)
  | io (detail : String)
  | decoding (e : Json.DecodeError)
  | settingsSyntax (detail : String)

namespace Failure

/-- The broad classes of failures. -/
inductive Category where
  | input
  | provider
  | hook
  | resolution
  | storage
  | network
  | configuration
  | canceled
deriving DecidableEq

/-- The name of a category. -/
def Category.name : Category → String
  | .input => "input"
  | .provider => "provider"
  | .hook => "hook"
  | .resolution => "resolution"
  | .storage => "storage"
  | .network => "network"
  | .configuration => "configuration"
  | .canceled => "canceled"

/-- The category with a name. -/
def Category.ofName? : String → Option Category
  | "input" => some .input
  | "provider" => some .provider
  | "hook" => some .hook
  | "resolution" => some .resolution
  | "storage" => some .storage
  | "network" => some .network
  | "configuration" => some .configuration
  | "canceled" => some .canceled
  | _ => none

/-- The category of a failure. -/
def category : Failure → Category
  | invalidInput _ | unknownAction _ | decoding _ | delegationTooDeep _ => .input
  | provider _ => .provider
  | hook _ _ => .hook
  | assistantNotFound _ | attachmentNotFound _ => .resolution
  | storage _ | io _ => .storage
  | network _ => .network
  | configuration _ | settingsSyntax _ => .configuration
  | canceled => .canceled

/-- The text of a failure. -/
def message : Failure → String
  | configuration detail => "Configuration error: " ++ detail
  | invalidInput detail => "Invalid input: " ++ detail
  | unknownAction action => "unknown action: " ++ action
  | provider detail => "Provider error: " ++ detail
  | hook stage detail => stage.name ++ " hook error: " ++ detail
  | assistantNotFound id => "Assistant not found: " ++ id
  | attachmentNotFound id => "file " ++ id ++ " not found"
  | storage detail => "Storage error: " ++ detail
  | delegationTooDeep limit => "Delegation depth exceeded (max " ++ toString limit ++ ")"
  | canceled => "Turn canceled"
  | network detail => "Network error: " ++ detail
  | io detail => "IO error: " ++ detail
  | decoding e => "Serialization error: " ++ e.message
  | settingsSyntax detail => "Config parse error: " ++ detail

/-- Whether the client is told of a failure. -/
def isReportable (f : Failure) : Bool :=
  f.category != .canceled

/-- Only a cancellation is not reported. -/
theorem isReportable_eq_false_iff (f : Failure) : f.isReportable = false ↔ f = .canceled := by
  cases f <;> simp [isReportable, category]

end Failure

/-- The result of an operation that may fail. -/
abbrev Result (α : Type) := Except Failure α

/-- A decoded value, or its decoding failure. -/
def Result.ofDecoded {α : Type} (r : Except Json.DecodeError α) : Result α :=
  r.mapError .decoding

end ChatRelay
