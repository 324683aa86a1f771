import ChatRelay.Assistant.Basic

/-!
# Registries

The assistants by id, and the settings of the connectors by name. A connector that is not in its
table is taken to have no native tools.
-/

namespace ChatRelay

/-- The assistants by id. -/
abbrev Registry (σ : Type) := Table (Assistant σ)

namespace Registry

variable {σ : Type}

/-- The registry with one more assistant, in place of any that has its id. -/
def insert (r : Registry σ) (a : Assistant σ) : Registry σ :=
  Table.set r a.id a

/-- A registry of assistants, of which the last with an id counts. -/
def ofAssistants (assistants : List (Assistant σ)) : Registry σ :=
  assistants.foldl insert []

/-- The assistant with an id. -/
def resolve (r : Registry σ) (id : String) : Result (Assistant σ) :=
  match Table.get? r id with
  | some a => .ok a
  | none => .error (.assistantNotFound id)

/-- The assistant of a bare connector, which is made when it is first asked for. -/
def connectorDefault (r : Registry σ) (connector : String) : Assistant σ × Registry σ :=
  let a := Assistant.ofConnector connector
  match Table.get? r a.id with
  | some found => (found, r)
  | none => (a, r.insert a)

end Registry

/-- The settings of the connectors by name. -/
abbrev Connectors := Table ConnectorSettings

/-- Whether a connector's endpoint accepts tools natively. -/
def Connectors.supportTools (c : Connectors) (connector : String) : Bool :=
  (Table.get? c connector).any ConnectorSettings.tools

end ChatRelay
