import Edr.Lib.Serial
import Edr.Time

/-!
# Endpoints

The table `endpoints`: one row for each agent. The id of an endpoint comes from a sequence, and its
`agent_id` is unique, so that the table is a `Serial` one under the agents' ids.
-/

namespace Edr

inductive EndpointStatus
  | online
  | offline
  | retired
  deriving DecidableEq

inductive OsType
  | windows
  | macos
  deriving DecidableEq

inductive AgentArchitecture
  | x64
  | arm64
  deriving DecidableEq

inductive SensorHealth
  | healthy
  | degraded
  | unavailable
  deriving DecidableEq

/-- An item of `sensor_health_json`. What an agent has not set is missing. -/
structure SensorItem where
  sensor : String
  status : SensorHealth
  provider : Option String
  packetDropCount : Option Nat
  parseErrorCount : Option Nat
  deriving DecidableEq

/-- A row of `endpoints`, except for its `agent_id` and its id. -/
structure EndpointRow where
  hostname : String
  osType : OsType
  osVersion : Option String
  ipAddress : Option String
  agentVersion : Option String
  agentBuildId : Option String
  agentArch : Option AgentArchitecture
  capabilityCodes : List String
  sensorHealth : List SensorItem
  registeredAt : Time
  status : EndpointStatus
  lastSeenAt : Option Time
  createdAt : Time
  updatedAt : Time
  isDelete : Bool
  deriving DecidableEq

abbrev Endpoints := Serial String EndpointRow

/-- A row of the table, with its `agent_id` and its id. -/
structure Endpoint where
  agentId : String
  endpointId : Nat
  row : EndpointRow
  deriving DecidableEq

def Endpoints.all (endpoints : Endpoints) : List Endpoint :=
  endpoints.table.rows.map fun x => ⟨x.1, x.2.1, x.2.2⟩

end Edr
