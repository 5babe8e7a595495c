import Edr.Endpoint
import Edr.Lib.Database

/-!
# Agents and their certificates

An agent registers with its certificate, and presents it with every later request. The tables
`endpoints` and `agent_auth_keys` say which certificate belongs to which endpoint. The transactions
of `EndpointRepository` run at the same time, and so does what an operator does by hand (`retire`,
`retireAndRevoke`).
-/

namespace Edr

open Db

/-! ## Tables -/

/-- A row of `endpoints`, except for its id. -/
structure AgentEndpoint where
  agentId : String
  row : EndpointRow

/-- A row of `agent_auth_keys`, except for its id. -/
structure AgentAuthKey where
  endpointId : Nat
  certFingerprint : String
  certSubject : String
  certSanAgentId : String
  issuedAt : Time
  expiresAt : Time
  revokedAt : Option Time
  createdAt : Time
  updatedAt : Time
  isDelete : Bool
  deriving DecidableEq

inductive ActorType
  | user
  | agent
  | system
  deriving DecidableEq

/-- A row of `audit_logs`, as it is written for a certificate. -/
structure AgentAuditLog where
  actorType : ActorType
  actorIdentifier : String
  action : String
  resourceType : String
  resourceId : String
  /-- The fingerprint in `before_json`. -/
  beforeFingerprint : String
  /-- The fingerprint in `after_json`. -/
  afterFingerprint : String
  requestId : String
  createdAt : Time

inductive AgentTable
  | endpoints
  | agentAuthKeys
  | auditLogs
  deriving DecidableEq

/-- An entry of one of the unique indexes of `agent_auth_keys`. -/
inductive KeyEntry
  | certFingerprint (fingerprint : String)
  /-- `uq_agent_auth_keys_one_active`. -/
  | oneActive (endpointId : Nat)
  deriving DecidableEq

/-- `is_delete = FALSE AND revoked_at IS NULL`. -/
def AgentAuthKey.active (key : AgentAuthKey) : Bool := !key.isDelete && key.revokedAt.isNone

def AgentAuthKey.entries (key : AgentAuthKey) : List KeyEntry :=
  .certFingerprint key.certFingerprint ::
    if key.active then [.oneActive key.endpointId] else []

abbrev agentSchema : Schema where
  Name := AgentTable
  Row
    | .endpoints => AgentEndpoint
    | .agentAuthKeys => AgentAuthKey
    | .auditLogs => AgentAuditLog
  Entry
    | .endpoints => String
    | .agentAuthKeys => KeyEntry
    | .auditLogs => Empty
  entries
    | .endpoints => fun endpoint => [endpoint.agentId]
    | .agentAuthKeys => AgentAuthKey.entries
    | .auditLogs => fun _ => []

instance : DecidableEq agentSchema.Name := inferInstanceAs (DecidableEq AgentTable)

instance : ∀ t, DecidableEq (agentSchema.Entry t)
  | .endpoints => inferInstanceAs (DecidableEq String)
  | .agentAuthKeys => inferInstanceAs (DecidableEq KeyEntry)
  | .auditLogs => inferInstanceAs (DecidableEq Empty)

abbrev AgentDb (ι : Type) [DecidableEq ι] := Db ι agentSchema

/-! ## Requests -/

structure AgentCertificateIdentity where
  subject : String
  sanAgentId : String
  fingerprintSha256 : String
  issuedAt : Time
  expiresAt : Time

def AgentCertificateIdentity.fingerprint (certificate : AgentCertificateIdentity) : String :=
  certificate.fingerprintSha256.toLower

structure AgentRegisterRequest where
  agentId : String
  hostname : String
  osType : OsType
  osVersion : String
  agentVersion : String
  agentBuildId : String
  agentArch : AgentArchitecture
  capabilityCodes : List String

structure AgentHeartbeatRequest where
  agentVersion : String
  agentBuildId : String
  agentArch : AgentArchitecture
  capabilityCodes : List String
  sensorHealth : List SensorItem

structure AgentRegistrationResult where
  endpointId : Nat
  agentId : String
  status : EndpointStatus
  registeredAt : Time
  created : Bool

structure EndpointAuthContext where
  endpointId : Nat
  agentId : String
  hostname : String
  osType : OsType
  ipAddress : Option String

inductive AgentError
  /-- `409 IDENTITY_CONFLICT`. -/
  | agentIdentityConflict (message : String)
  /-- `403 ENDPOINT_RETIRED`. -/
  | endpointRetired
  /-- `401 INVALID_AGENT_CERTIFICATE`. -/
  | invalidAgentCertificate

/-! ## Transactions -/

namespace EndpointRepository

variable {ι : Type} [DecidableEq ι] (i : ι)

abbrev Tx (ι : Type) [DecidableEq ι] := Prog (AgentDb ι) (DbError AgentError)

/-- The row that `_insert_certificate` inserts. -/
def newCertificate (endpointId : Nat) (certificate : AgentCertificateIdentity)
    (fingerprint : String) (now : Time) : AgentAuthKey where
  endpointId := endpointId
  certFingerprint := fingerprint
  certSubject := certificate.subject
  certSanAgentId := certificate.sanAgentId
  issuedAt := certificate.issuedAt
  expiresAt := certificate.expiresAt
  revokedAt := none
  createdAt := now
  updatedAt := now
  isDelete := false

def insertCertificate (endpointId : Nat) (certificate : AgentCertificateIdentity)
    (fingerprint : String) (now : Time) : Tx ι Nat :=
  insert i .agentAuthKeys
    (newCertificate endpointId certificate fingerprint now)

def newEndpoint (request : AgentRegisterRequest) (receivedAt : Time) : AgentEndpoint where
  agentId := request.agentId
  row :=
    { hostname := request.hostname
      osType := request.osType
      osVersion := some request.osVersion
      ipAddress := none
      agentVersion := some request.agentVersion
      agentBuildId := some request.agentBuildId
      agentArch := some request.agentArch
      capabilityCodes := request.capabilityCodes
      sensorHealth := []
      registeredAt := receivedAt
      status := .online
      lastSeenAt := some receivedAt
      createdAt := receivedAt
      updatedAt := receivedAt
      isDelete := false }

def registered (request : AgentRegisterRequest) (receivedAt : Time) (endpoint : AgentEndpoint) :
    AgentEndpoint :=
  { endpoint with
    row :=
      { endpoint.row with
        hostname := request.hostname
        osType := request.osType
        osVersion := some request.osVersion
        agentVersion := some request.agentVersion
        agentBuildId := some request.agentBuildId
        agentArch := some request.agentArch
        capabilityCodes := request.capabilityCodes
        status := .online
        lastSeenAt := some receivedAt
        updatedAt := receivedAt } }

def revoked (now : Time) (key : AgentAuthKey) : AgentAuthKey :=
  { key with
    revokedAt := some now
    updatedAt := now }

/-- The `audit_logs` row of a rotation. -/
def rotation (request : AgentRegisterRequest) (endpointId : Nat) (before fingerprint : String)
    (requestId : String) (receivedAt : Time) : AgentAuditLog where
  actorType := .agent
  actorIdentifier := request.agentId
  action := "AGENT_CERTIFICATE_ROTATED"
  resourceType := "AGENT_AUTH_KEY"
  resourceId := toString endpointId
  beforeFingerprint := before
  afterFingerprint := fingerprint
  requestId := requestId
  createdAt := receivedAt

/-- `WHERE endpoint_id = .. AND is_delete = FALSE AND revoked_at IS NULL`. -/
def activeOf (endpointId : Nat) (_ : Nat) (key : AgentAuthKey) : Bool :=
  decide (key.endpointId = endpointId) && key.active

def rotate (request : AgentRegisterRequest) (certificate : AgentCertificateIdentity)
    (receivedAt : Time) (requestId : String) (fingerprintOwner : Option Nat) (endpointId : Nat) :
    Tx ι Unit := do
  let fingerprint := certificate.fingerprint
  let keys ← selectForUpdate i (S := agentSchema) .agentAuthKeys (activeOf endpointId)
  let active := keys.head?.map fun x => x.2.certFingerprint
  if active.any fun before => decide (before.toLower = fingerprint) then
    return ()
  else
    .raiseIf fingerprintOwner.isSome
      (.raised (.agentIdentityConflict "A revoked certificate cannot be reactivated."))
    let _ ← update i (S := agentSchema) .agentAuthKeys inOrder (activeOf endpointId)
      (revoked receivedAt)
    let _ ← insertCertificate i endpointId certificate fingerprint receivedAt
    match active with
    | none => return ()
    | some before =>
      let _ ← insert i (S := agentSchema) .auditLogs
        (rotation request endpointId before fingerprint requestId receivedAt)
      return ()

def registerAgent (request : AgentRegisterRequest) (certificate : AgentCertificateIdentity)
    (receivedAt : Time) (requestId : String) : Tx ι AgentRegistrationResult := do
  .raiseIf (decide (request.agentId ≠ certificate.sanAgentId)) (.raised
    (.agentIdentityConflict "Request agentId does not match certificate SAN identity."))
  let fingerprint := certificate.fingerprint
  let owners ← select i (S := agentSchema) .agentAuthKeys fun _ key =>
    decide (key.certFingerprint = fingerprint)
  let fingerprintOwner := owners.head?.map fun x => x.2.endpointId
  let endpoints ← selectForUpdate i (S := agentSchema) .endpoints fun _ endpoint =>
    decide (endpoint.agentId = request.agentId) && !endpoint.row.isDelete
  match endpoints.head? with
  | none =>
    .raiseIf fingerprintOwner.isSome (.raised
      (.agentIdentityConflict "Certificate fingerprint belongs to another Endpoint."))
    let endpointId ← insert i (S := agentSchema) .endpoints (newEndpoint request receivedAt)
    let _ ← insertCertificate i endpointId certificate fingerprint receivedAt
    return ⟨endpointId, request.agentId, .online, receivedAt, true⟩
  | some (endpointId, endpoint) =>
    .raiseIf (decide (endpoint.row.status = .retired)) (.raised .endpointRetired)
    .raiseIf (fingerprintOwner.any fun owner => decide (owner ≠ endpointId)) (.raised
      (.agentIdentityConflict "Certificate fingerprint belongs to another Endpoint."))
    rotate i request certificate receivedAt requestId fingerprintOwner endpointId
    let _ ← update i (S := agentSchema) .endpoints inOrder
      (fun id _ => decide (id = endpointId)) (registered request receivedAt)
    return ⟨endpointId, request.agentId, .online, endpoint.row.registeredAt, false⟩

def authenticateAgent (agentId : String) (certificate : AgentCertificateIdentity) (now : Time) :
    Tx ι EndpointAuthContext := do
  .raiseIf (decide (agentId ≠ certificate.sanAgentId)) (.raised .invalidAgentCertificate)
  let endpoints ← select i (S := agentSchema) .endpoints fun _ endpoint =>
    decide (endpoint.agentId = agentId) && !endpoint.row.isDelete
  match endpoints.head? with
  | none => .raise (.raised .invalidAgentCertificate)
  | some (endpointId, endpoint) =>
    .raiseIf (decide (endpoint.row.status = .retired)) (.raised .endpointRetired)
    let keys ← select i (S := agentSchema) .agentAuthKeys fun _ key =>
      decide (key.endpointId = endpointId ∧ key.certFingerprint = certificate.fingerprint ∧
        key.certSanAgentId = certificate.sanAgentId ∧ key.issuedAt ≤ now ∧ now < key.expiresAt) &&
        key.active
    .raiseIf keys.isEmpty (.raised .invalidAgentCertificate)
    return ⟨endpointId, endpoint.agentId, endpoint.row.hostname, endpoint.row.osType,
      endpoint.row.ipAddress⟩

def heard (request : AgentHeartbeatRequest) (receivedAt : Time) (endpoint : AgentEndpoint) :
    AgentEndpoint :=
  { endpoint with
    row :=
      { endpoint.row with
        agentVersion := some request.agentVersion
        agentBuildId := some request.agentBuildId
        agentArch := some request.agentArch
        capabilityCodes := request.capabilityCodes
        sensorHealth := request.sensorHealth
        status := .online
        lastSeenAt := some receivedAt
        updatedAt := receivedAt } }

def heartbeat (endpointId : Nat) (request : AgentHeartbeatRequest) (receivedAt : Time) :
    Tx ι Unit := do
  let rowcount ← update i .endpoints inOrder
    (fun id endpoint => decide (id = endpointId) && !endpoint.row.isDelete &&
      decide (endpoint.row.status ≠ .retired)) (heard request receivedAt)
  .raiseIf (decide (rowcount ≠ 1)) (.raised .endpointRetired)

def withStatus (status : EndpointStatus) (now : Time) (endpoint : AgentEndpoint) : AgentEndpoint :=
  { endpoint with
    row :=
      { endpoint.row with
        status := status
        updatedAt := now } }

def markOffline (plan : Plan) (cutoff updatedAt : Time) : Tx ι Nat :=
  update i .endpoints plan
    (fun _ endpoint => !endpoint.row.isDelete && decide (endpoint.row.status ≠ .retired) &&
      endpoint.row.lastSeenAt.any (fun lastSeenAt => decide (lastSeenAt < cutoff)) &&
      decide (endpoint.row.status ≠ .offline)) (withStatus .offline updatedAt)

/-- `UPDATE endpoints SET status = 'RETIRED'`, by an operator. -/
def retire (plan : Plan) (agentIds : List String) (now : Time) : Tx ι Nat :=
  update i .endpoints plan
    (fun _ endpoint => agentIds.contains endpoint.agentId && !endpoint.row.isDelete)
    (withStatus .retired now)

def retireAndRevoke (plan : Plan) (agentIds : List String) (now : Time) : Tx ι Nat := do
  let endpoints ← select i (S := agentSchema) .endpoints fun _ endpoint =>
    agentIds.contains endpoint.agentId && !endpoint.row.isDelete
  let _ ← update i (S := agentSchema) .agentAuthKeys plan
    (fun _ key => (endpoints.map Prod.fst).contains key.endpointId && key.active) (revoked now)
  retire i plan agentIds now

/-! ## All transactions -/

inductive Call
  | registerAgent (request : AgentRegisterRequest) (certificate : AgentCertificateIdentity)
      (receivedAt : Time) (requestId : String)
  | authenticateAgent (agentId : String) (certificate : AgentCertificateIdentity) (now : Time)
  | heartbeat (endpointId : Nat) (request : AgentHeartbeatRequest) (receivedAt : Time)
  | markOffline (plan : Plan) (cutoff updatedAt : Time)
  | retire (plan : Plan) (agentIds : List String) (now : Time)
  | retireAndRevoke (plan : Plan) (agentIds : List String) (now : Time)

inductive Reply
  | registered (result : AgentRegistrationResult)
  | authenticated (context : EndpointAuthContext)
  | heard
  | rowcount (n : Nat)

def program : Call → Tx ι Reply
  | .registerAgent request certificate receivedAt requestId =>
    return .registered (← registerAgent i request certificate receivedAt requestId)
  | .authenticateAgent agentId certificate now =>
    return .authenticated (← authenticateAgent i agentId certificate now)
  | .heartbeat endpointId request receivedAt => do
    heartbeat i endpointId request receivedAt
    return .heard
  | .markOffline plan cutoff updatedAt => return .rowcount (← markOffline i plan cutoff updatedAt)
  | .retire plan agentIds now => return .rowcount (← retire i plan agentIds now)
  | .retireAndRevoke plan agentIds now =>
    return .rowcount (← retireAndRevoke i plan agentIds now)

def agentService (ι : Type) [DecidableEq ι] :
    Service ι Call (AgentDb ι) (DbError AgentError) Reply :=
  Db.service program

end EndpointRepository

end Edr
