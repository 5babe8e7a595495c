import Edr.Detection
import Edr.Lib.Serial

/-!
# Alerts and incidents

The tables `alerts`, `incidents` and `incident_alerts`, with the statements of `AlertRepository` and
`IncidentRepository` as functions of them. Each function is one transaction.
-/

namespace Edr.Detection

open Option

/-- The place of a severity in `ARRAY['LOW','MEDIUM','HIGH','CRITICAL']`. -/
def Severity.position : Severity → Nat
  | low => 1
  | medium => 2
  | high => 3
  | critical => 4

theorem Severity.position_injective : Function.Injective position := by
  intro a b h
  cases a <;> cases b <;> first | rfl | cases h

instance : LinearOrder Severity := .lift' Severity.position Severity.position_injective

inductive DatabaseError
  | checkViolation
  | runtimeError (message : String)
  | keyError

/-! ## Alerts -/

inductive AlertStatus
  | open_
  | inProgress
  | resolved
  deriving DecidableEq

/-- A row of `alerts`, except for its key and its id. -/
structure AlertRow where
  endpointId : Nat
  eventOccurredAt : Time
  batchId : Option UUID
  agentId : String
  ruleName : String
  mitreTacticCode : String
  mitreTacticName : String
  mitreTechniqueCode : String
  mitreTechniqueName : String
  title : String
  summary : String
  severity : Severity
  /-- `NUMERIC(5,2)`. -/
  riskScore : Rat
  status : AlertStatus
  detectedAt : Time
  createdAt : Time
  updatedAt : Time
  isDelete : Bool

abbrev Alerts := Serial AlertKey AlertRow

def numeric52 (q : Rat) : Rat := ((q * 100 + 1 / 2).floor : Rat) / 100

/-- The row that `insert_if_absent` inserts. -/
def AlertInsert.row (alert : AlertInsert) : AlertRow where
  endpointId := alert.endpointId
  eventOccurredAt := alert.eventOccurredAt
  batchId := alert.batchId
  agentId := alert.agentId
  ruleName := alert.ruleName
  mitreTacticCode := alert.mitreTacticCode
  mitreTacticName := alert.mitreTacticName
  mitreTechniqueCode := alert.mitreTechniqueCode
  mitreTechniqueName := alert.mitreTechniqueName
  title := alert.title
  summary := alert.summary
  severity := alert.severity
  riskScore := numeric52 alert.riskScore
  status := .open_
  detectedAt := alert.detectedAt
  createdAt := alert.detectedAt
  updatedAt := alert.detectedAt
  isDelete := false

structure StoredAlert where
  alertId : Nat
  created : Bool
  status : AlertStatus
  detectedAt : Time

def AlertRepository.insertIfAbsent (alert : AlertInsert) (alerts : Alerts) :
    Except DatabaseError (Alerts × StoredAlert) :=
  let inserted := alerts.insert alert.key alert.row
  match alerts.get? alert.key with
  | none => .ok (inserted, ⟨alerts.next, true, .open_, alert.detectedAt⟩)
  | some (alertId, row) =>
    if row.isDelete then .error (.runtimeError "alert idempotency lookup failed")
    else .ok (inserted, ⟨alertId, false, row.status, row.detectedAt⟩)

/-- After `insert_if_absent` there is a row under the key: the one that was there, or the new one.
    What is returned is its id and its detection time. -/
theorem AlertRepository.insertIfAbsent_eq_ok {alert : AlertInsert} {alerts alerts' : Alerts}
    {stored : StoredAlert} (h : insertIfAbsent alert alerts = .ok (alerts', stored)) :
    alerts' = alerts.insert alert.key alert.row ∧
      ∃ row, alerts'.get? alert.key = some (stored.alertId, row) ∧
        row.detectedAt = stored.detectedAt := by
  simp only [insertIfAbsent] at h
  split at h
  · rename_i hnone
    cases h
    refine ⟨rfl, alert.row, ?_, rfl⟩
    rw [Serial.get?_insert, if_pos rfl, hnone, getD_none]
  · rename_i alertId row hsome
    split_ifs at h
    cases h
    refine ⟨rfl, row, ?_, rfl⟩
    rw [Serial.get?_insert, if_pos rfl, hsome, getD_some]

/-! ## Incidents -/

inductive IncidentStatus
  | open_
  | closed
  deriving DecidableEq

/-- A row of `incidents`, except for its key and its id. -/
structure IncidentRow where
  windowEndAt : Time
  title : String
  description : Option String
  severity : Severity
  status : IncidentStatus
  statusOverridden : Bool
  firstDetectedAt : Time
  lastDetectedAt : Time
  closedAt : Option Time
  createdAt : Time
  updatedAt : Time
  isDelete : Bool

abbrev Incidents := Serial IncidentKey IncidentRow

/-- The `CHECK` constraints, of a row whose window starts at this time. -/
def IncidentRow.Check (windowStartAt : Time) (row : IncidentRow) : Prop :=
  windowStartAt < row.windowEndAt ∧
    (row.status = .open_ ∧ row.closedAt = none ∨
      row.status = .closed ∧ row.closedAt = some row.windowEndAt)

instance (windowStartAt : Time) (row : IncidentRow) : Decidable (row.Check windowStartAt) :=
  inferInstanceAs (Decidable (_ ∧ _))

structure IncidentInsert where
  endpointId : Nat
  correlationKey : String
  windowStartAt : Time
  windowEndAt : Time
  title : String
  description : Option String
  severity : Severity
  detectedAt : Time

namespace IncidentInsert

variable (incident : IncidentInsert)

def key : IncidentKey := ⟨incident.endpointId, incident.correlationKey, incident.windowStartAt⟩

/-- The row that `upsert` inserts. -/
def row : IncidentRow where
  windowEndAt := incident.windowEndAt
  title := incident.title
  description := incident.description
  severity := incident.severity
  status := .open_
  statusOverridden := false
  firstDetectedAt := incident.detectedAt
  lastDetectedAt := incident.detectedAt
  closedAt := none
  createdAt := incident.detectedAt
  updatedAt := incident.detectedAt
  isDelete := false

/-- The `DO UPDATE` of `upsert`. -/
def merge (existing : IncidentRow) : IncidentRow :=
  { existing with
    lastDetectedAt := max existing.lastDetectedAt incident.detectedAt
    windowEndAt := max existing.windowEndAt incident.windowEndAt
    severity :=
      if incident.severity.position > existing.severity.position then incident.severity
      else existing.severity
    updatedAt := max existing.updatedAt incident.detectedAt }

end IncidentInsert

structure StoredIncident where
  incidentId : Nat
  created : Bool
  status : IncidentStatus

/-- An `INCIDENT_STATUS_CHANGED` row of `audit_logs`. -/
structure StatusAudit where
  actorIdentifier : String
  resourceId : Nat
  before : IncidentStatus
  after : IncidentStatus
  requestId : String
  createdAt : Time

namespace IncidentRepository

/-- `upsert`. The row to insert is checked also where there is a conflict. -/
def upsert (incident : IncidentInsert) (incidents : Incidents) :
    Except DatabaseError (Incidents × StoredIncident) :=
  if ¬incident.row.Check incident.windowStartAt then .error .checkViolation
  else
    let upserted := incidents.upsert incident.key incident.row incident.merge
    match incidents.get? incident.key with
    | none => .ok (upserted, ⟨incidents.next, true, .open_⟩)
    | some (incidentId, existing) =>
      if ¬(incident.merge existing).Check incident.windowStartAt then .error .checkViolation
      else .ok (upserted, ⟨incidentId, false, existing.status⟩)

/-- `link_alert`, on `incident_alerts`: the pairs of an incident and an alert. -/
def linkAlert (incidentId alertId : Nat) (linkedAt : Time) (links : Table (Nat × Nat) Time) :
    Table (Nat × Nat) Time :=
  links.insert (incidentId, alertId) linkedAt

/-- The incidents that `close_expired` closes. -/
def expired (now : Time) (row : IncidentRow) : Bool :=
  !row.isDelete && decide (row.status = .open_) && !row.statusOverridden &&
    decide (row.windowEndAt ≤ now)

def close (now : Time) (row : IncidentRow) : IncidentRow :=
  { row with
    status := .closed
    closedAt := some row.windowEndAt
    updatedAt := now }

/-- `close_expired`: the table, and the number of the rows that were updated. -/
def closeExpired (now : Time) (incidents : Incidents) : Incidents × Nat :=
  (incidents.update (fun _ => expired now) (close now),
    incidents.table.rows.countP fun x => expired now x.2.2)

/-- The `UPDATE` of `update_status_with_audit`. -/
def changeStatus (status : IncidentStatus) (changedAt : Time) (row : IncidentRow) : IncidentRow :=
  { row with
    status := status
    closedAt := if status = .closed then some row.windowEndAt else none
    statusOverridden := true
    updatedAt := changedAt }

/-- `update_status_with_audit`: the table, and the audit row where the status has changed. -/
def updateStatus (incidentId : Nat) (status : IncidentStatus) (actorIdentifier requestId : String)
    (changedAt : Time) (incidents : Incidents) :
    Except DatabaseError (Incidents × Option StatusAudit) :=
  match incidents.find? incidentId with
  | none => .error .keyError
  | some (_, before) =>
    if before.isDelete then .error .keyError
    else if before.status ≠ status then
      .ok (incidents.update (fun id _ => decide (id = incidentId)) (changeStatus status changedAt),
        some ⟨actorIdentifier, incidentId, before.status, status, requestId, changedAt⟩)
    else .ok (incidents, none)

/-! ## What the statements do -/

section

variable {incident : IncidentInsert} {incidents incidents' : Incidents} {stored : StoredIncident}
  {k : IncidentKey} {id : Nat} {row : IncidentRow}

theorem upsert_eq_ok (h : upsert incident incidents = .ok (incidents', stored)) :
    incidents' = incidents.upsert incident.key incident.row incident.merge ∧
      (∃ row, incidents'.get? incident.key = some (stored.incidentId, row)) ∧
      ∀ k id row, incidents'.get? k = some (id, row) → incidents.get? k = some (id, row) ∨
        row.Check k.windowStartAt := by
  have hother (k : IncidentKey) (hk : k ≠ incident.key) :
      (incidents.upsert incident.key incident.row incident.merge).get? k = incidents.get? k := by
    rw [Serial.get?_upsert, if_neg hk]
  simp only [upsert] at h
  split_ifs at h with hnew
  split at h
  · rename_i hnone
    cases h
    have hself : (incidents.upsert incident.key incident.row incident.merge).get? incident.key =
        some (incidents.next, incident.row) := by
      rw [Serial.get?_upsert, if_pos rfl, hnone, elim_none]
    refine ⟨rfl, ⟨_, hself⟩, fun k id row hrow => ?_⟩
    by_cases hk : k = incident.key
    · subst hk
      cases hself.symm.trans hrow
      exact .inr hnew
    · exact .inl (hother k hk ▸ hrow)
  · rename_i incidentId existing hsome
    split_ifs at h with hmerge
    cases h
    have hself : (incidents.upsert incident.key incident.row incident.merge).get? incident.key =
        some (incidentId, incident.merge existing) := by
      rw [Serial.get?_upsert, if_pos rfl, hsome, elim_some]
    refine ⟨rfl, ⟨_, hself⟩, fun k id row hrow => ?_⟩
    by_cases hk : k = incident.key
    · subst hk
      cases hself.symm.trans hrow
      exact .inr hmerge
    · exact .inl (hother k hk ▸ hrow)

theorem updateStatus_eq_ok {status : IncidentStatus} {actor request : String} {changedAt : Time}
    {audit : Option StatusAudit}
    (h : updateStatus id status actor request changedAt incidents = .ok (incidents', audit)) :
    incidents' = incidents ∧ audit = none ∨
      ∃ k before, incidents.get? k = some (id, before) ∧ before.status ≠ status ∧
        incidents' = incidents.update (fun id' _ => decide (id' = id))
          (changeStatus status changedAt) ∧
        audit = some ⟨actor, id, before.status, status, request, changedAt⟩ := by
  simp only [updateStatus] at h
  split at h
  · cases h
  · rename_i k before hfind
    split_ifs at h with hdelete hstatus
    · cases h
      exact .inr ⟨k, before, Serial.find?_eq_some.1 hfind, hstatus, rfl, rfl⟩
    · cases h
      exact .inl ⟨rfl, rfl⟩

theorem check_close {now windowStartAt : Time} (h : row.Check windowStartAt) :
    (close now row).Check windowStartAt :=
  ⟨h.1, .inr ⟨rfl, rfl⟩⟩

theorem check_changeStatus {status : IncidentStatus} {changedAt windowStartAt : Time}
    (h : row.Check windowStartAt) : (changeStatus status changedAt row).Check windowStartAt := by
  cases status with
  | open_ => exact ⟨h.1, .inl ⟨rfl, rfl⟩⟩
  | closed => exact ⟨h.1, .inr ⟨rfl, rfl⟩⟩

theorem eq_checkViolation_of_upsert {e : DatabaseError} (h : upsert incident incidents = .error e) :
    e = .checkViolation := by
  simp only [upsert] at h
  split_ifs at h
  · split at h
    · cases h
    · split_ifs at h
      cases h
      rfl
  · cases h
    rfl

theorem upsert_eq_error (hnew : incident.windowStartAt < incident.windowEndAt)
    (hcheck : ∀ k id row, incidents.get? k = some (id, row) → row.Check k.windowStartAt) :
    upsert incident incidents = .error .checkViolation ↔
      ∃ id row, incidents.get? incident.key = some (id, row) ∧ row.status = .closed ∧
        row.windowEndAt < incident.windowEndAt := by
  have hrow : incident.row.Check incident.windowStartAt := ⟨hnew, .inl ⟨rfl, rfl⟩⟩
  simp only [upsert]
  rw [if_neg (Classical.not_not.2 hrow)]
  split
  · rename_i hnone
    refine ⟨nofun, ?_⟩
    rintro ⟨id, row, hsome, -⟩
    rw [hnone] at hsome
    cases hsome
  · rename_i id existing hsome
    obtain ⟨hlt, hstatus⟩ := hcheck _ _ _ hsome
    have hiff : (incident.merge existing).Check incident.windowStartAt ↔
        ¬(existing.status = .closed ∧ existing.windowEndAt < incident.windowEndAt) := by
      unfold IncidentRow.Check IncidentInsert.merge
      grind
    by_cases hclosed : existing.status = .closed ∧ existing.windowEndAt < incident.windowEndAt
    · rw [if_pos fun h => hiff.1 h hclosed]
      exact ⟨fun _ => ⟨id, existing, hsome, hclosed⟩, fun _ => rfl⟩
    · rw [if_neg fun h => h (hiff.2 hclosed)]
      refine ⟨nofun, ?_⟩
      rintro ⟨id', row, hrow', hclosed'⟩
      cases hsome.symm.trans hrow'
      exact absurd hclosed' hclosed

end

end IncidentRepository

end Edr.Detection
