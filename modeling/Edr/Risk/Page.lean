import Edr.Detection.Tables
import Edr.Endpoint
import Edr.Lib.Like
import Edr.Risk

/-!
# Risk in SQL

The list of the endpoints is sorted and filtered by risk, so `risk_page` computes the score in SQL, by
window functions over all alerts and incidents. A row of the page carries only the alerts and the
incidents that are selected, and their numbers. The detail of an endpoint is made from
`risk_snapshot`, whose rows carry all of them. Both go through `endpoint_dto`, which computes the risk
again.
-/

namespace Edr

open List

open Detection Paging Ranking Decimal

namespace Risk

/-! ## Candidates -/

/-- What the search depends on. -/
structure SearchOps where
  /-- `int(q)`, if `q.isdecimal()`. -/
  decimal : String → Option Nat
  /-- `str.lower`. -/
  lower : String → String
  /-- `LOWER`. -/
  sqlLower : String → String

/-- A `bigint`. The queries fail for larger numbers. -/
abbrev BigInt := { n : Nat // n < 2 ^ 63 }

/-- The parameters that `risk_snapshot` and `risk_page` share. -/
structure RiskFilters (ops : SearchOps) where
  endpointIds : Option (List BigInt) := none
  q : Option { q : String // ∀ n ∈ ops.decimal q, n < 2 ^ 63 } := none
  status : Option EndpointStatus := none
  osType : Option OsType := none

/-- `_escape_like_prefix`. -/
def escapeLikePrefix (value : String) : String :=
  (((value.replace "\\" "\\\\").replace "%" "\\%").replace "_" "\\_") ++ "%"

theorem toList_escapeLikePrefix (value : String) :
    (escapeLikePrefix value).toList = value.toList.flatMap escapeLike ++ ['%'] := by
  rw [escapeLikePrefix, String.toList_append, toList_replace (c := '_') rfl,
    toList_replace (c := '%') rfl, toList_replace (c := '\\') rfl, flatMap_assoc, flatMap_assoc]
  congr 1
  refine flatMap_congr fun c _ => ?_
  by_cases hbackslash : c = '\\'
  · subst hbackslash
    rfl
  by_cases hpercent : c = '%'
  · subst hpercent
    rfl
  by_cases hunderscore : c = '_'
  · subst hunderscore
    rfl
  simp [escapeLike, hbackslash, hpercent, hunderscore]

/-- The pattern for a prefix matches the texts that start with it. -/
theorem like_escapeLikePrefix (q s : String) :
    like (escapeLikePrefix q).toList s.toList = true ↔ q.toList <+: s.toList := by
  rw [toList_escapeLikePrefix, like_escapes]

variable (ops : SearchOps)

/-- The condition on `q`. -/
def searches (q : String) (e : Endpoint) : Bool :=
  match ops.decimal q with
  | some queryEndpointId => decide (e.endpointId = queryEndpointId)
  | none =>
    let pattern := (escapeLikePrefix (ops.lower q)).toList
    like pattern (ops.sqlLower e.row.hostname).toList ||
      like pattern (ops.sqlLower e.agentId).toList

/-- The `WHERE` of `candidate_endpoints`. -/
def isCandidate (filters : RiskFilters ops) (e : Endpoint) : Bool :=
  !e.row.isDelete &&
    (match filters.endpointIds with
      | none | some [] => true
      | some ids => (ids.map Subtype.val).contains e.endpointId) &&
    filters.status.all (fun status => decide (e.row.status = status)) &&
    filters.osType.all (fun osType => decide (e.row.osType = osType)) &&
    filters.q.all fun q => searches ops q.1 e

/-- The tables that the queries read. -/
structure RiskTables where
  endpoints : Endpoints
  alerts : Alerts
  incidents : Incidents

/-- `candidate_endpoints`. -/
def candidateEndpoints (filters : RiskFilters ops) (db : RiskTables) : List Endpoint :=
  db.endpoints.all.filter (isCandidate ops filters)

/-! ## Alerts and incidents -/

/-- A row of `alerts`, with its key and its id. -/
structure AlertRecord where
  key : AlertKey
  alertId : Nat
  row : AlertRow

/-- A row of `incidents`, with its key and its id. -/
structure IncidentRecord where
  key : IncidentKey
  incidentId : Nat
  row : IncidentRow

/-- `is_delete = FALSE AND status IN ('OPEN', 'IN_PROGRESS')`. -/
def activeAlerts (db : RiskTables) : List AlertRecord :=
  (db.alerts.table.rows.map fun x => ⟨x.1, x.2.1, x.2.2⟩).filter fun a =>
    !a.row.isDelete && decide (a.row.status = .open_ ∨ a.row.status = .inProgress)

/-- `is_delete = FALSE AND status = 'OPEN'`. -/
def openIncidents (db : RiskTables) : List IncidentRecord :=
  (db.incidents.table.rows.map fun x => ⟨x.1, x.2.1, x.2.2⟩).filter fun i =>
    !i.row.isDelete && decide (i.row.status = .open_)

/-- `endpoint_id IN (SELECT endpoint_id FROM candidate_endpoints)`. -/
def ofCandidates (candidates : List Endpoint) (endpointId : Nat) : Bool :=
  candidates.any fun e => decide (e.endpointId = endpointId)

/-- `ORDER BY risk_score DESC, detected_at DESC, alert_id DESC`. -/
abbrev alertOrder : AlertRecord → AlertRecord → Prop :=
  descending fun a => riskKey a.row.riskScore a.row.detectedAt a.alertId

/-- `ORDER BY CASE severity .. END DESC, last_detected_at DESC, incident_id DESC`. -/
abbrev incidentOrder : IncidentRecord → IncidentRecord → Prop :=
  descending fun i => incidentKey i.row.severity i.row.lastDetectedAt i.incidentId

/-- `ORDER BY last_detected_at DESC, incident_id DESC`. -/
abbrev recentOrder : IncidentRecord → IncidentRecord → Prop :=
  descending fun i => (toLex (i.row.lastDetectedAt, i.incidentId) : Time ×ₗ Nat)

/-- The object of an alert in `active_alerts`. -/
structure AlertItem where
  alertId : Nat
  ruleCode : String
  ruleVersion : Nat
  riskScore : Rat
  detectedAt : Time
  title : String
  severity : Severity

/-- The object of an incident in `open_incidents`. -/
structure IncidentItem where
  incidentId : Nat
  title : String
  severity : Severity
  lastDetectedAt : Time

def AlertRecord.item (a : AlertRecord) : AlertItem where
  alertId := a.alertId
  ruleCode := a.key.ruleCode
  ruleVersion := a.key.ruleVersion
  riskScore := a.row.riskScore
  detectedAt := a.row.detectedAt
  title := a.row.title
  severity := a.row.severity

def IncidentRecord.item (i : IncidentRecord) : IncidentItem where
  incidentId := i.incidentId
  title := i.row.title
  severity := i.row.severity
  lastDetectedAt := i.row.lastDetectedAt

/-- A row of one of the queries. The columns after the incidents are only in those of `risk_page`. -/
structure RiskRow where
  endpoint : Endpoint
  activeAlerts : List AlertItem
  openIncidents : List IncidentItem
  activeAlertCount : Option Nat
  openIncidentCount : Option Nat
  /-- `none` if there is no such column, and `some none` if it is null. -/
  highestAlertRiskScore : Option (Option Rat)
  calculatedRiskScore : Option Int

/-- The rows of `alerts` that the queries read. -/
def candidateAlerts (filters : RiskFilters ops) (db : RiskTables) : List AlertRecord :=
  (activeAlerts db).filter fun a =>
    ofCandidates (candidateEndpoints ops filters db) a.row.endpointId

/-- The rows of `incidents` that the queries read. -/
def candidateIncidents (filters : RiskFilters ops) (db : RiskTables) : List IncidentRecord :=
  (openIncidents db).filter fun i =>
    ofCandidates (candidateEndpoints ops filters db) i.key.endpointId

/-! ## The snapshot -/

/-- `risk_snapshot`. -/
def riskSnapshot (filters : RiskFilters ops) (db : RiskTables) : List RiskRow :=
  (candidateEndpoints ops filters db).map fun e =>
    let alerts := (candidateAlerts ops filters db).filter fun a =>
      decide (a.row.endpointId = e.endpointId)
    let incidents := (candidateIncidents ops filters db).filter fun i =>
      decide (i.key.endpointId = e.endpointId)
    { endpoint := e
      activeAlerts := (alerts.insertionSort alertOrder).map AlertRecord.item
      openIncidents := (incidents.insertionSort recentOrder).map IncidentRecord.item
      activeAlertCount := none
      openIncidentCount := none
      highestAlertRiskScore := none
      calculatedRiskScore := none }

/-! ## The page -/

/-- `representative_alerts`, with `risk_rank`. -/
def representativeAlerts (filters : RiskFilters ops) (db : RiskTables) : List (AlertRecord × Nat) :=
  let candidates := numbered alertOrder
    (fun a => (a.row.endpointId, a.key.ruleCode, a.key.ruleVersion)) (candidateAlerts ops filters db)
  numbered alertOrder (fun a => a.row.endpointId)
    ((candidates.filter fun x => decide (x.2 = 1)).map Prod.fst)

/-- `ROUND` of a `NUMERIC`. -/
def round (value : Rat) : Int := roundHalfAway value

/-- `CASE risk_rank ..`, of a score. -/
def contribution (riskScore : Rat) : Nat → Int
  | 1 => round riskScore
  | 2 => round (riskScore * (25 / 100))
  | 3 => round (riskScore * (10 / 100))
  | _ => 0

/-- The rows of a `GROUP BY`, of which there is none where the group is empty. -/
def grouped {α β : Type*} (rows : List α) (f : List α → β) : Option β :=
  if rows.isEmpty then none else some (f rows)

/-- `alert_risk`, for an endpoint: the items, and the contribution. -/
def alertRisk (filters : RiskFilters ops) (db : RiskTables) (endpointId : Nat) :
    Option (List AlertItem × Int) :=
  grouped ((representativeAlerts ops filters db).filter fun x =>
      decide (x.1.row.endpointId = endpointId)) fun rows =>
    ((firstRows 3 rows).map AlertRecord.item,
      (rows.map fun x => contribution x.1.row.riskScore x.2).sum)

/-- `alert_counts`, for an endpoint: the number, and the highest score. -/
def alertCounts (filters : RiskFilters ops) (db : RiskTables) (endpointId : Nat) :
    Option (Nat × Option Rat) :=
  grouped ((candidateAlerts ops filters db).filter fun a =>
      decide (a.row.endpointId = endpointId)) fun rows =>
    (rows.length, (rows.map fun a => a.row.riskScore).max?)

/-- `incident_risk`, for an endpoint: the items, and the number. -/
def incidentRisk (filters : RiskFilters ops) (db : RiskTables) (endpointId : Nat) :
    Option (List IncidentItem × Nat) :=
  let ranked := numbered incidentOrder (fun i => i.key.endpointId)
    (candidateIncidents ops filters db)
  grouped (ranked.filter fun x => decide (x.1.key.endpointId = endpointId)) fun rows =>
    ((firstRows 2 rows).map IncidentRecord.item, rows.length)

/-- `scored_endpoints`. -/
def scoredEndpoints (filters : RiskFilters ops) (db : RiskTables) : List RiskRow :=
  (candidateEndpoints ops filters db).map fun e =>
    let ar := alertRisk ops filters db e.endpointId
    let ac := alertCounts ops filters db e.endpointId
    let ir := incidentRisk ops filters db e.endpointId
    { endpoint := e
      activeAlerts := (ar.map Prod.fst).getD []
      openIncidents := (ir.map Prod.fst).getD []
      activeAlertCount := some ((ac.map Prod.fst).getD 0)
      openIncidentCount := some ((ir.map Prod.snd).getD 0)
      highestAlertRiskScore := some (ac.bind Prod.snd)
      calculatedRiskScore := some (min 100
        ((ar.map Prod.snd).getD 0 + (min ((ir.map Prod.snd).getD 0) 2 * 10 : Nat))) }

/-- `risk_condition`, of `calculated_risk_score`. -/
def riskCondition : Option RiskLevel → Int → Bool
  | none, _ => true
  | some .low, score => decide (score < 25)
  | some .medium, score => decide (25 ≤ score ∧ score ≤ 49)
  | some .high, score => decide (50 ≤ score ∧ score ≤ 79)
  | some .critical, score => decide (80 ≤ score)

/-- The rows that the `WHERE` of the page keeps. -/
def matchingRows (filters : RiskFilters ops) (level : Option RiskLevel) (db : RiskTables) :
    List RiskRow :=
  (scoredEndpoints ops filters db).filter fun row => row.calculatedRiskScore.all (riskCondition level)

/-! ## The DTO -/

@[ext]
structure EndpointRiskDto where
  score : Int
  level : RiskLevel
  activeAlertCount : Nat
  openIncidentCount : Nat
  highestAlertRiskScore : Option Rat
  calculatedAt : Time
  riskFactors : List RiskFactor

structure EndpointDto where
  endpointId : Nat
  agentId : String
  hostname : String
  osType : OsType
  osVersion : Option String
  ipAddress : Option String
  agentVersion : Option String
  agentBuildId : Option String
  agentArch : Option AgentArchitecture
  capabilityCodes : List String
  status : EndpointStatus
  lastSeenAt : Option Time
  isStale : Bool
  sensorHealth : List SensorItem
  risk : EndpointRiskDto
  registeredAt : Time

def AlertItem.input (item : AlertItem) : AlertRiskInput where
  alertId := item.alertId
  ruleCode := item.ruleCode
  ruleVersion := item.ruleVersion
  riskScore := item.riskScore
  detectedAt := item.detectedAt
  title := item.title

def IncidentItem.input (item : IncidentItem) : IncidentRiskInput where
  incidentId := item.incidentId
  title := item.title
  severity := item.severity
  lastDetectedAt := item.lastDetectedAt

/-- The `risk` of `endpoint_dto`. -/
def riskDto (row : RiskRow) (calculatedAt : Time) : EndpointRiskDto :=
  let alerts := row.activeAlerts.map AlertItem.input
  let incidents := row.openIncidents.map IncidentItem.input
  let risk := calculateEndpointRisk alerts incidents calculatedAt
  { score := risk.score
    level := risk.level
    activeAlertCount := row.activeAlertCount.getD risk.activeAlertCount
    openIncidentCount := row.openIncidentCount.getD risk.openIncidentCount
    highestAlertRiskScore := row.highestAlertRiskScore.getD risk.highestAlertRiskScore
    calculatedAt := risk.calculatedAt
    riskFactors := risk.riskFactors }

/-- `endpoint_dto`. -/
def endpointDto (row : RiskRow) (calculatedAt : Time) : EndpointDto :=
  { endpointId := row.endpoint.endpointId
    agentId := row.endpoint.agentId
    hostname := row.endpoint.row.hostname
    osType := row.endpoint.row.osType
    osVersion := row.endpoint.row.osVersion
    ipAddress := row.endpoint.row.ipAddress
    agentVersion := row.endpoint.row.agentVersion
    agentBuildId := row.endpoint.row.agentBuildId
    agentArch := row.endpoint.row.agentArch
    capabilityCodes := row.endpoint.row.capabilityCodes
    status := row.endpoint.row.status
    lastSeenAt := row.endpoint.row.lastSeenAt
    isStale := row.endpoint.row.lastSeenAt.any fun lastSeenAt =>
      decide (lastSeenAt < calculatedAt - 7 * dayLength)
    sensorHealth := row.endpoint.row.sensorHealth
    risk := riskDto row calculatedAt
    registeredAt := row.endpoint.row.registeredAt }

/-! ## The alerts and the incidents of an endpoint -/

section

variable {ops} {filters : RiskFilters ops} {db : RiskTables} {e : Endpoint}

/-- The active alerts of an endpoint. -/
def alertsOf (db : RiskTables) (endpointId : Nat) : List AlertRecord :=
  (activeAlerts db).filter fun a => decide (a.row.endpointId = endpointId)

/-- The open incidents of an endpoint. -/
def incidentsOf (db : RiskTables) (endpointId : Nat) : List IncidentRecord :=
  (openIncidents db).filter fun i => decide (i.key.endpointId = endpointId)

theorem filter_ofCandidates {α : Type*} (rows : List α) (id : α → Nat) {candidates : List Endpoint}
    (he : e ∈ candidates) :
    (rows.filter fun x => ofCandidates candidates (id x)).filter
      (fun x => decide (id x = e.endpointId)) =
        rows.filter fun x => decide (id x = e.endpointId) := by
  rw [filter_filter]
  refine filter_congr fun x _ => ?_
  by_cases hx : id x = e.endpointId
  · rw [hx, ofCandidates, any_eq_true.2 ⟨e, he, decide_eq_true rfl⟩, Bool.and_true]
  · rw [decide_eq_false hx, Bool.false_and]

theorem filter_candidateAlerts (he : e ∈ candidateEndpoints ops filters db) :
    (candidateAlerts ops filters db).filter (fun a => decide (a.row.endpointId = e.endpointId)) =
      alertsOf db e.endpointId :=
  filter_ofCandidates (activeAlerts db) (·.row.endpointId) he

theorem filter_candidateIncidents (he : e ∈ candidateEndpoints ops filters db) :
    (candidateIncidents ops filters db).filter (fun i => decide (i.key.endpointId = e.endpointId)) =
      incidentsOf db e.endpointId :=
  filter_ofCandidates (openIncidents db) (·.key.endpointId) he

theorem nodup_alertsOf (db : RiskTables) (endpointId : Nat) :
    ((alertsOf db endpointId).map AlertRecord.alertId).Nodup := by
  refine .sublist ((filter_sublist.trans filter_sublist).map _) ?_
  rw [map_map]
  exact db.alerts.nodup_ids

theorem nodup_incidentsOf (db : RiskTables) (endpointId : Nat) :
    ((incidentsOf db endpointId).map IncidentRecord.incidentId).Nodup := by
  refine .sublist ((filter_sublist.trans filter_sublist).map _) ?_
  rw [map_map]
  exact db.incidents.nodup_ids

def AlertRecord.input (a : AlertRecord) : AlertRiskInput := a.item.input

def IncidentRecord.input (i : IncidentRecord) : IncidentRiskInput := i.item.input

theorem nodup_inputs (db : RiskTables) (endpointId : Nat) :
    (((alertsOf db endpointId).map AlertRecord.input).map (·.alertId)).Nodup := by
  rw [map_map]
  exact nodup_alertsOf db endpointId

def AlertRecord.rule (a : AlertRecord) : String × Nat := (a.key.ruleCode, a.key.ruleVersion)

/-- The first active alert of each rule. -/
abbrev ruleAlerts (db : RiskTables) (endpointId : Nat) : List AlertRecord :=
  leaders alertOrder AlertRecord.rule (alertsOf db endpointId)

/-- The alerts that the page selects. -/
def topAlerts (db : RiskTables) (endpointId : Nat) : List AlertRecord :=
  top alertOrder 3 (ruleAlerts db endpointId)

/-- The incidents that the page selects. -/
def topIncidents (db : RiskTables) (endpointId : Nat) : List IncidentRecord :=
  top incidentOrder 2 (incidentsOf db endpointId)

theorem selectedAlerts_alertsOf (db : RiskTables) (endpointId : Nat) :
    selectedAlerts ((alertsOf db endpointId).map AlertRecord.input) =
      (topAlerts db endpointId).map AlertRecord.input := by
  rw [selectedAlerts_eq (nodup_inputs db endpointId), topAlerts,
    leaders_map (r := alertOrder) (g := AlertRecord.rule) AlertRecord.input
      (fun _ _ => Iff.rfl) fun _ _ => Iff.rfl,
    top_map (r := alertOrder) AlertRecord.input fun _ _ => Iff.rfl]

/-! ## What SQL computes -/

theorem map_grouped_getD {α β γ : Type*} {rows : List α} {f : List α → β} {g : β → γ} {d : γ}
    (h : g (f []) = d) : ((grouped rows f).map g).getD d = g (f rows) := by
  cases rows with
  | nil => exact h.symm
  | cons a rows => rfl

theorem bind_grouped {α β γ : Type*} {rows : List α} {f : List α → β} {g : β → Option γ}
    (h : g (f []) = none) : (grouped rows f).bind g = g (f rows) := by
  cases rows with
  | nil => exact h.symm
  | cons a rows => rfl

theorem filter_representativeAlerts (he : e ∈ candidateEndpoints ops filters db) :
    (representativeAlerts ops filters db).filter
        (fun x => decide (x.1.row.endpointId = e.endpointId)) =
      (ruleAlerts db e.endpointId).map fun a =>
        (a, rank alertOrder (ruleAlerts db e.endpointId) a + 1) := by
  have hleaders : (leaders alertOrder
        (fun a => (a.row.endpointId, a.key.ruleCode, a.key.ruleVersion))
        (candidateAlerts ops filters db)).filter (fun a => decide (a.row.endpointId = e.endpointId)) =
      ruleAlerts db e.endpointId := by
    rw [ruleAlerts, ← filter_candidateAlerts he]
    exact leaders_filter (fun a : AlertRecord => a.row.endpointId) e.endpointId
  rw [representativeAlerts, leaders_eq_numbered,
    numbered_filter (g := fun a : AlertRecord => a.row.endpointId) e.endpointId, hleaders]

theorem sum_contribution (l : List AlertRecord) :
    (l.zipIdx.map fun p => contribution p.1.row.riskScore (p.2 + 1)).sum =
      (((l.take 3).zip [1, 25 / 100, 10 / 100]).map fun p =>
        round (p.1.row.riskScore * p.2)).sum := by
  have hzero (l : List AlertRecord) (n : Nat) :
      ((l.zipIdx (n + 3)).map fun p => contribution p.1.row.riskScore (p.2 + 1)).sum = 0 := by
    refine sum_eq_zero fun c hc => ?_
    obtain ⟨p, hp, rfl⟩ := mem_map.1 hc
    obtain ⟨d, hd⟩ := Nat.exists_eq_add_of_le (le_snd_of_mem_zipIdx hp)
    have hrank : p.2 + 1 = n + d + 4 := by omega
    rw [hrank]
    rfl
  match l with
  | [] => rfl
  | [a] => simp [contribution]
  | [a, b] => simp [contribution]
  | a :: b :: c :: rest =>
    have hrest := hzero rest 0
    simp only [zipIdx_cons, map_cons, sum_cons, Nat.zero_add, Nat.reduceAdd] at hrest ⊢
    rw [hrest]
    simp [contribution]

theorem alertContribution_eq {q w : Rat} (hq : HasDecimals 2 q) (h₀ : 0 ≤ q) (h : q ≤ 100)
    (hw : HasDecimals 2 w) (hw₀ : 0 ≤ w) (hw₁ : w ≤ 1) : alertContribution q w = round (q * w) := by
  obtain ⟨z, hz⟩ := hq
  obtain ⟨y, hy⟩ := hw
  have hdecimals : HasDecimals 4 (q * w) := by
    refine ⟨z * y, ?_⟩
    push_cast
    rw [← hz, ← hy]
    ring
  have hlt : |q * w| < 10 ^ 3 := by
    rw [abs_of_nonneg (mul_nonneg h₀ hw₀)]
    calc q * w ≤ 100 * 1 := mul_le_mul h hw₁ hw₀ (by norm_num)
      _ < 10 ^ 3 := by norm_num
  rw [alertContribution, times, roundDigits_eq hdecimals hlt (by decide)]
  rfl

/-- `risk_score NUMERIC(5,2) .. CHECK (risk_score >= 0 AND risk_score <= 100)`. -/
def RiskTables.Scored (db : RiskTables) : Prop :=
  ∀ k id row, db.alerts.get? k = some (id, row) →
    0 ≤ row.riskScore ∧ row.riskScore ≤ 100 ∧ HasDecimals 2 row.riskScore

theorem RiskTables.Scored.alertsOf (h : db.Scored) {endpointId : Nat} {a : AlertRecord}
    (ha : a ∈ Risk.alertsOf db endpointId) :
    0 ≤ a.row.riskScore ∧ a.row.riskScore ≤ 100 ∧ HasDecimals 2 a.row.riskScore := by
  obtain ⟨hactive, -⟩ := mem_filter.1 ha
  obtain ⟨hrow, -⟩ := mem_filter.1 hactive
  obtain ⟨x, hx, rfl⟩ := mem_map.1 hrow
  exact h x.1 x.2.1 x.2.2 (Table.mem_rows.1 hx)

theorem topAlerts_subset (endpointId : Nat) : topAlerts db endpointId ⊆ alertsOf db endpointId :=
  List.Subset.trans (top_subset 3) leaders_subset

theorem sum_topAlerts (h : db.Scored) (endpointId : Nat) :
    (((topAlerts db endpointId).zip [1, 25 / 100, 10 / 100]).map fun p =>
      round (p.1.row.riskScore * p.2)).sum =
      alertSum ((topAlerts db endpointId).map AlertRecord.input) := by
  have hweights : alertWeights.map (fun w => w.2.1) = [1, 25 / 100, 10 / 100] := by
    norm_num [alertWeights]
  have hround {a : AlertRecord} {w : String × Rat × String} (ha : a ∈ topAlerts db endpointId)
      (hw : w ∈ alertWeights) :
      alertContribution a.input.riskScore w.2.1 = round (a.row.riskScore * w.2.1) := by
    obtain ⟨h₀, h₁, hdecimals⟩ := h.alertsOf (topAlerts_subset endpointId ha)
    simp only [alertWeights, mem_cons, not_mem_nil, or_false] at hw
    rcases hw with rfl | rfl | rfl
    · exact alertContribution_eq hdecimals h₀ h₁ ⟨100, by norm_num⟩ (by norm_num) (by norm_num)
    · exact alertContribution_eq hdecimals h₀ h₁ ⟨25, by norm_num⟩ (by norm_num) (by norm_num)
    · exact alertContribution_eq hdecimals h₀ h₁ ⟨10, by norm_num⟩ (by norm_num) (by norm_num)
  rw [alertSum, ← hweights, zip_map_right, zip_map_left, map_map, map_map]
  refine congrArg sum (map_congr_left fun p hp => ?_)
  exact (hround (of_mem_zip hp).1 (of_mem_zip hp).2).symm

theorem alertRisk_eq (h : db.Scored) (he : e ∈ candidateEndpoints ops filters db) :
    ((alertRisk ops filters db e.endpointId).map Prod.fst).getD [] =
        (topAlerts db e.endpointId).map AlertRecord.item ∧
      ((alertRisk ops filters db e.endpointId).map Prod.snd).getD 0 =
        alertSum ((topAlerts db e.endpointId).map AlertRecord.input) := by
  have hids := nodup_alertsOf db e.endpointId
  have hanti := (antisymmOn_of_ids hids : AntisymmOn alertOrder _).subset
    (leaders_subset (r := alertOrder) (g := AlertRecord.rule))
  have hnodup : (ruleAlerts db e.endpointId).Nodup := nodup_leaders hids.of_map
  rw [alertRisk, filter_representativeAlerts he]
  constructor
  · refine (map_grouped_getD rfl).trans ?_
    exact congrArg (map AlertRecord.item) (firstRows_numbered hnodup hanti 3)
  · refine (map_grouped_getD rfl).trans ?_
    rw [map_map, ← sum_topAlerts h]
    exact (sum_rank hnodup hanti fun n a => contribution a.row.riskScore (n + 1)).trans
      (sum_contribution _)

theorem incidentRisk_eq (he : e ∈ candidateEndpoints ops filters db) :
    ((incidentRisk ops filters db e.endpointId).map Prod.fst).getD [] =
        (topIncidents db e.endpointId).map IncidentRecord.item ∧
      ((incidentRisk ops filters db e.endpointId).map Prod.snd).getD 0 =
        (incidentsOf db e.endpointId).length := by
  have hids := nodup_incidentsOf db e.endpointId
  simp only [incidentRisk]
  rw [numbered_filter (g := fun i : IncidentRecord => i.key.endpointId) e.endpointId,
    filter_candidateIncidents he]
  constructor
  · refine (map_grouped_getD rfl).trans ?_
    exact congrArg (map IncidentRecord.item)
      (firstRows_numbered hids.of_map (antisymmOn_of_ids hids) 2)
  · refine (map_grouped_getD rfl).trans ?_
    exact length_map _

theorem alertCounts_eq (he : e ∈ candidateEndpoints ops filters db) :
    ((alertCounts ops filters db e.endpointId).map Prod.fst).getD 0 =
        (alertsOf db e.endpointId).length ∧
      (alertCounts ops filters db e.endpointId).bind Prod.snd =
        ((alertsOf db e.endpointId).map fun a => a.row.riskScore).max? := by
  rw [alertCounts, filter_candidateAlerts he]
  exact ⟨map_grouped_getD rfl, bind_grouped rfl⟩

/-- The row of an endpoint in the page. -/
def pageRow (db : RiskTables) (e : Endpoint) : RiskRow where
  endpoint := e
  activeAlerts := (topAlerts db e.endpointId).map AlertRecord.item
  openIncidents := (topIncidents db e.endpointId).map IncidentRecord.item
  activeAlertCount := some (alertsOf db e.endpointId).length
  openIncidentCount := some (incidentsOf db e.endpointId).length
  highestAlertRiskScore := some ((alertsOf db e.endpointId).map fun a => a.row.riskScore).max?
  calculatedRiskScore := some (min 100
    (alertSum ((topAlerts db e.endpointId).map AlertRecord.input) +
      10 * min (incidentsOf db e.endpointId).length 2))

/-- The row of an endpoint in the snapshot. -/
def snapshotRow (db : RiskTables) (e : Endpoint) : RiskRow where
  endpoint := e
  activeAlerts := ((alertsOf db e.endpointId).insertionSort alertOrder).map AlertRecord.item
  openIncidents := ((incidentsOf db e.endpointId).insertionSort recentOrder).map IncidentRecord.item
  activeAlertCount := none
  openIncidentCount := none
  highestAlertRiskScore := none
  calculatedRiskScore := none

theorem scoredEndpoints_eq (h : db.Scored) :
    scoredEndpoints ops filters db = (candidateEndpoints ops filters db).map (pageRow db) := by
  refine map_congr_left fun e he => ?_
  obtain ⟨halerts, hsum⟩ := alertRisk_eq h he
  obtain ⟨hincidents, hcount⟩ := incidentRisk_eq he
  obtain ⟨hlength, hmax⟩ := alertCounts_eq he
  simp only [halerts, hsum, hincidents, hcount, hlength, hmax, pageRow, Nat.mul_comm _ 10]
  push_cast
  rfl

theorem riskSnapshot_eq :
    riskSnapshot ops filters db = (candidateEndpoints ops filters db).map (snapshotRow db) := by
  refine map_congr_left fun e he => ?_
  simp only [filter_candidateAlerts he, filter_candidateIncidents he, snapshotRow]

/-! ## The page and the snapshot -/

theorem riskCondition_iff (level : RiskLevel) (score : Int) :
    riskCondition (some level) score = true ↔ riskLevel score = level := by
  unfold riskLevel
  cases level <;> simp only [riskCondition, decide_eq_true_eq] <;> split_ifs <;> simp <;> omega

theorem score_alertsOf (h : db.Scored) {alerts : List AlertRiskInput}
    {incidents : List IncidentRiskInput}
    (halerts : alerts.Perm ((alertsOf db e.endpointId).map AlertRecord.input))
    (hincidents : incidents.Perm ((incidentsOf db e.endpointId).map IncidentRecord.input))
    (calculatedAt : Time) :
    (calculateEndpointRisk alerts incidents calculatedAt).score =
      min 100 (alertSum ((topAlerts db e.endpointId).map AlertRecord.input) +
        10 * min (incidentsOf db e.endpointId).length 2) := by
  have hids := (halerts.map (·.alertId)).nodup_iff.2 (nodup_inputs db e.endpointId)
  rw [score_eq hids, selectedAlerts_perm hids halerts, selectedAlerts_alertsOf,
    hincidents.length_eq, length_map]
  intro a ha
  obtain ⟨x, hx, rfl⟩ := mem_map.1 (halerts.mem_iff.1 ha)
  exact (h.alertsOf hx).1

theorem snapshot_alerts (db : RiskTables) (e : Endpoint) :
    ((snapshotRow db e).activeAlerts.map AlertItem.input).Perm
      ((alertsOf db e.endpointId).map AlertRecord.input) := by
  rw [snapshotRow, map_map]
  exact (perm_insertionSort _ _).map _

theorem snapshot_incidents (db : RiskTables) (e : Endpoint) :
    ((snapshotRow db e).openIncidents.map IncidentItem.input).Perm
      ((incidentsOf db e.endpointId).map IncidentRecord.input) := by
  rw [snapshotRow, map_map]
  exact (perm_insertionSort _ _).map _

theorem selectedAlerts_page (db : RiskTables) (e : Endpoint) :
    selectedAlerts ((pageRow db e).activeAlerts.map AlertItem.input) =
      selectedAlerts ((snapshotRow db e).activeAlerts.map AlertItem.input) := by
  have hids := nodup_inputs db e.endpointId
  have hpage : (pageRow db e).activeAlerts.map AlertItem.input =
      selectedAlerts ((alertsOf db e.endpointId).map AlertRecord.input) := by
    rw [selectedAlerts_alertsOf, pageRow, map_map]
    rfl
  rw [hpage, selectedAlerts_selectedAlerts hids,
    selectedAlerts_perm hids (snapshot_alerts db e).symm]

theorem selectedIncidents_page (db : RiskTables) (e : Endpoint) :
    selectedIncidents ((pageRow db e).openIncidents.map IncidentItem.input) =
      selectedIncidents ((snapshotRow db e).openIncidents.map IncidentItem.input) := by
  have hids : (((incidentsOf db e.endpointId).map IncidentRecord.input).map
      (·.incidentId)).Nodup := by
    rw [map_map]
    exact nodup_incidentsOf db e.endpointId
  have hpage : (pageRow db e).openIncidents.map IncidentItem.input =
      selectedIncidents ((incidentsOf db e.endpointId).map IncidentRecord.input) := by
    rw [pageRow, map_map]
    exact (top_map (r := incidentOrder) IncidentRecord.input (fun _ _ => .rfl) 2).symm
  rw [hpage, ← selectedIncidents_perm hids (snapshot_incidents db e).symm]
  exact top_top 2 _

theorem riskDto_eq (e : Endpoint) (calculatedAt : Time) :
    riskDto (pageRow db e) calculatedAt = riskDto (snapshotRow db e) calculatedAt := by
  have hmax : ((alertsOf db e.endpointId).map fun a => a.row.riskScore).max? =
      (((snapshotRow db e).activeAlerts.map AlertItem.input).map (·.riskScore)).max? := by
    rw [max?_perm ((snapshot_alerts db e).map _), map_map]
    rfl
  have hcount : (alertsOf db e.endpointId).length =
      ((snapshotRow db e).activeAlerts.map AlertItem.input).length := by
    rw [(snapshot_alerts db e).length_eq, length_map]
  have hcount' : (incidentsOf db e.endpointId).length =
      ((snapshotRow db e).openIncidents.map IncidentItem.input).length := by
    rw [(snapshot_incidents db e).length_eq, length_map]
  simp only [riskDto, calculateEndpointRisk_eq, selectedAlerts_page, selectedIncidents_page,
    ← hcount, ← hcount', ← hmax]
  rfl

theorem endpointDto_eq (e : Endpoint) (calculatedAt : Time) :
    endpointDto (pageRow db e) calculatedAt = endpointDto (snapshotRow db e) calculatedAt := by
  unfold endpointDto
  rw [riskDto_eq]
  rfl

/-- Every endpoint that the queries select has a row in each of them, whatever its active alerts and
    its open incidents are. The score of the page is that of the policy on all of these, in any
    order, the two rows give the same DTO, with this score, and the filter keeps the row of the page
    iff the score has the level that is asked for. -/
theorem page_eq_snapshot (h : db.Scored) (he : e ∈ candidateEndpoints ops filters db)
    (calculatedAt : Time) {alerts : List AlertRiskInput} {incidents : List IncidentRiskInput}
    (halerts : alerts.Perm ((alertsOf db e.endpointId).map AlertRecord.input))
    (hincidents : incidents.Perm ((incidentsOf db e.endpointId).map IncidentRecord.input)) :
    let score := (calculateEndpointRisk alerts incidents calculatedAt).score
    ∃ page ∈ scoredEndpoints ops filters db, ∃ snapshot ∈ riskSnapshot ops filters db,
      page.endpoint = e ∧ snapshot.endpoint = e ∧ page.calculatedRiskScore = some score ∧
      endpointDto page calculatedAt = endpointDto snapshot calculatedAt ∧
      (endpointDto page calculatedAt).risk.score = score ∧
      ∀ level, page ∈ matchingRows ops filters (some level) db ↔ riskLevel score = level := by
  intro score
  have hpage : pageRow db e ∈ scoredEndpoints ops filters db := by
    rw [scoredEndpoints_eq h]
    exact mem_map_of_mem he
  have hsnapshot : snapshotRow db e ∈ riskSnapshot ops filters db := by
    rw [riskSnapshot_eq]
    exact mem_map_of_mem he
  have hscore : score = _ := score_alertsOf h halerts hincidents calculatedAt
  refine ⟨_, hpage, _, hsnapshot, rfl, rfl, congrArg some hscore.symm, endpointDto_eq e calculatedAt,
    ?_, fun level => ?_⟩
  · rw [hscore, endpointDto_eq]
    exact score_alertsOf h (snapshot_alerts db e) (snapshot_incidents db e) calculatedAt
  · rw [matchingRows, mem_filter, hscore]
    exact (and_iff_right hpage).trans (riskCondition_iff level _)

def sampleEndpoint : EndpointRow where
  hostname := "host"
  osType := .windows
  osVersion := none
  ipAddress := none
  agentVersion := none
  agentBuildId := none
  agentArch := none
  capabilityCodes := []
  sensorHealth := []
  registeredAt := 0
  status := .online
  lastSeenAt := none
  createdAt := 0
  updatedAt := 0
  isDelete := false

def sampleAlert (riskScore : Rat) : AlertRow where
  endpointId := 1
  eventOccurredAt := 0
  batchId := none
  agentId := "agent"
  ruleName := "rule"
  mitreTacticCode := "TA0002"
  mitreTacticName := "Execution"
  mitreTechniqueCode := "T1059"
  mitreTechniqueName := "Command and Scripting Interpreter"
  title := "alert"
  summary := ""
  severity := .high
  riskScore := riskScore
  status := .open_
  detectedAt := 0
  createdAt := 0
  updatedAt := 0
  isDelete := false

def sampleIncident : IncidentRow where
  windowEndAt := 10
  title := "incident"
  description := none
  severity := .high
  status := .open_
  statusOverridden := false
  firstDetectedAt := 0
  lastDetectedAt := 0
  closedAt := none
  createdAt := 0
  updatedAt := 0
  isDelete := false

def sampleTables : RiskTables where
  endpoints := Serial.empty.insert "agent" sampleEndpoint
  alerts := (Serial.empty.insert ⟨1, "rule", 1⟩ (sampleAlert (145 / 2))).insert ⟨2, "rule", 1⟩
    (sampleAlert 30)
  incidents := Serial.empty.insert ⟨1, "key", 0⟩ sampleIncident

def sampleOps : SearchOps := ⟨fun _ => none, id, id⟩

theorem sampleTables_scored : sampleTables.Scored := by
  have h : ∀ x ∈ sampleTables.alerts.table.rows, 0 ≤ x.2.2.riskScore ∧ x.2.2.riskScore ≤ 100 ∧
      HasDecimals 2 x.2.2.riskScore := by decide +kernel
  exact fun k id row hrow => h (k, id, row) (Table.mem_rows.2 hrow)

/-- One of the two alerts represents their rule, with 73, and the incident adds 10. -/
theorem page_eq_snapshot_sample : ∃ page ∈ scoredEndpoints sampleOps {} sampleTables,
    ∃ snapshot ∈ riskSnapshot sampleOps {} sampleTables, page.calculatedRiskScore = some 83 ∧
      endpointDto page 20 = endpointDto snapshot 20 ∧
      page ∈ matchingRows sampleOps {} (some .critical) sampleTables := by
  have he : (⟨"agent", 1, sampleEndpoint⟩ : Endpoint) ∈
      candidateEndpoints sampleOps {} sampleTables := by decide +kernel
  obtain ⟨page, hpage, snapshot, hsnapshot, -, -, hscore, hdto, -, hlevel⟩ :=
    page_eq_snapshot sampleTables_scored he 20 (List.Perm.refl _) (List.Perm.refl _)
  have h83 : (calculateEndpointRisk
      ((alertsOf sampleTables 1).map AlertRecord.input)
      ((incidentsOf sampleTables 1).map IncidentRecord.input) 20).score = 83 := by decide +kernel
  refine ⟨page, hpage, snapshot, hsnapshot, hscore.trans (congrArg some h83), hdto,
    (hlevel _).2 ?_⟩
  exact (congrArg riskLevel h83).trans (by decide)

end

end Risk

end Edr
