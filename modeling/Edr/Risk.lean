import Edr.Detection
import Edr.Lib.Decimal
import Edr.Lib.Ranking

/-!
# The risk of an endpoint

`calculate_endpoint_risk` gives an endpoint a score from 0 to 100. The alerts of one rule version
count as one: the loop keeps a representative of each. The first three representatives and the first
two incidents are the factors, in this order, until 100 is reached.
-/

namespace Edr

open List

open Detection Paging Ranking Decimal

/-- The levels of a score. -/
inductive RiskLevel
  | low
  | medium
  | high
  | critical
  deriving DecidableEq

inductive EndpointRiskFactorSourceType
  | alert
  | incident
  deriving DecidableEq

/-- An active alert, as the policy reads it. -/
structure AlertRiskInput where
  alertId : Nat
  ruleCode : String
  ruleVersion : Nat
  riskScore : Rat
  detectedAt : Time
  title : String

/-- An open incident, as the policy reads it. -/
structure IncidentRiskInput where
  incidentId : Nat
  title : String
  severity : Severity
  lastDetectedAt : Time

/-- A part of the score, with the alert or the incident that it comes from. -/
structure RiskFactor where
  code : String
  title : String
  description : String
  contribution : Int
  sourceType : EndpointRiskFactorSourceType
  sourceId : Nat

/-- The result of `calculate_endpoint_risk`. -/
structure EndpointRiskResult where
  score : Int
  level : RiskLevel
  activeAlertCount : Nat
  openIncidentCount : Nat
  highestAlertRiskScore : Option Rat
  calculatedAt : Time
  riskFactors : List RiskFactor

namespace Risk

/-! ## The policy -/

/-- `_round_half_up`, which rounds halves away from 0. -/
def roundHalfUp (value : Rat) : Int := roundHalfAway value

/-- The product of two decimals, in the precision of 28 digits. -/
def times (a b : Rat) : Rat := roundDigits 28 (a * b)

/-- `risk_level`. -/
def riskLevel (score : Int) : RiskLevel :=
  if 80 ≤ score then .critical
  else if 50 ≤ score then .high
  else if 25 ≤ score then .medium
  else .low

def riskKey (riskScore : Rat) (detectedAt : Time) (alertId : Nat) : Rat ×ₗ Time ×ₗ Nat :=
  toLex (riskScore, toLex (detectedAt, alertId))

/-- The order of the alerts: the higher score first, then the later alert. -/
abbrev byRisk : AlertRiskInput → AlertRiskInput → Prop :=
  descending fun alert => riskKey alert.riskScore alert.detectedAt alert.alertId

/-- The rule version of an alert. -/
def ruleKey (alert : AlertRiskInput) : String × Nat := (alert.ruleCode, alert.ruleVersion)

/-- `representatives`, after the loop over the alerts. -/
def representatives (activeAlerts : List AlertRiskInput) : Table (String × Nat) AlertRiskInput :=
  best byRisk ruleKey activeAlerts

/-- `selected_alerts`: the first three representatives. -/
def selectedAlerts (activeAlerts : List AlertRiskInput) : List AlertRiskInput :=
  (((representatives activeAlerts).rows.map Prod.snd).insertionSort byRisk).take 3

/-- `ALERT_WEIGHTS`: the code, the weight and the label of each place. -/
def alertWeights : List (String × Rat × String) := [
  ("ALERT_PRIMARY", 1, "100%"),
  ("ALERT_SECONDARY", 1 / 4, "25%"),
  ("ALERT_TERTIARY", 1 / 10, "10%")]

def alertContribution (riskScore weight : Rat) : Int := roundHalfUp (times riskScore weight)

/-- The factor of an alert at its place, if it contributes anything. -/
def alertFactor : AlertRiskInput × String × Rat × String → Option RiskFactor
  | (alert, code, weight, label) =>
    let contribution := alertContribution alert.riskScore weight
    let ruleCode := alert.ruleCode
    let ruleVersion := alert.ruleVersion
    if contribution ≠ 0 then
      some {
        code
        title := alert.title
        description := s!"ruleCode={ruleCode}, ruleVersion={ruleVersion}, weight={label}"
        contribution
        sourceType := .alert
        sourceId := alert.alertId }
    else none

def severityRank : Severity → Nat
  | .low => 0
  | .medium => 1
  | .high => 2
  | .critical => 3

def incidentKey (severity : Severity) (lastDetectedAt : Time) (incidentId : Nat) :
    Nat ×ₗ Time ×ₗ Nat :=
  toLex (severityRank severity, toLex (lastDetectedAt, incidentId))

/-- The order of the incidents: the more severe first, then the later one. -/
abbrev bySeverity : IncidentRiskInput → IncidentRiskInput → Prop :=
  descending fun incident =>
    incidentKey incident.severity incident.lastDetectedAt incident.incidentId

/-- `selected_incidents`: the first two. -/
def selectedIncidents (openIncidents : List IncidentRiskInput) : List IncidentRiskInput :=
  (openIncidents.insertionSort bySeverity).take 2

def incidentFactor (incident : IncidentRiskInput) : RiskFactor where
  code := "OPEN_INCIDENT"
  title := incident.title
  description := "OPEN correlation Incident contribution"
  contribution := 10
  sourceType := .incident
  sourceId := incident.incidentId

/-- The factors before the cap, in their order. -/
def factorCandidates (alerts : List AlertRiskInput) (incidents : List IncidentRiskInput) :
    List RiskFactor :=
  (alerts.zip alertWeights).filterMap alertFactor ++ incidents.map incidentFactor

/-- The loop that adds up the factors, and cuts off what is above 100. -/
def capFactors (score : Int) : List RiskFactor → Int × List RiskFactor
  | [] => (score, [])
  | factor :: rest =>
    let remaining := 100 - score
    if remaining ≤ 0 then (score, [])
    else
      let effective := min factor.contribution remaining
      if effective ≤ 0 then capFactors score rest
      else
        let (total, factors) := capFactors (score + effective) rest
        (total, { factor with contribution := effective } :: factors)

/-- `calculate_endpoint_risk`. -/
def calculateEndpointRisk (activeAlerts : List AlertRiskInput)
    (openIncidents : List IncidentRiskInput) (calculatedAt : Time) : EndpointRiskResult :=
  let candidates := factorCandidates (selectedAlerts activeAlerts) (selectedIncidents openIncidents)
  let (score, factors) := capFactors 0 candidates
  { score
    level := riskLevel score
    activeAlertCount := activeAlerts.length
    openIncidentCount := openIncidents.length
    highestAlertRiskScore := (activeAlerts.map (·.riskScore)).max?
    calculatedAt
    riskFactors := factors }

/-! ## What is selected -/

section

variable {alerts alerts' : List AlertRiskInput} {incidents incidents' : List IncidentRiskInput}

theorem selectedIncidents_perm (h : (incidents.map (·.incidentId)).Nodup)
    (hperm : incidents.Perm incidents') :
    selectedIncidents incidents = selectedIncidents incidents' :=
  top_perm (antisymmOn_of_ids h) hperm 2

section

variable (h : (alerts.map (·.alertId)).Nodup)

include h

theorem antisymmOn_byRisk : AntisymmOn byRisk alerts := antisymmOn_of_ids h

/-- The selected alerts are the first leaders of the rule versions. -/
theorem selectedAlerts_eq :
    selectedAlerts alerts = top byRisk 3 (leaders byRisk ruleKey alerts) := by
  have hanti := antisymmOn_byRisk h
  have hperm : ((representatives alerts).rows.map Prod.snd).Perm (leaders byRisk ruleKey alerts) :=
    best_perm h.of_map hanti
  exact top_perm (hanti.subset (List.Subset.trans hperm.subset leaders_subset)) hperm 3

theorem selectedAlerts_perm (hperm : alerts.Perm alerts') :
    selectedAlerts alerts = selectedAlerts alerts' := by
  rw [selectedAlerts_eq h, selectedAlerts_eq ((hperm.map _).nodup_iff.1 h)]
  exact top_perm ((antisymmOn_byRisk h).subset leaders_subset) (leaders_perm hperm) 3

theorem selectedAlerts_subset : selectedAlerts alerts ⊆ alerts := by
  rw [selectedAlerts_eq h]
  exact List.Subset.trans (top_subset 3) leaders_subset

theorem nodup_selectedAlerts : ((selectedAlerts alerts).map (·.alertId)).Nodup := by
  have hsub := selectedAlerts_subset h
  refine .map_on (fun a ha b hb => inj_on_of_nodup_map h (hsub ha) (hsub hb)) ?_
  rw [selectedAlerts_eq h]
  exact (((perm_insertionSort _ _).nodup_iff).2 (nodup_leaders h.of_map)).sublist
    (take_sublist _ _)

theorem selectedAlerts_selectedAlerts :
    selectedAlerts (selectedAlerts alerts) = selectedAlerts alerts := by
  rw [selectedAlerts_eq (nodup_selectedAlerts h), selectedAlerts_eq h]
  exact top_leaders_top (antisymmOn_byRisk h) 3

end

/-! ## The score -/

variable {score : Int} {factors : List RiskFactor}

/-- The loop adds up to the sum of the contributions, or to 100. -/
theorem capFactors_fst (h₀ : 0 ≤ score) (h : score ≤ 100)
    (hfactors : ∀ f ∈ factors, 0 ≤ f.contribution) :
    (capFactors score factors).1 = min 100 (score + (factors.map (·.contribution)).sum) := by
  induction factors generalizing score with
  | nil => simp [capFactors, h]
  | cons factor rest ih =>
    obtain ⟨hfactor, hrest⟩ := forall_mem_cons.1 hfactors
    have hsum : 0 ≤ (rest.map (·.contribution)).sum :=
      sum_nonneg (forall_mem_map.2 hrest)
    simp only [capFactors, map_cons, sum_cons]
    -- The loop is left at 100, and a factor that contributes nothing is skipped.
    split_ifs with hremaining heffective
    · omega
    · rw [ih h₀ h hrest]
      omega
    · rw [ih (by omega) (by omega) hrest]
      omega

theorem capFactors_pos {f : RiskFactor} (hf : f ∈ (capFactors score factors).2) :
    0 < f.contribution := by
  induction factors generalizing score with
  | nil => exact absurd hf not_mem_nil
  | cons factor rest ih =>
    simp only [capFactors] at hf
    split_ifs at hf with hremaining heffective
    · exact absurd hf not_mem_nil
    · exact ih hf
    · rcases mem_cons.1 hf with rfl | hf
      · exact Int.not_le.1 heffective
      · exact ih hf

theorem alertContribution_nonneg {riskScore weight : Rat} (h : 0 ≤ riskScore) (hw : 0 ≤ weight) :
    0 ≤ alertContribution riskScore weight :=
  roundHalfAway_nonneg (roundDigits_nonneg (mul_nonneg h hw))

theorem alertWeights_nonneg {w : String × Rat × String} (hw : w ∈ alertWeights) : 0 ≤ w.2.1 := by
  simp only [alertWeights, mem_cons, not_mem_nil, or_false] at hw
  rcases hw with rfl | rfl | rfl <;> norm_num

theorem sum_filterMap_alertFactor (l : List (AlertRiskInput × String × Rat × String)) :
    ((l.filterMap alertFactor).map (·.contribution)).sum =
      (l.map fun p => alertContribution p.1.riskScore p.2.2.1).sum := by
  induction l with
  | nil => rfl
  | cons p l ih =>
    rw [map_cons, sum_cons, ← ih, filterMap_cons]
    by_cases hzero : alertContribution p.1.riskScore p.2.2.1 = 0
    · simp [alertFactor, hzero]
    · simp [alertFactor, hzero]

/-- What the selected alerts contribute. -/
def alertSum (alerts : List AlertRiskInput) : Int :=
  ((alerts.zip alertWeights).map fun p => alertContribution p.1.riskScore p.2.2.1).sum

theorem sum_factorCandidates :
    ((factorCandidates alerts incidents).map (·.contribution)).sum =
      alertSum alerts + 10 * incidents.length := by
  have hincidents : ((incidents.map incidentFactor).map (·.contribution)).sum =
      10 * (incidents.length : Int) := by
    rw [map_map, sum_eq_card_nsmul _ 10]
    · simp [mul_comm]
    · intro x hx
      obtain ⟨_, _, rfl⟩ := mem_map.1 hx
      rfl
  rw [factorCandidates, map_append, sum_append, sum_filterMap_alertFactor, hincidents]
  rfl

theorem factorCandidates_nonneg (h : ∀ a ∈ alerts, 0 ≤ a.riskScore) {f : RiskFactor}
    (hf : f ∈ factorCandidates alerts incidents) : 0 ≤ f.contribution := by
  rcases mem_append.1 hf with hf | hf
  · obtain ⟨p, hp, hf⟩ := mem_filterMap.1 hf
    rw [alertFactor] at hf
    split_ifs at hf
    cases hf
    exact alertContribution_nonneg (h _ (of_mem_zip hp).1)
      (alertWeights_nonneg (of_mem_zip hp).2)
  · obtain ⟨i, -, rfl⟩ := mem_map.1 hf
    exact (by decide : (0 : Int) ≤ 10)

/-- The score in terms of what is selected. -/
theorem score_eq (hids : (alerts.map (·.alertId)).Nodup) (h : ∀ a ∈ alerts, 0 ≤ a.riskScore)
    (calculatedAt : Time) :
    (calculateEndpointRisk alerts incidents calculatedAt).score =
      min 100 (alertSum (selectedAlerts alerts) + 10 * min incidents.length 2) := by
  have hselected : ∀ a ∈ selectedAlerts alerts, 0 ≤ a.riskScore :=
    fun a ha => h a (selectedAlerts_subset hids ha)
  have hcount : (selectedIncidents incidents).length = min incidents.length 2 := by
    rw [selectedIncidents, length_take, length_insertionSort, Nat.min_comm]
  show (capFactors 0 _).1 = _
  rw [capFactors_fst le_rfl (by decide) fun f hf => factorCandidates_nonneg hselected hf,
    sum_factorCandidates, hcount, zero_add]

end

theorem max?_perm {l l' : List Rat} (h : l.Perm l') : l.max? = l'.max? := by
  rw [Option.ext_iff]
  intro a
  rw [max?_eq_some_iff, max?_eq_some_iff, h.mem_iff]
  exact and_congr_right fun _ => ⟨fun hall b hb => hall b (h.mem_iff.2 hb),
    fun hall b hb => hall b (h.mem_iff.1 hb)⟩

/-- The factors depend only on what is selected of the alerts and the incidents. -/
theorem calculateEndpointRisk_eq (alerts : List AlertRiskInput) (incidents : List IncidentRiskInput)
    (calculatedAt : Time) : calculateEndpointRisk alerts incidents calculatedAt =
      let capped := capFactors 0
        (factorCandidates (selectedAlerts alerts) (selectedIncidents incidents))
      ⟨capped.1, riskLevel capped.1, alerts.length, incidents.length,
        (alerts.map (·.riskScore)).max?, calculatedAt, capped.2⟩ := rfl

end Risk

end Edr
