import Edr.Risk.Policy

/-!
# The state of the fleet

`calculate_edr_state` colours the fleet on two axes. The threat level comes from the risks of the
endpoints, through `summarize_endpoint_risks`: the highest score, and how many endpoints are at the
levels `HIGH` and `CRITICAL`, each number with a bound of its own. The collection health comes from
the endpoints, the sensors and the failures. The state is the worse of the two.
-/

namespace Edr

open List Nat

open Decimal

/-- The colours of the state. -/
inductive EdrStateStatus
  | green
  | yellow
  | red
  deriving DecidableEq

inductive EdrStateReasonCode
  | mediumEndpointRisk
  | highEndpointRisk
  | criticalEndpointRisk
  | openIncident
  | criticalAlert
  | offlineEndpoint
  | staleEndpoint
  | degradedSensor
  | unavailableSensor
  | ingestFailure
  | ingestDelayed
  | storageFailure
  deriving DecidableEq

/-- The result of `summarize_endpoint_risks`. -/
structure EndpointRiskSummary where
  highestScore : Option Int
  highRiskEndpointCount : Nat
  criticalRiskEndpointCount : Nat
  byLevel : List (RiskLevel × Nat)
  calculatedAt : Time

/-- What the threat level is calculated from. -/
structure ThreatLevelInput where
  highestEndpointRiskScore : Option Int
  highRiskEndpointCount : Nat
  criticalRiskEndpointCount : Nat
  openIncidentCount : Nat
  criticalOpenAlertCount : Nat

/-- The highest score, which is 0 if there is no endpoint. -/
abbrev ThreatLevelInput.highest (input : ThreatLevelInput) : Int :=
  input.highestEndpointRiskScore.getD 0

/-- What the collection health is calculated from. -/
structure CollectionHealthInput where
  staleCount : Nat
  offlineNonStaleCount : Nat
  degradedSensorCount : Nat
  unavailableSensorCount : Nat
  nonRetiredEndpointCount : Nat
  latestIngestedAt : Option Time
  failedCount15m : Nat
  reprocessFailedCount15m : Nat
  restoreFailedBucketCount : Nat

/-- Everything that counts against the collection is at least as much. -/
structure CollectionHealthInput.Le (input input' : CollectionHealthInput) : Prop where
  staleCount : input.staleCount ≤ input'.staleCount
  offlineNonStaleCount : input.offlineNonStaleCount ≤ input'.offlineNonStaleCount
  degradedSensorCount : input.degradedSensorCount ≤ input'.degradedSensorCount
  unavailableSensorCount : input.unavailableSensorCount ≤ input'.unavailableSensorCount
  nonRetiredEndpointCount : input.nonRetiredEndpointCount ≤ input'.nonRetiredEndpointCount
  latestIngestedAt : input.latestIngestedAt = input'.latestIngestedAt
  failedCount15m : input.failedCount15m ≤ input'.failedCount15m
  reprocessFailedCount15m : input.reprocessFailedCount15m ≤ input'.reprocessFailedCount15m
  restoreFailedBucketCount : input.restoreFailedBucketCount ≤ input'.restoreFailedBucketCount

/-- The result for one of the two axes. -/
structure EdrStateAxisResult where
  status : EdrStateStatus
  score : Int
  reasonCodes : List EdrStateReasonCode

/-- The result of `calculate_edr_state`. -/
structure EdrStateResult where
  status : EdrStateStatus
  score : Int
  threatLevel : EdrStateAxisResult
  collectionHealth : EdrStateAxisResult
  highestEndpointRiskScore : Option Int
  highRiskEndpointCount : Nat
  criticalRiskEndpointCount : Nat
  reasonCodes : List EdrStateReasonCode
  calculatedAt : Time

namespace Risk

/-- The number of the endpoints at a level. -/
def levelCount (level : RiskLevel) (risks : List EndpointRiskResult) : Nat :=
  risks.countP fun risk => decide (risk.level = level)

/-- `summarize_endpoint_risks`. -/
def summarizeEndpointRisks (risks : List EndpointRiskResult) (calculatedAt : Time) :
    EndpointRiskSummary where
  highestScore := (risks.map (·.score)).max?
  highRiskEndpointCount := levelCount .high risks
  criticalRiskEndpointCount := levelCount .critical risks
  byLevel := ([.low, .medium, .high, .critical].map fun level =>
    (level, levelCount level risks)).filter fun x => decide (0 < x.2)
  calculatedAt

def statusOf (red yellow score : Int) : EdrStateStatus :=
  if red ≤ score then .red else if yellow ≤ score then .yellow else .green

def threatStatus (score : Int) : EdrStateStatus := statusOf 60 25 score

def collectionStatus (score : Int) : EdrStateStatus := statusOf 50 20 score

def reason (condition : Bool) (code : EdrStateReasonCode) : List EdrStateReasonCode :=
  if condition then [code] else []

def cappedCount (count weight bound : Nat) : Nat := min (count * weight) bound

/-- `raw`, of `calculate_threat_level`. -/
def threatRaw (input : ThreatLevelInput) : Rat :=
  times (input.highestEndpointRiskScore.getD 0) (7 / 10) +
    cappedCount input.highRiskEndpointCount 3 15 +
    cappedCount input.criticalRiskEndpointCount 10 20 +
    cappedCount input.openIncidentCount 3 15 +
    cappedCount input.criticalOpenAlertCount 5 20

/-- `calculate_threat_level`. -/
def calculateThreatLevel (input : ThreatLevelInput) : EdrStateAxisResult :=
  let highest := input.highestEndpointRiskScore.getD 0
  let score := roundHalfUp (min (threatRaw input) 100)
  { status := threatStatus score
    score
    reasonCodes :=
      reason (riskLevel highest = .medium) .mediumEndpointRisk ++
      reason (0 < input.highRiskEndpointCount) .highEndpointRisk ++
      reason (0 < input.criticalRiskEndpointCount) .criticalEndpointRisk ++
      reason (0 < input.openIncidentCount) .openIncident ++
      reason (0 < input.criticalOpenAlertCount) .criticalAlert }

def minutes (n : Int) : Time := n * 60000

/-- `_ingest_delay_contribution`. -/
def ingestDelayContribution (input : CollectionHealthInput) (calculatedAt : Time) : Nat :=
  if input.nonRetiredEndpointCount = 0 then 0
  else
    match input.latestIngestedAt with
    | none => 40
    | some latestIngestedAt =>
      let delay := calculatedAt - latestIngestedAt
      if delay ≤ minutes 2 then 0
      else if delay ≤ minutes 5 then 10
      else if delay ≤ minutes 15 then 25
      else 40

/-- `contributions`, of `calculate_collection_health`. -/
def collectionContributions (input : CollectionHealthInput) (calculatedAt : Time) : List Nat := [
  cappedCount input.staleCount 35 70,
  cappedCount input.offlineNonStaleCount 20 40,
  cappedCount input.degradedSensorCount 10 20,
  cappedCount input.unavailableSensorCount 25 50,
  ingestDelayContribution input calculatedAt,
  cappedCount input.failedCount15m 5 20,
  cappedCount input.reprocessFailedCount15m 10 20,
  cappedCount input.restoreFailedBucketCount 20 40]

/-- `calculate_collection_health`. -/
def calculateCollectionHealth (input : CollectionHealthInput) (calculatedAt : Time) :
    EdrStateAxisResult :=
  let score : Int := min (collectionContributions input calculatedAt).sum 100
  { status := collectionStatus score
    score
    reasonCodes :=
      reason (0 < input.offlineNonStaleCount) .offlineEndpoint ++
      reason (0 < input.staleCount) .staleEndpoint ++
      reason (0 < input.degradedSensorCount) .degradedSensor ++
      reason (0 < input.unavailableSensorCount) .unavailableSensor ++
      reason (0 < input.failedCount15m ∨ 0 < input.reprocessFailedCount15m) .ingestFailure ++
      reason (0 < ingestDelayContribution input calculatedAt) .ingestDelayed ++
      reason (0 < input.restoreFailedBucketCount) .storageFailure }

def priority : EdrStateStatus → Nat
  | .green => 0
  | .yellow => 1
  | .red => 2

def reasonCodes : List EdrStateReasonCode := [
  .mediumEndpointRisk, .highEndpointRisk, .criticalEndpointRisk, .openIncident, .criticalAlert,
  .offlineEndpoint, .staleEndpoint, .degradedSensor, .unavailableSensor, .ingestFailure,
  .ingestDelayed, .storageFailure]

/-- `calculate_edr_state`. -/
def calculateEdrState (threatInput : ThreatLevelInput) (collectionInput : CollectionHealthInput)
    (calculatedAt : Time) : EdrStateResult :=
  let threat := calculateThreatLevel threatInput
  let collection := calculateCollectionHealth collectionInput calculatedAt
  let present := threat.reasonCodes ++ collection.reasonCodes
  { status := if priority threat.status < priority collection.status then collection.status
      else threat.status
    score := max threat.score collection.score
    threatLevel := threat
    collectionHealth := collection
    highestEndpointRiskScore := threatInput.highestEndpointRiskScore
    highRiskEndpointCount := threatInput.highRiskEndpointCount
    criticalRiskEndpointCount := threatInput.criticalRiskEndpointCount
    reasonCodes := reasonCodes.filter present.contains
    calculatedAt }

/-- The threat input of `SummaryService._edr_state`: the summary of the risks, and the two counts of
    the fleet. -/
def threatInput (risks : List EndpointRiskResult) (openIncidents criticalAlerts : Nat)
    (calculatedAt : Time) : ThreatLevelInput :=
  let riskSummary := summarizeEndpointRisks risks calculatedAt
  ⟨riskSummary.highestScore, riskSummary.highRiskEndpointCount,
    riskSummary.criticalRiskEndpointCount, openIncidents, criticalAlerts⟩

/-- The score of the threat level. -/
def threatScore (risks : List EndpointRiskResult) (openIncidents criticalAlerts : Nat)
    (calculatedAt : Time) : Int :=
  (calculateThreatLevel (threatInput risks openIncidents criticalAlerts calculatedAt)).score

/-- The state that `SummaryService._edr_state` computes. -/
def edrState (risks : List EndpointRiskResult) (openIncidents criticalAlerts : Nat)
    (collection : CollectionHealthInput) (calculatedAt : Time) : EdrStateResult :=
  calculateEdrState (threatInput risks openIncidents criticalAlerts calculatedAt) collection
    calculatedAt

/-! ## The status of a score -/

theorem priority_statusOf_mono {red yellow score score' : Int} (h : score ≤ score') :
    priority (statusOf red yellow score) ≤ priority (statusOf red yellow score') := by
  unfold statusOf
  split_ifs <;> first | omega | decide

theorem le_of_statusOf_ne_green {red yellow score : Int} (hyellow : yellow ≤ red)
    (h : statusOf red yellow score ≠ .green) : yellow ≤ score := by
  unfold statusOf at h
  split_ifs at h <;> first | omega | exact absurd rfl h

theorem reason_eq_nil {p : Prop} [Decidable p] {code : EdrStateReasonCode} :
    reason (decide p) code = [] ↔ ¬p := by
  by_cases hp : p <;> simp [reason, hp]

theorem cappedCount_mono {n m : Nat} (h : n ≤ m) (weight bound : Nat) :
    cappedCount n weight bound ≤ cappedCount m weight bound :=
  min_le_min (mul_le_mul_right weight h) le_rfl

@[simp] theorem cappedCount_zero (weight bound : Nat) : cappedCount 0 weight bound = 0 := by
  simp [cappedCount]

theorem le_of_riskLevel_low {score : Int} (h : riskLevel score ≠ .medium)
    (h' : riskLevel score ≠ .high) (h'' : riskLevel score ≠ .critical) : score ≤ 24 := by
  unfold riskLevel at h h' h''
  grind

/-! ## The threat level -/

section

variable {risks risks' : List EndpointRiskResult} {input input' : ThreatLevelInput}

theorem times_mono {a b weight : Rat} (ha : 0 ≤ a) (h : a ≤ b) (hw : 0 ≤ weight) :
    times a weight ≤ times b weight :=
  roundDigits_mono (by decide) (mul_nonneg ha hw) (mul_le_mul_of_nonneg_right h hw)

theorem threatRaw_nonneg (h : 0 ≤ input.highest) : 0 ≤ threatRaw input := by
  have htimes : 0 ≤ times input.highest (7 / 10) :=
    roundDigits_nonneg (mul_nonneg (by exact_mod_cast h) (by norm_num))
  unfold threatRaw
  positivity

theorem threat_bounds (h : 0 ≤ input.highest) :
    0 ≤ (calculateThreatLevel input).score ∧ (calculateThreatLevel input).score ≤ 100 := by
  have hmin : 0 ≤ min (threatRaw input) 100 := le_min (threatRaw_nonneg h) (by norm_num)
  refine ⟨roundHalfAway_nonneg hmin, roundHalfAway_le hmin ?_⟩
  exact_mod_cast min_le_right (threatRaw input) 100

theorem threat_le {d : Nat} (h : 0 ≤ input.highest) (h' : 0 ≤ input'.highest)
    (hraw : threatRaw input ≤ threatRaw input' + d) :
    (calculateThreatLevel input).score ≤ (calculateThreatLevel input').score + d := by
  have hmin : min (threatRaw input) 100 ≤ min (threatRaw input') 100 + d := by
    rw [← min_add_add_right]
    exact min_le_min hraw (le_add_of_nonneg_right (cast_nonneg d))
  calc (calculateThreatLevel input).score ≤ roundHalfUp (min (threatRaw input') 100 + d) :=
        roundHalfAway_mono (le_min (threatRaw_nonneg h) (by norm_num)) hmin
    _ = (calculateThreatLevel input').score + d :=
        roundHalfAway_add_natCast (le_min (threatRaw_nonneg h') (by norm_num)) d

def highestOf (risks : List EndpointRiskResult) : Int := ((risks.map (·.score)).max?).getD 0

theorem score_le_highestOf {r : EndpointRiskResult} (hr : r ∈ risks) : r.score ≤ highestOf risks := by
  have hmem : r.score ∈ risks.map (·.score) := mem_map_of_mem hr
  cases hmax : (risks.map (·.score)).max? with
  | none =>
    rw [max?_eq_none_iff.1 hmax] at hmem
    cases hmem
  | some m =>
    rw [highestOf, hmax]
    exact (max?_eq_some_iff.1 hmax).2 _ hmem

theorem highestOf_mem (risks : List EndpointRiskResult) :
    highestOf risks = 0 ∨ ∃ r ∈ risks, r.score = highestOf risks := by
  cases hmax : (risks.map (·.score)).max? with
  | none => exact .inl (by rw [highestOf, hmax]; rfl)
  | some m =>
    obtain ⟨r, hr, hm⟩ := mem_map.1 (max?_eq_some_iff.1 hmax).1
    exact .inr ⟨r, hr, by rw [highestOf, hmax]; exact hm⟩

theorem highestOf_nonneg (h : ∀ r ∈ risks, r.Graded) : 0 ≤ highestOf risks := by
  rcases highestOf_mem risks with hzero | ⟨r, hr, hscore⟩
  · exact hzero.ge
  · exact hscore ▸ (h r hr).nonneg

theorem levelCount_pos {level : RiskLevel} :
    0 < levelCount level risks ↔ ∃ r ∈ risks, r.level = level := by
  simp [levelCount, countP_pos_iff]

/-- A threat level that is not green has a reason: if no endpoint is at a level of its own code, then
    the highest score is below 25, and seven tenths of it are far from yellow. -/
theorem threat_reasonCodes_ne_nil (h : ∀ r ∈ risks, r.Graded) {openIncidents criticalAlerts : Nat}
    {calculatedAt : Time}
    (hstatus : (calculateThreatLevel
      (threatInput risks openIncidents criticalAlerts calculatedAt)).status ≠ .green) :
    (calculateThreatLevel
      (threatInput risks openIncidents criticalAlerts calculatedAt)).reasonCodes ≠ [] := by
  intro hnil
  have hreasons : riskLevel (highestOf risks) ≠ .medium ∧ levelCount .high risks = 0 ∧
      levelCount .critical risks = 0 ∧ openIncidents = 0 ∧ criticalAlerts = 0 := by
    simpa [calculateThreatLevel, reason_eq_nil, threatInput, summarizeEndpointRisks, highestOf]
      using hnil
  obtain ⟨hmedium, hhigh, hcritical, rfl, rfl⟩ := hreasons
  have hlow : highestOf risks ≤ 24 := by
    rcases highestOf_mem risks with hzero | ⟨r, hr, hscore⟩
    · omega
    · have hlevel := (h r hr).level
      rw [hscore] at hlevel
      have hnot (level : RiskLevel) (hcount : levelCount level risks = 0) : r.level ≠ level :=
        fun heq => absurd (levelCount_pos.2 ⟨r, hr, heq⟩) (by omega)
      have h₁ := hnot .high hhigh
      have h₂ := hnot .critical hcritical
      rw [hlevel] at h₁ h₂
      exact le_of_riskLevel_low hmedium h₁ h₂
  have htimes : times (24 : Rat) (7 / 10) = 84 / 5 :=
    (roundDigits_eq (k := 1) (m := 2) ⟨168, by norm_num⟩ (by norm_num [abs_lt]) (by decide)).trans
      (by norm_num)
  have hraw : threatRaw (threatInput risks 0 0 calculatedAt) ≤ 84 / 5 := by
    have hle : times ((highestOf risks : Int) : Rat) (7 / 10) ≤ times (24 : Rat) (7 / 10) :=
      times_mono (by exact_mod_cast highestOf_nonneg h) (by exact_mod_cast hlow) (by norm_num)
    simp only [threatRaw, threatInput, summarizeEndpointRisks, hhigh, hcritical, cappedCount_zero,
      cast_zero, add_zero]
    exact hle.trans htimes.le
  have hscore : threatScore risks 0 0 calculatedAt ≤ 17 := by
    refine roundHalfAway_le (le_min (threatRaw_nonneg (highestOf_nonneg h)) (by norm_num)) ?_
    exact (min_le_left _ _).trans (hraw.trans (by norm_num))
  have hyellow : 25 ≤ threatScore risks 0 0 calculatedAt :=
    le_of_statusOf_ne_green (by decide) hstatus
  omega

/-- What the endpoints at the two highest levels add. -/
def levelPart (high critical : Nat) : Nat := cappedCount high 3 15 + cappedCount critical 10 20

theorem threatRaw_le {d : Nat} (h : 0 ≤ input.highest) (hhighest : input.highest ≤ input'.highest)
    (hcounts : levelPart input.highRiskEndpointCount input.criticalRiskEndpointCount ≤
      levelPart input'.highRiskEndpointCount input'.criticalRiskEndpointCount + d)
    (hincidents : input.openIncidentCount ≤ input'.openIncidentCount)
    (halerts : input.criticalOpenAlertCount ≤ input'.criticalOpenAlertCount) :
    threatRaw input ≤ threatRaw input' + d := by
  have h₁ : times input.highest (7 / 10) ≤ times input'.highest (7 / 10) :=
    times_mono (by exact_mod_cast h) (by exact_mod_cast hhighest) (by norm_num)
  have h₂ : (levelPart input.highRiskEndpointCount input.criticalRiskEndpointCount : Rat) ≤
      levelPart input'.highRiskEndpointCount input'.criticalRiskEndpointCount + d := by
    exact_mod_cast hcounts
  have h₃ : (cappedCount input.openIncidentCount 3 15 : Rat) ≤
      cappedCount input'.openIncidentCount 3 15 := by
    exact_mod_cast cappedCount_mono hincidents 3 15
  have h₄ : (cappedCount input.criticalOpenAlertCount 5 20 : Rat) ≤
      cappedCount input'.criticalOpenAlertCount 5 20 := by
    exact_mod_cast cappedCount_mono halerts 5 20
  unfold levelPart at h₂
  push_cast at h₂
  unfold threatRaw
  linarith

end

/-! ## The collection health -/

section

variable {input input' : CollectionHealthInput} {calculatedAt : Time}

theorem collection_bounds : 0 ≤ (calculateCollectionHealth input calculatedAt).score ∧
    (calculateCollectionHealth input calculatedAt).score ≤ 100 :=
  ⟨le_min (Int.natCast_nonneg _) (by decide), min_le_right _ _⟩

theorem collection_reasonCodes_ne_nil
    (hstatus : (calculateCollectionHealth input calculatedAt).status ≠ .green) :
    (calculateCollectionHealth input calculatedAt).reasonCodes ≠ [] := by
  intro hnil
  have hyellow : 20 ≤ (calculateCollectionHealth input calculatedAt).score :=
    le_of_statusOf_ne_green (by decide) hstatus
  simp only [calculateCollectionHealth, append_eq_nil_iff, reason_eq_nil, not_lt,
    le_zero, not_or, and_assoc] at hnil
  obtain ⟨hoffline, hstale, hdegraded, hunavailable, hfailed, hreprocess, hdelay, hrestore⟩ := hnil
  simp [calculateCollectionHealth, collectionContributions, hoffline, hstale, hdegraded,
    hunavailable, hfailed, hreprocess, hdelay, hrestore] at hyellow

theorem ingestDelayContribution_mono (h : input.Le input') :
    ingestDelayContribution input calculatedAt ≤ ingestDelayContribution input' calculatedAt := by
  unfold ingestDelayContribution
  rw [h.latestIngestedAt]
  by_cases hzero : input.nonRetiredEndpointCount = 0
  · rw [if_pos hzero]
    exact zero_le _
  · have hle := h.nonRetiredEndpointCount
    rw [if_neg hzero, if_neg (by omega)]

theorem collection_mono (h : input.Le input') :
    (calculateCollectionHealth input calculatedAt).score ≤
      (calculateCollectionHealth input' calculatedAt).score := by
  have hsum : (collectionContributions input calculatedAt).sum ≤
      (collectionContributions input' calculatedAt).sum := by
    refine List.Forall₂.sum_le_sum ?_
    simp only [collectionContributions, forall₂_cons, forall₂_nil_left_iff, and_true]
    exact ⟨cappedCount_mono h.staleCount _ _, cappedCount_mono h.offlineNonStaleCount _ _,
      cappedCount_mono h.degradedSensorCount _ _, cappedCount_mono h.unavailableSensorCount _ _,
      ingestDelayContribution_mono h, cappedCount_mono h.failedCount15m _ _,
      cappedCount_mono h.reprocessFailedCount15m _ _,
      cappedCount_mono h.restoreFailedBucketCount _ _⟩
  exact min_le_min (by exact_mod_cast hsum) le_rfl

/-! ## The state -/

variable {risks : List EndpointRiskResult} {openIncidents criticalAlerts : Nat}
  {collection : CollectionHealthInput}

theorem priority_calculateEdrState (threat : ThreatLevelInput) :
    priority (calculateEdrState threat collection calculatedAt).status =
      max (priority (calculateThreatLevel threat).status)
        (priority (calculateCollectionHealth collection calculatedAt).status) := by
  unfold calculateEdrState
  dsimp only
  split_ifs with hlt
  · exact (max_eq_right hlt.le).symm
  · exact (max_eq_left (not_lt.1 hlt)).symm

theorem mem_reasonCodes (code : EdrStateReasonCode) : code ∈ reasonCodes := by
  cases code <;> decide

theorem reasonCodes_ne_nil {threatInput : ThreatLevelInput}
    (h : (calculateThreatLevel threatInput).reasonCodes ≠ [] ∨
      (calculateCollectionHealth collection calculatedAt).reasonCodes ≠ []) :
    (calculateEdrState threatInput collection calculatedAt).reasonCodes ≠ [] := by
  have hpresent : (calculateThreatLevel threatInput).reasonCodes ++
      (calculateCollectionHealth collection calculatedAt).reasonCodes ≠ [] := by
    rw [Ne, append_eq_nil_iff, not_and_or]
    exact h
  obtain ⟨code, hcode⟩ := exists_mem_of_ne_nil _ hpresent
  exact ne_nil_of_mem (mem_filter.2 ⟨mem_reasonCodes code, by simpa using hcode⟩)

/-- The state is the worse of its axes, and there are reasons for every colour but green. -/
structure Explained (s : EdrStateResult) : Prop where
  score : s.score = max s.threatLevel.score s.collectionHealth.score
  status : priority s.status =
    max (priority s.threatLevel.status) (priority s.collectionHealth.status)
  threat_bounds : 0 ≤ s.threatLevel.score ∧ s.threatLevel.score ≤ 100
  collection_bounds : 0 ≤ s.collectionHealth.score ∧ s.collectionHealth.score ≤ 100
  bounds : 0 ≤ s.score ∧ s.score ≤ 100
  threat_reason : s.threatLevel.status ≠ .green → s.threatLevel.reasonCodes ≠ []
  collection_reason : s.collectionHealth.status ≠ .green → s.collectionHealth.reasonCodes ≠ []
  reason : s.status ≠ .green → s.reasonCodes ≠ []

theorem edrState_explained (h : ∀ r ∈ risks, r.Graded) :
    Explained (edrState risks openIncidents criticalAlerts collection calculatedAt) := by
  have hthreat : 0 ≤ threatScore risks openIncidents criticalAlerts calculatedAt ∧
      threatScore risks openIncidents criticalAlerts calculatedAt ≤ 100 :=
    threat_bounds (highestOf_nonneg h)
  have hcollection : 0 ≤ (calculateCollectionHealth collection calculatedAt).score ∧
      (calculateCollectionHealth collection calculatedAt).score ≤ 100 := collection_bounds
  refine ⟨rfl, priority_calculateEdrState _, hthreat, hcollection, ?_, threat_reasonCodes_ne_nil h,
    collection_reasonCodes_ne_nil, fun hstatus => ?_⟩
  · exact ⟨hthreat.1.trans (le_max_left _ _), max_le hthreat.2 hcollection.2⟩
  · -- The status is that of one of the axes.
    refine reasonCodes_ne_nil ?_
    unfold edrState calculateEdrState at hstatus
    dsimp only at hstatus
    split_ifs at hstatus
    · exact .inr (collection_reasonCodes_ne_nil hstatus)
    · exact .inl (threat_reasonCodes_ne_nil h hstatus)

/-- **The state of the fleet.** For all risks of endpoints, counts and ingest times, the state is the
    worse of its axes, with scores between 0 and 100 and a reason for every colour but green; and
    counts that grow neither lower the score nor improve the status. -/
theorem edrState_spec (h : ∀ r ∈ risks, r.Graded) :
    let state := edrState risks openIncidents criticalAlerts collection calculatedAt
    Explained state ∧ ∀ openIncidents' criticalAlerts' collection',
      openIncidents ≤ openIncidents' → criticalAlerts ≤ criticalAlerts' →
      collection.Le collection' →
      let state' := edrState risks openIncidents' criticalAlerts' collection' calculatedAt
      state.score ≤ state'.score ∧ priority state.status ≤ priority state'.status := by
  refine ⟨edrState_explained h, fun openIncidents' criticalAlerts' collection' hi ha hc => ?_⟩
  have hthreat : threatScore risks openIncidents criticalAlerts calculatedAt ≤
      threatScore risks openIncidents' criticalAlerts' calculatedAt + (0 : Nat) := by
    refine threat_le (highestOf_nonneg h) (highestOf_nonneg h) ?_
    exact threatRaw_le (highestOf_nonneg h) le_rfl le_rfl hi ha
  rw [cast_zero, add_zero] at hthreat
  have hcollection : (calculateCollectionHealth collection calculatedAt).score ≤
      (calculateCollectionHealth collection' calculatedAt).score := collection_mono hc
  refine ⟨max_le_max hthreat hcollection, ?_⟩
  rw [edrState, edrState, priority_calculateEdrState, priority_calculateEdrState]
  exact max_le_max (priority_statusOf_mono hthreat) (priority_statusOf_mono hcollection)

/-- An endpoint at a score of 89, which is stale and from which nothing was ever ingested. -/
def staleState : EdrStateResult :=
  edrState [calculateEndpointRisk sampleAlerts [] 0] 0 0 ⟨1, 0, 0, 0, 1, none, 0, 0, 0⟩ 0

theorem edrState_spec_stale : Explained staleState ∧
    staleState.reasonCodes = [.criticalEndpointRisk, .staleEndpoint, .ingestDelayed] := by
  refine ⟨(edrState_spec fun r hr => ?_).1, by decide +kernel⟩
  rw [mem_singleton.1 hr]
  exact (calculateEndpointRisk_sound (by decide) (by decide +kernel) 0).toGraded

/-! ## One more alert -/

variable {before after : List EndpointRiskResult} {r r' : EndpointRiskResult}

/-- An endpoint goes from `HIGH` to `CRITICAL`, which adds nothing, as there are two critical
    endpoints already, and takes from the number of `HIGH` ones, which is not above its bound. -/
structure Crosses (risks : List EndpointRiskResult) (r r' : EndpointRiskResult) : Prop where
  high : r.level = .high
  critical : r'.level = .critical
  criticalCount : 2 ≤ levelCount .critical risks
  highCount : levelCount .high risks ≤ 5

def levelRank : RiskLevel → Nat
  | .low => 0
  | .medium => 1
  | .high => 2
  | .critical => 3

theorem levelRank_mono {score score' : Int} (h : score ≤ score') :
    levelRank (riskLevel score) ≤ levelRank (riskLevel score') := by
  unfold riskLevel
  split_ifs <;> first | omega | decide

theorem levelCount_insert (level : RiskLevel) (before : List EndpointRiskResult)
    (r : EndpointRiskResult) (after : List EndpointRiskResult) :
    levelCount level (before ++ r :: after) =
      levelCount level (before ++ after) + if r.level = level then 1 else 0 := by
  unfold levelCount
  rw [countP_append, countP_append, countP_cons]
  by_cases h : r.level = level <;> simp [h, add_assoc]

theorem counts_le (hr : r.Graded) (hr' : r'.Graded) (hscore : r.score ≤ r'.score) {d : Nat}
    (hd : Crosses (before ++ r :: after) r r' → 3 ≤ d) :
    levelPart (levelCount .high (before ++ r :: after))
        (levelCount .critical (before ++ r :: after)) ≤
      levelPart (levelCount .high (before ++ r' :: after))
        (levelCount .critical (before ++ r' :: after)) + d := by
  have hlevel : levelRank r.level ≤ levelRank r'.level := by
    rw [hr.level, hr'.level]
    exact levelRank_mono hscore
  have hcross (hhigh : r.level = .high) (hcritical : r'.level = .critical)
      (h₁ : 2 ≤ levelCount .critical (before ++ after))
      (h₂ : levelCount .high (before ++ after) ≤ 4) : 3 ≤ d := by
    refine hd ⟨hhigh, hcritical, ?_, ?_⟩
    · rw [levelCount_insert]
      exact h₁.trans (le_add_right _ _)
    · rw [levelCount_insert, if_pos hhigh]
      omega
  simp only [levelCount_insert, levelPart, cappedCount]
  revert hlevel hcross
  generalize levelCount .critical (before ++ after) = c
  generalize levelCount .high (before ++ after) = n
  -- Only the way from `HIGH` to `CRITICAL` takes from a count.
  cases r.level <;> cases r'.level <;> simp [levelRank] <;> omega

theorem threatScore_le (hbefore : ∀ x ∈ before, x.Graded) (hafter : ∀ x ∈ after, x.Graded)
    (hr : r.Graded) (hr' : r'.Graded) (hscore : r.score ≤ r'.score) {d : Nat}
    (hd : Crosses (before ++ r :: after) r r' → 3 ≤ d) :
    threatScore (before ++ r :: after) openIncidents criticalAlerts calculatedAt ≤
      threatScore (before ++ r' :: after) openIncidents criticalAlerts calculatedAt + d := by
  have hgraded {x : EndpointRiskResult} (hx : x.Graded) : ∀ y ∈ before ++ x :: after, y.Graded := by
    intro y hy
    rcases mem_append.1 hy with hy | hy
    · exact hbefore y hy
    · rcases mem_cons.1 hy with rfl | hy
      · exact hx
      · exact hafter y hy
  have hhighest : highestOf (before ++ r :: after) ≤ highestOf (before ++ r' :: after) := by
    rcases highestOf_mem (before ++ r :: after) with hzero | ⟨y, hy, hmax⟩
    · rw [hzero]
      exact highestOf_nonneg (hgraded hr')
    · rw [← hmax]
      rcases mem_append.1 hy with hy | hy
      · exact score_le_highestOf (mem_append_left _ hy)
      · rcases mem_cons.1 hy with rfl | hy
        · exact hscore.trans (score_le_highestOf (by simp))
        · exact score_le_highestOf (by simp [hy])
  refine threat_le (highestOf_nonneg (hgraded hr)) (highestOf_nonneg (hgraded hr')) ?_
  exact threatRaw_le (highestOf_nonneg (hgraded hr)) hhighest (counts_le hr hr' hscore hd) le_rfl
    le_rfl

structure EndpointInput where
  activeAlerts : List AlertRiskInput
  openIncidents : List IncidentRiskInput

def EndpointInput.risk (e : EndpointInput) (calculatedAt : Time) : EndpointRiskResult :=
  calculateEndpointRisk e.activeAlerts e.openIncidents calculatedAt

def fleetRisks (fleet : List EndpointInput) (calculatedAt : Time) : List EndpointRiskResult :=
  fleet.map (·.risk calculatedAt)

/-- **One more alert.** With the counts of incidents and critical alerts as they are, an alert that
    an endpoint of a fleet gets does not lower the threat level, unless it takes the endpoint from
    `HIGH` to `CRITICAL` where there are two critical endpoints and at most five `HIGH` ones. Then it
    lowers the level by 3 at most. -/
theorem threatScore_add_alert {fleet fleet' : List EndpointInput} {e e' : EndpointInput}
    {alert : AlertRiskInput} (hfleet : ∀ x ∈ fleet ++ fleet', ValidAlerts x.activeAlerts)
    (he : ValidAlerts e.activeAlerts) (he' : ValidAlerts e'.activeAlerts)
    (halerts : e'.activeAlerts.Perm (alert :: e.activeAlerts))
    (hincidents : e'.openIncidents = e.openIncidents) :
    let risks (x : EndpointInput) := fleetRisks (fleet ++ x :: fleet') calculatedAt
    let score (x : EndpointInput) :=
      threatScore (risks x) openIncidents criticalAlerts calculatedAt
    (¬Crosses (risks e) (e.risk calculatedAt) (e'.risk calculatedAt) → score e ≤ score e') ∧
      score e ≤ score e' + 3 := by
  intro risks score
  have hgraded {x : EndpointInput} (hx : ValidAlerts x.activeAlerts) :
      (x.risk calculatedAt).Graded :=
    (calculateEndpointRisk_sound hx.ids (fun a ha => (hx.scores a ha).1) calculatedAt).toGraded
  have hrisks {l : List EndpointInput} (hl : l ⊆ fleet ++ fleet') :
      ∀ r ∈ fleetRisks l calculatedAt, r.Graded := by
    intro r hr
    obtain ⟨x, hx, rfl⟩ := mem_map.1 hr
    exact hgraded (hfleet x (hl hx))
  have hscore : (e.risk calculatedAt).score ≤ (e'.risk calculatedAt).score := by
    refine score_le_of_covered he.ids he'.ids (fun a ha => (he.scores a ha).1)
      (fun a ha => (he'.scores a ha).1) (.of_subset fun a ha => ?_) (by rw [hincidents]) calculatedAt
    exact halerts.mem_iff.2 (mem_cons_of_mem _ ha)
  have hinsert (x : EndpointInput) : risks x = fleetRisks fleet calculatedAt ++
      x.risk calculatedAt :: fleetRisks fleet' calculatedAt := map_append
  have hle (d : Nat)
      (hd : Crosses (risks e) (e.risk calculatedAt) (e'.risk calculatedAt) → 3 ≤ d) :
      score e ≤ score e' + d := by
    simp only [score, hinsert] at hd ⊢
    exact threatScore_le (hrisks (subset_append_left _ _))
      (hrisks (subset_append_right _ _)) (hgraded he) (hgraded he') hscore hd
  refine ⟨fun hno => ?_, hle 3 fun _ => le_rfl⟩
  have hzero := hle 0 fun hcross => absurd hcross hno
  rwa [cast_zero, add_zero] at hzero

def endpointWith (scores : List Nat) : EndpointInput where
  activeAlerts := scores.zipIdx.map fun x => ⟨x.2, "R", x.2, x.1, 0, "T"⟩
  openIncidents := []

def twoCritical : List EndpointInput := [endpointWith [100], endpointWith [100]]

/-- Two endpoints at 100, and one that an alert takes from 50 to 51. -/
theorem threatScore_add_alert_within :
    threatScore (fleetRisks (twoCritical ++ [endpointWith [50]]) 0) 0 0 0 ≤
      threatScore (fleetRisks (twoCritical ++ [endpointWith [50, 4]]) 0) 0 0 0 := by
  have halerts : (endpointWith [50, 4]).activeAlerts.Perm
      (⟨1, "R", 1, 4, 0, "T"⟩ :: (endpointWith [50]).activeAlerts) := .swap _ _ []
  have hfleet : ∀ x ∈ twoCritical ++ [], ValidAlerts x.activeAlerts := by
    intro x hx
    have hx : x = endpointWith [100] := by simpa [twoCritical] using hx
    rw [hx]
    decide +kernel
  exact (threatScore_add_alert hfleet (by decide +kernel) (by decide +kernel) halerts rfl).1
    fun hcross => absurd hcross.critical (by decide +kernel)

/-- Two endpoints at 100, and one that an alert takes from 79 to 80: the threat level falls from 93
    to 90. -/
theorem threatScore_falls :
    ValidAlerts (endpointWith [100]).activeAlerts ∧ ValidAlerts (endpointWith [79]).activeAlerts ∧
      ValidAlerts (endpointWith [79, 4]).activeAlerts ∧
      threatScore (fleetRisks (twoCritical ++ [endpointWith [79]]) 0) 0 0 0 = 93 ∧
      threatScore (fleetRisks (twoCritical ++ [endpointWith [79, 4]]) 0) 0 0 0 = 90 := by
  refine ⟨?_, ?_, ?_, ?_, ?_⟩ <;> decide +kernel

end

end Risk

end Edr
