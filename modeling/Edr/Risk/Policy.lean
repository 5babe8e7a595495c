import Edr.Risk

/-!
# The risk policy

What the policy promises of `calculate_endpoint_risk`. The factors are the parts of the score. The
result does not depend on the order in which the alerts and the incidents are read. And an endpoint
with more alerts or incidents, or with an alert of a higher score, is at no lower risk: a further
alert may move the others to places of less weight, but what stands at each place does not get lower
(`Ranking.below_leaders`), and each contribution grows with the score that stands there
(`alertContribution_mono`).
-/

namespace Edr

open List Nat

open Ranking Decimal

/-- The score of a result is between 0 and 100, and its level is that of the score. -/
structure EndpointRiskResult.Graded (r : EndpointRiskResult) : Prop where
  nonneg : 0 ≤ r.score
  le_hundred : r.score ≤ 100
  level : r.level = Risk.riskLevel r.score

structure EndpointRiskResult.Sound (r : EndpointRiskResult) : Prop extends r.Graded where
  positive : ∀ f ∈ r.riskFactors, 0 < f.contribution
  sum : (r.riskFactors.map (·.contribution)).sum = r.score
  factors : r.riskFactors.length ≤ 5

namespace Risk

variable {alerts alerts' : List AlertRiskInput} {incidents incidents' : List IncidentRiskInput}

/-! ## The factors -/

theorem sum_capFactors (score : Int) (factors : List RiskFactor) :
    score + ((capFactors score factors).2.map (·.contribution)).sum =
      (capFactors score factors).1 := by
  induction factors generalizing score with
  | nil => simp [capFactors]
  | cons factor rest ih =>
    simp only [capFactors]
    split_ifs
    · simp
    · exact ih score
    · rw [map_cons, sum_cons, ← add_assoc]
      exact ih _

theorem length_capFactors (score : Int) (factors : List RiskFactor) :
    (capFactors score factors).2.length ≤ factors.length := by
  induction factors generalizing score with
  | nil => simp [capFactors]
  | cons factor rest ih =>
    simp only [capFactors]
    split_ifs
    · simp
    · exact (ih score).trans (le_succ _)
    · exact succ_le_succ (ih _)

theorem length_factorCandidates (alerts : List AlertRiskInput) (incidents : List IncidentRiskInput) :
    (factorCandidates (selectedAlerts alerts) (selectedIncidents incidents)).length ≤ 5 := by
  have halerts : ((selectedAlerts alerts).zip alertWeights).length ≤ 3 := by
    rw [length_zip]
    exact min_le_right _ _
  have hincidents : (selectedIncidents incidents).length ≤ 2 := length_take_le _ _
  rw [factorCandidates, length_append, length_map]
  exact Nat.add_le_add ((length_filterMap_le _ _).trans halerts) hincidents

theorem alertSum_nonneg (h : ∀ a ∈ alerts, 0 ≤ a.riskScore) : 0 ≤ alertSum alerts := by
  refine sum_nonneg fun x hx => ?_
  obtain ⟨p, hp, rfl⟩ := mem_map.1 hx
  exact alertContribution_nonneg (h _ (of_mem_zip hp).1)
    (alertWeights_nonneg (of_mem_zip hp).2)

theorem calculateEndpointRisk_sound (hids : (alerts.map (·.alertId)).Nodup)
    (h : ∀ a ∈ alerts, 0 ≤ a.riskScore) (calculatedAt : Time) :
    (calculateEndpointRisk alerts incidents calculatedAt).Sound := by
  have hscore : (calculateEndpointRisk alerts incidents calculatedAt).score =
      min 100 (alertSum (selectedAlerts alerts) + 10 * min incidents.length 2) :=
    score_eq hids h calculatedAt
  refine ⟨⟨?_, ?_, rfl⟩, fun f hf => capFactors_pos hf, ?_, ?_⟩
  · have hsum := alertSum_nonneg fun a ha => h a (selectedAlerts_subset hids ha)
    rw [hscore]
    omega
  · rw [hscore]
    exact min_le_left _ _
  · have := sum_capFactors 0 (factorCandidates (selectedAlerts alerts) (selectedIncidents incidents))
    rwa [zero_add] at this
  · exact (length_capFactors _ _).trans (length_factorCandidates alerts incidents)

/-! ## The order of the lists -/

theorem calculateEndpointRisk_perm (hids : (alerts.map (·.alertId)).Nodup)
    (hids' : (incidents.map (·.incidentId)).Nodup) (halerts : alerts.Perm alerts')
    (hincidents : incidents.Perm incidents') (calculatedAt : Time) :
    calculateEndpointRisk alerts incidents calculatedAt =
      calculateEndpointRisk alerts' incidents' calculatedAt := by
  have hmax : (alerts.map (·.riskScore)).max? = (alerts'.map (·.riskScore)).max? :=
    max?_perm (halerts.map _)
  rw [calculateEndpointRisk_eq, calculateEndpointRisk_eq, selectedAlerts_perm hids halerts,
    selectedIncidents_perm hids' hincidents, hmax, halerts.length_eq, hincidents.length_eq]

/-! ## More alerts and incidents -/

theorem alertContribution_mono {s s' weight : Rat} (hs : 0 ≤ s) (h : s ≤ s') (hw : 0 ≤ weight) :
    alertContribution s weight ≤ alertContribution s' weight :=
  roundHalfAway_mono (roundDigits_nonneg (mul_nonneg hs hw))
    (roundDigits_mono (by decide) (mul_nonneg hs hw) (mul_le_mul_of_nonneg_right h hw))

def Covered (alerts alerts' : List AlertRiskInput) : Prop :=
  ∀ a ∈ alerts, ∃ b ∈ alerts', ruleKey b = ruleKey a ∧ a.riskScore ≤ b.riskScore

def placeContribution (riskScore : Rat) (place : String × Rat × String) : Int :=
  alertContribution riskScore place.2.1

theorem alertSum_eq (alerts : List AlertRiskInput) : alertSum alerts =
    (((alerts.map (·.riskScore)).zip alertWeights).map fun p => placeContribution p.1 p.2).sum := by
  rw [alertSum, zip_map_left, map_map]
  rfl

section

variable (hids : (alerts.map (·.alertId)).Nodup) (hids' : (alerts'.map (·.alertId)).Nodup)
  (h : ∀ a ∈ alerts, 0 ≤ a.riskScore) (h' : ∀ a ∈ alerts', 0 ≤ a.riskScore)
  (hcovered : Covered alerts alerts')

include hids hids' hcovered

theorem below_selectedAlerts : Below ((selectedAlerts alerts).map (·.riskScore))
    ((selectedAlerts alerts').map (·.riskScore)) := by
  rw [selectedAlerts_eq hids, selectedAlerts_eq hids']
  refine below_leaders (fun a b hab => ?_) hids.of_map (antisymmOn_byRisk hids) hcovered 3
  rcases Prod.Lex.le_iff.1 hab with hlt | ⟨heq, -⟩
  · exact hlt.le
  · exact heq.le

include h h'

theorem alertSum_le_of_covered :
    alertSum (selectedAlerts alerts) ≤ alertSum (selectedAlerts alerts') := by
  rw [alertSum_eq, alertSum_eq]
  refine (below_selectedAlerts hids hids' hcovered).sum_zip_le
    (fun s s' w hw hs hle => ?_) fun s w hw hs => ?_
  · obtain ⟨a, ha, rfl⟩ := mem_map.1 hs
    exact alertContribution_mono (h a (selectedAlerts_subset hids ha)) hle (alertWeights_nonneg hw)
  · obtain ⟨a, ha, rfl⟩ := mem_map.1 hs
    exact alertContribution_nonneg (h' a (selectedAlerts_subset hids' ha)) (alertWeights_nonneg hw)

theorem score_le_of_covered (hincidents : incidents.length ≤ incidents'.length)
    (calculatedAt : Time) :
    (calculateEndpointRisk alerts incidents calculatedAt).score ≤
      (calculateEndpointRisk alerts' incidents' calculatedAt).score := by
  have hsum := alertSum_le_of_covered hids hids' h h' hcovered
  rw [score_eq hids h, score_eq hids' h']
  omega

end

theorem Covered.refl (alerts : List AlertRiskInput) : Covered alerts alerts :=
  fun a ha => ⟨a, ha, rfl, le_rfl⟩

theorem Covered.of_subset (h : alerts ⊆ alerts') : Covered alerts alerts' :=
  fun a ha => ⟨a, h ha, rfl, le_rfl⟩

theorem Covered.raise {before after : List AlertRiskInput} {a : AlertRiskInput} {riskScore : Rat}
    (h : a.riskScore ≤ riskScore) :
    Covered (before ++ a :: after) (before ++ { a with riskScore } :: after) := by
  intro b hb
  rcases mem_append.1 hb with hb | hb
  · exact ⟨b, mem_append_left _ hb, rfl, le_rfl⟩
  · rcases mem_cons.1 hb with rfl | hb
    · exact ⟨{ b with riskScore }, by simp, rfl, h⟩
    · exact ⟨b, by simp [hb], rfl, le_rfl⟩

/-- The alerts of an endpoint: their ids are distinct, and their scores are between 0 and 100. -/
structure ValidAlerts (alerts : List AlertRiskInput) : Prop where
  ids : (alerts.map (·.alertId)).Nodup
  scores : ∀ a ∈ alerts, 0 ≤ a.riskScore ∧ a.riskScore ≤ 100

instance : Decidable (ValidAlerts alerts) :=
  decidable_of_iff ((alerts.map (·.alertId)).Nodup ∧
    ∀ a ∈ alerts, 0 ≤ a.riskScore ∧ a.riskScore ≤ 100)
    ⟨fun h => ⟨h.1, h.2⟩, fun h => ⟨h.ids, h.scores⟩⟩

/-- **The risk policy.** For all alerts and incidents of an endpoint: the factors are positive and
    add up to the score, between 0 and 100, and there are at most five of them; the result is the
    same in any order of the two lists; and one more alert, one more incident or a higher score of
    an alert never lowers the score. -/
theorem calculateEndpointRisk_policy (halerts : ValidAlerts alerts)
    (hincidents : (incidents.map (·.incidentId)).Nodup) (calculatedAt : Time) :
    let risk := fun alerts incidents => calculateEndpointRisk alerts incidents calculatedAt
    (risk alerts incidents).Sound ∧
    (∀ alerts' incidents', alerts.Perm alerts' → incidents.Perm incidents' →
      risk alerts' incidents' = risk alerts incidents) ∧
    (∀ alert, ValidAlerts (alert :: alerts) →
      (risk alerts incidents).score ≤ (risk (alert :: alerts) incidents).score) ∧
    (∀ incident, ((incident :: incidents).map (·.incidentId)).Nodup →
      (risk alerts incidents).score ≤ (risk alerts (incident :: incidents)).score) ∧
    ∀ before a after riskScore, alerts = before ++ a :: after → a.riskScore ≤ riskScore →
      riskScore ≤ 100 → (risk alerts incidents).score ≤
        (risk (before ++ { a with riskScore } :: after) incidents).score := by
  have hnonneg {alerts : List AlertRiskInput} (h : ValidAlerts alerts) :
    ∀ a ∈ alerts, 0 ≤ a.riskScore := fun a ha => (h.scores a ha).1
  refine ⟨calculateEndpointRisk_sound halerts.ids (hnonneg halerts) calculatedAt, ?_, ?_, ?_, ?_⟩
  · exact fun alerts' incidents' h h' =>
      (calculateEndpointRisk_perm halerts.ids hincidents h h' calculatedAt).symm
  · exact fun alert h => score_le_of_covered halerts.ids h.ids (hnonneg halerts) (hnonneg h)
      (.of_subset (subset_cons_self _ _)) le_rfl calculatedAt
  · exact fun incident _ => score_le_of_covered halerts.ids halerts.ids (hnonneg halerts)
      (hnonneg halerts) (.refl alerts) (le_succ _) calculatedAt
  · rintro before a after riskScore rfl hle -
    have hids : ((before ++ { a with riskScore } :: after).map (·.alertId)).Nodup := by
      simpa using halerts.ids
    refine score_le_of_covered halerts.ids hids (hnonneg halerts) (fun b hb => ?_) (.raise hle)
      le_rfl calculatedAt
    rcases mem_append.1 hb with hb | hb
    · exact hnonneg halerts b (mem_append_left _ hb)
    · rcases mem_cons.1 hb with rfl | hb
      · exact (hnonneg halerts a (by simp)).trans hle
      · exact hnonneg halerts b (by simp [hb])

def sampleAlerts : List AlertRiskInput := [
  ⟨1, "R1", 1, 70, 0, "T1"⟩, ⟨2, "R1", 1, 40, 1, "T2"⟩, ⟨3, "R2", 1, 60, 2, "T3"⟩,
  ⟨4, "R3", 1, 81 / 2, 3, "T4"⟩]

/-- A further alert moves the others to the next places. -/
theorem calculateEndpointRisk_policy_shifted :
    ValidAlerts sampleAlerts ∧ (calculateEndpointRisk sampleAlerts [] 0).Sound ∧
      (calculateEndpointRisk sampleAlerts [] 0).score ≤
        (calculateEndpointRisk (⟨5, "R4", 1, 75, 4, "T5"⟩ :: sampleAlerts) [] 0).score := by
  have hvalid : ValidAlerts sampleAlerts := by decide +kernel
  have hincidents : (([] : List IncidentRiskInput).map (·.incidentId)).Nodup := nodup_nil
  obtain ⟨hsound, -, hadd, -⟩ := calculateEndpointRisk_policy hvalid hincidents 0
  exact ⟨hvalid, hsound, hadd _ (by decide +kernel)⟩

example : (calculateEndpointRisk sampleAlerts [] 0).score = 89 := by decide +kernel

end Risk

end Edr
