import Edr.Detection.Run

/-!
# What the detection workers converge to

With one fixed rule set, what the workers leave behind depends only on the set of the events: one
alert for each rule that fires on an event, one incident for each key of such a rule, and the link of
each alert to the incident of its own key. It does not depend on the order of the messages, on
duplicates, or on where a worker was stopped, as long as every message was processed to its end once.
-/

namespace Edr.Detection

section

variable (ops : RuleOps) (R : List LoadedRule) (E : Set DetectionEvent)

def expectedAlerts : Set AlertKey :=
  {k | ∃ e ∈ E, ∃ loaded ∈ R, Fires ops e loaded ∧ k = alertKey e loaded}

def expectedIncidents : Set IncidentKey :=
  {k | ∃ e ∈ E, ∃ loaded ∈ R, Fires ops e loaded ∧ ∃ c ∈ correlation e loaded, k = c.key}

def expectedLinks : Set (IncidentKey × AlertKey) :=
  {p | ∃ e ∈ E, ∃ loaded ∈ R, Fires ops e loaded ∧
    ∃ c ∈ correlation e loaded, p = (c.key, alertKey e loaded)}

end

variable {W : Type*} {ops : RuleOps} {R : List LoadedRule} {s : State W}

def State.events (s : State W) : Set DetectionEvent := {e | ∃ m ∈ s.started, m.event = e}

def State.linkIds (s : State W) (L : Set (IncidentKey × AlertKey)) : Set (Nat × Nat) :=
  {p | ∃ q ∈ L, (∃ row, s.incidents.get? q.1 = some (p.1, row)) ∧
    ∃ row, s.alerts.get? q.2 = some (p.2, row)}

/-- Every message that was started has been completed. -/
def State.Done (s : State W) : Prop := ∀ m ∈ s.started, m ∈ s.completed

/-- Messages of one event id have the same event. -/
def State.Consistent (s : State W) : Prop :=
  ∀ m ∈ s.started, ∀ m' ∈ s.started, m.event.eventId = m'.event.eventId → m.event = m'.event

structure Converged (ops : RuleOps) (R : List LoadedRule) (E : Set DetectionEvent) (s : State W) :
    Prop where
  alerts : s.alerts.table.OneRowFor (expectedAlerts ops R E)
  incidents : s.incidents.table.OneRowFor (expectedIncidents ops R E)
  links : s.links.OneRowFor (s.linkIds (expectedLinks ops R E))
  linksOf : ∀ e ∈ E, ∀ loaded ∈ R, Fires ops e loaded →
    ∃ alertId row, s.alerts.get? (alertKey e loaded) = some (alertId, row) ∧
      ∀ incidentId, Linked s incidentId alertId ↔
        ∃ c ∈ correlation e loaded, ∃ row, s.incidents.get? c.key = some (incidentId, row)

theorem alerts_of_inv (h : Inv ops R s) (hdone : s.Done) :
    s.alerts.table.OneRowFor (expectedAlerts ops R s.events) := by
  refine Table.oneRowFor_of_get? fun k => ⟨?_, ?_⟩
  · rintro ⟨_, ⟨m, hm, rfl⟩, loaded, hl, hf, rfl⟩
    obtain ⟨alertId, row, hrow, -⟩ := h.completed m (hdone m hm) loaded hl hf
    exact ⟨_, hrow⟩
  · rintro ⟨v, hv⟩
    obtain ⟨m, loaded, ho, hk, -⟩ := h.alerts k v hv
    exact ⟨m.event, ⟨m, ho.started, rfl⟩, loaded, ho.mem, ho.fires, hk⟩

theorem incidents_of_inv (h : Inv ops R s) (hdone : s.Done) :
    s.incidents.table.OneRowFor (expectedIncidents ops R s.events) := by
  refine Table.oneRowFor_of_get? fun k => ⟨?_, ?_⟩
  · rintro ⟨_, ⟨m, hm, rfl⟩, loaded, hl, hf, c, hc, rfl⟩
    obtain ⟨alertId, row, -, hincident⟩ := h.completed m (hdone m hm) loaded hl hf
    obtain ⟨incidentId, row, hrow, -⟩ := hincident c hc
    exact ⟨_, hrow⟩
  · rintro ⟨v, hv⟩
    obtain ⟨m, loaded, ho, c, hc, hk⟩ := h.incidents k v hv
    exact ⟨m.event, ⟨m, ho.started, rfl⟩, loaded, ho.mem, ho.fires, c, hc, hk⟩

theorem linked_of_completed (h : Inv ops R s) {m : ValidatedMessage} (hm : m ∈ s.completed)
    {loaded : LoadedRule} (hl : loaded ∈ R) (hf : Fires ops m.event loaded)
    {c : IncidentCorrelation} (hc : c ∈ correlation m.event loaded) {i a : Nat}
    {irow : IncidentRow} (hi : s.incidents.get? c.key = some (i, irow)) {arow : AlertRow}
    (ha : s.alerts.get? (alertKey m.event loaded) = some (a, arow)) : Linked s i a := by
  obtain ⟨a', arow', ha', hincident⟩ := h.completed m hm loaded hl hf
  obtain ⟨i', irow', hi', hlinked⟩ := hincident c hc
  cases ha.symm.trans ha'
  cases hi.symm.trans hi'
  exact hlinked

theorem links_of_inv (h : Inv ops R s) (hdone : s.Done) :
    s.links.OneRowFor (s.linkIds (expectedLinks ops R s.events)) := by
  refine Table.oneRowFor_of_get? fun ⟨i, a⟩ => ⟨?_, ?_⟩
  · rintro ⟨_, ⟨_, ⟨m, hm, rfl⟩, loaded, hl, hf, c, hc, rfl⟩, ⟨irow, hi⟩, arow, ha⟩
    exact linked_of_completed h (hdone m hm) hl hf hc hi ha
  · intro hlinked
    obtain ⟨m, loaded, ho, c, hc, hi, ha⟩ := h.links i a hlinked
    exact ⟨_, ⟨m.event, ⟨m, ho.started, rfl⟩, loaded, ho.mem, ho.fires, c, hc, rfl⟩, hi, ha⟩

/-- An alert is linked to the incident of its own key only: its id belongs to one key, and this to
    one event and one rule. -/
theorem linksOf_of_inv (h : Inv ops R s) (hR : Accepted R) (hM : s.Consistent)
    (hdone : s.Done) {m : ValidatedMessage} (hm : m ∈ s.started) {loaded : LoadedRule}
    (hl : loaded ∈ R) (hf : Fires ops m.event loaded) :
    ∃ alertId row, s.alerts.get? (alertKey m.event loaded) = some (alertId, row) ∧
      ∀ incidentId, Linked s incidentId alertId ↔ ∃ c ∈ correlation m.event loaded,
        ∃ row, s.incidents.get? c.key = some (incidentId, row) := by
  obtain ⟨a, arow, ha, -⟩ := h.completed m (hdone m hm) loaded hl hf
  refine ⟨a, arow, ha, fun i => ⟨fun hlinked => ?_, ?_⟩⟩
  · obtain ⟨m', loaded', ho, c, hc, hi, arow', ha'⟩ := h.links i a hlinked
    have hkey := s.alerts.inj _ _ _ _ _ ha ha'
    have hevent : m.event = m'.event := hM m hm m' ho.started (congrArg AlertKey.eventId hkey)
    have hrule : loaded = loaded' := hR.eq_of_identity hl ho.mem
      (congrArg AlertKey.ruleCode hkey) (congrArg AlertKey.ruleVersion hkey)
    rw [hevent, hrule]
    exact ⟨c, hc, hi⟩
  · rintro ⟨c, hc, irow, hi⟩
    exact linked_of_completed h (hdone m hm) hl hf hc hi ha

variable [DecidableEq W]

/-- In every run of any number of workers with one accepted rule set, with messages in any order,
    with duplicates and with workers that are stopped anywhere, in which messages of one event id have
    the same event: once every message that was started has been completed, the alerts, incidents and
    links are those of the set of the events. -/
theorem converged_of_completed {files : List RuleV1} (hR : loadDirectory ops files = .ok R)
    (h : (detection ops R).Reachable FixedRules s) (hM : s.Consistent) (hdone : s.Done) :
    Converged ops R s.events s := by
  have hinv := inv_of_reachable h
  refine ⟨alerts_of_inv hinv hdone, incidents_of_inv hinv hdone, links_of_inv hinv hdone, ?_⟩
  rintro _ ⟨m, hm, rfl⟩ loaded hl hf
  exact linksOf_of_inv hinv (loadDirectory_eq_ok hR) hM hdone hm hl hf

def stoppedRun : List (Label (Fin 2)) := [
  .receive 0 ⟨sampleEvent 1 10000, some 1⟩ 20000, .insertAlert 0, .abandon 0,
  .receive 1 ⟨sampleEvent 1 10000, some 1⟩ 25000, .insertAlert 1, .upsertIncident 1, .linkAlert 1,
  .finish 1,
  .receive 0 ⟨sampleEvent 1 10000, some 2⟩ 30000, .insertAlert 0, .upsertIncident 0, .linkAlert 0,
  .finish 0]

theorem converged_of_completed_stoppedRun :
    ∃ s, (detection sampleOps sampleRules).run (initial sampleRules) stoppedRun = some s ∧
      s.alerts.table.rows.length = 1 ∧ Converged sampleOps sampleRules s.events s := by
  obtain ⟨s, hrun, hif, hlength, hstarted, hcompleted⟩ :
      ∃ s, (detection sampleOps sampleRules).run (initial sampleRules) stoppedRun = some s ∧
        (detection sampleOps sampleRules).runIf FixedRules (initial sampleRules) stoppedRun =
          some s ∧ s.alerts.table.rows.length = 1 ∧
        s.started = [⟨sampleEvent 1 10000, some 2⟩, ⟨sampleEvent 1 10000, some 1⟩,
          ⟨sampleEvent 1 10000, some 1⟩] ∧
        s.completed = [⟨sampleEvent 1 10000, some 2⟩, ⟨sampleEvent 1 10000, some 1⟩] :=
    ⟨_, rfl, rfl, rfl, rfl, rfl⟩
  have hevent : ∀ m ∈ s.started, m.event = sampleEvent 1 10000 := by
    rw [hstarted]
    simp
  refine ⟨s, hrun, hlength, converged_of_completed loadDirectory_sampleRules
    (System.reachable_of_runIf hif) (fun m hm m' hm' _ => ?_) ?_⟩
  · rw [hevent m hm, hevent m' hm']
  · rw [State.Done, hstarted, hcompleted]
    simp

end Edr.Detection
