import Edr.Detection.Converge

/-!
# The aggregates of an incident

An incident has the times of its first and its last detection, and a severity. Its alerts come in any
order: a message that comes again brings back the detection time of its alert, which may be earlier
than that of an incident that was made in the meantime. The upsert takes the later of two times for
`last_detected_at`, and the higher of two severities, but it leaves `first_detected_at` as it is.
-/

namespace Edr.Detection

variable {W : Type*} {ops : RuleOps} {R : List LoadedRule} {s t : State W}

/-! ## What the aggregates should be -/

/-- The alerts that are linked to an incident. -/
def linkedAlerts (s : State W) (incidentId : Nat) : Set AlertRow :=
  {row | ∃ k alertId, s.alerts.get? k = some (alertId, row) ∧ Linked s incidentId alertId}

/-- The aggregates of an incident are those of its alerts. -/
structure Aggregated (s : State W) (incidentId : Nat) (row : IncidentRow) : Prop where
  first : IsLeast (.image AlertRow.detectedAt (linkedAlerts s incidentId)) row.firstDetectedAt
  last : IsGreatest (.image AlertRow.detectedAt (linkedAlerts s incidentId)) row.lastDetectedAt
  severity : IsGreatest (.image AlertRow.severity (linkedAlerts s incidentId)) row.severity

/-- If the step upserts an incident, its alert was not detected before the first one. -/
def notEarlier (s : State W) : Label W → Bool
  | .upsertIncident w =>
    match s.worker w with
    | .alerted _ _ c stored _ => (s.incidents.get? c.key).all fun v =>
      decide (v.2.firstDetectedAt ≤ stored.detectedAt)
    | _ => true
  | _ => true

def NotEarlier (s : State W) (a : Label W) : Prop := notEarlier s a = true

instance (s : State W) (a : Label W) : Decidable (NotEarlier s a) :=
  inferInstanceAs (Decidable (_ = _))

/-! ## Rows -/

namespace IncidentRow

/-- The aggregates take in an alert with this time and severity. -/
structure Covers (row : IncidentRow) (detectedAt : Time) (severity : Severity) : Prop where
  first : row.firstDetectedAt ≤ detectedAt
  last : detectedAt ≤ row.lastDetectedAt
  severity : severity ≤ row.severity

/-- The first detection is the same, and what one row covers the other does too. -/
structure Absorbs (row' row : IncidentRow) : Prop where
  first : row'.firstDetectedAt = row.firstDetectedAt
  last : row.lastDetectedAt ≤ row'.lastDetectedAt
  severity : row.severity ≤ row'.severity

def aggregates (row : IncidentRow) : Time × Time × Severity :=
  (row.firstDetectedAt, row.lastDetectedAt, row.severity)

variable {row row' : IncidentRow} {d : Time} {v : Severity}

theorem Absorbs.of_aggregates (h : row'.aggregates = row.aggregates) : row'.Absorbs row := by
  simp only [aggregates, Prod.mk.injEq] at h
  exact ⟨h.1, h.2.1.ge, h.2.2.ge⟩

theorem Covers.of_absorbs (h : row.Covers d v) (ha : row'.Absorbs row) : row'.Covers d v where
  first := ha.first.le.trans h.first
  last := h.last.trans ha.last
  severity := h.severity.trans ha.severity

end IncidentRow

namespace IncidentInsert

variable {incident : IncidentInsert} {row : IncidentRow}

theorem severity_merge : (incident.merge row).severity = max row.severity incident.severity := by
  have hle {a b : Severity} : a ≤ b ↔ a.position ≤ b.position := Iff.rfl
  simp only [merge]
  split_ifs with h
  · exact (max_eq_right (hle.2 (Nat.le_of_lt h))).symm
  · exact (max_eq_left (hle.2 (Nat.not_lt.1 h))).symm

theorem absorbs_merge : (incident.merge row).Absorbs row where
  first := rfl
  last := le_max_left _ _
  severity := severity_merge ▸ le_max_left _ _

theorem covers_merge (h : row.firstDetectedAt ≤ incident.detectedAt) :
    (incident.merge row).Covers incident.detectedAt incident.severity where
  first := h
  last := le_max_right _ _
  severity := severity_merge ▸ le_max_right _ _

theorem covers_row : incident.row.Covers incident.detectedAt incident.severity :=
  ⟨le_rfl, le_rfl, le_rfl⟩

end IncidentInsert

/-! ## The alerts of an incident -/

variable (ops R) in
/-- The alert is one that belongs to the incident with this key, linked or not yet. -/
def Source (s : State W) (k : IncidentKey) (row : AlertRow) : Prop :=
  ∃ m loaded, Occurs ops R s m loaded ∧ (∃ c ∈ correlation m.event loaded, c.key = k) ∧
    ∃ alertId, s.alerts.get? (alertKey m.event loaded) = some (alertId, row)

variable {k : IncidentKey}

theorem Source.mono {row : AlertRow} (h : Source ops R s k row) (hg : Grows s t) :
    Source ops R t k row := by
  obtain ⟨m, loaded, ho, hc, alertId, hrow⟩ := h
  exact ⟨m, loaded, ho.mono hg, hc, alertId, hg.alerts _ _ hrow⟩

variable {i : Nat}

theorem Source.linked {irow : IncidentRow} {row : AlertRow} (h : Source ops R s k row)
    (hinv : Inv ops R s) (hdone : s.Done) (hi : s.incidents.get? k = some (i, irow)) :
    row ∈ linkedAlerts s i := by
  obtain ⟨m, loaded, ho, ⟨c, hc, rfl⟩, alertId, hrow⟩ := h
  exact ⟨_, alertId, hrow,
    linked_of_completed hinv (hdone m ho.started) ho.mem ho.fires hc hi hrow⟩

variable {m : ValidatedMessage} {rest : List DetectionMatch} {stored : StoredAlert}
  {x : DetectionMatch}

/-- The alert of a worker that has stored it: its time is what the worker was told, and its severity
    that of the match. -/
theorem exists_source {w : W} {c : IncidentCorrelation} (hR : Accepted R) (h : Inv ops R s)
    (hw : s.worker w = .alerted m x c stored rest) :
    ∃ row, Source ops R s c.key row ∧ s.alerts.get? x.alert.key = some (stored.alertId, row) ∧
      row.detectedAt = stored.detectedAt ∧ row.severity = x.alert.severity := by
  obtain ⟨htodo, hc, row, hrow, hd⟩ := h.phase hw
  obtain ⟨loaded, now, ho, hx⟩ := htodo.occurs x List.mem_cons_self
  refine ⟨row, ⟨m, loaded, ho, ⟨c, hx.incident.symm.trans hc, rfl⟩, _, hx.key ▸ hrow⟩, hrow, hd, ?_⟩
  -- The row was inserted for some message, by the rule with the code and version of its key.
  obtain ⟨m', loaded', ho', hk, hseverity⟩ := h.alerts _ _ hrow
  have hkey := hx.key.symm.trans hk
  have hrule : loaded = loaded' := hR.eq_of_identity ho.mem ho'.mem
    (congrArg AlertKey.ruleCode hkey) (congrArg AlertKey.ruleVersion hkey)
  rw [hseverity, hx.severity, hrule]

/-! ## While no alert comes before the first detection -/

variable (ops R) in
/-- Each aggregate is that of some alert. -/
structure Attained (s : State W) (k : IncidentKey) (row : IncidentRow) : Prop where
  first : ∃ a, Source ops R s k a ∧ a.detectedAt = row.firstDetectedAt
  last : ∃ a, Source ops R s k a ∧ a.detectedAt = row.lastDetectedAt
  severity : ∃ a, Source ops R s k a ∧ a.severity = row.severity

/-- The row of the incident covers that of the alert. -/
def Covered (s : State W) (incidentId alertId : Nat) : Prop :=
  ∃ k irow k' arow, s.incidents.get? k = some (incidentId, irow) ∧
    s.alerts.get? k' = some (alertId, arow) ∧ irow.Covers arow.detectedAt arow.severity

/-- The incident that a worker is about to link covers the alert. -/
def PhaseCovered (s : State W) : Phase → Prop
  | .correlated _ _ _ stored incident _ => Covered s incident.incidentId stored.alertId
  | _ => True

variable (ops R) in
/-- Linked alerts are covered, and the aggregates attained. -/
structure AggInv (s : State W) : Prop where
  links : ∀ i a, Linked s i a → Covered s i a
  worker : ∀ w, PhaseCovered s (s.worker w)
  attained : ∀ k i row, s.incidents.get? k = some (i, row) → Attained ops R s k row

/-- No incident loses what its row covers. -/
def AbsorbsRows (s t : State W) : Prop :=
  ∀ k i row, s.incidents.get? k = some (i, row) →
    ∃ row', t.incidents.get? k = some (i, row') ∧ row'.Absorbs row

theorem Covered.mono {a : Nat} (h : Covered s i a) (hg : Grows s t) (ha : AbsorbsRows s t) :
    Covered t i a := by
  obtain ⟨k, irow, k', arow, hi, hrow, hcovers⟩ := h
  obtain ⟨irow', hi', habsorbs⟩ := ha k i irow hi
  exact ⟨k, irow', k', arow, hi', hg.alerts _ _ hrow, hcovers.of_absorbs habsorbs⟩

theorem PhaseCovered.mono {phase : Phase} (h : PhaseCovered s phase) (hg : Grows s t)
    (ha : AbsorbsRows s t) : PhaseCovered t phase := by
  cases phase with
  | correlated m x c stored incident rest => exact Covered.mono h hg ha
  | _ => trivial

theorem Attained.mono {row row' : IncidentRow} (h : Attained ops R s k row) (hg : Grows s t)
    (hrow : row'.aggregates = row.aggregates) : Attained ops R t k row' := by
  simp only [IncidentRow.aggregates, Prod.mk.injEq] at hrow
  obtain ⟨hfirst, hlast, hseverity⟩ := hrow
  obtain ⟨⟨a, ha, hd⟩, ⟨b, hb, hd'⟩, ⟨c, hc, hv⟩⟩ := h
  exact ⟨⟨a, ha.mono hg, hd.trans hfirst.symm⟩, ⟨b, hb.mono hg, hd'.trans hlast.symm⟩,
    ⟨c, hc.mono hg, hv.trans hseverity.symm⟩⟩

theorem Attained.merge {row : IncidentRow} {incident : IncidentInsert} {a : AlertRow}
    (h : Attained ops R s k row) (ha : Source ops R s k a) (hd : a.detectedAt = incident.detectedAt)
    (hv : a.severity = incident.severity) : Attained ops R s k (incident.merge row) where
  first := h.first
  last := by
    rcases max_cases row.lastDetectedAt incident.detectedAt with ⟨hmax, -⟩ | ⟨hmax, -⟩
    · obtain ⟨b, hb, hlast⟩ := h.last
      exact ⟨b, hb, hlast.trans hmax.symm⟩
    · exact ⟨a, ha, hd.trans hmax.symm⟩
  severity := by
    rw [IncidentInsert.severity_merge]
    rcases max_cases row.severity incident.severity with ⟨hmax, -⟩ | ⟨hmax, -⟩
    · obtain ⟨b, hb, hseverity⟩ := h.severity
      exact ⟨b, hb, hseverity.trans hmax.symm⟩
    · exact ⟨a, ha, hv.trans hmax.symm⟩

variable [DecidableEq W] {a : Label W}

theorem Step.absorbs (h : Step ops s a t) : AbsorbsRows s t := by
  intro k i row hrow
  obtain ⟨row', hrow'⟩ := h.grows.incidents k i row hrow
  refine ⟨row', hrow', ?_⟩
  cases h.rowStep hrow' with
  | same hget =>
    cases hrow.symm.trans hget
    exact .of_aggregates rfl
  | inserted hw hk hnone => cases hrow.symm.trans hnone
  | merged hw hk hget hrow'' =>
    cases hrow.symm.trans hget
    exact hrow'' ▸ IncidentInsert.absorbs_merge
  | closed hget hexpired hrow'' =>
    cases hrow.symm.trans hget
    exact .of_aggregates (hrow'' ▸ rfl)
  | changed hget hrow'' =>
    cases hrow.symm.trans hget
    exact .of_aggregates (hrow'' ▸ rfl)

/-- A row that is inserted or merged takes its aggregates from the alert of the worker. -/
theorem attained_step (hR : Accepted R) (hinv : Inv ops R s) (h : AggInv ops R s)
    (hs : Step ops s a t) {row' : IncidentRow} (hrow : t.incidents.get? k = some (i, row')) :
    Attained ops R t k row' := by
  have hg := hs.grows
  cases hs.rowStep hrow with
  | same h' => exact (h.attained _ _ _ h').mono hg rfl
  | closed h' hexpired hrow' => exact (h.attained _ _ _ h').mono hg (hrow' ▸ rfl)
  | changed h' hrow' => exact (h.attained _ _ _ h').mono hg (hrow' ▸ rfl)
  | @inserted w m x c stored rest hw hk h' hrow' =>
    obtain ⟨b, hb, -, hd, hv⟩ := exists_source hR hinv hw
    subst hk hrow'
    exact ⟨⟨b, hb.mono hg, hd⟩, ⟨b, hb.mono hg, hd⟩, ⟨b, hb.mono hg, hv⟩⟩
  | @merged w m x c stored rest row hw hk h' hrow' =>
    obtain ⟨b, hb, -, hd, hv⟩ := exists_source hR hinv hw
    subst hk hrow'
    exact ((h.attained _ _ _ h').mono hg rfl).merge (hb.mono hg) hd hv

omit [DecidableEq W] in
theorem phaseCovered_afterAlert : PhaseCovered t (afterAlert m x stored rest) := by
  rw [afterAlert]
  cases x.incident <;> trivial

omit [DecidableEq W] in
/-- An upsert that is not of an earlier alert covers it. -/
theorem covered_of_upsert {w : W} {c : IncidentCorrelation} (hR : Accepted R) (hinv : Inv ops R s)
    (hw : s.worker w = .alerted m x c stored rest) (hP : NotEarlier s (.upsertIncident w))
    (hg : Grows s t) (ht : t.incidents = s.incidents.upsert c.key (incidentInsert x c stored).row
      (incidentInsert x c stored).merge) (hi : ∃ row, t.incidents.get? c.key = some (i, row)) :
    Covered t i stored.alertId := by
  obtain ⟨arow, -, harow, hd, hv⟩ := exists_source hR hinv hw
  obtain ⟨row, hrow⟩ := hi
  refine ⟨_, row, _, arow, hrow, hg.alerts _ _ harow, ?_⟩
  rw [hd, hv]
  rw [ht, Serial.get?_upsert, if_pos rfl] at hrow
  simp only [NotEarlier, notEarlier, hw] at hP
  cases hget : s.incidents.get? c.key with
  | none =>
    rw [hget] at hrow
    cases hrow
    exact IncidentInsert.covers_row
  | some v =>
    rw [hget] at hrow hP
    cases hrow
    exact IncidentInsert.covers_merge (of_decide_eq_true hP)

theorem phaseCovered_step (hR : Accepted R) (hinv : Inv ops R s) (h : AggInv ops R s)
    (hP : NotEarlier s a) (hs : Step ops s a t) (v : W) : PhaseCovered t (t.worker v) := by
  have hg := hs.grows
  have hmono (v : W) : PhaseCovered t (s.worker v) := (h.worker v).mono hg hs.absorbs
  cases hs with
  | @received w m now found hw heval => exact forall_update hmono (.matched m found) trivial v
  | failed hw => exact hmono v
  | inserted hw hinsert => exact forall_update hmono _ phaseCovered_afterAlert v
  | @upserted w m x c stored rest incidents incident hw hupsert =>
    obtain ⟨rfl, hrow, -⟩ := IncidentRepository.upsert_eq_ok hupsert
    have hcovered := covered_of_upsert hR hinv hw hP hg rfl hrow
    exact forall_update hmono (.correlated m x c stored incident rest) hcovered v
  | closedExpired => exact hmono v
  | updatedStatus hupdate => exact hmono v
  | @linked w m x c stored incident rest hw => exact forall_update hmono (.matched m rest) trivial v
  | _ => exact forall_update hmono .idle trivial v

theorem links_step (h : AggInv ops R s) (hs : Step ops s a t) {b : Nat} (hl : Linked t i b) :
    Covered t i b := by
  have hg := hs.grows
  have habsorbs := hs.absorbs
  cases hs with
  | @linked w m x c stored incident rest hw =>
    obtain ⟨linkedAt, hl⟩ := hl
    have hl' : (s.links.insert (incident.incidentId, stored.alertId) _).get? (i, b) =
      some linkedAt := hl
    rw [Table.get?_insert] at hl'
    split_ifs at hl' with hp
    · cases hp
      have hphase := h.worker w
      rw [hw] at hphase
      exact .mono hphase hg habsorbs
    · exact (h.links i b ⟨linkedAt, hl'⟩).mono hg habsorbs
  | _ => exact (h.links i b hl).mono hg habsorbs

theorem aggInv_step (hR : Accepted R) (hinv : Inv ops R s) (h : AggInv ops R s)
    (hP : NotEarlier s a) (hs : Step ops s a t) : AggInv ops R t where
  links _ _ hl := links_step h hs hl
  worker := phaseCovered_step hR hinv h hP hs
  attained _ _ _ hrow := attained_step hR hinv h hs hrow

omit [DecidableEq W] in
theorem initial_aggInv : AggInv ops R (initial R : State W) where
  links _ _ h := nomatch h
  worker _ := trivial
  attained _ _ _ h := nomatch h

/-! ## Once an alert has come before the first detection -/

variable (ops R) in
/-- An alert of an incident was detected before what the incident says is its first detection. -/
def Violated (s : State W) : Prop :=
  ∃ k i irow arow, s.incidents.get? k = some (i, irow) ∧ Source ops R s k arow ∧
    arow.detectedAt < irow.firstDetectedAt

/-- No later upsert moves the first detection back. -/
theorem Violated.step (h : Violated ops R s) (hs : Step ops s a t) : Violated ops R t := by
  obtain ⟨k, i, irow, arow, hi, hsource, hlt⟩ := h
  obtain ⟨irow', hi', habsorbs⟩ := hs.absorbs k i irow hi
  exact ⟨k, i, irow', arow, hi', hsource.mono hs.grows, habsorbs.first ▸ hlt⟩

omit [DecidableEq W] in
theorem violated_of_not_notEarlier (hR : Accepted R) (hinv : Inv ops R s) (hP : ¬NotEarlier s a) :
    Violated ops R s := by
  cases a with
  | upsertIncident w =>
    simp only [NotEarlier, notEarlier] at hP
    split at hP
    · rename_i m x c stored rest hw
      obtain ⟨arow, hsource, -, hd, -⟩ := exists_source hR hinv hw
      cases hget : s.incidents.get? c.key with
      | none =>
        rw [hget] at hP
        exact absurd rfl hP
      | some v =>
        rw [hget] at hP
        refine ⟨c.key, v.1, v.2, arow, hget, hsource, ?_⟩
        rw [hd]
        exact lt_of_not_ge fun hle => hP (decide_eq_true hle)
    · exact absurd rfl hP
  | _ => exact absurd rfl hP

/-! ## Whole runs -/

omit [DecidableEq W] in
theorem AggInv.aggregated (h : AggInv ops R s) (hinv : Inv ops R s) (hdone : s.Done)
    {irow : IncidentRow} (hi : s.incidents.get? k = some (i, irow)) : Aggregated s i irow := by
  have hcovers (arow : AlertRow) (harow : arow ∈ linkedAlerts s i) :
      irow.Covers arow.detectedAt arow.severity := by
    obtain ⟨k', b, hb, hlinked⟩ := harow
    obtain ⟨k₁, irow₁, k₂, arow₂, hi₁, hb₂, hcovers⟩ := h.links i b hlinked
    cases s.incidents.inj _ _ _ _ _ hi hi₁
    cases s.alerts.inj _ _ _ _ _ hb hb₂
    cases hi.symm.trans hi₁
    cases hb.symm.trans hb₂
    exact hcovers
  obtain ⟨⟨a, ha, hfirst⟩, ⟨b, hb, hlast⟩, ⟨c, hc, hseverity⟩⟩ := h.attained k i irow hi
  refine ⟨⟨⟨a, ha.linked hinv hdone hi, hfirst⟩, ?_⟩, ⟨⟨b, hb.linked hinv hdone hi, hlast⟩, ?_⟩,
    ⟨⟨c, hc.linked hinv hdone hi, hseverity⟩, ?_⟩⟩
  · rintro _ ⟨arow, harow, rfl⟩
    exact (hcovers arow harow).first
  · rintro _ ⟨arow, harow, rfl⟩
    exact (hcovers arow harow).last
  · rintro _ ⟨arow, harow, rfl⟩
    exact (hcovers arow harow).severity

omit [DecidableEq W] in
theorem Violated.not_aggregated (h : Violated ops R s) (hinv : Inv ops R s) (hdone : s.Done) :
    ¬∀ k i row, s.incidents.get? k = some (i, row) → Aggregated s i row := by
  obtain ⟨k, i, irow, arow, hi, hsource, hlt⟩ := h
  intro haggregated
  have hle := (haggregated k i irow hi).first.2 ⟨arow, hsource.linked hinv hdone hi, rfl⟩
  exact absurd hle (not_le_of_gt hlt)

theorem aggInv_of_runIf {l : List (Label W)} (hR : Accepted R) (hl : ∀ a ∈ l, a.keepsRules = true)
    (hrun : (detection ops R).runIf NotEarlier (initial R) l = some s) :
    Inv ops R s ∧ AggInv ops R s :=
  System.runIf_stable (I := fun s => Inv ops R s ∧ AggInv ops R s)
    (fun _ _ _ ha ⟨hinv, hagg⟩ hP hn =>
      ⟨inv_step hinv ha (step_of_next hn), aggInv_step hR hinv hagg hP (step_of_next hn)⟩)
    hl ⟨initial_inv, initial_aggInv⟩ hrun

theorem violated_of_run {l : List (Label W)} (hR : Accepted R) (hl : ∀ a ∈ l, a.keepsRules = true)
    (hrun : (detection ops R).run (initial R) l = some s)
    (hif : (detection ops R).runIf NotEarlier (initial R) l ≠ some s) :
    Inv ops R s ∧ Violated ops R s := by
  refine (System.runIf_or (Q := fun a => a.keepsRules = true) (I := Inv ops R)
    (V := fun s => Inv ops R s ∧ Violated ops R s) ?_ ?_ ?_ hl initial_inv hrun).resolve_left hif
  · exact fun _ _ _ ha hinv _ hn => inv_step hinv ha (step_of_next hn)
  · intro s a t ha hinv hP hn
    have hs := step_of_next hn
    exact ⟨inv_step hinv ha hs, (violated_of_not_notEarlier hR hinv hP).step hs⟩
  · intro s a t ha ⟨hinv, hviolated⟩ hn
    have hs := step_of_next hn
    exact ⟨inv_step hinv ha hs, hviolated.step hs⟩

/-- In every run of any number of workers with one accepted rule set, with messages in any order,
    with duplicates and with workers that are stopped anywhere, once every message that was started
    has been completed: the aggregates of all incidents are those of their linked alerts iff no
    upsert of the run brought an alert from before the first detection of its incident. -/
theorem aggregated_iff_notEarlier {files : List RuleV1} {l : List (Label W)}
    (hR : loadDirectory ops files = .ok R) (hl : ∀ a ∈ l, a.keepsRules = true)
    (hrun : (detection ops R).run (initial R) l = some s) (hdone : s.Done) :
    (∀ k i row, s.incidents.get? k = some (i, row) → Aggregated s i row) ↔
      (detection ops R).runIf NotEarlier (initial R) l = some s := by
  have hR' := loadDirectory_eq_ok hR
  constructor
  · intro h
    by_contra hif
    obtain ⟨hinv, hviolated⟩ := violated_of_run hR' hl hrun hif
    exact hviolated.not_aggregated hinv hdone h
  · intro hif k i row hi
    obtain ⟨hinv, hagg⟩ := aggInv_of_runIf hR' hl hif
    exact hagg.aggregated hinv hdone hi

def processLabels (w : Fin 2) (eventId : UUID) (occurredAt now : Time) : List (Label (Fin 2)) := [
  .receive w ⟨sampleEvent eventId occurredAt, some 1⟩ now, .insertAlert w, .upsertIncident w,
  .linkAlert w, .finish w]

def inOrderRun : List (Label (Fin 2)) :=
  processLabels 0 1 5000 10000 ++ processLabels 1 2 6000 20000

theorem aggregated_iff_notEarlier_inOrderRun :
    ∃ s, (detection sampleOps sampleRules).run (initial sampleRules) inOrderRun = some s ∧
      s.incidents.table.rows.length = 1 ∧
        ∀ k i row, s.incidents.get? k = some (i, row) → Aggregated s i row := by
  obtain ⟨s, hrun, hif, hlength, hstarted, hcompleted⟩ :
      ∃ s, (detection sampleOps sampleRules).run (initial sampleRules) inOrderRun = some s ∧
        (detection sampleOps sampleRules).runIf NotEarlier (initial sampleRules) inOrderRun =
          some s ∧ s.incidents.table.rows.length = 1 ∧
        s.started = [⟨sampleEvent 2 6000, some 1⟩, ⟨sampleEvent 1 5000, some 1⟩] ∧
        s.completed = [⟨sampleEvent 2 6000, some 1⟩, ⟨sampleEvent 1 5000, some 1⟩] :=
    ⟨_, rfl, rfl, rfl, rfl, rfl⟩
  refine ⟨s, hrun, hlength, (aggregated_iff_notEarlier loadDirectory_sampleRules ?_ hrun ?_).2 hif⟩
  · decide
  · rw [State.Done, hstarted, hcompleted]
    exact fun _ h => h

def lateRun : List (Label (Fin 2)) :=
  [.receive 0 ⟨sampleEvent 1 5000, some 1⟩ 10000, .insertAlert 0, .abandon 0] ++
    processLabels 1 2 6000 20000 ++ processLabels 0 1 5000 30000

/-- The incident says that it was first detected when the second alert was. -/
theorem first_detected_at_not_least :
    ∃ s, (detection sampleOps sampleRules).run (initial sampleRules) lateRun = some s ∧
      (∀ a ∈ lateRun, a.keepsRules = true) ∧ s.Done ∧
        ¬∀ k i row, s.incidents.get? k = some (i, row) → Aggregated s i row := by
  obtain ⟨s, hrun, hstarted, hcompleted, ⟨irow, hi, hfirst⟩, ⟨arow, ha, hdetected⟩, hlinked⟩ :
      ∃ s, (detection sampleOps sampleRules).run (initial sampleRules) lateRun = some s ∧
        s.started = [⟨sampleEvent 1 5000, some 1⟩, ⟨sampleEvent 2 6000, some 1⟩,
          ⟨sampleEvent 1 5000, some 1⟩] ∧
        s.completed = [⟨sampleEvent 1 5000, some 1⟩, ⟨sampleEvent 2 6000, some 1⟩] ∧
        (∃ irow, s.incidents.get? ⟨7, "powershell-chain", 0⟩ = some (1, irow) ∧
          irow.firstDetectedAt = 20000) ∧
        (∃ arow, s.alerts.get? ⟨1, "PROC_POWERSHELL", 1⟩ = some (1, arow) ∧
          arow.detectedAt = 10000) ∧ Linked s 1 1 :=
    ⟨_, rfl, rfl, rfl, ⟨_, rfl, rfl⟩, ⟨_, rfl, rfl⟩, ⟨_, rfl⟩⟩
  refine ⟨s, hrun, by decide, ?_, fun h => ?_⟩
  · rw [State.Done, hstarted, hcompleted]
    simp
  · have hle := (h _ _ _ hi).first.2 ⟨arow, ⟨_, _, ha, hlinked⟩, rfl⟩
    rw [hfirst, hdetected] at hle
    exact absurd hle (by decide)

end Edr.Detection
