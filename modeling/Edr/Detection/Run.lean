import Edr.Detection.Tables
import Edr.Lib.System

/-!
# Runs of the detection workers

Any number of detection workers take messages, evaluate them, and for each match insert the alert,
upsert the incident and link the two: three transactions. A worker may be stopped between any two of
them, or get an exception, and then what it has committed stays; the message comes again, to this
worker or to another one. A worker that starts again may have other rules. Besides, incidents are
closed by the periodic task, and their status is changed by users.
-/

namespace Edr.Detection

open Function IncidentRepository Table

/-- Where a worker is in `_process`. -/
inductive Phase
  | idle
  | matched (m : ValidatedMessage) (rest : List DetectionMatch)
  | alerted (m : ValidatedMessage) (x : DetectionMatch) (c : IncidentCorrelation)
      (stored : StoredAlert) (rest : List DetectionMatch)
  | correlated (m : ValidatedMessage) (x : DetectionMatch) (c : IncidentCorrelation)
      (stored : StoredAlert) (incident : StoredIncident) (rest : List DetectionMatch)

/-- The tables, the workers and the messages they took up and completed. -/
structure State (W : Type*) where
  rules : W → List LoadedRule
  worker : W → Phase
  alerts : Alerts
  incidents : Incidents
  links : Table (Nat × Nat) Time
  auditLogs : List StatusAudit
  started : List ValidatedMessage
  completed : List ValidatedMessage
  refused : Nat

inductive Label (W : Type*)
  | receive (w : W) (m : ValidatedMessage) (now : Time)
  | insertAlert (w : W)
  | upsertIncident (w : W)
  | linkAlert (w : W)
  | finish (w : W)
  | abandon (w : W)
  | deploy (w : W) (files : List RuleV1)
  | closeExpired (now : Time)
  | updateStatus (incidentId : Nat) (status : IncidentStatus) (actorIdentifier requestId : String)
      (changedAt : Time)

def Label.keepsRules {W : Type*} : Label W → Bool
  | .deploy .. => false
  | _ => true

def FixedRules {W : Type*} (_ : State W) (a : Label W) : Prop := a.keepsRules = true

instance {W : Type*} (s : State W) (a : Label W) : Decidable (FixedRules s a) :=
  inferInstanceAs (Decidable (_ = _))

/-- What the worker passes to `upsert`. -/
def incidentInsert (x : DetectionMatch) (c : IncidentCorrelation) (stored : StoredAlert) :
    IncidentInsert where
  endpointId := c.endpointId
  correlationKey := c.correlationKey
  windowStartAt := c.windowStartAt
  windowEndAt := c.windowEndAt
  title := x.alert.title
  description := some x.alert.summary
  severity := x.alert.severity
  detectedAt := stored.detectedAt

/-- The phase after `insert_if_absent`. -/
def afterAlert (m : ValidatedMessage) (x : DetectionMatch) (stored : StoredAlert)
    (rest : List DetectionMatch) : Phase :=
  match x.incident with
  | none => .matched m rest
  | some c => .alerted m x c stored rest

variable {W : Type*} (ops : RuleOps)

section

variable [DecidableEq W]

def State.setWorker (s : State W) (w : W) (phase : Phase) : State W :=
  { s with worker := update s.worker w phase }

theorem forall_update {P : Phase → Prop} {worker : W → Phase} {w : W} (h : ∀ v, P (worker v))
    (phase : Phase) (hphase : P phase) (v : W) : P (update worker w phase v) := by
  rw [update_apply]
  split_ifs
  · exact hphase
  · exact h v

def next (s : State W) : Label W → Option (State W)
  | .receive w m now =>
    match s.worker w with
    | .idle =>
      match evaluate ops (s.rules w) m now with
      | .ok found => some { s.setWorker w (.matched m found) with started := m :: s.started }
      | .error _ => some { s with started := m :: s.started }
    | _ => none
  | .insertAlert w =>
    match s.worker w with
    | .matched m (x :: rest) =>
      match AlertRepository.insertIfAbsent x.alert s.alerts with
      | .ok (alerts, stored) => some { s.setWorker w (afterAlert m x stored rest) with alerts }
      | .error _ => some (s.setWorker w .idle)
    | _ => none
  | .upsertIncident w =>
    match s.worker w with
    | .alerted m x c stored rest =>
      match upsert (incidentInsert x c stored) s.incidents with
      | .ok (incidents, incident) =>
        some { s.setWorker w (.correlated m x c stored incident rest) with incidents }
      | .error _ => some { s.setWorker w .idle with refused := s.refused + 1 }
    | _ => none
  | .linkAlert w =>
    match s.worker w with
    | .correlated m _ _ stored incident rest =>
      some { s.setWorker w (.matched m rest) with
        links := linkAlert incident.incidentId stored.alertId stored.detectedAt s.links }
    | _ => none
  | .finish w =>
    match s.worker w with
    | .matched m [] => some { s.setWorker w .idle with completed := m :: s.completed }
    | _ => none
  | .abandon w => some (s.setWorker w .idle)
  | .deploy w files =>
    match loadDirectory ops files with
    | .ok rules => some { s.setWorker w .idle with rules := update s.rules w rules }
    | .error _ => none
  | .closeExpired now => some { s with incidents := (closeExpired now s.incidents).1 }
  | .updateStatus incidentId status actor request changedAt =>
    match updateStatus incidentId status actor request changedAt s.incidents with
    | .ok (incidents, audit) =>
      some { s with incidents, auditLogs := s.auditLogs ++ audit.toList }
    | .error _ => none

def initial (rules : List LoadedRule) : State W where
  rules _ := rules
  worker _ := .idle
  alerts := .empty
  incidents := .empty
  links := .empty
  auditLogs := []
  started := []
  completed := []
  refused := 0

def detection (rules : List LoadedRule) : System (State W) (Label W) where
  init := initial rules
  next := next ops

/-! ## What a step does -/

inductive Step (s : State W) : Label W → State W → Prop
  | received {w m now found} (hw : s.worker w = .idle)
      (h : evaluate ops (s.rules w) m now = .ok found) :
      Step s (.receive w m now) { s.setWorker w (.matched m found) with started := m :: s.started }
  | failed {w m now} (hw : s.worker w = .idle) :
      Step s (.receive w m now) { s with started := m :: s.started }
  | inserted {w m x rest alerts stored} (hw : s.worker w = .matched m (x :: rest))
      (h : AlertRepository.insertIfAbsent x.alert s.alerts = .ok (alerts, stored)) :
      Step s (.insertAlert w) { s.setWorker w (afterAlert m x stored rest) with alerts }
  | insertFailed {w} : Step s (.insertAlert w) (s.setWorker w .idle)
  | upserted {w m x c stored rest incidents incident} (hw : s.worker w = .alerted m x c stored rest)
      (h : upsert (incidentInsert x c stored) s.incidents = .ok (incidents, incident)) :
      Step s (.upsertIncident w)
        { s.setWorker w (.correlated m x c stored incident rest) with incidents }
  | refused {w m x c stored rest e} (hw : s.worker w = .alerted m x c stored rest)
      (h : upsert (incidentInsert x c stored) s.incidents = .error e) :
      Step s (.upsertIncident w) { s.setWorker w .idle with refused := s.refused + 1 }
  | linked {w m x c stored incident rest} (hw : s.worker w = .correlated m x c stored incident rest) :
      Step s (.linkAlert w) { s.setWorker w (.matched m rest) with
        links := linkAlert incident.incidentId stored.alertId stored.detectedAt s.links }
  | finished {w m} (hw : s.worker w = .matched m []) :
      Step s (.finish w) { s.setWorker w .idle with completed := m :: s.completed }
  | abandoned {w} : Step s (.abandon w) (s.setWorker w .idle)
  | deployed {w files rules} (h : loadDirectory ops files = .ok rules) :
      Step s (.deploy w files) { s.setWorker w .idle with rules := update s.rules w rules }
  | closedExpired {now} : Step s (.closeExpired now)
      { s with incidents := (closeExpired now s.incidents).1 }
  | updatedStatus {incidentId status actor request changedAt incidents audit}
      (h : updateStatus incidentId status actor request changedAt s.incidents =
        .ok (incidents, audit)) :
      Step s (.updateStatus incidentId status actor request changedAt)
        { s with incidents, auditLogs := s.auditLogs ++ audit.toList }

end

variable {ops} {s t : State W} {a : Label W}

/-! ## What stays -/

def Linked (s : State W) (incidentId alertId : Nat) : Prop :=
  ∃ linkedAt, s.links.get? (incidentId, alertId) = some linkedAt

/-- What one state has is in the other: the alerts as they are, the incidents under their ids, the
    links, and the messages. -/
structure Grows (s t : State W) : Prop where
  alerts : ∀ k v, s.alerts.get? k = some v → t.alerts.get? k = some v
  incidents : s.incidents.Extends t.incidents
  links : ∀ i a, Linked s i a → Linked t i a
  started : s.started ⊆ t.started

theorem Grows.refl (s : State W) : Grows s s :=
  ⟨fun _ _ h => h, .refl _, fun _ _ h => h, .refl _⟩

theorem get?_insertIfAbsent {alert : AlertInsert} {alerts : Alerts} {k : AlertKey}
    {v : Nat × AlertRow} (h : alerts.get? k = some v) :
    (alerts.insert alert.key alert.row).get? k = some v := by
  rw [Serial.get?_insert]
  split_ifs with hk
  · rw [← hk, h, Option.getD_some]
  · exact h

theorem extends_updateStatus {incidentId : Nat} {status : IncidentStatus} {actor request : String}
    {changedAt : Time} {incidents incidents' : Incidents} {audit : Option StatusAudit}
    (h : updateStatus incidentId status actor request changedAt incidents =
      .ok (incidents', audit)) : incidents.Extends incidents' := by
  obtain ⟨rfl, -⟩ | ⟨k, before, -, -, rfl, -⟩ := updateStatus_eq_ok h
  · exact .refl _
  · exact Serial.extends_update _ _ _

/-! ## One fixed rule set -/

def Settled (s : State W) (k : AlertKey) (incident : Option IncidentCorrelation) : Prop :=
  ∃ alertId row, s.alerts.get? k = some (alertId, row) ∧
    ∀ c ∈ incident, ∃ incidentId row, s.incidents.get? c.key = some (incidentId, row) ∧
      Linked s incidentId alertId

theorem Settled.mono {k : AlertKey} {incident : Option IncidentCorrelation}
    (h : Settled s k incident) (hg : Grows s t) : Settled t k incident := by
  obtain ⟨alertId, row, halert, hincident⟩ := h
  refine ⟨alertId, row, hg.alerts _ _ halert, fun c hc => ?_⟩
  obtain ⟨incidentId, row, hrow, hlinked⟩ := hincident c hc
  obtain ⟨row', hrow'⟩ := hg.incidents _ _ _ hrow
  exact ⟨incidentId, row', hrow', hg.links _ _ hlinked⟩

variable (ops) (R : List LoadedRule)

structure Occurs (s : State W) (m : ValidatedMessage) (loaded : LoadedRule) : Prop where
  started : m ∈ s.started
  mem : loaded ∈ R
  fires : Fires ops m.event loaded

structure Todo (s : State W) (m : ValidatedMessage) (todo : List DetectionMatch) : Prop where
  started : m ∈ s.started
  occurs : ∀ x ∈ todo, ∃ loaded now, Occurs ops R s m loaded ∧ IsMatch m now loaded x
  settled : ∀ loaded ∈ R, Fires ops m.event loaded →
    Settled s (alertKey m.event loaded) (correlation m.event loaded) ∨
      ∃ x ∈ todo, ∃ now, IsMatch m now loaded x

def HasAlert (s : State W) (x : DetectionMatch) (stored : StoredAlert) : Prop :=
  ∃ row, s.alerts.get? x.alert.key = some (stored.alertId, row) ∧
    row.detectedAt = stored.detectedAt

/-- What a worker in a phase relies on. -/
def PhaseInv (s : State W) : Phase → Prop
  | .idle => True
  | .matched m rest => Todo ops R s m rest
  | .alerted m x c stored rest =>
    Todo ops R s m (x :: rest) ∧ x.incident = some c ∧ HasAlert s x stored
  | .correlated m x c stored incident rest =>
    Todo ops R s m (x :: rest) ∧ x.incident = some c ∧ HasAlert s x stored ∧
      ∃ row, s.incidents.get? c.key = some (incident.incidentId, row)

/-! A row belongs to a rule that fires on a message that was started. -/

def AlertOrigin (s : State W) (k : AlertKey) (row : AlertRow) : Prop :=
  ∃ m loaded, Occurs ops R s m loaded ∧ k = alertKey m.event loaded ∧
    row.severity = loaded.rule.severity

def IncidentOrigin (s : State W) (k : IncidentKey) : Prop :=
  ∃ m loaded, Occurs ops R s m loaded ∧ ∃ c ∈ correlation m.event loaded, k = c.key

def LinkOrigin (s : State W) (incidentId alertId : Nat) : Prop :=
  ∃ m loaded, Occurs ops R s m loaded ∧ ∃ c ∈ correlation m.event loaded,
    (∃ row, s.incidents.get? c.key = some (incidentId, row)) ∧
      ∃ row, s.alerts.get? (alertKey m.event loaded) = some (alertId, row)

/-- What is stored comes from messages that were started, and the workers get on with them. -/
structure Inv (s : State W) : Prop where
  rules : ∀ w, s.rules w = R
  alerts : ∀ k v, s.alerts.get? k = some v → AlertOrigin ops R s k v.2
  incidents : ∀ k v, s.incidents.get? k = some v → IncidentOrigin ops R s k
  links : ∀ i a, Linked s i a → LinkOrigin ops R s i a
  worker : ∀ w, PhaseInv ops R s (s.worker w)
  completed : ∀ m ∈ s.completed, ∀ loaded ∈ R, Fires ops m.event loaded →
    Settled s (alertKey m.event loaded) (correlation m.event loaded)

variable {ops R} {m : ValidatedMessage} {x : DetectionMatch} {rest : List DetectionMatch}

theorem Occurs.mono {loaded : LoadedRule} (h : Occurs ops R s m loaded) (hg : Grows s t) :
    Occurs ops R t m loaded :=
  ⟨hg.started h.started, h.mem, h.fires⟩

theorem Todo.mono (h : Todo ops R s m rest) (hg : Grows s t) : Todo ops R t m rest where
  started := hg.started h.started
  occurs x hx := by
    obtain ⟨loaded, now, ho, hm⟩ := h.occurs x hx
    exact ⟨loaded, now, ho.mono hg, hm⟩
  settled loaded hl hf := (h.settled loaded hl hf).imp_left (·.mono hg)

theorem Todo.tail (h : Todo ops R s m (x :: rest)) (hx : Settled s x.alert.key x.incident) :
    Todo ops R s m rest where
  started := h.started
  occurs y hy := h.occurs y (List.mem_cons_of_mem x hy)
  settled loaded hl hf := by
    rcases h.settled loaded hl hf with hs | ⟨y, hy, now, hm⟩
    · exact .inl hs
    · rcases List.mem_cons.1 hy with rfl | hy
      · rw [hm.key, hm.incident] at hx
        exact .inl hx
      · exact .inr ⟨y, hy, now, hm⟩

theorem HasAlert.mono {stored : StoredAlert} (h : HasAlert s x stored) (hg : Grows s t) :
    HasAlert t x stored := by
  obtain ⟨row, hrow, hd⟩ := h
  exact ⟨row, hg.alerts _ _ hrow, hd⟩

theorem PhaseInv.mono {phase : Phase} (h : PhaseInv ops R s phase) (hg : Grows s t) :
    PhaseInv ops R t phase := by
  cases phase with
  | idle => trivial
  | matched m rest => exact Todo.mono h hg
  | alerted m x c stored rest =>
    obtain ⟨htodo, hc, halert⟩ := h
    exact ⟨htodo.mono hg, hc, halert.mono hg⟩
  | correlated m x c stored incident rest =>
    obtain ⟨htodo, hc, halert, row, hrow⟩ := h
    exact ⟨htodo.mono hg, hc, halert.mono hg, hg.incidents _ _ _ hrow⟩

/-- What a step adds: a new row is that of a match, and the rules that fire on a message that is
    completed have their alerts. -/
structure Added (ops : RuleOps) (R : List LoadedRule) (s t : State W) : Prop where
  alerts : ∀ k v, t.alerts.get? k = some v →
    s.alerts.get? k = some v ∨ AlertOrigin ops R t k v.2 := by exact fun _ _ h => .inl h
  incidents : ∀ k id row, t.incidents.get? k = some (id, row) →
    (∃ row', s.incidents.get? k = some (id, row')) ∨ IncidentOrigin ops R t k := by
    exact fun _ _ row h => .inl ⟨row, h⟩
  links : ∀ i a, Linked t i a → Linked s i a ∨ LinkOrigin ops R t i a := by
    exact fun _ _ h => .inl h
  completed : ∀ m ∈ t.completed, m ∈ s.completed ∨ ∀ loaded ∈ R, Fires ops m.event loaded →
    Settled t (alertKey m.event loaded) (correlation m.event loaded) := by exact fun _ h => .inl h

theorem Inv.of_grows (h : Inv ops R s) (hg : Grows s t) (hrules : ∀ w, t.rules w = R)
    (hadded : Added ops R s t) (hworker : ∀ w, PhaseInv ops R t (t.worker w)) : Inv ops R t where
  rules := hrules
  alerts k v hv := by
    rcases hadded.alerts k v hv with hv | hnew
    · obtain ⟨m, loaded, ho, hk⟩ := h.alerts k v hv
      exact ⟨m, loaded, ho.mono hg, hk⟩
    · exact hnew
  incidents k v hv := by
    rcases hadded.incidents k v.1 v.2 hv with ⟨row, hrow⟩ | hnew
    · obtain ⟨m, loaded, ho, hk⟩ := h.incidents k _ hrow
      exact ⟨m, loaded, ho.mono hg, hk⟩
    · exact hnew
  links i a hl := by
    rcases hadded.links i a hl with hl | hnew
    · obtain ⟨m, loaded, ho, c, hc, ⟨row, hrow⟩, row', hrow'⟩ := h.links i a hl
      exact ⟨m, loaded, ho.mono hg, c, hc, hg.incidents _ _ _ hrow, row', hg.alerts _ _ hrow'⟩
    · exact hnew
  worker := hworker
  completed m hm loaded hl hf := by
    rcases hadded.completed m hm with hm | hnew
    · exact (h.completed m hm loaded hl hf).mono hg
    · exact hnew loaded hl hf

theorem Inv.phase {w : W} {phase : Phase} (h : Inv ops R s) (hw : s.worker w = phase) :
    PhaseInv ops R s phase := hw ▸ h.worker w

theorem initial_inv : Inv ops R (initial R : State W) where
  rules _ := rfl
  alerts _ _ h := nomatch h
  incidents _ _ h := nomatch h
  links _ _ h := nomatch h
  worker _ := trivial
  completed _ h := nomatch h

theorem todo_of_evaluate {now : Time} {found : List DetectionMatch} (hm : m ∈ t.started)
    (h : evaluate ops R m now = .ok found) : Todo ops R t m found where
  started := hm
  occurs x hx := by
    obtain ⟨loaded, hl, hf, hx⟩ := (evaluate_eq_ok h).1 x hx
    exact ⟨loaded, now, ⟨hm, hl, hf⟩, hx⟩
  settled loaded hl hf := by
    obtain ⟨x, hx, hmatch⟩ := (evaluate_eq_ok h).2 loaded hl hf
    exact .inr ⟨x, hx, now, hmatch⟩

theorem Todo.afterAlert {stored : StoredAlert} (h : Todo ops R s m (x :: rest))
    (hx : HasAlert s x stored) : PhaseInv ops R s (afterAlert m x stored rest) := by
  rw [Detection.afterAlert]
  cases hc : x.incident with
  | none =>
    obtain ⟨row, hrow, -⟩ := hx
    exact h.tail ⟨stored.alertId, row, hrow, by rw [hc]; nofun⟩
  | some c => exact ⟨h, hc, hx⟩

/-! ## Every run -/

variable [DecidableEq W]

theorem step_of_next (h : next ops s a = some t) : Step ops s a t := by
  fun_cases next ops s a <;> simp only [next, *] at h <;> try cases h
  all_goals grind [Step]

theorem Step.grows (h : Step ops s a t) : Grows s t := by
  have hrefl := Grows.refl s
  cases h with
  | received | failed => exact { hrefl with started := List.subset_cons_self _ _ }
  | inserted hw h =>
    obtain ⟨rfl, -⟩ := AlertRepository.insertIfAbsent_eq_ok h
    exact { hrefl with alerts := fun _ _ h => get?_insertIfAbsent h }
  | upserted hw h =>
    obtain ⟨rfl, -⟩ := upsert_eq_ok h
    exact { hrefl with incidents := Serial.extends_upsert _ _ _ _ }
  | linked hw =>
    refine { hrefl with links := fun i a ⟨linkedAt, hl⟩ => ⟨linkedAt, ?_⟩ }
    show (s.links.insert _ _).get? _ = _
    rw [get?_insert]
    split_ifs with hp
    · rw [← hp, hl, Option.getD_some]
    · exact hl
  | insertFailed | refused | finished | abandoned | deployed => exact { hrefl with }
  | closedExpired => exact { hrefl with incidents := Serial.extends_update _ _ _ }
  | updatedStatus h => exact { hrefl with incidents := extends_updateStatus h }

/-- Where an incident's row after a step comes from. -/
inductive RowStep (s : State W) (k : IncidentKey) (i : Nat) (row' : IncidentRow) : Label W → Prop
  | same {label} (h : s.incidents.get? k = some (i, row')) : RowStep s k i row' label
  | inserted {w m x c stored rest} (hw : s.worker w = .alerted m x c stored rest) (hk : k = c.key)
      (h : s.incidents.get? k = none) (hrow : row' = (incidentInsert x c stored).row)
      (hcheck : row'.Check k.windowStartAt) : RowStep s k i row' (.upsertIncident w)
  | merged {w m x c stored rest row} (hw : s.worker w = .alerted m x c stored rest)
      (hk : k = c.key) (h : s.incidents.get? k = some (i, row))
      (hrow : row' = (incidentInsert x c stored).merge row) (hcheck : row'.Check k.windowStartAt) :
      RowStep s k i row' (.upsertIncident w)
  | closed {now row} (h : s.incidents.get? k = some (i, row)) (hexpired : expired now row = true)
      (hrow : row' = close now row) : RowStep s k i row' (.closeExpired now)
  | changed {status actor request changedAt row} (h : s.incidents.get? k = some (i, row))
      (hrow : row' = changeStatus status changedAt row) :
      RowStep s k i row' (.updateStatus i status actor request changedAt)

theorem Step.rowStep (h : Step ops s a t) {k : IncidentKey} {i : Nat} {row' : IncidentRow}
    (hrow : t.incidents.get? k = some (i, row')) : RowStep s k i row' a := by
  cases h with
  | @upserted w m x c stored rest incidents incident hw hupsert =>
    obtain ⟨rfl, -, hcheck⟩ := upsert_eq_ok hupsert
    rcases hcheck k i row' hrow with hsame | hcheck
    · exact .same hsame
    · have hrow' : (s.incidents.upsert c.key _ _).get? k = some (i, row') := hrow
      rw [Serial.get?_upsert] at hrow'
      split_ifs at hrow' with hk
      · subst hk
        cases hget : s.incidents.get? c.key with
        | none =>
          rw [hget] at hrow'
          cases hrow'
          exact .inserted hw rfl hget rfl hcheck
        | some v =>
          rw [hget] at hrow'
          cases hrow'
          exact .merged hw rfl hget rfl hcheck
      · exact .same hrow'
  | @closedExpired now =>
    have hrow' : (s.incidents.update _ (close now)).get? k = some (i, row') := hrow
    obtain hsame | ⟨row, hget, hp, rfl⟩ := Serial.get?_update_eq_some.1 hrow'
    · exact .same hsame.1
    · exact .closed hget hp rfl
  | @updatedStatus id status actor request changedAt incidents audit hupdate =>
    obtain ⟨rfl, -⟩ | ⟨k', before, -, -, rfl, -⟩ := updateStatus_eq_ok hupdate
    · exact .same hrow
    · have hrow' : (s.incidents.update _ (changeStatus status changedAt)).get? k =
        some (i, row') := hrow
      obtain hsame | ⟨row, hget, hp, rfl⟩ := Serial.get?_update_eq_some.1 hrow'
      · exact .same hsame.1
      · cases of_decide_eq_true hp
        exact .changed hget rfl
  | _ => exact .same hrow

theorem PhaseInv.update {w : W} {phase : Phase} (h : ∀ v, PhaseInv ops R s (s.worker v))
    (hg : Grows s t) (ht : t.worker = update s.worker w phase)
    (hphase : PhaseInv ops R t phase) : ∀ v, PhaseInv ops R t (t.worker v) := by
  rw [ht]
  exact forall_update (fun v => (h v).mono hg) phase hphase

theorem inv_step (h : Inv ops R s) (hP : FixedRules s a) (hs : Step ops s a t) : Inv ops R t := by
  have hg := hs.grows
  cases hs with
  | @received w m now found hw heval =>
    rw [h.rules w] at heval
    exact h.of_grows hg h.rules {}
      (PhaseInv.update h.worker hg rfl (todo_of_evaluate List.mem_cons_self heval))
  | failed => exact h.of_grows hg h.rules {} fun w => (h.worker w).mono hg
  | @inserted w m x rest alerts stored hw hinsert =>
    obtain ⟨rfl, row, hrow, hd⟩ := AlertRepository.insertIfAbsent_eq_ok hinsert
    have htodo := Todo.mono (h.phase hw) hg
    refine h.of_grows hg h.rules { alerts := fun k v hv => ?_ }
      (PhaseInv.update h.worker hg rfl (htodo.afterAlert ⟨row, hrow, hd⟩))
    -- A new alert is that of the match.
    obtain ⟨loaded, now, ho, hx⟩ := htodo.occurs x List.mem_cons_self
    have hv' : (s.alerts.insert x.alert.key x.alert.row).get? k = some v := hv
    rw [Serial.get?_insert] at hv'
    split_ifs at hv' with hk
    · cases hget : s.alerts.get? x.alert.key with
      | none =>
        rw [hget] at hv'
        cases hv'
        exact .inr ⟨m, loaded, ho, hk.trans hx.key, hx.severity⟩
      | some v' =>
        rw [hget] at hv'
        cases hv'
        exact .inl (hk ▸ hget)
    · exact .inl hv'
  | @upserted w m x c stored rest incidents incident hw hupsert =>
    obtain ⟨rfl, hrow, -⟩ := upsert_eq_ok hupsert
    obtain ⟨htodo, hc, halert⟩ := h.phase hw
    refine h.of_grows hg h.rules { incidents := fun k id row hv => ?_ }
      (PhaseInv.update h.worker hg rfl ⟨htodo.mono hg, hc, halert.mono hg, hrow⟩)
    -- A new incident is that of the match.
    obtain ⟨loaded, now, ho, hx⟩ := (htodo.mono hg).occurs x List.mem_cons_self
    have hv' : (s.incidents.upsert c.key _ _).get? k = some (id, row) := hv
    rw [Serial.get?_upsert] at hv'
    split_ifs at hv' with hk
    · exact .inr ⟨m, loaded, ho, c, hx.incident.symm.trans hc, hk⟩
    · exact .inl ⟨row, hv'⟩
  | @linked w m x c stored incident rest hw =>
    obtain ⟨htodo, hc, ⟨row, hrow, hd⟩, irow, hirow⟩ := h.phase hw
    refine h.of_grows hg h.rules { links := fun i a ⟨linkedAt, hl⟩ => ?_ } ?_
    · -- A new link is that of the match.
      obtain ⟨loaded, now, ho, hx⟩ := (htodo.mono hg).occurs x List.mem_cons_self
      have hl' : (s.links.insert (incident.incidentId, stored.alertId) _).get? (i, a) =
        some linkedAt := hl
      rw [get?_insert] at hl'
      split_ifs at hl' with hp
      · cases hp
        exact .inr ⟨m, loaded, ho, c, hx.incident.symm.trans hc, ⟨irow, hirow⟩, row, hx.key ▸ hrow⟩
      · exact .inl ⟨linkedAt, hl'⟩
    · refine PhaseInv.update h.worker hg rfl ((htodo.mono hg).tail ⟨stored.alertId, row, hrow, ?_⟩)
      intro c' hc'
      cases hc.symm.trans hc'
      exact ⟨incident.incidentId, irow, hirow, _, (get?_insert _ _ _ _).trans (if_pos rfl)⟩
  | @finished w m hw =>
    refine h.of_grows hg h.rules { completed := fun m' hm => ?_ }
      (PhaseInv.update h.worker hg rfl trivial)
    rcases List.mem_cons.1 hm with rfl | hm
    · refine .inr fun loaded hl hf => ?_
      rcases (Todo.mono (h.phase hw) hg).settled loaded hl hf with hs | ⟨x, hx, -⟩
      · exact hs
      · cases hx
    · exact .inl hm
  | insertFailed | refused | abandoned =>
    exact h.of_grows hg h.rules {} (PhaseInv.update h.worker hg rfl trivial)
  | deployed => cases hP
  | closedExpired =>
    exact h.of_grows hg h.rules
      { incidents := fun _ _ _ h => .inl (Serial.exists_of_get?_update h) }
      fun w => (h.worker w).mono hg
  | updatedStatus hupdate =>
    refine h.of_grows hg h.rules { incidents := fun _ _ row hrow => .inl ?_ }
      fun w => (h.worker w).mono hg
    obtain ⟨rfl, -⟩ | ⟨k, before, -, -, rfl, -⟩ := updateStatus_eq_ok hupdate
    · exact ⟨row, hrow⟩
    · exact Serial.exists_of_get?_update hrow

theorem inv_of_reachable (h : (detection ops R).Reachable FixedRules s) : Inv ops R s :=
  h.invariant initial_inv fun _ _ _ _ hs hP hn => inv_step hs hP (step_of_next hn)

/-! ## A sample rule set -/

/-- CPython, for values that are not composed of others, patterns without special characters and texts
    that are no addresses, with one technique in the catalog. -/
def sampleOps : RuleOps where
  str
    | .none => .ok "None"
    | .bool b => .ok (if b then "True" else "False")
    | .int n => if n.natAbs < 10 ^ 4300 then .ok (toString n) else .error .valueError
    | .str s => .ok s
    | _ => .error .recursionError
  repr s := "'" ++ s ++ "'"
  compiles _ := true
  search pattern text := isIn pattern text
  isAddress _ := false
  inNetwork _ _ := none
  resolve tacticCode techniqueCode :=
    if tacticCode = "TA0002" ∧ techniqueCode = "T1059.001" then .ok ("Execution", "PowerShell")
    else .error "unknown technique"

def nameCondition (operator : Operator) (value : Value) : RuleCondition :=
  ⟨"process_name", operator, value, by decide⟩

def sampleRule (windowSeconds : Nat) (h : 1 ≤ windowSeconds) : RuleV1 where
  ruleCode := "PROC_POWERSHELL"
  ruleName := "PowerShell"
  alertTitle := "PowerShell started"
  alertSummary := "PowerShell was started."
  version := 1
  enabled := true
  eventType := .processExecution
  conditions := [nameCondition .eq (.str "powershell.exe")]
  severity := .high
  riskScore := 76
  mitre := some ⟨"TA0002", "T1059.001"⟩
  incident := ⟨true, some "powershell-chain", some windowSeconds, by simpa using h, by simp, by simp⟩
  one_le_version := by decide
  conditions_ne := by simp
  riskScore_mem := by decide
  mitre_isSome := rfl

def powershellRule : RuleV1 := sampleRule 60 (by decide)

def sampleRules : List LoadedRule := [⟨powershellRule, some "Execution", some "PowerShell"⟩]

theorem loadDirectory_sampleRules :
    loadDirectory sampleOps [powershellRule] = .ok sampleRules := rfl

def sampleEvent (eventId : UUID) (occurredAt : Time) : DetectionEvent where
  eventId := eventId
  endpointId := 7
  agentId := "agent-7"
  eventType := "PROCESS_EXECUTION"
  occurredAt := occurredAt
  columns := [("process_name", .str "powershell.exe")]

end Edr.Detection
