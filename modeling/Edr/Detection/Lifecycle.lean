import Edr.Detection.Run

/-!
# The life of an incident

An incident is open until its window has passed and the periodic task closes it, or until a user
closes it; users may open it again. The constraint of the table ties `closed_at` to the end of the
window, and the upsert of a later alert may move this end: not with one rule set, where the windows of
a correlation key have one length, but after a deployment that makes them longer. If the incident is
closed by then, the constraint refuses the upsert.
-/

namespace Edr.Detection

open IncidentRepository

variable {W : Type*} {ops : RuleOps} {R : List LoadedRule} {s t : State W}

/-- An operator has changed the incident's status. -/
def Manual (s : State W) (incidentId : Nat) : Prop :=
  ∃ audit ∈ s.auditLogs, audit.resourceId = incidentId

structure Lifecycle (s : State W) : Prop where
  refused : s.refused = 0
  open_ : ∀ k i row, s.incidents.get? k = some (i, row) →
    (row.status = .open_ ↔ row.closedAt = none)
  closed : ∀ k i row, s.incidents.get? k = some (i, row) →
    (row.status = .closed ↔ row.closedAt = some row.windowEndAt)
  manual : ∀ k i row, s.incidents.get? k = some (i, row) → Manual s i →
    ∀ now, (closeExpired now s.incidents).1.get? k = some (i, row)

def notExtended (s : State W) : Label W → Bool
  | .upsertIncident w =>
    match s.worker w with
    | .alerted _ _ c _ _ => (s.incidents.get? c.key).all fun v =>
      !(decide (v.2.status = .closed) && decide (v.2.windowEndAt < c.windowEndAt))
    | _ => true
  | _ => true

def NotExtended (s : State W) (a : Label W) : Prop := notExtended s a = true

instance (s : State W) (a : Label W) : Decidable (NotExtended s a) :=
  inferInstanceAs (Decidable (_ = _))

/-! ## What holds in every run -/

def DetectionMatch.Windowed (x : DetectionMatch) : Prop :=
  ∀ c ∈ x.incident, c.windowStartAt < c.windowEndAt

theorem IsMatch.windowed {m : ValidatedMessage} {now : Time} {loaded : LoadedRule}
    {x : DetectionMatch} (h : IsMatch m now loaded x) : x.Windowed := by
  intro c hc
  obtain ⟨seconds, -, -, hseconds, hend⟩ := correlation_eq_some (h.incident.symm.trans hc)
  have hpos := loaded.rule.incident.one_le_windowSeconds seconds hseconds
  have hlt : c.windowStartAt < c.windowStartAt + (seconds : Int) * 1000 := by
    have : (0 : Int) < (seconds : Int) * 1000 := by omega
    exact Int.lt_add_of_pos_right _ this
  rw [hend]
  exact hlt

def PhaseWindowed : Phase → Prop
  | .idle => True
  | .matched _ rest => ∀ x ∈ rest, x.Windowed
  | .alerted _ _ c _ rest => c.windowStartAt < c.windowEndAt ∧ ∀ x ∈ rest, x.Windowed
  | .correlated _ _ _ _ _ rest => ∀ x ∈ rest, x.Windowed

structure LifeInv (s : State W) : Prop where
  check : ∀ k i row, s.incidents.get? k = some (i, row) → row.Check k.windowStartAt
  manual : ∀ i, Manual s i →
    ∃ k row, s.incidents.get? k = some (i, row) ∧ row.statusOverridden = true
  worker : ∀ w, PhaseWindowed (s.worker w)

theorem initial_lifeInv : LifeInv (initial R : State W) where
  check _ _ _ h := nomatch h
  manual _ h := absurd h.choose_spec.1 List.not_mem_nil
  worker _ := trivial

theorem RowStep.overridden {k : IncidentKey} {i : Nat} {row row' : IncidentRow} {a : Label W}
    (h : RowStep s k i row' a) (hrow : s.incidents.get? k = some (i, row))
    (ho : row.statusOverridden = true) : row'.statusOverridden = true := by
  cases h with
  | same hget =>
    cases hrow.symm.trans hget
    exact ho
  | inserted hw hk hnone => cases hrow.symm.trans hnone
  | merged hw hk hget hrow' =>
    cases hrow.symm.trans hget
    exact hrow' ▸ ho
  | closed hget hexpired hrow' =>
    cases hrow.symm.trans hget
    exact hrow' ▸ ho
  | changed hget hrow' => exact hrow' ▸ rfl

variable [DecidableEq W] {a : Label W}

theorem phaseWindowed_step (h : ∀ v, PhaseWindowed (s.worker v)) (hs : Step ops s a t) (v : W) :
    PhaseWindowed (t.worker v) := by
  cases hs with
  | @received w m now found hw heval =>
    refine forall_update h (.matched m found) (fun x hx => ?_) v
    obtain ⟨loaded, -, -, hmatch⟩ := (evaluate_eq_ok heval).1 x hx
    exact hmatch.windowed
  | failed hw => exact h v
  | @inserted w m x rest alerts stored hw hinsert =>
    have hphase := h w
    rw [hw] at hphase
    obtain ⟨hx, hrest⟩ := List.forall_mem_cons.1 hphase
    refine forall_update h (afterAlert m x stored rest) ?_ v
    rw [afterAlert]
    cases hc : x.incident with
    | none => exact hrest
    | some c => exact ⟨hx c hc, hrest⟩
  | @upserted w m x c stored rest incidents incident hw hupsert =>
    have hphase := h w
    rw [hw] at hphase
    exact forall_update h (.correlated m x c stored incident rest) hphase.2 v
  | @linked w m x c stored incident rest hw =>
    have hphase := h w
    rw [hw] at hphase
    exact forall_update h (.matched m rest) hphase v
  | closedExpired => exact h v
  | updatedStatus hupdate => exact h v
  | _ => exact forall_update h .idle trivial v

theorem exists_overridden {k : IncidentKey} {i : Nat} {row : IncidentRow} (hs : Step ops s a t)
    (hrow : s.incidents.get? k = some (i, row)) (ho : row.statusOverridden = true) :
    ∃ row', t.incidents.get? k = some (i, row') ∧ row'.statusOverridden = true := by
  obtain ⟨row', hrow'⟩ := hs.grows.incidents k i row hrow
  exact ⟨row', hrow', (hs.rowStep hrow').overridden hrow ho⟩

theorem manual_step (h : LifeInv s) (hs : Step ops s a t) {i : Nat} (hm : Manual t i) :
    ∃ k row, t.incidents.get? k = some (i, row) ∧ row.statusOverridden = true := by
  have hold (hm : Manual s i) :
      ∃ k row, t.incidents.get? k = some (i, row) ∧ row.statusOverridden = true := by
    obtain ⟨k, row, hrow, ho⟩ := h.manual i hm
    exact ⟨k, exists_overridden hs hrow ho⟩
  cases hs with
  | @updatedStatus id status actor request changedAt incidents audit hupdate =>
    obtain ⟨entry, hentry, hid⟩ := hm
    rcases List.mem_append.1 hentry with hold' | hnew
    · exact hold ⟨entry, hold', hid⟩
    · -- The new audit row is that of the row that was changed.
      obtain ⟨-, rfl⟩ | ⟨k, before, hrow, -, rfl, rfl⟩ :=
        updateStatus_eq_ok hupdate
      · cases hnew
      · cases List.mem_singleton.1 hnew
        subst hid
        exact ⟨k, _, Serial.get?_update_eq_some.2 (.inr ⟨before, hrow, decide_eq_true rfl, rfl⟩), rfl⟩
  | _ => exact hold hm

theorem check_step (h : LifeInv s) (hs : Step ops s a t) {k : IncidentKey} {i : Nat}
    {row' : IncidentRow} (hrow : t.incidents.get? k = some (i, row')) :
    row'.Check k.windowStartAt := by
  cases hs.rowStep hrow with
  | same hget => exact h.check _ _ _ hget
  | inserted hw hk hnone hrow' hcheck => exact hcheck
  | merged hw hk hget hrow' hcheck => exact hcheck
  | closed hget hexpired hrow' => exact hrow' ▸ check_close (h.check _ _ _ hget)
  | changed hget hrow' => exact hrow' ▸ check_changeStatus (h.check _ _ _ hget)

theorem lifeInv_step (h : LifeInv s) (hs : Step ops s a t) : LifeInv t where
  check _ _ _ hrow := check_step h hs hrow
  manual _ hm := manual_step h hs hm
  worker := phaseWindowed_step h.worker hs

omit [DecidableEq W] in
theorem LifeInv.lifecycle (h : LifeInv s) (hrefused : s.refused = 0) : Lifecycle s where
  refused := hrefused
  open_ k i row hrow := by
    rcases (h.check k i row hrow).2 with ⟨hstatus, hclosed⟩ | ⟨hstatus, hclosed⟩
    · simp [hstatus, hclosed]
    · simp [hstatus, hclosed]
  closed k i row hrow := by
    rcases (h.check k i row hrow).2 with ⟨hstatus, hclosed⟩ | ⟨hstatus, hclosed⟩
    · simp [hstatus, hclosed]
    · simp [hstatus, hclosed]
  manual k i row hrow hm now := by
    obtain ⟨k', row', hrow', ho⟩ := h.manual i hm
    cases s.incidents.inj _ _ _ _ _ hrow hrow'
    cases hrow.symm.trans hrow'
    refine Serial.get?_update_eq_some.2 (.inl ⟨hrow, ?_⟩)
    rw [expired, ho]
    simp

/-! ## When an upsert is refused -/

omit [DecidableEq W] in
theorem notExtended_iff {w : W} {m : ValidatedMessage} {x : DetectionMatch}
    {c : IncidentCorrelation} {stored : StoredAlert} {rest : List DetectionMatch} (h : LifeInv s)
    (hw : s.worker w = .alerted m x c stored rest) :
    NotExtended s (.upsertIncident w) ↔
      upsert (incidentInsert x c stored) s.incidents ≠ .error .checkViolation := by
  have hphase := h.worker w
  rw [hw] at hphase
  rw [Ne, upsert_eq_error hphase.1 h.check, NotExtended, notExtended, hw]
  show ((s.incidents.get? c.key).all _ = true) ↔
    ¬∃ id row, s.incidents.get? c.key = some (id, row) ∧ row.status = .closed ∧
      row.windowEndAt < c.windowEndAt
  cases hget : s.incidents.get? c.key with
  | none => simp
  | some v => simp [Prod.ext_iff, imp_iff_not_or]

theorem refused_of_notExtended (h : LifeInv s) (hP : NotExtended s a) (hs : Step ops s a t) :
    t.refused = s.refused := by
  cases hs with
  | @refused w m x c stored rest e hw hupsert =>
    cases eq_checkViolation_of_upsert hupsert
    exact absurd hupsert ((notExtended_iff h hw).1 hP)
  | _ => rfl

theorem refused_of_not_notExtended (h : LifeInv s) (hP : ¬NotExtended s a) (hs : Step ops s a t) :
    t.refused ≠ 0 := by
  cases hs with
  | upserted hw hupsert =>
    refine absurd ((notExtended_iff h hw).2 ?_) hP
    rw [hupsert]
    nofun
  | refused hw hupsert => exact Nat.succ_ne_zero _
  | _ => exact absurd rfl hP

theorem refused_step (h : s.refused ≠ 0) (hs : Step ops s a t) : t.refused ≠ 0 := by
  cases hs with
  | refused hw hupsert => exact Nat.succ_ne_zero _
  | _ => exact h

/-- In every run of any number of workers, with any accepted rule sets that are deployed one after the
    other, with any times of the periodic task and any changes by users: no upsert was refused, the
    columns agree, and what a user has changed is left alone, iff no upsert of the run would have
    moved the end of the window of a closed incident. -/
theorem lifecycle_iff_notExtended {l : List (Label W)}
    (hrun : (detection ops R).run (initial R) l = some s) :
    Lifecycle s ↔ (detection ops R).runIf NotExtended (initial R) l = some s := by
  have hkeep (s : State W) (a : Label W) (t : State W) (_ : True)
      (h : LifeInv s ∧ s.refused = 0) (hP : NotExtended s a)
      (hn : (detection ops R).next s a = some t) : LifeInv t ∧ t.refused = 0 := by
    have hs := step_of_next hn
    exact ⟨lifeInv_step h.1 hs, (refused_of_notExtended h.1 hP hs).trans h.2⟩
  constructor
  · intro h
    refine (System.runIf_or (V := fun s => s.refused ≠ 0) hkeep ?_ ?_ (fun _ _ => trivial)
      ⟨initial_lifeInv, rfl⟩ hrun).resolve_right (not_not_intro h.refused)
    · exact fun s a t _ hs hP hn => refused_of_not_notExtended hs.1 hP (step_of_next hn)
    · exact fun s a t _ hs hn => refused_step hs (step_of_next hn)
  · intro hif
    obtain ⟨hlife, hrefused⟩ := System.runIf_stable hkeep (fun _ _ => trivial)
      ⟨initial_lifeInv, rfl⟩ hif
    exact hlife.lifecycle hrefused

def handle (eventId : UUID) (occurredAt now : Time) : List (Label (Fin 1)) := [
  .receive 0 ⟨sampleEvent eventId occurredAt, some 1⟩ now, .insertAlert 0, .upsertIncident 0,
  .linkAlert 0, .finish 0]

def reopenedRun : List (Label (Fin 1)) :=
  handle 1 30000 35000 ++ [.closeExpired 70000, .updateStatus 1 .open_ "7" "req-1" 75000,
    .deploy 0 [sampleRule 120 (by decide)]] ++ handle 2 40000 80000 ++ [.closeExpired 200000]

theorem lifecycle_iff_notExtended_reopenedRun :
    ∃ s, (detection sampleOps sampleRules).run (initial sampleRules) reopenedRun = some s ∧
      (∃ row, s.incidents.get? ⟨7, "powershell-chain", 0⟩ = some (1, row) ∧
        row.status = .open_ ∧ row.windowEndAt = 120000) ∧ Lifecycle s := by
  obtain ⟨s, hrun, hif, hrow⟩ :
      ∃ s, (detection sampleOps sampleRules).run (initial sampleRules) reopenedRun = some s ∧
        (detection sampleOps sampleRules).runIf NotExtended (initial sampleRules) reopenedRun =
          some s ∧ ∃ row, s.incidents.get? ⟨7, "powershell-chain", 0⟩ = some (1, row) ∧
            row.status = .open_ ∧ row.windowEndAt = 120000 :=
    ⟨_, rfl, rfl, _, rfl, rfl, rfl⟩
  exact ⟨s, hrun, hrow, (lifecycle_iff_notExtended hrun).2 hif⟩

def extendedRun : List (Label (Fin 1)) :=
  handle 1 30000 35000 ++ [.closeExpired 70000, .deploy 0 [sampleRule 120 (by decide)],
    .receive 0 ⟨sampleEvent 2 40000, some 1⟩ 80000, .insertAlert 0, .upsertIncident 0]

/-- The upsert is refused. -/
theorem upsert_refused_of_longer_window :
    ∃ s, (detection sampleOps sampleRules).run (initial sampleRules) extendedRun = some s ∧
      s.refused = 1 ∧ ¬Lifecycle s := by
  obtain ⟨s, hrun, hrefused⟩ :
      ∃ s, (detection sampleOps sampleRules).run (initial sampleRules) extendedRun = some s ∧
        s.refused = 1 := ⟨_, rfl, rfl⟩
  refine ⟨s, hrun, hrefused, fun h => ?_⟩
  cases hrefused.symm.trans h.refused

end Edr.Detection
