import Edr.Pipeline.Deletion
import Edr.Rollup.Frozen

/-!
# The barrier before a deletion

A lifecycle sweep refreshes the rollup of a day before it claims the deletion of that day: after the
partition is dropped, the rollup is all that is left in PostgreSQL of its counts. The refresh and the
claim are two transactions, and events may arrive in between.
-/

namespace Edr

open List Function Catalog

def Sweep.now? : Sweep → Option Time
  | idle => none
  | archiving now _ | counted now _ _ _ | exported now _ _ _ | uploaded now _ _ _ | headed now _ _ _
  | deleting now _ | claimed now _ _ | dropped now _ _ => some now

def Label.sweep? {W L : Type*} : Label W L → Option L
  | .sweep l _ | .put l | .record l | .claimDeletion l | .drop l | .mark l => some l
  | .work .. | .insert _ | .commit _ | .publish .. | .restore _ => none

namespace Rollup

open Pipeline Replica

/-! ## The system -/

structure Joint (W L V : Type) where
  pipeline : State W L
  rollup : Sync (V ⊕ L)
  refreshed : L → Bool

inductive JointLabel (W L V : Type)
  | pipeline (a : Label W L)
  | rollup (a : SyncLabel (V ⊕ L))

/-- What the barrier refreshes: `from_=bucket_start_at, to=bucket_start_at + timedelta(days=1)`. -/
def dayRange (d : Day) : Range := ⟨dayStart d, dayEnd d, none⟩

def exclusiveDate {W L : Type} (p : State W L) : Label W L → Option Day
  | .record l =>
    match p.sweep l with
    | .headed _ b _ _ => some b.key.bucketStartAt
    | _ => none
  | .claimDeletion l =>
    match p.sweep l with
    | .deleting _ (d :: _) => some d
    | _ => none
  | _ => none

def sourceChange {W L : Type} (p : State W L) : Label W L → Option SourceChange
  | .insert w =>
    match p.worker w with
    | .guarded r _ => some (.insert r)
    | _ => none
  | .drop l =>
    match p.sweep l with
    | .claimed _ d _ => some (.drop d)
    | _ => none
  | _ => none

namespace Joint

variable {W L V : Type} [DecidableEq L] [DecidableEq V]

def idle (s : Joint W L V) (l : L) : Bool :=
  match (s.rollup.synchronizers (.inr l)).phase with
  | .idle => true
  | _ => false

def proceeds (s : Joint W L V) : Label W L → Bool
  | .sweep _ .crash => true
  | .claimDeletion l => s.idle l && s.refreshed l
  | .sweep l _ | .put l | .record l | .drop l | .mark l => s.idle l
  | .work .. | .insert _ | .commit _ | .publish .. | .restore _ => true

def admits (s : Joint W L V) : SyncLabel (V ⊕ L) → Bool
  | .insert _ | .catalog _ | .drop _ => false
  | .begin (.inr l) job =>
    match s.pipeline.sweep l with
    | .deleting _ (d :: _) => decide (job = .range (dayRange d)) && !s.refreshed l
    | _ => false
  | .deliver (.inr _) _ | .flush (.inr _) | .commitOffset (.inr _) _ | .finish (.inr _)
  | .abandon (.inr _) | .crash (.inr _) => false
  | _ => true

/-- The state after a step of the pipeline, which leads to `p`. -/
def follow (s : Joint W L V) (a : Label W L) (p : State W L) : Joint W L V where
  pipeline := p
  rollup :=
    let seen : Sync (V ⊕ L) := { s.rollup with
      catalog := p.catalog
      log := (sourceChange s.pipeline a).toList ++ s.rollup.log }
    match a with
    | .sweep l .crash => seen.put (.inr l) .fresh
    | _ => seen
  refreshed :=
    match a.sweep? with
    | some l => update s.refreshed l false
    | none => s.refreshed

/-- The state after a step of the rollup, which leads to `x`. -/
def refresh (s : Joint W L V) (a : SyncLabel (V ⊕ L)) (x : Sync (V ⊕ L)) : Joint W L V where
  pipeline := s.pipeline
  rollup := x
  refreshed :=
    match a with
    | .commit (.inr l) => update s.refreshed l true
    | _ => s.refreshed

variable [Fintype W] [DecidableEq W] [Fintype L] [Fintype V] (cfg : Config)

def next (s : Joint W L V) : JointLabel W L V → Option (Joint W L V)
  | .pipeline a =>
    if (∀ d ∈ exclusiveDate s.pipeline a, s.rollup.dateFree d) ∧ s.proceeds a = true then
      (Pipeline.next cfg s.pipeline a).map (s.follow a)
    else none
  | .rollup a => if s.admits a then (s.rollup.next a).map (s.refresh a) else none

def init : Joint W L V := ⟨Pipeline.initial, Sync.init, fun _ => false⟩

inductive Step (s : Joint W L V) : JointLabel W L V → Joint W L V → Prop
  | pipeline {a : Label W L} {p : State W L} : Pipeline.next cfg s.pipeline a = some p →
      (∀ d ∈ exclusiveDate s.pipeline a, s.rollup.dateFree d) → s.proceeds a = true →
      Step s (.pipeline a) (s.follow a p)
  | rollup {a : SyncLabel (V ⊕ L)} {x : Sync (V ⊕ L)} : s.admits a = true →
      s.rollup.next a = some x → Step s (.rollup a) (s.refresh a x)

variable {cfg} in
theorem next_cases {s t : Joint W L V} {a : JointLabel W L V} (h : s.next cfg a = some t) :
    Step cfg s a t := by
  cases a with
  | pipeline a =>
    simp only [next] at h
    split_ifs at h with hif
    obtain ⟨p, hp, rfl⟩ := Option.map_eq_some_iff.1 h
    exact .pipeline hp hif.1 hif.2
  | rollup a =>
    simp only [next] at h
    split_ifs at h with hif
    obtain ⟨x, hx, rfl⟩ := Option.map_eq_some_iff.1 h
    exact .rollup hif hx

end Joint

/-- The system of the storage workers `W`, the lifecycle sweeps `L` and the other synchronizers
    `V`. -/
def jointSystem (W L V : Type) [Fintype W] [DecidableEq W] [Fintype L] [DecidableEq L] [Fintype V]
    [DecidableEq V] (cfg : Config) : System (Joint W L V) (JointLabel W L V) where
  init := .init
  next := Joint.next cfg

/-! ## The condition on a run -/

section

variable {W L V : Type} [Fintype L]

def verifiedLate (p : State W L) : Label W L → Bool
  | .record l => decide (∀ l', ∀ now ∈ (p.sweep l).now?, ∀ now' ∈ (p.sweep l').now?,
      now' - archiveSafetyWindow < now)
  | _ => true

def Admissible (s : Joint W L V) : JointLabel W L V → Prop
  | .pipeline a => CommitAtomic s.pipeline a ∧ verifiedLate s.pipeline a = true
  | .rollup _ => True

instance (s : Joint W L V) (a : JointLabel W L V) : Decidable (Admissible s a) :=
  match a with
  | .pipeline a => inferInstanceAs
      (Decidable (CommitAtomic s.pipeline a ∧ verifiedLate s.pipeline a = true))
  | .rollup _ => .isTrue trivial

end

/-! ## What a snapshot of the day misses -/

def Late (c : Catalog) (cutoff : Time) (k : BucketKey) : Prop :=
  ∀ row, c.archive.get? k = some row → ∀ v ∈ row.archiveVerifiedAt, cutoff < v

def Complete {W L : Type} (p : State W L) (d : Day) (cutoff : Time) (σ : Snapshot) : Prop :=
  ∀ r ∈ p.ingested, r.day = d → .insert r ∈ σ ∨ Late p.catalog cutoff r.bucketKey

section

variable {W L : Type} [DecidableEq W] [Fintype L] [DecidableEq L] {cfg : Config} {p p' : State W L}
  {a : Label W L} {k : BucketKey} {d : Day} {l : L} {now : Time} {σ σ' : Snapshot}

theorem Late.step (h : Late p.catalog (now - archiveSafetyWindow) k)
    (hstep : Pipeline.Step cfg p a p') (ha : verifiedLate p a = true)
    (hl : (p.sweep l).now? = some now) : Late p'.catalog (now - archiveSafetyWindow) k := by
  intro row' hrow' v hv
  rcases hstep.archive_row hrow' with ⟨row, hrow, hsame⟩ | ⟨row, hrow, rfl⟩ |
    ⟨l', now', b, o, todo, hot, rfl, hl', rfl, _, _, rfl⟩
  · rw [hsame.verifiedAt] at hv
    exact h row hrow v hv
  · cases hv
  · -- The archive is recorded in this step, with the time of its own sweep.
    cases hv
    simp only [verifiedLate, decide_eq_true_eq] at ha
    exact ha l now' (by rw [hl']; rfl) now hl

omit [DecidableEq W] [Fintype L] [DecidableEq L] in
theorem Complete.mono (h : Complete p d now σ) (hσ : σ <:+ σ') : Complete p d now σ' :=
  fun r hr hd => (h r hr hd).imp_left fun hmem => hσ.subset hmem

/-- While the sweep goes on, a snapshot that is complete stays so: an event that arrives withdraws the
    verification of its bucket. -/
theorem Complete.step (h : Complete p d (now - archiveSafetyWindow) σ) (hg : GuardInv p)
    (hstep : Pipeline.Step cfg p a p') (ha : verifiedLate p a = true)
    (hl : (p.sweep l).now? = some now) : Complete p' d (now - archiveSafetyWindow) σ := by
  have hold : ∀ r ∈ p.ingested, r.day = d →
      .insert r ∈ σ ∨ Late p'.catalog (now - archiveSafetyWindow) r.bucketKey :=
    fun r hr hd => (h r hr hd).imp_right fun hlate => hlate.step hstep ha hl
  intro r hr hd
  rcases hstep.ingested hg with heq | ⟨r', heq, hv⟩
  · exact hold r (heq ▸ hr) hd
  · rw [heq] at hr
    rcases mem_append.1 hr with hr | hr
    · exact hold r hr hd
    · cases mem_singleton.1 hr
      refine .inr fun row hrow v hrv => ?_
      rw [verified, hrow, Option.any_some, hrv] at hv
      cases hv

end

/-! ## The barrier -/

/-- The buckets of the day show snapshots of the kind `C`. -/
def DayShown (C : Snapshot → Prop) (d : Day) (m : Mirror) : Prop :=
  ∀ key : MinuteKey, key.date = d → ∃ σ, m.shown key = some σ ∧ C σ

/-- How far the refresh of the day is, where what it reads is of the kind `C`. -/
inductive Refresh.ReadsDay (C : Snapshot → Prop) (d : Day) (y : Refresh) : Prop
  | waiting : y.activity = [] → y.todo = selects (dayRange d) ++ [.replaceRange (dayRange d)] →
      ReadsDay C d y
  | read {σ : Snapshot} : C σ → y.activity = [⟨dayRange d, σ⟩] →
      y.todo = [.selectDimensions (dayRange d), .replaceRange (dayRange d)] ∨
        y.todo = [.replaceRange (dayRange d)] → ReadsDay C d y
  | replaced : y.todo = [] → DayShown C d y.working → ReadsDay C d y

def Phase.Guards (C : Snapshot → Prop) (d : Day) (frozen : Day → Bool) (m : Mirror)
    (refreshed : Bool) : Phase → Prop
  | .idle => refreshed = true → frozen d = true ∨ DayShown C d m
  | .guarding _ job _ _ => refreshed = false ∧ job = .range (dayRange d)
  | .refreshing y => refreshed = false ∧ (frozen d = true ∨ y.ReadsDay C d)
  | .flushed => True

section

variable {C C' : Snapshot → Prop} {d : Day} {m m' : Mirror} {y y' : Refresh} {log : Snapshot}
  {now : Time} {frozen frozen' : Day → Bool} {refreshed : Bool} {phase : Phase} {key : MinuteKey}

theorem hasKey_dayRange (hk : key.date = d) : (dayRange d).hasKey key = true := by
  obtain ⟨hfrom, hto⟩ := dateOf_eq_iff.1 hk
  exact hasKey_iff.2 ⟨hfrom, hto, rfl⟩

theorem statements_dayRange (hd : frozen d = false) :
    (Job.range (dayRange d)).statements frozen =
      selects (dayRange d) ++ [.replaceRange (dayRange d)] := by
  have hstart : dateOf (dayStart d) = d := Int.mul_ediv_cancel d (by decide)
  have hend : dateOf (dayEnd d - 1) = d := by
    rw [dateOf_eq_iff]
    unfold dayEnd dayStart dayLength
    grind
  have hdates : (bucketDatesForRange (dayRange d)).length = 1 := by
    simp only [bucketDatesForRange, dayRange, hstart, hend, length_map, length_range]
    grind
  have hsegments : refreshableRangeSegments frozen (dayRange d) = [dayRange d] := by
    rw [refreshableRangeSegments, hdates]
    simp [segmentLoop, dayRange, dayStart_lt_dayEnd, hstart, hd]
  rw [Job.statements, hsegments, flatMap_singleton]

theorem DayShown.advances (h : DayShown C d m) (hC : ∀ σ σ', σ <:+ σ' → C σ → C σ')
    (hm : Advances m.shown m'.shown) : DayShown C d m' := by
  intro key hk
  obtain ⟨σ, hσ, hc⟩ := h key hk
  obtain ⟨σ', hσ', hle⟩ := hm key σ hσ
  exact ⟨σ', hσ', hC σ σ' hle hc⟩

theorem DayShown.imp (h : DayShown C d m) (hC : ∀ σ, C σ → C' σ) : DayShown C' d m := by
  intro key hk
  obtain ⟨σ, hσ, hc⟩ := h key hk
  exact ⟨σ, hσ, hC σ hc⟩

theorem Refresh.ReadsDay.imp (h : y.ReadsDay C d) (hC : ∀ σ, C σ → C' σ) : y.ReadsDay C' d := by
  cases h with
  | waiting ha ht => exact .waiting ha ht
  | read hc ha ht => exact .read (hC _ hc) ha ht
  | replaced ht hs => exact .replaced ht (hs.imp hC)

theorem Refresh.ReadsDay.execute (h : y.ReadsDay C d) (hlog : C log)
    (hy : y.execute log now = some y') : y'.ReadsDay C d := by
  obtain ⟨flushing, locked, todo, activity, dimensions, working⟩ := y
  cases h with
  | waiting ha ht =>
    cases ha
    cases ht
    cases hy
    exact .read hlog rfl (.inl rfl)
  | read hc ha ht =>
    cases ha
    rcases ht with ht | ht
    · cases ht
      cases hy
      exact .read hc rfl (.inr rfl)
    · cases ht
      rename_i σ
      rcases hm : working.replaceRange (dayRange d) [⟨dayRange d, σ⟩] dimensions now with e | working'
      · simp only [Refresh.execute, hm] at hy
        cases hy
      · simp only [Refresh.execute, hm] at hy
        cases hy
        refine .replaced rfl fun key hk => ⟨σ, ?_, hc⟩
        rcases Mirror.shown_replaceRange hm rfl key with ⟨hnot, _⟩ | ⟨_, hs⟩
        · rw [hasKey_dayRange hk] at hnot
          cases hnot
        · exact hs
  | replaced ht hs =>
    cases ht
    cases hy

theorem Phase.Guards.mono (h : phase.Guards C d frozen m refreshed) (hC : ∀ σ, C σ → C' σ)
    (hC' : ∀ σ σ', σ <:+ σ' → C' σ → C' σ')
    (hfrozen : frozen d = true → frozen' d = true) (hm : Advances m.shown m'.shown) :
    phase.Guards C' d frozen' m' refreshed := by
  cases phase with
  | idle => exact fun hr => (h hr).imp hfrozen fun hs => (hs.imp hC).advances hC' hm
  | guarding => exact h
  | refreshing y => exact ⟨h.1, h.2.imp hfrozen fun hy => hy.imp hC⟩
  | flushed => trivial

end

/-! ## The two sides of a run -/

section

variable {W L V : Type} [DecidableEq L] [DecidableEq V] {cfg : Config} {s t : Joint W L V}
  {a : Label W L} {p p' : State W L} {b : SyncLabel (V ⊕ L)} {x : Sync (V ⊕ L)} {l : L} {now : Time}
  {d : Day} {days : List Day} {key : MinuteKey}

theorem seen_follow : (s.follow a p).rollup.catalog = p.catalog ∧
    (s.follow a p).rollup.log = (sourceChange s.pipeline a).toList ++ s.rollup.log ∧
    (s.follow a p).rollup.mirror = s.rollup.mirror := by
  simp only [Joint.follow]
  split <;> exact ⟨rfl, rfl, rfl⟩

/-- Both sides have the same catalog, and ClickHouse holds what its changes lead to. -/
structure Linked (s : Joint W L V) : Prop where
  catalog : s.rollup.catalog = s.pipeline.catalog
  events : content s.rollup.log = s.pipeline.events.reverse
  stored : ∀ r, .insert r ∈ s.rollup.log ↔ r ∈ s.pipeline.stored

omit [DecidableEq L] [DecidableEq V] in
theorem phase_of_idle (h : s.idle l = true) : (s.rollup.synchronizers (.inr l)).phase = .idle := by
  rw [Joint.idle] at h
  split at h
  · assumption
  · cases h

theorem follow_own (ha : a.sweep? = some l) (hp : s.proceeds a = true) :
    (s.follow a p).refreshed l = false ∧
      ((s.follow a p).rollup.synchronizers (.inr l)).phase = .idle := by
  refine ⟨?_, ?_⟩
  · simp [Joint.follow, ha]
  · cases a with
    | work | insert | commit | publish | restore => cases ha
    | sweep l' mv =>
      cases ha
      cases mv with
      | crash =>
        change (update s.rollup.synchronizers (.inr l) .fresh (.inr l)).phase = _
        rw [update_self]
        rfl
      | _ => exact phase_of_idle hp
    | claimDeletion l' =>
      cases ha
      exact phase_of_idle (Bool.and_eq_true_iff.1 hp).1
    | put | record | drop | mark =>
      cases ha
      exact phase_of_idle hp

theorem follow_other (ha : a.sweep? ≠ some l) : (s.follow a p).refreshed l = s.refreshed l ∧
    (s.follow a p).rollup.synchronizers (.inr l) = s.rollup.synchronizers (.inr l) := by
  have hne {l' : L} (hl' : a.sweep? = some l') : l ≠ l' := by
    rintro rfl
    exact ha hl'
  refine ⟨?_, ?_⟩
  · rcases hl' : a.sweep? with _ | l'
    · simp only [Joint.follow, hl']
    · simp only [Joint.follow, hl', update_of_ne (hne hl')]
  · simp only [Joint.follow]
    split
    · exact update_of_ne (fun heq => hne rfl (Sum.inr.inj heq)) _ _
    · rfl

variable [DecidableEq W]

theorem Linked.follow (h : Linked s) (hstep : Pipeline.Step cfg s.pipeline a p) :
    Linked (s.follow a p) := by
  obtain ⟨hcatalog, hlog, _⟩ := seen_follow (s := s) (a := a) (p := p)
  refine ⟨hcatalog, ?_, fun r => ?_⟩
  · rw [hlog]
    change content _ = p.events.reverse
    cases hstep with
    | @insert w r g hw =>
      simp [sourceChange, hw, content, h.events]
    | @drop l now d days hl =>
      simp only [sourceChange, hl, Option.toList_some, singleton_append, content, h.events]
      exact filter_reverse
    | _ => exact h.events
  · rw [hlog]
    change SourceChange.insert r ∈ _ ↔ r ∈ p.stored
    cases hstep with
    | @insert w r' g hw =>
      simp only [sourceChange, hw, Option.toList_some, singleton_append, mem_cons,
        SourceChange.insert.injEq, h.stored, mem_append, not_mem_nil, or_false]
      exact or_comm
    | @drop l now d days hl =>
      simp only [sourceChange, hl, Option.toList_some, singleton_append, mem_cons,
        reduceCtorEq, false_or]
      exact h.stored r
    | _ => exact h.stored r

variable [Fintype L] [Fintype V]

omit [DecidableEq W] in
theorem seen_refresh (hb : s.admits b = true) (hx : s.rollup.next b = some x) :
    x.catalog = s.rollup.catalog ∧ x.log = s.rollup.log := by
  cases Sync.next_cases hx with
  | insert | catalog | drop => cases hb
  | _ => exact ⟨rfl, rfl⟩

theorem rollup_follow (h : Linked s) (hg : GuardInv s.pipeline) (hs : StoreInv s.pipeline)
    (hstep : Pipeline.Step cfg s.pipeline a p)
    (hfree : ∀ d ∈ exclusiveDate s.pipeline a, s.rollup.dateFree d) :
    (syncSystem (V ⊕ L)).Path System.always s.rollup (s.follow a p).rollup := by
  -- Where the catalog and ClickHouse are as before, the rollup is.
  have hself {x : Sync (V ⊕ L)}
      (hx : x = { s.rollup with catalog := s.pipeline.catalog, log := s.rollup.log }) :
      (syncSystem (V ⊕ L)).Path System.always s.rollup x := by
    rw [hx, ← h.catalog]
    exact .refl
  have hone {x : Sync (V ⊕ L)} (b : SyncLabel (V ⊕ L)) (hb : s.rollup.next b = some x) :
      (syncSystem (V ⊕ L)).Path System.always s.rollup x := .step .refl trivial hb
  -- A transaction of the catalog, which may lock what the step does.
  have hop {x : Sync (V ⊕ L)} (op : Catalog.Op)
      (hx : x = { s.rollup with catalog := s.pipeline.catalog.perform op })
      (hlock : ∀ d ∈ lockedDate op, s.rollup.dateFree d) :
      (syncSystem (V ⊕ L)).Path System.always s.rollup x := by
    refine hone (.catalog op) ?_
    rw [Sync.next, if_pos hlock, hx, h.catalog]
  cases hstep with
  | work | commitReady | publish | put | recordStale | claimRefused => exact hself rfl
  | @sweep l mv sw _ =>
    cases mv with
    | crash =>
      refine hone (.crash (.inr l)) ?_
      change some (s.rollup.put (.inr l) .fresh) = some
        (.put { s.rollup with catalog := s.pipeline.catalog } (.inr l) .fresh)
      rw [← h.catalog]
    | _ => exact hself rfl
  | @insert w r g hw =>
    refine hone (.insert r) ?_
    simp only [Joint.follow, sourceChange, hw, Sync.next, ← h.catalog]
    rfl
  | @commit w r g hw =>
    have hok := hg.worker w
    rw [hw] at hok
    refine hop (.hotIngest r.bucketKey) ?_ fun _ h => by cases h
    rw [perform, hok]
    rfl
  | @record l now b o todo hot hl _ hhot _ =>
    refine hop (.record b.key b.uploadPath o.eventCount (o.sizeBytes cfg.format)
      (o.checksum cfg.format) now) ?_ fun d hd => hfree d ?_
    · rw [perform, hhot]
      rfl
    · rw [exclusiveDate, hl]
      exact hd
  | @claimDeletion l now d days c hl _ hc =>
    refine hop (.claimPartitionDeletion d (now - archiveSafetyWindow)) ?_ fun d' hd => hfree d' ?_
    · rw [perform, hc]
      rfl
    · rw [exclusiveDate, hl]
      exact hd
  | @drop l now d days hl =>
    have hd : s.rollup.catalog.frozen d = true := by
      rw [h.catalog]
      exact hs.claimed l d (by rw [hl]; rfl)
    refine hone (.drop d) ?_
    simp only [Joint.follow, sourceChange, hl, Sync.next, hd, if_true, ← h.catalog]
    rfl
  | @mark l now d days _ => exact hop (.markPartitionDeleted d now) rfl fun _ h => by cases h
  | @restore op ho =>
    have hnone : lockedDate op = none := by
      cases op with
      | record | claimPartitionDeletion => cases ho
      | _ => rfl
    refine hop op rfl fun d hd => ?_
    rw [hnone] at hd
    cases hd

variable [Fintype W]

theorem pipeline_of_path (h : (jointSystem W L V cfg).Path Admissible s t) :
    (pipeline cfg).Path CommitAtomic s.pipeline t.pipeline := by
  induction h with
  | refl => exact .refl
  | step _ hP hn ih =>
    cases Joint.next_cases hn with
    | pipeline hp _ _ => exact .step ih hP.1 hp
    | rollup _ _ => exact ih

theorem linked_of_reachable (h : (jointSystem W L V cfg).Reachable Admissible s) : Linked s := by
  refine h.invariant ⟨rfl, rfl, fun r => ?_⟩ fun _ _ _ _ hs _ hn => ?_
  · exact ⟨fun hr => absurd hr not_mem_nil, fun hr => absurd hr not_mem_nil⟩
  · cases Joint.next_cases hn with
    | pipeline hp _ _ => exact hs.follow (Pipeline.next_cases hp)
    | rollup hb hx =>
      obtain ⟨hcatalog, hlog⟩ := seen_refresh hb hx
      exact ⟨hcatalog.trans hs.catalog, (congrArg content hlog).trans hs.events,
        fun r => hlog.symm ▸ hs.stored r⟩

theorem rollup_of_path (hs : (jointSystem W L V cfg).Reachable Admissible s)
    (h : (jointSystem W L V cfg).Path Admissible s t) :
    (syncSystem (V ⊕ L)).Path System.always s.rollup t.rollup := by
  induction h with
  | refl => exact .refl
  | step hp hP hn ih =>
    have hr := hs.path hp
    have hpipeline := pipeline_of_path hr
    cases Joint.next_cases hn with
    | pipeline ha hfree _ =>
      exact ih.trans (rollup_follow (linked_of_reachable hr) (guardInv_of_reachable hpipeline)
        (storeInv_of_reachable hpipeline) (Pipeline.next_cases ha) hfree)
    | rollup _ hx => exact .step ih trivial hx

/-! ## The invariant of the barrier -/

/-- A sweep drops a date only behind its synchronizer's guard. -/
def BarrierInv (s : Joint W L V) : Prop :=
  ∀ l now d days, s.pipeline.sweep l = .deleting now (d :: days) →
    (s.rollup.synchronizers (.inr l)).phase.Guards
      (Complete s.pipeline d (now - archiveSafetyWindow)) d s.rollup.catalog.frozen s.rollup.mirror
      (s.refreshed l)

omit [Fintype W] [Fintype L] in
theorem sweep_of_ne (hstep : Pipeline.Step cfg p a p') (hl : a.sweep? ≠ some l) :
    p'.sweep l = p.sweep l := by
  have hne {l' : L} (ha : a.sweep? = some l') : l ≠ l' := by
    rintro rfl
    exact hl ha
  cases hstep with
  | work | insert | commit | commitReady | publish | restore => rfl
  | sweep | put | record | recordStale | claimDeletion | claimRefused | drop | mark =>
    exact update_of_ne (hne rfl) _ _

omit [Fintype W] [Fintype V] in
theorem BarrierInv.follow (h : BarrierInv s) (hg : GuardInv s.pipeline) (hlinked : Linked s)
    (hstep : Pipeline.Step cfg s.pipeline a p) (ha : verifiedLate s.pipeline a = true)
    (hp : s.proceeds a = true) : BarrierInv (s.follow a p) := by
  obtain ⟨hcatalog, _, hmirror⟩ := seen_follow (s := s) (a := a) (p := p)
  intro l now d days hl
  by_cases hown : a.sweep? = some l
  · obtain ⟨hr, hphase⟩ := follow_own hown hp
    rw [hphase, hr]
    exact nofun
  · obtain ⟨hr, hsync⟩ := follow_other (s := s) (p := p) hown
    have hl' : s.pipeline.sweep l = .deleting now (d :: days) :=
      (sweep_of_ne hstep hown).symm.trans hl
    have hnow : (s.pipeline.sweep l).now? = some now := by rw [hl']; rfl
    rw [hr, hsync, hmirror, hcatalog]
    refine (h l now d days hl').mono (fun σ hσ => hσ.step hg hstep ha hnow)
      (fun σ σ' hle hσ => hσ.mono hle) (fun hd => ?_) (.refl _)
    rw [hlinked.catalog] at hd
    exact hstep.frozen_mono hg hd

omit [Fintype W] [DecidableEq W] [Fintype L] [Fintype V] in
theorem guards_own (hl : s.pipeline.sweep l = .deleting now (d :: days)) {C : Snapshot → Prop}
    (h : (s.rollup.synchronizers (.inr l)).phase.Guards C d s.rollup.catalog.frozen s.rollup.mirror
      (s.refreshed l)) (hlog : C s.rollup.log) (hb : s.admits b = true)
    (hstep : s.rollup.Step b x) (hown : b.owner = some (.inr l)) :
    (x.synchronizers (.inr l)).phase.Guards C d x.catalog.frozen x.mirror
      ((s.refresh b x).refreshed l) := by
  have hself (y : Synchronizer) : (s.rollup.put (.inr l) y).synchronizers (.inr l) = y :=
    update_self _ _ _
  cases hstep with
  | insert | publish | catalog | drop => cases hown
  | deliver | flush | commitOffset | finish | abandon | crash =>
    cases hown
    cases hb
  | begin hphase _ _ =>
    cases hown
    simp only [Joint.admits, hl, Bool.and_eq_true, decide_eq_true_eq, Bool.not_eq_true'] at hb
    rw [Sync.move, hself]
    exact ⟨hb.2, hb.1⟩
  | lockDate hphase =>
    cases hown
    rw [hphase] at h
    rw [Sync.move, hself]
    exact h
  | lookUp hphase =>
    cases hown
    rw [hphase] at h
    rw [Sync.move, hself]
    obtain ⟨hr, rfl⟩ := h
    refine ⟨hr, ?_⟩
    rcases hd : s.rollup.catalog.frozen d with _ | _
    · exact .inr (.waiting rfl (statements_dayRange hd))
    · exact .inl hd
  | execute hphase hy =>
    cases hown
    rw [hphase] at h
    rw [Sync.move, hself]
    exact ⟨h.1, h.2.imp_right fun hread => hread.execute hlog hy⟩
  | @commit w y hphase htodo =>
    cases hown
    rw [hphase] at h
    change Phase.Guards C d s.rollup.catalog.frozen y.working _
      ((s.rollup.put _ _).synchronizers (.inr l)).phase
    rw [hself]
    rcases hf : y.flushing with _ | _
    · -- Nothing is left to do, so the rows of the day are replaced.
      refine fun _ => h.2.imp_right fun hread => ?_
      cases hread with
      | waiting _ ht => cases ht.symm.trans htodo
      | read _ _ ht => rcases ht with ht | ht <;> cases ht.symm.trans htodo
      | replaced _ hs => exact hs
    · trivial
  | rollback hwriter =>
    cases hown
    have hr : s.refreshed l = false := by
      generalize (s.rollup.synchronizers (.inr l)).phase = phase at h hwriter
      cases phase with
      | idle | flushed => cases hwriter
      | guarding | refreshing => exact h.1
    rw [Sync.move, hself]
    exact fun hr' => absurd (hr.symm.trans hr') Bool.false_ne_true

omit [Fintype W] [DecidableEq W] in
theorem BarrierInv.refresh (h : BarrierInv s)
    (hlog : ∀ d cutoff, Complete s.pipeline d cutoff s.rollup.log) (hb : s.admits b = true)
    (hx : s.rollup.next b = some x) (hadvances : Advances s.rollup.mirror.shown x.mirror.shown) :
    BarrierInv (s.refresh b x) := by
  intro l now d days hl
  change s.pipeline.sweep l = .deleting now (d :: days) at hl
  have hold := h l now d days hl
  have hstep := Sync.next_cases hx
  by_cases hown : b.owner = some (.inr l)
  · exact guards_own hl hold (hlog _ _) hb hstep hown
  · -- The synchronizer of the sweep is as before, and what is shown advances.
    have hr : (s.refresh b x).refreshed l = s.refreshed l := by
      cases b with
      | commit w =>
        cases w with
        | inl v => rfl
        | inr l' => exact update_of_ne (fun heq => hown (congrArg (some ∘ Sum.inr) heq.symm)) _ _
      | _ => rfl
    change Phase.Guards _ d x.catalog.frozen x.mirror _ (x.synchronizers (.inr l)).phase
    rw [hr, hstep.synchronizers_of_ne hown, (seen_refresh hb hx).1]
    exact hold.mono (fun _ hσ => hσ) (fun _ _ hle hσ => hσ.mono hle) (fun hd => hd) hadvances

theorem complete_log (h : (jointSystem W L V cfg).Reachable Admissible s) (d : Day) (cutoff : Time) :
    Complete s.pipeline d cutoff s.rollup.log := by
  intro r hr _
  have hs := storeInv_of_reachable (pipeline_of_path h)
  exact .inl (((linked_of_reachable h).stored r).2 (hs.ingested r hr).1)

theorem barrierInv_of_reachable (h : (jointSystem W L V cfg).Reachable Admissible s) :
    BarrierInv s := by
  refine h.invariant (fun l now d days hl => (by cases hl)) fun s a t hr hs hP hn => ?_
  cases Joint.next_cases hn with
  | pipeline ha _ hp =>
    exact hs.follow (guardInv_of_reachable (pipeline_of_path hr)) (linked_of_reachable hr)
      (Pipeline.next_cases ha) hP.2 hp
  | rollup hb hx =>
    have hpath : (syncSystem (V ⊕ L)).Path System.always s.rollup _ := .step .refl trivial hx
    exact hs.refresh (complete_log hr) hb hx
      (inv_of_path (rollup_of_path .init hr) hpath).advances

/-! ## The claim -/

theorem sourceCount_congr {events events' : List EventRecord}
    (h : ∀ r, eventKey r = key → (r ∈ events ↔ r ∈ events')) (eventType : String) :
    sourceCount events key eventType = sourceCount events' key eventType := by
  rw [sourceCount, sourceCount, uniqExact, uniqExact, ← card_toFinset, ← card_toFinset]
  congr 1
  ext id
  simp only [mem_toFinset, mem_map, mem_filter, Bool.and_eq_true, decide_eq_true_eq]
  refine exists_congr fun r => and_congr_left fun _ => and_congr_left fun hg => ?_
  exact h r (Prod.mk.inj hg.2).1

theorem Mirrors.congr_events {activity : Table (MinuteKey × String) RollupValue}
    {events events' : List EventRecord} (h : Mirrors activity key events)
    (hevents : ∀ r, eventKey r = key → (r ∈ events ↔ r ∈ events')) :
    Mirrors activity key events' :=
  fun eventType => sourceCount_congr hevents eventType ▸ h eventType

/-- What a claim of the day checks. -/
structure Claimable (p : State W L) (d : Day) (cutoff : Time) : Prop where
  lock : ∀ w k, (p.worker w).held = some k → k.bucketStartAt ≠ d
  verified : ∀ k hot, p.catalog.hot.get? k = some hot → k.bucketStartAt = d → hot.isDelete = false →
    p.catalog.verifiedBy cutoff k hot = true

omit [Fintype W] [Fintype L] in
theorem frozen_cases (hstep : Pipeline.Step cfg p a p') (hd : p'.catalog.frozen d = true) :
    p.catalog.frozen d = true ∨ ∃ l now days, a = .claimDeletion l ∧
      p.sweep l = .deleting now (d :: days) ∧ p'.stored = p.stored ∧
        Claimable p d (now - archiveSafetyWindow) := by
  cases hstep with
  | @claimDeletion l now d' days c hl hlock hc =>
    have hsame (hdd : d' ≠ d) := frozen_claimPartitionDeletion (c := p.catalog) hdd
      (now - archiveSafetyWindow)
    grind [claimPartitionDeletion_cases d' (now - archiveSafetyWindow) p.catalog, Claimable]
  | restore ho =>
    refine .inl (.trans (frozen_congr fun k => ?_).symm hd)
    rw [(perform_isRestore ho).hot]
  | _ => grind [frozen_applyGuard, frozen_recordVerifiedArchive, frozen_markPartitionDeleted]

omit [Fintype L] in
/-- At the claim, every event that was ever stored on the day is in the snapshots that are complete:
    a late one would have left its bucket without a verified archive. -/
theorem insert_mem_of_complete (h : (pipeline cfg).Reachable CommitAtomic p)
    (hd : p.catalog.frozen d = false) {cutoff : Time} (hclaim : Claimable p d cutoff) {σ : Snapshot}
    (hσ : Complete p d cutoff σ) {r : EventRecord} (hr : r ∈ p.stored) (hday : r.day = d) :
    .insert r ∈ σ := by
  have hg := guardInv_of_reachable h
  -- The event is ingested: a worker that has yet to commit it would hold the lock of the date.
  have hing : r ∈ p.ingested := by
    rcases mem_ingested_of_stored h r hr with hi | ⟨w, g, hw⟩
    · exact hi
    · exact absurd hday (hclaim.lock w r.bucketKey (by rw [hw]; rfl))
  refine (hσ r hing hday).resolve_right fun hlate => ?_
  obtain ⟨_, hot, hhot⟩ := (storeInv_of_reachable h).ingested r hing
  have hlive : hot.isDelete = false := by
    rw [hg.inv.isDelete_eq_frozen hhot, ← hd, ← hday]
    rfl
  obtain ⟨row, hrow, hv⟩ := (Option.any_eq_true _ _).1 (hclaim.verified _ hot hhot hday hlive)
  simp only [Bool.and_eq_true, Option.any_eq_true] at hv
  obtain ⟨v, hv₀, hv₁⟩ := hv.1.1.2
  exact absurd (hlate row hrow v hv₀) (Int.not_lt.2 (of_decide_eq_true hv₁))

/-- The activity of the day has the counts of all the events that were ever stored on it. -/
def Joint.DayMirrored (s : Joint W L V) (d : Day) : Prop :=
  ∀ key : MinuteKey, key.date = d → Mirrors s.rollup.mirror.tables.activity key s.pipeline.stored

theorem mirrors_of_claim (h : (jointSystem W L V cfg).Reachable Admissible s)
    (hl : s.pipeline.sweep l = .deleting now (d :: days)) (hr : s.refreshed l = true)
    (hidle : s.idle l = true) (hd : s.pipeline.catalog.frozen d = false)
    (hclaim : Claimable s.pipeline d (now - archiveSafetyWindow)) : s.DayMirrored d := by
  intro key hk
  have hlinked := linked_of_reachable h
  have hinv := inv_of_reachable (rollup_of_path .init h)
  have hfrozen : s.rollup.catalog.frozen d = false := by rw [hlinked.catalog, hd]
  have hguards := barrierInv_of_reachable h l now d days hl
  rw [phase_of_idle hidle] at hguards
  obtain ⟨σ, hσ, hcomplete⟩ := (hguards hr).resolve_left (by rw [hfrozen]; nofun) key hk
  have hle := hinv.sound.within key σ hσ
  refine (hinv.sound.mirrors key σ hσ).congr_events fun r hrk => ?_
  have hday : r.day = d := by rw [← date_eventKey, hrk, hk]
  constructor
  · exact fun hmem => (hlinked.stored r).1 (hle.subset (insert_of_mem_content hmem))
  · intro hmem
    refine mem_content (insert_mem_of_complete (pipeline_of_path h) hd hclaim hcomplete hmem hday)
      fun hdrop => ?_
    -- The partition is still there, as the day is not frozen.
    have hf := hinv.dropped r.day (hle.subset hdrop)
    rw [hday, hfrozen] at hf
    cases hf

theorem mirrors_of_frozen (h : (jointSystem W L V cfg).Reachable Admissible s) :
    ∀ d, s.pipeline.catalog.frozen d = true → s.DayMirrored d := by
  refine h.invariant
    (I := fun s : Joint W L V => ∀ d, s.pipeline.catalog.frozen d = true → s.DayMirrored d)
    (fun d hd => (by cases hd)) fun s b t hr hs _ hn d hd key hk => ?_
  cases Joint.next_cases hn with
  | @pipeline a p ha _ hproceeds =>
    have hstep := Pipeline.next_cases ha
    have hg := guardInv_of_reachable (pipeline_of_path hr)
    change Mirrors (s.follow a p).rollup.mirror.tables.activity key p.stored
    rw [seen_follow.2.2]
    rcases frozen_cases hstep hd with hd₀ | ⟨l, now, days, rfl, hl, hstored, hclaim⟩
    · -- Nothing is stored on a day that is frozen.
      refine (hs d hd₀ key hk).congr_events fun r hrk => ⟨hstep.stored_mono, fun hmem => ?_⟩
      cases hstep with
      | @insert w r' g hw =>
        rcases mem_append.1 hmem with hmem | hmem
        · exact hmem
        · cases mem_singleton.1 hmem
          have hf := hg.not_frozen (.inl hw)
          rw [← date_eventKey, hrk, hk, hd₀] at hf
          cases hf
      | _ => exact hmem
    · rw [hstored]
      obtain ⟨hidle, hrefreshed⟩ := Bool.and_eq_true_iff.1 hproceeds
      rcases hd₀ : s.pipeline.catalog.frozen d with _ | _
      · exact mirrors_of_claim hr hl hrefreshed hidle hd₀ hclaim key hk
      · exact hs d hd₀ key hk
  | @rollup b x hb hx =>
    have hpath : (syncSystem (V ⊕ L)).Path System.always s.rollup x := .step .refl trivial hx
    refine (hs d hd key hk).congr ?_
    refine (agreeOn_of_path (rollup_of_path .init hr) hpath (d := d) ?_).activity key hk
    rw [(linked_of_reachable hr).catalog]
    exact hd

/-- From the claim of a day on, in every run of any number of storage workers, lifecycle sweeps and
    other synchronizers: the activity of the day in the rollup has the counts of all the events that
    were ever stored on it, and no row of the day changes, in any of the three tables. -/
theorem rollup_of_claim (h : (jointSystem W L V cfg).Reachable Admissible s)
    (hP : Admissible s (.pipeline (.claimDeletion l)))
    (hn : (jointSystem W L V cfg).next s (.pipeline (.claimDeletion l)) = some t)
    (hclaimed : t.pipeline.sweep l = .claimed now d days) {u : Joint W L V}
    (hpath : (jointSystem W L V cfg).Path Admissible t u) :
    u.DayMirrored d ∧ AgreeOn d t.rollup.mirror.tables u.rollup.mirror.tables := by
  have ht : (jointSystem W L V cfg).Reachable Admissible t := h.step hP hn
  have hfrozen : t.pipeline.catalog.frozen d = true :=
    (storeInv_of_reachable (pipeline_of_path ht)).claimed l d (by rw [hclaimed]; rfl)
  have hu : u.pipeline.catalog.frozen d = true :=
    frozen_of_path (pipeline_of_path ht) (pipeline_of_path hpath) hfrozen
  refine ⟨mirrors_of_frozen (ht.path hpath) d hu, ?_⟩
  refine agreeOn_of_path (rollup_of_path .init ht) (rollup_of_path ht hpath) ?_
  rw [(linked_of_reachable ht).catalog]
  exact hfrozen

/-- `sshd` is archived, and eight days later a sweep comes to its day. -/
def untilBarrier : List (Label (Fin 1) (Fin 1)) :=
  processRun 0 sshd ++ archiveRun 0 (dayStart 20636) (sampleRow sshd) ++
    [.sweep 0 .crash, .sweep 0 (.begin (dayStart 20644)), .sweep 0 .beginDelete]

def barrierRun : List (JointLabel (Fin 1) (Fin 1) (Fin 1)) :=
  untilBarrier.map .pipeline ++
  [.begin (.inr 0) (.range (dayRange 20635)), .lockDate (.inr 0), .lookUp (.inr 0),
    .execute (.inr 0) 1, .execute (.inr 0) 1, .execute (.inr 0) 1, .commit (.inr 0)].map .rollup

def backfillRun : List (JointLabel (Fin 1) (Fin 1) (Fin 1)) :=
  .pipeline (.drop 0) ::
  [.begin (.inl 0) (.range ⟨dayStart 20635, dayEnd 20636, none⟩), .lockDate (.inl 0),
    .lockDate (.inl 0), .lookUp (.inl 0), .execute (.inl 0) 2, .execute (.inl 0) 2,
    .execute (.inl 0) 2, .commit (.inl 0)].map .rollup

abbrev sampleJoint : System (Joint (Fin 1) (Fin 1) (Fin 1)) (JointLabel (Fin 1) (Fin 1) (Fin 1)) :=
  jointSystem _ _ _ sampleConfig

theorem rollup_of_claim_backfillRun :
    ∃ s t u, sampleJoint.runIf Admissible Joint.init barrierRun = some s ∧
      sampleJoint.next s (.pipeline (.claimDeletion 0)) = some t ∧
      sampleJoint.runIf Admissible t backfillRun = some u ∧
      u.pipeline.events = [] ∧ u.pipeline.stored.length = 1 ∧ u.DayMirrored 20635 ∧
      AgreeOn 20635 t.rollup.mirror.tables u.rollup.mirror.tables :=
  have hs : sampleJoint.runIf Admissible Joint.init barrierRun = some _ := rfl
  have ht : sampleJoint.next _ (.pipeline (.claimDeletion 0)) = some _ := rfl
  have hu : sampleJoint.runIf Admissible _ backfillRun = some _ := rfl
  have h := rollup_of_claim (System.reachable_of_runIf hs) ⟨rfl, rfl⟩ ht rfl
    (System.path_of_runIf hu)
  ⟨_, _, _, hs, ht, hu, rfl, rfl, h.1, h.2⟩

end

end Rollup

end Edr
