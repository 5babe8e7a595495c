import Edr.Catalog.Run
import Edr.Storage

/-!
# Ingest, archiving and deletion, together

Storage workers take messages of the raw topic to ClickHouse, and lifecycle sweeps take
completed days from ClickHouse to S3. They share the registry of event ids and the catalog
(in PostgreSQL), the event table (in ClickHouse), and the objects (in S3), and no
transaction spans two of these. The system interleaves any number of workers `W` and of
sweeps `L`, cut where another one can see the difference:

* a worker holds its registry claim, and then its guard, in one PostgreSQL transaction, and
  inserts into ClickHouse in between. Its writes to PostgreSQL are seen at its commit, and a
  transaction that rolls back, or a crash, loses them but not the insert;
* a guard holds the date's advisory lock, shared, until its transaction ends. A sweep takes it
  exclusively to record an archive and to claim a day, and these steps are possible only
  while no guard holds the date;
* a sweep counts, exports, uploads and checks a bucket without any lock.

A step `abort`, `skip` or `crash` ends the processing of a message, or the archiving of a bucket,
anywhere, and a message may be received again at any time.

The lists `stored`, `ingested` and `processed` are ghosts: they say what has happened, and
no step reads them.
-/

namespace Edr

open Function Catalog

/-! ## Storage workers -/

/-- What a registry claim says: the identity of the event id, and whether this claim is the
    one that registered it. -/
structure EventIngestClaim where
  identity : EventIdentity
  created : Bool

/-- Where a storage worker is in `_process`. -/
inductive WorkerState
  | idle
  | decoded (r : EventRecord)
  | claimed (r : EventRecord) (claim : EventIngestClaim)
  | absent (r : EventRecord)
  | guarded (r : EventRecord) (g : Catalog.GuardWrites)
  | inserted (r : EventRecord) (g : Catalog.GuardWrites)
  | ready (r : EventRecord) (created : Bool)
  | committed (r : EventRecord)

namespace WorkerState

def openClaim : WorkerState → Option UUID
  | claimed r claim => if claim.created then some r.eventId else none
  | absent r | guarded r _ | inserted r _ => some r.eventId
  | ready r created => if created then some r.eventId else none
  | idle | decoded _ | committed _ => none

def held : WorkerState → Option BucketKey
  | guarded r _ | inserted r _ => some r.bucketKey
  | idle | decoded _ | claimed _ _ | absent _ | ready _ _ | committed _ => none

def record? : WorkerState → Option EventRecord
  | idle => none
  | decoded r | claimed r _ | absent r | guarded r _ | inserted r _ | ready r _ | committed r =>
    some r

end WorkerState

inductive WorkerMove
  | receive (raw : RawMessage)
  | claim
  | check
  | guard
  | abort

/-! ## Lifecycle sweeps -/

/-- Where a lifecycle worker is in a sweep, `now` being the time of the sweep. -/
inductive Sweep
  | idle
  | archiving (now : Time) (todo : List Catalog.ArchiveCandidate)
  | counted (now : Time) (b : Catalog.ArchiveCandidate) (eventCount : Nat)
      (todo : List Catalog.ArchiveCandidate)
  | exported (now : Time) (b : Catalog.ArchiveCandidate) (o : ArchiveObject)
      (todo : List Catalog.ArchiveCandidate)
  | uploaded (now : Time) (b : Catalog.ArchiveCandidate) (o : ArchiveObject)
      (todo : List Catalog.ArchiveCandidate)
  /-- `head_object` has verified the upload. -/
  | headed (now : Time) (b : Catalog.ArchiveCandidate) (o : ArchiveObject)
      (todo : List Catalog.ArchiveCandidate)
  | deleting (now : Time) (days : List Day)
  | claimed (now : Time) (d : Day) (days : List Day)
  | dropped (now : Time) (d : Day) (days : List Day)

inductive SweepMove
  | begin (now : Time)
  | count
  | exportRows (batches : List (List EventRecord))
  | head
  | skip
  | beginDelete
  | crash

def Catalog.ArchiveCandidate.uploadPath (b : Catalog.ArchiveCandidate) : ObjectKey :=
  b.archiveStoragePath.getD (archiveKey b.key)

def archiveSafetyWindow : Int := 7 * dayLength

/-! ## The system -/

/-- The parameters of the system: the library functions, and the limit of a sweep. -/
structure Config where
  codec : Codec
  format : ArchiveFormat
  candidateLimit : Nat := 10

structure State (W L : Type*) where
  /-- `event_ingest_registry`. -/
  registry : Table UUID EventIdentity
  /-- `ingest_metadata`. -/
  catalog : Catalog
  /-- `edr_events`. -/
  events : List EventRecord
  objects : ObjectKey → Option ArchiveObject
  /-- The topic `telemetry.validated`. -/
  published : List EventRecord
  stored : List EventRecord
  ingested : List EventRecord
  processed : List EventRecord
  worker : W → WorkerState
  sweep : L → Sweep

inductive Label (W L : Type*)
  | work (w : W) (mv : WorkerMove)
  /-- `events.insert`. -/
  | insert (w : W)
  | commit (w : W)
  /-- `producer.publish`: whether the broker has the message, and acknowledges it. -/
  | publish (w : W) (delivered acked : Bool)
  | sweep (l : L) (mv : SweepMove)
  /-- `put_object`. -/
  | put (l : L)
  /-- `archive_guard`, the final count, and `record_verified_archive`. -/
  | record (l : L)
  /-- `claim_partition_deletion`. -/
  | claimDeletion (l : L)
  /-- `drop_partition`. -/
  | drop (l : L)
  /-- `mark_partition_deleted`. -/
  | mark (l : L)
  | restore (op : Catalog.Op)

namespace Pipeline

variable {W L : Type*} [Fintype W] [DecidableEq W] [DecidableEq L] (cfg : Config)

def dateLocked (s : State W L) (d : Day) : Bool :=
  decide (∃ w k, (s.worker w).held = some k ∧ k.bucketStartAt = d)

/-- The body of `with self.registry.claim(..)`, up to the guard. -/
def checkClaim (events : List EventRecord) (r : EventRecord) (claim : EventIngestClaim) :
    WorkerState :=
  if claim.identity ≠ r.identity then .idle
  else if claim.created then
    match eventIdentity events r.eventId with
    | .error _ => .idle
    | .ok none => .absent r
    | .ok (some existing) => if existing ≠ r.identity then .idle else .ready r true
  else .ready r false

def workerMove (s : State W L) (w : W) : WorkerState → WorkerMove → Option WorkerState
  | .idle, .receive raw =>
    match normalizeEvent cfg.codec raw with
    | some r => some (.decoded r)
    | none => some .idle
  | .decoded r, .claim =>
    if ∃ w', w' ≠ w ∧ (s.worker w').openClaim = some r.eventId then none
    else match s.registry.get? r.eventId with
      | none => some (.claimed r ⟨r.identity, true⟩)
      | some i => some (.claimed r ⟨i, false⟩)
  | .claimed r claim, .check => some (checkClaim s.events r claim)
  | .absent r, .guard =>
    if ∃ w', w' ≠ w ∧ (s.worker w').held = some r.bucketKey then none
    else match hotIngestGuard r.bucketKey s.catalog with
      | .error _ => some .idle
      | .ok g => some (.guarded r g)
  | _, .abort => some .idle
  | _, _ => none

def sweepMove (s : State W L) : Sweep → SweepMove → Option Sweep
  | .idle, .begin now => some (.archiving now
      (s.catalog.archiveCandidates (dayStart (dateOf now)) cfg.candidateLimit))
  | .archiving now (b :: todo), .count =>
    let eventCount := archiveCount s.events b.key
    if eventCount = 0 then some (.archiving now todo) else some (.counted now b eventCount todo)
  | .counted now b eventCount todo, .exportRows batches =>
    -- The blocks of a stream are those of one consistent reading of the bucket.
    if batches.flatten ≠ archiveRows s.events b.key then none
    else match prepareUpload batches eventCount with
      | .error _ => some (.archiving now todo)
      | .ok o => some (.exported now b o todo)
  | .uploaded now b o todo, .head =>
    if headVerifies cfg.format (s.objects b.uploadPath) o then some (.headed now b o todo)
    else some (.archiving now todo)
  | .counted now _ _ todo, .skip | .exported now _ _ todo, .skip | .uploaded now _ _ todo, .skip
  | .headed now _ _ todo, .skip => some (.archiving now todo)
  | .archiving now [], .beginDelete => some (.deleting now
      (s.catalog.partitionDeletionCandidates (now - archiveSafetyWindow) cfg.candidateLimit))
  | .deleting now (_ :: days), .skip | .claimed now _ days, .skip | .dropped now _ days, .skip =>
    some (.deleting now days)
  | _, .crash => some .idle
  | _, _ => none

/-- The catalog after `archive_guard` with the final count, and what follows it. -/
def recordArchive (s : State W L) (now : Time) (b : Catalog.ArchiveCandidate)
    (o : ArchiveObject) : Catalog :=
  match s.catalog.archiveGuard b.key with
  | none => s.catalog
  | some hot =>
    if archiveCount s.events b.key ≠ o.eventCount then s.catalog
    else s.catalog.recordVerifiedArchive ⟨b.key, hot.bucketEndAt, b.uploadPath, o.eventCount,
      o.sizeBytes cfg.format, o.checksum cfg.format, now⟩

def next (s : State W L) : Label W L → Option (State W L)
  | .work w mv => (workerMove cfg s w (s.worker w) mv).map fun ws =>
      { s with worker := update s.worker w ws }
  | .insert w =>
    match s.worker w with
    | .guarded r g => some { s with
        events := s.events ++ [r]
        stored := s.stored ++ [r]
        worker := update s.worker w (.inserted r g) }
    | _ => none
  | .commit w =>
    match s.worker w with
    | .inserted r g => some { s with
        registry := s.registry.insert r.eventId r.identity
        catalog := s.catalog.applyGuard g
        ingested := s.ingested ++ [r]
        worker := update s.worker w (.committed r) }
    | .ready r created => some { s with
        registry := if created then s.registry.insert r.eventId r.identity else s.registry
        worker := update s.worker w (.committed r) }
    | _ => none
  | .publish w delivered acked =>
    match s.worker w with
    | .committed r =>
      if acked && !delivered then none
      else some { s with
        published := if delivered then s.published ++ [r] else s.published
        processed := if acked then s.processed ++ [r] else s.processed
        worker := update s.worker w .idle }
    | _ => none
  | .sweep l mv => (sweepMove cfg s (s.sweep l) mv).map fun sw =>
      { s with sweep := update s.sweep l sw }
  | .put l =>
    match s.sweep l with
    | .exported now b o todo => some { s with
        objects := update s.objects b.uploadPath (some o)
        sweep := update s.sweep l (.uploaded now b o todo) }
    | _ => none
  | .record l =>
    match s.sweep l with
    | .headed now b o todo =>
      if dateLocked s b.key.bucketStartAt then none
      else some { s with
        catalog := recordArchive cfg s now b o
        sweep := update s.sweep l (.archiving now todo) }
    | _ => none
  | .claimDeletion l =>
    match s.sweep l with
    | .deleting now (d :: days) =>
      if dateLocked s d then none
      else
        let (claimed, catalog) := s.catalog.claimPartitionDeletion d (now - archiveSafetyWindow)
        some { s with
          catalog
          sweep := update s.sweep l
            (if claimed then .claimed now d days else .deleting now days) }
    | _ => none
  | .drop l =>
    match s.sweep l with
    | .claimed now d days => some { s with
        events := dropPartition d s.events
        sweep := update s.sweep l (.dropped now d days) }
    | _ => none
  | .mark l =>
    match s.sweep l with
    | .dropped now d days => some { s with
        catalog := s.catalog.markPartitionDeleted d now
        sweep := update s.sweep l (.deleting now days) }
    | _ => none
  | .restore op => if op.isRestore then some { s with catalog := s.catalog.perform op } else none

def initial : State W L where
  registry := .empty
  catalog := .empty
  events := []
  objects _ := none
  published := []
  stored := []
  ingested := []
  processed := []
  worker _ := .idle
  sweep _ := .idle

/-- The system of the workers `W` and the sweeps `L`. -/
def pipeline : System (State W L) (Label W L) := ⟨initial, next cfg⟩

/-! ## What a step can do -/

inductive WorkerStep (s : State W L) (w : W) : WorkerState → WorkerMove → WorkerState → Prop
  | receive {raw r} : normalizeEvent cfg.codec raw = some r →
      WorkerStep s w .idle (.receive raw) (.decoded r)
  | create {r} : (∀ w', w' ≠ w → (s.worker w').openClaim ≠ some r.eventId) →
      s.registry.get? r.eventId = none →
      WorkerStep s w (.decoded r) .claim (.claimed r ⟨r.identity, true⟩)
  | reclaim {r i} : s.registry.get? r.eventId = some i →
      WorkerStep s w (.decoded r) .claim (.claimed r ⟨i, false⟩)
  | absent {r} : (∀ r' ∈ s.events, r'.eventId ≠ r.eventId) →
      WorkerStep s w (.claimed r ⟨r.identity, true⟩) .check (.absent r)
  | preexisting {r} : (∃ r' ∈ s.events, r'.eventId = r.eventId) →
      (∀ r' ∈ s.events, r'.eventId = r.eventId → r'.identity = r.identity) →
      WorkerStep s w (.claimed r ⟨r.identity, true⟩) .check (.ready r true)
  | registered {r} : WorkerStep s w (.claimed r ⟨r.identity, false⟩) .check (.ready r false)
  | guard {r g} : (∀ w', w' ≠ w → (s.worker w').held ≠ some r.bucketKey) →
      hotIngestGuard r.bucketKey s.catalog = .ok g →
      WorkerStep s w (.absent r) .guard (.guarded r g)
  | fail {ws : WorkerState} {mv : WorkerMove} : ws.held = none → WorkerStep s w ws mv .idle
  | abort {ws} : WorkerStep s w ws .abort .idle

inductive SweepStep (s : State W L) : Sweep → SweepMove → Sweep → Prop
  | begin {now} : SweepStep s .idle (.begin now) (.archiving now
      (s.catalog.archiveCandidates (dayStart (dateOf now)) cfg.candidateLimit))
  | count {now b todo} : SweepStep s (.archiving now (b :: todo)) .count
        (.counted now b (archiveCount s.events b.key) todo)
  | exportRows {now b todo n batches o} : o.rows = archiveRows s.events b.key →
      SweepStep s (.counted now b n todo) (.exportRows batches) (.exported now b o todo)
  | head {now b todo o} : headVerifies cfg.format (s.objects b.uploadPath) o = true →
      SweepStep s (.uploaded now b o todo) .head (.headed now b o todo)
  | empty {now b todo} : SweepStep s (.archiving now (b :: todo)) .count (.archiving now todo)
  | skipCounted {now b todo n mv} : SweepStep s (.counted now b n todo) mv (.archiving now todo)
  | skipExported {now b todo o} : SweepStep s (.exported now b o todo) .skip (.archiving now todo)
  | skipUploaded {now b todo o mv} : SweepStep s (.uploaded now b o todo) mv (.archiving now todo)
  | skipHeaded {now b todo o} : SweepStep s (.headed now b o todo) .skip (.archiving now todo)
  | beginDelete {now} : SweepStep s (.archiving now []) .beginDelete (.deleting now
      (s.catalog.partitionDeletionCandidates (now - archiveSafetyWindow) cfg.candidateLimit))
  | skipDay {sw now days} : SweepStep s sw .skip (.deleting now days)
  | crash {sw} : SweepStep s sw .crash .idle

variable {cfg} {s t : State W L}

omit [Fintype W] [DecidableEq W] [DecidableEq L] in
theorem checkClaim_cases (w : W) (r : EventRecord) (claim : EventIngestClaim) :
    WorkerStep cfg s w (.claimed r claim) .check (checkClaim s.events r claim) := by
  obtain ⟨i, created⟩ := claim
  fun_cases checkClaim s.events r ⟨i, created⟩ <;> first | exact .fail rfl |
    grind [WorkerStep, eventIdentity_eq_none, eventIdentity_eq_some]

omit [DecidableEq L] in
theorem workerMove_cases {w : W} {ws ws' : WorkerState} {mv : WorkerMove}
    (h : workerMove cfg s w ws mv = some ws') : WorkerStep cfg s w ws mv ws' := by
  fun_cases workerMove cfg s w ws mv <;> simp only [workerMove, *] at h <;> try cases h
  all_goals first | exact .fail rfl | grind [WorkerStep, checkClaim_cases]

omit [Fintype W] [DecidableEq W] [DecidableEq L] in
theorem sweepMove_cases {sw sw' : Sweep} {mv : SweepMove}
    (h : sweepMove cfg s sw mv = some sw') : SweepStep cfg s sw mv sw' := by
  fun_cases sweepMove cfg s sw mv <;> simp only [sweepMove, *] at h <;> try cases h
  all_goals grind [SweepStep, prepareUpload_eq_ok]

variable (cfg) in
/-- What a step can do: every step of the system, with what makes it possible. -/
inductive Step (s : State W L) : Label W L → State W L → Prop
  | work {w mv ws} : WorkerStep cfg s w (s.worker w) mv ws →
      Step s (.work w mv) { s with worker := update s.worker w ws }
  | insert {w r g} : s.worker w = .guarded r g →
      Step s (.insert w) { s with
        events := s.events ++ [r]
        stored := s.stored ++ [r]
        worker := update s.worker w (.inserted r g) }
  | commit {w r g} : s.worker w = .inserted r g →
      Step s (.commit w) { s with
        registry := s.registry.insert r.eventId r.identity
        catalog := s.catalog.applyGuard g
        ingested := s.ingested ++ [r]
        worker := update s.worker w (.committed r) }
  | commitReady {w r created} : s.worker w = .ready r created →
      Step s (.commit w) { s with
        registry := if created then s.registry.insert r.eventId r.identity else s.registry
        worker := update s.worker w (.committed r) }
  | publish {w r delivered acked} : s.worker w = .committed r →
      Step s (.publish w delivered acked) { s with
        published := if delivered then s.published ++ [r] else s.published
        processed := if acked then s.processed ++ [r] else s.processed
        worker := update s.worker w .idle }
  | sweep {l mv sw} : SweepStep cfg s (s.sweep l) mv sw →
      Step s (.sweep l mv) { s with sweep := update s.sweep l sw }
  | put {l now b o todo} : s.sweep l = .exported now b o todo →
      Step s (.put l) { s with
        objects := update s.objects b.uploadPath (some o)
        sweep := update s.sweep l (.uploaded now b o todo) }
  | record {l now b o todo hot} : s.sweep l = .headed now b o todo →
      (∀ w k, (s.worker w).held = some k → k.bucketStartAt ≠ b.key.bucketStartAt) →
      s.catalog.archiveGuard b.key = some hot → archiveCount s.events b.key = o.eventCount →
      Step s (.record l) { s with
        catalog := s.catalog.recordVerifiedArchive ⟨b.key, hot.bucketEndAt, b.uploadPath,
          o.eventCount, o.sizeBytes cfg.format, o.checksum cfg.format, now⟩
        sweep := update s.sweep l (.archiving now todo) }
  | recordStale {l now b o todo} : s.sweep l = .headed now b o todo →
      Step s (.record l) { s with sweep := update s.sweep l (.archiving now todo) }
  | claimDeletion {l now d days c} : s.sweep l = .deleting now (d :: days) →
      (∀ w k, (s.worker w).held = some k → k.bucketStartAt ≠ d) →
      s.catalog.claimPartitionDeletion d (now - archiveSafetyWindow) = (true, c) →
      Step s (.claimDeletion l) { s with
        catalog := c
        sweep := update s.sweep l (.claimed now d days) }
  | claimRefused {l now d days} : s.sweep l = .deleting now (d :: days) →
      Step s (.claimDeletion l) { s with
        sweep := update s.sweep l (.deleting now days) }
  | drop {l now d days} : s.sweep l = .claimed now d days →
      Step s (.drop l) { s with
        events := dropPartition d s.events
        sweep := update s.sweep l (.dropped now d days) }
  | mark {l now d days} : s.sweep l = .dropped now d days →
      Step s (.mark l) { s with
        catalog := s.catalog.markPartitionDeleted d now
        sweep := update s.sweep l (.deleting now days) }
  | restore {op} : op.isRestore = true →
      Step s (.restore op) { s with catalog := s.catalog.perform op }

omit [DecidableEq W] [DecidableEq L] in
theorem dateLocked_eq_false {d : Day} (h : ¬dateLocked s d = true) :
    ∀ w k, (s.worker w).held = some k → k.bucketStartAt ≠ d := by
  simpa [dateLocked] using h

theorem next_cases {a : Label W L} (h : next cfg s a = some t) : Step cfg s a t := by
  fun_cases next cfg s a <;> simp only [next, *] at h <;> try cases h
  all_goals grind [Step, workerMove_cases, sweepMove_cases, Option.map_eq_some_iff, recordArchive,
    dateLocked_eq_false, claimPartitionDeletion_cases]

omit [Fintype W] in
theorem Step.of_events {a : Label W L} (h : Step cfg s a t) {r : EventRecord}
    (hr : t.events = s.events ++ [r]) : ∃ w g, a = .insert w ∧ s.worker w = .guarded r g := by
  cases h with
  | @insert w r' g hw =>
    obtain rfl : r' = r := by simpa using hr
    exact ⟨w, g, rfl, hw⟩
  | @drop l now d days _ =>
    have hr : dropPartition d s.events = s.events ++ [r] := hr
    have hle : (dropPartition d s.events).length ≤ s.events.length := List.length_filter_le _ _
    rw [hr, List.length_append, List.length_singleton] at hle
    omega
  | _ => simp at hr

omit [Fintype W] in
theorem Step.of_published {a : Label W L} (h : Step cfg s a t) {r : EventRecord}
    (hr : t.published = s.published ++ [r]) :
    ∃ w acked, a = .publish w true acked ∧ s.worker w = .committed r := by
  cases h with
  | @publish w r' delivered acked hw =>
    cases delivered with
    | false => simp at hr
    | true =>
      obtain rfl : r' = r := by simpa using hr
      exact ⟨w, acked, rfl, hw⟩
  | _ => simp at hr

end Pipeline

end Edr
