import Edr.Lib.Table
import Edr.Event

/-!
# The catalog of the stored buckets

A bucket is the events of one endpoint on one UTC day. The table
`ingest_metadata` says where the events of a bucket are: a row of the backend
`CLICKHOUSE` and the class `HOT`, once events of the bucket are in ClickHouse, and a
row of the backend `S3` and the class `GLACIER_FLEXIBLE_RETRIEVAL`, once there is an
archived object. So the table is two tables with the bucket as
their key (`Catalog.hot`, `Catalog.archive`).

The operations are the transactions of `IngestMetadataRepository`, as functions
of the catalog. A day is *frozen* once one of its `HOT` rows is claimed for deletion:
from then on `hotIngestGuard` refuses its events.
-/

namespace Edr

open Option Table

structure BucketKey where
  endpointId : Nat
  bucketStartAt : Day
  deriving DecidableEq

def EventRecord.bucketKey (r : EventRecord) : BucketKey := ⟨r.endpointId, r.day⟩

/-- The key of an object, `archives/date=<bucketDate>/endpoint_id=<endpointId>/events.parquet`. -/
structure ObjectKey where
  bucketDate : Day
  endpointId : Nat
  deriving DecidableEq

/-- `_archive_key`: the key of the archived object of a bucket. -/
def archiveKey (k : BucketKey) : ObjectKey := ⟨k.bucketStartAt, k.endpointId⟩

/-- A row of the backend `CLICKHOUSE` and the class `HOT`. -/
structure HotRow where
  bucketEndAt : Time
  eventCount : Nat
  isDelete : Bool
  partitionDeletedAt : Option Time

inductive ArchiveStatus
  | archived
  | restoreRequested
  | restored
  | restoreFailed
  | expired
  deriving DecidableEq

def ArchiveStatus.restorable : ArchiveStatus → Bool
  | archived | restoreFailed | expired => true
  | restoreRequested | restored => false

/-- A row of the backend `S3` and the class `GLACIER_FLEXIBLE_RETRIEVAL`. -/
structure ArchiveRow where
  bucketEndAt : Time
  storageStatus : ArchiveStatus
  storagePath : ObjectKey
  eventCount : Nat
  sizeBytes : Nat
  checksumSha256 : Option String
  archivedAt : Option Time
  archiveVerifiedAt : Option Time
  restoreRequestedAt : Option Time
  restoredAt : Option Time
  restoreExpiresAt : Option Time
  lastError : Option String
  isDelete : Bool

/-- A row with its key. -/
abbrev ArchiveBucket := BucketKey × ArchiveRow

def ArchiveRow.unverify (r : ArchiveRow) : ArchiveRow :=
  { r with archiveVerifiedAt := none, checksumSha256 := none }

/-- An `ARCHIVE_RESTORE_REQUESTED` row of `audit_logs`. Its `resource_id` is the text
    of the endpoint and of the day, kept here as the bucket. -/
structure AuditLog where
  actorIdentifier : String
  resourceId : BucketKey
  requestId : String
  createdAt : Time
  deriving DecidableEq

/-- The table `ingest_metadata`, and the audit rows of its restore requests. -/
structure Catalog where
  hot : Table BucketKey HotRow
  archive : Table BucketKey ArchiveRow
  auditLogs : List AuditLog

namespace Catalog

def empty : Catalog := ⟨.empty, .empty, []⟩

/-! ## Ingest -/

structure ArchivedDayImmutableError where
  message : String

def frozen (c : Catalog) (d : Day) : Bool :=
  c.hot.any fun k r => decide (k.bucketStartAt = d) && (r.isDelete || r.partitionDeletedAt.isSome)

/-- Has the bucket a `HOT` row that is not deleted? -/
def liveHot (c : Catalog) (k : BucketKey) : Bool := (c.hot.get? k).any fun r => !r.isDelete

structure GuardWrites where
  key : BucketKey
  /-- A `HOT` row is inserted. -/
  insertHot : Bool
  clearVerified : Bool

/-- The body of `hot_ingest_guard`, up to its `yield`: it refuses a frozen day, and
    otherwise says what it has written. -/
def hotIngestGuard (k : BucketKey) (c : Catalog) : Except ArchivedDayImmutableError GuardWrites :=
  let existing := c.hot.get? k
  if c.frozen k.bucketStartAt then .error ⟨"Archived ClickHouse day cannot be recreated"⟩
  else if existing.any (·.isDelete) then .error ⟨"Archived ClickHouse day cannot be recreated"⟩
  else .ok {
    key := k
    insertHot := existing.isNone
    clearVerified := (c.archive.get? k).any fun r => r.archiveVerifiedAt.isSome && !r.isDelete }

def newHotRow (k : BucketKey) : HotRow where
  bucketEndAt := dayEnd k.bucketStartAt
  eventCount := 0
  isDelete := false
  partitionDeletedAt := none

def applyGuard (g : GuardWrites) (c : Catalog) : Catalog :=
  { c with
    hot := if g.insertHot then c.hot.insert g.key (newHotRow g.key) else c.hot
    archive :=
      if g.clearVerified then c.archive.update (fun k _ => decide (k = g.key)) ArchiveRow.unverify
      else c.archive }

/-! ## Archiving -/

/-- `ORDER BY bucket_start_at ASC, endpoint_id ASC`. -/
def BucketLe (k k' : BucketKey) : Prop :=
  k.bucketStartAt < k'.bucketStartAt ∨
    k.bucketStartAt = k'.bucketStartAt ∧ k.endpointId ≤ k'.endpointId

instance : DecidableRel BucketLe := fun _ _ => inferInstanceAs (Decidable (_ ∨ _))

/-- A candidate for archiving: the bucket, its `HOT` row, and the path of its object
    when there is an S3 row. -/
structure ArchiveCandidate where
  key : BucketKey
  hot : HotRow
  archiveStoragePath : Option ObjectKey

/-- Is the archive of a bucket missing, withdrawn, or of another count than the `HOT` row? -/
def needsArchive (c : Catalog) (k : BucketKey) (hot : HotRow) : Bool :=
  match (c.archive.get? k).filter fun r => !r.isDelete with
  | none => true
  | some r => r.archiveVerifiedAt.isNone || r.checksumSha256.isNone ||
      r.eventCount != hot.eventCount

def archiveCandidates (completedBefore : Time) (limit : Nat) (c : Catalog) :
    List ArchiveCandidate :=
  let rows := c.hot.select fun k r =>
    !r.isDelete && decide (r.bucketEndAt ≤ completedBefore) && c.needsArchive k r
  let sorted := rows.insertionSort fun x y => BucketLe x.1 y.1
  (sorted.take limit).map fun x =>
    ⟨x.1, x.2, ((c.archive.get? x.1).filter fun r => !r.isDelete).map (·.storagePath)⟩

/-- `archive_guard`: the `HOT` row of the bucket, unless it is deleted. -/
def archiveGuard (k : BucketKey) (c : Catalog) : Option HotRow :=
  (c.hot.get? k).filter fun r => !r.isDelete

/-- The arguments of `record_verified_archive`. -/
structure VerifiedArchive where
  key : BucketKey
  bucketEndAt : Time
  storagePath : ObjectKey
  eventCount : Nat
  sizeBytes : Nat
  checksumSha256 : String
  verifiedAt : Time

def VerifiedArchive.row (a : VerifiedArchive) : ArchiveRow where
  bucketEndAt := a.bucketEndAt
  storageStatus := .archived
  storagePath := a.storagePath
  eventCount := a.eventCount
  sizeBytes := a.sizeBytes
  checksumSha256 := some a.checksumSha256
  archivedAt := some a.verifiedAt
  archiveVerifiedAt := some a.verifiedAt
  restoreRequestedAt := none
  restoredAt := none
  restoreExpiresAt := none
  lastError := none
  isDelete := false

def recordVerifiedArchive (a : VerifiedArchive) (c : Catalog) : Catalog :=
  { c with
    hot := c.hot.update (fun k r => decide (k = a.key) && !r.isDelete)
      fun r => { r with eventCount := a.eventCount }
    archive := c.archive.upsert a.key fun _ => a.row }

/-! ## Deletion -/

/-- Has the bucket an archive that was verified by then, of as many events as the
    `HOT` row? -/
def verifiedBy (c : Catalog) (verifiedBefore : Time) (k : BucketKey) (hot : HotRow) : Bool :=
  (c.archive.get? k).any fun r =>
    !r.isDelete && (r.archiveVerifiedAt.any fun t => decide (t ≤ verifiedBefore)) &&
      r.checksumSha256.isSome && r.eventCount == hot.eventCount

def deletionPending (c : Catalog) (d : Day) : Bool :=
  c.hot.any fun k r => decide (k.bucketStartAt = d) && r.isDelete && r.partitionDeletedAt.isNone

/-- Has the day a live `HOT` row? -/
def liveDay (c : Catalog) (d : Day) : Bool :=
  c.hot.any fun k r => decide (k.bucketStartAt = d) && !r.isDelete

/-- Are all the live `HOT` rows of the day archived and verified by then? -/
def allVerified (c : Catalog) (verifiedBefore : Time) (d : Day) : Bool :=
  c.hot.all fun k r =>
    !(decide (k.bucketStartAt = d) && !r.isDelete) || c.verifiedBy verifiedBefore k r

def partitionDeletionCandidates (verifiedBefore : Time) (limit : Nat) (c : Catalog) : List Day :=
  let days := (c.hot.rows.map fun x => x.1.bucketStartAt).dedup
  let eligible := days.filter fun d =>
    c.deletionPending d || (c.liveDay d && c.allVerified verifiedBefore d)
  (eligible.insertionSort (· ≤ ·)).take limit

/-- `claim_partition_deletion`: whether the day may be dropped, its rows being claimed. -/
def claimPartitionDeletion (d : Day) (verifiedBefore : Time) (c : Catalog) : Bool × Catalog :=
  if c.deletionPending d then (true, c)
  else if !c.liveDay d || !c.allVerified verifiedBefore d then (false, c)
  else (true, { c with
    hot := c.hot.update (fun k r => decide (k.bucketStartAt = d) && !r.isDelete)
      fun r => { r with isDelete := true } })

def markPartitionDeleted (d : Day) (deletedAt : Time) (c : Catalog) : Catalog :=
  { c with
    hot := c.hot.update
      (fun k r => decide (k.bucketStartAt = d) && r.isDelete && r.partitionDeletedAt.isNone)
      fun r => { r with partitionDeletedAt := some deletedAt } }

/-! ## Restores -/

/-- `restore_buckets`, without a limit: the archives of the endpoints that overlap
    the range, and whose events are not in ClickHouse, the latest day first. -/
def restoreBuckets (endpointIds : List Nat) (from_ to_ : Time) (c : Catalog) :
    List ArchiveBucket :=
  let rows := c.archive.select fun k r =>
    decide (k.endpointId ∈ endpointIds) && decide (dayStart k.bucketStartAt < to_) &&
      decide (from_ < r.bucketEndAt) && !r.isDelete && !c.liveHot k
  rows.insertionSort fun x y =>
    y.1.bucketStartAt < x.1.bucketStartAt ∨
      y.1.bucketStartAt = x.1.bucketStartAt ∧ x.1.endpointId ≤ y.1.endpointId

def restoreBucket (k : BucketKey) (c : Catalog) : Option ArchiveRow :=
  (c.archive.get? k).filter fun r => !r.isDelete

def restorable (c : Catalog) (k : BucketKey) (r : ArchiveRow) : Bool :=
  r.storageStatus.restorable && !r.isDelete && !c.liveHot k

def requestedRow (requestedAt : Time) (r : ArchiveRow) : ArchiveRow :=
  { r with
    storageStatus := .restoreRequested
    restoreRequestedAt := some requestedAt
    restoredAt := none
    restoreExpiresAt := none
    lastError := none }

/-- `request_restore`: whether the row has been switched, with its audit row. -/
def requestRestore (k : BucketKey) (actorIdentifier requestId : String) (requestedAt : Time)
    (c : Catalog) : Bool × Catalog :=
  if (c.archive.get? k).any (c.restorable k) then
    (true, { c with
      archive := c.archive.update (fun k' _ => decide (k' = k)) (requestedRow requestedAt)
      auditLogs := c.auditLogs ++ [⟨actorIdentifier, k, requestId, requestedAt⟩] })
  else (false, c)

def restoreAwaited (r : ArchiveRow) : Bool :=
  decide (r.storageStatus = .restoreRequested) && !r.isDelete

def restoredRow (restoredAt restoreExpiresAt : Time) (r : ArchiveRow) : ArchiveRow :=
  { r with
    storageStatus := .restored
    restoredAt := some restoredAt
    restoreExpiresAt := some restoreExpiresAt
    lastError := none }

def markRestored (k : BucketKey) (restoredAt restoreExpiresAt : Time) (c : Catalog) :
    Bool × Catalog :=
  ((c.archive.get? k).any restoreAwaited, { c with
    archive := c.archive.update (fun k' r => decide (k' = k) && restoreAwaited r)
      (restoredRow restoredAt restoreExpiresAt) })

def failedRow (error : String) (r : ArchiveRow) : ArchiveRow :=
  { r with storageStatus := .restoreFailed, lastError := some error }

def markRestoreFailed (k : BucketKey) (error : String) (c : Catalog) : Bool × Catalog :=
  ((c.archive.get? k).any restoreAwaited, { c with
    archive := c.archive.update (fun k' r => decide (k' = k) && restoreAwaited r)
      (failedRow error) })

def restoreExpired (now : Time) (r : ArchiveRow) : Bool :=
  decide (r.storageStatus = .restored) && (r.restoreExpiresAt.any fun t => decide (t ≤ now)) &&
    !r.isDelete

def expireRestores (now : Time) (c : Catalog) : Catalog :=
  { c with
    archive := c.archive.update (fun _ r => restoreExpired now r)
      fun r => { r with storageStatus := .expired } }

/-! ## What the rows of a bucket are after an operation -/

variable {c : Catalog} {k : BucketKey} {d : Day}

theorem liveHot_iff : c.liveHot k = true ↔ ∃ h, c.hot.get? k = some h ∧ h.isDelete = false := by
  simp [liveHot, any_eq_true]

theorem frozen_iff : c.frozen d = true ↔ ∃ k h, c.hot.get? k = some h ∧ k.bucketStartAt = d ∧
    (h.isDelete = true ∨ h.partitionDeletedAt.isSome = true) := by
  simp [frozen, any_iff]

theorem deletionPending_iff : c.deletionPending d = true ↔ ∃ k h, c.hot.get? k = some h ∧
    k.bucketStartAt = d ∧ h.isDelete = true ∧ h.partitionDeletedAt = none := by
  simp [deletionPending, any_iff, and_assoc]

theorem archiveGuard_eq_some {h : HotRow} :
    c.archiveGuard k = some h ↔ c.hot.get? k = some h ∧ h.isDelete = false := by
  simp [archiveGuard, filter_eq_some_iff]

/-- A guard passes iff the day is not frozen and the bucket has no deleted row, and
    says what the rows of the bucket call for. -/
theorem hotIngestGuard_eq_ok {g : GuardWrites} : hotIngestGuard k c = .ok g ↔
    c.frozen k.bucketStartAt = false ∧ (∀ h, c.hot.get? k = some h → h.isDelete = false) ∧
      g = ⟨k, (c.hot.get? k).isNone,
        (c.archive.get? k).any fun r => r.archiveVerifiedAt.isSome && !r.isDelete⟩ := by
  unfold hotIngestGuard
  by_cases hf : c.frozen k.bucketStartAt = true
  · simp [hf]
  · rcases hh : c.hot.get? k with _ | h
    · simp [hf, eq_comm (b := g)]
    · cases hd : h.isDelete <;> simp [hf, hd, eq_comm (b := g)]

theorem hot_applyGuard (g : GuardWrites) (k : BucketKey) : (c.applyGuard g).hot.get? k =
    if g.insertHot = true ∧ k = g.key then some ((c.hot.get? k).getD (newHotRow k))
    else c.hot.get? k := by
  unfold applyGuard
  by_cases hi : g.insertHot = true
  · by_cases hk : k = g.key
    · subst hk
      simp [hi, get?_insert]
    · simp [hi, hk, get?_insert]
  · simp [hi]

theorem archive_applyGuard (g : GuardWrites) (k : BucketKey) : (c.applyGuard g).archive.get? k =
    if g.clearVerified = true ∧ k = g.key then (c.archive.get? k).map ArchiveRow.unverify
    else c.archive.get? k := by
  unfold applyGuard
  by_cases hv : g.clearVerified = true
  · by_cases hk : k = g.key <;> simp [hv, hk, get?_update]
  · simp [hv]

theorem hot_recordVerifiedArchive (a : VerifiedArchive) (k : BucketKey) :
    (c.recordVerifiedArchive a).hot.get? k = (c.hot.get? k).map fun h =>
      if k = a.key ∧ h.isDelete = false then { h with eventCount := a.eventCount } else h := by
  simp [recordVerifiedArchive, get?_update]

theorem archive_recordVerifiedArchive (a : VerifiedArchive) (k : BucketKey) :
    (c.recordVerifiedArchive a).archive.get? k =
      if k = a.key then some a.row else c.archive.get? k := by
  simp [recordVerifiedArchive, get?_upsert]

/-- What `claim_partition_deletion` can do: nothing, claiming or not, or claim all the
    live rows of the day, which are archived and verified. -/
theorem claimPartitionDeletion_cases (d : Day) (verifiedBefore : Time) (c : Catalog) :
    claimPartitionDeletion d verifiedBefore c = (false, c) ∨
    c.deletionPending d = true ∧ claimPartitionDeletion d verifiedBefore c = (true, c) ∨
    (∀ k h, c.hot.get? k = some h → k.bucketStartAt = d → h.isDelete = false →
      c.verifiedBy verifiedBefore k h = true) ∧ c.liveDay d = true ∧
    ∃ c', claimPartitionDeletion d verifiedBefore c = (true, c') ∧ c'.archive = c.archive ∧
      c'.auditLogs = c.auditLogs ∧ ∀ k, c'.hot.get? k = (c.hot.get? k).map fun h =>
        if k.bucketStartAt = d ∧ h.isDelete = false then { h with isDelete := true } else h := by
  unfold claimPartitionDeletion
  by_cases hp : c.deletionPending d = true
  · exact .inr (.inl ⟨hp, by simp [hp]⟩)
  by_cases he : (!c.liveDay d || !c.allVerified verifiedBefore d) = true
  · exact .inl (by rw [if_neg hp, if_pos he])
  · obtain ⟨hl, hv⟩ : c.liveDay d = true ∧ c.allVerified verifiedBefore d = true := by
      simpa using he
    refine .inr (.inr ⟨fun k h hk hd hh => ?_, hl, _, (if_neg hp).trans (if_neg he), rfl, rfl,
      fun k => ?_⟩)
    · have := all_iff.1 hv k h hk
      simpa [hd, hh] using this
    · simp [get?_update]

theorem archive_claimPartitionDeletion (d : Day) (verifiedBefore : Time) :
    (c.claimPartitionDeletion d verifiedBefore).2.archive = c.archive := by
  rcases claimPartitionDeletion_cases d verifiedBefore c with h | ⟨-, h⟩ | ⟨-, -, c', h, ha, -⟩
  · rw [h]
  · rw [h]
  · rw [h, ha]

theorem hot_markPartitionDeleted (d : Day) (deletedAt : Time) (k : BucketKey) :
    (c.markPartitionDeleted d deletedAt).hot.get? k = (c.hot.get? k).map fun h =>
      if k.bucketStartAt = d ∧ h.isDelete = true ∧ h.partitionDeletedAt = none then
        { h with partitionDeletedAt := some deletedAt } else h := by
  simp [markPartitionDeleted, get?_update, and_assoc]

theorem restoreAwaited_iff {r : ArchiveRow} :
    restoreAwaited r = true ↔ r.storageStatus = .restoreRequested ∧ r.isDelete = false := by
  simp [restoreAwaited]

theorem restoreExpired_status {now : Time} {r : ArchiveRow} (h : restoreExpired now r = true) :
    r.storageStatus = .restored := by
  simp only [restoreExpired, Bool.and_eq_true, decide_eq_true_eq] at h
  exact h.1.1

theorem archive_markRestored (k : BucketKey) (t e : Time) (k' : BucketKey) :
    (c.markRestored k t e).2.archive.get? k' = (c.archive.get? k').map fun r =>
      if k' = k ∧ restoreAwaited r = true then restoredRow t e r else r := by
  simp [markRestored, get?_update]

theorem archive_markRestoreFailed (k : BucketKey) (error : String) (k' : BucketKey) :
    (c.markRestoreFailed k error).2.archive.get? k' = (c.archive.get? k').map fun r =>
      if k' = k ∧ restoreAwaited r = true then failedRow error r else r := by
  simp [markRestoreFailed, get?_update]

theorem archive_expireRestores (now : Time) (k : BucketKey) :
    (c.expireRestores now).archive.get? k = (c.archive.get? k).map fun r =>
      if restoreExpired now r = true then { r with storageStatus := .expired } else r := by
  simp [expireRestores, get?_update]

theorem requestRestore_cases (k : BucketKey) (actor request : String) (t : Time) (c : Catalog) :
    requestRestore k actor request t c = (false, c) ∨
    ∃ r, c.archive.get? k = some r ∧ c.restorable k r = true ∧
      ∃ c', requestRestore k actor request t c = (true, c') ∧ c'.hot = c.hot ∧
        c'.auditLogs = c.auditLogs ++ [⟨actor, k, request, t⟩] ∧
        ∀ k', c'.archive.get? k' = (c.archive.get? k').map fun r =>
          if k' = k then requestedRow t r else r := by
  by_cases h : (c.archive.get? k).any (c.restorable k) = true
  · obtain ⟨r, hr, hc⟩ := (any_eq_true _ _).1 h
    refine .inr ⟨r, hr, hc, _, if_pos h, rfl, rfl, fun k' => ?_⟩
    simp [get?_update]
  · exact .inl (if_neg h)

end Catalog

end Edr
