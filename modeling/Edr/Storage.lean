import Edr.Catalog

/-!
# The event table and the archive store

The queries of `EventRepository` that ingest and archiving rest on, as functions of the
rows of `edr_events`, and `BotoParquetArchiveStore`, which writes the rows of a bucket to an
object.
-/

namespace Edr

open List

/-! ## The event table -/

structure EventIdentityConflictError where
  message : String

/-- `EventRepository.identity`: the identity that is stored under an event id. -/
def eventIdentity (events : List EventRecord) (id : UUID) :
    Except EventIdentityConflictError (Option EventIdentity) :=
  match ((events.filter fun r => decide (r.eventId = id)).map (·.identity)).dedup with
  | [] => .ok none
  | [i] => .ok (some i)
  | _ :: _ :: _ => .error ⟨"eventId has multiple physical identities in ClickHouse"⟩

def inBucket (k : BucketKey) (r : EventRecord) : Bool :=
  decide (r.endpointId = k.endpointId) && decide (dayStart k.bucketStartAt ≤ r.occurredAt) &&
    decide (r.occurredAt < dayEnd k.bucketStartAt) && !r.isDelete

/-- `archive_count`, with `uniqExact(event_id)`. -/
def archiveCount (events : List EventRecord) (k : BucketKey) : Nat :=
  ((events.filter (inBucket k)).map (·.eventId)).dedup.length

/-- `ORDER BY occurred_at ASC, event_id ASC`. -/
def EventLe (r r' : EventRecord) : Prop :=
  r.occurredAt < r'.occurredAt ∨ r.occurredAt = r'.occurredAt ∧ r.eventId ≤ r'.eventId

instance : DecidableRel EventLe := fun _ _ => inferInstanceAs (Decidable (_ ∨ _))

/-- The rows of `archive_row_batches`, before they are cut into blocks. -/
def archiveRows (events : List EventRecord) (k : BucketKey) : List EventRecord :=
  (events.filter (inBucket k)).insertionSort EventLe

def dropPartition (d : Day) (events : List EventRecord) : List EventRecord :=
  events.filter fun r => decide (r.day ≠ d)

section

variable {events rows : List EventRecord} {k : BucketKey} {r : EventRecord} {id : UUID}

theorem inBucket_iff : inBucket k r = true ↔ r.bucketKey = k ∧ r.isDelete = false := by
  obtain ⟨e, d⟩ := k
  simp only [inBucket, Bool.and_eq_true, decide_eq_true_eq, Bool.not_eq_true', and_assoc,
    EventRecord.bucketKey, BucketKey.mk.injEq, EventRecord.day, dateOf_eq_iff]

theorem eventIdentity_eq_none (h : eventIdentity events id = .ok none) :
    ∀ r ∈ events, r.eventId ≠ id := by
  intro r hr hid
  have hm : r.identity ∈ ((events.filter fun r => decide (r.eventId = id)).map
      (·.identity)).dedup := by
    rw [mem_dedup]
    exact mem_map_of_mem (mem_filter.2 ⟨hr, by simpa using hid⟩)
  unfold eventIdentity at h
  split at h
  · rename_i he
    rw [he] at hm
    cases hm
  · cases h
  · cases h

theorem eventIdentity_eq_some {i : EventIdentity} (h : eventIdentity events id = .ok (some i)) :
    (∃ r ∈ events, r.eventId = id) ∧ ∀ r ∈ events, r.eventId = id → r.identity = i := by
  have hm (j : EventIdentity) : j ∈ ((events.filter fun r => decide (r.eventId = id)).map
      (·.identity)).dedup ↔ ∃ r ∈ events, r.eventId = id ∧ r.identity = j := by
    simp [mem_dedup, and_assoc]
  unfold eventIdentity at h
  split at h
  · cases h
  · rename_i j he
    cases h
    rw [he] at hm
    obtain ⟨r, hr, hid, -⟩ := (hm i).1 (mem_singleton_self i)
    exact ⟨⟨r, hr, hid⟩, fun r hr hid => mem_singleton.1 ((hm _).2 ⟨r, hr, hid, rfl⟩)⟩
  · cases h

theorem archiveRows_perm : (archiveRows events k).Perm (events.filter (inBucket k)) :=
  perm_insertionSort _ _

theorem mem_archiveRows : r ∈ archiveRows events k ↔ r ∈ events ∧ inBucket k r = true := by
  rw [archiveRows_perm.mem_iff, mem_filter]

theorem archiveCount_eq_length (h : (events.map (·.eventId)).Nodup) :
    archiveCount events k = (archiveRows events k).length := by
  rw [archiveCount, List.Nodup.dedup (h.sublist (filter_sublist.map _)), length_map,
    archiveRows_perm.length_eq]

/-- Rows of a bucket that are as many as its count are all its rows. This is why a final count
    detects every late event. -/
theorem mem_of_archiveCount_eq (h : (events.map (·.eventId)).Nodup) (hrows : rows.Nodup)
    (hsub : ∀ r ∈ rows, r ∈ events ∧ inBucket k r = true)
    (hcount : archiveCount events k = rows.length) (hr : r ∈ events)
    (hk : inBucket k r = true) : r ∈ rows := by
  have hsp : rows.Subperm (archiveRows events k) :=
    subperm_of_subset hrows fun r hr => mem_archiveRows.2 (hsub r hr)
  have hlen : (archiveRows events k).length ≤ rows.length := by
    rw [← hcount, archiveCount_eq_length h]
  exact (hsp.perm_of_length_le hlen).mem_iff.2 (mem_archiveRows.2 ⟨hr, hk⟩)

theorem mem_dropPartition {d : Day} : r ∈ dropPartition d events ↔ r ∈ events ∧ r.day ≠ d := by
  simp [dropPartition]

end

/-! ## The archive store -/

/-- What Parquet makes of the row groups of a file: its length, and its SHA-256. -/
structure ArchiveFormat where
  sizeBytes : List (List EventRecord) → Nat
  sha256 : List (List EventRecord) → String

/-- An object of the archive: a Parquet file, known by its row groups. Its metadata
    (`sha256`, `event-count`) is put with it, and is computed from it. -/
structure ArchiveObject where
  rowGroups : List (List EventRecord)

namespace ArchiveObject

def rows (o : ArchiveObject) : List EventRecord := o.rowGroups.flatten

/-- The `event-count` of the object. -/
def eventCount (o : ArchiveObject) : Nat := o.rows.length

def sizeBytes (fmt : ArchiveFormat) (o : ArchiveObject) : Nat := fmt.sizeBytes o.rowGroups

/-- The `sha256` of the object. -/
def checksum (fmt : ArchiveFormat) (o : ArchiveObject) : String := fmt.sha256 o.rowGroups

end ArchiveObject

def writeBatches : List (List EventRecord) → Nat × List (List EventRecord)
  | [] => (0, [])
  | batch :: batches =>
    let (written, groups) := writeBatches batches
    if batch.isEmpty then (written, groups) else (batch.length + written, batch :: groups)

/-- `BotoParquetArchiveStore.write`, up to the upload: the file, unless the rows are not as
    many as expected. -/
def prepareUpload (batches : List (List EventRecord)) (expectedCount : Nat) :
    Except String ArchiveObject :=
  let (written, groups) := writeBatches batches
  if written ≠ expectedCount then
    .error s!"Archive row count mismatch: ClickHouse count={expectedCount}, Parquet rows={written}"
  else .ok ⟨groups⟩

/-- `BotoParquetArchiveStore.write`, after the upload: does `head_object` find the length, the
    checksum and the count of the file that was put? -/
def headVerifies (fmt : ArchiveFormat) (durable : Option ArchiveObject) (o : ArchiveObject) :
    Bool :=
  durable.any fun o' => o'.sizeBytes fmt == o.sizeBytes fmt && o'.checksum fmt == o.checksum fmt &&
    o'.eventCount == o.eventCount

theorem writeBatches_spec (batches : List (List EventRecord)) :
    (writeBatches batches).2.flatten = batches.flatten ∧
      (writeBatches batches).1 = batches.flatten.length := by
  induction batches with
  | nil => exact ⟨rfl, rfl⟩
  | cons batch batches ih =>
    obtain ⟨h₁, h₂⟩ := ih
    rw [writeBatches]
    rcases batch with _ | ⟨r, batch⟩
    · exact ⟨h₁, h₂⟩
    · refine ⟨?_, ?_⟩
      · simp [h₁]
      · simp only [isEmpty_cons, Bool.false_eq_true, if_false, h₂, flatten_cons,
          length_append]

theorem prepareUpload_eq_ok {batches : List (List EventRecord)} {n : Nat} {o : ArchiveObject}
    (h : prepareUpload batches n = .ok o) : o.rows = batches.flatten ∧ o.eventCount = n := by
  obtain ⟨h₁, h₂⟩ := writeBatches_spec batches
  simp only [prepareUpload] at h
  split_ifs at h with hn
  cases h
  refine ⟨h₁, ?_⟩
  rw [not_not] at hn
  rw [ArchiveObject.eventCount, ArchiveObject.rows, h₁, ← h₂, hn]

theorem headVerifies_iff {fmt : ArchiveFormat} {durable : Option ArchiveObject}
    {o : ArchiveObject} : headVerifies fmt durable o = true ↔ ∃ o', durable = some o' ∧
      o'.sizeBytes fmt = o.sizeBytes fmt ∧ o'.checksum fmt = o.checksum fmt ∧
      o'.eventCount = o.eventCount := by
  simp [headVerifies, Option.any_eq_true, and_assoc]

end Edr
