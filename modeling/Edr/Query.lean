import Edr.Lib.Fold
import Edr.Storage

/-!
# The queries on the stored events

`EventService` answers the event list and the dashboard. It reads the catalog, to see which
buckets of the range are in ClickHouse and which are archived; it refuses the query when an
archived bucket is not restored; and it adds what it finds in ClickHouse to what it finds in the
objects of the restored buckets. ClickHouse is asked without regard to the catalog.
-/

namespace Edr

open List Option

/-! ## Text -/

structure TextOps where
  /-- `str.lower`. -/
  lower : String → String
  lowerUTF8 : String → String
  positionCaseInsensitiveUTF8 : String → String → Nat
  uuidLe : UUID → UUID → Bool

/-- `needle in haystack`. -/
def isIn (needle haystack : String) : Bool := decide (needle.toList <:+: haystack.toList)

structure TextOps.AgreeOn (ops : TextOps) (T : Set String) : Prop where
  position : ∀ haystack ∈ T, ∀ needle ∈ T,
    0 < ops.positionCaseInsensitiveUTF8 haystack needle ↔
      isIn (ops.lower needle) (ops.lower haystack) = true
  lower : ∀ a ∈ T, ∀ b ∈ T, ops.lowerUTF8 a = ops.lowerUTF8 b ↔ ops.lower a = ops.lower b

/-! ## The query -/

inductive EventType
  | processExecution
  | networkConnection
  | fileEvent
  | dnsQuery
  | l7Event
  deriving DecidableEq

def EventType.value : EventType → String
  | processExecution => "PROCESS_EXECUTION"
  | networkConnection => "NETWORK_CONNECTION"
  | fileEvent => "FILE_EVENT"
  | dnsQuery => "DNS_QUERY"
  | l7Event => "L7_EVENT"

inductive SortOrder
  | asc
  | desc
  deriving DecidableEq

structure EventListQuery where
  page : Nat := 1
  size : Nat := 50
  endpointId : Option Nat := none
  eventType : Option EventType := none
  processName : Option String := none
  filePath : Option String := none
  domain : Option String := none
  remoteIp : Option String := none
  dnsQuery : Option String := none
  l7Protocol : Option String := none
  sortOrder : SortOrder := .desc
  one_le_page : 1 ≤ page := by decide
  one_le_size : 1 ≤ size := by decide
  size_le : size ≤ 500 := by decide

def EventListQuery.texts (q : EventListQuery) : List String :=
  [q.processName, q.filePath, q.domain, q.dnsQuery, q.l7Protocol].reduceOption

def EventRecord.texts (r : EventRecord) : List String :=
  [r.processName, r.filePath, r.remoteDomain, r.httpHost, r.dnsQuery, r.l7Protocol].map (·.getD "")

def TextOps.Mentions (ops : TextOps) (column : Option String) (value : String) : Prop :=
  isIn (ops.lower value) (ops.lower (column.getD "")) = true

structure EventListQuery.Selects (ops : TextOps) (q : EventListQuery) (from_ to_ : Time)
    (r : EventRecord) : Prop where
  from_le : from_ ≤ r.occurredAt
  lt_to : r.occurredAt < to_
  not_isDelete : r.isDelete = false
  endpointId : ∀ e ∈ q.endpointId, r.endpointId = e
  eventType : ∀ e ∈ q.eventType, r.eventType = e.value
  processName : ∀ v ∈ q.processName, ops.Mentions r.processName v
  filePath : ∀ v ∈ q.filePath, ops.Mentions r.filePath v
  domain : ∀ v ∈ q.domain, ops.Mentions r.remoteDomain v ∨ ops.Mentions r.httpHost v
  remoteIp : ∀ v ∈ q.remoteIp, r.remoteIp = some v
  dnsQuery : ∀ v ∈ q.dnsQuery, ops.Mentions r.dnsQuery v
  l7Protocol : ∀ v ∈ q.l7Protocol, ops.lower (r.l7Protocol.getD "") = ops.lower v

/-! ## ClickHouse -/

/-- The arguments of `_event_search_filters`. -/
structure EventSearchFilters where
  from_ : Time
  to_ : Time
  endpointId : Option Nat := none
  endpointIds : Option (List Nat) := none
  eventType : Option String := none
  processName : Option String := none
  filePath : Option String := none
  domain : Option String := none
  relatedDomain : Option String := none
  remoteIp : Option String := none
  dnsQuery : Option String := none
  dnsAnswerIp : Option String := none
  l7Protocol : Option String := none

namespace EventRepository

variable (ops : TextOps)

/-- `positionCaseInsensitiveUTF8(ifNull(column, ''), value) > 0`. -/
def contains (column : Option String) (value : String) : Bool :=
  decide (0 < ops.positionCaseInsensitiveUTF8 (column.getD "") value)

def relatedTo (column : Option String) (domain : String) : Bool :=
  let text := ops.lowerUTF8 (column.getD "")
  decide (text = ops.lowerUTF8 domain) ||
    decide ((ops.lowerUTF8 ("." ++ domain)).toList <:+ text.toList)

/-- The conditions of `_event_search_filters`. -/
def searchFilter (f : EventSearchFilters) (r : EventRecord) : Bool :=
  decide (f.from_ ≤ r.occurredAt) && decide (r.occurredAt < f.to_) && !r.isDelete &&
    (f.endpointIds.all fun ids => ids.isEmpty || ids.contains r.endpointId) &&
    (f.endpointId.all fun e => decide (r.endpointId = e)) &&
    (f.eventType.all fun e => decide (r.eventType = e)) &&
    (f.remoteIp.all fun ip => decide (r.remoteIp = some ip)) &&
    f.processName.all (contains ops r.processName) &&
    f.filePath.all (contains ops r.filePath) &&
    f.dnsQuery.all (contains ops r.dnsQuery) &&
    (f.domain.all fun d => contains ops r.remoteDomain d || contains ops r.httpHost d) &&
    (f.relatedDomain.all fun d => relatedTo ops r.remoteDomain d || relatedTo ops r.httpHost d ||
      relatedTo ops r.tlsSni d || relatedTo ops r.dnsQuery d) &&
    (f.dnsAnswerIp.all fun ip => (r.dnsAnswers.getD []).contains ip) &&
    f.l7Protocol.all fun p => decide (ops.lowerUTF8 (r.l7Protocol.getD "") = ops.lowerUTF8 p)

/-- `ORDER BY occurred_at, event_id`, both in this direction. -/
def OrderedBy (order : SortOrder) (r r' : EventRecord) : Prop :=
  let le (a b : EventRecord) :=
    a.occurredAt < b.occurredAt ∨ a.occurredAt = b.occurredAt ∧ ops.uuidLe a.eventId b.eventId = true
  match order with
  | .asc => le r r'
  | .desc => le r' r

instance (order : SortOrder) : DecidableRel (OrderedBy ops order) := fun _ _ =>
  match order with
  | .asc => inferInstanceAs (Decidable (_ ∨ _))
  | .desc => inferInstanceAs (Decidable (_ ∨ _))

/-- `search`, with a sort order and a limit. -/
def search (events : List EventRecord) (f : EventSearchFilters) (order : SortOrder)
    (limit : Nat) (offset : Nat := 0) : List EventRecord :=
  (((events.filter (searchFilter ops f)).insertionSort (OrderedBy ops order)).drop offset).take limit

/-- `count_search`, with `uniqExact(event_id)`. -/
def countSearch (events : List EventRecord) (f : EventSearchFilters) : Nat :=
  ((events.filter (searchFilter ops f)).map (·.eventId)).dedup.length

end EventRepository

/-! ## The catalog and the objects -/

/-- A row of `ingest_metadata`. -/
inductive StorageRow
  | hot (row : HotRow)
  | s3 (row : ArchiveRow)

namespace StorageRow

def bucketEndAt : StorageRow → Time
  | hot row => row.bucketEndAt
  | s3 row => row.bucketEndAt

def isDelete : StorageRow → Bool
  | hot row => row.isDelete
  | s3 row => row.isDelete

end StorageRow

/-- `ORDER BY bucket_start_at DESC, endpoint_id ASC`. -/
def LatestFirst (k k' : BucketKey) : Prop :=
  k'.bucketStartAt < k.bucketStartAt ∨
    k'.bucketStartAt = k.bucketStartAt ∧ k.endpointId ≤ k'.endpointId

instance : DecidableRel LatestFirst := fun _ _ => inferInstanceAs (Decidable (_ ∨ _))

/-- All the rows of `ingest_metadata`. -/
def Catalog.storageRows (c : Catalog) : List (BucketKey × StorageRow) :=
  c.hot.rows.map (fun x => (x.1, .hot x.2)) ++ c.archive.rows.map (fun x => (x.1, .s3 x.2))

/-- `overlapping_all`: the rows of the range that are not deleted. -/
def Catalog.overlappingAll (c : Catalog) (from_ to_ : Time) (endpointIds : Option (List Nat)) :
    List (BucketKey × StorageRow) :=
  let overlapping := c.storageRows.filter fun x =>
    decide (dayStart x.1.bucketStartAt < to_) && decide (from_ < x.2.bucketEndAt) &&
      !x.2.isDelete && endpointIds.all (·.contains x.1.endpointId)
  overlapping.insertionSort fun x y => LatestFirst x.1 y.1

/-- An entry of the details of `ARCHIVE_NOT_READY`. -/
structure ArchiveNotReadyDetail where
  endpointId : Nat
  bucketStartAt : Day
  storageStatus : ArchiveStatus

inductive QueryError
  | applicationError (statusCode : Nat) (code message : String)
      (details : List ArchiveNotReadyDetail) (retryable : Bool)
  | valueError (message : String)

def serviceUnavailableError (message : String) : QueryError :=
  .applicationError 503 "SERVICE_UNAVAILABLE" message [] true

def archiveUnavailable : QueryError :=
  serviceUnavailableError "Restored event archive is temporarily unavailable."

/-- A `VALIDATION_ERROR`. -/
def validationError (message : String) : QueryError :=
  .applicationError 400 "VALIDATION_ERROR" message [] false

/-- `UNREADY_STATUSES`. -/
def ArchiveStatus.unready : ArchiveStatus → Bool
  | archived | restoreRequested | restoreFailed | expired => true
  | restored => false

def archiveNotReady (rows : List ArchiveBucket) : QueryError :=
  .applicationError 409 "ARCHIVE_NOT_READY" "One or more archive buckets are not ready."
    (rows.map fun x => ⟨x.1.endpointId, x.1.bucketStartAt, x.2.storageStatus⟩) false

/-- The buckets of the `HOT` rows. -/
def hotKeys (rows : List (BucketKey × StorageRow)) : List BucketKey :=
  rows.filterMap fun
    | (k, .hot _) => some k
    | (_, .s3 _) => none

/-- The S3 rows whose bucket has no `HOT` row among the rows. -/
def coldRows (rows : List (BucketKey × StorageRow)) : List ArchiveBucket :=
  (rows.filterMap fun
    | (_, .hot _) => none
    | (k, .s3 row) => some (k, row)).filter fun x => !(hotKeys rows).contains x.1

/-- `_ensure_archive_rows_ready`, whose result is `hotKeys`. -/
def ensureArchiveRowsReady (rows : List (BucketKey × StorageRow)) : Except QueryError Unit :=
  let unready := (coldRows rows).filter fun x => x.2.storageStatus.unready
  if unready.isEmpty then .ok () else .error (archiveNotReady unready)

/-- The `restored_rows` of a query. -/
def restoredRows (rows : List (BucketKey × StorageRow)) : List ArchiveBucket :=
  (coldRows rows).filter fun x => decide (x.2.storageStatus = .restored)

/-- The filters of `read_rows`. -/
structure ReadFilters where
  from_ : Option Time := none
  to_ : Option Time := none
  endpointId : Option Nat := none
  eventType : Option String := none
  remoteIp : Option String := none
  eventId : Option UUID := none
  eventIds : Option (List UUID) := none

/-- The expression of `read_rows`. -/
def readFilter (f : ReadFilters) (r : EventRecord) : Bool :=
  (f.from_.all fun t => decide (t ≤ r.occurredAt)) &&
    (f.to_.all fun t => decide (r.occurredAt < t)) &&
    (f.endpointId.all fun e => decide (r.endpointId = e)) &&
    (f.eventType.all fun e => decide (r.eventType = e)) &&
    (f.remoteIp.all fun ip => decide (r.remoteIp = some ip)) &&
    (f.eventId.all fun id => decide (r.eventId = id)) &&
    f.eventIds.all fun ids => ids.isEmpty || ids.contains r.eventId

def readRows (objects : ObjectKey → Option ArchiveObject) (objectKey : ObjectKey)
    (f : ReadFilters) : Except QueryError (List EventRecord) :=
  match objects objectKey with
  | none => .error archiveUnavailable
  | some o => .ok (o.rows.filter (readFilter f))

/-! ## The event list -/

namespace EventService

variable (ops : TextOps)

def maxRestoredPageWindow : Nat := 10000

/-- The filters of `list_rows` for ClickHouse. -/
def searchFilters (q : EventListQuery) (from_ to_ : Time) : EventSearchFilters where
  from_ := from_
  to_ := to_
  endpointId := q.endpointId
  eventType := q.eventType.map (·.value)
  processName := q.processName
  filePath := q.filePath
  domain := q.domain
  remoteIp := q.remoteIp
  dnsQuery := q.dnsQuery
  l7Protocol := q.l7Protocol

def mentions (column : Option String) (value : String) : Bool :=
  isIn (ops.lower value) (ops.lower (column.getD ""))

/-- `_matches`. The address of a row without one reads `None`. -/
def matches_ (q : EventListQuery) (from_ to_ : Time) (r : EventRecord) : Bool :=
  decide (from_ ≤ r.occurredAt) && decide (r.occurredAt < to_) &&
    (q.endpointId.all fun e => decide (r.endpointId = e)) &&
    (q.eventType.all fun e => decide (r.eventType = e.value)) &&
    q.processName.all (mentions ops r.processName) && q.filePath.all (mentions ops r.filePath) &&
    q.dnsQuery.all (mentions ops r.dnsQuery) &&
    (q.domain.all fun d => mentions ops r.remoteDomain d || mentions ops r.httpHost d) &&
    (q.remoteIp.all fun ip => decide (r.remoteIp.getD "None" = ip)) &&
    q.l7Protocol.all fun p => decide (ops.lower (r.l7Protocol.getD "") = ops.lower p)

/-- `_exact_bucket_count`: the recorded count, for a query without filters whose range has the
    whole bucket. -/
def exactBucketCount (bucket : ArchiveBucket) (q : EventListQuery) (from_ to_ : Time) :
    Option Nat :=
  if q.eventType.isSome || q.processName.isSome || q.filePath.isSome || q.domain.isSome ||
      q.remoteIp.isSome || q.dnsQuery.isSome || q.l7Protocol.isSome then none
  else if from_ ≤ dayStart bucket.1.bucketStartAt ∧ bucket.2.bucketEndAt ≤ to_ then
    some bucket.2.eventCount
  else none

/-- An entry of the heap: the time in microseconds and the id, negated for an ascending order,
    and the row. -/
structure HeapEntry where
  occurredKey : Int
  eventKey : Int
  row : EventRecord

def HeapEntry.Le (e e' : HeapEntry) : Prop :=
  e.occurredKey < e'.occurredKey ∨ e.occurredKey = e'.occurredKey ∧ e.eventKey ≤ e'.eventKey

instance : DecidableRel HeapEntry.Le := fun _ _ => inferInstanceAs (Decidable (_ ∨ _))

def heapEntry (order : SortOrder) (r : EventRecord) : HeapEntry :=
  match order with
  | .desc => ⟨r.occurredAt * 1000, r.eventId, r⟩
  | .asc => ⟨-(r.occurredAt * 1000), -(r.eventId : Int), r⟩

/-- The heap takes a row in, and keeps its `limit` greatest entries. A heap is the list of its
    entries from the least one on. -/
def pushRow (order : SortOrder) (limit : Nat) (heap : List HeapEntry) (r : EventRecord) :
    List HeapEntry :=
  let entry := heapEntry order r
  if heap.length < limit then heap.orderedInsert HeapEntry.Le entry
  else if heap.head?.any fun least => !decide (entry.Le least) then
    heap.tail.orderedInsert HeapEntry.Le entry
  else heap

def bucketCanImprove (bucket : ArchiveBucket) (worstHeapKey : Int) (order : SortOrder) :
    Bool :=
  match order with
  | .desc => decide (worstHeapKey < bucket.2.bucketEndAt * 1000)
  | .asc => decide (dayStart bucket.1.bucketStartAt * 1000 ≤ -worstHeapKey)

/-- The filters of `_restored_page` for the reader. -/
def pageFilters (q : EventListQuery) (from_ to_ : Time) : ReadFilters where
  from_ := some from_
  to_ := some to_
  endpointId := q.endpointId
  eventType := q.eventType.map (·.value)
  remoteIp := q.remoteIp

/-- The inner loop of `_restored_page`: the heap and the total, after a row. -/
def pageRow (q : EventListQuery) (from_ to_ : Time) (limit : Nat) (counted : Bool)
    (acc : List HeapEntry × Nat) (r : EventRecord) : List HeapEntry × Nat :=
  if matches_ ops q from_ to_ r then
    (pushRow q.sortOrder limit acc.1 r, if counted then acc.2 else acc.2 + 1)
  else acc

/-- The outer loop of `_restored_page`: the heap and the total, after a bucket. -/
def pageBucket (objects : ObjectKey → Option ArchiveObject) (q : EventListQuery)
    (from_ to_ : Time) (limit : Nat) (acc : List HeapEntry × Nat)
    (bucket : ArchiveBucket) : Except QueryError (List HeapEntry × Nat) :=
  let metadataCount := exactBucketCount bucket q from_ to_
  let total := acc.2 + metadataCount.getD 0
  if metadataCount.isSome && decide (limit ≤ acc.1.length) &&
      !(acc.1.head?.any fun least => bucketCanImprove bucket least.occurredKey q.sortOrder) then
    .ok (acc.1, total)
  else do
    let rows ← readRows objects bucket.2.storagePath (pageFilters q from_ to_)
    return rows.foldl (pageRow ops q from_ to_ limit metadataCount.isSome) (acc.1, total)

/-- `sorted(buckets, key=bucket_start_at, reverse=..)`. -/
def orderedBuckets (order : SortOrder) (buckets : List ArchiveBucket) :
    List ArchiveBucket :=
  match order with
  | .asc => buckets.insertionSort fun x y => x.1.bucketStartAt ≤ y.1.bucketStartAt
  | .desc => buckets.insertionSort fun x y => y.1.bucketStartAt ≤ x.1.bucketStartAt

def restoredPage (objects : ObjectKey → Option ArchiveObject)
    (buckets : List ArchiveBucket) (q : EventListQuery) (from_ to_ : Time)
    (limit : Nat) : Except QueryError (List EventRecord × Nat) := do
  let (heap, total) ← (orderedBuckets q.sortOrder buckets).foldlM
    (pageBucket ops objects q from_ to_ limit) ([], 0)
  return (heap.map (·.row), total)

def RowLe (order : SortOrder) (r r' : EventRecord) : Prop :=
  match order with
  | .asc => EventLe r r'
  | .desc => EventLe r' r

instance (order : SortOrder) : DecidableRel (RowLe order) := fun _ _ =>
  match order with
  | .asc => inferInstanceAs (Decidable (EventLe _ _))
  | .desc => inferInstanceAs (Decidable (EventLe _ _))

/-- `list_rows`: the rows of a page, and the total. -/
def listRows (events : List EventRecord) (catalog : Catalog)
    (objects : ObjectKey → Option ArchiveObject) (q : EventListQuery) (from_ to_ : Time) :
    Except QueryError (List EventRecord × Nat) := do
  let metadataRows := catalog.overlappingAll from_ to_ (q.endpointId.map fun e => [e])
  ensureArchiveRowsReady metadataRows
  let filters := searchFilters q from_ to_
  let restored := restoredRows metadataRows
  let offset := (q.page - 1) * q.size
  if restored.isEmpty then
    return (EventRepository.search ops events filters q.sortOrder q.size offset,
      EventRepository.countSearch ops events filters)
  else
    let window := offset + q.size
    if window > maxRestoredPageWindow then
      throw (validationError
        s!"Restored archive pagination cannot exceed {maxRestoredPageWindow} rows.")
    else
      let hot := EventRepository.search ops events filters q.sortOrder window
      let (page, restoredTotal) ← restoredPage ops objects restored q from_ to_ window
      let rows := (hot ++ page).insertionSort (RowLe q.sortOrder)
      return (rows.extract offset window,
        EventRepository.countSearch ops events filters + restoredTotal)

end EventService

/-! ## What the filters mean -/

section

variable {ops : TextOps} {T : Set String} {q : EventListQuery} {from_ to_ : Time} {r : EventRecord}

theorem EventListQuery.forall_texts {P : String → Prop} : (∀ v ∈ q.texts, P v) ↔
    (∀ v ∈ q.processName, P v) ∧ (∀ v ∈ q.filePath, P v) ∧ (∀ v ∈ q.domain, P v) ∧
      (∀ v ∈ q.dnsQuery, P v) ∧ ∀ v ∈ q.l7Protocol, P v := by
  simp [EventListQuery.texts, reduceOption_mem_iff, or_imp, forall_and, eq_comm]

theorem EventRecord.forall_texts {P : String → Prop} : (∀ v ∈ r.texts, P v) ↔
    P (r.processName.getD "") ∧ P (r.filePath.getD "") ∧ P (r.remoteDomain.getD "") ∧
      P (r.httpHost.getD "") ∧ P (r.dnsQuery.getD "") ∧ P (r.l7Protocol.getD "") := by
  simp [EventRecord.texts]

theorem TextOps.AgreeOn.contains_iff (hT : ops.AgreeOn T) {column : Option String} {value : String}
    (hc : column.getD "" ∈ T) (hv : value ∈ T) :
    EventRepository.contains ops column value = true ↔ ops.Mentions column value := by
  rw [EventRepository.contains, decide_eq_true_eq, hT.position _ hc _ hv, TextOps.Mentions]

theorem TextOps.AgreeOn.forall_contains_iff (hT : ops.AgreeOn T) {column value : Option String}
    (hc : column.getD "" ∈ T) (hv : ∀ v ∈ value, v ∈ T) :
    (∀ v, value = some v → EventRepository.contains ops column v = true) ↔
      ∀ v, value = some v → ops.Mentions column v :=
  forall₂_congr fun v h => hT.contains_iff hc (hv v h)

theorem searchFilter_iff (hT : ops.AgreeOn T) (hq : ∀ v ∈ q.texts, v ∈ T)
    (hr : ∀ v ∈ r.texts, v ∈ T) :
    EventRepository.searchFilter ops (EventService.searchFilters q from_ to_) r = true ↔
      q.Selects ops from_ to_ r := by
  obtain ⟨hp, hf, hd, hdns, hl⟩ := EventListQuery.forall_texts.1 hq
  obtain ⟨rp, rf, rd, rh, rdns, rl⟩ := EventRecord.forall_texts.1 hr
  have hdomain : (∀ v, q.domain = some v → (EventRepository.contains ops r.remoteDomain v ||
      EventRepository.contains ops r.httpHost v) = true) ↔
      ∀ v, q.domain = some v → ops.Mentions r.remoteDomain v ∨ ops.Mentions r.httpHost v :=
    forall₂_congr fun v hv => by
      rw [Bool.or_eq_true, hT.contains_iff rd (hd v hv), hT.contains_iff rh (hd v hv)]
  have hl7 : (∀ v, q.l7Protocol = some v → ops.lowerUTF8 (r.l7Protocol.getD "") = ops.lowerUTF8 v) ↔
      ∀ v, q.l7Protocol = some v → ops.lower (r.l7Protocol.getD "") = ops.lower v :=
    forall₂_congr fun v hv => hT.lower _ rl _ (hl v hv)
  dsimp only [EventRepository.searchFilter, EventService.searchFilters]
  simp only [Bool.and_eq_true, Option.all_eq_true, hT.forall_contains_iff rp hp,
    hT.forall_contains_iff rf hf, hT.forall_contains_iff rdns hdns, hdomain, hl7,
    decide_eq_true_eq, Bool.not_eq_true', Option.all_none, Option.map_eq_some_iff,
    forall_exists_index, and_imp, forall_apply_eq_imp_iff₂, and_true, and_assoc]
  constructor
  · rintro ⟨from_le, lt_to, not_isDelete, endpointId, eventType, remoteIp, processName, filePath,
      dnsQuery, domain, l7Protocol⟩
    exact ⟨from_le, lt_to, not_isDelete, endpointId, eventType, processName, filePath, domain,
      remoteIp, dnsQuery, l7Protocol⟩
  · exact fun h => ⟨h.from_le, h.lt_to, h.not_isDelete, h.endpointId, h.eventType, h.remoteIp,
      h.processName, h.filePath, h.dnsQuery, h.domain, h.l7Protocol⟩

theorem restored_iff (hr : r.isDelete = false) :
    (readFilter (EventService.pageFilters q from_ to_) r && EventService.matches_ ops q from_ to_ r)
      = true ↔ q.Selects ops from_ to_ r := by
  dsimp only [readFilter, EventService.pageFilters, EventService.matches_, EventService.mentions]
  simp only [Bool.and_eq_true, Option.all_eq_true, Option.all_some, decide_eq_true_eq,
    Option.all_none, Option.map_eq_some_iff, forall_exists_index, and_imp,
    forall_apply_eq_imp_iff₂, and_true, Bool.or_eq_true, and_assoc]
  constructor
  · rintro ⟨-, -, -, -, remoteIp, from_le, lt_to, endpointId, eventType, processName, filePath,
      dnsQuery, domain, -, l7Protocol⟩
    exact ⟨from_le, lt_to, hr, endpointId, eventType, processName, filePath, domain, remoteIp,
      dnsQuery, l7Protocol⟩
  · intro h
    have hip : ∀ v, q.remoteIp = some v → r.remoteIp.getD "None" = v := fun v hv => by
      rw [h.remoteIp v hv, Option.getD_some]
    exact ⟨h.from_le, h.lt_to, h.endpointId, h.eventType, h.remoteIp, h.from_le, h.lt_to,
      h.endpointId, h.eventType, h.processName, h.filePath, h.dnsQuery, h.domain, hip, h.l7Protocol⟩

/-! ## The rows of the catalog -/

variable {c : Catalog} {endpointIds : Option (List Nat)} {k : BucketKey}

def Catalog.HasRow (c : Catalog) (k : BucketKey) : StorageRow → Prop
  | .hot row => c.hot.get? k = some row
  | .s3 row => c.archive.get? k = some row

def InRange (from_ to_ : Time) (endpointIds : Option (List Nat)) (k : BucketKey)
    (bucketEndAt : Time) : Prop :=
  dayStart k.bucketStartAt < to_ ∧ from_ < bucketEndAt ∧ ∀ ids ∈ endpointIds, k.endpointId ∈ ids

theorem mem_overlappingAll {row : StorageRow} :
    (k, row) ∈ c.overlappingAll from_ to_ endpointIds ↔ c.HasRow k row ∧
      InRange from_ to_ endpointIds k row.bucketEndAt ∧ row.isDelete = false := by
  have hrow : (k, row) ∈ c.storageRows ↔ c.HasRow k row := by
    cases row <;> simp [Catalog.storageRows, Catalog.HasRow, Table.mem_rows]
  simp only [Catalog.overlappingAll, (perm_insertionSort _ _).mem_iff, mem_filter, hrow,
    Bool.and_eq_true, decide_eq_true_eq, Option.all_eq_true, Bool.not_eq_true',
    contains_iff_mem, InRange, Option.mem_def]
  tauto

variable {rows : List (BucketKey × StorageRow)}

theorem mem_hotKeys : k ∈ hotKeys rows ↔ ∃ row, (k, .hot row) ∈ rows := by
  simp only [hotKeys, mem_filterMap, Prod.exists]
  constructor
  · rintro ⟨k', row | row, h, he⟩ <;> cases he
    exact ⟨row, h⟩
  · rintro ⟨row, h⟩
    exact ⟨k, .hot row, h, rfl⟩

theorem mem_coldRows {row : ArchiveRow} :
    (k, row) ∈ coldRows rows ↔ (k, .s3 row) ∈ rows ∧ k ∉ hotKeys rows := by
  simp only [coldRows, mem_filter, mem_filterMap, Prod.exists, Bool.not_eq_true',
    contains_eq_mem, decide_eq_false_iff_not]
  refine and_congr_left fun _ => ⟨?_, fun h => ⟨k, .s3 row, h, rfl⟩⟩
  rintro ⟨k', row' | row', h, he⟩ <;> cases he
  exact h

theorem coldRows_nodup :
    ((coldRows (c.overlappingAll from_ to_ endpointIds)).map Prod.fst).Nodup := by
  refine .sublist (filter_sublist.map _) ?_
  -- The S3 rows of the query are rows of the table, in another order.
  dsimp only [Catalog.overlappingAll]
  rw [(((perm_insertionSort _ _).filterMap _).map _).nodup_iff]
  refine .sublist ((filter_sublist.filterMap _).map _) ?_
  rw [Catalog.storageRows, filterMap_append, filterMap_map, filterMap_map]
  simpa [Function.comp_def] using c.archive.nodup

theorem restoredRows_nodup :
    ((restoredRows (c.overlappingAll from_ to_ endpointIds)).map Prod.fst).Nodup :=
  coldRows_nodup.sublist (filter_sublist.map _)

theorem mem_restoredRows {row : ArchiveRow} :
    (k, row) ∈ restoredRows rows ↔ (k, row) ∈ coldRows rows ∧ row.storageStatus = .restored := by
  rw [restoredRows, mem_filter, decide_eq_true_eq]

theorem ensureArchiveRowsReady_eq_ok (h : ensureArchiveRowsReady rows = .ok ()) :
    restoredRows rows = coldRows rows := by
  have hready : ∀ x ∈ coldRows rows, ¬x.2.storageStatus.unready = true := by
    simp only [ensureArchiveRowsReady] at h
    split_ifs at h with he
    exact filter_eq_nil_iff.1 (isEmpty_iff.1 he)
  refine filter_eq_self.2 fun x hx => ?_
  have := hready x hx
  revert this
  cases x.2.storageStatus <;> simp [ArchiveStatus.unready]

end

namespace EventService

/-! ## The totals -/

section

variable {ops : TextOps} {objects : ObjectKey → Option ArchiveObject} {q : EventListQuery}
  {from_ to_ : Time} {limit : Nat}

theorem countSearch_eq_length {events : List EventRecord} (h : (events.map (·.eventId)).Nodup)
    (f : EventSearchFilters) : EventRepository.countSearch ops events f =
      (events.filter (EventRepository.searchFilter ops f)).length := by
  rw [EventRepository.countSearch, List.Nodup.dedup (h.sublist (filter_sublist.map _)),
    length_map]

/-- Where the recorded count of a bucket is used, the query has no filters and its range has the
    whole bucket. -/
theorem exactBucketCount_eq_some (ops : TextOps) {k : BucketKey} {row : ArchiveRow} {n : Nat}
    (h : exactBucketCount (k, row) q from_ to_ = some n) :
    n = row.eventCount ∧ from_ ≤ dayStart k.bucketStartAt ∧ row.bucketEndAt ≤ to_ ∧
      ∀ r : EventRecord, r.isDelete = false → from_ ≤ r.occurredAt → r.occurredAt < to_ →
        (∀ e ∈ q.endpointId, r.endpointId = e) → q.Selects ops from_ to_ r := by
  unfold exactBucketCount at h
  split_ifs at h with hfilters hrange
  cases h
  simp only [Bool.or_eq_true, not_or, Bool.not_eq_true, isSome_eq_false_iff,
    isNone_iff_eq_none] at hfilters
  obtain ⟨⟨⟨⟨⟨⟨h₁, h₂⟩, h₃⟩, h₄⟩, h₅⟩, h₆⟩, h₇⟩ := hfilters
  refine ⟨rfl, hrange.1, hrange.2, fun r hd hfrom hto he => ?_⟩
  refine ⟨hfrom, hto, hd, he, ?_, ?_, ?_, ?_, ?_, ?_, ?_⟩ <;> simp [h₁, h₂, h₃, h₄, h₅, h₆, h₇]

def objectRows (objects : ObjectKey → Option ArchiveObject) (bucket : ArchiveBucket) :
    List EventRecord :=
  (objects bucket.2.storagePath).elim [] (·.rows)

/-- What `_restored_page` adds to its total for a bucket: the recorded count, or that of the rows
    that match. -/
def bucketTotal (ops : TextOps) (objects : ObjectKey → Option ArchiveObject) (q : EventListQuery)
    (from_ to_ : Time) (bucket : ArchiveBucket) : Nat :=
  (exactBucketCount bucket q from_ to_).getD ((objectRows objects bucket).countP fun r =>
    readFilter (pageFilters q from_ to_) r && matches_ ops q from_ to_ r)

theorem readRows_eq_ok {bucket : ArchiveBucket} {f : ReadFilters} {rows : List EventRecord}
    (h : readRows objects bucket.2.storagePath f = .ok rows) :
    rows = (objectRows objects bucket).filter (readFilter f) := by
  unfold readRows at h
  split at h
  · cases h
  · rename_i o ho
    cases h
    rw [objectRows, ho, elim_some]

theorem foldl_pageRow (counted : Bool) (rows : List EventRecord) (acc : List HeapEntry × Nat) :
    (rows.foldl (pageRow ops q from_ to_ limit counted) acc).2 =
      acc.2 + if counted then 0 else rows.countP (matches_ ops q from_ to_) := by
  induction rows generalizing acc with
  | nil => simp
  | cons r rows ih =>
    rw [foldl_cons, ih, pageRow, countP_cons]
    cases counted <;> by_cases hm : matches_ ops q from_ to_ r <;> simp [hm]
    omega

theorem pageBucket_total {acc acc' : List HeapEntry × Nat} {bucket : ArchiveBucket}
    (h : pageBucket ops objects q from_ to_ limit acc bucket = .ok acc') :
    acc'.2 = acc.2 + bucketTotal ops objects q from_ to_ bucket := by
  simp only [pageBucket, bucketTotal] at h ⊢
  split_ifs at h with hskip
  · -- The bucket is passed over, but only if it is counted.
    simp only [Bool.and_eq_true] at hskip
    obtain ⟨n, hn⟩ := isSome_iff_exists.1 hskip.1.1
    cases h
    rw [hn, getD_some, getD_some]
  · obtain ⟨rows, hread, h⟩ := bind_eq_ok.1 h
    cases h
    rw [foldl_pageRow, readRows_eq_ok hread, countP_filter]
    cases exactBucketCount bucket q from_ to_ with
    | none => simp [Bool.and_comm]
    | some n => simp

theorem orderedBuckets_perm (order : SortOrder) (buckets : List ArchiveBucket) :
    (orderedBuckets order buckets).Perm buckets := by
  cases order <;> exact perm_insertionSort _ _

/-- The total that `_restored_page` returns, as a sum over the buckets. -/
theorem restoredPage_total {buckets : List ArchiveBucket} {page : List EventRecord}
    {total : Nat} (h : restoredPage ops objects buckets q from_ to_ limit = .ok (page, total)) :
    total = (buckets.map (bucketTotal ops objects q from_ to_)).sum := by
  obtain ⟨acc, hfold, h⟩ := bind_eq_ok.1 h
  cases h
  have htotal : acc.2 = 0 + _ := foldlM_sum (fun _ _ _ hb => pageBucket_total hb) hfold
  rw [htotal, Nat.zero_add, ((orderedBuckets_perm _ _).map _).sum_eq]

theorem listRows_total {events : List EventRecord} {catalog : Catalog} {page : List EventRecord}
    {total : Nat} (h : listRows ops events catalog objects q from_ to_ = .ok (page, total)) :
    let rows := catalog.overlappingAll from_ to_ (q.endpointId.map fun e => [e])
    restoredRows rows = coldRows rows ∧
    total = EventRepository.countSearch ops events (searchFilters q from_ to_) +
      ((restoredRows rows).map (bucketTotal ops objects q from_ to_)).sum := by
  intro rows
  obtain ⟨⟨⟩, hready, h⟩ := bind_eq_ok.1 h
  refine ⟨ensureArchiveRowsReady_eq_ok hready, ?_⟩
  dsimp only at h
  split_ifs at h with hempty hwindow
  · cases h
    rw [isEmpty_iff.1 hempty]
    rfl
  · obtain ⟨⟨page', n⟩, hpage, h⟩ := bind_eq_ok.1 h
    cases h
    rw [restoredPage_total hpage]

end

end EventService

end Edr
