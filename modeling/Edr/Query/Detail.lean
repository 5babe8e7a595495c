import Edr.Query.Pages

/-!
# The details of events, one by one and in bulk

`detail` looks for one event: in ClickHouse when its bucket has a `HOT` row or no row at all, else
in the restored object, else nowhere. `details_bulk` reads the rows of `ingest_metadata` once, for
the whole range of the identities, sorts the identities by where their events are, and asks
ClickHouse once and each restored object once.
-/

namespace Edr

open List EventService Catalog Table

/-- A row of `edr_events` with its version, and with the columns that only its DTO has. -/
structure EventRow (X : Type*) where
  record : EventRecord
  updatedAt : Time
  rest : X

/-- An entry of `identities`. -/
structure DetailIdentity where
  eventId : UUID
  endpointId : Nat
  occurredAt : Time
  deriving DecidableEq

def DetailIdentity.bucketKey (i : DetailIdentity) : BucketKey := ⟨i.endpointId, dateOf i.occurredAt⟩

def EventRow.Of {X : Type*} (i : DetailIdentity) (r : EventRow X) : Prop :=
  r.record.eventId = i.eventId ∧ r.record.bucketKey = i.bucketKey

instance {X : Type*} (i : DetailIdentity) (r : EventRow X) : Decidable (r.Of i) :=
  inferInstanceAs (Decidable (_ ∧ _))

/-- `ORDER BY updated_at DESC`. -/
def LatestUpdate {X : Type*} (r r' : EventRow X) : Prop := r'.updatedAt ≤ r.updatedAt

instance {X : Type*} : DecidableRel (LatestUpdate (X := X)) := fun _ _ =>
  inferInstanceAs (Decidable (_ ≤ _))

/-- What the two methods read: `edr_events FINAL`, and the objects of the archive. Nothing says
    how ClickHouse orders the rows of one `updated_at`. -/
structure DetailStore (X D : Type*) where
  events : List (EventRow X)
  objects : ObjectKey → Option (List (EventRow X))
  orderBy : List (EventRow X) → List (EventRow X)
  orderBy_perm : ∀ rows, (orderBy rows).Perm rows
  orderBy_sorted : ∀ rows, (orderBy rows).Pairwise LatestUpdate
  /-- `_event_detail_dto`. -/
  dto : EventRow X → D

namespace DetailStore

variable {X D : Type*} (store : DetailStore X D) (catalog : Catalog)

/-- The result rows of the query of `EventRepository.detail`. -/
def eventRows (i : DetailIdentity) : List (EventRow X) :=
  store.orderBy (store.events.filter fun r => decide (r.Of i) && !r.record.isDelete)

/-- `EventRepository.detail`. -/
def eventDetail (i : DetailIdentity) : Option (EventRow X) := (store.eventRows i).head?

/-- The result rows of the query of `EventRepository.details`. -/
def resultRows (identities : List DetailIdentity) : List (EventRow X) :=
  store.orderBy (store.events.filter fun r =>
    !r.record.isDelete && identities.any fun i => decide (r.Of i))

/-- `EventRepository.details`: the first row of each event id. -/
def eventDetails (identities : List DetailIdentity) : List (EventRow X) :=
  let rows := (store.resultRows identities).foldl
    (fun rows r => rows.insert r.record.eventId r) Table.empty
  rows.rows.map Prod.snd

def readRows (objectKey : ObjectKey) (f : ReadFilters) : Except QueryError (List (EventRow X)) :=
  match store.objects objectKey with
  | none => .error archiveUnavailable
  | some rows => .ok (rows.filter fun r => readFilter f r.record)

def restoredPath (rows : List (BucketKey × StorageRow)) : Option ObjectKey :=
  rows.findSome? fun
    | (_, .s3 row) => if row.storageStatus = .restored then some row.storagePath else none
    | (_, .hot _) => none

/-- The rows of `UNREADY_STATUSES`. -/
def unreadyRows (rows : List (BucketKey × StorageRow)) : List ArchiveBucket :=
  rows.filterMap fun
    | (k, .s3 row) => if row.storageStatus.unready then some (k, row) else none
    | (_, .hot _) => none

/-- The rows of `ingest_metadata` that `detail` asks for. -/
def dayRows (k : BucketKey) : List (BucketKey × StorageRow) :=
  catalog.overlappingAll (dayStart k.bucketStartAt) (dayEnd k.bucketStartAt) (some [k.endpointId])

def detail (i : DetailIdentity) : Except QueryError (Option D) :=
  let metadataRows := dayRows catalog i.bucketKey
  let hot := !(hotKeys metadataRows).isEmpty
  if hot || metadataRows.isEmpty then .ok ((store.eventDetail i).map store.dto)
  else
    match restoredPath metadataRows with
    | some storagePath =>
      (store.readRows storagePath {
        from_ := some (dayStart i.bucketKey.bucketStartAt)
        to_ := some (dayEnd i.bucketKey.bucketStartAt)
        endpointId := some i.endpointId
        eventId := some i.eventId }).map fun rows =>
          (rows.find? fun r => decide (r.record.eventId = i.eventId) &&
            decide (r.record.endpointId = i.endpointId)).map store.dto
    | none =>
      let unready := unreadyRows metadataRows
      if unready.isEmpty then .ok none else .error (archiveNotReady unready)

/-- `rows_by_key`: the rows of one bucket. -/
def rowsByKey (metadataRows : List (BucketKey × StorageRow)) (k : BucketKey) :
    List (BucketKey × StorageRow) :=
  metadataRows.filter fun x => decide (x.1 = k)

/-- The identities of `details_bulk`, sorted by where their events are. -/
structure Groups where
  hotIdentities : List DetailIdentity := []
  restoredGroups : Table (BucketKey × ObjectKey) (List UUID) := .empty
  unavailable : Finset UUID := ∅

def sortIdentity (metadataRows : List (BucketKey × StorageRow)) (g : Groups) (i : DetailIdentity) :
    Groups :=
  let storage := rowsByKey metadataRows i.bucketKey
  let hot := !(hotKeys storage).isEmpty
  if hot || storage.isEmpty then { g with hotIdentities := g.hotIdentities ++ [i] }
  else
    match restoredPath storage with
    | none => { g with unavailable := insert i.eventId g.unavailable }
    | some storagePath => { g with
        restoredGroups := g.restoredGroups.upsert (i.bucketKey, storagePath) fun eventIds =>
          eventIds.getD [] ++ [i.eventId] }

/-- The entries that a list of rows adds to `found`. -/
def entries (rows : List (EventRow X)) : List (UUID × D) :=
  rows.map fun r => (r.record.eventId, store.dto r)

/-- The loop over `restored_groups`. -/
def readGroups : List ((BucketKey × ObjectKey) × List UUID) → Table UUID D →
    Except QueryError (Table UUID D)
  | [], found => .ok found
  | ((k, storagePath), eventIds) :: groups, found =>
    (store.readRows storagePath {
      from_ := some (dayStart k.bucketStartAt)
      to_ := some (dayEnd k.bucketStartAt)
      endpointId := some k.endpointId
      eventIds := some eventIds }).bind fun rows =>
        readGroups groups (found.putAll
          (store.entries (rows.filter fun r => eventIds.contains r.record.eventId)))

/-- The rows of `ingest_metadata` that `details_bulk` asks for. -/
def rangeRows (i : DetailIdentity) (identities : List DetailIdentity) :
    List (BucketKey × StorageRow) :=
  let days := identities.map (·.bucketKey.bucketStartAt)
  catalog.overlappingAll (dayStart (days.foldl min i.bucketKey.bucketStartAt))
    (dayEnd (days.foldl max i.bucketKey.bucketStartAt))
    (some ((i :: identities).map (·.endpointId)))

def detailsBulk : List DetailIdentity → Except QueryError (Table UUID D × Finset UUID)
  | [] => .ok (.empty, ∅)
  | i :: identities =>
    let groups := (i :: identities).foldl (sortIdentity (rangeRows catalog i identities)) {}
    let found := empty.putAll (store.entries (store.eventDetails groups.hotIdentities))
    (store.readGroups groups.restoredGroups.rows found).map fun found => (found, groups.unavailable)

/-- No choice between rows matters: the rows of one event in an object have one DTO, and so have
    its rows of one `updated_at` in ClickHouse. -/
structure Unambiguous : Prop where
  objects : ∀ storagePath rows, store.objects storagePath = some rows →
    ∀ i, ∀ r ∈ rows, ∀ r' ∈ rows, r.Of i → r'.Of i → store.dto r = store.dto r'
  events : ∀ i, ∀ r ∈ store.events, ∀ r' ∈ store.events, r.Of i → r'.Of i →
    r.record.isDelete = false → r'.record.isDelete = false → r.updatedAt = r'.updatedAt →
      store.dto r = store.dto r'

end DetailStore

def OneIdentity (identities : List DetailIdentity) : Prop :=
  ∀ i ∈ identities, ∀ j ∈ identities, i.eventId = j.eventId → i = j

instance (identities : List DetailIdentity) : Decidable (OneIdentity identities) :=
  inferInstanceAs (Decidable (∀ i ∈ identities, ∀ j ∈ identities, i.eventId = j.eventId → i = j))

/-- What `details_bulk` says of an event is what `detail` says. -/
structure Agrees {D : Type*} (detail : Except QueryError (Option D))
    (bulk : Table UUID D × Finset UUID) (eventId : UUID) : Prop where
  found : ∀ dto, bulk.1.get? eventId = some dto ↔ detail = .ok (some dto)
  unavailable : eventId ∈ bulk.2 ↔ ∃ rows, detail = .error (archiveNotReady rows)
  neither : bulk.1.get? eventId = none ∧ eventId ∉ bulk.2 ↔ detail = .ok none

theorem Agrees.of_ok {D : Type*} {bulk : Table UUID D × Finset UUID} {o : Option D} {eventId : UUID}
    (hfound : bulk.1.get? eventId = o) (hready : eventId ∉ bulk.2) :
    Agrees (.ok o) bulk eventId := by
  refine ⟨fun dto => ?_, ?_, ?_⟩ <;> simp [hfound, hready]

theorem Agrees.of_unready {D : Type*} {bulk : Table UUID D × Finset UUID} {eventId : UUID}
    (hfound : bulk.1.get? eventId = none) (hunready : eventId ∈ bulk.2)
    (rows : List ArchiveBucket) :
    Agrees (.error (archiveNotReady rows)) bulk eventId := by
  refine ⟨fun dto => ?_, ?_, ?_⟩
  · simp [hfound]
  · exact ⟨fun _ => ⟨rows, rfl⟩, fun _ => hunready⟩
  · simp [hunready]

/-! ## The rows of a bucket -/

namespace DetailStore

section

variable {c : Catalog} {k : BucketKey} {x : BucketKey × StorageRow}

def RowOf (c : Catalog) (k : BucketKey) (x : BucketKey × StorageRow) : Prop :=
  x.1 = k ∧ c.HasRow k x.2 ∧ x.2.isDelete = false

theorem bucketEndAt_of_hasRow (hc : c.Inv) {row : StorageRow} (h : c.HasRow k row) :
    row.bucketEndAt = dayEnd k.bucketStartAt := by
  cases row with
  | hot row => exact (hc.hot_wellFormed h).bucketEndAt
  | s3 row => exact (hc.archive_wellFormed h).bucketEndAt

theorem mem_dayRows (hc : c.Inv) : x ∈ dayRows c k ↔ RowOf c k x := by
  obtain ⟨k', row⟩ := x
  rw [dayRows, mem_overlappingAll, RowOf]
  constructor
  · rintro ⟨hrow, ⟨hstart, hend, hids⟩, hlive⟩
    rw [bucketEndAt_of_hasRow hc hrow] at hend
    have hday : k'.bucketStartAt = k.bucketStartAt := by
      unfold dayEnd dayStart dayLength at hstart hend
      grind
    obtain rfl : k' = k := by
      cases k
      cases k'
      simp_all
    exact ⟨rfl, hrow, hlive⟩
  · rintro ⟨rfl, hrow, hlive⟩
    refine ⟨hrow, ⟨dayStart_lt_dayEnd _, ?_, by simp⟩, hlive⟩
    rw [bucketEndAt_of_hasRow hc hrow]
    exact dayStart_lt_dayEnd _

theorem mem_rowsByKey (hc : c.Inv) {first last : Day} {endpointIds : List Nat}
    (hfirst : first ≤ k.bucketStartAt) (hlast : k.bucketStartAt ≤ last)
    (hids : k.endpointId ∈ endpointIds) :
    x ∈ rowsByKey (c.overlappingAll (dayStart first) (dayEnd last) (some endpointIds)) k ↔
      RowOf c k x := by
  obtain ⟨k', row⟩ := x
  rw [rowsByKey, mem_filter, mem_overlappingAll, RowOf, decide_eq_true_eq]
  constructor
  · rintro ⟨⟨hrow, -, hlive⟩, rfl⟩
    exact ⟨rfl, hrow, hlive⟩
  · rintro ⟨rfl, hrow, hlive⟩
    refine ⟨⟨hrow, ⟨?_, ?_, by simpa using hids⟩, hlive⟩, rfl⟩
    · unfold dayEnd dayStart dayLength
      grind
    · rw [bucketEndAt_of_hasRow hc hrow]
      unfold dayEnd dayStart dayLength
      grind

/-! ## Where an event is -/

inductive Place
  | clickhouse
  | restored (storagePath : ObjectKey)
  | unready

def place (rows : List (BucketKey × StorageRow)) : Place :=
  if !(hotKeys rows).isEmpty || rows.isEmpty then .clickhouse
  else
    match restoredPath rows with
    | some storagePath => .restored storagePath
    | none => .unready

/-- The place of the event of an identity, by the rows that `detail` asks for. -/
def placeAt (c : Catalog) (i : DetailIdentity) : Place := place (dayRows c i.bucketKey)

variable {rows rows' : List (BucketKey × StorageRow)}

theorem mem_of_restoredPath {storagePath : ObjectKey} (h : restoredPath rows = some storagePath) :
    ∃ k row, (k, .s3 row) ∈ rows ∧ row.storageStatus = .restored ∧ row.storagePath = storagePath := by
  obtain ⟨⟨k, row | row⟩, hx, hf⟩ := exists_of_findSome?_eq_some h
  · cases hf
  · dsimp only at hf
    split_ifs at hf with hstatus
    exact ⟨k, row, hx, hstatus, Option.some.inj hf⟩

theorem restoredPath_eq_some (h : ∀ x, x ∈ rows ↔ RowOf c k x) {storagePath : ObjectKey} :
    restoredPath rows = some storagePath ↔ ∃ row, RowOf c k (k, .s3 row) ∧
      row.storageStatus = .restored ∧ row.storagePath = storagePath := by
  constructor
  · intro hpath
    obtain ⟨k', row, hx, hrestored⟩ := mem_of_restoredPath hpath
    obtain ⟨rfl, hrow⟩ := (h _).1 hx
    exact ⟨row, ⟨rfl, hrow⟩, hrestored⟩
  · rintro ⟨row, hrow, hstatus, rfl⟩
    -- The table has one S3 row of the bucket, so that whatever is found is this one.
    have hsome : (restoredPath rows).isSome = true := by
      rw [restoredPath, findSome?_isSome_iff]
      exact ⟨_, (h _).2 hrow, by simp [hstatus]⟩
    obtain ⟨storagePath, hpath⟩ := Option.isSome_iff_exists.1 hsome
    obtain ⟨k', row', hx, -, rfl⟩ := mem_of_restoredPath hpath
    obtain ⟨rfl, hrow', -⟩ := (h _).1 hx
    rw [hpath, Option.some.inj (hrow'.symm.trans hrow.2.1)]

theorem place_congr (h : ∀ x, x ∈ rows ↔ RowOf c k x) (h' : ∀ x, x ∈ rows' ↔ RowOf c k x) :
    place rows = place rows' := by
  have hmem : ∀ x, x ∈ rows ↔ x ∈ rows' := fun x => (h x).trans (h' x).symm
  have hhot : (hotKeys rows).isEmpty = (hotKeys rows').isEmpty := by
    rw [Bool.eq_iff_iff]
    simp only [List.isEmpty_iff, List.eq_nil_iff_forall_not_mem, mem_hotKeys, hmem]
  have hempty : rows.isEmpty = rows'.isEmpty := by
    rw [Bool.eq_iff_iff]
    simp only [List.isEmpty_iff, List.eq_nil_iff_forall_not_mem, hmem]
  have hpath : restoredPath rows = restoredPath rows' :=
    Option.ext fun p => (restoredPath_eq_some h).trans (restoredPath_eq_some h').symm
  rw [place, place, hhot, hempty, hpath]

theorem unreadyRows_ne_nil (h : place rows = .unready) : unreadyRows rows ≠ [] := by
  rw [place] at h
  split_ifs at h with hhot
  split at h
  · cases h
  · next hpath =>
    rw [Bool.or_eq_true, not_or, Bool.not_eq_true', Bool.not_eq_false, List.isEmpty_iff,
      List.isEmpty_iff] at hhot
    obtain ⟨hhot, hrows⟩ := hhot
    obtain ⟨⟨k, row | row⟩, hx⟩ := exists_mem_of_ne_nil rows hrows
    · exact absurd (mem_hotKeys.2 ⟨row, hx⟩) (by simp [hhot])
    · have hstatus : row.storageStatus ≠ .restored := by
        intro hstatus
        have := findSome?_eq_none_iff.1 hpath _ hx
        simp [hstatus] at this
      have hunready : row.storageStatus.unready = true := by
        revert hstatus
        cases row.storageStatus <;> simp [ArchiveStatus.unready]
      refine ne_nil_of_mem (mem_filterMap.2 ⟨_, hx, ?_⟩) (a := (k, row))
      simp [hunready]

/-! ## The loop over the identities -/

/-- What the loop over the identities leaves, when it has passed those of `done`. -/
structure Sorted (placeOf : DetailIdentity → Place) (done : List DetailIdentity) (g : Groups) :
    Prop where
  hot : ∀ i, i ∈ g.hotIdentities ↔ i ∈ done ∧ placeOf i = .clickhouse
  restored : ∀ k storagePath eventId,
    (∃ eventIds, g.restoredGroups.get? (k, storagePath) = some eventIds ∧ eventId ∈ eventIds) ↔
      ∃ i ∈ done, i.eventId = eventId ∧ i.bucketKey = k ∧ placeOf i = .restored storagePath
  nonempty : ∀ x eventIds, g.restoredGroups.get? x = some eventIds → eventIds ≠ []
  unavailable : ∀ eventId, eventId ∈ g.unavailable ↔
    ∃ i ∈ done, i.eventId = eventId ∧ placeOf i = .unready

variable {metadataRows : List (BucketKey × StorageRow)} {done : List DetailIdentity} {g : Groups}

def placeIn (metadataRows : List (BucketKey × StorageRow)) (i : DetailIdentity) : Place :=
  place (rowsByKey metadataRows i.bucketKey)

theorem sortIdentity_eq (g : Groups) (i : DetailIdentity) : sortIdentity metadataRows g i =
    match placeIn metadataRows i with
    | .clickhouse => { g with hotIdentities := g.hotIdentities ++ [i] }
    | .unready => { g with unavailable := insert i.eventId g.unavailable }
    | .restored storagePath => { g with
        restoredGroups := g.restoredGroups.upsert (i.bucketKey, storagePath) fun eventIds =>
          eventIds.getD [] ++ [i.eventId] } := by
  unfold sortIdentity placeIn place
  dsimp only
  split_ifs with hhot
  · rfl
  · cases restoredPath (rowsByKey metadataRows i.bucketKey) <;> rfl

theorem mem_upsert_iff (t : Table (BucketKey × ObjectKey) (List UUID)) (x y : BucketKey × ObjectKey)
    (id eventId : UUID) :
    (∃ ids, (t.upsert x fun ids => ids.getD [] ++ [id]).get? y = some ids ∧ eventId ∈ ids) ↔
      (∃ ids, t.get? y = some ids ∧ eventId ∈ ids) ∨ y = x ∧ eventId = id := by
  rw [get?_upsert]
  by_cases hy : y = x
  · subst hy
    cases t.get? y <;> simp
  · simp [hy]

theorem Sorted.step (h : Sorted (placeIn metadataRows) done g) (i : DetailIdentity) :
    Sorted (placeIn metadataRows) (done ++ [i]) (sortIdentity metadataRows g i) := by
  rw [sortIdentity_eq]
  cases hplace : placeIn metadataRows i with
  | clickhouse | unready =>
    refine ⟨fun j => ?_, fun k p e => ?_, h.nonempty, fun e => ?_⟩
    all_goals
      simp only [mem_append, mem_singleton, Finset.mem_insert, h.hot, h.restored, h.unavailable]
      grind
  | restored storagePath =>
    refine ⟨fun j => ?_, fun k p e => ?_, fun x ids hx => ?_, fun e => ?_⟩
    case refine_3 =>
      rw [get?_upsert] at hx
      split_ifs at hx with heq
      · cases hx
        simp
      · exact h.nonempty x ids hx
    all_goals
      simp only [mem_append, mem_singleton, mem_upsert_iff, Prod.mk.injEq, h.hot, h.restored,
        h.unavailable]
      grind

theorem Sorted.congr {placeOf placeOf' : DetailIdentity → Place} (h : Sorted placeOf done g)
    (hplace : ∀ i ∈ done, placeOf i = placeOf' i) : Sorted placeOf' done g := by
  refine ⟨fun i => ?_, fun k p e => ?_, h.nonempty, fun e => ?_⟩
  all_goals
    simp only [h.hot, h.restored, h.unavailable]
    grind

theorem Sorted.empty (placeOf : DetailIdentity → Place) : Sorted placeOf [] {} := by
  refine ⟨?_, ?_, ?_, ?_⟩ <;> simp

theorem Sorted.foldl (h : Sorted (placeIn metadataRows) done g) (identities : List DetailIdentity) :
    Sorted (placeIn metadataRows) (done ++ identities)
      (identities.foldl (sortIdentity metadataRows) g) := by
  induction identities generalizing done g with
  | nil => rwa [append_nil]
  | cons i identities ih =>
    rw [foldl_cons, append_cons]
    exact ih (h.step i)

/-! ## The rows that are found -/

variable {X D : Type*} {store : DetailStore X D} {i : DetailIdentity}
  {identities : List DetailIdentity} {r : EventRow X} {eventId : UUID}

theorem get?_foldl_insert (rows : List (EventRow X)) (t : Table UUID (EventRow X)) :
    (rows.foldl (fun t r => t.insert r.record.eventId r) t).get? eventId =
      (t.get? eventId).or (rows.find? fun r => decide (r.record.eventId = eventId)) := by
  induction rows generalizing t with
  | nil => rw [foldl_nil, find?_nil, Option.or_none]
  | cons r rows ih =>
    rw [foldl_cons, ih, get?_insert, find?_cons]
    by_cases hr : eventId = r.record.eventId
    · subst hr
      cases t.get? r.record.eventId <;> simp
    · simp [hr, Ne.symm hr]

theorem mem_resultRows : r ∈ store.resultRows identities ↔
    r ∈ store.events ∧ r.record.isDelete = false ∧ ∃ i ∈ identities, r.Of i := by
  rw [resultRows, (store.orderBy_perm _).mem_iff]
  simp

/-- The first result row of an event id. -/
def firstRow (store : DetailStore X D) (identities : List DetailIdentity) (eventId : UUID) :
    Option (EventRow X) :=
  (store.resultRows identities).find? fun r => decide (r.record.eventId = eventId)

theorem mem_eventDetails :
    r ∈ store.eventDetails identities ↔ store.firstRow identities r.record.eventId = some r := by
  have hget (eventId : UUID) (r : EventRow X) : (eventId, r) ∈ (((store.resultRows identities).foldl
      (fun rows r => rows.insert r.record.eventId r) Table.empty)).rows ↔
        store.firstRow identities eventId = some r := by
    rw [Table.mem_rows, get?_foldl_insert, Table.get?_empty, Option.none_or, firstRow]
  constructor
  · intro h
    obtain ⟨⟨eventId, r'⟩, hr, rfl⟩ := mem_map.1 h
    have hfind := (hget _ _).1 hr
    have hid : r'.record.eventId = eventId := by simpa using find?_some hfind
    rw [hid]
    exact hfind
  · intro h
    exact mem_map.2 ⟨(r.record.eventId, r), (hget _ _).2 h, rfl⟩

theorem eventDetails_nil : store.eventDetails [] = [] := by
  refine eq_nil_iff_forall_not_mem.2 fun r hr => ?_
  obtain ⟨-, -, i, hi, -⟩ := mem_resultRows.1 (mem_of_find?_eq_some (mem_eventDetails.1 hr))
  cases hi

theorem le_of_find?_eq_some {α : Type*} {f : α → Time} {p : α → Bool} {l : List α} {x y : α}
    (hl : l.Pairwise fun a b => f b ≤ f a) (hx : l.find? p = some x) (hy : y ∈ l)
    (hp : p y = true) : f y ≤ f x := by
  obtain ⟨-, before, after, rfl, hbefore⟩ := find?_eq_some_iff_append.1 hx
  rcases mem_append.1 hy with hy | hy
  · have := hbefore y hy
    simp [hp] at this
  · rcases mem_cons.1 hy with rfl | hy
    · exact le_rfl
    · exact rel_of_pairwise_cons (pairwise_append.1 hl).2.1 hy

theorem find_details (hs : store.Unambiguous) (hids : OneIdentity identities)
    (hi : i ∈ identities) :
    (store.firstRow identities i.eventId).map store.dto =
      (store.eventDetail i).map store.dto := by
  have hone {r : EventRow X} (hr : r ∈ store.resultRows identities)
      (hid : r.record.eventId = i.eventId) : r.Of i := by
    obtain ⟨-, -, j, hj, hof⟩ := mem_resultRows.1 hr
    rwa [← hids j hj i hi (hof.1.symm.trans hid)]
  have hmem {r : EventRow X} : r ∈ store.eventRows i ↔
      r ∈ store.resultRows identities ∧ r.record.eventId = i.eventId := by
    rw [eventRows, (store.orderBy_perm _).mem_iff, mem_resultRows, mem_filter, Bool.and_eq_true,
      decide_eq_true_eq, Bool.not_eq_true']
    constructor
    · rintro ⟨hr, hof, hlive⟩
      exact ⟨⟨hr, hlive, i, hi, hof⟩, hof.1⟩
    · rintro ⟨hr, hid⟩
      exact ⟨hr.1, hone (mem_resultRows.2 hr) hid, hr.2.1⟩
  have hsorted : (store.eventRows i).Pairwise LatestUpdate := store.orderBy_sorted _
  rw [eventDetail]
  generalize store.eventRows i = rows at hmem hsorted ⊢
  cases hfind : store.firstRow identities i.eventId with
  | none =>
    cases rows with
    | nil => rfl
    | cons r rows =>
      obtain ⟨hr, hid⟩ := hmem.1 mem_cons_self
      exact absurd hid (by simpa using find?_eq_none.1 hfind r hr)
  | some r =>
    have hr : r ∈ rows :=
      hmem.2 ⟨mem_of_find?_eq_some hfind, by simpa using find?_some hfind⟩
    cases rows with
    | nil => cases hr
    | cons r' rows =>
      -- Each of the two rows is a latest one of the event.
      obtain ⟨hr', hid'⟩ := hmem.1 (mem_cons_self)
      obtain ⟨hr₁, hid⟩ := hmem.1 hr
      have hle : r'.updatedAt ≤ r.updatedAt :=
        le_of_find?_eq_some (store.orderBy_sorted _) hfind hr' (by simpa using hid')
      have hge : r.updatedAt ≤ r'.updatedAt := by
        rcases mem_cons.1 hr with rfl | hr
        · exact le_rfl
        · exact rel_of_pairwise_cons hsorted hr
      have h₁ := mem_resultRows.1 hr₁
      have h₂ := mem_resultRows.1 hr'
      rw [Option.map_some, head?_cons, Option.map_some,
        hs.events i r h₁.1 r' h₂.1 (hone hr₁ hid) (hone hr' hid') h₁.2.1 h₂.2.1
          (le_antisymm hge hle)]

/-- The entries that a group adds to `found`. -/
def groupEntries (store : DetailStore X D) (g : (BucketKey × ObjectKey) × List UUID) :
    List (UUID × D) :=
  store.entries (((store.objects g.1.2).getD []).filter fun r =>
    decide (r.record.bucketKey = g.1.1) && g.2.contains r.record.eventId)

theorem mem_entries {rows : List (EventRow X)} {dto : D} : (eventId, dto) ∈ store.entries rows ↔
    ∃ r ∈ rows, r.record.eventId = eventId ∧ store.dto r = dto := by
  simp [entries]

theorem mem_groupEntries {k : BucketKey} {storagePath : ObjectKey} {eventIds : List UUID} {dto : D} :
    (eventId, dto) ∈ store.groupEntries ((k, storagePath), eventIds) ↔ eventId ∈ eventIds ∧
      ∃ r ∈ (store.objects storagePath).getD [],
        r.record.eventId = eventId ∧ r.record.bucketKey = k ∧ store.dto r = dto := by
  simp only [groupEntries, mem_entries, mem_filter, Bool.and_eq_true, decide_eq_true_eq,
    contains_iff_mem]
  constructor
  · rintro ⟨r, ⟨hr, hk, hid⟩, rfl, hdto⟩
    exact ⟨hid, r, hr, rfl, hk, hdto⟩
  · rintro ⟨hid, r, hr, rfl, hk, hdto⟩
    exact ⟨r, ⟨hr, hk, hid⟩, rfl, hdto⟩

theorem bucketKey_eq_iff {r : EventRecord} {k : BucketKey} : r.bucketKey = k ↔
    dayStart k.bucketStartAt ≤ r.occurredAt ∧ r.occurredAt < dayEnd k.bucketStartAt ∧
      r.endpointId = k.endpointId := by
  obtain ⟨endpointId, day⟩ := k
  rw [EventRecord.bucketKey, BucketKey.mk.injEq, EventRecord.day, dateOf_eq_iff]
  tauto

/-- The loop over the groups fails at an object that cannot be read, and else puts the entries of
    all the groups. -/
theorem readGroups_spec (groups : List ((BucketKey × ObjectKey) × List UUID)) (found : Table UUID D) :
    (∃ g ∈ groups, store.objects g.1.2 = none ∧
        store.readGroups groups found = .error archiveUnavailable) ∨
      (∀ g ∈ groups, store.objects g.1.2 ≠ none) ∧
        store.readGroups groups found = .ok (found.putAll (groups.flatMap store.groupEntries)) := by
  induction groups generalizing found with
  | nil => exact .inr ⟨by simp, rfl⟩
  | cons g groups ih =>
    obtain ⟨⟨k, storagePath⟩, eventIds⟩ := g
    cases hobject : store.objects storagePath with
    | none =>
      refine .inl ⟨_, mem_cons_self, hobject, ?_⟩
      rw [readGroups, readRows, hobject]
      rfl
    | some rows =>
      have hentries : store.entries ((rows.filter fun r => readFilter
          { from_ := some (dayStart k.bucketStartAt), to_ := some (dayEnd k.bucketStartAt),
            endpointId := some k.endpointId, eventIds := some eventIds } r.record).filter
              fun r => eventIds.contains r.record.eventId) =
            store.groupEntries ((k, storagePath), eventIds) := by
        rw [groupEntries, hobject, Option.getD_some, filter_filter]
        congr 1
        refine filter_congr fun r _ => ?_
        rw [Bool.eq_iff_iff]
        simp only [readFilter, Option.all_some, Option.all_none, Bool.and_true, Bool.and_eq_true,
          decide_eq_true_eq, contains_iff_mem, Bool.or_eq_true, bucketKey_eq_iff]
        tauto
      have hread : store.readGroups (((k, storagePath), eventIds) :: groups) found =
          store.readGroups groups
            (found.putAll (store.groupEntries ((k, storagePath), eventIds))) := by
        rw [readGroups, readRows, hobject, ← hentries]
        rfl
      rw [hread]
      rcases ih (found.putAll (store.groupEntries ((k, storagePath), eventIds))) with
        ⟨g, hg, hnone, herror⟩ | ⟨hsome, hok⟩
      · exact .inl ⟨g, mem_cons_of_mem _ hg, hnone, herror⟩
      · refine .inr ⟨?_, ?_⟩
        · rintro g (_ | ⟨_, hg⟩)
          · simp [hobject]
          · exact hsome g hg
        · rw [hok, flatMap_cons, putAll, putAll, putAll, foldl_append]

/-! ## The two methods agree -/

variable {placeOf : DetailIdentity → Place} {dto : D}

theorem detail_eq (store : DetailStore X D) (c : Catalog) (i : DetailIdentity) : store.detail c i =
    match placeAt c i with
    | .clickhouse => .ok ((store.eventDetail i).map store.dto)
    | .restored storagePath =>
      match store.objects storagePath with
      | none => .error archiveUnavailable
      | some rows => .ok ((rows.find? fun r => decide (r.Of i)).map store.dto)
    | .unready => .error (archiveNotReady (unreadyRows (dayRows c i.bucketKey))) := by
  have hunready : placeAt c i = .unready → unreadyRows (dayRows c i.bucketKey) ≠ [] :=
    unreadyRows_ne_nil
  revert hunready
  unfold detail placeAt place
  dsimp only
  by_cases hhot :
    (!(hotKeys (dayRows c i.bucketKey)).isEmpty || (dayRows c i.bucketKey).isEmpty) = true
  · intro
    rw [if_pos hhot, if_pos hhot]
  · rw [if_neg hhot, if_neg hhot]
    cases restoredPath (dayRows c i.bucketKey) with
    | none =>
      intro hunready
      dsimp only
      rw [if_neg (mt List.isEmpty_iff.1 (hunready rfl))]
    | some storagePath =>
      intro
      dsimp only [readRows]
      cases store.objects storagePath with
      | none => rfl
      | some rows =>
        simp only [Except.map, find?_filter]
        congr 3
        funext r
        rw [Bool.eq_iff_iff]
        simp only [readFilter, Option.all_some, Option.all_none, Bool.and_true, Bool.and_eq_true,
          decide_eq_true_eq, EventRow.Of, bucketKey_eq_iff, DetailIdentity.bucketKey]
        tauto

/-- The entries of `found`, in their order. -/
def foundEntries (store : DetailStore X D) (g : Groups) : List (UUID × D) :=
  store.entries (store.eventDetails g.hotIdentities) ++
    g.restoredGroups.rows.flatMap store.groupEntries

theorem mem_foundEntries (h : Sorted placeOf identities g) :
    (eventId, dto) ∈ store.foundEntries g ↔
      (store.firstRow g.hotIdentities eventId).map store.dto = some dto ∨
        ∃ i ∈ identities, i.eventId = eventId ∧ ∃ storagePath, placeOf i = .restored storagePath ∧
          ∃ r ∈ (store.objects storagePath).getD [], r.Of i ∧ store.dto r = dto := by
  rw [foundEntries, mem_append, mem_entries, mem_flatMap]
  refine or_congr ?_ ?_
  · simp only [mem_eventDetails, Option.map_eq_some_iff]
    constructor
    · rintro ⟨r, hr, rfl, hdto⟩
      exact ⟨r, hr, hdto⟩
    · rintro ⟨r, hr, hdto⟩
      have hid : r.record.eventId = eventId := by simpa using find?_some hr
      exact ⟨r, hid ▸ hr, hid, hdto⟩
  · constructor
    · rintro ⟨⟨⟨k, storagePath⟩, eventIds⟩, hg, hentry⟩
      obtain ⟨hid, r, hr, hrid, hk, hdto⟩ := mem_groupEntries.1 hentry
      obtain ⟨i, hi, rfl, rfl, hplace⟩ :=
        (h.restored k storagePath eventId).1 ⟨eventIds, mem_rows.1 hg, hid⟩
      exact ⟨i, hi, rfl, storagePath, hplace, r, hr, ⟨hrid, hk⟩, hdto⟩
    · rintro ⟨i, hi, rfl, storagePath, hplace, r, hr, ⟨hrid, hk⟩, hdto⟩
      obtain ⟨eventIds, hg, hid⟩ := (h.restored _ _ _).2 ⟨i, hi, rfl, rfl, hplace⟩
      exact ⟨_, mem_rows.2 hg, mem_groupEntries.2 ⟨hid, r, hr, hrid, hk, hdto⟩⟩

theorem firstRow_eq_none (h : ∀ i ∈ identities, i.eventId ≠ eventId) :
    store.firstRow identities eventId = none := by
  refine find?_eq_none.2 fun r hr => ?_
  obtain ⟨-, -, i, hi, hof⟩ := mem_resultRows.1 hr
  rw [decide_eq_true_eq, hof.1]
  exact h i hi

theorem get?_found (hs : store.Unambiguous) (hids : OneIdentity identities)
    (h : Sorted placeOf identities g) (hi : i ∈ identities) :
    (empty.putAll (store.foundEntries g)).get? i.eventId =
      match placeOf i with
      | .clickhouse => (store.eventDetail i).map store.dto
      | .restored storagePath => (((store.objects storagePath).getD []).find? fun r =>
          decide (r.Of i)).map store.dto
      | .unready => none := by
  -- The other identities of the event id are this one.
  have hone {P : DetailIdentity → Prop} :
      (∃ j ∈ identities, j.eventId = i.eventId ∧ P j) ↔ P i := by
    constructor
    · rintro ⟨j, hj, hid, hP⟩
      rwa [← hids j hj i hi hid]
    · exact fun hP => ⟨i, hi, rfl, hP⟩
  have hcold (hplace : placeOf i ≠ .clickhouse) :
      store.firstRow g.hotIdentities i.eventId = none := by
    refine firstRow_eq_none fun j hj hid => hplace ?_
    obtain ⟨hj, hhot⟩ := (h.hot j).1 hj
    rwa [← hids j hj i hi hid]
  refine get?_putAll_empty fun dto => ?_
  rw [mem_foundEntries h, hone]
  cases hplace : placeOf i with
  | clickhouse =>
    have hhot : OneIdentity g.hotIdentities := fun j hj j' hj' =>
      hids j ((h.hot j).1 hj).1 j' ((h.hot j').1 hj').1
    rw [find_details hs hhot ((h.hot i).2 ⟨hi, hplace⟩)]
    simp
  | unready =>
    rw [hcold (by simp [hplace])]
    simp
  | restored storagePath =>
    rw [hcold (by simp [hplace]), Option.map_none, Option.map_eq_some_iff]
    simp only [reduceCtorEq, false_or, Place.restored.injEq, exists_eq_left']
    constructor
    · rintro ⟨r, hr, hof, rfl⟩
      -- Whichever row is the first one, its DTO is that of this row.
      have hsome : ((store.objects storagePath).getD []).find? (fun r => decide (r.Of i)) ≠ none :=
        fun hnone => find?_eq_none.1 hnone r hr (decide_eq_true hof)
      obtain ⟨r', hr'⟩ := Option.ne_none_iff_exists'.1 hsome
      refine ⟨r', hr', ?_⟩
      have hmem := mem_of_find?_eq_some hr'
      have hof' : r'.Of i := by simpa using find?_some hr'
      cases hobject : store.objects storagePath with
      | none => simp [hobject] at hr
      | some rows =>
        rw [hobject, Option.getD_some] at hr hmem
        exact hs.objects storagePath rows hobject i r' hmem r hr hof' hof
    · rintro ⟨r, hr, rfl⟩
      exact ⟨r, mem_of_find?_eq_some hr, by simpa using find?_some hr, rfl⟩

theorem foldl_min_le {α : Type*} [LinearOrder α] (a : α) (l : List α) :
    ∀ b ∈ a :: l, l.foldl min a ≤ b := by
  induction l generalizing a with
  | nil => simp
  | cons c l ih =>
    have hle := ih (min a c)
    simp only [mem_cons, forall_eq_or_imp, foldl_cons] at hle ⊢
    exact ⟨hle.1.trans (min_le_left _ _), hle.1.trans (min_le_right _ _), hle.2⟩

theorem placeIn_eq (hc : c.Inv) {i₀ : DetailIdentity} (hi : i ∈ i₀ :: identities) :
    placeIn (rangeRows c i₀ identities) i = placeAt c i := by
  have hday : i.bucketKey.bucketStartAt ∈
      i₀.bucketKey.bucketStartAt :: identities.map (·.bucketKey.bucketStartAt) :=
    mem_map_of_mem (f := fun i : DetailIdentity => i.bucketKey.bucketStartAt) hi
  refine place_congr (fun x => ?_) fun x => mem_dayRows hc
  exact mem_rowsByKey hc (foldl_min_le _ _ _ hday) (foldl_min_le (α := Dayᵒᵈ) _ _ _ hday)
    (mem_map_of_mem hi)

/-- `details_bulk` fails at an object of one of the identities that cannot be read, and else
    returns the entries of the identities as they are sorted. -/
theorem detailsBulk_cases (hc : c.Inv) (store : DetailStore X D)
    (identities : List DetailIdentity) :
    (∃ i ∈ identities, ∃ storagePath, placeAt c i = .restored storagePath ∧
      store.objects storagePath = none ∧
        store.detailsBulk c identities = .error archiveUnavailable) ∨
    ∃ g, Sorted (placeAt c) identities g ∧
      (∀ i ∈ identities, ∀ storagePath, placeAt c i = .restored storagePath →
        store.objects storagePath ≠ none) ∧
      store.detailsBulk c identities =
        .ok (empty.putAll (store.foundEntries g), g.unavailable) := by
  cases identities with
  | nil =>
    have hnil : store.foundEntries {} = [] := by
      rw [foundEntries, eventDetails_nil]
      rfl
    exact .inr ⟨{}, .empty _, by simp, by rw [hnil]; rfl⟩
  | cons i₀ rest =>
    rw [detailsBulk]
    have hsorted := ((Sorted.empty _).foldl (i₀ :: rest)).congr fun i hi =>
      placeIn_eq hc (nil_append (i₀ :: rest) ▸ hi)
    rw [nil_append] at hsorted
    revert hsorted
    generalize (i₀ :: rest).foldl _ _ = g
    intro hsorted
    rcases store.readGroups_spec g.restoredGroups.rows
      (empty.putAll (store.entries (store.eventDetails g.hotIdentities))) with
      ⟨⟨⟨k, storagePath⟩, eventIds⟩, hg, hnone, herror⟩ | ⟨hsome, hok⟩
    · -- A group has an identity.
      have hget := mem_rows.1 hg
      obtain ⟨eventId, hid⟩ := exists_mem_of_ne_nil _ (hsorted.nonempty _ _ hget)
      obtain ⟨i, hi, -, -, hplace⟩ := (hsorted.restored _ _ _).1 ⟨eventIds, hget, hid⟩
      exact .inl ⟨i, hi, storagePath, hplace, hnone, by rw [herror]; rfl⟩
    · refine .inr ⟨g, hsorted, fun i hi storagePath hplace => ?_, ?_⟩
      · obtain ⟨eventIds, hg, -⟩ := (hsorted.restored _ _ _).2 ⟨i, hi, rfl, rfl, hplace⟩
        exact hsome _ (mem_rows.2 hg)
      · rw [hok, foundEntries, putAll, putAll, putAll, foldl_append]
        rfl

/-- **The bulk query agrees with the single ones.** In every reachable state of `ingest_metadata`,
    if the rows that a query may choose from do not differ: an event is found with the DTO that
    `detail` returns, is unavailable when `detail` raises `ARCHIVE_NOT_READY`, and is neither when
    `detail` returns nothing. The bulk query fails only as one of the single ones does. -/
theorem detailsBulk_agrees (hc : catalogSystem.Reachable System.always c)
    (hs : store.Unambiguous) (hids : OneIdentity identities) :
    match store.detailsBulk c identities with
    | .ok bulk => (∀ i ∈ identities, Agrees (store.detail c i) bulk i.eventId) ∧
        ∀ eventId, (∀ i ∈ identities, i.eventId ≠ eventId) →
          bulk.1.get? eventId = none ∧ eventId ∉ bulk.2
    | .error error => ∃ i ∈ identities, store.detail c i = .error error := by
  rcases detailsBulk_cases (inv_of_reachable hc) store identities with
    ⟨i, hi, storagePath, hplace, hnone, herror⟩ | ⟨g, hsorted, hsome, hok⟩
  · rw [herror]
    refine ⟨i, hi, ?_⟩
    rw [detail_eq, hplace]
    dsimp only
    rw [hnone]
  · rw [hok]
    refine ⟨fun i hi => ?_, fun eventId hother => ⟨?_, ?_⟩⟩
    · have hfound := get?_found hs hids hsorted hi
      have hunavailable : i.eventId ∈ g.unavailable ↔ placeAt c i = .unready := by
        rw [hsorted.unavailable]
        constructor
        · rintro ⟨j, hj, hid, hunready⟩
          rwa [← hids j hj i hi hid]
        · exact fun hunready => ⟨i, hi, rfl, hunready⟩
      have hobjects := hsome i hi
      rw [detail_eq]
      revert hfound hunavailable hobjects
      cases placeAt c i with
      | clickhouse =>
        intro hfound hunavailable _
        exact .of_ok hfound (by simp [hunavailable])
      | unready =>
        intro hfound hunavailable _
        exact .of_unready hfound (hunavailable.2 rfl) _
      | restored storagePath =>
        intro hfound hunavailable hobjects
        obtain ⟨rows, hobject⟩ := Option.ne_none_iff_exists'.1 (hobjects _ rfl)
        dsimp only at hfound ⊢
        rw [hobject, Option.getD_some] at hfound
        rw [hobject]
        exact .of_ok hfound (by simp [hunavailable])
    · refine get?_putAll_empty fun dto => ?_
      rw [mem_foundEntries hsorted,
        firstRow_eq_none fun i hi => hother i ((hsorted.hot i).1 hi).1]
      constructor
      · rintro (h | ⟨i, hi, hid, -⟩)
        · exact h
        · exact absurd hid (hother i hi)
      · exact fun h => .inl h
    · intro hunready
      obtain ⟨i, hi, hid, -⟩ := (hsorted.unavailable _).1 hunready
      exact hother i hi hid

/-! ## Two rows of an event -/

def versions (eventId : UUID) (occurredAt : Time) (dtos : List Nat) : List (EventRow Nat) :=
  dtos.map fun dto => ⟨pageEvent eventId occurredAt, 0, dto⟩

instance : Std.Total (LatestUpdate (X := Nat)) where
  total r r' := le_total r'.updatedAt r.updatedAt

instance : IsTrans (EventRow Nat) LatestUpdate where
  trans _ _ _ h h' := le_trans h' h

/-- The samples: rows in ClickHouse, and rows in the object of the restored bucket. ClickHouse
    returns the rows of one `updated_at` as they are stored when there are two of them, and
    backwards when there are more. -/
def sampleStore (events object : List (EventRow Nat)) : DetailStore Nat Nat where
  events := events
  objects key := if key = ⟨20635, 7⟩ then some object else none
  orderBy rows := (if rows.length = 2 then rows else rows.reverse).insertionSort LatestUpdate
  orderBy_perm rows := by
    refine (List.perm_insertionSort _ _).trans ?_
    split_ifs
    · exact .refl _
    · exact List.reverse_perm rows
  orderBy_sorted rows := List.pairwise_insertionSort LatestUpdate _
  dto r := r.rest

def sampleIdentities : List DetailIdentity :=
  [⟨4, 7, dayStart 20640⟩, ⟨3, 7, dayStart 20635⟩, ⟨5, 7, dayStart 20635⟩]

def sortedStore : DetailStore Nat Nat :=
  sampleStore (versions 4 (dayStart 20640) [8]) (versions 3 (dayStart 20635) [9])

/-- An event is in ClickHouse, one is in the restored object, and one is nowhere. -/
theorem detailsBulk_agrees_restoredDay :
    ∃ bulk, sortedStore.detailsBulk restoredDayCatalog sampleIdentities = .ok bulk ∧
      bulk.1.rows = [(4, 8), (3, 9)] ∧
      ∀ i ∈ sampleIdentities, Agrees (sortedStore.detail restoredDayCatalog i) bulk i.eventId := by
  have hs : sortedStore.Unambiguous := by
    constructor
    · intro key rows hrows i r hr r' hr' _ _
      rw [show rows = versions 3 (dayStart 20635) [9] from by
        simp only [sortedStore, sampleStore] at hrows
        split_ifs at hrows
        exact (Option.some.inj hrows).symm] at hr hr'
      rw [mem_singleton.1 hr, mem_singleton.1 hr']
    · intro i r hr r' hr' _ _ _ _ _
      rw [mem_singleton.1 hr, mem_singleton.1 hr']
  have h := detailsBulk_agrees (System.reachable_of_run (l := restoredDay) rfl) hs
    (show OneIdentity sampleIdentities by decide +kernel)
  exact ⟨_, rfl, by decide +kernel, h.1⟩

def twoRestored : DetailStore Nat Nat := sampleStore [] (versions 3 (dayStart 20635) [1, 2])

def twoHot : DetailStore Nat Nat :=
  sampleStore (versions 4 (dayStart 20640) [1, 2] ++ versions 6 (dayStart 20640) [0]) []

/-- Of two rows of an event in the restored object, `detail` returns the first one and
    `details_bulk` the last one; and of two rows of one `updated_at` in ClickHouse, each may return
    another one. -/
theorem detailsBulk_lastRow :
    catalogSystem.run .empty restoredDay = some restoredDayCatalog ∧ OneIdentity sampleIdentities ∧
      twoRestored.detail restoredDayCatalog ⟨3, 7, dayStart 20635⟩ = .ok (some 1) ∧
      (∃ bulk, twoRestored.detailsBulk restoredDayCatalog sampleIdentities = .ok bulk ∧
        bulk.1.get? 3 = some 2) ∧
      twoHot.detail restoredDayCatalog ⟨4, 7, dayStart 20640⟩ = .ok (some 1) ∧
      ∃ bulk, twoHot.detailsBulk restoredDayCatalog (⟨6, 7, dayStart 20640⟩ :: sampleIdentities) =
        .ok bulk ∧ bulk.1.get? 4 = some 2 :=
  ⟨rfl, by decide +kernel, rfl, ⟨_, rfl, by decide +kernel⟩, rfl, _, rfl, by decide +kernel⟩

end

end DetailStore

end Edr
