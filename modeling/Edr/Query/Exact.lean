import Edr.Pipeline.Deletion
import Edr.Query.Dashboard
import Edr.Query.Pages

/-!
# Every stored event is counted once

The event list and the dashboard add what ClickHouse has in the range to what the restored objects
have. Where the day of a restored bucket is claimed for deletion and not yet dropped, its events are
in both, and are counted twice: `claim_partition_deletion` has committed, `drop_partition` has
failed, and meanwhile the archive of the bucket was restored.
-/

namespace Edr.Pipeline

open List Catalog
open EventService (objectRows)

variable {W L : Type*} {cfg : Config} {s t : State W L} {a : Label W L}

def Stored (s : State W L) (r : EventRecord) : Prop :=
  r ∈ s.events ∨ ∃ k row o, s.catalog.archive.get? k = some row ∧
    s.objects row.storagePath = some o ∧ r ∈ o.rows

/-! ## The condition -/

def restoreAfterDrop (s : State W L) : Label W L → Bool
  | .restore (.markRestored k _ _) => s.events.all fun r => decide (r.bucketKey ≠ k)
  | _ => true

def freshInsert (s : State W L) : Label W L → Bool
  | .insert w =>
    match s.worker w with
    | .guarded r _ => s.stored.all fun r' => decide (r'.eventId ≠ r.eventId)
    | _ => true
  | _ => true

def RestoreAfterDrop (s : State W L) (a : Label W L) : Prop := restoreAfterDrop s a = true

def FreshInsert (s : State W L) (a : Label W L) : Prop := freshInsert s a = true

def QueryPolicy [DecidableEq L] [Fintype L] (s : State W L) (a : Label W L) : Prop :=
  RestoreAfterDrop s a ∧ FreshInsert s a ∧ UploadClear s a

instance [DecidableEq L] [Fintype L] (s : State W L) (a : Label W L) : Decidable (QueryPolicy s a) :=
  inferInstanceAs (Decidable (restoreAfterDrop s a = true ∧ freshInsert s a = true ∧
    uploadClear s a = true))

/-- No event id was stored twice, and a restored bucket has no row in ClickHouse. -/
structure QueryInv (s : State W L) : Prop where
  ids : (s.stored.map (·.eventId)).Nodup
  restored : ∀ k, s.catalog.statusOf k = some .restored → ∀ r ∈ s.events, r.bucketKey ≠ k

section

variable [Fintype W] [DecidableEq W] [Fintype L] [DecidableEq L]

omit [Fintype W] [Fintype L] in
theorem QueryInv.step (h : QueryInv s) (hg : GuardInv s) (hstep : Step cfg s a t)
    (hr : RestoreAfterDrop s a) (hf : FreshInsert s a) : QueryInv t where
  ids := by
    cases hstep with
    | @insert w r g hw =>
      simp only [FreshInsert, freshInsert, hw, all_eq_true, decide_eq_true_eq] at hf
      rw [map_append, map_singleton, nodup_append]
      refine ⟨h.ids, nodup_singleton _, fun id hid id' hid' => ?_⟩
      obtain ⟨r', hr', rfl⟩ := mem_map.1 hid
      rw [mem_singleton.1 hid']
      exact hf r' hr'
    | _ => exact h.ids
  restored k hk r hmem := by
    -- The bucket was restored before the step, or it is by the step.
    have hold : s.catalog.statusOf k = some .restored ∨
        ∃ t e, a = .restore (.markRestored k t e) := by
      rcases hstep.catalog_cases hg.worker with he | ⟨op, he, hop⟩
      · exact .inl (he ▸ hk)
      · rw [he] at hk
        rcases hg.inv.restored_perform hk with hk | ⟨t, e, rfl⟩
        · exact .inl hk
        · exact .inr ⟨t, e, hop rfl⟩
    rcases hold with hk₀ | ⟨t', e, rfl⟩
    · cases hstep with
      | @insert w r' g hw =>
        rcases mem_append.1 hmem with hmem | hmem
        · exact h.restored k hk₀ r hmem
        · -- The day of a restored bucket is frozen, and nothing is inserted.
          rw [mem_singleton.1 hmem]
          rintro rfl
          have hfrozen := hg.inv.frozen_of_status hk₀ (by simp)
          have hopen := hg.not_frozen (.inl hw)
          exact Bool.false_ne_true (hopen.symm.trans hfrozen)
      | drop => exact h.restored k hk₀ r (mem_dropPartition.1 hmem).1
      | _ => exact h.restored k hk₀ r hmem
    · simp only [RestoreAfterDrop, restoreAfterDrop, all_eq_true, decide_eq_true_eq] at hr
      cases hstep with
      | restore => exact hr r hmem

omit [Fintype W] [DecidableEq W] [Fintype L] [DecidableEq L] in
theorem QueryInv.initial : QueryInv (initial : State W L) :=
  ⟨nodup_nil, nofun⟩

omit [Fintype L] in
theorem queryInv_of_reachable {P : State W L → Label W L → Prop}
    (hP : ∀ s a, P s a → RestoreAfterDrop s a ∧ FreshInsert s a)
    (h : (pipeline cfg).Reachable P s) : QueryInv s :=
  h.invariant .initial fun _ _ _ hr hs ha hn =>
    hs.step (guardInv_of_reachable hr) (next_cases hn) (hP _ _ ha).1 (hP _ _ ha).2

/-! ## The restored objects -/

/-- What the results below use of a state: the invariants of the system, and the condition. -/
structure Consistent (fmt : ArchiveFormat) (s : State W L) : Prop where
  catalog : s.catalog.Inv
  path : PathInv s
  registry : RegistryInv s
  store : StoreInv s
  query : QueryInv s
  archives : ArchivesMatch fmt s
  not_isDelete : ∀ r ∈ s.stored, r.isDelete = false

theorem consistent_of_reachable (h : (pipeline cfg).Reachable QueryPolicy s) :
    Consistent cfg.format s := by
  have hrec : RecordInv cfg.codec Set.univ s :=
    recordInv_of_reachable (fun s a _ => receives_univ s a) h
  exact {
    catalog := (guardInv_of_reachable h).inv
    path := pathInv_of_reachable h
    registry := registryInv_of_reachable h
    store := storeInv_of_reachable h
    query := queryInv_of_reachable (fun _ _ ha => ⟨ha.1, ha.2.1⟩) h
    archives := archivesMatch_of_objectInv (pathInv_of_reachable h)
      (objectInv_of_reachable (fun _ _ ha => ha.2.2) h)
    not_isDelete := fun r hr => (hrec.stored r hr).not_isDelete }

end

abbrev metadataRows (s : State W L) (from_ to_ : Time) (endpointId : Option Nat) :
    List (BucketKey × StorageRow) :=
  s.catalog.overlappingAll from_ to_ (endpointId.map fun e => [e])

section

variable {fmt : ArchiveFormat} {k : BucketKey} {row : ArchiveRow} {r : EventRecord}
  {from_ to_ : Time} {endpointId : Option Nat}

section

variable (h : Consistent fmt s)

include h

theorem Consistent.objectRows (hrow : s.catalog.archive.get? k = some row) :
    (objectRows s.objects (k, row)).Nodup ∧ ∀ r ∈ objectRows s.objects (k, row),
      r ∈ s.stored ∧ r.bucketKey = k := by
  rw [EventService.objectRows, h.path.row k row hrow]
  rcases ho : s.objects (archiveKey k) with _ | o
  · exact ⟨nodup_nil, fun r hr => by cases hr⟩
  · obtain ⟨hnodup, hrows⟩ := h.store.object k o ho
    exact ⟨hnodup, fun r hr => ⟨(hrows r hr).1, (inBucket_iff.1 (hrows r hr).2).1⟩⟩

theorem Consistent.restoredObject (hrow : s.catalog.archive.get? k = some row)
    (hs : row.storageStatus = .restored) :
    ∃ o, s.objects row.storagePath = some o ∧ row.eventCount = o.rows.length := by
  -- A bucket that has left `ARCHIVED` is deleted, and so it is verified.
  obtain ⟨hot, hhot, -⟩ := h.catalog.hot_of_archive hrow
  have hstatus : s.catalog.statusOf k = some .restored := by rw [statusOf, hrow, ← hs]; rfl
  have hfrozen := h.catalog.frozen_of_status hstatus (by simp)
  obtain ⟨row', hrow', hv⟩ :=
    h.catalog.verified_of_deleted hhot ((h.catalog.isDelete_eq_frozen hhot).trans hfrozen)
  cases hrow.symm.trans hrow'
  obtain ⟨o, ho, -, hn⟩ := h.archives k row hrow hv
  exact ⟨o, ho, hn⟩

theorem Consistent.restoredRow
    (hb : (k, row) ∈ restoredRows (metadataRows s from_ to_ endpointId)) :
    s.catalog.archive.get? k = some row ∧ row.storageStatus = .restored ∧
      row.bucketEndAt = dayEnd k.bucketStartAt ∧ ∀ e ∈ endpointId, k.endpointId = e := by
  obtain ⟨hcold, hs⟩ := mem_restoredRows.1 hb
  obtain ⟨hrow, ⟨-, -, he⟩, -⟩ := mem_overlappingAll.1 (mem_coldRows.1 hcold).1
  have hrow : s.catalog.archive.get? k = some row := hrow
  refine ⟨hrow, hs, (h.catalog.archive_wellFormed hrow).bucketEndAt, fun e hee => ?_⟩
  exact mem_singleton.1 (he [e] (Option.mem_map.2 ⟨e, hee, rfl⟩))

theorem Consistent.restoredBucket
    (hb : (k, row) ∈ restoredRows (metadataRows s from_ to_ endpointId)) :
    EventService.RestoredBucket s.objects (k, row) := by
  obtain ⟨hrow, hs, hend, -⟩ := h.restoredRow hb
  obtain ⟨o, ho, hn⟩ := h.restoredObject hrow hs
  have hrows := (h.objectRows hrow).2
  exact {
    present := Option.isSome_iff_exists.2 ⟨o, ho⟩
    bucketEndAt := hend
    bucketKey := fun r hr => (hrows r hr).2
    not_isDelete := fun r hr => h.not_isDelete r (hrows r hr).1
    eventCount := by rw [EventService.objectRows, ho]; exact hn }

def counted (s : State W L) (from_ to_ : Time) (endpointId : Option Nat)
    (p p' : EventRecord → Bool) : List EventRecord :=
  s.events.filter p ++
    (restoredRows (metadataRows s from_ to_ endpointId)).flatMap
      fun b => (objectRows s.objects b).filter p'

theorem Consistent.counted_nodup (p p' : EventRecord → Bool) :
    (counted s from_ to_ endpointId p p').Nodup := by
  rw [counted, nodup_append']
  refine ⟨h.registry.nodup.of_map.filter _, ?_, fun r hr hr' => ?_⟩
  · -- The rows of different buckets are different.
    rw [nodup_flatMap]
    refine ⟨fun b hb => (h.objectRows (h.restoredRow hb).1).1.filter _, ?_⟩
    have hkeys : ((restoredRows (metadataRows s from_ to_ endpointId)).map Prod.fst).Nodup :=
      restoredRows_nodup
    refine (pairwise_map.1 hkeys).imp_of_mem fun {b b'} hb hb' hne r hr hr' => hne ?_
    rw [← ((h.objectRows (h.restoredRow hb).1).2 r (mem_of_mem_filter hr)).2,
      ← ((h.objectRows (h.restoredRow hb').1).2 r (mem_of_mem_filter hr')).2]
  · -- ClickHouse has no row of a restored bucket.
    obtain ⟨⟨k, row⟩, hb, hr'⟩ := mem_flatMap.1 hr'
    obtain ⟨hrow, hs, -⟩ := h.restoredRow hb
    have hstatus : s.catalog.statusOf k = some .restored := by
      rw [statusOf, hrow, ← hs]
      rfl
    exact h.query.restored k hstatus r (mem_of_mem_filter hr)
      ((h.objectRows hrow).2 r (mem_of_mem_filter hr')).2

theorem Consistent.counted_ids_nodup (p p' : EventRecord → Bool) :
    ((counted s from_ to_ endpointId p p').map (·.eventId)).Nodup := by
  refine (h.counted_nodup p p').map_on fun r hr r' hr' hid => ?_
  have hst {r : EventRecord} (hr : r ∈ counted s from_ to_ endpointId p p') : r ∈ s.stored := by
    rcases mem_append.1 hr with hr | hr
    · exact h.store.events r (mem_of_mem_filter hr)
    · obtain ⟨⟨k, row⟩, hb, hr⟩ := mem_flatMap.1 hr
      exact ((h.objectRows (h.restoredRow hb).1).2 r (mem_of_mem_filter hr)).1
  exact inj_on_of_nodup_map h.query.ids (hst hr) (hst hr') hid

-- The query is not refused.
variable (hready : restoredRows (metadataRows s from_ to_ endpointId) =
  coldRows (metadataRows s from_ to_ endpointId))

include hready

/-- ClickHouse has an event of the range that an object has, or its bucket is restored. -/
theorem Consistent.mem_or_restored (hrow : s.catalog.archive.get? k = some row)
    (hr : r ∈ EventService.objectRows s.objects (k, row))
    (hfrom : from_ ≤ r.occurredAt) (hto : r.occurredAt < to_)
    (hend : ∀ e ∈ endpointId, r.endpointId = e) :
    r ∈ s.events ∨ (k, row) ∈ restoredRows (metadataRows s from_ to_ endpointId) := by
  obtain ⟨hstored, rfl⟩ := (h.objectRows hrow).2 r hr
  have hday : dateOf r.occurredAt = r.bucketKey.bucketStartAt := rfl
  obtain ⟨hstart, hlast⟩ := dateOf_eq_iff.1 hday
  have hwf := h.catalog.archive_wellFormed hrow
  rcases h.store.present r hstored with he | hfrozen
  · exact .inl he
  · -- The day is frozen, so the bucket has no live row and its S3 row is cold.
    refine .inr ?_
    rw [hready, mem_coldRows, mem_overlappingAll, mem_hotKeys]
    refine ⟨⟨hrow, ⟨?_, ?_, ?_⟩, hwf.isDelete⟩, ?_⟩
    · exact lt_of_le_of_lt hstart hto
    · exact lt_of_le_of_lt hfrom (hlast.trans_eq hwf.bucketEndAt.symm)
    · intro ids hids
      obtain ⟨e, he, rfl⟩ := Option.mem_map.1 hids
      exact mem_singleton.2 (hend e he)
    · rintro ⟨hot, hhot⟩
      obtain ⟨hhot, -, hlive⟩ := mem_overlappingAll.1 hhot
      have := h.catalog.isDelete_eq_frozen (show s.catalog.hot.get? r.bucketKey = some hot from hhot)
      rw [show hot.isDelete = false from hlive] at this
      exact Bool.false_ne_true (this.trans hfrozen)

variable {S : EventRecord → Prop} {p p' : EventRecord → Bool}
  (hp : ∀ r ∈ s.stored, p r = true ↔ S r) (hp' : ∀ r ∈ s.stored, p' r = true ↔ S r)
  (hS : ∀ r, S r → from_ ≤ r.occurredAt ∧ r.occurredAt < to_ ∧ ∀ e ∈ endpointId, r.endpointId = e)

include hp hp' hS

theorem Consistent.mem_counted : r ∈ counted s from_ to_ endpointId p p' ↔ Stored s r ∧ S r := by
  have hrows (k : BucketKey) (row : ArchiveRow) : r ∈ EventService.objectRows s.objects (k, row) ↔
      ∃ o, s.objects row.storagePath = some o ∧ r ∈ o.rows := by
    rw [EventService.objectRows]
    cases s.objects row.storagePath <;> simp
  rw [counted, mem_append, mem_filter, mem_flatMap]
  constructor
  · rintro (⟨hr, hpr⟩ | ⟨⟨k, row⟩, hb, hr⟩)
    · exact ⟨.inl hr, (hp r (h.store.events r hr)).1 hpr⟩
    · obtain ⟨hr, hpr⟩ := mem_filter.1 hr
      obtain ⟨hrow, -⟩ := h.restoredRow hb
      obtain ⟨o, ho, hro⟩ := (hrows k row).1 hr
      exact ⟨.inr ⟨k, row, o, hrow, ho, hro⟩, (hp' r ((h.objectRows hrow).2 r hr).1).1 hpr⟩
  · rintro ⟨hr | ⟨k, row, o, hrow, ho, hr⟩, hsel⟩
    · exact .inl ⟨hr, (hp r (h.store.events r hr)).2 hsel⟩
    · obtain ⟨hfrom, hto, hend⟩ := hS r hsel
      have hro := (hrows k row).2 ⟨o, ho, hr⟩
      have hst := ((h.objectRows hrow).2 r hro).1
      rcases h.mem_or_restored hready hrow hro hfrom hto hend with he | hb
      · exact .inl ⟨he, (hp r hst).2 hsel⟩
      · exact .inr ⟨(k, row), hb, mem_filter.2 ⟨hro, (hp' r hst).2 hsel⟩⟩

theorem Consistent.ncard_counted :
    {r | Stored s r ∧ S r}.ncard = (counted s from_ to_ endpointId p p').length := by
  have hset : {r | Stored s r ∧ S r} = ↑(counted s from_ to_ endpointId p p').toFinset := by
    ext r
    rw [coe_toFinset]
    exact (h.mem_counted hready hp hp' hS).symm
  rw [hset, Set.ncard_coe_finset, toFinset_card_of_nodup (h.counted_nodup p p')]

end

/-! ## The totals -/

variable {q : EventListQuery}

theorem Consistent.contents (h : Consistent fmt s)
    (hready : ensureArchiveRowsReady (metadataRows s from_ to_ q.endpointId) = .ok ()) :
    EventService.Contents s.events s.catalog s.objects q from_ to_ where
  ready := hready
  restored _ hb := h.restoredBucket hb
  ids := by
    have hids : ((counted s from_ to_ q.endpointId (fun _ => true) fun _ => true).map
        (·.eventId)).Nodup := h.counted_ids_nodup _ _
    simp only [counted, filter_true] at hids
    exact hids

end

theorem Stored.mem_stored {r : EventRecord} (h : Stored s r) (hp : PathInv s) (hs : StoreInv s) :
    r ∈ s.stored := by
  rcases h with hr | ⟨k, row, o, hrow, ho, hr⟩
  · exact hs.events r hr
  · rw [hp.row k row hrow] at ho
    exact ((hs.object k o ho).2 r hr).1

theorem ncard_stored_le (hp : PathInv s) (hs : StoreInv s) (S : EventRecord → Prop) :
    {r | Stored s r ∧ S r}.ncard ≤ s.stored.length := by
  have hsub : {r | Stored s r ∧ S r} ⊆ ↑s.stored.toFinset := fun r hr => by
    rw [coe_toFinset]
    exact hr.1.mem_stored hp hs
  calc {r | Stored s r ∧ S r}.ncard
      ≤ (s.stored.toFinset : Set EventRecord).ncard := Set.ncard_le_ncard hsub
    _ = s.stored.toFinset.card := Set.ncard_coe_finset _
    _ ≤ s.stored.length := toFinset_card_le _

variable [Fintype W] [DecidableEq W] [Fintype L] [DecidableEq L]

/-- In every run of any number of workers and sweeps in which restores are completed after the drop,
    no event id is inserted twice, and no upload lands on a key that is verified or about to be
    recorded: the totals of the event list and of the dashboard are the numbers of the stored events
    that are selected, each counted once. The texts of the filters and of the events are such that
    ClickHouse and Python agree on them. -/
theorem counted_once {ops : TextOps} {T : Set String} (hT : ops.AgreeOn T)
    (h : (pipeline cfg).Reachable QueryPolicy s) (hs : ∀ r ∈ s.stored, ∀ v ∈ r.texts, v ∈ T) :
    (∀ q from_ to_ page total, (∀ v ∈ q.texts, v ∈ T) →
      EventService.listRows ops s.events s.catalog s.objects q from_ to_ = .ok (page, total) →
      total = {r | Stored s r ∧ q.Selects ops from_ to_ r}.ncard) ∧
    ∀ from_ to_ interval endpointId aggregate,
      EventService.dashboardSummary s.events s.catalog s.objects from_ to_ interval endpointId =
        .ok aggregate →
      aggregate.totalCount =
        {r | Stored s r ∧ ({ endpointId } : EventListQuery).Selects ops from_ to_ r}.ncard := by
  have hc := consistent_of_reachable h
  refine ⟨fun q from_ to_ page total hq hl => ?_, fun from_ to_ interval endpointId agg hd => ?_⟩
  · obtain ⟨hready, rfl⟩ := EventService.listRows_total hl
    rw [hc.ncard_counted hready (fun r hr => searchFilter_iff hT hq (hs r hr))
      (fun r hr => restored_iff (hc.not_isDelete r hr))
      fun r hr => ⟨hr.from_le, hr.lt_to, hr.endpointId⟩, counted, length_append, length_flatMap,
      EventService.countSearch_eq_length hc.registry.nodup]
    congr 2
    exact map_congr_left fun b hb => EventService.bucketTotal_eq (hc.restoredBucket hb)
      (hc.restoredRow hb).2.2.2
  · obtain ⟨hready, htotal⟩ := EventService.dashboardSummary_total hd
    have hagg := htotal ((hc.counted_ids_nodup (fun _ => true) _).sublist
      ((sublist_append_right _ _).map _))
    rw [hagg, hc.ncard_counted hready (fun r _ => dashboardFilter_iff)
      (fun r hr => dashboardRow_iff (hc.not_isDelete r hr))
      fun r hr => ⟨hr.from_le, hr.lt_to, hr.endpointId⟩, counted, length_append,
      countP_eq_length_filter]
    rfl

open EventService in
/-- In every such run, the pages of a query that is not refused list the stored events that it
    selects, each one once, where ClickHouse returns its events in the order of the merge. -/
theorem listed_once {ops : TextOps} {T : Set String} (hT : ops.AgreeOn T)
    (h : (pipeline cfg).Reachable QueryPolicy s) (hs : ∀ r ∈ s.stored, ∀ v ∈ r.texts, v ∈ T)
    (q : EventListQuery) (from_ to_ : Time) (k : Nat) (hq : ∀ v ∈ q.texts, v ∈ T)
    (hready : ensureArchiveRowsReady (metadataRows s from_ to_ q.endpointId) = .ok ())
    (hk : k * q.size ≤ maxRestoredPageWindow)
    (hsorted : (hotMatches ops s.events q from_ to_).Pairwise (RowLe q.sortOrder)) :
    Paginated ops s.events s.catalog s.objects q from_ to_ k ∧
      (allMatches ops s.events s.catalog s.objects q from_ to_).Nodup ∧
      ∀ r, r ∈ allMatches ops s.events s.catalog s.objects q from_ to_ ↔
        Stored s r ∧ q.Selects ops from_ to_ r := by
  have hc := consistent_of_reachable h
  have hcontents := hc.contents hready
  refine ⟨?_, hcontents.sources.nodup, fun r => ?_⟩
  · by_cases hnone : restoredBuckets s.catalog q from_ to_ = []
    · exact hcontents.paginated_of_nil hnone
    · exact (hcontents.paginated_iff hnone hk).2 ((Paging.pages_iff hcontents.sources
        q.one_le_size).2 (Paging.cutsClean_of_sorted hcontents.sources hsorted) k .refl)
  · -- What is listed is what is counted, in another order.
    rw [← hc.mem_counted (ensureArchiveRowsReady_eq_ok hready)
      (fun r hr => searchFilter_iff hT hq (hs r hr)) (fun r hr => restored_iff (hc.not_isDelete r hr))
      fun r hr => ⟨hr.from_le, hr.lt_to, hr.endpointId⟩]
    exact ((perm_insertionSort _ _).append (perm_insertionSort _ _)).mem_iff

/-! ## A restore before the drop -/

def sampleText : TextOps where
  lower := .toLower
  lowerUTF8 := .toLower
  positionCaseInsensitiveUTF8 haystack needle :=
    (isIn needle.toLower haystack.toLower).toNat
  uuidLe id id' := decide (id ≤ id')

theorem sampleText_agree : sampleText.AgreeOn Set.univ where
  position haystack _ needle _ := by
    simp only [sampleText]
    cases isIn needle.toLower haystack.toLower <;> simp
  lower _ _ _ _ := .rfl

/-- A restore of the bucket of `sshd` is requested, and completed. -/
def restoreRun : List (Label (Fin 1) (Fin 1)) :=
  [.restore (.requestRestore ⟨7, 20635⟩ "analyst" "request-1" (dayStart 20645)),
    .restore (.markRestored ⟨7, 20635⟩ (dayStart 20646) (dayStart 20653))]

def droppedRun : List (Label (Fin 1) (Fin 1)) := claimedRun ++ [.drop 0, .mark 0] ++ restoreRun

theorem counted_once_restoreRun :
    ∃ s page, (pipeline sampleConfig).runIf QueryPolicy initial droppedRun = some s ∧
      EventService.listRows sampleText s.events s.catalog s.objects {} (dayStart 20635)
        (dayEnd 20635) = .ok (page, 1) ∧
      {r | Stored s r ∧ ({} : EventListQuery).Selects sampleText (dayStart 20635)
        (dayEnd 20635) r}.ncard = 1 :=
  have h : (pipeline sampleConfig).runIf QueryPolicy initial droppedRun = some _ := rfl
  have hl : EventService.listRows sampleText _ _ _ {} (dayStart 20635) (dayEnd 20635) =
    .ok (_, 1) := rfl
  ⟨_, _, h, hl, ((counted_once sampleText_agree (System.reachable_of_runIf h)
    fun _ _ _ _ => trivial).1 _ _ _ _ _ (fun _ _ => trivial) hl).symm⟩

theorem listed_once_restoreRun :
    ∃ s, (pipeline sampleConfig).runIf QueryPolicy initial droppedRun = some s ∧
      EventService.Paginated sampleText s.events s.catalog s.objects {} (dayStart 20635)
        (dayEnd 20635) 1 :=
  have h : (pipeline sampleConfig).runIf QueryPolicy initial droppedRun = some _ := rfl
  ⟨_, h, (listed_once sampleText_agree (System.reachable_of_runIf h) (fun _ _ _ _ => trivial) _ _ _
    1 (fun _ _ => trivial) rfl (by decide) .nil).1⟩

def failedDropRun : List (Label (Fin 1) (Fin 1)) := claimedRun ++ [.sweep 0 .skip] ++ restoreRun

/-- One event is stored, and both the event list and the dashboard count two. -/
theorem counted_twice :
    ∃ s : State (Fin 1) (Fin 1), (pipeline sampleConfig).Reachable System.always s ∧
      {r | Stored s r ∧ ({} : EventListQuery).Selects sampleText (dayStart 20635)
        (dayEnd 20635) r}.ncard ≤ 1 ∧
      (∃ page, EventService.listRows sampleText s.events s.catalog s.objects {} (dayStart 20635)
        (dayEnd 20635) = .ok (page, 2)) ∧
      ∃ aggregate, EventService.dashboardSummary s.events s.catalog s.objects (dayStart 20635)
        (dayEnd 20635) 3600 none = .ok aggregate ∧ aggregate.totalCount = 2 := by
  have h : (pipeline sampleConfig).run initial failedDropRun = some _ := rfl
  have hr := System.reachable_of_run h
  exact ⟨_, hr, ncard_stored_le (pathInv_of_reachable hr) (storeInv_of_reachable hr) _, ⟨_, rfl⟩,
    _, rfl, rfl⟩

end Edr.Pipeline
