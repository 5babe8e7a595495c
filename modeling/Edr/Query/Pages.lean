import Edr.Catalog.Run
import Edr.Lib.Paging
import Edr.Query

/-!
# The pages of the event list

`EventService.list_rows` cuts its pages out of two sources: the rows of ClickHouse, in the order of
ClickHouse, and those of the restored buckets, of which `_restored_page` keeps the first ones in a
heap. The heap has the order of the last sort, by the text of the ids. ClickHouse has another order
on ids, and so a page may be cut at another place of its rows than the page before.
-/

namespace Edr

open List EventRepository Catalog Nat

open Paging

namespace EventService

/-! ## The order of the rows -/

section

variable {order : SortOrder} {r r' : EventRecord}

instance : Std.Total EventLe where
  total r r' := by
    unfold EventLe
    grind

instance : IsTrans EventRecord EventLe where
  trans r r' r'' h h' := by
    unfold EventLe at *
    grind

instance : Std.Total (RowLe order) where
  total r r' := by
    cases order with
    | asc => exact Std.Total.total (r := EventLe) r r'
    | desc => exact Std.Total.total (r := EventLe) r' r

instance : IsTrans EventRecord (RowLe order) where
  trans r r' r'' h h' := by
    cases order with
    | asc => exact IsTrans.trans (r := EventLe) r r' r'' h h'
    | desc => exact IsTrans.trans (r := EventLe) r'' r' r h' h

theorem rowLe_antisymm (h : RowLe order r r') (h' : RowLe order r' r) : r.eventId = r'.eventId := by
  cases order <;> unfold RowLe EventLe at * <;> grind

theorem antisymmOn_of_ids {l : List EventRecord} (h : (l.map (·.eventId)).Nodup) :
    AntisymmOn (RowLe order) l :=
  fun _ hr _ hr' hle hle' => inj_on_of_nodup_map h hr hr' (rowLe_antisymm hle hle')

theorem heapEntry_le_iff :
    (heapEntry order r).Le (heapEntry order r') ↔ RowLe order r' r := by
  cases order <;> unfold HeapEntry.Le heapEntry RowLe EventLe <;> grind

instance : Std.Total HeapEntry.Le where
  total e e' := by
    unfold HeapEntry.Le
    grind

instance : IsTrans HeapEntry HeapEntry.Le where
  trans e e' e'' h h' := by
    unfold HeapEntry.Le at *
    grind

/-! ## The heap -/

/-- The heap has the first `limit` of these rows, the last one of them first. -/
structure HeapOf (order : SortOrder) (limit : Nat) (rows : List EventRecord)
    (heap : List HeapEntry) : Prop where
  sorted : heap.Pairwise HeapEntry.Le
  entry : ∀ e ∈ heap, e = heapEntry order e.row
  perm : (heap.map (·.row)).Perm (top (RowLe order) limit rows)

variable {limit : Nat} {rows : List EventRecord} {heap : List HeapEntry}

theorem HeapOf.nil : HeapOf order limit [] [] := by
  refine ⟨.nil, fun _ he => absurd he not_mem_nil, ?_⟩
  rw [top, insertionSort_nil, take_nil]
  exact .nil

theorem HeapOf.length (h : HeapOf order limit rows heap) : heap.length = min limit rows.length := by
  rw [← length_map (·.row), h.perm.length_eq, top, length_take,
    length_insertionSort]

theorem HeapOf.least {least : HeapEntry} {tail : List HeapEntry}
    (h : HeapOf order limit rows (least :: tail)) :
    ∀ y ∈ top (RowLe order) limit rows, RowLe order y least.row := by
  intro y hy
  obtain ⟨e, he, rfl⟩ := mem_map.1 (h.perm.mem_iff.2 hy)
  have hle : least.Le e := by
    rcases mem_cons.1 he with rfl | he
    · exact (Std.Total.total e e).elim id id
    · exact (pairwise_cons.1 h.sorted).1 e he
  rw [h.entry e he, h.entry least mem_cons_self] at hle
  exact heapEntry_le_iff.1 hle

theorem HeapOf.reverse_eq (h : HeapOf order limit rows heap) (hids : (rows.map (·.eventId)).Nodup) :
    (heap.map (·.row)).reverse = top (RowLe order) limit rows := by
  have hsub : top (RowLe order) limit rows ⊆ rows := fun y hy =>
    (perm_insertionSort _ rows).subset (mem_of_mem_take hy)
  have hpairwise : (heap.map (·.row)).reverse.Pairwise (RowLe order) := by
    rw [pairwise_reverse, pairwise_map]
    refine h.sorted.imp_of_mem fun {e e'} he he' hle => ?_
    rw [h.entry e he, h.entry e' he'] at hle
    exact heapEntry_le_iff.1 hle
  refine ((reverse_perm _).trans h.perm).eq_of_pairwise (fun a b ha hb => ?_) hpairwise
    (top_sorted _ _)
  exact antisymmOn_of_ids hids a (hsub (h.perm.subset (mem_reverse.1 ha))) b (hsub hb)

theorem row_heapEntry : (heapEntry order r).row = r := by
  cases order <;> rfl

theorem perm_map_orderedInsert (heap : List HeapEntry) :
    ((heap.orderedInsert HeapEntry.Le (heapEntry order r)).map (·.row)).Perm
      (r :: heap.map (·.row)) := by
  have h := (perm_orderedInsert HeapEntry.Le (heapEntry order r) heap).map (·.row)
  rwa [map_cons, row_heapEntry] at h

theorem eq_heapEntry_of_mem_orderedInsert (h : ∀ e ∈ heap, e = heapEntry order e.row) :
    ∀ e ∈ heap.orderedInsert HeapEntry.Le (heapEntry order r), e = heapEntry order e.row := by
  intro e he
  rcases (mem_orderedInsert _).1 he with rfl | he
  · rw [row_heapEntry]
  · exact h e he

theorem HeapOf.tail {least : HeapEntry} {tail : List HeapEntry}
    (h : HeapOf order limit rows (least :: tail)) (hids : (rows.map (·.eventId)).Nodup)
    (hfull : limit ≤ rows.length) :
    (tail.map (·.row)).Perm (top (RowLe order) (limit - 1) rows) := by
  have hreverse := h.reverse_eq hids
  rw [map_cons, reverse_cons] at hreverse
  have hlast := congrArg dropLast hreverse
  rw [dropLast_concat, top, dropLast_eq_take, take_take, length_take,
    length_insertionSort, min_eq_left hfull, min_eq_left (sub_le limit 1)] at hlast
  rw [top, ← hlast]
  exact (reverse_perm _).symm

theorem HeapOf.push (h : HeapOf order limit rows heap)
    (hids : ((rows ++ [r]).map (·.eventId)).Nodup) :
    HeapOf order limit (rows ++ [r]) (pushRow order limit heap r) := by
  have hanti : AntisymmOn (RowLe order) (rows ++ [r]) := antisymmOn_of_ids hids
  have hrows : (rows.map (·.eventId)).Nodup :=
    hids.sublist ((sublist_append_left rows [r]).map _)
  have hlength := h.length
  rw [pushRow]
  split_ifs with hroom hbetter
  · -- There is room in the heap.
    have hlt : rows.length < limit := by omega
    exact ⟨h.sorted.orderedInsert _ _, eq_heapEntry_of_mem_orderedInsert h.entry,
      ((perm_map_orderedInsert heap).trans (h.perm.cons r)).trans
        (top_concat_of_lt hanti hlt).symm⟩
  · -- The row comes before the last one of the heap, which it replaces.
    cases heap with
    | nil => cases hbetter
    | cons least tail =>
      have hfull : limit ≤ rows.length := by omega
      have hleast := h.entry least mem_cons_self
      simp only [head?_cons, Option.any_some, Bool.not_eq_true', decide_eq_false_iff_not]
        at hbetter
      rw [hleast, heapEntry_le_iff] at hbetter
      have hbefore : RowLe order r least.row := (Std.Total.total r least.row).resolve_right hbetter
      have hmem : least.row ∈ top (RowLe order) limit rows :=
        h.perm.subset (mem_map_of_mem mem_cons_self)
      exact ⟨(pairwise_cons.1 h.sorted).2.orderedInsert _ _,
        eq_heapEntry_of_mem_orderedInsert fun e he => h.entry e (mem_cons_of_mem _ he),
        ((perm_map_orderedInsert tail).trans ((h.tail hrows hfull).cons r)).trans
          (top_concat_of_before hanti hmem hbefore).symm⟩
  · -- The row comes after all of the heap.
    refine ⟨h.sorted, h.entry, ?_⟩
    rw [top_concat_of_after hanti (fun y hy hle => ?_) (by omega)]
    · exact h.perm
    cases heap with
    | nil => exact not_mem_nil (h.perm.mem_iff.2 hy)
    | cons least tail =>
      have hleast := h.entry least mem_cons_self
      simp only [head?_cons, Option.any_some, Bool.not_eq_true', decide_eq_false_iff_not,
        Classical.not_not] at hbetter
      rw [hleast, heapEntry_le_iff] at hbetter
      have hyr : RowLe order y r := IsTrans.trans y least.row r (h.least y hy) hbetter
      have hyrows : y ∈ rows := (perm_insertionSort _ rows).subset (mem_of_mem_take hy)
      rw [map_append, nodup_append] at hids
      exact hids.2.2 _ (mem_map_of_mem hyrows) _ (mem_singleton_self _)
        (rowLe_antisymm hyr hle)

/-! ## The restored buckets -/

def matchingRows (ops : TextOps) (objects : ObjectKey → Option ArchiveObject) (q : EventListQuery)
    (from_ to_ : Time) (bucket : ArchiveBucket) : List EventRecord :=
  (objectRows objects bucket).filter fun r =>
    readFilter (pageFilters q from_ to_) r && matches_ ops q from_ to_ r

/-- The object of a restored bucket is there, with rows of the bucket only, as many as were
    recorded. -/
structure RestoredBucket (objects : ObjectKey → Option ArchiveObject)
    (bucket : ArchiveBucket) : Prop where
  present : (objects bucket.2.storagePath).isSome = true
  bucketEndAt : bucket.2.bucketEndAt = dayEnd bucket.1.bucketStartAt
  bucketKey : ∀ r ∈ objectRows objects bucket, r.bucketKey = bucket.1
  not_isDelete : ∀ r ∈ objectRows objects bucket, r.isDelete = false
  eventCount : bucket.2.eventCount = (objectRows objects bucket).length

/-- The object of a bucket is there, with rows within the bounds of the bucket, as many as were
    recorded. -/
structure BoundedBucket (objects : ObjectKey → Option ArchiveObject)
    (bucket : ArchiveBucket) : Prop where
  present : (objects bucket.2.storagePath).isSome = true
  start_le : ∀ r ∈ objectRows objects bucket, dayStart bucket.1.bucketStartAt ≤ r.occurredAt
  lt_end : ∀ r ∈ objectRows objects bucket, r.occurredAt < bucket.2.bucketEndAt
  eventCount : bucket.2.eventCount = (objectRows objects bucket).length

variable {ops : TextOps} {objects : ObjectKey → Option ArchiveObject} {q : EventListQuery}
  {from_ to_ : Time} {acc acc' : List HeapEntry × Nat} {bucket : ArchiveBucket}

theorem RestoredBucket.bounded (h : RestoredBucket objects bucket) :
    BoundedBucket objects bucket := by
  have hday : ∀ r ∈ objectRows objects bucket, dayStart bucket.1.bucketStartAt ≤ r.occurredAt ∧
      r.occurredAt < dayEnd bucket.1.bucketStartAt := fun r hr =>
    dateOf_eq_iff.1 (congrArg BucketKey.bucketStartAt (h.bucketKey r hr))
  exact ⟨h.present, fun r hr => (hday r hr).1,
    fun r hr => (hday r hr).2.trans_eq h.bucketEndAt.symm, h.eventCount⟩

theorem exists_readRows (h : (objects bucket.2.storagePath).isSome = true) (f : ReadFilters) :
    readRows objects bucket.2.storagePath f =
      .ok ((objectRows objects bucket).filter (readFilter f)) := by
  obtain ⟨o, ho⟩ := Option.isSome_iff_exists.1 h
  rw [readRows, objectRows, ho]
  rfl

theorem heapOf_foldl_pageRow {counted : Bool} (l : List EventRecord)
    (h : HeapOf q.sortOrder limit rows acc.1)
    (hids : ((rows ++ l.filter (matches_ ops q from_ to_)).map (·.eventId)).Nodup) :
    HeapOf q.sortOrder limit (rows ++ l.filter (matches_ ops q from_ to_))
      (l.foldl (pageRow ops q from_ to_ limit counted) acc).1 := by
  induction l generalizing rows acc with
  | nil => rwa [filter_nil, append_nil]
  | cons r l ih =>
    rw [foldl_cons, pageRow]
    by_cases hm : matches_ ops q from_ to_ r = true
    · rw [filter_cons_of_pos hm, append_cons] at hids ⊢
      rw [if_pos hm]
      exact ih (h.push (hids.sublist ((sublist_append_left _ _).map _))) hids
    · rw [filter_cons_of_neg hm] at hids ⊢
      rw [if_neg hm]
      exact ih h hids

theorem after_of_not_bucketCanImprove {worst r : EventRecord} (hb : BoundedBucket objects bucket)
    (hr : r ∈ objectRows objects bucket)
    (h : bucketCanImprove bucket (heapEntry q.sortOrder worst).occurredKey q.sortOrder = false) :
    ¬RowLe q.sortOrder r worst := by
  have hstart := hb.start_le r hr
  have hlast := hb.lt_end r hr
  cases horder : q.sortOrder <;> rw [horder] at h <;>
    simp only [bucketCanImprove, heapEntry] at h <;>
    unfold RowLe EventLe <;> grind

theorem pageBucket_spec (hb : BoundedBucket objects bucket) (hlimit : 0 < limit)
    (h : HeapOf q.sortOrder limit rows acc.1)
    (hids : ((rows ++ matchingRows ops objects q from_ to_ bucket).map (·.eventId)).Nodup) :
    ∃ acc', pageBucket ops objects q from_ to_ limit acc bucket = .ok acc' ∧
      HeapOf q.sortOrder limit (rows ++ matchingRows ops objects q from_ to_ bucket) acc'.1 := by
  simp only [pageBucket]
  split_ifs with hskip
  · refine ⟨_, rfl, h.sorted, h.entry, ?_⟩
    simp only [Bool.and_eq_true, decide_eq_true_eq, Bool.not_eq_true'] at hskip
    obtain ⟨⟨-, hfull⟩, himprove⟩ := hskip
    have hlength := h.length
    rw [top_append_of_after (antisymmOn_of_ids hids) (fun x hx y hy hxy => ?_) (by omega)]
    · exact h.perm
    rcases hheap : acc.1 with _ | ⟨least, tail⟩
    · rw [hheap, length_nil] at hfull
      omega
    · rw [hheap] at h himprove
      rw [head?_cons, Option.any_some, h.entry least mem_cons_self] at himprove
      exact after_of_not_bucketCanImprove hb (mem_of_mem_filter hx) himprove
        (IsTrans.trans x y least.row hxy (h.least y hy))
  · rw [exists_readRows hb.present]
    have hfilter : ((objectRows objects bucket).filter
        (readFilter (pageFilters q from_ to_))).filter (matches_ ops q from_ to_) =
          matchingRows ops objects q from_ to_ bucket := by
      rw [filter_filter, matchingRows]
      exact filter_congr fun r _ => Bool.and_comm _ _
    refine ⟨_, rfl, ?_⟩
    rw [← hfilter] at hids ⊢
    exact heapOf_foldl_pageRow _ h hids

theorem foldlM_pageBucket_spec {buckets : List ArchiveBucket}
    (hb : ∀ b ∈ buckets, BoundedBucket objects b) (hlimit : 0 < limit)
    (h : HeapOf q.sortOrder limit rows acc.1)
    (hids : ((rows ++ buckets.flatMap (matchingRows ops objects q from_ to_)).map
      (·.eventId)).Nodup) :
    ∃ acc', buckets.foldlM (pageBucket ops objects q from_ to_ limit) acc = .ok acc' ∧
      HeapOf q.sortOrder limit (rows ++ buckets.flatMap (matchingRows ops objects q from_ to_))
        acc'.1 := by
  induction buckets generalizing rows acc with
  | nil =>
    rw [flatMap_nil, append_nil]
    exact ⟨acc, rfl, h⟩
  | cons b buckets ih =>
    obtain ⟨hb, hbuckets⟩ := forall_mem_cons.1 hb
    rw [flatMap_cons, ← append_assoc] at hids ⊢
    obtain ⟨acc₁, hstep, hacc₁⟩ := pageBucket_spec hb hlimit h
      (hids.sublist ((sublist_append_left _ _).map _))
    obtain ⟨acc', hfold, hacc'⟩ := ih hbuckets hacc₁ hids
    exact ⟨acc', by rw [foldlM_cons, hstep]; exact hfold, hacc'⟩

theorem restoredPage_spec {buckets : List ArchiveBucket}
    (hb : ∀ b ∈ buckets, BoundedBucket objects b) (hlimit : 0 < limit)
    (hids : ((buckets.flatMap (matchingRows ops objects q from_ to_)).map (·.eventId)).Nodup) :
    ∃ page total, restoredPage ops objects buckets q from_ to_ limit = .ok (page, total) ∧
      page.Perm (top (RowLe q.sortOrder) limit
        (buckets.flatMap (matchingRows ops objects q from_ to_))) := by
  have hperm := (orderedBuckets_perm q.sortOrder buckets).flatMap_right
    (matchingRows ops objects q from_ to_)
  have hids' := (hperm.map (·.eventId)).nodup_iff.2 hids
  have hnil : HeapOf q.sortOrder limit [] (([], 0) : List HeapEntry × Nat).1 := .nil
  obtain ⟨acc, hfold, hacc⟩ := foldlM_pageBucket_spec
    (fun b hb' => hb b ((orderedBuckets_perm q.sortOrder buckets).subset hb')) hlimit hnil hids'
  refine ⟨acc.1.map (·.row), acc.2, ?_, ?_⟩
  · rw [restoredPage, hfold]
    rfl
  · rw [top, ← sort_eq_of_perm (antisymmOn_of_ids hids') hperm]
    exact hacc.perm

theorem BoundedBucket.bucketTotal_eq {k : BucketKey} {row : ArchiveRow}
    (hb : BoundedBucket objects (k, row))
    (hk : ∀ e ∈ q.endpointId, ∀ r ∈ objectRows objects (k, row), r.endpointId = e) :
    bucketTotal ops objects q from_ to_ (k, row) =
      (matchingRows ops objects q from_ to_ (k, row)).length := by
  rcases hn : exactBucketCount (k, row) q from_ to_ with _ | n
  · rw [bucketTotal, hn, Option.getD_none, countP_eq_length_filter]
    rfl
  · -- The recorded count is used: all the rows of the bucket are in the range.
    obtain ⟨hcount, hfrom, hto, hsel⟩ := exactBucketCount_eq_some ops hn
    have hall : matchingRows ops objects q from_ to_ (k, row) = objectRows objects (k, row) := by
      refine filter_eq_self.2 fun r hr => ?_
      -- Neither filter looks at `is_delete`.
      exact (restored_iff (r := { r with isDelete := false }) rfl).2 (hsel _ rfl
        (hfrom.trans (hb.start_le r hr)) ((hb.lt_end r hr).trans_le hto) fun e he => hk e he r hr)
    rw [bucketTotal, hn, Option.getD_some, hcount, hall]
    exact hb.eventCount

theorem bucketTotal_eq {k : BucketKey} {row : ArchiveRow} (hb : RestoredBucket objects (k, row))
    (hk : ∀ e ∈ q.endpointId, k.endpointId = e) :
    bucketTotal ops objects q from_ to_ (k, row) =
      (matchingRows ops objects q from_ to_ (k, row)).length :=
  hb.bounded.bucketTotal_eq fun e he r hr =>
    (congrArg BucketKey.endpointId (hb.bucketKey r hr)).trans (hk e he)

end

/-! ## The pages -/

/-- The query for the page number `i`, from 0 on. -/
def atPage (q : EventListQuery) (i : Nat) : EventListQuery :=
  { q with
    page := i + 1
    one_le_page := succ_pos i }

section

variable (ops : TextOps) (events : List EventRecord) (catalog : Catalog)
  (objects : ObjectKey → Option ArchiveObject) (q : EventListQuery) (from_ to_ : Time)

def restoredBuckets : List ArchiveBucket :=
  restoredRows (catalog.overlappingAll from_ to_ (q.endpointId.map fun e => [e]))

def hotMatches : List EventRecord :=
  (events.filter (searchFilter ops (searchFilters q from_ to_))).insertionSort
    (EventRepository.OrderedBy ops q.sortOrder)

def restoredMatches : List EventRecord :=
  ((restoredBuckets catalog q from_ to_).flatMap
    (matchingRows ops objects q from_ to_)).insertionSort (RowLe q.sortOrder)

def allMatches : List EventRecord :=
  hotMatches ops events q from_ to_ ++ restoredMatches ops catalog objects q from_ to_

/-- What there is for a query: no archived bucket of the range is unready, the restored buckets are
    there with their rows, and no event id is stored twice. -/
structure Contents : Prop where
  ready : ensureArchiveRowsReady
    (catalog.overlappingAll from_ to_ (q.endpointId.map fun e => [e])) = .ok ()
  restored : ∀ b ∈ restoredBuckets catalog q from_ to_, RestoredBucket objects b
  ids : ((events ++ (restoredBuckets catalog q from_ to_).flatMap (objectRows objects)).map
    (·.eventId)).Nodup

variable {ops events catalog objects q from_ to_} {i : Nat}

section

variable (hc : Contents events catalog objects q from_ to_)

include hc

theorem Contents.ids_events : (events.map (·.eventId)).Nodup :=
  hc.ids.sublist ((sublist_append_left _ _).map _)

theorem Contents.ids_matching (ops : TextOps) :
    (((restoredBuckets catalog q from_ to_).flatMap (matchingRows ops objects q from_ to_)).map
      (·.eventId)).Nodup := by
  refine hc.ids.sublist (.map _ ?_)
  exact (List.Sublist.flatMap_right _ fun _ _ => filter_sublist).trans
    (sublist_append_right _ _)

theorem Contents.sources : Sources (RowLe q.sortOrder) (hotMatches ops events q from_ to_)
    (restoredMatches ops catalog objects q from_ to_) := by
  have hperm : (allMatches ops events catalog objects q from_ to_).Perm
      (events.filter (searchFilter ops (searchFilters q from_ to_)) ++
        (restoredBuckets catalog q from_ to_).flatMap (matchingRows ops objects q from_ to_)) :=
    (perm_insertionSort _ _).append (perm_insertionSort _ _)
  have hids : ((allMatches ops events catalog objects q from_ to_).map (·.eventId)).Nodup := by
    rw [(hperm.map _).nodup_iff]
    refine hc.ids.sublist (.map _ (filter_sublist.append ?_))
    exact .flatMap_right _ fun _ _ => filter_sublist
  exact ⟨hids.of_map _, antisymmOn_of_ids hids, pairwise_insertionSort _ _⟩

theorem Contents.restoredTotal :
    ((restoredBuckets catalog q from_ to_).map (bucketTotal ops objects q from_ to_)).sum =
      (restoredMatches ops catalog objects q from_ to_).length := by
  rw [restoredMatches, length_insertionSort, length_flatMap]
  refine congrArg sum (map_congr_left fun ⟨k, row⟩ hb => ?_)
  refine bucketTotal_eq (hc.restored _ hb) fun e he => ?_
  obtain ⟨-, -, hk⟩ := (mem_overlappingAll.1 (mem_coldRows.1 (mem_restoredRows.1 hb).1).1).2.1
  exact mem_singleton.1 (hk [e] (Option.mem_map_of_mem _ he))

theorem Contents.total {page : List EventRecord} {total : Nat}
    (h : listRows ops events catalog objects (atPage q i) from_ to_ = .ok (page, total)) :
    total = (allMatches ops events catalog objects q from_ to_).length := by
  obtain ⟨-, rfl⟩ := listRows_total h
  rw [allMatches, length_append, hotMatches, length_insertionSort]
  exact congrArg₂ (· + ·) (countSearch_eq_length hc.ids_events _) hc.restoredTotal

theorem Contents.listRows_eq_search (hnone : restoredBuckets catalog q from_ to_ = []) :
    listRows ops events catalog objects (atPage q i) from_ to_ =
      .ok (((hotMatches ops events q from_ to_).drop (i * q.size)).take q.size,
        (allMatches ops events catalog objects q from_ to_).length) := by
  obtain ⟨total, h⟩ : ∃ total, listRows ops events catalog objects (atPage q i) from_ to_ =
      .ok (((hotMatches ops events q from_ to_).drop (i * q.size)).take q.size, total) := by
    rw [listRows, atPage, hc.ready]
    exact ⟨_, if_pos (isEmpty_iff.2 hnone)⟩
  rw [h, hc.total h]

theorem Contents.listRows_eq_page (hsome : restoredBuckets catalog q from_ to_ ≠ [])
    (hwindow : (i + 1) * q.size ≤ maxRestoredPageWindow) :
    listRows ops events catalog objects (atPage q i) from_ to_ =
      .ok (page (RowLe q.sortOrder) (hotMatches ops events q from_ to_)
        (restoredMatches ops catalog objects q from_ to_) q.size i,
        (allMatches ops events catalog objects q from_ to_).length) := by
  have hend : i * q.size + q.size = (i + 1) * q.size := (succ_mul i q.size).symm
  have hids := hc.ids_matching ops
  obtain ⟨found, n, hpage, hperm⟩ := restoredPage_spec (fun b hb => (hc.restored b hb).bounded)
    (Nat.mul_pos (Nat.succ_pos i) q.one_le_size) hids
  rw [Nat.succ_eq_add_one, ← hend] at hpage hperm
  have hsort := sort_eq_of_perm (hc.sources.candidates_anti _)
    (hperm.symm.append_left ((hotMatches ops events q from_ to_).take (i * q.size + q.size)))
  have h : listRows ops events catalog objects (atPage q i) from_ to_ =
      .ok ((((hotMatches ops events q from_ to_).take (i * q.size + q.size) ++ found).insertionSort
          (RowLe q.sortOrder)).extract (i * q.size) (i * q.size + q.size),
        countSearch ops events (searchFilters q from_ to_) + n) := by
    rw [listRows, atPage, hc.ready]
    refine (if_neg fun h => hsome (isEmpty_iff.1 h)).trans ?_
    refine (if_neg (not_lt.2 (hend.trans_le hwindow))).trans ?_
    rw [restoredBuckets] at hpage
    exact congrArg (· >>= _) hpage
  rw [h, ← hc.total h, page, ← hend, hsort]

end

variable (ops events catalog objects q from_ to_) in
/-- The first `k` pages are right: each one has the number of the events that match as its total, no
    event is on them twice, and all are on them when there is room for as many. -/
def Paginated (k : Nat) : Prop :=
  ∃ page : Nat → List EventRecord,
    (∀ i < k, listRows ops events catalog objects (atPage q i) from_ to_ =
      .ok (page i, (allMatches ops events catalog objects q from_ to_).length)) ∧
    ((List.range k).flatMap page).Nodup ∧
    ((allMatches ops events catalog objects q from_ to_).length ≤ k * q.size →
      ∀ r ∈ allMatches ops events catalog objects q from_ to_, r ∈ (List.range k).flatMap page)

theorem flatMap_range_extract {α : Type*} (l : List α) (n k : Nat) :
    ((List.range k).flatMap fun i => (l.drop (i * n)).take n) = l.take (k * n) := by
  induction k with
  | zero => rw [range_zero, flatMap_nil, Nat.zero_mul, take_zero]
  | succ k ih =>
    rw [range_succ, flatMap_append, ih, flatMap_singleton, succ_mul,
      take_add]

section

variable (hc : Contents events catalog objects q from_ to_) {k : Nat}

include hc

theorem Contents.paginated_of_nil (hnone : restoredBuckets catalog q from_ to_ = []) :
    Paginated ops events catalog objects q from_ to_ k := by
  have hall : allMatches ops events catalog objects q from_ to_ =
      hotMatches ops events q from_ to_ := by
    rw [allMatches, restoredMatches, hnone, flatMap_nil, insertionSort_nil,
      append_nil]
  refine ⟨_, fun i _ => hc.listRows_eq_search hnone, ?_, fun hlength r hr => ?_⟩
  · rw [flatMap_range_extract]
    exact (nodup_append'.1 (hc.sources).nodup).1.sublist (take_sublist _ _)
  · rw [flatMap_range_extract]
    rw [hall] at hlength hr
    rwa [take_of_length_le hlength]

theorem Contents.paginated_iff (hsome : restoredBuckets catalog q from_ to_ ≠ [])
    (hk : k * q.size ≤ maxRestoredPageWindow) :
    let l := pages (RowLe q.sortOrder) (hotMatches ops events q from_ to_)
      (restoredMatches ops catalog objects q from_ to_) q.size k
    Paginated ops events catalog objects q from_ to_ k ↔ l.Nodup ∧
      ((allMatches ops events catalog objects q from_ to_).length ≤ k * q.size →
        ∀ r ∈ allMatches ops events catalog objects q from_ to_, r ∈ l) := by
  intro l
  have hlist : ∀ i < k, listRows ops events catalog objects (atPage q i) from_ to_ = _ :=
    fun i hi => hc.listRows_eq_page hsome ((mul_le_mul_right q.size hi).trans hk)
  constructor
  · rintro ⟨page', hpage, hpages⟩
    have heq : (range k).flatMap page' = l := by
      refine flatMap_congr fun i hi => ?_
      have hi := mem_range.1 hi
      exact (Prod.mk.inj (Except.ok.inj ((hpage i hi).symm.trans (hlist i hi)))).1
    rwa [heq] at hpages
  · exact fun h => ⟨_, hlist, h⟩

end

/-- For all contents of ClickHouse and of restored buckets: all the pages within the window are
    right, iff no bucket of the range is restored, or at the end of each page the events of ClickHouse
    that are among the first of all are also among the first of ClickHouse. -/
theorem pages_iff_cutsClean (hc : Contents events catalog objects q from_ to_) :
    (∀ k, restoredBuckets catalog q from_ to_ = [] ∨ k * q.size ≤ maxRestoredPageWindow →
      Paginated ops events catalog objects q from_ to_ k) ↔
    restoredBuckets catalog q from_ to_ = [] ∨
      CutsClean (RowLe q.sortOrder) (hotMatches ops events q from_ to_)
        (restoredMatches ops catalog objects q from_ to_) q.size
        (maxRestoredPageWindow / q.size * q.size) := by
  by_cases hnone : restoredBuckets catalog q from_ to_ = []
  · exact ⟨fun _ => .inl hnone, fun _ k _ => hc.paginated_of_nil hnone⟩
  rw [or_iff_right hnone, ← pages_iff hc.sources q.one_le_size]
  refine forall_congr' fun k => ?_
  rw [or_iff_right hnone, ← le_div_iff_mul_le q.one_le_size]
  exact forall_congr' fun hk =>
    hc.paginated_iff hnone ((le_div_iff_mul_le q.one_le_size).1 hk)

/-! ## Two events of one time -/

def halvesLe (id id' : UUID) : Bool :=
  decide (id % 2 ^ 64 < id' % 2 ^ 64 ∨ id % 2 ^ 64 = id' % 2 ^ 64 ∧ id / 2 ^ 64 ≤ id' / 2 ^ 64)

def halvesText : TextOps where
  lower := id
  lowerUTF8 := id
  positionCaseInsensitiveUTF8 haystack needle := (isIn needle haystack).toNat
  uuidLe := halvesLe

def pageEvent (eventId : UUID) (occurredAt : Time) : EventRecord where
  eventId := eventId
  endpointId := 7
  agentId := "agent-7"
  eventType := "PROCESS_EXECUTION"
  occurredAt := occurredAt
  processName := some "sshd"
  filePath := none
  fileHashSha256 := none
  remoteIp := none
  remoteDomain := none
  dnsQuery := none
  dnsAnswers := none
  l7Protocol := none
  httpHost := none
  tlsSni := none
  payloadSha256 := "d1"
  isDelete := false

def restoredDay : List Catalog.Op := [
  .hotIngest ⟨7, 20635⟩,
  .record ⟨7, 20635⟩ ⟨20635, 7⟩ 1 512 "d" (dayStart 20636),
  .claimPartitionDeletion 20635 (dayStart 20637),
  .markPartitionDeleted 20635 (dayStart 20637),
  .requestRestore ⟨7, 20635⟩ "analyst" "request-1" (dayStart 20639),
  .markRestored ⟨7, 20635⟩ (dayStart 20640) (dayStart 20647),
  .hotIngest ⟨7, 20640⟩]

def restoredObject (key : ObjectKey) : Option ArchiveObject :=
  if key = ⟨20635, 7⟩ then some ⟨[[pageEvent 3 (dayStart 20635)]]⟩ else none

def restoredDayCatalog : Catalog := restoredDay.foldl perform .empty

theorem restoredBuckets_restoredDay : ∃ row : ArchiveRow,
    restoredBuckets restoredDayCatalog { size := 1 } (dayStart 20635) (dayEnd 20640) =
      [(⟨7, 20635⟩, row)] ∧ row.storagePath = ⟨20635, 7⟩ ∧ row.bucketEndAt = dayEnd 20635 ∧
        row.eventCount = 1 :=
  ⟨_, rfl, rfl, rfl, rfl⟩

/-- The events are in ClickHouse, next to the restored bucket. -/
abbrev DayContents (q : EventListQuery) (events : List EventRecord) : Prop :=
  Contents events restoredDayCatalog restoredObject q (dayStart 20635) (dayEnd 20640)

theorem contents_restoredDay {events : List EventRecord}
    (hids : (events.map EventRecord.eventId ++ [3]).Nodup) : DayContents { size := 1 } events := by
  obtain ⟨row, hbuckets, hpath, hend, hcount⟩ := restoredBuckets_restoredDay
  have hrows : objectRows restoredObject (⟨7, 20635⟩, row) = [pageEvent 3 (dayStart 20635)] := by
    rw [objectRows, hpath]
    rfl
  refine ⟨rfl, ?_, ?_⟩
  · rw [hbuckets]
    rintro b hb
    obtain rfl := mem_singleton.1 hb
    refine ⟨by rw [hpath]; rfl, hend, ?_, ?_, by rw [hrows]; exact hcount⟩ <;> rw [hrows] <;>
      intro r hr <;> obtain rfl := mem_singleton.1 hr
    · exact rfl
    · exact rfl
  · rw [hbuckets, flatMap_singleton, hrows, map_append]
    exact hids

def agreedEvents : List EventRecord :=
  [pageEvent 2 (dayStart 20640), pageEvent 1 (dayStart 20640)]

/-- The pages are right where the two orders agree on the events of one time. -/
theorem pages_iff_cutsClean_restoredDay :
    DayContents { size := 1 } agreedEvents ∧
      ∀ k ≤ maxRestoredPageWindow, Paginated halvesText agreedEvents restoredDayCatalog
        restoredObject { size := 1 } (dayStart 20635) (dayEnd 20640) k := by
  have hc : DayContents { size := 1 } agreedEvents := contents_restoredDay (by decide)
  refine ⟨hc, fun k hk => (pages_iff_cutsClean hc).2 (.inr ?_) k (.inr ?_)⟩
  · exact cutsClean_of_sorted hc.sources (by decide)
  · rwa [mul_one]

def twinEvents : List EventRecord :=
  [pageEvent (2 ^ 64) (dayStart 20640), pageEvent 1 (dayStart 20640)]

def twinPage (q : EventListQuery) (i : Nat) : Except QueryError (List EventRecord × Nat) :=
  listRows halvesText twinEvents restoredDayCatalog restoredObject (atPage q i) (dayStart 20635)
    (dayEnd 20640)

/-- The first two pages of one event each are the same, and the other event of that time is on
    none. -/
theorem event_on_two_pages :
    let q : EventListQuery := { size := 1 }
    catalogSystem.run .empty restoredDay = some restoredDayCatalog ∧ DayContents q twinEvents ∧
      twinPage q 0 = .ok ([pageEvent 1 (dayStart 20640)], 3) ∧
      twinPage q 1 = .ok ([pageEvent 1 (dayStart 20640)], 3) ∧
      twinPage q 2 = .ok ([pageEvent 3 (dayStart 20635)], 3) ∧ 2 * 1 ≤ maxRestoredPageWindow ∧
      ¬Paginated halvesText twinEvents restoredDayCatalog restoredObject q (dayStart 20635)
        (dayEnd 20640) 2 := by
  intro q
  have hfirst : twinPage q 0 = .ok ([pageEvent 1 (dayStart 20640)], 3) := rfl
  have hsecond : twinPage q 1 = .ok ([pageEvent 1 (dayStart 20640)], 3) := rfl
  refine ⟨rfl, contents_restoredDay (by decide), hfirst, hsecond, rfl, by decide, ?_⟩
  rintro ⟨page, hpage, hnodup, -⟩
  have h₀ := Except.ok.inj ((hpage 0 (by decide)).symm.trans hfirst)
  have h₁ := Except.ok.inj ((hpage 1 (by decide)).symm.trans hsecond)
  have hpages : (range 2).flatMap page = page 0 ++ (page 1 ++ []) := rfl
  rw [hpages, (Prod.mk.inj h₀).1, (Prod.mk.inj h₁).1] at hnodup
  exact absurd hnodup (by decide)

end

/-! ## The restored page -/

section

variable (ops : TextOps) {objects : ObjectKey → Option ArchiveObject} {q : EventListQuery}
  {from_ to_ : Time} {limit : Nat}

/-- For every list of buckets with rows within their bounds, without an id twice, and with their
    numbers recorded: `_restored_page` returns the first `limit` of the rows that match, in any
    order, and their number as the total, if the rows are of the endpoint that the query names. -/
theorem restoredPage_first {buckets : List ArchiveBucket}
    (hb : ∀ b ∈ buckets, BoundedBucket objects b) (hlimit : 0 < limit)
    (hids : ((buckets.flatMap (objectRows objects)).map (·.eventId)).Nodup) :
    ∃ page total, restoredPage ops objects buckets q from_ to_ limit = .ok (page, total) ∧
      page.Perm (top (RowLe q.sortOrder) limit
        (buckets.flatMap (matchingRows ops objects q from_ to_))) ∧
      ((∀ e ∈ q.endpointId, ∀ b ∈ buckets, ∀ r ∈ objectRows objects b, r.endpointId = e) →
        total = (buckets.flatMap (matchingRows ops objects q from_ to_)).length) := by
  have hmatching : ((buckets.flatMap (matchingRows ops objects q from_ to_)).map
      (·.eventId)).Nodup :=
    hids.sublist ((List.Sublist.flatMap_right _ fun _ _ => filter_sublist).map _)
  obtain ⟨page, total, hpage, hperm⟩ := restoredPage_spec hb hlimit hmatching
  refine ⟨page, total, hpage, hperm, fun hendpoint => ?_⟩
  rw [restoredPage_total hpage, length_flatMap]
  refine congrArg sum (map_congr_left fun ⟨k, row⟩ hmem => ?_)
  exact (hb _ hmem).bucketTotal_eq fun e he r hr => hendpoint e he _ hmem r hr

def sampleBucket (day : Day) : ArchiveBucket := (⟨7, day⟩, {
  bucketEndAt := dayEnd day
  storageStatus := .restored
  storagePath := ⟨day, 7⟩
  eventCount := 1
  sizeBytes := 512
  checksumSha256 := some "d"
  archivedAt := some (dayStart 20640)
  archiveVerifiedAt := some (dayStart 20640)
  restoreRequestedAt := some (dayStart 20641)
  restoredAt := some (dayStart 20641)
  restoreExpiresAt := some (dayStart 20648)
  lastError := none
  isDelete := false })

def sampleObjects (key : ObjectKey) : Option ArchiveObject :=
  if key = ⟨20635, 7⟩ then some ⟨[[pageEvent 3 (dayStart 20635)]]⟩
  else if key = ⟨20636, 7⟩ then some ⟨[[pageEvent 4 (dayStart 20636)]]⟩
  else none

theorem boundedBucket_sample {day : Day} (h : day = 20635 ∨ day = 20636) :
    BoundedBucket sampleObjects (sampleBucket day) := by
  rcases h with rfl | rfl <;> exact ⟨rfl, by decide, by decide, rfl⟩

/-- The first of two events, where the bucket of the other one is counted and not read. -/
theorem restoredPage_first_twoDays :
    (∀ b ∈ [sampleBucket 20635, sampleBucket 20636], BoundedBucket sampleObjects b) ∧
      ∃ page total, restoredPage halvesText sampleObjects [sampleBucket 20635, sampleBucket 20636]
          {} (dayStart 20635) (dayEnd 20636) 1 = .ok (page, total) ∧
        page.Perm [pageEvent 4 (dayStart 20636)] ∧ total = 2 := by
  have hb : ∀ b ∈ [sampleBucket 20635, sampleBucket 20636], BoundedBucket sampleObjects b := by
    intro b hb
    simp only [mem_cons, not_mem_nil, or_false] at hb
    rcases hb with rfl | rfl
    · exact boundedBucket_sample (.inl rfl)
    · exact boundedBucket_sample (.inr rfl)
  obtain ⟨page, total, hpage, hperm, htotal⟩ := restoredPage_first halvesText
    hb one_pos (by decide)
  exact ⟨hb, page, total, hpage, hperm, htotal nofun⟩

/-- A bucket of another endpoint than the one of the query is counted, although none of its rows
    match. -/
theorem restoredPage_otherEndpoint :
    BoundedBucket sampleObjects (sampleBucket 20635) ∧
      ((objectRows sampleObjects (sampleBucket 20635)).map (·.eventId)).Nodup ∧
      restoredPage halvesText sampleObjects [sampleBucket 20635] { endpointId := some 8 }
        (dayStart 20635) (dayEnd 20635) 1 = .ok ([], 1) ∧
      matchingRows halvesText sampleObjects { endpointId := some 8 } (dayStart 20635)
        (dayEnd 20635) (sampleBucket 20635) = [] :=
  ⟨boundedBucket_sample (.inl rfl), by decide, rfl, rfl⟩

end

end EventService

end Edr
