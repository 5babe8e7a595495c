import Edr.Lib.Counter
import Edr.Query.Dashboard
import Edr.Query.Pages

/-!
# The dashboard of hot and restored events

The live dashboard adds the aggregate of the restored rows to that of ClickHouse. Both are aggregates
of all their rows, except that their top lists are cut to ten values before they are added: a value
that is frequent in both together can be missing from one of the lists. Besides, the accumulator of
the restored rows finds the interval of a row with `int`, which rounds towards zero.
-/

namespace Edr

open List Nat

open Counter

/-! ## The code -/

def dashboardTopLimit : Nat := 10

def Dimension.values (rows : List EventRecord) (d : Dimension) : List String :=
  (rows.map fun r => d.value r).filter fun v => decide (v ≠ "")

def Dimension.topTen (rows : List EventRecord) (d : Dimension) : List (String × Nat) :=
  ranked dashboardTopLimit (d.values rows) (d.values rows).count

/-- The aggregate is that of these rows: their number, by type and by interval, and the ten most
    frequent values of each top list, as `_rank` lists them, with their counts. -/
structure DashboardEventAggregate.Exact (rows : List EventRecord) (intervalSeconds : Nat)
    (a : DashboardEventAggregate) : Prop where
  totalCount : a.totalCount = rows.length
  byEventType : ∀ e, a.byEventType e = rows.countP fun r => decide (r.eventType = e)
  timeSeries : ∀ t, a.timeSeries t =
    rows.countP fun r => decide (toStartOfInterval intervalSeconds r.occurredAt = t)
  top : ∀ d : Dimension, ranked dashboardTopLimit (d.values rows) (a.top d) = d.topTen rows

def Dimension.Kept (first second : List EventRecord) (d : Dimension) : Prop :=
  ∀ v n, (v, n) ∈ d.topTen (first ++ second) →
    (v ∈ d.values first → v ∈ (d.topTen first).map Prod.fst) ∧
    (v ∈ d.values second → v ∈ (d.topTen second).map Prod.fst)

instance (first second : List EventRecord) (d : Dimension) : Decidable (d.Kept first second) :=
  decidable_of_iff (∀ x ∈ d.topTen (first ++ second),
    (x.1 ∈ d.values first → x.1 ∈ (d.topTen first).map Prod.fst) ∧
    (x.1 ∈ d.values second → x.1 ∈ (d.topTen second).map Prod.fst))
    ⟨fun h v n hv => h (v, n) hv, fun h x hx => h x.1 x.2 hx⟩

/-! ## Top lists -/

section

variable {rows first second : List EventRecord} {d : Dimension}

theorem Dimension.values_append : d.values (first ++ second) = d.values first ++ d.values second := by
  rw [values, map_append, filter_append]
  rfl

theorem groupCount_eq_entries {κ : Type*} [LinearOrder κ] (keys : List κ) :
    groupCount keys = entries keys keys.count := by
  have hfilter : (keys.dedup.filter fun k => decide (keys.count k ≠ 0)) = keys.dedup :=
    filter_eq_self.2 fun k hk => decide_eq_true
      (count_pos_iff.2 (mem_dedup.1 hk)).ne'
  rw [groupCount, entries, hfilter]

theorem topValues_eq_cut (rows : List EventRecord) (d : Dimension) :
    topValues (rows.map fun r => d.value r) =
      cut dashboardTopLimit (d.values rows) (d.values rows).count := by
  have hcut : cut dashboardTopLimit (d.values rows) (d.values rows).count =
      Counter.lookup (Paging.top Ahead 10 (groupCount (d.values rows))) := by
    rw [groupCount_eq_entries]
    rfl
  rw [hcut]
  rfl

theorem mem_values_of_cut_ne_zero {v : String}
    (h : cut dashboardTopLimit (d.values first) (d.values first).count v +
      cut dashboardTopLimit (d.values second) (d.values second).count v ≠ 0) :
    v ∈ d.values (first ++ second) := by
  have h₁ := cut_le dashboardTopLimit (d.values first) (d.values first).count v
  have h₂ := cut_le dashboardTopLimit (d.values second) (d.values second).count v
  rw [Dimension.values_append, ← count_pos_iff, count_append]
  omega

theorem ranked_merge_iff :
    ranked dashboardTopLimit (d.values (first ++ second)) (fun v =>
        cut dashboardTopLimit (d.values first) (d.values first).count v +
          cut dashboardTopLimit (d.values second) (d.values second).count v) =
      d.topTen (first ++ second) ↔ d.Kept first second := by
  have hcount : (d.values (first ++ second)).count =
      fun v => (d.values first).count v + (d.values second).count v := by
    funext v
    rw [Dimension.values_append, count_append]
  rw [Dimension.topTen, hcount, ranked_add_cut_iff, Dimension.Kept, Dimension.topTen, hcount]
  simp [← pos_iff_ne_zero, Dimension.topTen]

end

/-! ## Intervals -/

section

open EventService.RestoredDashboardAccumulator

variable {intervalSeconds : Nat} {rows : List EventRecord}

theorem bucketStart_eq (h : 0 < intervalSeconds) (t : Time) :
    bucketStart intervalSeconds t = toStartOfInterval intervalSeconds t +
      (if CutUp t intervalSeconds then 1 else 0) * (intervalSeconds * 1000) := by
  rw [bucketStart, tdiv_ediv_eq h, toStartOfInterval, ← interval, mul_assoc, add_mul]

/-- The intervals of restored rows add up to those of ClickHouse, and one interval more for each row
    that is cut up. -/
theorem sum_bucketStart (h : 0 < intervalSeconds) (rows : List EventRecord) :
    (rows.map fun r => bucketStart intervalSeconds r.occurredAt).sum =
      (rows.map fun r => toStartOfInterval intervalSeconds r.occurredAt).sum +
        (rows.countP fun r => decide (CutUp r.occurredAt intervalSeconds)) *
          (intervalSeconds * 1000) := by
  induction rows with
  | nil => simp
  | cons r rows ih =>
    rw [map_cons, map_cons, sum_cons, sum_cons, ih, bucketStart_eq h,
      countP_cons]
    simp only [decide_eq_true_eq]
    push_cast
    ring

theorem perm_bucketStart_iff (h : 0 < intervalSeconds) :
    (rows.map fun r => bucketStart intervalSeconds r.occurredAt).Perm
        (rows.map fun r => toStartOfInterval intervalSeconds r.occurredAt) ↔
      ∀ r ∈ rows, ¬CutUp r.occurredAt intervalSeconds := by
  constructor
  · intro hperm
    have hsum := hperm.sum_eq
    rw [sum_bucketStart h, add_eq_left] at hsum
    have hlength : (intervalSeconds : Int) * 1000 ≠ 0 := by omega
    have hcount := (mul_eq_zero.1 hsum).resolve_right hlength
    intro r hr hcut
    exact countP_eq_zero.1 (Int.natCast_eq_zero.1 hcount) r hr (decide_eq_true hcut)
  · intro hcut
    refine .of_eq (map_congr_left fun r hr => ?_)
    rw [bucketStart_eq h, if_neg (hcut r hr), zero_mul, add_zero]

end

namespace EventService

/-! ## The dashboard -/

section

variable (events : List EventRecord) (catalog : Catalog)
  (objects : ObjectKey → Option ArchiveObject) (from_ to_ : Time) (intervalSeconds : Nat)
  (endpointId : Option Nat)

def dashboardBuckets : List ArchiveBucket :=
  restoredRows (catalog.overlappingAll from_ to_ (endpointId.map fun e => [e]))

def hotRows : List EventRecord := events.filter (dashboardFilter from_ to_ endpointId)

def coldEvents : List EventRecord :=
  (dashboardBuckets catalog from_ to_ endpointId).flatMap
    (dashboardRows objects from_ to_ endpointId)

/-- What there is for a dashboard: the interval is one of those allowed, no archived bucket of the
    range is unready, the restored objects are there, no event id is stored twice, and the restored
    events are within the limit, as recorded and as they are. -/
structure LiveContents : Prop where
  interval : intervalSeconds ∈ [60, 300, 3600, 86400]
  ready : ensureArchiveRowsReady
    (catalog.overlappingAll from_ to_ (endpointId.map fun e => [e])) = .ok ()
  present : ∀ b ∈ dashboardBuckets catalog from_ to_ endpointId,
    (objects b.2.storagePath).isSome = true
  ids : ((events ++ (dashboardBuckets catalog from_ to_ endpointId).flatMap
    (objectRows objects)).map (·.eventId)).Nodup
  recorded : ((dashboardBuckets catalog from_ to_ endpointId).map (·.2.eventCount)).sum ≤
    maxRestoredDashboardEvents
  size : (coldEvents catalog objects from_ to_ endpointId).length ≤ maxRestoredDashboardEvents

variable {events catalog objects from_ to_ intervalSeconds endpointId}

theorem LiveContents.intervalSeconds_pos
    (hc : LiveContents events catalog objects from_ to_ intervalSeconds endpointId) :
    0 < intervalSeconds := by
  have h : ∀ n ∈ [60, 300, 3600, 86400], 0 < n := by decide
  exact h _ hc.interval

theorem dashboardBucket_eq {bucket : ArchiveBucket}
    (h : (objects bucket.2.storagePath).isSome = true) (acc : RestoredDashboardAccumulator) :
    dashboardBucket objects from_ to_ intervalSeconds endpointId acc bucket =
      (dashboardRows objects from_ to_ endpointId bucket).foldlM
        (RestoredDashboardAccumulator.add intervalSeconds) acc := by
  rw [dashboardBucket, exists_readRows h]
  -- The reader has the same conditions that the loop checks again.
  change foldlM _ _ _ = _
  rw [filter_filter, dashboardRows]
  congr 2
  funext r
  simp [readFilter, dashboardRow]

theorem LiveContents.exists_dashboardSummary
    (hc : LiveContents events catalog objects from_ to_ intervalSeconds endpointId) :
    ∃ hot acc, EventRepository.dashboardSummary events from_ to_ intervalSeconds endpointId =
        .ok hot ∧
      (coldEvents catalog objects from_ to_ endpointId).foldlM
        (RestoredDashboardAccumulator.add intervalSeconds) .empty = .ok acc ∧
      dashboardSummary events catalog objects from_ to_ intervalSeconds endpointId =
        .ok (hot.merge acc.result) := by
  obtain ⟨hot, hhot⟩ : ∃ hot,
      EventRepository.dashboardSummary events from_ to_ intervalSeconds endpointId = .ok hot :=
    ⟨_, if_neg (not_not_intro hc.interval)⟩
  have hsize : RestoredDashboardAccumulator.empty.aggregate.totalCount +
      (coldEvents catalog objects from_ to_ endpointId).length ≤ maxRestoredDashboardEvents :=
    (zero_add _).trans_le hc.size
  obtain ⟨acc, hacc⟩ := exists_foldlM_add hsize
  have hloop : (dashboardBuckets catalog from_ to_ endpointId).foldlM
      (dashboardBucket objects from_ to_ intervalSeconds endpointId) .empty = .ok acc :=
    (foldlM_eq_flatMap (fun b hb acc => dashboardBucket_eq (hc.present b hb) acc) _).trans hacc
  refine ⟨hot, acc, hhot, hacc, ?_⟩
  rw [dashboardSummary, hc.ready, hhot]
  refine (if_neg (not_lt.2 hc.recorded)).trans ?_
  rw [dashboardBuckets] at hloop
  rw [hloop]
  rfl

theorem result_counts {rows : List EventRecord} {acc : RestoredDashboardAccumulator}
    (hnodup : (rows.map (·.eventId)).Nodup)
    (h : rows.foldlM (RestoredDashboardAccumulator.add intervalSeconds) .empty = .ok acc) :
    acc.result.totalCount = rows.length ∧
    (∀ e, acc.result.byEventType e = rows.countP fun r => decide (r.eventType = e)) ∧
    (∀ t, acc.result.timeSeries t = rows.countP fun r =>
      decide (RestoredDashboardAccumulator.bucketStart intervalSeconds r.occurredAt = t)) ∧
    ∀ d, acc.result.top d = topValues (rows.map fun r => d.value r) := by
  obtain ⟨haggregate, hdimensions⟩ := foldlM_add hnodup (fun _ _ => not_mem_nil) h
  obtain ⟨htotal, htype, htime⟩ := foldl_addActivity (rows.map fun r => ((r.eventType,
    RestoredDashboardAccumulator.bucketStart intervalSeconds r.occurredAt), 1)) .empty
  simp only [Grouping.total_map_ones] at htotal htype htime
  simp only [RestoredDashboardAccumulator.result, haggregate]
  refine ⟨htotal.trans ?_, fun e => (htype e).trans (zero_add _),
    fun t => (htime t).trans (zero_add _), fun d => ?_⟩
  · rw [countP_true, DashboardEventAggregate.empty, zero_add]
  · rw [hdimensions d]
    rfl

/-- **The live dashboard.** For all contents of ClickHouse and of restored buckets, within the size
    limit: the dashboard has the number of all the events, by type and by interval, and in each top
    list the ten most frequent values of all the events with their counts, if and only if no restored
    event is cut up to the next interval, and each of those values is among the ten of ClickHouse and
    among the ten of the restored events, as far as it occurs there. -/
theorem dashboardSummary_exact_iff
    (hc : LiveContents events catalog objects from_ to_ intervalSeconds endpointId) :
    let hot := hotRows events from_ to_ endpointId
    let cold := coldEvents catalog objects from_ to_ endpointId
    ∃ aggregate, dashboardSummary events catalog objects from_ to_ intervalSeconds endpointId =
        .ok aggregate ∧
      (∀ (d : Dimension) (v : String), aggregate.top d v ≠ 0 → v ∈ d.values (hot ++ cold)) ∧
      (aggregate.Exact (hot ++ cold) intervalSeconds ↔
        (∀ r ∈ cold, ¬CutUp r.occurredAt intervalSeconds) ∧
          ∀ d : Dimension, d.Kept hot cold) := by
  intro hot cold
  obtain ⟨a, acc, ha, hacc, h⟩ := hc.exists_dashboardSummary
  have hnodup : (cold.map (·.eventId)).Nodup := by
    refine hc.ids.sublist (List.Sublist.map _ ?_)
    exact (List.Sublist.flatMap_right _ fun _ _ => filter_sublist).trans
      (sublist_append_right _ _)
  obtain ⟨htotal, htype, htime, htop⟩ := dashboardSummary_counts ha
  obtain ⟨htotal', htype', htime', htop'⟩ := result_counts hnodup hacc
  have hmerge (d : Dimension) : (a.merge acc.result).top d = fun v =>
      cut dashboardTopLimit (d.values hot) (d.values hot).count v +
        cut dashboardTopLimit (d.values cold) (d.values cold).count v := by
    funext v
    rw [← topValues_eq_cut, ← topValues_eq_cut]
    exact congrArg₂ (· + ·) (congrFun (htop d) v) (congrFun (htop' d) v)
  refine ⟨_, h, fun d v hv => ?_, fun hexact => ⟨?_, fun d => ?_⟩, fun ⟨hcut, hkept⟩ => ?_⟩
  · rw [hmerge d] at hv
    exact mem_values_of_cut_ne_zero hv
  · -- The intervals of the restored events are counted as often as they should be.
    rw [← perm_bucketStart_iff hc.intervalSeconds_pos, perm_iff_count]
    intro t
    have hseries := hexact.timeSeries t
    rw [countP_append] at hseries
    have hsum : (a.merge acc.result).timeSeries t = a.timeSeries t + acc.result.timeSeries t := rfl
    rw [hsum, htime t, htime' t] at hseries
    rw [count_eq_countP, count_eq_countP, countP_map, countP_map]
    exact add_left_cancel hseries
  · rw [← ranked_merge_iff, ← hmerge d]
    exact hexact.top d
  · have hperm := (perm_bucketStart_iff hc.intervalSeconds_pos).2 hcut
    refine ⟨?_, fun e => ?_, fun t => ?_, fun d => ?_⟩
    · rw [length_append]
      exact congrArg₂ (· + ·) htotal htotal'
    · rw [countP_append]
      exact congrArg₂ (· + ·) (htype e) (htype' e)
    · rw [countP_append]
      refine congrArg₂ (· + ·) (htime t) ((htime' t).trans ?_)
      have hcount := hperm.countP_eq fun t' => decide (t' = t)
      rwa [countP_map, countP_map] at hcount
    · rw [hmerge d, ranked_merge_iff]
      exact hkept d

end

/-! ## Eleven processes -/

section

theorem liveContents_restoredDay {events : List EventRecord}
    (hids : (events.map EventRecord.eventId ++ [3]).Nodup) :
    LiveContents events restoredDayCatalog restoredObject (dayStart 20635) (dayEnd 20640) 3600
      none where
  interval := by decide
  ready := rfl
  present b hb := (((contents_restoredDay hids).restored) b hb).present
  ids := (contents_restoredDay hids).ids
  recorded := by decide
  size := by decide

/-- Two events of one process, and a restored one: all three are counted. -/
theorem dashboardSummary_exact_iff_restoredDay :
    LiveContents agreedEvents restoredDayCatalog restoredObject (dayStart 20635) (dayEnd 20640) 3600
        none ∧
      ∃ aggregate, dashboardSummary agreedEvents restoredDayCatalog restoredObject (dayStart 20635)
          (dayEnd 20640) 3600 none = .ok aggregate ∧
        aggregate.Exact (agreedEvents ++ [pageEvent 3 (dayStart 20635)]) 3600 := by
  have hc := liveContents_restoredDay
    (by decide : (agreedEvents.map EventRecord.eventId ++ [3]).Nodup)
  obtain ⟨aggregate, h, -, hiff⟩ := dashboardSummary_exact_iff hc
  refine ⟨hc, aggregate, h, hiff.2 ⟨by decide, fun d => ?_⟩⟩
  cases d <;> decide +kernel

def elevenProcesses : List EventRecord :=
  ["a", "b", "c", "d", "e", "f", "g", "h", "i", "j", "sshd"].zipIdx.map fun x =>
    { pageEvent (x.2 + 10) (dayStart 20640) with processName := some x.1 }

/-- The most frequent process of all is the last one of ClickHouse, where it is cut off, and so it is
    not in the top list. -/
theorem most_frequent_value_missing :
    Catalog.catalogSystem.run .empty restoredDay = some restoredDayCatalog ∧
      LiveContents elevenProcesses restoredDayCatalog restoredObject (dayStart 20635)
        (dayEnd 20640) 3600 none ∧
      ∃ aggregate, dashboardSummary elevenProcesses restoredDayCatalog restoredObject
          (dayStart 20635) (dayEnd 20640) 3600 none = .ok aggregate ∧
        let rows := hotRows elevenProcesses (dayStart 20635) (dayEnd 20640) none ++
          coldEvents restoredDayCatalog restoredObject (dayStart 20635) (dayEnd 20640) none
        (Dimension.processes.topTen rows).head? = some ("sshd", 2) ∧
          "sshd" ∉ (ranked dashboardTopLimit (Dimension.processes.values rows)
            (aggregate.top .processes)).map Prod.fst ∧
          ¬aggregate.Exact rows 3600 := by
  refine ⟨rfl, liveContents_restoredDay (by decide), _, rfl, ?_⟩
  intro rows
  have hfirst : (Dimension.processes.topTen rows).head? = some ("sshd", 2) := by decide +kernel
  refine ⟨hfirst, by decide +kernel, fun hexact => ?_⟩
  rw [← hexact.top .processes] at hfirst
  exact absurd hfirst (by decide +kernel)

end

end EventService

end Edr
