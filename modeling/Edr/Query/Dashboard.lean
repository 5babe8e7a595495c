import Edr.Lib.Grouping
import Edr.Query

/-!
# The dashboard

`EventService.dashboard_summary`, on the live store: the aggregate that ClickHouse computes for the
range, merged with one that is accumulated row by row from the objects of the restored buckets.
-/

namespace Edr

open List Function Nat

inductive Dimension
  | processes
  | remoteIps
  | domains
  | fileHashes
  | dnsQueries
  | l7Protocols
  deriving DecidableEq

def Dimension.value (r : EventRecord) : Dimension → String
  | processes => r.processName.getD ""
  | remoteIps => r.remoteIp.getD ""
  | domains => if r.remoteDomain.getD "" = "" then r.httpHost.getD "" else r.remoteDomain.getD ""
  | fileHashes => r.fileHashSha256.getD ""
  | dnsQueries => r.dnsQuery.getD ""
  | l7Protocols => r.l7Protocol.getD ""

structure DashboardEventAggregate where
  totalCount : Nat
  byEventType : String → Nat
  timeSeries : Time → Nat
  top : Dimension → String → Nat

namespace DashboardEventAggregate

def empty : DashboardEventAggregate := ⟨0, fun _ => 0, fun _ => 0, fun _ _ => 0⟩

/-- `_merge_dashboard_aggregate`. -/
def merge (target source : DashboardEventAggregate) : DashboardEventAggregate where
  totalCount := target.totalCount + source.totalCount
  byEventType e := target.byEventType e + source.byEventType e
  timeSeries t := target.timeSeries t + source.timeSeries t
  top d v := target.top d v + source.top d v

/-- The aggregate with `n` more events of this type and of this bucket of time. -/
def addActivity (a : DashboardEventAggregate) (eventType : String) (bucketStartAt : Time)
    (n : Nat) : DashboardEventAggregate :=
  { a with
    totalCount := a.totalCount + n
    byEventType := update a.byEventType eventType (a.byEventType eventType + n)
    timeSeries := update a.timeSeries bucketStartAt (a.timeSeries bucketStartAt + n) }

end DashboardEventAggregate

/-- `SELECT key, count() .. GROUP BY key`. -/
def groupCount {κ : Type*} [DecidableEq κ] (keys : List κ) : List (κ × Nat) :=
  keys.dedup.map fun k => (k, keys.count k)

/-- The ten most frequent values that are not empty, `ORDER BY event_count DESC, value ASC`, as a
    counter. -/
def topValues (values : List String) (v : String) : Nat :=
  let groups := (groupCount (values.filter fun v => decide (v ≠ ""))).insertionSort fun x y =>
    y.2 < x.2 ∨ y.2 = x.2 ∧ x.1 ≤ y.1
  ((groups.take 10).find? fun x => decide (x.1 = v)).elim 0 (·.2)

/-- The conditions of `EventRepository.dashboard_summary`. -/
def dashboardFilter (from_ to_ : Time) (endpointId : Option Nat) (r : EventRecord) : Bool :=
  decide (from_ ≤ r.occurredAt) && decide (r.occurredAt < to_) && !r.isDelete &&
    endpointId.all fun e => decide (r.endpointId = e)

/-- `toStartOfInterval(occurred_at, INTERVAL n SECOND, 'UTC')`. -/
def toStartOfInterval (intervalSeconds : Nat) (t : Time) : Time :=
  t / (intervalSeconds * 1000) * (intervalSeconds * 1000)

def EventRepository.dashboardSummary (events : List EventRecord) (from_ to_ : Time)
    (intervalSeconds : Nat) (endpointId : Option Nat) :
    Except QueryError DashboardEventAggregate :=
  if intervalSeconds ∉ [60, 300, 3600, 86400] then
    .error (.valueError "unsupported dashboard interval")
  else
    let rows := events.filter (dashboardFilter from_ to_ endpointId)
    let activity := groupCount
      (rows.map fun r => (r.eventType, toStartOfInterval intervalSeconds r.occurredAt))
    let aggregate : DashboardEventAggregate :=
      activity.foldl (fun a x => a.addActivity x.1.1 x.1.2 x.2) .empty
    .ok { aggregate with top := fun d => topValues (rows.map fun r => d.value r) }

namespace EventService

def maxRestoredDashboardEvents : Nat := 1000000

def dashboardTooLarge : QueryError :=
  validationError
    "Restored archive dashboard range is too large; narrow the time range or Endpoint filter."

/-- `_RestoredDashboardAccumulator`: the ids that it has seen, the aggregate, and the values that
    were counted for the top lists. -/
structure RestoredDashboardAccumulator where
  seenEvents : List UUID
  aggregate : DashboardEventAggregate
  dimensions : Dimension → List String

namespace RestoredDashboardAccumulator

def empty : RestoredDashboardAccumulator := ⟨[], .empty, fun _ => []⟩

def bucketStart (intervalSeconds : Nat) (occurredAt : Time) : Time :=
  occurredAt.tdiv 1000 / intervalSeconds * intervalSeconds * 1000

def add (intervalSeconds : Nat) (acc : RestoredDashboardAccumulator) (r : EventRecord) :
    Except QueryError RestoredDashboardAccumulator :=
  if r.eventId ∈ acc.seenEvents then .ok acc
  else if acc.aggregate.totalCount + 1 > maxRestoredDashboardEvents then .error dashboardTooLarge
  else .ok {
    seenEvents := r.eventId :: acc.seenEvents
    aggregate := acc.aggregate.addActivity r.eventType (bucketStart intervalSeconds r.occurredAt) 1
    dimensions := fun d => acc.dimensions d ++ [d.value r] }

def result (acc : RestoredDashboardAccumulator) : DashboardEventAggregate :=
  { acc.aggregate with top := fun d => topValues (acc.dimensions d) }

end RestoredDashboardAccumulator

/-- The loop of `dashboard_summary` over the rows of a bucket. -/
def dashboardBucket (objects : ObjectKey → Option ArchiveObject) (from_ to_ : Time)
    (intervalSeconds : Nat) (endpointId : Option Nat) (acc : RestoredDashboardAccumulator)
    (bucket : ArchiveBucket) : Except QueryError RestoredDashboardAccumulator := do
  let rows ← readRows objects bucket.2.storagePath
    { from_ := some from_, to_ := some to_, endpointId := endpointId }
  (rows.filter fun r => decide (from_ ≤ r.occurredAt) && decide (r.occurredAt < to_) &&
    endpointId.all fun e => decide (r.endpointId = e)).foldlM
      (RestoredDashboardAccumulator.add intervalSeconds) acc

def dashboardSummary (events : List EventRecord) (catalog : Catalog)
    (objects : ObjectKey → Option ArchiveObject) (from_ to_ : Time) (intervalSeconds : Nat)
    (endpointId : Option Nat) : Except QueryError DashboardEventAggregate := do
  let metadataRows := catalog.overlappingAll from_ to_ (endpointId.map fun e => [e])
  ensureArchiveRowsReady metadataRows
  let aggregate ← EventRepository.dashboardSummary events from_ to_ intervalSeconds endpointId
  let restored := restoredRows metadataRows
  let estimatedRestoredCount := (restored.map (·.2.eventCount)).sum
  if estimatedRestoredCount > maxRestoredDashboardEvents then throw dashboardTooLarge
  else
    let acc ← restored.foldlM (dashboardBucket objects from_ to_ intervalSeconds endpointId) .empty
    return aggregate.merge acc.result

end EventService

/-! ## Aggregates -/

section

open Grouping

variable {groups groups' : List ((String × Time) × Nat)}

theorem update_add_apply {κ : Type*} [DecidableEq κ] (counter : κ → Nat) (k k' : κ) (n : Nat) :
    update counter k (counter k + n) k' =
      counter k' + if decide (k = k') then n else 0 := by
  by_cases h : k = k'
  · rw [h, update_self, decide_eq_true rfl, if_pos rfl]
  · rw [update_of_ne (Ne.symm h), decide_eq_false h, if_neg Bool.false_ne_true,
      add_zero]

theorem foldl_addActivity (groups : List ((String × Time) × Nat)) (a : DashboardEventAggregate) :
    let result := groups.foldl (fun a x => a.addActivity x.1.1 x.1.2 x.2) a
    result.totalCount = a.totalCount + total (fun _ => true) groups ∧
    (∀ e, result.byEventType e = a.byEventType e + total (fun k => decide (k.1 = e)) groups) ∧
    ∀ t, result.timeSeries t = a.timeSeries t + total (fun k => decide (k.2 = t)) groups := by
  induction groups generalizing a with
  | nil => exact ⟨rfl, fun _ => rfl, fun _ => rfl⟩
  | cons x groups ih =>
    obtain ⟨htotal, htype, htime⟩ := ih (a.addActivity x.1.1 x.1.2 x.2)
    refine ⟨?_, fun e => ?_, fun t => ?_⟩
    · rw [foldl_cons, htotal, total_cons, if_pos rfl, ← add_assoc]
      rfl
    · rw [foldl_cons, htype, total_cons, ← add_assoc, ← update_add_apply]
      rfl
    · rw [foldl_cons, htime, total_cons, ← add_assoc, ← update_add_apply]
      rfl

theorem foldl_addActivity_congr (h : ∀ P, total P groups = total P groups') :
    let a := groups.foldl (fun a x => a.addActivity x.1.1 x.1.2 x.2) DashboardEventAggregate.empty
    let b := groups'.foldl (fun a x => a.addActivity x.1.1 x.1.2 x.2) DashboardEventAggregate.empty
    a.totalCount = b.totalCount ∧ a.byEventType = b.byEventType ∧ a.timeSeries = b.timeSeries := by
  obtain ⟨htotal, htype, htime⟩ := foldl_addActivity groups .empty
  obtain ⟨htotal', htype', htime'⟩ := foldl_addActivity groups' .empty
  refine ⟨?_, funext fun e => ?_, funext fun t => ?_⟩
  · rw [htotal, htotal', h]
  · rw [htype, htype', h]
  · rw [htime, htime', h]

theorem total_groupCount {κ : Type*} [DecidableEq κ] {P : κ → Bool} (keys : List κ) :
    total P (groupCount keys) = keys.countP P := by
  have hfst : (groupCount keys).map Prod.fst = keys.dedup := by
    rw [groupCount, map_map]
    exact map_id _
  refine total_eq_countP (hfst ▸ nodup_dedup keys) (fun x hx _ => ?_) fun k hk _ => ?_
  · obtain ⟨k, -, rfl⟩ := mem_map.1 hx
    rfl
  · exact hfst ▸ mem_dedup.2 hk

end

/-! ## The total -/

section

variable {ops : TextOps} {objects : ObjectKey → Option ArchiveObject} {from_ to_ : Time}
  {r : EventRecord}

theorem dashboardFilter_iff {endpointId : Option Nat} :
    dashboardFilter from_ to_ endpointId r = true ↔
      ({ endpointId } : EventListQuery).Selects ops from_ to_ r := by
  simp only [dashboardFilter, Bool.and_eq_true, Option.all_eq_true, decide_eq_true_eq,
    Bool.not_eq_true']
  constructor
  · rintro ⟨⟨⟨h₁, h₂⟩, h₃⟩, h₄⟩
    exact ⟨h₁, h₂, h₃, h₄, nofun, nofun, nofun, nofun, nofun, nofun, nofun⟩
  · rintro ⟨h₁, h₂, h₃, h₄⟩
    exact ⟨⟨⟨h₁, h₂⟩, h₃⟩, h₄⟩

def dashboardRow (from_ to_ : Time) (endpointId : Option Nat) (r : EventRecord) : Bool :=
  decide (from_ ≤ r.occurredAt) && decide (r.occurredAt < to_) &&
    endpointId.all fun e => decide (r.endpointId = e)

theorem dashboardRow_iff {endpointId : Option Nat} (hr : r.isDelete = false) :
    dashboardRow from_ to_ endpointId r = true ↔
      ({ endpointId } : EventListQuery).Selects ops from_ to_ r := by
  rw [← dashboardFilter_iff, dashboardFilter, dashboardRow, hr, Bool.not_false, Bool.and_true]

namespace EventService

def dashboardRows (objects : ObjectKey → Option ArchiveObject) (from_ to_ : Time)
    (endpointId : Option Nat) (bucket : ArchiveBucket) : List EventRecord :=
  (objectRows objects bucket).filter (dashboardRow from_ to_ endpointId)

variable {acc : RestoredDashboardAccumulator} {intervalSeconds : Nat}

theorem RestoredDashboardAccumulator.add_eq (hseen : r.eventId ∉ acc.seenEvents) :
    acc.add intervalSeconds r =
      if acc.aggregate.totalCount + 1 > maxRestoredDashboardEvents then .error dashboardTooLarge
      else .ok {
        seenEvents := r.eventId :: acc.seenEvents
        aggregate :=
          acc.aggregate.addActivity r.eventType (bucketStart intervalSeconds r.occurredAt) 1
        dimensions := fun d => acc.dimensions d ++ [d.value r] } :=
  if_neg hseen

theorem foldlM_add {rows : List EventRecord} {acc' : RestoredDashboardAccumulator}
    (hnodup : (rows.map (·.eventId)).Nodup) (hseen : ∀ r ∈ rows, r.eventId ∉ acc.seenEvents)
    (h : rows.foldlM (RestoredDashboardAccumulator.add intervalSeconds) acc = .ok acc') :
    acc'.aggregate = (rows.map fun r => ((r.eventType,
        RestoredDashboardAccumulator.bucketStart intervalSeconds r.occurredAt), 1)).foldl
      (fun a x => a.addActivity x.1.1 x.1.2 x.2) acc.aggregate ∧
    ∀ d, acc'.dimensions d = acc.dimensions d ++ rows.map fun r => d.value r := by
  induction rows generalizing acc with
  | nil =>
    cases h
    exact ⟨rfl, fun d => (append_nil _).symm⟩
  | cons r rows ih =>
    rw [foldlM_cons, bind_eq_ok] at h
    obtain ⟨acc₁, hadd, h⟩ := h
    rw [map_cons, nodup_cons, mem_map] at hnodup
    rw [RestoredDashboardAccumulator.add_eq (hseen r mem_cons_self)] at hadd
    split_ifs at hadd
    cases hadd
    have hseen' : ∀ r' ∈ rows, r'.eventId ∉ r.eventId :: acc.seenEvents := by
      intro r' hr'
      rw [mem_cons, not_or]
      exact ⟨fun he => hnodup.1 ⟨r', hr', he⟩, hseen r' (mem_cons_of_mem _ hr')⟩
    obtain ⟨haggregate, hdimensions⟩ := ih hnodup.2 hseen' h
    refine ⟨haggregate, fun d => ?_⟩
    rw [hdimensions d, append_assoc]
    rfl

theorem exists_foldlM_add {rows : List EventRecord}
    (hsize : acc.aggregate.totalCount + rows.length ≤ maxRestoredDashboardEvents) :
    ∃ acc', rows.foldlM (RestoredDashboardAccumulator.add intervalSeconds) acc = .ok acc' := by
  induction rows generalizing acc with
  | nil => exact ⟨acc, rfl⟩
  | cons r rows ih =>
    rw [length_cons] at hsize
    -- The total grows by one, or not at all where the id was seen.
    obtain ⟨acc₁, hadd, htotal⟩ : ∃ acc₁, acc.add intervalSeconds r = .ok acc₁ ∧
        acc₁.aggregate.totalCount ≤ acc.aggregate.totalCount + 1 := by
      by_cases hseen : r.eventId ∈ acc.seenEvents
      · exact ⟨acc, if_pos hseen, le_succ _⟩
      · rw [RestoredDashboardAccumulator.add_eq hseen, if_neg (by omega)]
        exact ⟨_, rfl, le_rfl⟩
    rw [foldlM_cons, hadd]
    exact ih (by omega)

theorem dashboardSummary_counts {events : List EventRecord} {endpointId : Option Nat}
    {aggregate : DashboardEventAggregate}
    (h : EventRepository.dashboardSummary events from_ to_ intervalSeconds endpointId =
      .ok aggregate) : let rows := events.filter (dashboardFilter from_ to_ endpointId)
    aggregate.totalCount = rows.length ∧
    (∀ e, aggregate.byEventType e = rows.countP fun r => decide (r.eventType = e)) ∧
    (∀ t, aggregate.timeSeries t =
      rows.countP fun r => decide (toStartOfInterval intervalSeconds r.occurredAt = t)) ∧
    ∀ d, aggregate.top d = topValues (rows.map fun r => d.value r) := by
  intro rows
  rw [EventRepository.dashboardSummary] at h
  split_ifs at h
  cases h
  obtain ⟨htotal, htype, htime⟩ := foldl_addActivity
    (groupCount (rows.map fun r => (r.eventType, toStartOfInterval intervalSeconds r.occurredAt)))
    .empty
  refine ⟨htotal.trans ?_, fun e => (htype e).trans ?_, fun t => (htime t).trans ?_, fun d => rfl⟩
  · rw [total_groupCount, countP_true, length_map, DashboardEventAggregate.empty,
      zero_add]
  · rw [total_groupCount, countP_map]
    exact zero_add _
  · rw [total_groupCount, countP_map]
    exact zero_add _

/-- The total of the summary, where the restored rows have different ids. -/
theorem dashboardSummary_total {events : List EventRecord} {catalog : Catalog}
    {endpointId : Option Nat} {aggregate : DashboardEventAggregate}
    (h : dashboardSummary events catalog objects from_ to_ intervalSeconds endpointId =
      .ok aggregate) : let rows := catalog.overlappingAll from_ to_ (endpointId.map fun e => [e])
    let counted := (restoredRows rows).flatMap (dashboardRows objects from_ to_ endpointId)
    restoredRows rows = coldRows rows ∧ ((counted.map (·.eventId)).Nodup →
      aggregate.totalCount =
        events.countP (dashboardFilter from_ to_ endpointId) + counted.length) := by
  intro rows counted
  obtain ⟨⟨⟩, hready, h⟩ := bind_eq_ok.1 h
  obtain ⟨hot, hhot, h⟩ := bind_eq_ok.1 h
  refine ⟨ensureArchiveRowsReady_eq_ok hready, fun hnodup => ?_⟩
  dsimp only at h
  split_ifs at h
  obtain ⟨acc, hacc, h⟩ := bind_eq_ok.1 h
  cases h
  have hadd := foldlM_flatMap (g := dashboardRows objects from_ to_ endpointId)
    (f := RestoredDashboardAccumulator.add intervalSeconds) (fun acc b acc' hb => ?_) hacc
  · have hrestored : acc.aggregate.totalCount = counted.length := by
      rw [(foldlM_add hnodup (fun r _ hr => (by cases hr)) hadd).1, (foldl_addActivity _ _).1,
        Grouping.total_map_ones, countP_true]
      exact zero_add _
    rw [countP_eq_length_filter, ← (dashboardSummary_counts hhot).1, ← hrestored]
    rfl
  · -- The loop over a bucket reads its rows with the same conditions that it then checks.
    obtain ⟨rows, hread, hb⟩ := bind_eq_ok.1 hb
    rw [← hb, readRows_eq_ok hread, filter_filter, dashboardRows]
    congr 2
    funext r
    simp [readFilter, dashboardRow]

end EventService

end

end Edr
