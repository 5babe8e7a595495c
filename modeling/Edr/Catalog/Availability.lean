import Edr.Catalog.Run
import Edr.Lib.Intervals

/-!
# The available ranges

`SummaryService.availability` tells the dashboard for which ranges of time there are events: the days
of the buckets that can be queried, merged. A bucket can be read as long as its `HOT` row is live, and
when its archive is restored; it is taken as one with events by the `event_count` of its row. The
guard of the ingest inserts a `HOT` row with a count of 0, which is replaced only when the bucket is
archived.
-/

namespace Edr

open Intervals

/-- The order of the ranges, `ORDER BY bucket_start_at ASC, bucket_end_at ASC`. -/
def RangeLe (x y : Time × Time) : Prop := x.1 < y.1 ∨ x.1 = y.1 ∧ x.2 ≤ y.2

instance : DecidableRel RangeLe := fun _ _ => inferInstanceAs (Decidable (_ ∨ _))

instance : Std.Total RangeLe where
  total x y := by
    unfold RangeLe
    grind

instance : IsTrans (Time × Time) RangeLe where
  trans x y z hxy hyz := by
    unfold RangeLe at *
    grind

namespace Catalog

/-- `%s::bigint[] IS NULL OR endpoint_id = ANY(%s::bigint[])`. -/
def ofEndpoints (endpointIds : Option (List Nat)) (endpointId : Nat) : Bool :=
  endpointIds.all fun ids => decide (endpointId ∈ ids)

def queryableRanges (endpointIds : Option (List Nat)) (c : Catalog) : List (Time × Time) :=
  let hot := c.hot.select fun k r =>
    !r.isDelete && decide (0 < r.eventCount) && ofEndpoints endpointIds k.endpointId
  let archive := c.archive.select fun k r =>
    !r.isDelete && decide (0 < r.eventCount) && decide (r.storageStatus = .restored) &&
      ofEndpoints endpointIds k.endpointId
  ((hot.map fun x => (dayStart x.1.bucketStartAt, x.2.bucketEndAt)) ++
    archive.map fun x => (dayStart x.1.bucketStartAt, x.2.bucketEndAt)).insertionSort RangeLe

def availability (endpointIds : Option (List Nat)) (c : Catalog) : List (Time × Time) :=
  mergeAll (c.queryableRanges endpointIds)

def restored (c : Catalog) (k : BucketKey) : Bool :=
  (c.archive.get? k).any fun r => !r.isDelete && decide (r.storageStatus = .restored)

def readable (c : Catalog) (k : BucketKey) : Bool := c.liveHot k || c.restored k

def counted (c : Catalog) (k : BucketKey) : Bool :=
  ((c.hot.get? k).any fun r => !r.isDelete && decide (0 < r.eventCount)) ||
    (c.archive.get? k).any fun r =>
      !r.isDelete && decide (0 < r.eventCount) && decide (r.storageStatus = .restored)

variable {c : Catalog} {endpointIds : Option (List Nat)} {k : BucketKey} {t : Time}

theorem mem_queryableRanges (hc : c.Inv) {x : Time × Time} :
    x ∈ c.queryableRanges endpointIds ↔ ∃ k, ofEndpoints endpointIds k.endpointId = true ∧
      c.counted k = true ∧ x = (dayStart k.bucketStartAt, dayEnd k.bucketStartAt) := by
  simp only [queryableRanges, List.mem_insertionSort, List.mem_append, List.mem_map, Prod.exists,
    Table.mem_select, counted, Bool.or_eq_true, Option.any_eq_true, Bool.and_eq_true]
  constructor
  · rintro (⟨k, r, ⟨hk, hr, he⟩, rfl⟩ | ⟨k, r, ⟨hk, hr, he⟩, rfl⟩)
    · exact ⟨k, he, .inl ⟨r, hk, hr⟩, by rw [(hc.hot_wellFormed hk).bucketEndAt]⟩
    · exact ⟨k, he, .inr ⟨r, hk, hr⟩, by rw [(hc.archive_wellFormed hk).bucketEndAt]⟩
  · rintro ⟨k, he, ⟨r, hk, hr⟩ | ⟨r, hk, hr⟩, rfl⟩
    · exact .inl ⟨k, r, ⟨hk, hr, he⟩, by rw [(hc.hot_wellFormed hk).bucketEndAt]⟩
    · exact .inr ⟨k, r, ⟨hk, hr, he⟩, by rw [(hc.archive_wellFormed hk).bucketEndAt]⟩

theorem nonempty_queryableRanges (hc : c.Inv) :
    ∀ x ∈ c.queryableRanges endpointIds, x.1 < x.2 := by
  intro x hx
  obtain ⟨k, -, -, rfl⟩ := (mem_queryableRanges hc).1 hx
  exact dayStart_lt_dayEnd k.bucketStartAt

theorem sorted_queryableRanges :
    (c.queryableRanges endpointIds).Pairwise fun a b => a.1 ≤ b.1 := by
  refine (List.pairwise_insertionSort RangeLe _).imp fun h => ?_
  exact h.elim Int.le_of_lt fun h => h.1.le

theorem covers_availability (hc : c.Inv) : Covers (c.availability endpointIds) t ↔
    ∃ k, ofEndpoints endpointIds k.endpointId = true ∧ k.bucketStartAt = dateOf t ∧
      c.counted k = true := by
  rw [availability, covers_mergeAll (nonempty_queryableRanges hc) sorted_queryableRanges]
  constructor
  · rintro ⟨x, hx, ht⟩
    obtain ⟨k, he, hk, rfl⟩ := (mem_queryableRanges hc).1 hx
    exact ⟨k, he, (dateOf_eq_iff.2 ht).symm, hk⟩
  · rintro ⟨k, he, hday, hk⟩
    exact ⟨_, (mem_queryableRanges hc).2 ⟨k, he, hk, rfl⟩, dateOf_eq_iff.1 hday.symm⟩

/-! ## The events that can be read -/

/-- The available ranges are separated. They have all the events that can be read iff each day of
    such an event has a bucket that is counted. -/
theorem availability_spec (h : catalogSystem.Reachable System.always c)
    (endpointIds : Option (List Nat)) (stored : Set EventRecord) :
    Separated (c.availability endpointIds) ∧
    ((∀ r ∈ stored, ofEndpoints endpointIds r.endpointId = true → c.readable r.bucketKey = true →
        Covers (c.availability endpointIds) r.occurredAt) ↔
      ∀ r ∈ stored, ofEndpoints endpointIds r.endpointId = true → c.readable r.bucketKey = true →
        ∃ k, ofEndpoints endpointIds k.endpointId = true ∧ k.bucketStartAt = r.day ∧
          c.counted k = true) := by
  have hc : c.Inv := inv_of_reachable h
  refine ⟨separated_mergeAll (nonempty_queryableRanges hc) sorted_queryableRanges, ?_⟩
  simp only [covers_availability hc]
  rfl

def midnightEvent : EventRecord where
  eventId := 1
  endpointId := 7
  agentId := "agent-7"
  eventType := "PROCESS_EXECUTION"
  occurredAt := dayStart 20635 + 60000
  processName := some "sshd"
  filePath := none
  fileHashSha256 := none
  remoteIp := none
  remoteDomain := none
  dnsQuery := none
  dnsAnswers := none
  l7Protocol := none
  httpHost := none
  tlsSni := none
  payloadSha256 := "d1"
  isDelete := false

/-- Once its bucket is archived, the event is in an available range. -/
theorem availability_spec_archived :
    ∃ c, catalogSystem.run .empty
        [.hotIngest ⟨7, 20635⟩, .record ⟨7, 20635⟩ ⟨20635, 7⟩ 1 512 "d" (dayStart 20636)] = some c ∧
      c.readable midnightEvent.bucketKey = true ∧
      Separated (c.availability (some [7])) ∧
      Covers (c.availability (some [7])) midnightEvent.occurredAt := by
  have hrun : catalogSystem.run .empty
      [.hotIngest ⟨7, 20635⟩, .record ⟨7, 20635⟩ ⟨20635, 7⟩ 1 512 "d" (dayStart 20636)] =
        some _ := rfl
  obtain ⟨hsep, hiff⟩ := availability_spec (System.reachable_of_run hrun) (some [7]) {midnightEvent}
  refine ⟨_, hrun, by decide, hsep, hiff.2 ?_ midnightEvent rfl (by decide) (by decide)⟩
  rintro r rfl - -
  exact ⟨⟨7, 20635⟩, by decide, by decide, by decide⟩

/-- Before that, it can be read, and there is no available range. -/
theorem availability_before_archive :
    ∃ c, catalogSystem.run .empty [.hotIngest ⟨7, 20635⟩] = some c ∧
      ofEndpoints (some [7]) midnightEvent.endpointId = true ∧
      c.readable midnightEvent.bucketKey = true ∧ c.availability (some [7]) = [] ∧
      ¬Covers (c.availability (some [7])) midnightEvent.occurredAt :=
  ⟨_, rfl, by decide, by decide, by decide, not_covers_nil⟩

end Catalog

end Edr
