import Edr.Query.Dashboard
import Edr.Rollup

/-!
# The projection of the rollup

The tables of PostgreSQL that the rollup is kept in, `dashboard_event_rollups` (the activity of each
endpoint and minute, by event type), `dashboard_event_dimension_rollups` (candidates for the top
lists, by the hour) and `dashboard_rollup_coverage`, with the statements that replace a part of them,
and the queries to ClickHouse that the new rows come from.
-/

namespace Edr.Rollup

open List Table Int

/-! ## The source -/

/-- A change of `edr_events`. -/
inductive SourceChange
  | insert (r : EventRecord)
  | drop (d : Day)
  deriving DecidableEq

abbrev Snapshot := List SourceChange

def content : Snapshot → List EventRecord
  | [] => []
  | .insert r :: past => r :: content past
  | .drop d :: past => dropPartition d (content past)

theorem mem_content {σ : Snapshot} {r : EventRecord} (hr : .insert r ∈ σ)
    (hd : .drop r.day ∉ σ) : r ∈ content σ := by
  induction σ with
  | nil => cases hr
  | cons c σ ih =>
    have hd' : .drop r.day ∉ σ := fun h => hd (mem_cons_of_mem c h)
    cases c with
    | insert r' =>
      rcases mem_cons.1 hr with heq | hr
      · cases heq
        exact mem_cons_self
      · exact mem_cons_of_mem r' (ih hr hd')
    | drop d =>
      rcases mem_cons.1 hr with heq | hr
      · cases heq
      · refine mem_dropPartition.2 ⟨ih hr hd', fun heq => hd ?_⟩
        exact heq ▸ mem_cons_self

theorem insert_of_mem_content {σ : Snapshot} {r : EventRecord} (hr : r ∈ content σ) :
    .insert r ∈ σ := by
  induction σ with
  | nil => cases hr
  | cons c σ ih =>
    cases c with
    | insert r' =>
      rcases mem_cons.1 hr with rfl | hr
      · exact mem_cons_self
      · exact mem_cons_of_mem _ (ih hr)
    | drop d => exact mem_cons_of_mem _ (ih (mem_dropPartition.1 hr).1)

/-! ## The queries -/

def eventKey (r : EventRecord) : MinuteKey := ⟨r.endpointId, toStartOfInterval 60 r.occurredAt⟩

/-- What a query is about: a range of time, and some of the endpoints, or all of them. -/
structure Range where
  from_ : Time
  to_ : Time
  endpointIds : Option (List Int)
  deriving DecidableEq

def Range.hasEndpoint (q : Range) (endpointId : Int) : Bool :=
  q.endpointIds.all fun ids => decide (endpointId ∈ ids)

/-- `WHERE occurred_at >= from AND occurred_at < to AND is_delete = 0 AND endpoint_id IN ..`. -/
def Range.selects (q : Range) (r : EventRecord) : Bool :=
  decide (q.from_ ≤ r.occurredAt) && decide (r.occurredAt < q.to_) && !r.isDelete &&
    q.hasEndpoint r.endpointId

/-- `uniqExact(event_id)`. -/
def uniqExact (rows : List EventRecord) : Nat := (rows.map (·.eventId)).dedup.length

structure ActivityRow where
  key : MinuteKey
  eventType : String
  eventCount : Nat

def activityGroup (r : EventRecord) : MinuteKey × String := (eventKey r, r.eventType)

/-- The activity query of `dashboard_rollup_rows`. -/
def activityRows (events : List EventRecord) (q : Range) : List ActivityRow :=
  let rows := events.filter q.selects
  (rows.map activityGroup).dedup.map fun g =>
    ⟨g.1, g.2, uniqExact (rows.filter fun r => decide (activityGroup r = g))⟩

/-- `DASHBOARD_ROLLUP_DIMENSION_BUCKET_SECONDS`. -/
def dimensionBucketSeconds : Nat := 3600

/-- `DASHBOARD_ROLLUP_DIMENSION_CANDIDATE_LIMIT`. -/
def dimensionCandidateLimit : Nat := 50

/-- `_expanded_bucket_bounds`, with the seconds of the dimension buckets. -/
def expandedBucketBounds (q : Range) : Range :=
  let startEpoch := q.from_.tdiv 1000
  let endEpoch := q.to_.tdiv 1000
  let width : Int := dimensionBucketSeconds
  { q with
    from_ := (startEpoch - startEpoch % width) * 1000
    to_ := (if endEpoch % width = 0 then endEpoch else endEpoch + width - endEpoch % width) * 1000 }

structure DimensionGroup where
  endpointId : Int
  bucketStartAt : Time
  dimension : Dimension
  value : String
  deriving DecidableEq

structure DimensionRow where
  group : DimensionGroup
  eventCount : Nat

def dimensions : List Dimension :=
  [.processes, .remoteIps, .domains, .fileHashes, .dnsQueries, .l7Protocols]

/-- The groups that an event counts for: `ARRAY JOIN`, without the empty values. -/
def dimensionGroups (r : EventRecord) : List DimensionGroup :=
  (dimensions.filter fun d => decide (d.value r ≠ "")).map fun d =>
    ⟨r.endpointId, toStartOfInterval dimensionBucketSeconds r.occurredAt, d, d.value r⟩

/-- `LIMIT 50 BY endpoint_id, bucket_start_at, dimension_name`, in the order of the query. -/
def limitCandidates (rows : List DimensionRow) : List DimensionRow :=
  let lists :=
    (rows.map fun x => (x.group.endpointId, x.group.bucketStartAt, x.group.dimension)).dedup
  lists.flatMap fun l =>
    let candidates := rows.filter fun x =>
      decide ((x.group.endpointId, x.group.bucketStartAt, x.group.dimension) = l)
    (candidates.insertionSort fun x y => y.eventCount < x.eventCount ∨
      y.eventCount = x.eventCount ∧ x.group.value ≤ y.group.value).take dimensionCandidateLimit

/-- The dimension query of `dashboard_rollup_rows`. -/
def dimensionRows (events : List EventRecord) (q : Range) : List DimensionRow :=
  let rows := events.filter (expandedBucketBounds q).selects
  limitCandidates ((rows.flatMap dimensionGroups).dedup.map fun g =>
    ⟨g, uniqExact (rows.filter fun r => decide (g ∈ dimensionGroups r))⟩)

/-! ## The tables -/

/-- The rest of a row of `dashboard_event_rollups` and `dashboard_event_dimension_rollups`. -/
structure RollupValue where
  eventCount : Nat
  refreshedAt : Time

/-- `dashboard_rollup_state`, of this rollup. -/
structure RollupState where
  coveredFrom : Time
  coveredThrough : Time
  refreshedAt : Time

/-- The tables of the rollup. A dimension row is also known by the width of its bucket, in seconds,
    and a minute that is covered by the time when that was found. -/
structure Projection where
  activity : Table (MinuteKey × String) RollupValue
  dimensions : Table (DimensionGroup × Nat) RollupValue
  coverage : Table Time Time
  state : Option RollupState

namespace Projection

def empty : Projection := ⟨.empty, .empty, .empty, none⟩

/-- The rows of `dashboard_event_rollups` that are made of those of a query. -/
def activityEntries (rows : List ActivityRow) (refreshedAt : Time) :
    List ((MinuteKey × String) × RollupValue) :=
  rows.map fun x => ((x.key, x.eventType), ⟨x.eventCount, refreshedAt⟩)

def insertActivity (rows : List ActivityRow) (refreshedAt : Time) (p : Projection) : Projection :=
  { p with activity := p.activity.putAll (activityEntries rows refreshedAt) }

/-- The rows of `dashboard_event_dimension_rollups` that are made of those of a query. -/
def dimensionEntries (rows : List DimensionRow) (refreshedAt : Time) :
    List ((DimensionGroup × Nat) × RollupValue) :=
  rows.map fun x => ((x.group, dimensionBucketSeconds), ⟨x.eventCount, refreshedAt⟩)

def insertDimensions (rows : List DimensionRow) (refreshedAt : Time) (p : Projection) :
    Projection :=
  { p with dimensions := p.dimensions.putAll (dimensionEntries rows refreshedAt) }

def recordState (coveredFrom coveredThrough refreshedAt : Time) (p : Projection) : Projection :=
  { p with
    state := some (match p.state with
      | none => ⟨coveredFrom, coveredThrough, refreshedAt⟩
      | some old => ⟨min old.coveredFrom coveredFrom, max old.coveredThrough coveredThrough,
          refreshedAt⟩) }

def minutes (from_ to_ : Time) : List Time :=
  (List.range ((to_ - from_) / minuteLength).toNat).map fun (i : Nat) =>
    from_ + (i : Int) * minuteLength

def recordCoverage (from_ to_ refreshedAt : Time) (p : Projection) : Projection :=
  { p with coverage := p.coverage.putAll ((minutes from_ to_).map fun t => (t, refreshedAt)) }

end Projection

/-- The buckets whose rows `replace_range` deletes. -/
def Range.hasKey (q : Range) (key : MinuteKey) : Bool :=
  decide (q.from_ ≤ key.bucketStartAt) && decide (key.bucketStartAt < q.to_) &&
    q.hasEndpoint key.endpointId

def Projection.replaceRange (q : Range) (activity : List ActivityRow)
    (dimensions : List DimensionRow) (refreshedAt : Time) (p : Projection) :
    Except String Projection :=
  if q.to_ ≤ q.from_ then .error "rollup range must not be empty"
  else if q.from_ % minuteLength ≠ 0 ∨ q.to_ % minuteLength ≠ 0 then
    .error "rollup replacement range must use minute boundaries"
  else
    let expanded := expandedBucketBounds q
    let deleted : Projection := { p with
      activity := p.activity.delete fun k _ => q.hasKey k.1
      dimensions := p.dimensions.delete fun k _ =>
        expanded.hasKey ⟨k.1.endpointId, k.1.bucketStartAt⟩ && decide (k.2 = dimensionBucketSeconds) }
    let replaced := ((deleted.insertActivity activity refreshedAt).insertDimensions dimensions
      refreshedAt).recordState q.from_ q.to_ refreshedAt
    .ok (if q.endpointIds.isNone then replaced.recordCoverage q.from_ q.to_ refreshedAt
      else replaced)

/-- `min` and `max` of some times, which are not none. -/
def earliest (ts : List Time) : Time := ts.min?.getD 0

@[inherit_doc earliest]
def latest (ts : List Time) : Time := ts.max?.getD 0

def Projection.replaceBuckets (keys dimensionKeys : List MinuteKey) (activity : List ActivityRow)
    (dimensions : List DimensionRow) (refreshedAt : Time) (p : Projection) : Projection :=
  if keys.isEmpty then p
  else
    let deleted : Projection := { p with
      activity := p.activity.delete fun k _ => decide (k.1 ∈ keys)
      dimensions := p.dimensions.delete fun k _ =>
        decide ((⟨k.1.endpointId, k.1.bucketStartAt⟩ : MinuteKey) ∈ dimensionKeys) &&
          decide (k.2 = dimensionBucketSeconds) }
    ((deleted.insertActivity activity refreshedAt).insertDimensions dimensions
      refreshedAt).recordState (earliest (keys.map (·.bucketStartAt)))
        (latest (keys.map (·.bucketStartAt)) + minuteLength) refreshedAt

/-! ## What is queried -/

def dimensionBucket (t : Time) : Time :=
  let epoch := t.tdiv 1000
  (epoch - epoch % dimensionBucketSeconds) * 1000

def MinuteKey.dimensionKey (key : MinuteKey) : MinuteKey :=
  ⟨key.endpointId, dimensionBucket key.bucketStartAt⟩

/-- `_dimension_row_key`. -/
def DimensionRow.key (x : DimensionRow) : MinuteKey :=
  .dimensionKey ⟨x.group.endpointId, x.group.bucketStartAt⟩

def ActivityRow.rowKey (x : ActivityRow) : MinuteKey := x.key.normalize

def queryWindow (t : Time) : Time :=
  let bucket := startOfMinute t
  bucket - bucket.tdiv 1000 % 3600 * 1000

def windowRange (windowKeys : List MinuteKey) : Range :=
  let buckets := windowKeys.map (·.bucketStartAt)
  ⟨earliest buckets, latest buckets + minuteLength, some (windowKeys.map (·.endpointId)).dedup⟩

def inWindow (w : Time) (keys : List MinuteKey) : List MinuteKey :=
  keys.filter fun k => decide (queryWindow k.bucketStartAt = w)

/-- The windows of some buckets: the keys of `by_query_window`. -/
def windows (keys : List MinuteKey) : List Time :=
  (keys.map fun k => queryWindow k.bucketStartAt).dedup

/-- The queries of `refresh_buckets`. -/
def queryWindows (keys : List MinuteKey) : List Range :=
  (windows keys).map fun w => windowRange (inWindow w keys)

def bucketDatesForRange (q : Range) : List Day :=
  let first := dateOf q.from_
  let last := dateOf (q.to_ - 1)
  (List.range (last - first + 1).toNat).map fun (i : Nat) => first + (i : Int)

/-- The loop of `_refreshable_range_segments`, and the segment that it leaves open. Each iteration
    goes to the next day, so that the number of the days bounds it. -/
def segmentLoop (frozen : Day → Bool) (to_ : Time) : Nat → Time → Option Time → List (Time × Time)
  | 0, _, currentStart => currentStart.toList.map fun start => (start, to_)
  | n + 1, cursor, currentStart =>
    if cursor < to_ then
      let segmentEnd := min (dayEnd (dateOf cursor)) to_
      if frozen (dateOf cursor) then
        (currentStart.toList.map fun start => (start, cursor)) ++
          segmentLoop frozen to_ n segmentEnd none
      else segmentLoop frozen to_ n segmentEnd (some (currentStart.getD cursor))
    else currentStart.toList.map fun start => (start, to_)

/-- `_refreshable_range_segments`, with the endpoints of the range. -/
def refreshableRangeSegments (frozen : Day → Bool) (q : Range) : List Range :=
  (segmentLoop frozen q.to_ (bucketDatesForRange q).length q.from_ none).map fun s =>
    ⟨s.1, s.2, q.endpointIds⟩

/-! ## The activity query -/

def sourceCount (events : List EventRecord) (key : MinuteKey) (eventType : String) : Nat :=
  uniqExact (events.filter fun r => !r.isDelete && decide (activityGroup r = (key, eventType)))

def Range.Aligned (q : Range) : Prop := q.from_ % minuteLength = 0 ∧ q.to_ % minuteLength = 0

instance (q : Range) : Decidable q.Aligned := inferInstanceAs (Decidable (_ ∧ _))

section

variable {events : List EventRecord} {q : Range} {r : EventRecord} {x : ActivityRow}
  {key : MinuteKey} {eventType : String}

theorem eventKey_eq (r : EventRecord) : eventKey r = ⟨r.endpointId, startOfMinute r.occurredAt⟩ :=
  rfl

theorem normalize_eventKey (r : EventRecord) : (eventKey r).normalize = eventKey r := by
  rw [eventKey_eq, MinuteKey.normalize, startOfMinute_startOfMinute]

theorem date_eventKey (r : EventRecord) : (eventKey r).date = r.day := by
  simp only [eventKey_eq, MinuteKey.date, EventRecord.day, dateOf, startOfMinute, minuteLength,
    dayLength]
  grind

theorem uniqExact_eq_zero {rows : List EventRecord} : uniqExact rows = 0 ↔ rows = [] := by
  rw [uniqExact, length_eq_zero_iff, dedup_eq_nil, map_eq_nil_iff]

theorem hasKey_iff : q.hasKey key = true ↔ q.from_ ≤ key.bucketStartAt ∧
    key.bucketStartAt < q.to_ ∧ q.hasEndpoint key.endpointId = true := by
  simp only [Range.hasKey, Bool.and_eq_true, decide_eq_true_eq, and_assoc]

theorem selects_iff (hq : q.Aligned) :
    q.selects r = true ↔ r.isDelete = false ∧ q.hasKey (eventKey r) = true := by
  obtain ⟨hfrom, hto⟩ := hq
  have hle : q.from_ ≤ r.occurredAt ↔ q.from_ ≤ startOfMinute r.occurredAt := by
    unfold startOfMinute minuteLength at *
    grind
  have hlt : r.occurredAt < q.to_ ↔ startOfMinute r.occurredAt < q.to_ := by
    unfold startOfMinute minuteLength at *
    grind
  simp only [Range.selects, Bool.and_eq_true, decide_eq_true_eq, Bool.not_eq_true', hle, hlt,
    hasKey_iff, eventKey_eq]
  tauto

theorem filter_selects (hq : q.Aligned) (hk : q.hasKey key = true) :
    ((events.filter q.selects).filter fun r => decide (activityGroup r = (key, eventType))) =
      events.filter fun r => !r.isDelete && decide (activityGroup r = (key, eventType)) := by
  rw [filter_filter]
  refine filter_congr fun r _ => ?_
  by_cases hg : activityGroup r = (key, eventType)
  · have hr : eventKey r = key := (Prod.mk.inj hg).1
    rw [Bool.eq_iff_iff, decide_eq_true hg, Bool.true_and, Bool.and_true, selects_iff hq, hr]
    simp [hk]
  · rw [decide_eq_false hg, Bool.false_and, Bool.and_false]

theorem mem_activityRows (hq : q.Aligned) : x ∈ activityRows events q ↔
    q.hasKey x.key = true ∧ x.eventCount = sourceCount events x.key x.eventType ∧
      x.eventCount ≠ 0 := by
  obtain ⟨key, eventType, n⟩ := x
  simp only [activityRows, mem_map, mem_dedup]
  constructor
  · rintro ⟨g, ⟨r, hr, rfl⟩, hx⟩
    obtain ⟨rfl, rfl, rfl⟩ := ActivityRow.mk.inj hx
    have hk := ((selects_iff hq).1 (mem_filter.1 hr).2).2
    refine ⟨hk, congrArg uniqExact (filter_selects hq hk), fun h0 => ?_⟩
    rw [uniqExact_eq_zero] at h0
    exact not_mem_nil (h0 ▸ mem_filter.2 ⟨hr, decide_eq_true rfl⟩)
  · rintro ⟨hk, hn, h0⟩
    -- A count that is not zero is the count of some event.
    rw [hn, sourceCount, ← filter_selects hq hk, ne_eq, uniqExact_eq_zero] at h0
    obtain ⟨r, hr⟩ := exists_mem_of_ne_nil _ h0
    obtain ⟨hr, hg⟩ := mem_filter.1 hr
    refine ⟨_, ⟨r, hr, of_decide_eq_true hg⟩, ?_⟩
    rw [filter_selects hq hk, hn, sourceCount]

theorem rowKey_of_mem (hx : x ∈ activityRows events q) : x.rowKey = x.key := by
  simp only [activityRows, mem_map, mem_dedup] at hx
  obtain ⟨_, ⟨r, _, rfl⟩, rfl⟩ := hx
  exact normalize_eventKey r

end

def processEvent (eventId : UUID) : EventRecord where
  eventId
  endpointId := 7
  agentId := "agent-7"
  eventType := "PROCESS_EXECUTION"
  occurredAt := dayStart 20635 + 61000
  processName := some "sshd"
  filePath := none
  fileHashSha256 := none
  remoteIp := none
  remoteDomain := none
  dnsQuery := none
  dnsAnswers := none
  l7Protocol := none
  httpHost := none
  tlsSni := none
  payloadSha256 := "d1"
  isDelete := false

/-! ## Replacements -/

def Mirrors (activity : Table (MinuteKey × String) RollupValue) (key : MinuteKey)
    (events : List EventRecord) : Prop :=
  ∀ eventType, (activity.get? (key, eventType)).map (·.eventCount) =
    if sourceCount events key eventType = 0 then none
    else some (sourceCount events key eventType)

section

variable {p p' : Projection} {keys dimensionKeys : List MinuteKey} {rows : List ActivityRow}
  {dimensions : List DimensionRow} {now : Time} {q : Range} {key : MinuteKey}
  {events : List EventRecord} {activity : Table (MinuteKey × String) RollupValue}
  {d : MinuteKey → Bool}

open Projection

theorem mirrors_putAll (hk : d key = true)
    (hrows : ∀ eventType n, ⟨key, eventType, n⟩ ∈ rows ↔
      n = sourceCount events key eventType ∧ n ≠ 0) :
    Mirrors ((activity.delete fun k _ => d k.1).putAll (activityEntries rows now)) key
      events := by
  intro eventType
  by_cases h0 : sourceCount events key eventType = 0
  · rw [if_pos h0, get?_putAll_of_not_mem, get?_delete, hk]
    · cases activity.get? (key, eventType) <;> rfl
    · rintro _ hx heq
      obtain ⟨⟨_, _, n⟩, hrow, rfl⟩ := mem_map.1 hx
      cases heq
      obtain ⟨hn, hn0⟩ := (hrows _ n).1 hrow
      exact hn0 (hn.trans h0)
  · rw [if_neg h0]
    -- The rows of this type all have the count of the source.
    rw [get?_putAll_of_mem (r := ⟨sourceCount events key eventType, now⟩)]
    · rfl
    · exact mem_map.2 ⟨_, (hrows eventType _).2 ⟨rfl, h0⟩, rfl⟩
    · rintro _ hx heq
      obtain ⟨⟨_, _, n⟩, hrow, rfl⟩ := mem_map.1 hx
      cases heq
      rw [((hrows _ n).1 hrow).1]

theorem get?_putAll_activityEntries (hk : d key = false) (h : ∀ x ∈ rows, x.key ≠ key)
    (eventType : String) :
    ((activity.delete fun k _ => d k.1).putAll (activityEntries rows now)).get?
      (key, eventType) = activity.get? (key, eventType) := by
  rw [get?_putAll_of_not_mem, get?_delete, hk]
  · cases activity.get? (key, eventType) <;> rfl
  · intro x hx heq
    obtain ⟨y, hy, rfl⟩ := mem_map.1 hx
    exact h y hy (Prod.mk.inj heq).1

theorem get?_putAll_dimensionEntries {table : Table (DimensionGroup × Nat) RollupValue}
    {f : DimensionGroup × Nat → Bool} {g : DimensionGroup} {width : Nat}
    (hk : f (g, width) = false)
    (h : ∀ x ∈ dimensions, (x.group, dimensionBucketSeconds) ≠ (g, width)) :
    ((table.delete fun k _ => f k).putAll (dimensionEntries dimensions now)).get? (g, width) =
      table.get? (g, width) := by
  rw [get?_putAll_of_not_mem, get?_delete, hk]
  · cases table.get? (g, width) <;> rfl
  · intro x hx heq
    obtain ⟨y, hy, rfl⟩ := mem_map.1 hx
    exact h y hy heq

theorem Mirrors.congr {activity' : Table (MinuteKey × String) RollupValue}
    (h : Mirrors activity key events)
    (heq : ∀ eventType, activity'.get? (key, eventType) = activity.get? (key, eventType)) :
    Mirrors activity' key events :=
  fun eventType => (heq eventType).symm ▸ h eventType

theorem exists_replaceRange_iff : (∃ p', p.replaceRange q rows dimensions now = .ok p') ↔
    q.Aligned ∧ q.from_ < q.to_ := by
  unfold replaceRange Range.Aligned
  by_cases hempty : q.to_ ≤ q.from_
  · simp [if_pos hempty, not_lt.2 hempty]
  by_cases hbounds : q.from_ % minuteLength ≠ 0 ∨ q.to_ % minuteLength ≠ 0
  · simp only [if_neg hempty, if_pos hbounds, reduceCtorEq, exists_false, false_iff]
    tauto
  · simp only [if_neg hempty, if_neg hbounds, Except.ok.injEq, exists_eq', true_iff]
    exact ⟨by tauto, not_le.1 hempty⟩

theorem tables_replaceRange (h : p.replaceRange q rows dimensions now = .ok p') :
    p'.activity = (p.activity.delete fun k _ => q.hasKey k.1).putAll (activityEntries rows now) ∧
    p'.dimensions = (p.dimensions.delete fun k _ =>
      (expandedBucketBounds q).hasKey ⟨k.1.endpointId, k.1.bucketStartAt⟩ &&
        decide (k.2 = dimensionBucketSeconds)).putAll (dimensionEntries dimensions now) ∧
    p'.coverage = if q.endpointIds.isNone then
      p.coverage.putAll ((minutes q.from_ q.to_).map fun t => (t, now)) else p.coverage := by
  obtain ⟨⟨hfrom, hto⟩, hlt⟩ := exists_replaceRange_iff.1 ⟨p', h⟩
  have hbounds : ¬(q.from_ % minuteLength ≠ 0 ∨ q.to_ % minuteLength ≠ 0) := by tauto
  rw [replaceRange, if_neg (not_le.2 hlt), if_neg hbounds] at h
  cases h
  cases q.endpointIds <;> exact ⟨rfl, rfl, rfl⟩

theorem activity_replaceRange (h : p.replaceRange q rows dimensions now = .ok p') :
    q.Aligned ∧ p'.activity =
      (p.activity.delete fun k _ => q.hasKey k.1).putAll (activityEntries rows now) :=
  ⟨(exists_replaceRange_iff.1 ⟨p', h⟩).1, (tables_replaceRange h).1⟩

theorem activity_replaceBuckets (hkeys : keys ≠ []) :
    (p.replaceBuckets keys dimensionKeys rows dimensions now).activity =
      (p.activity.delete fun k _ => decide (k.1 ∈ keys)).putAll (activityEntries rows now) := by
  rw [replaceBuckets, if_neg (by rwa [List.isEmpty_iff])]
  rfl

theorem mirrors_replaceRange
    (h : p.replaceRange q (activityRows events q) dimensions now = .ok p')
    (hk : q.hasKey key = true) : Mirrors p'.activity key events := by
  obtain ⟨hq, hp⟩ := activity_replaceRange h
  rw [hp]
  refine mirrors_putAll hk fun eventType n => ?_
  rw [mem_activityRows hq]
  exact and_iff_right hk

theorem get?_replaceRange (h : p.replaceRange q (activityRows events q) dimensions now = .ok p')
    (hk : q.hasKey key = false) (eventType : String) :
    p'.activity.get? (key, eventType) = p.activity.get? (key, eventType) := by
  obtain ⟨hq, hp⟩ := activity_replaceRange h
  rw [hp]
  refine get?_putAll_activityEntries hk (fun x hx heq => ?_) eventType
  rw [mem_activityRows hq, heq, hk] at hx
  cases hx.1

end

/-! ## The queries of `refresh_buckets` -/

section

variable {ts : List Time} {t w : Time} {keys : List MinuteKey} {key : MinuteKey} {q : Range}

theorem earliest_mem (h : ts ≠ []) : earliest ts ∈ ts ∧ ∀ t ∈ ts, earliest ts ≤ t := by
  obtain ⟨a, ha⟩ := Option.isSome_iff_exists.1 (isSome_min?_of_ne_nil h)
  rw [earliest, ha]
  exact min?_eq_some_iff.1 ha

theorem latest_mem (h : ts ≠ []) : latest ts ∈ ts ∧ ∀ t ∈ ts, t ≤ latest ts := by
  obtain ⟨a, ha⟩ := Option.isSome_iff_exists.1 (isSome_max?_of_ne_nil h)
  rw [latest, ha]
  exact max?_eq_some_iff.1 ha

theorem queryWindow_eq (ht : t % minuteLength = 0) : queryWindow t = t / hourLength * hourLength := by
  have hs : startOfMinute t = t := by
    unfold startOfMinute minuteLength at *
    grind
  have hdiv : t.tdiv 1000 = t / 1000 := by
    refine tdiv_eq_ediv_of_dvd (dvd_of_emod_eq_zero ?_)
    unfold minuteLength at ht
    grind
  rw [queryWindow, hs, hdiv]
  unfold minuteLength at ht
  unfold hourLength
  grind

def AlignedKeys (keys : List MinuteKey) : Prop := ∀ k ∈ keys, k.bucketStartAt % minuteLength = 0

theorem mem_inWindow : key ∈ inWindow w keys ↔ key ∈ keys ∧ queryWindow key.bucketStartAt = w := by
  rw [inWindow, mem_filter, decide_eq_true_eq]

theorem mem_windows : w ∈ windows keys ↔ ∃ key ∈ keys, queryWindow key.bucketStartAt = w := by
  rw [windows, mem_dedup, mem_map]

theorem windowRange_bounds (hkeys : AlignedKeys keys) (hw : w ∈ windows keys) :
    (windowRange (inWindow w keys)).Aligned ∧ w ≤ (windowRange (inWindow w keys)).from_ ∧
      (windowRange (inWindow w keys)).to_ ≤ w + hourLength := by
  obtain ⟨key, hk, hkw⟩ := mem_windows.1 hw
  have hne : (inWindow w keys).map (·.bucketStartAt) ≠ [] :=
    ne_nil_of_mem (mem_map_of_mem (mem_inWindow.2 ⟨hk, hkw⟩))
  obtain ⟨k₀, hk₀, he₀⟩ := mem_map.1 (earliest_mem hne).1
  obtain ⟨k₁, hk₁, he₁⟩ := mem_map.1 (latest_mem hne).1
  obtain ⟨hk₀, hw₀⟩ := mem_inWindow.1 hk₀
  obtain ⟨hk₁, hw₁⟩ := mem_inWindow.1 hk₁
  have ha₀ := hkeys k₀ hk₀
  have ha₁ := hkeys k₁ hk₁
  rw [queryWindow_eq ha₀] at hw₀
  rw [queryWindow_eq ha₁] at hw₁
  simp only [windowRange, Range.Aligned, ← he₀, ← he₁]
  unfold hourLength at *
  unfold minuteLength at *
  refine ⟨⟨ha₀, ?_⟩, ?_, ?_⟩ <;> grind

theorem aligned_of_mem_queryWindows (hkeys : AlignedKeys keys) (hq : q ∈ queryWindows keys) :
    q.Aligned := by
  obtain ⟨w, hw, rfl⟩ := mem_map.1 hq
  exact (windowRange_bounds hkeys hw).1

theorem hasKey_windowRange (hk : key ∈ keys) :
    (windowRange (inWindow (queryWindow key.bucketStartAt) keys)).hasKey key = true := by
  have hm : key ∈ inWindow (queryWindow key.bucketStartAt) keys := mem_inWindow.2 ⟨hk, rfl⟩
  have hb := mem_map_of_mem (f := (·.bucketStartAt)) hm
  have hne := ne_nil_of_mem hb
  have hfrom := (earliest_mem hne).2 _ hb
  have hto := (latest_mem hne).2 _ hb
  refine hasKey_iff.2 ⟨hfrom, lt_of_le_of_lt hto (lt_add_of_pos_right _ (by decide)), ?_⟩
  exact decide_eq_true (mem_dedup.2 (mem_map_of_mem hm))

theorem window_of_hasKey (hkeys : AlignedKeys keys) (hk : key ∈ keys) (hw : w ∈ windows keys)
    (h : (windowRange (inWindow w keys)).hasKey key = true) :
    queryWindow key.bucketStartAt = w := by
  obtain ⟨_, hfrom, hto⟩ := windowRange_bounds hkeys hw
  obtain ⟨k', hk', hw'⟩ := mem_windows.1 hw
  obtain ⟨hk₀, hk₁, _⟩ := hasKey_iff.1 h
  -- The bucket is in the hour of the window, and two hours that meet are the same.
  rw [queryWindow_eq (hkeys key hk)]
  rw [queryWindow_eq (hkeys k' hk')] at hw'
  unfold hourLength at *
  grind

theorem nodup_queryWindows (hkeys : AlignedKeys keys) : (queryWindows keys).Nodup := by
  refine .map_on (fun w hw w' hw' heq => ?_) (nodup_dedup _)
  obtain ⟨key, hk, rfl⟩ := mem_windows.1 hw
  exact window_of_hasKey hkeys hk hw' (heq ▸ hasKey_windowRange hk)

/-- Of the queries of `refresh_buckets`, there is one for each bucket. -/
theorem existsUnique_mem_queryWindows (hkeys : AlignedKeys keys) (hk : key ∈ keys) :
    ∃! q, q ∈ queryWindows keys ∧ q.hasKey key = true := by
  refine ⟨_, ⟨mem_map_of_mem (mem_windows.2 ⟨key, hk, rfl⟩), hasKey_windowRange hk⟩, ?_⟩
  rintro _ ⟨hq, hqk⟩
  obtain ⟨w, hw, rfl⟩ := mem_map.1 hq
  rw [window_of_hasKey hkeys hk hw hqk]

/-! ## Buckets -/

structure Read where
  range : Range
  snapshot : Snapshot

def Read.activityRows (x : Read) : List ActivityRow :=
  Rollup.activityRows (content x.snapshot) x.range

def Read.dimensionRows (x : Read) : List DimensionRow :=
  Rollup.dimensionRows (content x.snapshot) x.range

def filteredActivityRows (keys : List MinuteKey) (reads : List Read) : List ActivityRow :=
  (reads.flatMap Read.activityRows).filter fun x => decide (x.rowKey ∈ keys)

def filteredDimensionRows (keys : List MinuteKey) (reads : List Read) : List DimensionRow :=
  (reads.flatMap Read.dimensionRows).filter fun x => decide (x.key ∈ keys.map MinuteKey.dimensionKey)

variable {dimensionKeys : List MinuteKey} {reads : List Read} {x : Read} {row : ActivityRow}
  {p : Projection} {dimensions : List DimensionRow} {now : Time}

theorem mem_filteredActivityRows : row ∈ filteredActivityRows keys reads ↔
    (∃ x ∈ reads, row ∈ x.activityRows) ∧ row.key ∈ keys := by
  rw [filteredActivityRows, mem_filter, mem_flatMap, decide_eq_true_eq]
  refine and_congr_right fun ⟨x, _, hrow⟩ => ?_
  rw [rowKey_of_mem hrow]

theorem existsUnique_read (hkeys : AlignedKeys keys)
    (hreads : reads.map (·.range) = queryWindows keys) (hk : key ∈ keys) :
    ∃! x, x ∈ reads ∧ x.range.hasKey key = true := by
  obtain ⟨q, ⟨hq, hqk⟩, huniq⟩ := existsUnique_mem_queryWindows hkeys hk
  rw [← hreads] at hq huniq
  obtain ⟨x, hx, rfl⟩ := mem_map.1 hq
  refine ⟨x, ⟨hx, hqk⟩, fun y ⟨hy, hyk⟩ => ?_⟩
  have hnodup : (reads.map (·.range)).Nodup := hreads ▸ nodup_queryWindows hkeys
  exact inj_on_of_nodup_map hnodup hy hx (huniq _ ⟨mem_map_of_mem hy, hyk⟩)

theorem mirrors_replaceBuckets (hkeys : AlignedKeys keys)
    (hreads : reads.map (·.range) = queryWindows keys) (hk : key ∈ keys) (hx : x ∈ reads)
    (hxk : x.range.hasKey key = true) :
    Mirrors (p.replaceBuckets keys dimensionKeys (filteredActivityRows keys reads) dimensions
      now).activity key (content x.snapshot) := by
  rw [activity_replaceBuckets (ne_nil_of_mem hk)]
  have haligned : ∀ y ∈ reads, y.range.Aligned := fun y hy =>
    aligned_of_mem_queryWindows hkeys (hreads ▸ mem_map_of_mem hy)
  refine mirrors_putAll (d := fun k => decide (k ∈ keys)) (decide_eq_true hk) fun eventType n => ?_
  rw [mem_filteredActivityRows, and_iff_left hk]
  constructor
  · rintro ⟨y, hy, hrow⟩
    obtain ⟨hyk, hrow⟩ := (mem_activityRows (haligned y hy)).1 hrow
    rwa [(existsUnique_read hkeys hreads hk).unique ⟨hx, hxk⟩ ⟨hy, hyk⟩]
  · exact fun hrow => ⟨x, hx, (mem_activityRows (haligned x hx)).2 ⟨hxk, hrow⟩⟩

theorem get?_replaceBuckets (hk : key ∉ keys) (eventType : String) :
    (p.replaceBuckets keys dimensionKeys (filteredActivityRows keys reads) dimensions
      now).activity.get? (key, eventType) = p.activity.get? (key, eventType) := by
  by_cases hne : keys = []
  · rw [hne]
    rfl
  rw [activity_replaceBuckets hne]
  refine get?_putAll_activityEntries (d := fun k => decide (k ∈ keys)) (decide_eq_false hk)
    (fun row hrow heq => ?_) eventType
  exact hk (heq ▸ (mem_filteredActivityRows.1 hrow).2)

/-! ## The segments of `refresh_range` -/

def InSegments (segments : List (Time × Time)) (t : Time) : Prop :=
  ∃ s ∈ segments, s.1 ≤ t ∧ t < s.2

def AlignedSegments (segments : List (Time × Time)) : Prop :=
  ∀ s ∈ segments, s.1 % minuteLength = 0 ∧ s.2 % minuteLength = 0 ∧ s.1 < s.2

variable {frozen : Day → Bool} {to_ cursor : Time} {start : Option Time} {n : Nat}

theorem dayEnd_aligned (d : Day) : dayEnd d % minuteLength = 0 := by
  unfold dayEnd dayStart dayLength minuteLength
  grind

theorem lt_dayEnd_dateOf (t : Time) : t < dayEnd (dateOf t) := (dateOf_eq_iff.1 rfl).2

theorem dateOf_dayEnd (d : Day) : dateOf (dayEnd d) = d + 1 := by
  unfold dayEnd dayStart dateOf dayLength
  grind

theorem dateOf_eq_of_lt_dayEnd (hle : cursor ≤ t) (hlt : t < dayEnd (dateOf cursor)) :
    dateOf t = dateOf cursor :=
  dateOf_eq_iff.2 ⟨le_trans (dateOf_eq_iff.1 rfl).1 hle, hlt⟩

theorem inSegments_append {l l' : List (Time × Time)} :
    InSegments (l ++ l') t ↔ InSegments l t ∨ InSegments l' t := by
  simp only [InSegments, mem_append, or_and_right, exists_or]

theorem inSegments_open : InSegments (start.toList.map fun start => (start, to_)) t ↔
    ∃ u ∈ start, u ≤ t ∧ t < to_ := by
  cases start <;> simp [InSegments]

def Enough (to_ : Time) (n : Nat) (cursor : Time) : Prop :=
  cursor < to_ → to_ ≤ dayStart (dateOf cursor + n)

theorem Enough.next (h : Enough to_ (n + 1) cursor) (hlt : cursor < to_) :
    Enough to_ n (min (dayEnd (dateOf cursor)) to_) := by
  intro hend
  have hle := h hlt
  rw [min_def] at hend ⊢
  split_ifs at hend ⊢ with hday
  · rw [dateOf_dayEnd]
    refine le_trans hle (le_of_eq (congrArg dayStart ?_))
    push_cast
    grind
  · exact absurd hend (lt_irrefl _)

theorem not_lt_of_enough_zero (h : Enough to_ 0 cursor) : ¬cursor < to_ := by
  intro hlt
  have hle : to_ ≤ dayStart (dateOf cursor) := by simpa using h hlt
  have hday : dayStart (dateOf cursor) ≤ cursor := (dateOf_eq_iff.1 rfl).1
  exact absurd (lt_of_le_of_lt (le_trans hle hday) hlt) (lt_irrefl _)

theorem segmentLoop_of_not_lt (h : ¬cursor < to_) (n : Nat) :
    segmentLoop frozen to_ n cursor start = start.toList.map fun start => (start, to_) := by
  cases n with
  | zero => rfl
  | succ n => rw [segmentLoop, if_neg h]

theorem start_lt_next {next : Time} (hstart : ∀ u ∈ start, u < cursor) (hnext : cursor < next) :
    ∀ u ∈ some (start.getD cursor), u < next := by
  intro u hu
  cases hu
  cases start with
  | none => exact hnext
  | some u => exact lt_trans (hstart u rfl) hnext

theorem inSegments_of_not_lt (hcursor : cursor ≤ to_) (hlt : ¬cursor < to_) (n : Nat) :
    InSegments (segmentLoop frozen to_ n cursor start) t ↔
      (∃ u ∈ start, u ≤ t ∧ t < cursor) ∨
        (cursor ≤ t ∧ t < to_ ∧ frozen (dateOf t) = false) := by
  obtain rfl : cursor = to_ := le_antisymm hcursor (not_lt.1 hlt)
  rw [segmentLoop_of_not_lt hlt, inSegments_open]
  grind

variable (frozen start) in
theorem inSegments_segmentLoop (hn : Enough to_ n cursor) (hcursor : cursor ≤ to_)
    (hstart : ∀ u ∈ start, u < cursor) :
    InSegments (segmentLoop frozen to_ n cursor start) t ↔
      (∃ u ∈ start, u ≤ t ∧ t < cursor) ∨
        (cursor ≤ t ∧ t < to_ ∧ frozen (dateOf t) = false) := by
  induction n generalizing cursor start with
  | zero => exact inSegments_of_not_lt hcursor (not_lt_of_enough_zero hn) 0
  | succ n ih =>
    by_cases hlt : cursor < to_
    swap
    · exact inSegments_of_not_lt hcursor hlt (n + 1)
    have hnext := hn.next hlt
    have hle : min (dayEnd (dateOf cursor)) to_ ≤ to_ := min_le_right _ _
    have hgt : cursor < min (dayEnd (dateOf cursor)) to_ := lt_min (lt_dayEnd_dateOf cursor) hlt
    -- All the instants of this iteration are on one date.
    have hdate : cursor ≤ t → t < min (dayEnd (dateOf cursor)) to_ → dateOf t = dateOf cursor :=
      fun h₀ h₁ => dateOf_eq_of_lt_dayEnd h₀ (lt_of_lt_of_le h₁ (min_le_left _ _))
    rw [segmentLoop, if_pos hlt]
    generalize min (dayEnd (dateOf cursor)) to_ = segmentEnd at *
    by_cases hf : frozen (dateOf cursor) = true
    · rw [if_pos hf, inSegments_append, inSegments_open, ih none hnext hle (by simp)]
      grind
    · rw [if_neg hf, ih _ hnext hle]
      · cases start with
        | none =>
          simp only [Option.getD_none, Option.mem_def, Option.some.injEq, exists_eq_left',
            reduceCtorEq, false_and, exists_false, false_or]
          grind
        | some u =>
          have hu := hstart u rfl
          simp only [Option.getD_some, Option.mem_def, Option.some.injEq, exists_eq_left']
          grind
      · exact start_lt_next hstart hgt

theorem alignedSegments_open (hstart : ∀ u ∈ start, u % minuteLength = 0 ∧ u < t)
    (ht : t % minuteLength = 0) : AlignedSegments (start.toList.map fun start => (start, t)) := by
  intro s hs
  obtain ⟨u, hu, rfl⟩ := mem_map.1 hs
  obtain ⟨ha, hlt⟩ := hstart u (Option.mem_toList.1 hu)
  exact ⟨ha, ht, hlt⟩

theorem alignedSegments_last (hto : to_ % minuteLength = 0) (hle : cursor ≤ to_)
    (hstart : ∀ u ∈ start, u % minuteLength = 0 ∧ u < cursor) :
    AlignedSegments (start.toList.map fun start => (start, to_)) :=
  alignedSegments_open (fun u hu => (hstart u hu).imp_right fun h => lt_of_lt_of_le h hle) hto

theorem segmentEnd_aligned (hto : to_ % minuteLength = 0) (d : Day) :
    min (dayEnd d) to_ % minuteLength = 0 := by
  rw [min_def]
  split_ifs
  · exact dayEnd_aligned d
  · exact hto

theorem alignedSegments_segmentLoop (hto : to_ % minuteLength = 0)
    (hcursor : cursor % minuteLength = 0) (hle : cursor ≤ to_)
    (hstart : ∀ u ∈ start, u % minuteLength = 0 ∧ u < cursor) :
    AlignedSegments (segmentLoop frozen to_ n cursor start) := by
  induction n generalizing cursor start with
  | zero => exact alignedSegments_last hto hle hstart
  | succ n ih =>
    by_cases hlt : cursor < to_
    swap
    · rw [segmentLoop_of_not_lt hlt]
      exact alignedSegments_last hto hle hstart
    have hend := segmentEnd_aligned hto (dateOf cursor)
    have hgt : cursor < min (dayEnd (dateOf cursor)) to_ := lt_min (lt_dayEnd_dateOf cursor) hlt
    have hle' : min (dayEnd (dateOf cursor)) to_ ≤ to_ := min_le_right _ _
    rw [segmentLoop, if_pos hlt]
    by_cases hf : frozen (dateOf cursor) = true
    · rw [if_pos hf]
      intro s hs
      rcases mem_append.1 hs with hs | hs
      · exact alignedSegments_open hstart hcursor s hs
      · exact ih hend hle' (fun u hu => absurd hu (Option.not_mem_none u)) s hs
    · rw [if_neg hf]
      refine ih hend hle' fun u hu => ⟨?_, start_lt_next (fun u hu => (hstart u hu).2) hgt u hu⟩
      cases hu
      cases start with
      | none => exact hcursor
      | some u => exact (hstart u rfl).1

theorem aligned_of_mem_segments {s : Range} (hq : q.Aligned) (hlt : q.from_ < q.to_)
    (hs : s ∈ refreshableRangeSegments frozen q) :
    s.Aligned ∧ s.from_ < s.to_ ∧ s.endpointIds = q.endpointIds := by
  obtain ⟨x, hx, rfl⟩ := mem_map.1 hs
  obtain ⟨h₀, h₁, h₂⟩ := alignedSegments_segmentLoop hq.2 hq.1 (le_of_lt hlt)
    (fun u hu => absurd hu (Option.not_mem_none u)) x hx
  exact ⟨⟨h₀, h₁⟩, h₂, rfl⟩

theorem enough_dates (hlt : q.from_ < q.to_) :
    Enough q.to_ (bucketDatesForRange q).length q.from_ := by
  intro _
  have hlast : q.to_ - 1 < dayEnd (dateOf (q.to_ - 1)) := lt_dayEnd_dateOf _
  have hle : dateOf q.from_ ≤ dateOf (q.to_ - 1) :=
    Int.ediv_le_ediv (by decide) (Int.le_sub_one_of_lt hlt)
  have hlen : dateOf q.from_ + (bucketDatesForRange q).length = dateOf (q.to_ - 1) + 1 := by
    rw [bucketDatesForRange, length_map, length_range, toNat_of_nonneg]
    all_goals grind
  rw [hlen]
  unfold dayEnd dayStart dayLength at *
  grind

theorem exists_segment_iff (hlt : q.from_ < q.to_) :
    (∃ s ∈ refreshableRangeSegments frozen q, s.from_ ≤ t ∧ t < s.to_) ↔
      q.from_ ≤ t ∧ t < q.to_ ∧ frozen (dateOf t) = false := by
  have h := inSegments_segmentLoop frozen (t := t) none (enough_dates hlt)
    (le_of_lt hlt) (fun u hu => absurd hu (Option.not_mem_none u))
  simp only [Option.not_mem_none, false_and, exists_false, false_or] at h
  rw [← h, refreshableRangeSegments]
  simp [InSegments]

end

end Edr.Rollup
