import Edr.Rollup.Projection

/-!
# `refresh_range`

`DashboardRollupSynchronizer.refresh_range` alone, on a source that does not change: it cuts the range
into segments without frozen dates, and replaces the rows of each. What it leaves is said of one
bucket at a time, with `RefreshedOn P`: the buckets that start at an instant of `P` are those of the
source, and the others are as before.
-/

namespace Edr.Rollup

open List Function Table Int

/-! ## The code -/

def dashboardRollupRows (events : List EventRecord) (q : Range) :
    Except String (List ActivityRow × List DimensionRow) :=
  if q.to_ ≤ q.from_ then .error "rollup range must not be empty"
  else .ok (activityRows events q, dimensionRows events q)

structure RollupRefreshResult where
  bucketCount : Nat
  activityRowCount : Nat
  dimensionRowCount : Nat
  refreshedAt : Time
  skippedBucketCount : Int

/-- What `refresh_range` has done so far. -/
structure RangeRefresh where
  projection : Projection
  activityRowCount : Nat
  dimensionRowCount : Nat
  refreshedKeys : List MinuteKey
  refreshedAt : Time

/-- The refresh of one segment, with the time of `self.now()`. -/
def refreshSegment (events : List EventRecord) (s : Range) (now : Time) (x : RangeRefresh) :
    Except String RangeRefresh := do
  let (activity, dimensions) ← dashboardRollupRows events s
  let projection ← x.projection.replaceRange s activity dimensions now
  return {
    projection
    activityRowCount := x.activityRowCount + activity.length
    dimensionRowCount := x.dimensionRowCount + dimensions.length
    refreshedKeys := x.refreshedKeys ++ activity.map ActivityRow.rowKey
    refreshedAt := now }

/-- The loop over the segments; `clock n` is what the `n`th call of `self.now()` returns. -/
def refreshSegments (events : List EventRecord) (clock : Nat → Time) :
    Nat → List Range → RangeRefresh → Except String RangeRefresh
  | _, [], x => .ok x
  | n, s :: segments, x => do
    let x ← refreshSegment events s (clock n) x
    refreshSegments events clock (n + 1) segments x

def rangeMinuteCount (from_ to_ : Time) : Int := (to_ - from_) / minuteLength

/-- `refresh_range`, where `frozen` is what the lookup of the frozen dates finds. -/
def Projection.refreshRange (events : List EventRecord) (frozen : Day → Bool)
    (clock : Nat → Time) (q : Range) (p : Projection) :
    Except String (RollupRefreshResult × Projection) :=
  if q.to_ ≤ q.from_ then .error "rollup range must not be empty"
  else if q.from_ % minuteLength ≠ 0 ∨ q.to_ % minuteLength ≠ 0 then
    .error "rollup refresh range must use minute boundaries"
  else do
    let segments := refreshableRangeSegments frozen q
    let x ← refreshSegments events clock 1 segments ⟨p, 0, 0, [], clock 0⟩
    return ({
      bucketCount := x.refreshedKeys.dedup.length
      activityRowCount := x.activityRowCount
      dimensionRowCount := x.dimensionRowCount
      refreshedAt := x.refreshedAt
      skippedBucketCount := rangeMinuteCount q.from_ q.to_ -
        (segments.map fun s => rangeMinuteCount s.from_ s.to_).sum }, x.projection)

/-! ## Hours -/

def startOfHour (t : Time) : Time := t / hourLength * hourLength

section

variable {q : Range} {t b : Time}

theorem startOfHour_startOfHour (t : Time) : startOfHour (startOfHour t) = startOfHour t := by
  rw [startOfHour, startOfHour, mul_ediv_cancel _ (by decide)]

theorem dateOf_startOfHour (t : Time) : dateOf (startOfHour t) = dateOf t := by
  unfold dateOf startOfHour hourLength dayLength
  grind

theorem dateOf_eq_of_startOfHour (h : startOfHour t = startOfHour b) : dateOf t = dateOf b := by
  rw [← dateOf_startOfHour t, h, dateOf_startOfHour]

theorem tdiv_thousand (h : t % minuteLength = 0) : t.tdiv 1000 = t / 1000 := by
  refine tdiv_eq_ediv_of_dvd (dvd_of_emod_eq_zero ?_)
  unfold minuteLength at h
  grind

theorem expandedBucketBounds_eq (hq : q.Aligned) :
    (expandedBucketBounds q).from_ = startOfHour q.from_ ∧
      (expandedBucketBounds q).to_ = startOfHour (q.to_ + hourLength - minuteLength) := by
  obtain ⟨hfrom, hto⟩ := hq
  simp only [expandedBucketBounds, dimensionBucketSeconds, tdiv_thousand hfrom, tdiv_thousand hto]
  unfold startOfHour
  unfold hourLength minuteLength at *
  refine ⟨by grind, ?_⟩
  split_ifs <;> grind

theorem mem_expandedBucketBounds (hq : q.Aligned) (hlt : q.from_ < q.to_) :
    (expandedBucketBounds q).from_ ≤ b ∧ b < (expandedBucketBounds q).to_ ↔
      ∃ t, (q.from_ ≤ t ∧ t < q.to_) ∧ startOfHour t = startOfHour b := by
  obtain ⟨hfrom, hto⟩ := expandedBucketBounds_eq hq
  obtain ⟨hq₀, hq₁⟩ := hq
  rw [hfrom, hto]
  unfold startOfHour
  unfold hourLength minuteLength at *
  constructor
  · rintro ⟨h₀, h₁⟩
    -- The instant itself, or the end of the range that its hour reaches over.
    by_cases hb : b < q.from_
    · exact ⟨q.from_, ⟨le_refl _, hlt⟩, by grind⟩
    · by_cases hb' : b < q.to_
      · exact ⟨b, ⟨not_lt.1 hb, hb'⟩, rfl⟩
      · exact ⟨q.to_ - 1, by grind, by grind⟩
  · rintro ⟨t, ⟨h₀, h₁⟩, h₂⟩
    grind

/-! ## The dimension query, by the hour -/

def DimensionGroup.list (g : DimensionGroup) : Int × Time × Dimension :=
  (g.endpointId, g.bucketStartAt, g.dimension)

def groupRows (events : List EventRecord) (selected : EventRecord → Bool) : List DimensionRow :=
  ((events.filter selected).flatMap dimensionGroups).dedup.map fun g =>
    ⟨g, uniqExact ((events.filter selected).filter fun r => decide (g ∈ dimensionGroups r))⟩

def hourRows (events : List EventRecord) (t : Time) : List DimensionRow :=
  dimensionRows events ⟨startOfHour t, startOfHour t + hourLength, none⟩

variable {events : List EventRecord} {selected selected' : EventRecord → Bool} {r : EventRecord}
  {g : DimensionGroup} {x y : DimensionRow} {rows : List DimensionRow}

theorem mem_dimensionGroups (h : g ∈ dimensionGroups r) :
    g.endpointId = r.endpointId ∧ g.bucketStartAt = startOfHour r.occurredAt := by
  obtain ⟨d, _, rfl⟩ := mem_map.1 h
  exact ⟨rfl, rfl⟩

theorem filter_dedup {α : Type*} [DecidableEq α] (p : α → Bool) (l : List α) :
    l.dedup.filter p = (l.filter p).dedup := by
  induction l with
  | nil => rfl
  | cons a l ih =>
    by_cases ha : a ∈ l
    · rw [dedup_cons_of_mem ha, ih, filter_cons]
      split_ifs with hp
      · rw [dedup_cons_of_mem (mem_filter.2 ⟨ha, hp⟩)]
      · rfl
    · rw [dedup_cons_of_notMem ha, filter_cons, filter_cons, ih]
      split_ifs with hp
      · rw [dedup_cons_of_notMem fun h => ha (mem_filter.1 h).1]
      · rfl

theorem mem_limitCandidates : x ∈ limitCandidates rows ↔
    x ∈ ((rows.filter fun y => decide (y.group.list = x.group.list)).insertionSort fun x y =>
      y.eventCount < x.eventCount ∨
        y.eventCount = x.eventCount ∧ x.group.value ≤ y.group.value).take
          dimensionCandidateLimit := by
  have hmem {l : Int × Time × Dimension}
      (h : x ∈ ((rows.filter fun y => decide (y.group.list = l)).insertionSort fun x y =>
        y.eventCount < x.eventCount ∨
          y.eventCount = x.eventCount ∧ x.group.value ≤ y.group.value).take
            dimensionCandidateLimit) : x ∈ rows ∧ x.group.list = l := by
    have hx := mem_filter.1 ((perm_insertionSort _ _).mem_iff.1 (mem_of_mem_take h))
    exact ⟨hx.1, of_decide_eq_true hx.2⟩
  rw [limitCandidates, mem_flatMap]
  constructor
  · rintro ⟨l, _, hx⟩
    obtain ⟨_, rfl⟩ := hmem hx
    exact hx
  · intro hx
    refine ⟨x.group.list, mem_dedup.2 (mem_map.2 ⟨x, (hmem hx).1, rfl⟩), hx⟩

theorem mem_groupRows : x ∈ groupRows events selected ↔
    (∃ r ∈ events, selected r = true ∧ x.group ∈ dimensionGroups r) ∧
      x.eventCount = uniqExact ((events.filter selected).filter fun r =>
        decide (x.group ∈ dimensionGroups r)) := by
  obtain ⟨g, n⟩ := x
  simp only [groupRows, mem_map, mem_dedup, mem_flatMap, mem_filter,
    DimensionRow.mk.injEq, and_assoc]
  constructor
  · rintro ⟨g, hr, rfl, rfl⟩
    exact ⟨hr, rfl⟩
  · rintro ⟨hr, hn⟩
    exact ⟨g, hr, rfl, hn.symm⟩

theorem filter_groups_congr {l : Int × Time × Dimension}
    (h : ∀ r ∈ events, (r.endpointId : Int) = l.1 → startOfHour r.occurredAt = l.2.1 →
      selected r = selected' r) :
    ((events.filter selected).flatMap dimensionGroups).filter (fun g => decide (g.list = l)) =
      ((events.filter selected').flatMap dimensionGroups).filter fun g => decide (g.list = l) := by
  induction events with
  | nil => rfl
  | cons r events ih =>
    have ih := ih fun r' hr' => h r' (mem_cons_of_mem r hr')
    by_cases hr : (r.endpointId : Int) = l.1 ∧ startOfHour r.occurredAt = l.2.1
    · rw [filter_cons, filter_cons, h r mem_cons_self hr.1 hr.2]
      split_ifs
      · rw [flatMap_cons, flatMap_cons, filter_append, filter_append, ih]
      · exact ih
    · -- The event has no group of this list.
      have hnil : (dimensionGroups r).filter (fun g => decide (g.list = l)) = [] := by
        rw [filter_eq_nil_iff]
        intro g hg hl
        obtain ⟨he, hb⟩ := mem_dimensionGroups hg
        cases of_decide_eq_true hl
        exact hr ⟨he.symm, hb.symm⟩
      have hdrop (s : EventRecord → Bool) :
          (((r :: events).filter s).flatMap dimensionGroups).filter (fun g => decide (g.list = l)) =
            ((events.filter s).flatMap dimensionGroups).filter fun g => decide (g.list = l) := by
        rw [filter_cons]
        split_ifs
        · rw [flatMap_cons, filter_append, hnil, nil_append]
        · rfl
      rw [hdrop, hdrop, ih]

theorem filter_groupRows_congr {l : Int × Time × Dimension}
    (h : ∀ r ∈ events, (r.endpointId : Int) = l.1 → startOfHour r.occurredAt = l.2.1 →
      selected r = selected' r) :
    (groupRows events selected).filter (fun x => decide (x.group.list = l)) =
      (groupRows events selected').filter fun x => decide (x.group.list = l) := by
  simp only [groupRows, filter_map, comp_def]
  rw [filter_dedup, filter_dedup, filter_groups_congr h]
  refine map_congr_left fun g hg => ?_
  have hl : g.list = l := of_decide_eq_true (mem_filter.1 (mem_dedup.1 hg)).2
  -- The events that count for the group are selected by both.
  rw [filter_filter, filter_filter]
  refine congrArg (fun rows => DimensionRow.mk g (uniqExact rows)) (filter_congr fun r hr => ?_)
  by_cases hgr : g ∈ dimensionGroups r
  · obtain ⟨he, hb⟩ := mem_dimensionGroups hgr
    rw [h r hr (by rw [← hl, ← he]; rfl) (by rw [← hl, ← hb]; rfl)]
  · rw [decide_eq_false hgr, Bool.false_and, Bool.false_and]

theorem dimensionRows_eq (events : List EventRecord) (q : Range) :
    dimensionRows events q = limitCandidates (groupRows events (expandedBucketBounds q).selects) :=
  rfl

theorem mem_groupRows_of_mem_dimensionRows (hx : x ∈ dimensionRows events q) :
    x ∈ groupRows events (expandedBucketBounds q).selects := by
  rw [dimensionRows_eq, mem_limitCandidates] at hx
  exact (mem_filter.1 ((perm_insertionSort _ _).mem_iff.1 (mem_of_mem_take hx))).1

theorem dimensionRows_congr {q q' : Range}
    (h : ∀ r ∈ events, (r.endpointId : Int) = x.group.endpointId →
      startOfHour r.occurredAt = x.group.bucketStartAt →
      (expandedBucketBounds q).selects r = (expandedBucketBounds q').selects r) :
    x ∈ dimensionRows events q ↔ x ∈ dimensionRows events q' := by
  rw [dimensionRows_eq, dimensionRows_eq, mem_limitCandidates, mem_limitCandidates,
    filter_groupRows_congr h]

theorem selects_expanded_iff (hq : q.Aligned) : (expandedBucketBounds q).selects r = true ↔
    r.isDelete = false ∧
      (expandedBucketBounds q).hasKey ⟨r.endpointId, startOfHour r.occurredAt⟩ = true := by
  obtain ⟨hfrom, hto⟩ := expandedBucketBounds_eq hq
  have hle : (expandedBucketBounds q).from_ ≤ r.occurredAt ↔
      (expandedBucketBounds q).from_ ≤ startOfHour r.occurredAt := by
    rw [hfrom]
    unfold startOfHour hourLength
    grind
  have hlt : r.occurredAt < (expandedBucketBounds q).to_ ↔
      startOfHour r.occurredAt < (expandedBucketBounds q).to_ := by
    rw [hto]
    unfold startOfHour hourLength
    grind
  simp only [Range.selects, Bool.and_eq_true, decide_eq_true_eq, Bool.not_eq_true', hle, hlt,
    hasKey_iff]
  tauto

theorem hour_aligned (t : Time) (ids : Option (List Int)) :
    (⟨startOfHour t, startOfHour t + hourLength, ids⟩ : Range).Aligned := by
  unfold Range.Aligned startOfHour hourLength minuteLength
  grind

theorem hasKey_hour (endpointId : Int) (t : Time) :
    (expandedBucketBounds ⟨startOfHour t, startOfHour t + hourLength, none⟩).hasKey
      ⟨endpointId, startOfHour t⟩ = true := by
  obtain ⟨hfrom, hto⟩ := expandedBucketBounds_eq (hour_aligned t none)
  refine hasKey_iff.2 ⟨?_, ?_, rfl⟩
  · rw [hfrom, startOfHour_startOfHour]
  · rw [hto]
    unfold startOfHour hourLength minuteLength
    grind

theorem hasKey_of_mem_dimensionRows (hq : q.Aligned) (hx : x ∈ dimensionRows events q) :
    (expandedBucketBounds q).hasKey ⟨x.group.endpointId, x.group.bucketStartAt⟩ = true ∧
      startOfHour x.group.bucketStartAt = x.group.bucketStartAt := by
  obtain ⟨⟨r, _, hr, hg⟩, _⟩ := mem_groupRows.1 (mem_groupRows_of_mem_dimensionRows hx)
  obtain ⟨he, hb⟩ := mem_dimensionGroups hg
  rw [he, hb, startOfHour_startOfHour]
  exact ⟨((selects_expanded_iff hq).1 hr).2, rfl⟩

theorem mem_dimensionRows_congr {q q' : Range} (hq : q.Aligned) (hq' : q'.Aligned)
    (h : (expandedBucketBounds q).hasKey ⟨x.group.endpointId, x.group.bucketStartAt⟩ = true)
    (h' : (expandedBucketBounds q').hasKey ⟨x.group.endpointId, x.group.bucketStartAt⟩ = true) :
    x ∈ dimensionRows events q ↔ x ∈ dimensionRows events q' := by
  refine dimensionRows_congr fun r _ he hb => ?_
  rw [Bool.eq_iff_iff, selects_expanded_iff hq, selects_expanded_iff hq', he, hb, h, h']

theorem mem_dimensionRows (hq : q.Aligned) : x ∈ dimensionRows events q ↔
    (expandedBucketBounds q).hasKey ⟨x.group.endpointId, x.group.bucketStartAt⟩ = true ∧
      x ∈ hourRows events x.group.bucketStartAt := by
  have hour (hb : startOfHour x.group.bucketStartAt = x.group.bucketStartAt) :
      (expandedBucketBounds ⟨startOfHour x.group.bucketStartAt,
        startOfHour x.group.bucketStartAt + hourLength, none⟩).hasKey
          ⟨x.group.endpointId, x.group.bucketStartAt⟩ = true := by
    have h := hasKey_hour x.group.endpointId x.group.bucketStartAt
    rwa [hb] at h ⊢
  constructor
  · intro hx
    obtain ⟨hk, hb⟩ := hasKey_of_mem_dimensionRows hq hx
    exact ⟨hk, (mem_dimensionRows_congr hq (hour_aligned _ _) hk (hour hb)).1 hx⟩
  · rintro ⟨hk, hx⟩
    obtain ⟨_, hb⟩ := hasKey_of_mem_dimensionRows (hour_aligned _ _) hx
    exact (mem_dimensionRows_congr hq (hour_aligned _ _) hk (hour hb)).2 hx

theorem eq_of_mem_dimensionRows (hx : x ∈ dimensionRows events q) (hy : y ∈ dimensionRows events q)
    (h : x.group = y.group) : x = y := by
  have hx := (mem_groupRows.1 (mem_groupRows_of_mem_dimensionRows hx)).2
  have hy := (mem_groupRows.1 (mem_groupRows_of_mem_dimensionRows hy)).2
  obtain ⟨g, n⟩ := x
  obtain ⟨g', n'⟩ := y
  cases h
  rw [DimensionRow.mk.injEq]
  exact ⟨rfl, hx.trans hy.symm⟩

/-! ## What a refresh leaves -/

def hourCount (events : List EventRecord) (g : DimensionGroup) : Option Nat :=
  ((hourRows events g.bucketStartAt).find? fun x => decide (x.group = g)).map (·.eventCount)

/-- The tables `p'` are refreshed from `p` where the instants are in `P`. -/
structure RefreshedOn (events : List EventRecord) (P : Time → Prop) (p p' : Projection) : Prop where
  /-- The activity of the minutes in `P` is that of the source. -/
  activity : ∀ key : MinuteKey, P key.bucketStartAt → Mirrors p'.activity key events
  activity_frame : ∀ key : MinuteKey, ¬P key.bucketStartAt → ∀ eventType,
    p'.activity.get? (key, eventType) = p.activity.get? (key, eventType)
  /-- The rows of an hour that meets `P` are those of the full hour in the source. -/
  dimensions : ∀ g : DimensionGroup, (∃ t, P t ∧ startOfHour t = startOfHour g.bucketStartAt) →
    (p'.dimensions.get? (g, dimensionBucketSeconds)).map (·.eventCount) = hourCount events g
  dimensions_frame : ∀ (g : DimensionGroup) (width : Nat), ¬(width = dimensionBucketSeconds ∧
      ∃ t, P t ∧ startOfHour t = startOfHour g.bucketStartAt) →
    p'.dimensions.get? (g, width) = p.dimensions.get? (g, width)
  /-- The minutes in `P` are covered. -/
  coverage : ∀ t, P t → t % minuteLength = 0 → (p'.coverage.get? t).isSome = true
  coverage_frame : ∀ t, ¬(P t ∧ t % minuteLength = 0) → p'.coverage.get? t = p.coverage.get? t

structure AgreeOn (d : Day) (p p' : Projection) : Prop where
  activity : ∀ key : MinuteKey, key.date = d → ∀ eventType,
    p'.activity.get? (key, eventType) = p.activity.get? (key, eventType)
  dimensions : ∀ g : DimensionGroup, dateOf g.bucketStartAt = d → ∀ width,
    p'.dimensions.get? (g, width) = p.dimensions.get? (g, width)
  coverage : ∀ t, dateOf t = d → p'.coverage.get? t = p.coverage.get? t

variable {P Q : Time → Prop} {p p' p'' : Projection} {d : Day}

theorem RefreshedOn.refl (events : List EventRecord) (p : Projection) :
    RefreshedOn events (fun _ => False) p p :=
  ⟨nofun, fun _ _ _ => rfl, nofun, fun _ _ _ => rfl, nofun, fun _ _ => rfl⟩

theorem RefreshedOn.congr (h : RefreshedOn events P p p') (hPQ : ∀ t, P t ↔ Q t) :
    RefreshedOn events Q p p' := by
  obtain rfl : P = Q := funext fun t => propext (hPQ t)
  exact h

theorem RefreshedOn.trans (h : RefreshedOn events P p p') (h' : RefreshedOn events Q p' p'') :
    RefreshedOn events (fun t => P t ∨ Q t) p p'' where
  activity key hk := by
    by_cases hq : Q key.bucketStartAt
    · exact h'.activity key hq
    · exact (h.activity key (hk.resolve_right hq)).congr (h'.activity_frame key hq)
  activity_frame key hk eventType := by
    rw [not_or] at hk
    rw [h'.activity_frame key hk.2, h.activity_frame key hk.1]
  dimensions g hg := by
    by_cases hq : ∃ t, Q t ∧ startOfHour t = startOfHour g.bucketStartAt
    · exact h'.dimensions g hq
    · rw [h'.dimensions_frame g _ fun hx => hq hx.2]
      obtain ⟨t, ht | ht, heq⟩ := hg
      · exact h.dimensions g ⟨t, ht, heq⟩
      · exact absurd ⟨t, ht, heq⟩ hq
  dimensions_frame g width hg := by
    rw [h'.dimensions_frame g width, h.dimensions_frame g width]
    · exact fun ⟨hw, t, ht, heq⟩ => hg ⟨hw, t, .inl ht, heq⟩
    · exact fun ⟨hw, t, ht, heq⟩ => hg ⟨hw, t, .inr ht, heq⟩
  coverage t ht ha := by
    by_cases hq : Q t
    · exact h'.coverage t hq ha
    · rw [h'.coverage_frame t fun hx => hq hx.1]
      exact h.coverage t (ht.resolve_right hq) ha
  coverage_frame t ht := by
    rw [h'.coverage_frame t, h.coverage_frame t]
    · exact fun hx => ht ⟨.inl hx.1, hx.2⟩
    · exact fun hx => ht ⟨.inr hx.1, hx.2⟩

theorem RefreshedOn.agreeOn (h : RefreshedOn events P p p') (hd : ∀ t, P t → dateOf t ≠ d) :
    AgreeOn d p p' where
  activity key hk := h.activity_frame key fun hP => hd _ hP hk
  dimensions g hg width := by
    refine h.dimensions_frame g width fun ⟨_, t, ht, heq⟩ => hd t ht ?_
    rw [dateOf_eq_of_startOfHour heq, hg]
  coverage t ht := h.coverage_frame t fun hx => hd t hx.1 ht

end

/-! ## One segment -/

section

open Projection

variable {events : List EventRecord} {p p' : Projection} {q : Range} {now : Time}
  {g : DimensionGroup} {width : Nat} {t : Time}

theorem mem_minutes {from_ to_ : Time} : t ∈ minutes from_ to_ ↔
    from_ ≤ t ∧ t + minuteLength ≤ to_ ∧ (t - from_) % minuteLength = 0 := by
  simp only [minutes, mem_map, mem_range]
  constructor
  · rintro ⟨i, hi, rfl⟩
    unfold minuteLength at *
    grind
  · rintro ⟨hle, hto, hmod⟩
    refine ⟨((t - from_) / minuteLength).toNat, ?_, ?_⟩ <;> unfold minuteLength at * <;> grind

theorem count_putAll_dimensionEntries {table : Table (DimensionGroup × Nat) RollupValue}
    {f : DimensionGroup × Nat → Bool} {rows : List DimensionRow}
    (hk : f (g, dimensionBucketSeconds) = true)
    (hrows : ∀ n, ⟨g, n⟩ ∈ rows ↔ ⟨g, n⟩ ∈ hourRows events g.bucketStartAt) :
    (((table.delete fun k _ => f k).putAll (dimensionEntries rows now)).get?
      (g, dimensionBucketSeconds)).map (·.eventCount) = hourCount events g := by
  rw [hourCount]
  rcases hfind : (hourRows events g.bucketStartAt).find? fun x => decide (x.group = g) with _ | x
  · -- The group has no row, and those of before are deleted.
    rw [hfind, get?_putAll_of_not_mem, get?_delete, hk]
    · cases table.get? (g, dimensionBucketSeconds) <;> rfl
    · intro y hy heq
      obtain ⟨x, hx, rfl⟩ := mem_map.1 hy
      cases heq
      exact absurd (decide_eq_true rfl) (find?_eq_none.1 hfind x ((hrows _).1 hx))
  · have hx := mem_of_find?_eq_some hfind
    have hxg : x.group = g := by simpa using find?_some hfind
    subst hxg
    rw [hfind, get?_putAll_of_mem (r := ⟨x.eventCount, now⟩)]
    · rfl
    · exact mem_map.2 ⟨x, (hrows _).2 hx, rfl⟩
    · intro y hy heq
      obtain ⟨⟨g, n⟩, hz, rfl⟩ := mem_map.1 hy
      cases heq
      rw [eq_of_mem_dimensionRows ((hrows n).1 hz) hx rfl]

theorem get?_coverage_replaceRange {rows : List ActivityRow} {dimensions : List DimensionRow}
    (h : p.replaceRange q rows dimensions now = .ok p') (ht : t ∉ minutes q.from_ q.to_) :
    p'.coverage.get? t = p.coverage.get? t := by
  rw [(tables_replaceRange h).2.2]
  split_ifs
  · refine get?_putAll_of_not_mem (fun x hx heq => ht ?_) _
    obtain ⟨u, hu, rfl⟩ := mem_map.1 hx
    exact heq ▸ hu
  · rfl

variable (h : p.replaceRange q (activityRows events q) (dimensionRows events q) now = .ok p')

include h

theorem dimensions_replaceRange
    (hk : (expandedBucketBounds q).hasKey ⟨g.endpointId, g.bucketStartAt⟩ = true) :
    (p'.dimensions.get? (g, dimensionBucketSeconds)).map (·.eventCount) = hourCount events g := by
  have hq := (exists_replaceRange_iff.1 ⟨p', h⟩).1
  rw [(tables_replaceRange h).2.1]
  refine count_putAll_dimensionEntries ?_ fun n => ?_
  · rw [hk, decide_eq_true rfl, Bool.and_self]
  · rw [mem_dimensionRows hq, and_iff_right hk]

theorem get?_dimensions_replaceRange
    (hk : ¬(width = dimensionBucketSeconds ∧
      (expandedBucketBounds q).hasKey ⟨g.endpointId, g.bucketStartAt⟩ = true)) :
    p'.dimensions.get? (g, width) = p.dimensions.get? (g, width) := by
  have hq := (exists_replaceRange_iff.1 ⟨p', h⟩).1
  rw [(tables_replaceRange h).2.1]
  refine get?_putAll_dimensionEntries ?_ fun x hx heq => ?_
  · rw [← Bool.not_eq_true, Bool.and_eq_true, decide_eq_true_eq, and_comm]
    exact hk
  · cases heq
    exact hk ⟨rfl, ((mem_dimensionRows hq).1 hx).1⟩

theorem coverage_replaceRange (hids : q.endpointIds = none) (ht : t ∈ minutes q.from_ q.to_) :
    (p'.coverage.get? t).isSome = true := by
  rw [(tables_replaceRange h).2.2, hids, Option.isNone_none, if_pos rfl,
    get?_putAll_of_mem (r := now) (mem_map.2 ⟨t, ht, rfl⟩), Option.isSome_some]
  intro x hx _
  obtain ⟨u, _, rfl⟩ := mem_map.1 hx
  rfl

theorem refreshedOn_replaceRange (hids : q.endpointIds = none) :
    RefreshedOn events (fun t => q.from_ ≤ t ∧ t < q.to_) p p' := by
  obtain ⟨hq, hlt⟩ := exists_replaceRange_iff.1 ⟨p', h⟩
  have hends (q' : Range) (hids' : q'.endpointIds = none) (endpointId : Int) :
      q'.hasEndpoint endpointId = true := by
    rw [Range.hasEndpoint, hids', Option.all_none]
  have hkey (key : MinuteKey) : q.hasKey key = true ↔
      q.from_ ≤ key.bucketStartAt ∧ key.bucketStartAt < q.to_ := by
    rw [hasKey_iff, and_iff_left (hends q hids key.endpointId)]
  have hhour (g : DimensionGroup) :
      (expandedBucketBounds q).hasKey ⟨g.endpointId, g.bucketStartAt⟩ = true ↔
        ∃ t, (q.from_ ≤ t ∧ t < q.to_) ∧ startOfHour t = startOfHour g.bucketStartAt := by
    rw [hasKey_iff, and_iff_left (hends (expandedBucketBounds q) hids g.endpointId),
      mem_expandedBucketBounds hq hlt]
  have hminute (t : Time) : t ∈ minutes q.from_ q.to_ ↔
      (q.from_ ≤ t ∧ t < q.to_) ∧ t % minuteLength = 0 := by
    rw [mem_minutes]
    obtain ⟨h₀, h₁⟩ := hq
    unfold minuteLength at *
    grind
  exact {
    activity := fun key hk => mirrors_replaceRange h ((hkey key).2 hk)
    activity_frame := fun key hk => get?_replaceRange h (by rwa [← Bool.not_eq_true, hkey])
    dimensions := fun g hg => dimensions_replaceRange h ((hhour g).2 hg)
    dimensions_frame := fun g width hg => get?_dimensions_replaceRange h (by rwa [hhour])
    coverage := fun t ht ha => coverage_replaceRange h hids ((hminute t).2 ⟨ht, ha⟩)
    coverage_frame := fun t ht => get?_coverage_replaceRange h (by rwa [hminute]) }

end

/-! ## The minutes that are skipped -/

def frozenMinutes (frozen : Day → Bool) (from_ to_ : Time) : Nat :=
  (Projection.minutes from_ to_).countP fun t => frozen (dateOf t)

section

variable {frozen : Day → Bool} {a b c to_ cursor : Time} {start : Option Time} {n : Nat}

theorem rangeMinuteCount_add (ha : a % minuteLength = 0) (hb : b % minuteLength = 0) :
    rangeMinuteCount a b + rangeMinuteCount b c = rangeMinuteCount a c := by
  unfold rangeMinuteCount
  unfold minuteLength at *
  grind

theorem minutes_append (ha : a % minuteLength = 0) (hb : b % minuteLength = 0) (hab : a ≤ b)
    (hbc : b ≤ c) :
    Projection.minutes a c = Projection.minutes a b ++ Projection.minutes b c := by
  have hlen : ((c - a) / minuteLength).toNat =
      ((b - a) / minuteLength).toNat + ((c - b) / minuteLength).toNat := by
    unfold minuteLength at *
    grind
  have hshift : a + (((b - a) / minuteLength).toNat : Int) * minuteLength = b := by
    unfold minuteLength at *
    grind
  rw [Projection.minutes, hlen, range_add, map_append, map_map]
  refine congrArg _ (map_congr_left fun i _ => ?_)
  rw [comp_apply, Int.natCast_add, Int.add_mul, ← Int.add_assoc, hshift]

variable (frozen) in
theorem frozenMinutes_of_date (hab : a ≤ b) (hdate : ∀ t, a ≤ t → t < b → dateOf t = dateOf a) :
    (frozenMinutes frozen a b : Int) =
      if frozen (dateOf a) then rangeMinuteCount a b else 0 := by
  have hmem : ∀ t ∈ Projection.minutes a b, frozen (dateOf t) = frozen (dateOf a) := by
    intro t ht
    obtain ⟨h₀, h₁, _⟩ := mem_minutes.1 ht
    rw [hdate t h₀ (lt_of_lt_of_le (lt_add_of_pos_right t (by decide)) h₁)]
  rw [frozenMinutes, countP_congr fun t ht => by rw [hmem t ht]]
  split_ifs with hf
  · rw [hf, countP_true, Projection.minutes, length_map, length_range,
      toNat_of_nonneg]
    · rfl
    · unfold minuteLength
      grind
  · rw [Bool.not_eq_true] at hf
    rw [hf, countP_false]
    rfl

theorem sum_segmentLoop (hn : Enough to_ n cursor) (hto : to_ % minuteLength = 0)
    (hcursor : cursor % minuteLength = 0) (hle : cursor ≤ to_)
    (hstart : ∀ u ∈ start, u % minuteLength = 0) :
    ((segmentLoop frozen to_ n cursor start).map fun s => rangeMinuteCount s.1 s.2).sum +
      frozenMinutes frozen cursor to_ =
    (start.toList.map fun u => rangeMinuteCount u cursor).sum + rangeMinuteCount cursor to_ := by
  -- At the end of the range there is the open segment only.
  have hdone {n : Nat} {cursor : Time} {start : Option Time} (hle : cursor ≤ to_)
      (hlt : ¬cursor < to_) :
      ((segmentLoop frozen to_ n cursor start).map fun s => rangeMinuteCount s.1 s.2).sum +
        frozenMinutes frozen cursor to_ =
      (start.toList.map fun u => rangeMinuteCount u cursor).sum + rangeMinuteCount cursor to_ := by
    obtain rfl : cursor = to_ := le_antisymm hle (not_lt.1 hlt)
    rw [segmentLoop_of_not_lt hlt, map_map, frozenMinutes, Projection.minutes, rangeMinuteCount,
      sub_self]
    rfl
  induction n generalizing cursor start with
  | zero => exact hdone hle (not_lt_of_enough_zero hn)
  | succ n ih =>
    by_cases hlt : cursor < to_
    swap
    · exact hdone hle hlt
    have hnext := hn.next hlt
    have hend := segmentEnd_aligned hto (dateOf cursor)
    have hle' : min (dayEnd (dateOf cursor)) to_ ≤ to_ := min_le_right _ _
    have hgt : cursor < min (dayEnd (dateOf cursor)) to_ := lt_min (lt_dayEnd_dateOf cursor) hlt
    have hdate : ∀ t, cursor ≤ t → t < min (dayEnd (dateOf cursor)) to_ →
        dateOf t = dateOf cursor := fun t h₀ h₁ =>
      dateOf_eq_of_lt_dayEnd h₀ (lt_of_lt_of_le h₁ (min_le_left _ _))
    rw [segmentLoop, if_pos hlt]
    generalize min (dayEnd (dateOf cursor)) to_ = segmentEnd at *
    -- The minutes up to the end of the date, and those after it.
    have hday := frozenMinutes_of_date frozen (le_of_lt hgt) hdate
    have hsplit : (frozenMinutes frozen cursor to_ : Int) =
        frozenMinutes frozen cursor segmentEnd + frozenMinutes frozen segmentEnd to_ := by
      rw [frozenMinutes, minutes_append hcursor hend (le_of_lt hgt) hle', countP_append]
      rfl
    have hcount := rangeMinuteCount_add (c := to_) hcursor hend
    by_cases hf : frozen (dateOf cursor) = true
    · rw [if_pos hf] at hday ⊢
      have hrest := @ih segmentEnd none hnext hend hle' fun u hu => absurd hu (Option.not_mem_none u)
      rw [map_append, sum_append, map_map, hsplit]
      simp only [Option.toList_none, map_nil, sum_nil, zero_add] at hrest
      have hopen : (start.toList.map ((fun s : Time × Time => rangeMinuteCount s.1 s.2) ∘
          fun start => (start, cursor))).sum =
          (start.toList.map fun u => rangeMinuteCount u cursor).sum := rfl
      omega
    · rw [if_neg hf] at hday ⊢
      have hrest := @ih segmentEnd (some (start.getD cursor)) hnext hend hle' (by
        rintro u hu
        cases hu
        cases start with
        | none => exact hcursor
        | some u => exact hstart u rfl)
      rw [hsplit]
      cases start with
      | none =>
        simp only [Option.getD_none, Option.toList_some, Option.toList_none, map_cons,
          map_nil, sum_cons, sum_nil] at hrest ⊢
        omega
      | some u =>
        have hu := rangeMinuteCount_add (c := segmentEnd) (hstart u rfl) hcursor
        simp only [Option.getD_some, Option.toList_some, map_cons, map_nil,
          sum_cons, sum_nil] at hrest ⊢
        omega

/-! ## The whole range -/

variable {events : List EventRecord} {clock : Nat → Time} {q : Range}

theorem refreshSegment_spec {s : Range} (hs : s.Aligned) (hlt : s.from_ < s.to_)
    (hids : s.endpointIds = none) (now : Time) (x : RangeRefresh) :
    ∃ x', refreshSegment events s now x = .ok x' ∧
      RefreshedOn events (fun t => s.from_ ≤ t ∧ t < s.to_) x.projection x'.projection := by
  obtain ⟨p', hp⟩ : ∃ p', x.projection.replaceRange s (activityRows events s)
      (dimensionRows events s) now = .ok p' := exists_replaceRange_iff.2 ⟨hs, hlt⟩
  have hx : refreshSegment events s now x = .ok {
      projection := p'
      activityRowCount := x.activityRowCount + (activityRows events s).length
      dimensionRowCount := x.dimensionRowCount + (dimensionRows events s).length
      refreshedKeys := x.refreshedKeys ++ (activityRows events s).map ActivityRow.rowKey
      refreshedAt := now } := by
    rw [refreshSegment, dashboardRollupRows, if_neg (not_le.2 hlt)]
    simp only [bind, Except.bind, hp]
    rfl
  exact ⟨_, hx, refreshedOn_replaceRange hp hids⟩

variable (events clock) in
theorem refreshSegments_spec {segments : List Range}
    (hs : ∀ s ∈ segments, s.Aligned ∧ s.from_ < s.to_ ∧ s.endpointIds = none) (n : Nat)
    (x : RangeRefresh) : ∃ x', refreshSegments events clock n segments x = .ok x' ∧
      RefreshedOn events (fun t => ∃ s ∈ segments, s.from_ ≤ t ∧ t < s.to_)
        x.projection x'.projection := by
  induction segments generalizing n x with
  | nil => exact ⟨x, rfl, (RefreshedOn.refl events x.projection).congr (by simp)⟩
  | cons s segments ih =>
    obtain ⟨ha, hlt, hids⟩ := hs s mem_cons_self
    obtain ⟨x₁, hx₁, hr₁⟩ := refreshSegment_spec ha hlt hids (clock n) x
    obtain ⟨x₂, hx₂, hr₂⟩ := ih (fun s' hs' => hs s' (mem_cons_of_mem s hs')) (n + 1) x₁
    refine ⟨x₂, ?_, (hr₁.trans hr₂).congr fun t => by simp⟩
    rw [refreshSegments, hx₁]
    exact hx₂

theorem sum_segments (hq : q.Aligned) (hlt : q.from_ < q.to_) :
    rangeMinuteCount q.from_ q.to_ - ((refreshableRangeSegments frozen q).map fun s =>
      rangeMinuteCount s.from_ s.to_).sum = frozenMinutes frozen q.from_ q.to_ := by
  have h := @sum_segmentLoop frozen q.to_ q.from_ none _ (enough_dates hlt) hq.2 hq.1
    (le_of_lt hlt) fun u hu => absurd hu (Option.not_mem_none u)
  simp only [Option.toList_none, map_nil, sum_nil, zero_add] at h
  rw [← h, refreshableRangeSegments, map_map, add_comm]
  exact Int.add_sub_cancel _ _

theorem refreshRange_refreshedOn (events : List EventRecord) (frozen : Day → Bool)
    (clock : Nat → Time) (p : Projection) (hq : q.Aligned) (hlt : q.from_ < q.to_)
    (hids : q.endpointIds = none) :
    ∃ result p', p.refreshRange events frozen clock q = .ok (result, p') ∧
      RefreshedOn events (fun t => q.from_ ≤ t ∧ t < q.to_ ∧ frozen (dateOf t) = false) p p' ∧
      result.skippedBucketCount = frozenMinutes frozen q.from_ q.to_ := by
  have hsegments : ∀ s ∈ refreshableRangeSegments frozen q,
      s.Aligned ∧ s.from_ < s.to_ ∧ s.endpointIds = none := fun s hs => by
    obtain ⟨h₀, h₁, h₂⟩ := aligned_of_mem_segments hq hlt hs
    exact ⟨h₀, h₁, h₂.trans hids⟩
  obtain ⟨x, hx, hr⟩ := refreshSegments_spec events clock hsegments 1
    ⟨p, 0, 0, [], clock 0⟩
  have hbounds : ¬(q.from_ % minuteLength ≠ 0 ∨ q.to_ % minuteLength ≠ 0) := by
    rw [not_or, not_not, not_not]
    exact hq
  have hrefresh : p.refreshRange events frozen clock q = .ok ({
      bucketCount := x.refreshedKeys.dedup.length
      activityRowCount := x.activityRowCount
      dimensionRowCount := x.dimensionRowCount
      refreshedAt := x.refreshedAt
      skippedBucketCount := rangeMinuteCount q.from_ q.to_ -
        ((refreshableRangeSegments frozen q).map fun s => rangeMinuteCount s.from_ s.to_).sum },
      x.projection) := by
    rw [Projection.refreshRange, if_neg (not_le.2 hlt), if_neg hbounds]
    simp only [bind, Except.bind, hx]
    rfl
  exact ⟨_, _, hrefresh, hr.congr fun t => exists_segment_iff hlt, sum_segments hq hlt⟩

end

end Edr.Rollup
