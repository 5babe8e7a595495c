import Edr.Query.Live
import Edr.Rollup.Range
import Edr.Rollup.Summary

/-!
# The top lists, from the rollup

For each endpoint, hour and top list, the rollup keeps the 50 most frequent values as candidates. The
summary adds the counts of a value over the hours of its range and ranks the sums. A sum is never
too great, and it falls short by the hours in which the value is no candidate.
-/

namespace Edr.Rollup

open List Function EventRepository Table

open Counter Grouping Paging

/-! ## The rows of a top list -/

def Projection.inDimensions (from_ to_ : Time) (endpointId : Option Nat) (k : DimensionGroup × Nat) :
    Bool :=
  decide (dateBin dimensionBucketSeconds from_ ≤ k.1.bucketStartAt) &&
    decide (k.1.bucketStartAt < to_) && ofEndpoint endpointId k.1.endpointId &&
    decide (k.2 = dimensionBucketSeconds)

def Projection.summaryDimensions (from_ to_ : Time) (endpointId : Option Nat) (d : Dimension)
    (p : Projection) : List (String × Nat) :=
  ((p.dimensions.select fun k _ => inDimensions from_ to_ endpointId k).filter fun x =>
    decide (x.1.1.dimension = d)).map fun x => (x.1.1.value, x.2.eventCount)

def Projection.DimensionsCurrent (events : List EventRecord) (from_ to_ : Time) (p : Projection) :
    Prop :=
  ∀ g : DimensionGroup, from_ ≤ g.bucketStartAt → g.bucketStartAt < to_ →
    (p.dimensions.get? (g, dimensionBucketSeconds)).map (·.eventCount) = hourCount events g

def hourValues (events : List EventRecord) (endpointId : Int) (hour : Time) (d : Dimension) :
    List String :=
  (d.values (events.filter fun r => !r.isDelete && decide ((r.endpointId : Int) = endpointId) &&
    decide (startOfHour r.occurredAt = hour))).dedup

/-- No endpoint has more values in an hour of the range than the rollup keeps. -/
def FewValues (events : List EventRecord) (from_ to_ : Time) (endpointId : Option Nat) : Prop :=
  ∀ (e : Int) (hour : Time) (d : Dimension), from_ ≤ hour → hour < to_ →
    ofEndpoint endpointId e = true → (hourValues events e hour d).length ≤ dimensionCandidateLimit

section

variable {events : List EventRecord} {r : EventRecord} {g : DimensionGroup} {d : Dimension}
  {v : String} {q : Range} {x : DimensionRow}

theorem mem_dimensionGroups_iff : g ∈ dimensionGroups r ↔
    g.endpointId = r.endpointId ∧ g.bucketStartAt = startOfHour r.occurredAt ∧
      g.value = g.dimension.value r ∧ g.value ≠ "" := by
  have hall : ∀ d : Dimension, d ∈ dimensions := by
    intro d
    cases d <;> decide
  simp only [dimensionGroups, mem_map, mem_filter, decide_eq_true_eq]
  constructor
  · rintro ⟨d, ⟨-, hd⟩, rfl⟩
    exact ⟨rfl, rfl, rfl, hd⟩
  · rintro ⟨he, hb, hv, hne⟩
    refine ⟨g.dimension, ⟨hall _, hv ▸ hne⟩, ?_⟩
    obtain ⟨e, b, d, v⟩ := g
    exact (DimensionGroup.mk.injEq ..).mpr ⟨he.symm, hb.symm, rfl, hv.symm⟩

theorem nodup_dimensionGroups (r : EventRecord) : (dimensionGroups r).Nodup := by
  refine .map (fun d d' h => congrArg DimensionGroup.dimension h) ?_
  exact .filter _ (by decide)

/-- Elements of lists without repetitions, where `P` is true of one element of a list at most, and of
    one if and only if `Q` is true of the list. -/
theorem countP_flatMap_of_unique {α β : Type*} {l : List α} {f : α → List β} {P : β → Bool}
    {Q : α → Bool} (b : α → β) (hf : ∀ a ∈ l, (f a).Nodup)
    (hP : ∀ a ∈ l, ∀ x ∈ f a, P x = true ↔ x = b a) (hQ : ∀ a ∈ l, b a ∈ f a ↔ Q a = true) :
    (l.flatMap f).countP P = l.countP Q := by
  classical
  induction l with
  | nil => rfl
  | cons a l ih =>
    obtain ⟨hfa, hf⟩ := forall_mem_cons.1 hf
    obtain ⟨hPa, hP⟩ := forall_mem_cons.1 hP
    obtain ⟨hQa, hQ⟩ := forall_mem_cons.1 hQ
    have hone : (f a).countP P = if Q a then 1 else 0 := by
      have hcount : (f a).countP P = (f a).count (b a) :=
        countP_congr fun x hx => by rw [hPa x hx, beq_iff_eq]
      rw [hcount, hfa.count]
      exact if_congr hQa rfl rfl
    rw [flatMap_cons, countP_append, hone, ih hf hP hQ, countP_cons, Nat.add_comm]

theorem countP_groups_eq (rows : List EventRecord) (g : DimensionGroup) :
    ((rows.flatMap dimensionGroups).countP fun g' => decide (g' = g)) =
      rows.countP fun r => decide (g ∈ dimensionGroups r) :=
  countP_flatMap_of_unique (fun _ => g) (fun r _ => nodup_dimensionGroups r)
    (fun _ _ _ _ => decide_eq_true_iff) fun _ _ => decide_eq_true_iff.symm

theorem countP_groups_value (rows : List EventRecord) (d : Dimension) (v : String) :
    ((rows.flatMap dimensionGroups).countP fun g => decide (g.dimension = d ∧ g.value = v)) =
      (d.values rows).count v := by
  have hvalues : (d.values rows).count v =
      rows.countP fun r => decide (v = d.value r ∧ v ≠ "") := by
    rw [Dimension.values, count_eq_countP, countP_filter, countP_map]
    refine countP_congr fun r _ => ?_
    simp only [comp_apply, Bool.and_eq_true, beq_iff_eq, decide_eq_true_eq]
    constructor
    · rintro ⟨rfl, hne⟩
      exact ⟨rfl, hne⟩
    · rintro ⟨rfl, hne⟩
      exact ⟨rfl, hne⟩
  rw [hvalues]
  refine countP_flatMap_of_unique (fun r => ⟨r.endpointId, startOfHour r.occurredAt, d, v⟩)
    (fun r _ => nodup_dimensionGroups r) (fun r _ g hg => ?_) fun r _ => ?_
  · -- Among the groups of an event, the top list and the value say which one it is.
    obtain ⟨he, hb⟩ := mem_dimensionGroups hg
    rw [decide_eq_true_eq]
    obtain ⟨e, b, d', v'⟩ := g
    rw [DimensionGroup.mk.injEq, and_iff_right he, and_iff_right hb]
  · rw [mem_dimensionGroups_iff, decide_eq_true_eq]
    simp

theorem hourRows_count (hx : x ∈ hourRows events g.bucketStartAt) :
    (∃ r ∈ events, r.isDelete = false ∧ x.group ∈ dimensionGroups r) ∧
      x.eventCount = uniqExact (events.filter fun r =>
        !r.isDelete && decide (x.group ∈ dimensionGroups r)) := by
  have haligned := hour_aligned g.bucketStartAt none
  obtain ⟨⟨r, hr, hselects, hgroup⟩, hcount⟩ :=
    mem_groupRows.1 (mem_groupRows_of_mem_dimensionRows hx)
  have hkey := (hasKey_of_mem_dimensionRows haligned hx).1
  refine ⟨⟨r, hr, ((selects_expanded_iff haligned).1 hselects).1, hgroup⟩, hcount.trans ?_⟩
  rw [filter_filter]
  refine congrArg uniqExact (filter_congr fun r' _ => ?_)
  by_cases hg : x.group ∈ dimensionGroups r'
  · -- An event of the group is in the hour, and so it is selected unless it is deleted.
    obtain ⟨he, hb⟩ := mem_dimensionGroups hg
    rw [he, hb] at hkey
    rw [decide_eq_true hg, Bool.true_and, Bool.and_true, Bool.eq_iff_iff,
      selects_expanded_iff haligned, Bool.not_eq_true']
    exact and_iff_left hkey
  · rw [decide_eq_false hg, Bool.false_and, Bool.and_false]

theorem length_groupRows_le {selected : EventRecord → Bool}
    (hselected : ∀ r ∈ events, selected r = true → r.isDelete = false) (g : DimensionGroup) :
    ((groupRows events selected).filter fun x => decide (x.group.list = g.list)).length ≤
      (hourValues events g.endpointId g.bucketStartAt g.dimension).length := by
  have hgroups : ((groupRows events selected).map (·.group)).Nodup := by
    rw [groupRows, map_map]
    exact .map (fun _ _ h => h) (nodup_dedup _)
  have hlist {x : DimensionRow}
      (hx : x ∈ (groupRows events selected).filter fun x => decide (x.group.list = g.list)) :
      x ∈ groupRows events selected ∧ x.group.endpointId = g.endpointId ∧
        x.group.bucketStartAt = g.bucketStartAt ∧ x.group.dimension = g.dimension := by
    obtain ⟨hx, hl⟩ := mem_filter.1 hx
    have hl : (_, _, _) = (_, _, _) := of_decide_eq_true hl
    simp only [Prod.mk.injEq] at hl
    exact ⟨hx, hl⟩
  rw [← length_map (fun x : DimensionRow => x.group.value)]
  refine (subperm_of_subset (.map_on (fun x hx y hy h => ?_) ?_)
    fun v hv => ?_).length_le
  · obtain ⟨hx, he, hb, hd⟩ := hlist hx
    obtain ⟨hy, he', hb', hd'⟩ := hlist hy
    refine inj_on_of_nodup_map hgroups hx hy ?_
    obtain ⟨⟨e, b, d, v⟩, n⟩ := x
    exact (DimensionGroup.mk.injEq ..).mpr
      ⟨he.trans he'.symm, hb.trans hb'.symm, hd.trans hd'.symm, h⟩
  · exact hgroups.of_map.filter _
  · obtain ⟨x, hx, rfl⟩ := mem_map.1 hv
    obtain ⟨hx, he, hb, hd⟩ := hlist hx
    obtain ⟨⟨r, hr, hsel, hg⟩, -⟩ := mem_groupRows.1 hx
    obtain ⟨hge, hgb, hgv, hne⟩ := mem_dimensionGroups_iff.1 hg
    have hdeleted := hselected r hr hsel
    rw [hourValues, mem_dedup, Dimension.values, mem_filter, mem_map]
    refine ⟨⟨r, mem_filter.2 ⟨hr, ?_⟩, by rw [hgv, hd]⟩, decide_eq_true hne⟩
    rw [hdeleted, ← he, hge, ← hb, hgb]
    simp

theorem exists_row_of_few (hr : r ∈ events) (hdelete : r.isDelete = false)
    (hg : g ∈ dimensionGroups r)
    (hfew : (hourValues events g.endpointId g.bucketStartAt g.dimension).length ≤
      dimensionCandidateLimit) : ∃ x ∈ hourRows events g.bucketStartAt, x.group = g := by
  have haligned := hour_aligned g.bucketStartAt none
  obtain ⟨he, hb⟩ := mem_dimensionGroups hg
  let q := expandedBucketBounds
    ⟨startOfHour g.bucketStartAt, startOfHour g.bucketStartAt + hourLength, none⟩
  have hselected : ∀ r ∈ events, q.selects r = true → r.isDelete = false :=
    fun r _ h => ((selects_expanded_iff haligned).1 h).1
  have hselects : q.selects r = true := by
    have hkey := hasKey_hour r.endpointId g.bucketStartAt
    rw [hb, startOfHour_startOfHour] at hkey
    refine (selects_expanded_iff haligned).2 ⟨hdelete, ?_⟩
    rw [hb, startOfHour_startOfHour]
    exact hkey
  refine ⟨⟨g, uniqExact ((events.filter q.selects).filter fun r =>
    decide (g ∈ dimensionGroups r))⟩, ?_, rfl⟩
  rw [hourRows, dimensionRows_eq, mem_limitCandidates, take_of_length_le]
  · rw [(perm_insertionSort _ _).mem_iff, mem_filter]
    exact ⟨mem_groupRows.2 ⟨⟨r, hr, hselects, hg⟩, rfl⟩, decide_eq_true rfl⟩
  · rw [length_insertionSort]
    exact (length_groupRows_le hselected g).trans hfew

end

/-! ## The sums -/

def Projection.groupCounts (from_ to_ : Time) (endpointId : Option Nat) (p : Projection) :
    List (DimensionGroup × Nat) :=
  (p.dimensions.select fun k _ => inDimensions from_ to_ endpointId k).map fun x =>
    (x.1.1, x.2.eventCount)

section

variable {events : List EventRecord} {p : Projection} {from_ to_ : Time} {endpointId : Option Nat}
  {r : EventRecord} {g : DimensionGroup} {n width : Nat} {d : Dimension}

theorem inDimensions_iff (hfrom : from_ % hourLength = 0) :
    Projection.inDimensions from_ to_ endpointId (g, width) = true ↔
      (from_ ≤ g.bucketStartAt ∧ g.bucketStartAt < to_) ∧
        ofEndpoint endpointId g.endpointId = true ∧ width = dimensionBucketSeconds := by
  have hbin : dateBin dimensionBucketSeconds from_ = from_ := by
    unfold dateBin dimensionBucketSeconds
    unfold hourLength at hfrom
    grind
  simp only [Projection.inDimensions, hbin, Bool.and_eq_true, decide_eq_true_eq, and_assoc]

theorem mem_groupCounts (hfrom : from_ % hourLength = 0) :
    (g, n) ∈ p.groupCounts from_ to_ endpointId ↔
      (p.dimensions.get? (g, dimensionBucketSeconds)).map (·.eventCount) = some n ∧
        (from_ ≤ g.bucketStartAt ∧ g.bucketStartAt < to_) ∧
        ofEndpoint endpointId g.endpointId = true := by
  simp only [Projection.groupCounts, mem_map, Prod.exists, mem_select,
    inDimensions_iff hfrom, Option.map_eq_some_iff, Prod.mk.injEq]
  constructor
  · rintro ⟨g, width, v, ⟨hget, hrange, he, rfl⟩, rfl, rfl⟩
    exact ⟨⟨v, hget, rfl⟩, hrange, he⟩
  · rintro ⟨⟨v, hget, hv⟩, hrange, he⟩
    exact ⟨g, _, v, ⟨hget, hrange, he, rfl⟩, rfl, hv⟩

theorem nodup_groupCounts (hfrom : from_ % hourLength = 0) :
    ((p.groupCounts from_ to_ endpointId).map Prod.fst).Nodup := by
  rw [Projection.groupCounts, map_map]
  -- All the rows are of hours, so that they have different groups.
  have hkeys := select_nodup (fun k _ => Projection.inDimensions from_ to_ endpointId k)
    p.dimensions
  refine .map_on (fun x hx y hy h => inj_on_of_nodup_map hkeys hx hy ?_)
    hkeys.of_map
  obtain ⟨⟨g, w⟩, v⟩ := x
  obtain ⟨⟨g', w'⟩, v'⟩ := y
  have hw := ((inDimensions_iff hfrom).1 (mem_select.1 hx).2).2.2
  have hw' := ((inDimensions_iff hfrom).1 (mem_select.1 hy).2).2.2
  exact Prod.ext h (hw.trans hw'.symm)

theorem total_summaryDimensions (d : Dimension) (v : String) :
    total (fun v' => decide (v' = v)) (p.summaryDimensions from_ to_ endpointId d) =
      total (fun g => decide (g.dimension = d ∧ g.value = v))
        (p.groupCounts from_ to_ endpointId) := by
  rw [Projection.summaryDimensions, Projection.groupCounts, total, total, filter_map,
    filter_map, map_map, map_map, filter_filter]
  refine congrArg (fun rows => (map _ rows).sum) (filter_congr fun x _ => ?_)
  simp [Bool.decide_and, Bool.and_comm]

theorem dashboardFilter_iff_group (hfrom : from_ % hourLength = 0) (hto : to_ % hourLength = 0)
    (hg : g ∈ dimensionGroups r) :
    dashboardFilter from_ to_ endpointId r = true ↔ r.isDelete = false ∧
      (from_ ≤ g.bucketStartAt ∧ g.bucketStartAt < to_) ∧
        ofEndpoint endpointId g.endpointId = true := by
  obtain ⟨he, hb⟩ := mem_dimensionGroups hg
  have hle : from_ ≤ r.occurredAt ↔ from_ ≤ startOfHour r.occurredAt := by
    unfold startOfHour
    unfold hourLength at *
    grind
  have hlt : r.occurredAt < to_ ↔ startOfHour r.occurredAt < to_ := by
    unfold startOfHour
    unfold hourLength at *
    grind
  rw [he, hb, ofEndpoint_natCast, ← hle, ← hlt]
  simp only [dashboardFilter, Bool.and_eq_true, decide_eq_true_eq, Bool.not_eq_true']
  tauto

section

variable (hids : (events.map (·.eventId)).Nodup) (hfrom : from_ % hourLength = 0)
  (hto : to_ % hourLength = 0) (hp : p.DimensionsCurrent events from_ to_)

include hids hfrom hto hp

theorem count_of_current (hg : (g, n) ∈ p.groupCounts from_ to_ endpointId) :
    let rows := events.filter (dashboardFilter from_ to_ endpointId)
    (∃ r ∈ rows, g ∈ dimensionGroups r) ∧
      n = (rows.flatMap dimensionGroups).countP fun g' => decide (g' = g) := by
  intro rows
  obtain ⟨hget, hrange, he⟩ := (mem_groupCounts hfrom).1 hg
  rw [hp g hrange.1 hrange.2, hourCount, Option.map_eq_some_iff] at hget
  obtain ⟨x, hfind, rfl⟩ := hget
  have hxg : x.group = g := by simpa using find?_some hfind
  obtain ⟨⟨r, hr, hdelete, hgr⟩, hcount⟩ := hourRows_count (mem_of_find?_eq_some hfind)
  rw [hxg] at hgr hcount
  have hfilter := (dashboardFilter_iff_group hfrom hto hgr).2 ⟨hdelete, hrange, he⟩
  refine ⟨⟨r, mem_filter.2 ⟨hr, hfilter⟩, hgr⟩, ?_⟩
  rw [hcount, uniqExact_filter hids, countP_groups_eq, countP_filter]
  refine countP_congr fun r' _ => ?_
  simp only [Bool.and_eq_true, Bool.not_eq_true', decide_eq_true_eq]
  constructor
  · rintro ⟨hd, hg'⟩
    exact ⟨hg', (dashboardFilter_iff_group hfrom hto hg').2 ⟨hd, hrange, he⟩⟩
  · rintro ⟨hg', hf⟩
    exact ⟨((dashboardFilter_iff_group hfrom hto hg').1 hf).1, hg'⟩

omit hids in
theorem mem_groupCounts_of_few (hfew : FewValues events from_ to_ endpointId)
    (hg : g ∈ (events.filter (dashboardFilter from_ to_ endpointId)).flatMap dimensionGroups) :
    g ∈ (p.groupCounts from_ to_ endpointId).map Prod.fst := by
  obtain ⟨r, hr, hgr⟩ := mem_flatMap.1 hg
  obtain ⟨hr, hf⟩ := mem_filter.1 hr
  obtain ⟨hdelete, hrange, he⟩ := (dashboardFilter_iff_group hfrom hto hgr).1 hf
  obtain ⟨x, hx, hxg⟩ := exists_row_of_few hr hdelete hgr (hfew _ _ _ hrange.1 hrange.2 he)
  obtain ⟨y, hy⟩ := Option.isSome_iff_exists.1 (find?_isSome (p := fun x => decide (x.group = g)).2
    ⟨x, hx, decide_eq_true hxg⟩)
  refine mem_map.2 ⟨(g, y.eventCount), (mem_groupCounts hfrom).2 ⟨?_, hrange, he⟩, rfl⟩
  rw [hp g hrange.1 hrange.2, hourCount, hy]
  rfl

theorem mem_summaryDimensions_iff (hfew : FewValues events from_ to_ endpointId) {v : String} :
    v ∈ (p.summaryDimensions from_ to_ endpointId d).map Prod.fst ↔
      v ∈ d.values (events.filter (dashboardFilter from_ to_ endpointId)) := by
  have hkeys : v ∈ (p.summaryDimensions from_ to_ endpointId d).map Prod.fst ↔
      ∃ g ∈ (p.groupCounts from_ to_ endpointId).map Prod.fst, g.dimension = d ∧ g.value = v := by
    simp only [Projection.summaryDimensions, Projection.groupCounts, map_map, mem_map,
      mem_filter, decide_eq_true_eq, comp_apply]
    constructor
    · rintro ⟨x, ⟨hx, hd⟩, rfl⟩
      exact ⟨_, ⟨x, hx, rfl⟩, hd, rfl⟩
    · rintro ⟨_, ⟨x, hx, rfl⟩, hd, rfl⟩
      exact ⟨x, ⟨hx, hd⟩, rfl⟩
  rw [hkeys, ← count_pos_iff, ← countP_groups_value, countP_pos_iff]
  simp only [decide_eq_true_eq]
  refine exists_congr fun g => and_congr_left fun _ =>
    ⟨fun hg => ?_, mem_groupCounts_of_few hfrom hto hp hfew⟩
  obtain ⟨⟨g, n⟩, hrow, rfl⟩ := mem_map.1 hg
  exact mem_flatMap.2 (count_of_current hids hfrom hto hp hrow).1

/-- **The top lists of the rollup.** For all events with different ids, and a range of whole hours
    whose candidates are current: what the summary sums for a value is at most its count in the
    range, and where no endpoint has more than 50 values in an hour, the top lists are those of
    ClickHouse, with their counts and in their order. -/
theorem topLists_of_current {intervalSeconds : Nat}
    (hinterval : intervalSeconds ∈ [60, 300, 3600, 86400]) :
    let rows := events.filter (dashboardFilter from_ to_ endpointId)
    let sums (d : Dimension) := p.summaryDimensions from_ to_ endpointId d
    (∀ (d : Dimension) (v : String),
      total (fun v' => decide (v' = v)) (sums d) ≤ (d.values rows).count v) ∧
    (FewValues events from_ to_ endpointId →
      ∃ a b, p.dashboardSummary from_ to_ intervalSeconds endpointId = .ok a ∧
        dashboardSummary events from_ to_ intervalSeconds endpointId = .ok b ∧
        a.top = b.top ∧
        ∀ d : Dimension, top Ahead dashboardTopLimit (groupSum (sums d)) = d.topTen rows) := by
  intro rows sums
  have hcount : ∀ x ∈ p.groupCounts from_ to_ endpointId,
      x.2 = (rows.flatMap dimensionGroups).countP fun g => decide (g = x.1) :=
    fun x hx => (count_of_current hids hfrom hto hp hx).2
  refine ⟨fun d v => ?_, fun hfew => ?_⟩
  · rw [total_summaryDimensions, ← countP_groups_value]
    exact total_le_countP (nodup_groupCounts hfrom) fun x hx _ => hcount x hx
  -- Each value has the count of ClickHouse, so that both lists are made of the same groups.
  have htotal (d : Dimension) (v : String) :
      total (fun v' => decide (v' = v)) (sums d) = (d.values rows).count v := by
    rw [total_summaryDimensions, ← countP_groups_value]
    exact total_eq_countP (nodup_groupCounts hfrom) (fun x hx _ => hcount x hx)
      fun g hg _ => mem_groupCounts_of_few hfrom hto hp hfew hg
  have hlist (d : Dimension) :
      top Ahead dashboardTopLimit (groupSum (sums d)) = d.topTen rows := by
    have hdedup : ((sums d).map Prod.fst).dedup.Perm (d.values rows).dedup := by
      rw [perm_ext_iff_of_nodup (nodup_dedup _) (nodup_dedup _)]
      intro v
      rw [mem_dedup, mem_dedup]
      exact mem_summaryDimensions_iff hids hfrom hto hp hfew
    rw [Dimension.topTen, ranked, ← groupCount_eq_entries]
    refine top_perm (antisymmOn_ahead _) ?_ _
    simp only [groupSum, htotal, groupCount]
    exact hdedup.map _
  refine ⟨_, _, if_neg (not_not_intro hinterval), if_neg (not_not_intro hinterval), ?_, hlist⟩
  funext d
  have hrollup : topGroups (groupSum (sums d)) = Counter.lookup (d.topTen rows) :=
    congrArg Counter.lookup (hlist d)
  exact hrollup.trans (topValues_eq_cut rows d).symm

end

theorem dimensionsCurrent_replaceRange {p' : Projection} {now : Time}
    (h : p.replaceRange ⟨from_, to_, none⟩ (activityRows events ⟨from_, to_, none⟩)
      (dimensionRows events ⟨from_, to_, none⟩) now = .ok p') :
    p'.DimensionsCurrent events from_ to_ := fun g hle hlt =>
  (refreshedOn_replaceRange h rfl).dimensions g ⟨g.bucketStartAt, ⟨hle, hlt⟩, rfl⟩

/-- Two hours of one event each, and one value. -/
theorem topLists_of_current_two_hours :
    let from_ := dayStart 20635
    let to_ := dayStart 20635 + 7200000
    let q : Range := ⟨from_, to_, none⟩
    ∃ p a b, Projection.empty.replaceRange q (activityRows hourlyEvents q)
        (dimensionRows hourlyEvents q) 5 = .ok p ∧
      p.dashboardSummary from_ to_ 3600 none = .ok a ∧
      dashboardSummary hourlyEvents from_ to_ 3600 none = .ok b ∧
      a.top = b.top ∧ b.top .processes "sshd" = 2 := by
  intro from_ to_ q
  have hp : Projection.empty.replaceRange q (activityRows hourlyEvents q)
    (dimensionRows hourlyEvents q) 5 = .ok _ := rfl
  have hinterval : 3600 ∈ [60, 300, 3600, 86400] := by decide
  have hids : (hourlyEvents.map (·.eventId)).Nodup := by decide
  -- There are no more values than events.
  have hfew : FewValues hourlyEvents from_ to_ none := by
    intro e hour d _ _ _
    refine (dedup_sublist _).length_le.trans ((length_filter_le _ _).trans ?_)
    rw [length_map]
    exact (length_filter_le _ _).trans (by decide)
  obtain ⟨a, b, ha, hb, htop, -⟩ := (topLists_of_current hids (by decide) (by decide)
    (dimensionsCurrent_replaceRange hp) hinterval).2 hfew
  refine ⟨_, a, b, hp, ha, hb, htop, ?_⟩
  cases hb
  decide +kernel

end

end Edr.Rollup
