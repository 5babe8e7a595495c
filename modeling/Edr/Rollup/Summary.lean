import Edr.Rollup.Projection

/-!
# The dashboard, from the rollup

`DashboardEventRollupRepository.dashboard_summary` adds up the minutes of the rollup, by the interval
that is asked for, where `EventRepository.dashboard_summary` counts the events of ClickHouse by that
interval at once. An aggregate is known by
the sums of its groups (`foldl_addActivity`), and each interval is made of whole minutes
(`dateBin_toStartOfInterval`).
-/

namespace Edr.Rollup

open List Function EventRepository Table

open Grouping

/-! ## The code -/

/-- `date_bin(make_interval(secs => n), t, TIMESTAMPTZ '1970-01-01 00:00:00+00')`. -/
def dateBin (intervalSeconds : Nat) (t : Time) : Time := t - t % (intervalSeconds * 1000)

/-- The rows of rank 10 at most, by `ORDER BY SUM(event_count) DESC, dimension_value ASC`, as a
    counter. -/
def topGroups (groups : List (String × Nat)) (v : String) : Nat :=
  let ranked := groups.insertionSort fun x y => y.2 < x.2 ∨ y.2 = x.2 ∧ x.1 ≤ y.1
  ((ranked.take 10).find? fun x => decide (x.1 = v)).elim 0 (·.2)

/-- `%s::bigint IS NULL OR endpoint_id = %s`. -/
def ofEndpoint (endpointId : Option Nat) (rowEndpointId : Int) : Bool :=
  endpointId.all fun (e : Nat) => decide (rowEndpointId = e)

def Projection.inSummary (from_ to_ : Time) (endpointId : Option Nat) (key : MinuteKey) : Bool :=
  decide (startOfMinute from_ ≤ key.bucketStartAt) && decide (key.bucketStartAt < to_) &&
    ofEndpoint endpointId key.endpointId

def Projection.dashboardSummary (from_ to_ : Time) (intervalSeconds : Nat) (endpointId : Option Nat)
    (p : Projection) : Except QueryError DashboardEventAggregate :=
  if intervalSeconds ∉ [60, 300, 3600, 86400] then
    .error (.valueError "unsupported dashboard interval")
  else
    let rows := p.activity.select fun k _ => inSummary from_ to_ endpointId k.1
    let activity := groupSum (rows.map fun x =>
      ((x.1.2, dateBin intervalSeconds x.1.1.bucketStartAt), x.2.eventCount))
    let aggregate : DashboardEventAggregate :=
      activity.foldl (fun a x => a.addActivity x.1.1 x.1.2 x.2) .empty
    let dimensionRows := p.dimensions.select fun k _ =>
      decide (dateBin dimensionBucketSeconds from_ ≤ k.1.bucketStartAt) &&
        decide (k.1.bucketStartAt < to_) && ofEndpoint endpointId k.1.endpointId &&
        decide (k.2 = dimensionBucketSeconds)
    .ok { aggregate with
      top := fun d => topGroups (groupSum ((dimensionRows.filter fun x =>
        decide (x.1.1.dimension = d)).map fun x => (x.1.1.value, x.2.eventCount))) }

/-- The rows of the range in the rollup are those of `dashboard_rollup_rows`. -/
def Projection.IsCurrent (events : List EventRecord) (from_ to_ : Time) (p : Projection) : Prop :=
  ∀ (key : MinuteKey) (eventType : String) (n : Nat),
    from_ ≤ key.bucketStartAt → key.bucketStartAt < to_ →
      ((p.activity.get? (key, eventType)).map (·.eventCount) = some n ↔
        ⟨key, eventType, n⟩ ∈ activityRows events ⟨from_, to_, none⟩)

/-! ## Minutes -/

def hourlyEvents : List EventRecord :=
  [processEvent 1, { processEvent 2 with occurredAt := dayStart 20635 + 3661000 }]

section

variable {events : List EventRecord} {p : Projection} {from_ to_ : Time} {intervalSeconds : Nat}
  {endpointId : Option Nat} {r : EventRecord} {key : MinuteKey} {eventType : String}

theorem dateBin_toStartOfInterval (hinterval : intervalSeconds ∈ [60, 300, 3600, 86400])
    (t : Time) :
    dateBin intervalSeconds (toStartOfInterval 60 t) = toStartOfInterval intervalSeconds t := by
  simp only [mem_cons, not_mem_nil, or_false] at hinterval
  unfold dateBin toStartOfInterval
  rcases hinterval with rfl | rfl | rfl | rfl <;> grind

theorem inSummary_iff : Projection.inSummary from_ to_ endpointId key = true ↔
    startOfMinute from_ ≤ key.bucketStartAt ∧ key.bucketStartAt < to_ ∧
      ofEndpoint endpointId key.endpointId = true := by
  simp only [Projection.inSummary, Bool.and_eq_true, decide_eq_true_eq, and_assoc]

theorem ofEndpoint_natCast (e : Nat) :
    ofEndpoint endpointId e = endpointId.all fun e' => decide (e = e') := by
  cases endpointId with
  | none => rfl
  | some e' => exact decide_eq_decide.2 Int.natCast_inj

theorem dashboardFilter_iff_inSummary (hfrom : from_ % minuteLength = 0)
    (hto : to_ % minuteLength = 0) :
    dashboardFilter from_ to_ endpointId r = true ↔
      r.isDelete = false ∧ Projection.inSummary from_ to_ endpointId (eventKey r) = true := by
  have hle : from_ ≤ r.occurredAt ↔ startOfMinute from_ ≤ startOfMinute r.occurredAt := by
    unfold startOfMinute minuteLength at *
    grind
  have hlt : r.occurredAt < to_ ↔ startOfMinute r.occurredAt < to_ := by
    unfold startOfMinute minuteLength at *
    grind
  rw [inSummary_iff, eventKey_eq, ofEndpoint_natCast, ← hle, ← hlt]
  simp only [dashboardFilter, Bool.and_eq_true, decide_eq_true_eq, Bool.not_eq_true']
  tauto

theorem isCurrent_replaceRange {p' : Projection} {dimensions : List DimensionRow} {now : Time}
    (h : p.replaceRange ⟨from_, to_, none⟩ (activityRows events ⟨from_, to_, none⟩) dimensions now =
      .ok p') : p'.IsCurrent events from_ to_ := by
  intro key eventType n hle hlt
  have hkey : Range.hasKey ⟨from_, to_, none⟩ key = true := hasKey_iff.2 ⟨hle, hlt, rfl⟩
  rw [mirrors_replaceRange h hkey eventType, mem_activityRows (activity_replaceRange h).1]
  split_ifs with h0
  · exact ⟨nofun, fun hn => absurd (hn.2.1.trans h0) hn.2.2⟩
  · rw [Option.some_inj]
    exact ⟨fun hn => ⟨hkey, hn.symm, hn ▸ h0⟩, fun hn => hn.2.1.symm⟩

theorem uniqExact_filter (hids : (events.map (·.eventId)).Nodup) (f : EventRecord → Bool) :
    uniqExact (events.filter f) = events.countP f := by
  rw [uniqExact, dedup_eq_self.2 (hids.sublist (filter_sublist.map _)), length_map,
    countP_eq_length_filter]

theorem count_activityGroup (hids : (events.map (·.eventId)).Nodup)
    (hfrom : from_ % minuteLength = 0) (hto : to_ % minuteLength = 0)
    (hkey : Projection.inSummary from_ to_ endpointId key = true) :
    (((events.filter (dashboardFilter from_ to_ endpointId)).map activityGroup).countP fun g =>
      decide (g = (key, eventType))) = sourceCount events key eventType := by
  rw [sourceCount, uniqExact_filter hids, countP_map, countP_filter]
  refine countP_congr fun r _ => ?_
  simp only [comp_apply, Bool.and_eq_true, Bool.not_eq_true', decide_eq_true_eq,
    dashboardFilter_iff_inSummary hfrom hto]
  constructor
  · rintro ⟨hg, hr, -⟩
    exact ⟨hr, hg⟩
  · rintro ⟨hr, hg⟩
    have hr' : eventKey r = key := congrArg Prod.fst hg
    exact ⟨hg, hr, hr' ▸ hkey⟩

theorem total_minutes {P : MinuteKey × String → Bool} (hids : (events.map (·.eventId)).Nodup)
    (hfrom : from_ % minuteLength = 0) (hto : to_ % minuteLength = 0)
    (hp : p.IsCurrent events from_ to_) :
    total P ((p.activity.select fun k _ => Projection.inSummary from_ to_ endpointId k.1).map
        fun x => (x.1, x.2.eventCount)) =
      ((events.filter (dashboardFilter from_ to_ endpointId)).map activityGroup).countP P := by
  have hstart : startOfMinute from_ = from_ := by
    unfold startOfMinute minuteLength at *
    grind
  -- A row of the summary is one of `dashboard_rollup_rows`.
  have hrow {key : MinuteKey} {eventType : String} {n : Nat}
      (hkey : Projection.inSummary from_ to_ endpointId key = true) :
      (p.activity.get? (key, eventType)).map (·.eventCount) = some n ↔
        n = sourceCount events key eventType ∧ n ≠ 0 := by
    obtain ⟨hle, hlt, -⟩ := inSummary_iff.1 hkey
    rw [hstart] at hle
    rw [hp key eventType n hle hlt, mem_activityRows ⟨hfrom, hto⟩]
    exact and_iff_right (hasKey_iff.2 ⟨hle, hlt, rfl⟩)
  refine total_eq_countP ?_ (fun x hx _ => ?_) fun g hg _ => ?_
  · rw [map_map]
    exact select_nodup _ _
  · obtain ⟨⟨⟨key, eventType⟩, v⟩, hv, rfl⟩ := mem_map.1 hx
    obtain ⟨hget, hkey⟩ := mem_select.1 hv
    exact ((hrow hkey).1 (congrArg _ hget)).1.trans
      (count_activityGroup hids hfrom hto hkey).symm
  · have hcount : 0 < countP (fun g' => decide (g' = g)) _ :=
      countP_pos_iff.2 ⟨g, hg, decide_eq_true rfl⟩
    obtain ⟨r, hr, rfl⟩ := mem_map.1 hg
    have hkey := ((dashboardFilter_iff_inSummary hfrom hto).1 (mem_filter.1 hr).2).2
    -- The event is counted in its bucket, so that there is a row for it.
    rw [activityGroup, count_activityGroup hids hfrom hto hkey] at hcount
    obtain ⟨v, hget, -⟩ := Option.map_eq_some_iff.1 ((hrow hkey).2 ⟨rfl, hcount.ne'⟩)
    exact mem_map.2 ⟨_, mem_map.2 ⟨_, mem_select.2 ⟨hget, hkey⟩, rfl⟩, rfl⟩

/-- The summary of the rollup is that of ClickHouse, where the rollup is current. -/
theorem summary_eq (hids : (events.map (·.eventId)).Nodup)
    (hfrom : from_ % minuteLength = 0) (hto : to_ % minuteLength = 0)
    (hinterval : intervalSeconds ∈ [60, 300, 3600, 86400]) (hp : p.IsCurrent events from_ to_) :
    ∃ a b, p.dashboardSummary from_ to_ intervalSeconds endpointId = .ok a ∧
      dashboardSummary events from_ to_ intervalSeconds endpointId = .ok b ∧
      a.totalCount = b.totalCount ∧ a.byEventType = b.byEventType ∧
      a.timeSeries = b.timeSeries := by
  refine ⟨_, _, if_neg (not_not_intro hinterval), if_neg (not_not_intro hinterval),
    foldl_addActivity_congr fun P => ?_⟩
  -- The minutes are grouped once more, by the interval.
  let regroup (k : MinuteKey × String) : String × Time :=
    (k.2, dateBin intervalSeconds k.1.bucketStartAt)
  let rows := events.filter (dashboardFilter from_ to_ endpointId)
  calc total P (groupSum ((p.activity.select fun k _ =>
        Projection.inSummary from_ to_ endpointId k.1).map fun x =>
          (regroup x.1, x.2.eventCount)))
      = total (fun k => P (regroup k)) ((p.activity.select fun k _ =>
        Projection.inSummary from_ to_ endpointId k.1).map fun x => (x.1, x.2.eventCount)) := by
        rw [total_groupSum, ← total_map regroup, map_map]
        rfl
    _ = (rows.map activityGroup).countP fun k => P (regroup k) :=
        total_minutes hids hfrom hto hp
    _ = (rows.map fun r => (r.eventType, toStartOfInterval intervalSeconds r.occurredAt)).countP
          P := by
        simp only [countP_map, comp_def, regroup, activityGroup, eventKey,
          dateBin_toStartOfInterval hinterval]
    _ = total P (groupCount _) := (total_groupCount _).symm

/-- A range that starts in the first hour of the events, and ends in the second. -/
theorem summary_eq_two_hours :
    let from_ := dayStart 20635 + 60000
    let to_ := dayStart 20635 + 3720000
    ∃ p a b, Projection.empty.replaceRange ⟨from_, to_, none⟩
        (activityRows hourlyEvents ⟨from_, to_, none⟩) [] 5 = .ok p ∧
      p.dashboardSummary from_ to_ 3600 (some 7) = .ok a ∧
      dashboardSummary hourlyEvents from_ to_ 3600 (some 7) = .ok b ∧
      a.totalCount = b.totalCount ∧ a.byEventType = b.byEventType ∧
      a.timeSeries = b.timeSeries ∧ b.timeSeries (dayStart 20635) = 1 := by
  intro from_ to_
  have hp : Projection.empty.replaceRange ⟨from_, to_, none⟩
    (activityRows hourlyEvents ⟨from_, to_, none⟩) [] 5 = .ok _ := rfl
  have hinterval : 3600 ∈ [60, 300, 3600, 86400] := by decide
  obtain ⟨a, b, ha, hb, htotal, htype, htime⟩ := summary_eq
    (by decide : (hourlyEvents.map (·.eventId)).Nodup) (by decide) (by decide) hinterval
    (isCurrent_replaceRange hp)
  refine ⟨_, a, b, hp, ha, hb, htotal, htype, htime, ?_⟩
  cases hb
  decide

end

end Edr.Rollup
