import Edr.Rollup.Frozen

/-!
# `refresh_buckets`

`DashboardRollupSynchronizer.refresh_buckets` alone, on a source that does not change. The dirty keys
are grouped into windows of an hour, and one query is made for each window: it asks for all the
endpoints of the window, and for all the minutes from the first one to the last one, so its rows are
about more buckets than are dirty, and are filtered by the keys again.
-/

namespace Edr.Rollup

open List Table MinuteKey Int

/-! ## The code -/

def queryRows (events : List EventRecord) :
    List Range → List ActivityRow × List DimensionRow →
      Except String (List ActivityRow × List DimensionRow)
  | [], rows => .ok rows
  | q :: windows, (activityRows, dimensionRows) => do
    let (activity, dimensions) ← dashboardRollupRows events q
    queryRows events windows (activityRows ++ activity, dimensionRows ++ dimensions)

/-- `refresh_buckets`, where `frozen` is what the lookup of the frozen dates finds, and `now` is the
    result of `self.now()`. -/
def Projection.refreshBuckets (events : List EventRecord) (frozen : Day → Bool) (now : Time)
    (bucketKeys : List MinuteKey) (p : Projection) :
    Except String (RollupRefreshResult × Projection) :=
  let normalized := normalizedKeys bucketKeys
  if normalized.isEmpty then .ok (⟨0, 0, 0, now, 0⟩, p)
  else
    let keys := Job.refreshableKeys frozen bucketKeys
    if keys.isEmpty then .ok (⟨0, 0, 0, now, normalized.length⟩, p)
    else do
      let (activityRows, dimensionRows) ← queryRows events (queryWindows keys) ([], [])
      let activity := activityRows.filter fun x => decide (x.rowKey ∈ keys)
      let dimensionKeys := keys.map dimensionKey
      let dimensions := dimensionRows.filter fun x => decide (x.key ∈ dimensionKeys)
      return ({
        bucketCount := keys.length
        activityRowCount := activity.length
        dimensionRowCount := dimensions.length
        refreshedAt := now
        skippedBucketCount := normalized.length - keys.length },
        p.replaceBuckets keys dimensionKeys activity dimensions now)

/-- The keys one by one, each in a refresh of its own; the `n`th one has the time `clock n`. -/
def Projection.refreshEach (events : List EventRecord) (frozen : Day → Bool) (clock : Nat → Time) :
    Nat → List MinuteKey → Projection → Except String Projection
  | _, [], p => .ok p
  | n, key :: keys, p => do
    let (_, p) ← p.refreshBuckets events frozen (clock n) [key]
    p.refreshEach events frozen clock (n + 1) keys

/-- What the `DELETE` statements of `replace_buckets` leave. -/
def Projection.kept (keys : List MinuteKey) (p : Projection) : Projection :=
  { p with
    activity := p.activity.delete fun k _ => decide (k.1 ∈ keys)
    dimensions := p.dimensions.delete fun k _ =>
      decide ((⟨k.1.endpointId, k.1.bucketStartAt⟩ : MinuteKey) ∈ keys.map dimensionKey) &&
        decide (k.2 = dimensionBucketSeconds) }

/-! ## What a refresh leaves -/

/-- The hour of the group is that of a key in `K`, of the same endpoint. -/
def DimensionGroup.InHourOf (K : MinuteKey → Prop) (g : DimensionGroup) : Prop :=
  ∃ key, K key ∧ key.endpointId = g.endpointId ∧ startOfHour key.bucketStartAt = g.bucketStartAt

/-- The tables `p'` are refreshed from `p` for the keys in `K`. -/
structure RefreshedBuckets (events : List EventRecord) (K : MinuteKey → Prop) (p p' : Projection) :
    Prop where
  /-- The activity of the keys in `K` is that of the source. -/
  activity : ∀ key, K key → Mirrors p'.activity key events
  activity_frame : ∀ key, ¬K key → ∀ eventType,
    p'.activity.get? (key, eventType) = p.activity.get? (key, eventType)
  /-- The rows of the hours around the keys in `K` are those of the full hours in the source. -/
  dimensions : ∀ g : DimensionGroup, g.InHourOf K →
    (p'.dimensions.get? (g, dimensionBucketSeconds)).map (·.eventCount) = hourCount events g
  dimensions_frame : ∀ (g : DimensionGroup) (width : Nat),
    ¬(width = dimensionBucketSeconds ∧ g.InHourOf K) →
    p'.dimensions.get? (g, width) = p.dimensions.get? (g, width)
  coverage : p'.coverage = p.coverage
  /-- The bounds in `dashboard_rollup_state` take the keys in. -/
  covered_from : ∀ t, (∃ s ∈ p'.state, s.coveredFrom ≤ t) ↔
    (∃ s ∈ p.state, s.coveredFrom ≤ t) ∨ ∃ key, K key ∧ key.bucketStartAt ≤ t
  covered_through : ∀ t, (∃ s ∈ p'.state, t ≤ s.coveredThrough) ↔
    (∃ s ∈ p.state, t ≤ s.coveredThrough) ∨ ∃ key, K key ∧ t ≤ key.bucketStartAt + minuteLength

/-- The tables have the same rows, but for the times when these were refreshed. -/
structure SameRows (p p' : Projection) : Prop where
  activity : ∀ k, (p.activity.get? k).map (·.eventCount) = (p'.activity.get? k).map (·.eventCount)
  dimensions : ∀ k,
    (p.dimensions.get? k).map (·.eventCount) = (p'.dimensions.get? k).map (·.eventCount)
  coverage : p.coverage = p'.coverage
  state : p.state.map (fun s => (s.coveredFrom, s.coveredThrough)) =
    p'.state.map fun s => (s.coveredFrom, s.coveredThrough)

section

variable {events : List EventRecord} {K L : MinuteKey → Prop} {p p' p'' : Projection}

theorem DimensionGroup.inHourOf_or {g : DimensionGroup} :
    g.InHourOf (fun key => K key ∨ L key) ↔ g.InHourOf K ∨ g.InHourOf L := by
  simp only [InHourOf, or_and_right, exists_or]

theorem RefreshedBuckets.refl (events : List EventRecord) (p : Projection) :
    RefreshedBuckets events (fun _ => False) p p :=
  ⟨nofun, fun _ _ _ => rfl, nofun, fun _ _ _ => rfl, rfl, fun t => by simp, fun t => by simp⟩

theorem RefreshedBuckets.congr (h : RefreshedBuckets events K p p') (hKL : ∀ key, K key ↔ L key) :
    RefreshedBuckets events L p p' := by
  obtain rfl : K = L := funext fun key => propext (hKL key)
  exact h

theorem RefreshedBuckets.trans (h : RefreshedBuckets events K p p')
    (h' : RefreshedBuckets events L p' p'') :
    RefreshedBuckets events (fun key => K key ∨ L key) p p'' where
  activity key hk := by
    by_cases hl : L key
    · exact h'.activity key hl
    · exact (h.activity key (hk.resolve_right hl)).congr (h'.activity_frame key hl)
  activity_frame key hk eventType := by
    rw [not_or] at hk
    rw [h'.activity_frame key hk.2, h.activity_frame key hk.1]
  dimensions g hg := by
    rw [DimensionGroup.inHourOf_or] at hg
    by_cases hl : g.InHourOf L
    · exact h'.dimensions g hl
    · rw [h'.dimensions_frame g _ fun hx => hl hx.2]
      exact h.dimensions g (hg.resolve_right hl)
  dimensions_frame g width hg := by
    rw [DimensionGroup.inHourOf_or] at hg
    rw [h'.dimensions_frame g width fun hx => hg ⟨hx.1, .inr hx.2⟩,
      h.dimensions_frame g width fun hx => hg ⟨hx.1, .inl hx.2⟩]
  coverage := h'.coverage.trans h.coverage
  covered_from t := by
    simp only [h'.covered_from, h.covered_from, or_and_right, exists_or, or_assoc]
  covered_through t := by
    simp only [h'.covered_through, h.covered_through, or_and_right, exists_or, or_assoc]

theorem bounds_eq {s s' : Option RollupState}
    (hfrom : ∀ t, (∃ x ∈ s, x.coveredFrom ≤ t) ↔ ∃ x ∈ s', x.coveredFrom ≤ t)
    (hthrough : ∀ t, (∃ x ∈ s, t ≤ x.coveredThrough) ↔ ∃ x ∈ s', t ≤ x.coveredThrough) :
    s.map (fun x => (x.coveredFrom, x.coveredThrough)) =
      s'.map fun x => (x.coveredFrom, x.coveredThrough) := by
  cases s with
  | none =>
    cases s' with
    | none => rfl
    | some x' => simpa using hfrom x'.coveredFrom
  | some x =>
    cases s' with
    | none => simpa using hfrom x.coveredFrom
    | some x' =>
      simp only [Option.mem_def, Option.some.injEq, exists_eq_left'] at hfrom hthrough
      have hf : x.coveredFrom = x'.coveredFrom := le_antisymm
        ((hfrom _).2 (le_refl _)) ((hfrom _).1 (le_refl _))
      have ht : x.coveredThrough = x'.coveredThrough := le_antisymm
        ((hthrough _).1 (le_refl _)) ((hthrough _).2 (le_refl _))
      rw [Option.map_some, Option.map_some, hf, ht]

theorem RefreshedBuckets.sameRows (h : RefreshedBuckets events K p p')
    (h' : RefreshedBuckets events K p p'') : SameRows p' p'' where
  activity := by
    rintro ⟨key, eventType⟩
    by_cases hk : K key
    · rw [h.activity key hk eventType, h'.activity key hk eventType]
    · rw [h.activity_frame key hk, h'.activity_frame key hk]
  dimensions := by
    rintro ⟨g, width⟩
    by_cases hg : width = dimensionBucketSeconds ∧ g.InHourOf K
    · obtain ⟨rfl, hg⟩ := hg
      rw [h.dimensions g hg, h'.dimensions g hg]
    · rw [h.dimensions_frame g width hg, h'.dimensions_frame g width hg]
  coverage := h.coverage.trans h'.coverage.symm
  state := bounds_eq (fun t => (h.covered_from t).trans (h'.covered_from t).symm)
    fun t => (h.covered_through t).trans (h'.covered_through t).symm

/-! ## The rows that are inserted -/

def readsOf (events : List EventRecord) (keys : List MinuteKey) : List Read :=
  (queryWindows keys).map fun q => ⟨q, events.map .insert⟩

variable {keys : List MinuteKey} {key : MinuteKey} {q : Range} {g : DimensionGroup} {n : Nat}
  {x : DimensionRow} {row : ActivityRow} {width : Nat} {t now : Time}

theorem content_map_insert (events : List EventRecord) : content (events.map .insert) = events := by
  induction events with
  | nil => rfl
  | cons r events ih => rw [map_cons, content, ih]

theorem range_readsOf (events : List EventRecord) (keys : List MinuteKey) :
    (readsOf events keys).map (·.range) = queryWindows keys := by
  rw [readsOf, map_map]
  exact map_id _

theorem nonempty_of_mem_queryWindows (hq : q ∈ queryWindows keys) : q.from_ < q.to_ := by
  obtain ⟨w, hw, rfl⟩ := mem_map.1 hq
  obtain ⟨key, hk, rfl⟩ := mem_windows.1 hw
  obtain ⟨hfrom, hto, _⟩ := hasKey_iff.1 (hasKey_windowRange hk)
  exact lt_of_le_of_lt hfrom hto

theorem queryRows_eq (events : List EventRecord) {windows : List Range}
    (h : ∀ q ∈ windows, q.from_ < q.to_) (rows : List ActivityRow × List DimensionRow) :
    queryRows events windows rows =
      .ok (rows.1 ++ windows.flatMap (activityRows events),
        rows.2 ++ windows.flatMap (dimensionRows events)) := by
  induction windows generalizing rows with
  | nil => rw [queryRows, flatMap_nil, flatMap_nil, append_nil, append_nil]
  | cons q windows ih =>
    have hq : dashboardRollupRows events q = .ok (activityRows events q, dimensionRows events q) :=
      if_neg (not_le.2 (h q mem_cons_self))
    have ih := ih fun q' hq' => h q' (mem_cons_of_mem q hq')
    rw [queryRows, hq]
    simp only [bind, Except.bind]
    rw [ih, flatMap_cons, flatMap_cons, append_assoc, append_assoc]

theorem activityRows_readsOf (events : List EventRecord) (keys : List MinuteKey) :
    (queryWindows keys).flatMap (activityRows events) =
      (readsOf events keys).flatMap Read.activityRows := by
  simp only [readsOf, flatMap_map, Read.activityRows, content_map_insert]

theorem dimensionRows_readsOf (events : List EventRecord) (keys : List MinuteKey) :
    (queryWindows keys).flatMap (dimensionRows events) =
      (readsOf events keys).flatMap Read.dimensionRows := by
  simp only [readsOf, flatMap_map, Read.dimensionRows, content_map_insert]

theorem key_of_mem_hourRows (hx : x ∈ hourRows events t) :
    x.key = ⟨x.group.endpointId, x.group.bucketStartAt⟩ := by
  obtain ⟨_, hb⟩ := hasKey_of_mem_dimensionRows (hour_aligned t none) hx
  have haligned : x.group.bucketStartAt % minuteLength = 0 := by
    rw [← hb]
    exact (hour_aligned x.group.bucketStartAt none).1
  rw [DimensionRow.key, dimensionKey, dimensionBucket_eq haligned, hb]

theorem mem_dimensionKeys (hkeys : AlignedKeys keys) :
    (⟨g.endpointId, g.bucketStartAt⟩ : MinuteKey) ∈ keys.map MinuteKey.dimensionKey ↔
      g.InHourOf (· ∈ keys) := by
  simp only [mem_map, MinuteKey.dimensionKey, MinuteKey.mk.injEq, DimensionGroup.InHourOf]
  refine exists_congr fun key => and_congr_right fun hk => ?_
  rw [dimensionBucket_eq (hkeys key hk)]

theorem hasKey_expanded_windowRange (hkeys : AlignedKeys keys) (hk : key ∈ keys) :
    (expandedBucketBounds (windowRange (inWindow (queryWindow key.bucketStartAt) keys))).hasKey
      ⟨key.endpointId, startOfHour key.bucketStartAt⟩ = true := by
  have hw : queryWindow key.bucketStartAt ∈ windows keys := mem_windows.2 ⟨key, hk, rfl⟩
  obtain ⟨hfrom, hto, hends⟩ := hasKey_iff.1 (hasKey_windowRange hk)
  obtain ⟨h₀, h₁⟩ := (mem_expandedBucketBounds
    (windowRange_bounds hkeys hw).1 (lt_of_le_of_lt hfrom hto)).2
      ⟨key.bucketStartAt, ⟨hfrom, hto⟩, (startOfHour_startOfHour _).symm⟩
  exact hasKey_iff.2 ⟨h₀, h₁, hends⟩

theorem mem_filteredDimensionRows_iff (hkeys : AlignedKeys keys) :
    x ∈ filteredDimensionRows keys (readsOf events keys) ↔
      x.group.InHourOf (· ∈ keys) ∧ x ∈ hourRows events x.group.bucketStartAt := by
  rw [filteredDimensionRows, ← dimensionRows_readsOf, mem_filter, mem_flatMap,
    decide_eq_true_eq]
  constructor
  · rintro ⟨⟨q, hq, hx⟩, hkey⟩
    have hx := ((mem_dimensionRows (aligned_of_mem_queryWindows hkeys hq)).1 hx).2
    rw [key_of_mem_hourRows hx] at hkey
    exact ⟨(mem_dimensionKeys hkeys).1 hkey, hx⟩
  · rintro ⟨hg, hx⟩
    rw [key_of_mem_hourRows hx]
    refine ⟨?_, (mem_dimensionKeys hkeys).2 hg⟩
    -- The query is that of the window of a key in this hour.
    obtain ⟨key, hk, he, hb⟩ := hg
    have hw : queryWindow key.bucketStartAt ∈ windows keys := mem_windows.2 ⟨key, hk, rfl⟩
    refine ⟨_, mem_map_of_mem hw, (mem_dimensionRows (windowRange_bounds hkeys hw).1).2 ⟨?_, hx⟩⟩
    rw [← he, ← hb]
    exact hasKey_expanded_windowRange hkeys hk

theorem get?_kept_activity (hrow : row ∈ filteredActivityRows keys (readsOf events keys)) :
    (p.kept keys).activity.get? (row.key, row.eventType) = none := by
  rw [Projection.kept, get?_delete, decide_eq_true (mem_filteredActivityRows.1 hrow).2]
  cases p.activity.get? (row.key, row.eventType) <;> rfl

theorem get?_kept_dimensions (hkeys : AlignedKeys keys)
    (hx : x ∈ filteredDimensionRows keys (readsOf events keys)) :
    (p.kept keys).dimensions.get? (x.group, dimensionBucketSeconds) = none := by
  have hg := ((mem_filteredDimensionRows_iff hkeys).1 hx).1
  rw [Projection.kept, get?_delete, decide_eq_true ((mem_dimensionKeys hkeys).2 hg)]
  cases p.dimensions.get? (x.group, dimensionBucketSeconds) <;> rfl

end

/-! ## One refresh -/

section

open Projection

variable {events : List EventRecord} {frozen : Day → Bool} {keys bucketKeys : List MinuteKey}
  {p p' : Projection} {now : Time} {activity : List ActivityRow} {dimensions : List DimensionRow}

theorem tables_replaceBuckets (hne : keys ≠ []) :
    p.replaceBuckets keys (keys.map dimensionKey) activity dimensions now =
      (((p.kept keys).insertActivity activity now).insertDimensions dimensions now).recordState
        (earliest (keys.map (·.bucketStartAt)))
        (latest (keys.map (·.bucketStartAt)) + minuteLength) now := by
  rw [replaceBuckets, if_neg (by rwa [List.isEmpty_iff])]
  rfl

theorem recordState_from {from_ to_ t : Time} :
    (∃ s ∈ (p.recordState from_ to_ now).state, s.coveredFrom ≤ t) ↔
      (∃ s ∈ p.state, s.coveredFrom ≤ t) ∨ from_ ≤ t := by
  cases hs : p.state <;> simp [recordState, hs]

theorem recordState_through {from_ to_ t : Time} :
    (∃ s ∈ (p.recordState from_ to_ now).state, t ≤ s.coveredThrough) ↔
      (∃ s ∈ p.state, t ≤ s.coveredThrough) ∨ t ≤ to_ := by
  cases hs : p.state <;> simp [recordState, hs]

theorem earliest_le_iff (hne : keys ≠ []) {t : Time} :
    earliest (keys.map (·.bucketStartAt)) ≤ t ↔ ∃ key, key ∈ keys ∧ key.bucketStartAt ≤ t := by
  obtain ⟨hmem, hle⟩ := earliest_mem (show keys.map (·.bucketStartAt) ≠ [] by simpa)
  constructor
  · intro h
    obtain ⟨key, hk, heq⟩ := mem_map.1 hmem
    exact ⟨key, hk, heq ▸ h⟩
  · rintro ⟨key, hk, h⟩
    exact le_trans (hle _ (mem_map_of_mem hk)) h

theorem le_latest_iff (hne : keys ≠ []) {t : Time} :
    t ≤ latest (keys.map (·.bucketStartAt)) + minuteLength ↔
      ∃ key, key ∈ keys ∧ t ≤ key.bucketStartAt + minuteLength := by
  obtain ⟨hmem, hle⟩ := latest_mem (show keys.map (·.bucketStartAt) ≠ [] by simpa)
  constructor
  · intro h
    obtain ⟨key, hk, heq⟩ := mem_map.1 hmem
    exact ⟨key, hk, heq ▸ h⟩
  · rintro ⟨key, hk, h⟩
    exact Int.le_trans h (Int.add_le_add_right (hle _ (mem_map_of_mem hk)) _)

theorem refreshedBuckets_replaceBuckets (hkeys : AlignedKeys keys) (hne : keys ≠ []) :
    RefreshedBuckets events (· ∈ keys) p
      (p.replaceBuckets keys (keys.map dimensionKey)
        (filteredActivityRows keys (readsOf events keys))
        (filteredDimensionRows keys (readsOf events keys)) now) where
  activity key hk := by
    obtain ⟨x, ⟨hx, hxk⟩, _⟩ := existsUnique_read hkeys (range_readsOf events keys) hk
    have hcontent : content x.snapshot = events := by
      obtain ⟨q, _, rfl⟩ := mem_map.1 hx
      exact content_map_insert events
    have hm {table} (h : Mirrors table key (content x.snapshot)) : Mirrors table key events :=
      hcontent ▸ h
    exact hm (mirrors_replaceBuckets hkeys (range_readsOf events keys) hk hx hxk)
  activity_frame key hk := get?_replaceBuckets hk
  dimensions g hg := by
    rw [tables_replaceBuckets hne]
    refine count_putAll_dimensionEntries (f := fun k =>
      decide ((⟨k.1.endpointId, k.1.bucketStartAt⟩ : MinuteKey) ∈ keys.map dimensionKey) &&
        decide (k.2 = dimensionBucketSeconds)) ?_ fun n => ?_
    · rw [decide_eq_true ((mem_dimensionKeys hkeys).2 hg), decide_eq_true rfl, Bool.and_self]
    · rw [mem_filteredDimensionRows_iff hkeys, and_iff_right hg]
  dimensions_frame g width hg := by
    rw [tables_replaceBuckets hne]
    refine get?_putAll_dimensionEntries (f := fun k =>
      decide ((⟨k.1.endpointId, k.1.bucketStartAt⟩ : MinuteKey) ∈ keys.map dimensionKey) &&
        decide (k.2 = dimensionBucketSeconds)) ?_ fun x hx heq => ?_
    · rw [← Bool.not_eq_true, Bool.and_eq_true, decide_eq_true_eq, decide_eq_true_eq,
        mem_dimensionKeys hkeys, and_comm]
      exact hg
    · cases heq
      exact hg ⟨rfl, ((mem_filteredDimensionRows_iff hkeys).1 hx).1⟩
  coverage := by rw [tables_replaceBuckets hne]; rfl
  covered_from t := by
    rw [tables_replaceBuckets hne, recordState_from, earliest_le_iff hne]
    rfl
  covered_through t := by
    rw [tables_replaceBuckets hne, recordState_through, le_latest_iff hne]
    rfl

theorem kept_nil (p : Projection) : p.kept [] = p := by
  have hdelete {κ ρ : Type} (t : Table κ ρ) : (t.delete fun _ _ => false) = t := by
    obtain ⟨rows, _⟩ := t
    simp [delete]
  exact congrArg₂ (fun a d => { p with activity := a, dimensions := d }) (hdelete p.activity)
    (hdelete p.dimensions)

variable (events p now) in
theorem refreshBuckets_of_ne_nil (hkeys : Job.refreshableKeys frozen bucketKeys = keys)
    (hne : keys ≠ []) :
    ∃ result, p.refreshBuckets events frozen now bucketKeys = .ok (result,
      p.replaceBuckets keys (keys.map dimensionKey)
        (filteredActivityRows keys (readsOf events keys))
        (filteredDimensionRows keys (readsOf events keys)) now) := by
  have hnormalized : normalizedKeys bucketKeys ≠ [] := fun h => hne (by
    rw [← hkeys, Job.refreshableKeys, h, List.filter_nil])
  have hrows := queryRows_eq events (fun q (hq : q ∈ queryWindows keys) =>
    nonempty_of_mem_queryWindows hq) ([], [])
  simp only [Projection.refreshBuckets, List.isEmpty_iff, hkeys, if_neg hne, if_neg hnormalized,
    hrows, bind, Except.bind, List.nil_append, activityRows_readsOf, dimensionRows_readsOf]
  exact ⟨_, rfl⟩

variable (events p now) in
theorem refreshBuckets_of_nil (hnil : Job.refreshableKeys frozen bucketKeys = []) :
    ∃ result, p.refreshBuckets events frozen now bucketKeys = .ok (result, p) := by
  simp only [Projection.refreshBuckets, List.isEmpty_iff, hnil]
  split
  · exact ⟨_, rfl⟩
  · exact ⟨_, rfl⟩

theorem refreshBuckets_spec (events : List EventRecord) (now : Time) (p : Projection)
    (hkeys : Job.refreshableKeys frozen bucketKeys = keys) :
    ∃ result p', p.refreshBuckets events frozen now bucketKeys = .ok (result, p') ∧
      RefreshedBuckets events (· ∈ keys) p p' ∧
      p'.activity = (p.kept keys).activity.putAll
        (activityEntries (filteredActivityRows keys (readsOf events keys)) now) ∧
      p'.dimensions = (p.kept keys).dimensions.putAll
        (dimensionEntries (filteredDimensionRows keys (readsOf events keys)) now) := by
  by_cases hne : keys = []
  · subst hne
    obtain ⟨result, hresult⟩ := refreshBuckets_of_nil events p now hkeys
    rw [kept_nil]
    exact ⟨result, p, hresult, (RefreshedBuckets.refl events p).congr (by simp), rfl, rfl⟩
  · obtain ⟨result, hresult⟩ := refreshBuckets_of_ne_nil events p now hkeys hne
    refine ⟨result, _, hresult, refreshedBuckets_replaceBuckets
      (hkeys ▸ alignedKeys_refreshableKeys frozen bucketKeys) hne, ?_, ?_⟩
    · rw [tables_replaceBuckets hne]
      rfl
    · rw [tables_replaceBuckets hne]
      rfl

theorem refreshEach_spec (events : List EventRecord) (frozen : Day → Bool) (clock : Nat → Time)
    (n : Nat) (bucketKeys : List MinuteKey) (p : Projection) :
    ∃ p', p.refreshEach events frozen clock n bucketKeys = .ok p' ∧
      RefreshedBuckets events (· ∈ Job.refreshableKeys frozen bucketKeys) p p' := by
  induction bucketKeys generalizing n p with
  | nil => exact ⟨p, rfl, (RefreshedBuckets.refl events p).congr (by simp [mem_refreshableKeys,
      mem_normalizedKeys])⟩
  | cons key keys ih =>
    obtain ⟨result, p₁, h₁, hr₁, -⟩ := refreshBuckets_spec events (clock n) p
      (rfl : Job.refreshableKeys frozen [key] = _)
    obtain ⟨p₂, h₂, hr₂⟩ := ih (n + 1) p₁
    refine ⟨p₂, ?_, (hr₁.trans hr₂).congr fun k => ?_⟩
    · rw [Projection.refreshEach, h₁]
      exact h₂
    · simp only [mem_refreshableKeys, mem_normalizedKeys, mem_cons, exists_eq_or_imp]
      tauto

end

end Edr.Rollup
