import Edr.Rollup.Fresh
import Edr.Rollup.Range

/-!
# Frozen dates

A date is frozen when its deletion is claimed, and from then on ClickHouse is no longer a complete
source for it. No refresh changes a row of such a date, whatever it is asked for: the lookup of the
frozen dates leaves them out, and a refresh that was open before holds the locks of the dates that it
is about, which the claim waits for.
-/

namespace Edr.Rollup

open List Function Catalog Projection MinuteKey Int

/-! ## Statements -/

/-- The range is one of whole minutes, has an instant, and has none on the date. -/
structure Range.Avoids (d : Day) (q : Range) : Prop where
  aligned : q.Aligned
  nonempty : q.from_ < q.to_
  date : ∀ t, q.from_ ≤ t → t < q.to_ → dateOf t ≠ d

def Statement.Avoids (d : Day) : Statement → Prop
  | selectActivity q | selectDimensions q | replaceRange q => q.Avoids d
  | replaceBuckets keys => AlignedKeys keys ∧ ∀ k ∈ keys, k.date ≠ d

theorem AgreeOn.refl (d : Day) (p : Projection) : AgreeOn d p p :=
  ⟨fun _ _ _ => rfl, fun _ _ _ => rfl, fun _ _ => rfl⟩

theorem AgreeOn.trans {d : Day} {p p' p'' : Projection} (h : AgreeOn d p p')
    (h' : AgreeOn d p' p'') : AgreeOn d p p'' where
  activity key hk eventType := (h'.activity key hk eventType).trans (h.activity key hk eventType)
  dimensions g hg width := (h'.dimensions g hg width).trans (h.dimensions g hg width)
  coverage t ht := (h'.coverage t ht).trans (h.coverage t ht)

section

variable {d : Day} {q : Range} {key : MinuteKey} {keys : List MinuteKey} {t : Time}
  {p p' : Projection} {activity dimensions : List Read} {now : Time} {y : Read}

theorem Range.Avoids.hasKey (h : q.Avoids d) (hk : key.date = d) : q.hasKey key = false := by
  rw [← Bool.not_eq_true, hasKey_iff]
  rintro ⟨hfrom, hto, _⟩
  exact h.date _ hfrom hto hk

theorem Range.Avoids.hour (h : q.Avoids d) {endpointId : Int} (ht : dateOf t = d) :
    (expandedBucketBounds q).hasKey ⟨endpointId, t⟩ = false := by
  rw [← Bool.not_eq_true, hasKey_iff]
  rintro ⟨hfrom, hto, _⟩
  obtain ⟨u, ⟨hu, hu'⟩, heq⟩ := (mem_expandedBucketBounds h.aligned h.nonempty).1 ⟨hfrom, hto⟩
  exact h.date u hu hu' ((dateOf_eq_of_startOfHour heq).trans ht)

theorem Range.Avoids.activityRows (h : y.range.Avoids d) {x : ActivityRow}
    (hx : x ∈ y.activityRows) : x.key.date ≠ d := by
  intro hd
  have hk := ((mem_activityRows h.aligned).1 hx).1
  rw [h.hasKey hd] at hk
  cases hk

theorem Range.Avoids.dimensionRows (h : y.range.Avoids d) {x : DimensionRow}
    (hx : x ∈ y.dimensionRows) : dateOf x.group.bucketStartAt ≠ d := by
  intro hd
  have hk := (hasKey_of_mem_dimensionRows h.aligned hx).1
  rw [h.hour hd] at hk
  cases hk

theorem agreeOn_replaceRange (hq : q.Avoids d) (ha : ∀ y ∈ activity, y.range.Avoids d)
    (hd : ∀ y ∈ dimensions, y.range.Avoids d)
    (h : p.replaceRange q (activity.flatMap Read.activityRows)
      (dimensions.flatMap Read.dimensionRows) now = .ok p') : AgreeOn d p p' where
  activity key hk eventType := by
    rw [(tables_replaceRange h).1]
    refine get?_putAll_activityEntries (hq.hasKey hk) (fun x hx heq => ?_) eventType
    obtain ⟨y, hy, hx⟩ := mem_flatMap.1 hx
    exact (ha y hy).activityRows hx (heq ▸ hk)
  dimensions g hg width := by
    rw [(tables_replaceRange h).2.1]
    refine get?_putAll_dimensionEntries ?_ fun x hx heq => ?_
    · rw [hq.hour hg, Bool.false_and]
    · obtain ⟨y, hy, hx⟩ := mem_flatMap.1 hx
      cases heq
      exact (hd y hy).dimensionRows hx hg
  coverage t ht := by
    refine get?_coverage_replaceRange h fun hm => ?_
    obtain ⟨hfrom, hto, _⟩ := mem_minutes.1 hm
    exact hq.date t hfrom (lt_of_lt_of_le (lt_add_of_pos_right t (by decide)) hto) ht

theorem dimensionBucket_eq (ht : t % minuteLength = 0) : dimensionBucket t = startOfHour t := by
  rw [dimensionBucket, tdiv_thousand ht]
  unfold startOfHour dimensionBucketSeconds
  unfold hourLength minuteLength at *
  grind

theorem dateOf_dimensionKey (hkeys : AlignedKeys keys) (hk : key ∈ keys.map dimensionKey) :
    ∃ k ∈ keys, k.date = key.date := by
  obtain ⟨k, hmem, rfl⟩ := mem_map.1 hk
  refine ⟨k, hmem, ?_⟩
  rw [date, date, dimensionKey, dimensionBucket_eq (hkeys k hmem),
    dateOf_startOfHour]

theorem agreeOn_replaceBuckets (hkeys : AlignedKeys keys) (hk : ∀ k ∈ keys, k.date ≠ d)
    (hd : ∀ y ∈ dimensions, y.range.Avoids d) :
    AgreeOn d p (p.replaceBuckets keys (keys.map dimensionKey)
      (filteredActivityRows keys activity) (filteredDimensionRows keys dimensions) now) := by
  by_cases hne : keys = []
  · rw [hne]
    exact .refl d p
  have htables : (p.replaceBuckets keys (keys.map dimensionKey)
      (filteredActivityRows keys activity) (filteredDimensionRows keys dimensions) now).dimensions =
      (p.dimensions.delete fun k _ =>
        decide ((⟨k.1.endpointId, k.1.bucketStartAt⟩ : MinuteKey) ∈
          keys.map dimensionKey) && decide (k.2 = dimensionBucketSeconds)).putAll
        (dimensionEntries (filteredDimensionRows keys dimensions) now) := by
    rw [replaceBuckets, if_neg (by rwa [List.isEmpty_iff])]
    rfl
  refine ⟨fun key hkey => get?_replaceBuckets fun hmem => hk key hmem hkey, fun g hg width => ?_,
    fun t _ => ?_⟩
  · rw [htables]
    refine get?_putAll_dimensionEntries ?_
      fun x hx heq => ?_
    · rw [decide_eq_false, Bool.false_and]
      intro hmem
      obtain ⟨k, hkk, hdate⟩ := dateOf_dimensionKey hkeys hmem
      exact hk k hkk (hdate.trans hg)
    · cases heq
      obtain ⟨y, hy, hx⟩ := List.mem_flatMap.1 (List.mem_filter.1 hx).1
      exact (hd y hy).dimensionRows hx hg
  · rw [replaceBuckets, if_neg (by rwa [List.isEmpty_iff])]
    rfl

end

/-! ## A refresh -/

namespace Refresh

variable {d : Day} {x x' : Refresh} {log : Snapshot} {now : Time}

/-- What is left to do, and what was read for it, is about nothing on the date. -/
structure Avoids (d : Day) (x : Refresh) : Prop where
  todo : ∀ statement ∈ x.todo, statement.Avoids d
  activity : ∀ y ∈ x.activity, y.range.Avoids d
  dimensions : ∀ y ∈ x.dimensions, y.range.Avoids d

theorem Avoids.execute (h : x.Avoids d) (hx : x.execute log now = some x') :
    x'.Avoids d ∧ AgreeOn d x.working.tables x'.working.tables := by
  obtain ⟨flushing, locked, todo, activity, dimensions, working⟩ := x
  obtain ⟨htodo, hactivity, hdimensions⟩ := h
  cases todo with
  | nil => cases hx
  | cons statement todo =>
    obtain ⟨hstatement, hrest⟩ := forall_mem_cons.1 htodo
    cases statement with
    | selectActivity q =>
      cases hx
      refine ⟨⟨hrest, fun y hy => ?_, hdimensions⟩, .refl _ _⟩
      rcases mem_append.1 hy with hy | hy
      · exact hactivity y hy
      · cases mem_singleton.1 hy
        exact hstatement
    | selectDimensions q =>
      cases hx
      refine ⟨⟨hrest, hactivity, fun y hy => ?_⟩, .refl _ _⟩
      rcases mem_append.1 hy with hy | hy
      · exact hdimensions y hy
      · cases mem_singleton.1 hy
        exact hstatement
    | replaceBuckets keys =>
      cases hx
      exact ⟨⟨hrest, fun _ h => (by cases h), fun _ h => (by cases h)⟩,
        agreeOn_replaceBuckets hstatement.1 hstatement.2 hdimensions⟩
    | replaceRange q =>
      rcases hm : working.replaceRange q activity dimensions now with e | working'
      · simp only [Refresh.execute, hm] at hx
        cases hx
      · simp only [Refresh.execute, hm] at hx
        cases hx
        exact ⟨⟨hrest, fun _ h => (by cases h), fun _ h => (by cases h)⟩,
          agreeOn_replaceRange hstatement hactivity hdimensions (Mirror.tables_replaceRange hm).1⟩

end Refresh

section

variable {frozen : Day → Bool} {d : Day} {q : Range} {t : Time} {bucketKeys keys : List MinuteKey}
  {job : Job}

theorem mem_bucketDatesForRange (hfrom : q.from_ ≤ t) (hto : t < q.to_) :
    dateOf t ∈ bucketDatesForRange q := by
  have h₀ : dateOf q.from_ ≤ dateOf t := Int.ediv_le_ediv (by decide) hfrom
  have h₁ : dateOf t ≤ dateOf (q.to_ - 1) :=
    Int.ediv_le_ediv (by decide) (Int.le_sub_one_of_lt hto)
  rw [bucketDatesForRange, mem_map]
  refine ⟨(dateOf t - dateOf q.from_).toNat, ?_, ?_⟩
  · rw [mem_range]
    grind
  · rw [Int.toNat_of_nonneg (Int.sub_nonneg_of_le h₀)]
    grind

theorem avoids_queryWindows (hkeys : AlignedKeys keys) (hd : ∀ k ∈ keys, k.date ≠ d)
    (hq : q ∈ queryWindows keys) : q.Avoids d := by
  obtain ⟨w, hw, rfl⟩ := mem_map.1 hq
  obtain ⟨haligned, hfrom, hto⟩ := windowRange_bounds hkeys hw
  obtain ⟨k, hk, rfl⟩ := mem_windows.1 hw
  obtain ⟨hk₀, hk₁, _⟩ := hasKey_iff.1 (hasKey_windowRange hk)
  refine ⟨haligned, lt_of_le_of_lt hk₀ hk₁, fun t ht₀ ht₁ hdate => hd k hk ?_⟩
  have hw₀ := le_trans hfrom ht₀
  have hw₁ := lt_of_lt_of_le ht₁ hto
  -- The instant is in the hour of the bucket.
  rw [queryWindow_eq (hkeys k hk)] at hw₀ hw₁
  rw [← hdate]
  refine (dateOf_eq_of_startOfHour ?_).symm
  unfold startOfHour
  unfold hourLength at *
  grind

theorem Job.avoids_statements (hjob : job.accepted = true)
    (hd : d ∉ job.bucketDates ∨ frozen d = true) :
    ∀ statement ∈ job.statements frozen, statement.Avoids d := by
  cases job with
  | buckets bucketKeys =>
    have haligned := alignedKeys_refreshableKeys frozen bucketKeys
    have hkeys : ∀ k ∈ refreshableKeys frozen bucketKeys, k.date ≠ d := by
      rintro k hk rfl
      obtain ⟨hmem, hf⟩ := mem_refreshableKeys.1 hk
      rcases hd with hd | hd
      · refine hd ((perm_insertionSort _ _).mem_iff.2 (mem_dedup.2 ?_))
        exact mem_map_of_mem hmem
      · rw [hf] at hd
        cases hd
    intro statement hs
    simp only [Job.statements] at hs
    split_ifs at hs
    · cases hs
    rcases mem_append.1 hs with hs | hs
    · obtain ⟨q, hq, hs⟩ := mem_flatMap.1 hs
      have hq := avoids_queryWindows haligned hkeys hq
      simp only [selects, mem_cons, not_mem_nil, or_false] at hs
      rcases hs with rfl | rfl <;> exact hq
    · cases mem_singleton.1 hs
      exact ⟨haligned, hkeys⟩
  | range q =>
    simp only [Job.accepted, Bool.and_eq_true, decide_eq_true_eq] at hjob
    intro statement hs
    obtain ⟨s, hseg, hs⟩ := mem_flatMap.1 hs
    obtain ⟨haligned, hlt, _⟩ := aligned_of_mem_segments hjob.2 hjob.1 hseg
    have hs' : s.Avoids d := by
      refine ⟨haligned, hlt, fun t ht₀ ht₁ hdate => ?_⟩
      obtain ⟨hfrom, hto, hf⟩ := (exists_segment_iff hjob.1).1 ⟨s, hseg, ht₀, ht₁⟩
      rcases hd with hd | hd
      · exact hd (hdate ▸ mem_bucketDatesForRange hfrom hto)
      · rw [hdate, hd] at hf
        cases hf
    simp only [selects, mem_append, mem_cons, not_mem_nil, or_false] at hs
    rcases hs with (rfl | rfl) | rfl <;> exact hs'

end

/-! ## Every run -/

theorem frozen_or_lockedDate {c : Catalog} {op : Catalog.Op} {d : Day}
    (h : (c.perform op).frozen d = true) : c.frozen d = true ∨ lockedDate op = some d := by
  by_cases hr : op.isRestore = true
  · left
    rwa [← frozen_congr fun k => by rw [(perform_isRestore hr).hot]]
  cases op with
  | hotIngest k =>
    left
    rw [perform] at h
    split at h
    · rwa [frozen_applyGuard] at h
    · exact h
  | record k path n size checksum now =>
    left
    rw [perform] at h
    split at h
    · rwa [frozen_recordVerifiedArchive] at h
    · exact h
  | claimPartitionDeletion d' t =>
    by_cases hd : d' = d
    · exact .inr (congrArg some hd)
    · exact .inl ((frozen_claimPartitionDeletion hd t).symm.trans h)
  | markPartitionDeleted d' t => exact .inl ((frozen_markPartitionDeleted d' t).symm.trans h)
  | _ => exact absurd rfl hr

namespace Synchronizer

variable {frozen : Day → Bool} {m : Mirror} {x : Synchronizer}

def DatesOk (frozen : Day → Bool) (m : Mirror) (x : Synchronizer) : Prop :=
  match x.phase with
  | .idle | .flushed => True
  | .guarding _ job locked left =>
    job.accepted = true ∧ ∀ d ∈ job.bucketDates, d ∈ locked ∨ d ∈ left
  | .refreshing y => ∀ d, d ∉ y.locked ∨ frozen d = true →
    y.Avoids d ∧ AgreeOn d m.tables y.working.tables

theorem DatesOk.of_writer {m' : Mirror} {frozen' : Day → Bool} (h : x.phase.writer ≠ some ()) :
    x.DatesOk frozen' m' := by
  obtain ⟨phase, dirtyBuckets, pendingMessages⟩ := x
  cases phase with
  | idle | flushed => trivial
  | guarding | refreshing => exact absurd rfl h

end Synchronizer

namespace Sync

variable {W : Type} {s t : Sync W} {a : SyncLabel W}

def DatesOk (s : Sync W) : Prop := ∀ w, (s.synchronizers w).DatesOk s.catalog.frozen s.mirror

theorem DatesOk.change (h : s.DatesOk) {log : Snapshot} {catalog : Catalog}
    (hfrozen : ∀ d, catalog.frozen d = true → s.catalog.frozen d = true ∨ s.dateFree d) :
    DatesOk { s with log, catalog } := by
  intro w
  have hw := h w
  have hfree : ∀ d, s.dateFree d → d ∉ (s.synchronizers w).phase.lockedDates := fun d hd => hd w
  change (s.synchronizers w).DatesOk catalog.frozen s.mirror
  generalize s.synchronizers w = x at hw hfree
  obtain ⟨phase, dirtyBuckets, pendingMessages⟩ := x
  cases phase with
  | idle | flushed => trivial
  | guarding flushing job locked left => exact hw
  | refreshing y =>
    intro d hd
    refine hw d (hd.elim .inl fun hf => ?_)
    exact (hfrozen d hf).symm.imp_left (hfree d)

variable [DecidableEq W] {w : W} {x : Synchronizer}

theorem DatesOk.put (h : s.DatesOk) (hx : x.DatesOk s.catalog.frozen s.mirror) :
    (s.put w x).DatesOk := by
  rw [DatesOk, Sync.put, forall_update_iff s.synchronizers fun _ y =>
    y.DatesOk s.catalog.frozen s.mirror]
  exact ⟨hx, fun w' _ => h w'⟩

theorem DatesOk.step {before : MinuteKey → Option Snapshot} (h : s.DatesOk) (hinv : s.Inv before)
    (hstep : s.Step a t) : t.DatesOk := by
  cases hstep with
  | insert | drop => exact h.change fun _ hd => .inl hd
  | catalog hfree =>
    refine h.change fun d hd => ?_
    exact (frozen_or_lockedDate hd).imp_right fun hop => hfree d hop
  | publish | commitOffset => exact h
  | deliver hphase =>
    refine h.put (.of_writer ?_)
    rw [Synchronizer.consume, hphase]
    exact fun h => by cases h
  | begin _ hjob _ => exact h.put ⟨hjob, fun d hd => .inr hd⟩
  | flush _ _ hjob _ => exact h.put ⟨hjob, fun d hd => .inr hd⟩
  | @lockDate w flushing job locked d left hphase =>
    have hw := h w
    rw [Synchronizer.DatesOk, hphase] at hw
    refine h.put ⟨hw.1, fun d' hd' => ?_⟩
    rcases hw.2 d' hd' with hl | hl
    · exact .inl (mem_cons_of_mem d hl)
    · rcases mem_cons.1 hl with rfl | hl
      · exact .inl mem_cons_self
      · exact .inr hl
  | @lookUp w flushing job locked hphase =>
    have hw := h w
    rw [Synchronizer.DatesOk, hphase] at hw
    refine h.put fun d hd => ⟨⟨?_, fun _ h => (by cases h), fun _ h => (by cases h)⟩, .refl _ _⟩
    -- All the locks are held, and what is frozen is left out.
    refine Job.avoids_statements hw.1 (hd.imp_left fun hd hmem => ?_)
    exact (hw.2 d hmem).elim hd fun h => (by cases h)
  | @execute w now y y' hphase hy =>
    have hw := h w
    rw [Synchronizer.DatesOk, hphase] at hw
    refine h.put fun d hd => ?_
    rw [(Refresh.frame_execute hy).2] at hd
    obtain ⟨havoids, hagree⟩ := hw d hd
    exact (havoids.execute hy).imp_right hagree.trans
  | @commit w y hphase _ =>
    have hwriter : (s.synchronizers w).phase.writer = some () := by rw [hphase]; rfl
    intro w'
    by_cases hw' : w' = w
    · subst hw'
      refine .of_writer ?_
      simp only [Sync.move, Sync.put, update_self]
      cases y.flushing <;> exact fun h => by cases h
    · refine .of_writer ?_
      simp only [Sync.move, Sync.put, update_of_ne hw']
      exact hinv.exclusive.others_ne hwriter w' hw'
  | rollback | finish | abandon | crash => exact h.put (.of_writer fun h => by cases h)

theorem DatesOk.agreeOn (h : s.DatesOk) (hstep : s.Step a t) {d : Day}
    (hd : s.catalog.frozen d = true) : AgreeOn d s.mirror.tables t.mirror.tables := by
  cases hstep with
  | @commit w y hphase _ =>
    have hw := h w
    rw [Synchronizer.DatesOk, hphase] at hw
    exact (hw d (.inr hd)).2
  | _ => exact .refl _ _

theorem Step.frozen_mono (hstep : s.Step a t) {d : Day} (hd : s.catalog.frozen d = true) :
    t.catalog.frozen d = true := by
  cases hstep with
  | @catalog op _ => exact frozen_perform hd op
  | _ => exact hd

end Sync

section

variable {W : Type} [Fintype W] [DecidableEq W] {s t : Sync W}

theorem datesOk_init {W : Type} : (.init : Sync W).DatesOk := fun _ => trivial

theorem datesOk_of_reachable (h : (syncSystem W).Reachable System.always s) : s.DatesOk :=
  h.invariant datesOk_init fun _ _ _ hr hs _ hn => hs.step (inv_of_reachable hr) (Sync.next_cases hn)

/-- In every run, the rows of a frozen date stay as they are. -/
theorem agreeOn_of_path (hs : (syncSystem W).Reachable System.always s)
    (h : (syncSystem W).Path System.always s t) {d : Day} (hd : s.catalog.frozen d = true) :
    AgreeOn d s.mirror.tables t.mirror.tables := by
  suffices hr : t.catalog.frozen d = true ∧ AgreeOn d s.mirror.tables t.mirror.tables from hr.2
  induction h with
  | refl => exact ⟨hd, .refl _ _⟩
  | step hp _ hn ih =>
    have hstep := Sync.next_cases hn
    refine ⟨hstep.frozen_mono ih.1, ih.2.trans ?_⟩
    exact (datesOk_of_reachable (hs.path hp)).agreeOn hstep ih.1

end

end Edr.Rollup
