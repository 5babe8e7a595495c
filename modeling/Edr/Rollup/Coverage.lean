import Edr.Lib.Intervals
import Edr.Rollup.Range

/-!
# Coverage of the rollup

A row of `dashboard_rollup_coverage` says that a minute was refreshed for all the endpoints. Two
queries ask what is covered, and they count in different ways: `missing_ranges` joins the minutes that
are wanted with the rows, and takes those without a row together to ranges, in a loop; `covers_range`
only counts the rows, and compares their number with that of the minutes. They agree because a key of
the table is a minute, and is there once.
-/

namespace Edr.Rollup

open List Table Int

open Projection

/-! ## The code -/

def coverageBounds (from_ to_ : Time) : Time × Time :=
  let requiredFrom := startOfMinute from_
  let requiredThrough := startOfMinute to_
  (requiredFrom,
    if requiredThrough < to_ then requiredThrough + minuteLength else requiredThrough)

/-- The query of `missing_ranges`: the minutes that have no row in the table. -/
def Projection.missingMinutes (requiredFrom requiredThrough : Time) (p : Projection) : List Time :=
  (minutes requiredFrom requiredThrough).filter fun t => (p.coverage.get? t).isNone

/-- `missing_ranges`. Its loop takes the minutes together to runs. -/
def Projection.missingRanges (from_ to_ : Time) (p : Projection) : List (Time × Time) :=
  if to_ ≤ from_ then []
  else
    let (requiredFrom, requiredThrough) := coverageBounds from_ to_
    Intervals.runs minuteLength (p.missingMinutes requiredFrom requiredThrough)

def Projection.coversRange (from_ to_ : Time) (p : Projection) : Bool :=
  if to_ ≤ from_ then true
  else
    let (requiredFrom, requiredThrough) := coverageBounds from_ to_
    let count := (p.coverage.select fun t _ =>
      decide (requiredFrom ≤ t) && decide (t < requiredThrough)).length
    decide ((count : Int) = (requiredThrough - requiredFrom) / minuteLength)

/-! ## Minutes -/

def Projection.MinutesCovered (p : Projection) : Prop :=
  ∀ t, (p.coverage.get? t).isSome = true → t % minuteLength = 0

section

variable {p p' : Projection} {q : Range} {rows : List ActivityRow} {dimensions : List DimensionRow}
  {keys dimensionKeys : List MinuteKey} {from_ to_ t now : Time}

theorem minutesCovered_empty : Projection.empty.MinutesCovered := fun _ h => nomatch h

theorem minutesCovered_replaceRange (hp : p.MinutesCovered)
    (h : p.replaceRange q rows dimensions now = .ok p') : p'.MinutesCovered := by
  intro t ht
  by_cases hm : t ∈ minutes q.from_ q.to_
  · obtain ⟨-, -, hmod⟩ := mem_minutes.1 hm
    have hfrom := (exists_replaceRange_iff.1 ⟨p', h⟩).1.1
    unfold minuteLength at *
    grind
  · rw [get?_coverage_replaceRange h hm] at ht
    exact hp t ht

theorem minutesCovered_replaceBuckets (hp : p.MinutesCovered) :
    (p.replaceBuckets keys dimensionKeys rows dimensions now).MinutesCovered := by
  rw [replaceBuckets]
  split
  · exact hp
  · exact hp

theorem startOfMinute_aligned (t : Time) : startOfMinute t % minuteLength = 0 := by
  unfold startOfMinute minuteLength
  grind

theorem startOfMinute_of_aligned (ht : t % minuteLength = 0) : startOfMinute t = t := by
  unfold startOfMinute minuteLength at *
  grind

theorem startOfMinute_eq_iff {m : Time} (hm : m % minuteLength = 0) :
    startOfMinute t = m ↔ m ≤ t ∧ t < m + minuteLength := by
  unfold startOfMinute minuteLength at *
  grind

theorem coverageBounds_aligned (from_ to_ : Time) :
    (coverageBounds from_ to_).1 % minuteLength = 0 ∧
      (coverageBounds from_ to_).2 % minuteLength = 0 := by
  refine ⟨startOfMinute_aligned from_, ?_⟩
  simp only [coverageBounds]
  split
  · rw [add_emod_right]
    exact startOfMinute_aligned to_
  · exact startOfMinute_aligned to_

theorem mem_coverageBounds (hlt : from_ < to_) :
    (coverageBounds from_ to_).1 ≤ t ∧ t < (coverageBounds from_ to_).2 ↔
      ∃ u, (from_ ≤ u ∧ u < to_) ∧ startOfMinute u = startOfMinute t := by
  simp only [coverageBounds]
  constructor
  · rintro ⟨h₀, h₁⟩
    -- The instant itself, or the end of the range that its minute reaches over.
    by_cases hfrom : t < from_
    · refine ⟨from_, ⟨le_refl _, hlt⟩, ?_⟩
      unfold startOfMinute minuteLength at *
      grind
    · by_cases hto : t < to_
      · exact ⟨t, ⟨not_lt.1 hfrom, hto⟩, rfl⟩
      · refine ⟨to_ - 1, by grind, ?_⟩
        unfold startOfMinute minuteLength at *
        grind
  · rintro ⟨u, ⟨h₀, h₁⟩, heq⟩
    unfold startOfMinute minuteLength at *
    grind

theorem mem_minutes_of_aligned (hfrom : from_ % minuteLength = 0) (hto : to_ % minuteLength = 0) :
    t ∈ minutes from_ to_ ↔ (from_ ≤ t ∧ t < to_) ∧ t % minuteLength = 0 := by
  rw [mem_minutes]
  unfold minuteLength at *
  grind

theorem pairwise_minutes (from_ to_ : Time) : (minutes from_ to_).Pairwise (· < ·) := by
  refine pairwise_map.2 (pairwise_lt_range.imp fun {i j} hij => ?_)
  unfold minuteLength
  grind

theorem length_minutes (hle : from_ ≤ to_) :
    ((minutes from_ to_).length : Int) = (to_ - from_) / minuteLength := by
  rw [minutes, length_map, length_range, toNat_of_nonneg]
  unfold minuteLength
  grind

/-! ## The queries -/

theorem mem_missingMinutes (hfrom : from_ % minuteLength = 0) (hto : to_ % minuteLength = 0) :
    t ∈ p.missingMinutes from_ to_ ↔
      ((from_ ≤ t ∧ t < to_) ∧ t % minuteLength = 0) ∧ p.coverage.get? t = none := by
  rw [missingMinutes, mem_filter, mem_minutes_of_aligned hfrom hto, Option.isNone_iff_eq_none]

theorem length_select_eq_iff (hp : p.MinutesCovered) (hfrom : from_ % minuteLength = 0)
    (hto : to_ % minuteLength = 0) (hle : from_ ≤ to_) :
    (((p.coverage.select fun t _ => decide (from_ ≤ t) && decide (t < to_)).length : Int) =
      (to_ - from_) / minuteLength) ↔ p.missingMinutes from_ to_ = [] := by
  rw [← length_minutes hle, natCast_inj]
  -- The keys of the rows are minutes of the range, each one once.
  generalize hrows : (p.coverage.select fun t _ => decide (from_ ≤ t) && decide (t < to_)) = rows
  have hmem (t : Time) : t ∈ rows.map Prod.fst ↔
      (from_ ≤ t ∧ t < to_) ∧ (p.coverage.get? t).isSome = true := by
    simp only [← hrows, mem_map, Prod.exists, exists_and_right, exists_eq_right,
      mem_select, Bool.and_eq_true, decide_eq_true_eq, Option.isSome_iff_exists]
    tauto
  have hnodup : (rows.map Prod.fst).Nodup := hrows ▸ select_nodup _ _
  have hsub : rows.map Prod.fst ⊆ minutes from_ to_ := fun t ht => by
    obtain ⟨hrange, hsome⟩ := (hmem t).1 ht
    exact (mem_minutes_of_aligned hfrom hto).2 ⟨hrange, hp t hsome⟩
  have hnil : p.missingMinutes from_ to_ = [] ↔ minutes from_ to_ ⊆ rows.map Prod.fst := by
    rw [eq_nil_iff_forall_not_mem]
    refine forall_congr' fun t => ?_
    rw [mem_missingMinutes hfrom hto, hmem, mem_minutes_of_aligned hfrom hto]
    cases p.coverage.get? t <;> simp +contextual
  have hlength : rows.length = (rows.map Prod.fst).length := (length_map _).symm
  rw [hnil, hlength]
  constructor
  · intro hlen
    exact ((subperm_of_subset hnodup hsub).perm_of_length_le hlen.ge).symm.subset
  · intro hsup
    have hminutes : (minutes from_ to_).Nodup := (pairwise_minutes from_ to_).imp ne_of_lt
    exact ((perm_ext_iff_of_nodup hnodup hminutes).2 fun t =>
      ⟨fun h => hsub h, fun h => hsup h⟩).length_eq

theorem missingRanges_eq (hlt : from_ < to_) : p.missingRanges from_ to_ =
    Intervals.runs minuteLength
      (p.missingMinutes (coverageBounds from_ to_).1 (coverageBounds from_ to_).2) :=
  if_neg (not_le.2 hlt)

theorem pairwise_missingMinutes (p : Projection) (from_ to_ : Time) :
    (p.missingMinutes from_ to_).Pairwise (· ≤ ·) :=
  ((pairwise_minutes from_ to_).filter _).imp le_of_lt

theorem covers_missingRanges (hlt : from_ < to_) :
    Intervals.Covers (p.missingRanges from_ to_) t ↔
      (∃ u, (from_ ≤ u ∧ u < to_) ∧ startOfMinute u = startOfMinute t) ∧
        p.coverage.get? (startOfMinute t) = none := by
  obtain ⟨hfrom, hto⟩ := coverageBounds_aligned from_ to_
  rw [missingRanges_eq hlt, Intervals.covers_runs (pairwise_missingMinutes p _ _)]
  constructor
  · rintro ⟨m, hm, ht⟩
    obtain ⟨⟨hrange, haligned⟩, hnone⟩ := (mem_missingMinutes hfrom hto).1 hm
    obtain rfl := (startOfMinute_eq_iff haligned).2 ht
    rw [mem_coverageBounds hlt, startOfMinute_startOfMinute] at hrange
    exact ⟨hrange, hnone⟩
  · rintro ⟨hmeets, hnone⟩
    have haligned := startOfMinute_aligned t
    refine ⟨startOfMinute t, (mem_missingMinutes hfrom hto).2 ⟨⟨?_, haligned⟩, hnone⟩,
      (startOfMinute_eq_iff haligned).1 rfl⟩
    rwa [mem_coverageBounds hlt, startOfMinute_startOfMinute]

theorem aligned_of_mem_missingRanges {r : Time × Time} (hr : r ∈ p.missingRanges from_ to_) :
    r.1 % minuteLength = 0 ∧ r.2 % minuteLength = 0 := by
  have hlt : from_ < to_ := by
    by_contra hle
    rw [Projection.missingRanges, if_pos (not_lt.1 hle)] at hr
    exact not_mem_nil hr
  obtain ⟨hfrom, hto⟩ := coverageBounds_aligned from_ to_
  rw [missingRanges_eq hlt] at hr
  obtain ⟨h₁, m, hm, h₂⟩ := Intervals.mem_runs hr
  refine ⟨((mem_missingMinutes hfrom hto).1 h₁).1.2, ?_⟩
  rw [h₂, add_emod_right]
  exact ((mem_missingMinutes hfrom hto).1 hm).1.2

theorem separated_missingRanges (p : Projection) (hlt : from_ < to_) :
    Intervals.Separated (p.missingRanges from_ to_) := by
  rw [missingRanges_eq hlt]
  exact Intervals.separated_runs (by decide) (pairwise_missingMinutes p _ _)

theorem missingRanges_eq_nil_iff (hp : p.MinutesCovered) (hlt : from_ < to_) :
    p.missingRanges from_ to_ = [] ↔ p.coversRange from_ to_ = true := by
  obtain ⟨hfrom, hto⟩ := coverageBounds_aligned from_ to_
  have hle : (coverageBounds from_ to_).1 ≤ (coverageBounds from_ to_).2 := by
    obtain ⟨h₀, h₁⟩ := (mem_coverageBounds hlt).2 ⟨from_, ⟨le_refl _, hlt⟩, rfl⟩
    exact le_trans h₀ (le_of_lt h₁)
  rw [missingRanges_eq hlt, Intervals.runs_eq_nil, ← length_select_eq_iff hp hfrom hto hle,
    coversRange, if_neg (not_le.2 hlt), decide_eq_true_eq]

/-- `missing_ranges`, where some minutes are covered: its ranges are not empty and have minutes as
    bounds, each one ends before the next one starts, and they have the instants whose minute meets
    the range and is not covered. There are none if and only if `covers_range` is true. -/
theorem missingRanges_spec (p : Projection) (from_ to_ : Time) (hp : p.MinutesCovered)
    (hlt : from_ < to_) :
    Intervals.Separated (p.missingRanges from_ to_) ∧
      (∀ r ∈ p.missingRanges from_ to_, r.1 % minuteLength = 0 ∧ r.2 % minuteLength = 0) ∧
      (∀ t, Intervals.Covers (p.missingRanges from_ to_) t ↔
        (∃ u, (from_ ≤ u ∧ u < to_) ∧ startOfMinute u = startOfMinute t) ∧
          p.coverage.get? (startOfMinute t) = none) ∧
      (p.missingRanges from_ to_ = [] ↔ p.coversRange from_ to_ = true) :=
  ⟨separated_missingRanges p hlt, fun _ => aligned_of_mem_missingRanges,
    fun _ => covers_missingRanges hlt, missingRanges_eq_nil_iff hp hlt⟩

/-- A hole of one minute, in a range that starts and ends within minutes. -/
theorem missingRanges_spec_hole :
    (Projection.empty.recordCoverage 60000 120000 5).missingRanges 30500 150000 =
        [(0, 60000), (120000, 180000)] ∧
      (Projection.empty.recordCoverage 60000 120000 5).coversRange 30500 150000 = false := by
  have hp : (Projection.empty.recordCoverage 60000 120000 5).MinutesCovered := by
    intro t ht
    by_contra h
    have hne : 60000 ≠ t := by
      rintro rfl
      exact h (by decide)
    have hnone : (Projection.empty.recordCoverage 60000 120000 5).coverage.get? t = none :=
      get?_putAll_of_not_mem (fun x hx => by
        obtain rfl := mem_singleton.1 hx
        exact hne) _
    rw [hnone] at ht
    cases ht
  obtain ⟨_, _, _, hnil⟩ := missingRanges_spec _ 30500 150000 hp (by decide)
  have hranges : (Projection.empty.recordCoverage 60000 120000 5).missingRanges 30500 150000 =
      [(0, 60000), (120000, 180000)] := by decide
  refine ⟨hranges, ?_⟩
  rw [← Bool.not_eq_true, ← hnil, hranges]
  exact cons_ne_nil _ _

end

end Edr.Rollup
