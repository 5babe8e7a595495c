import Edr.Catalog.Availability
import Edr.Rollup.Buckets
import Edr.Rollup.Coverage
import Edr.Rollup.Worker

/-!
# Backfill

When the worker of the rollup starts, `_backfill` refreshes what has been missed: the minutes of the
last hours that are not covered, and in any case those of a window before now.
-/

namespace Edr.Rollup

open List Projection Int

open Intervals

/-! ## The code -/

def chunksOf (chunk : Int) (range : Time × Time) : List (Time × Time) :=
  chunks chunk range.2 (chunkCount chunk range) range.1

def backfillStart (hours : Int) (current : Time) : Time :=
  startOfMinute (current - hours * hourLength)

def backfillEnd (current : Time) : Time := startOfMinute current + minuteLength

structure Drained where
  events : List EventRecord
  now : Time
  bucketKeys : List MinuteKey

/-- What a backfill depends on: for each of its chunks, the events in ClickHouse, the clock, and what
    the worker refreshes in the turn after it, if there is one. -/
structure BackfillRun where
  events : Nat → List EventRecord
  clock : Nat → Nat → Time
  afterChunk : Nat → List Drained

namespace Projection

def drainPending (frozen : Day → Bool) : List Drained → Projection → Except String Projection
  | [], p => .ok p
  | x :: turn, p => do
    let (_, p) ← p.refreshBuckets x.events frozen x.now x.bucketKeys
    drainPending frozen turn p

/-- The loops of `_backfill`, from the `n`th chunk on, with the calls of `refresh_range`. -/
def backfillLoop (run : BackfillRun) (frozen : Day → Bool) :
    Nat → List (Time × Time) → Projection → Except String (List Range × Projection)
  | _, [], p => .ok ([], p)
  | n, chunk :: rest, p => do
    let q : Range := ⟨chunk.1, chunk.2, none⟩
    let (_, p) ← p.refreshRange (run.events n) frozen (run.clock n) q
    let p ← drainPending frozen (run.afterChunk n) p
    let (calls, p) ← backfillLoop run frozen (n + 1) rest p
    return (q :: calls, p)

/-- The ranges that `_backfill` starts from; `store` says whether it has one. -/
def backfillRanges (store forceFull : Bool) (hours overlapMinutes : Int) (current : Time)
    (p : Projection) : Except String (List (Time × Time)) :=
  let earliest := backfillStart hours current
  let end_ := backfillEnd current
  if forceFull then .ok [(earliest, end_)]
  else if !store then .error "coverage store is required for incremental backfill"
  else .ok (p.missingRanges earliest end_ ++
    [(max earliest (end_ - overlapMinutes * minuteLength), end_)])

/-- `_backfill`, with the calls of `refresh_range`. -/
def backfill (run : BackfillRun) (frozen : Day → Bool) (store forceFull : Bool)
    (hours overlapMinutes chunkHours : Int) (current : Time) (p : Projection) :
    Except String (List Range × Projection) :=
  if hours < 1 then .error "backfill hours must be positive"
  else if overlapMinutes < 1 then .error "backfill overlap must be positive"
  else if chunkHours < 1 then .error "backfill chunk hours must be positive"
  else do
    let ranges ← backfillRanges store forceFull hours overlapMinutes current p
    let chunks := (mergeRanges ranges).flatMap (chunksOf (chunkHours * hourLength))
    backfillLoop run frozen 0 chunks p

end Projection

/-! ## The ranges -/

section

variable {ranges : List (Time × Time)} {r : Time × Time} {t : Time} {chunk : Int}

theorem nonempty_sortedRanges :
    ∀ r ∈ (ranges.filter fun r => decide (r.1 < r.2)).insertionSort RangeLe, r.1 < r.2 :=
  fun _ hr => of_decide_eq_true (mem_filter.1 ((mem_insertionSort _).1 hr)).2

theorem pairwise_sortedRanges :
    ((ranges.filter fun r => decide (r.1 < r.2)).insertionSort RangeLe).Pairwise
      fun a b => a.1 ≤ b.1 := by
  refine (pairwise_insertionSort RangeLe _).imp fun h => ?_
  rcases h with h | ⟨h, _⟩
  · exact le_of_lt h
  · exact le_of_eq h

theorem mergeRanges_eq (ranges : List (Time × Time)) : mergeRanges ranges =
    mergeAll ((ranges.filter fun r => decide (r.1 < r.2)).insertionSort RangeLe) := by
  have hstep : mergeStep = push := by
    funext merged range
    cases merged <;> rfl
  rw [mergeRanges, hstep]
  rfl

theorem separated_mergeRanges (ranges : List (Time × Time)) : Separated (mergeRanges ranges) := by
  rw [mergeRanges_eq]
  exact separated_mergeAll nonempty_sortedRanges pairwise_sortedRanges

theorem covers_mergeRanges : Covers (mergeRanges ranges) t ↔ Covers ranges t := by
  rw [mergeRanges_eq, covers_mergeAll nonempty_sortedRanges pairwise_sortedRanges]
  refine exists_congr fun r => ?_
  rw [mem_insertionSort, mem_filter, decide_eq_true_eq, and_assoc]
  exact and_congr_right fun _ => and_iff_right_of_imp fun ht => lt_of_le_of_lt ht.1 ht.2

theorem aligned_mergeRanges
    (h : ∀ r ∈ ranges, r.1 % minuteLength = 0 ∧ r.2 % minuteLength = 0) :
    ∀ r ∈ mergeRanges ranges, r.1 % minuteLength = 0 ∧ r.2 % minuteLength = 0 := by
  rw [mergeRanges_eq]
  exact forall_mem_mergeAll (P := fun t => t % minuteLength = 0) fun r hr =>
    h r (mem_filter.1 ((mem_insertionSort _).1 hr)).1

theorem le_add_chunks (hc : 0 < chunk) (r : Time × Time) :
    r.2 ≤ r.1 + chunkCount chunk r • chunk := by
  have hdiv := emod_add_mul_ediv (r.2 - r.1 + chunk - 1) chunk
  have hmod := emod_lt_of_pos (r.2 - r.1 + chunk - 1) hc
  have htoNat : (r.2 - r.1 + chunk - 1) / chunk ≤ chunkCount chunk r := self_le_toNat _
  have hmul := Int.mul_le_mul_of_nonneg_left htoNat (Int.le_of_lt hc)
  rw [nsmul_eq_mul, mul_comm]
  grind

theorem aligned_chunksOf (hchunk : chunk % minuteLength = 0)
    (hr : r.1 % minuteLength = 0 ∧ r.2 % minuteLength = 0) :
    ∀ x ∈ chunksOf chunk r, x.1 % minuteLength = 0 ∧ x.2 % minuteLength = 0 := by
  intro x hx
  refine forall_mem_chunks (P := fun t => t % minuteLength = 0) hr.1 hr.2 (fun t ht => ?_) hx
  rw [add_emod, ht, hchunk]
  rfl

end

/-! ## The loop -/

def KeepsCovered (p p' : Projection) : Prop :=
  ∀ t, (p.coverage.get? t).isSome = true → (p'.coverage.get? t).isSome = true

section

variable {frozen : Day → Bool} {p p' : Projection} {run : BackfillRun}

theorem KeepsCovered.trans {p'' : Projection} (h : KeepsCovered p p') (h' : KeepsCovered p' p'') :
    KeepsCovered p p'' := fun t ht => h' t (h t ht)

theorem RefreshedOn.keepsCovered {events : List EventRecord} {P : Time → Prop}
    (h : RefreshedOn events P p p') : KeepsCovered p p' := by
  intro t ht
  by_cases hP : P t ∧ t % minuteLength = 0
  · exact h.coverage t hP.1 hP.2
  · rwa [h.coverage_frame t hP]

theorem drainPending_spec (frozen : Day → Bool) (turn : List Drained) (p : Projection) :
    ∃ p', p.drainPending frozen turn = .ok p' ∧ KeepsCovered p p' := by
  induction turn generalizing p with
  | nil => exact ⟨p, rfl, fun _ ht => ht⟩
  | cons x turn ih =>
    obtain ⟨result, p₁, h₁, hr, -⟩ := refreshBuckets_spec x.events x.now p
      (rfl : Job.refreshableKeys frozen x.bucketKeys = _)
    obtain ⟨p₂, h₂, hk₂⟩ := ih p₁
    refine ⟨p₂, ?_, fun t ht => hk₂ t (by rwa [hr.coverage])⟩
    rw [Projection.drainPending, h₁]
    exact h₂

theorem backfillLoop_spec (run : BackfillRun) (frozen : Day → Bool) {chunks : List (Time × Time)}
    (hchunks : ∀ x ∈ chunks, (x.1 % minuteLength = 0 ∧ x.2 % minuteLength = 0) ∧ x.1 < x.2)
    (n : Nat) (p : Projection) :
    ∃ p', p.backfillLoop run frozen n chunks = .ok (chunks.map fun x => ⟨x.1, x.2, none⟩, p') ∧
      KeepsCovered p p' ∧
      ∀ t, t % minuteLength = 0 → Covers chunks t → frozen (dateOf t) = false →
        (p'.coverage.get? t).isSome = true := by
  induction chunks generalizing n p with
  | nil => exact ⟨p, rfl, fun _ ht => ht, fun t _ ht => absurd ht not_covers_nil⟩
  | cons chunk chunks ih =>
    obtain ⟨hchunk, hchunks⟩ := forall_mem_cons.1 hchunks
    obtain ⟨result, p₁, h₁, hr₁, -⟩ := refreshRange_refreshedOn
      (q := ⟨chunk.1, chunk.2, none⟩) (run.events n) frozen (run.clock n) p hchunk.1 hchunk.2 rfl
    obtain ⟨p₂, h₂, hk₂⟩ := drainPending_spec frozen (run.afterChunk n) p₁
    obtain ⟨p₃, h₃, hk₃, hcovered⟩ := ih hchunks (n + 1) p₂
    refine ⟨p₃, ?_, (hr₁.keepsCovered.trans hk₂).trans hk₃, fun t ht hcovers hfrozen => ?_⟩
    · simp [backfillLoop, h₁, h₂, h₃, bind, Except.bind, pure, Except.pure]
    · rcases covers_cons.1 hcovers with hin | hcovers
      · exact hk₃ t (hk₂ t (hr₁.coverage t ⟨hin.1, hin.2, hfrozen⟩ ht))
      · exact hcovered t ht hcovers hfrozen

/-! ## The whole backfill -/

variable {hours overlapMinutes chunkHours : Int} {current t : Time}

theorem backfillStart_aligned (hours : Int) (current : Time) :
    backfillStart hours current % minuteLength = 0 := startOfMinute_aligned _

theorem backfillEnd_aligned (current : Time) : backfillEnd current % minuteLength = 0 := by
  rw [backfillEnd, add_emod_right]
  exact startOfMinute_aligned current

theorem backfillStart_lt_backfillEnd (hhours : 1 ≤ hours) (current : Time) :
    backfillStart hours current < backfillEnd current := by
  unfold backfillStart backfillEnd startOfMinute hourLength minuteLength
  grind

/-- The ranges of a backfill without force. -/
def missedRanges (hours overlapMinutes : Int) (current : Time) (p : Projection) :
    List (Time × Time) :=
  p.missingRanges (backfillStart hours current) (backfillEnd current) ++
    [(max (backfillStart hours current) (backfillEnd current - overlapMinutes * minuteLength),
      backfillEnd current)]

theorem overlap_aligned (hours overlapMinutes : Int) (current : Time) :
    max (backfillStart hours current) (backfillEnd current - overlapMinutes * minuteLength) %
      minuteLength = 0 := by
  have hstart := backfillStart_aligned hours current
  have hend := backfillEnd_aligned current
  rcases max_choice (backfillStart hours current)
    (backfillEnd current - overlapMinutes * minuteLength) with h | h <;> rw [h]
  · exact hstart
  · rw [sub_mul_emod_self_right, hend]

theorem covers_missedRanges (hhours : 1 ≤ hours) :
    Covers (missedRanges hours overlapMinutes current p) t ↔
      (backfillStart hours current ≤ t ∧ t < backfillEnd current) ∧
        (p.coverage.get? (startOfMinute t) = none ∨
          backfillEnd current - overlapMinutes * minuteLength ≤ t) := by
  have hlt := backfillStart_lt_backfillEnd hhours current
  have hstart := backfillStart_aligned hours current
  have hend := backfillEnd_aligned current
  -- The window of the backfill is one of whole minutes.
  have hmeets : (∃ u, (backfillStart hours current ≤ u ∧ u < backfillEnd current) ∧
      startOfMinute u = startOfMinute t) ↔
        backfillStart hours current ≤ t ∧ t < backfillEnd current := by
    constructor
    · rintro ⟨u, hu, heq⟩
      unfold startOfMinute minuteLength at *
      grind
    · exact fun ht => ⟨t, ht, rfl⟩
  rw [missedRanges, covers_append, covers_missingRanges hlt, hmeets, covers_cons,
    or_iff_left not_covers_nil, max_le_iff]
  tauto

theorem aligned_missedRanges (hours overlapMinutes : Int) (current : Time) (p : Projection) :
    ∀ r ∈ missedRanges hours overlapMinutes current p,
      r.1 % minuteLength = 0 ∧ r.2 % minuteLength = 0 := by
  intro r hr
  rcases mem_append.1 hr with hr | hr
  · exact aligned_of_mem_missingRanges hr
  · obtain rfl := mem_singleton.1 hr
    exact ⟨overlap_aligned hours overlapMinutes current, backfillEnd_aligned current⟩

/-- The chunks of merged ranges are in order, none is too long, and they have the same instants. -/
theorem chunks_mergeRanges {ranges : List (Time × Time)} (hchunk : 1 ≤ chunkHours)
    (hranges : ∀ r ∈ ranges, r.1 % minuteLength = 0 ∧ r.2 % minuteLength = 0) :
    let chunks := (mergeRanges ranges).flatMap (chunksOf (chunkHours * hourLength))
    InOrder chunks ∧ (∀ x ∈ chunks, (x.1 % minuteLength = 0 ∧ x.2 % minuteLength = 0) ∧
      x.2 - x.1 ≤ chunkHours * hourLength) ∧ ∀ t, Covers chunks t ↔ Covers ranges t := by
  have hc : 0 < chunkHours * hourLength := Int.mul_pos (by omega) (by decide)
  refine ⟨?_, fun x hx => ?_, fun t => ?_⟩
  · exact (separated_mergeRanges ranges).inOrder.flatMap (fun r _ => inOrder_chunks hc)
      fun r _ x hx => ⟨(mem_chunks hc hx).1, (mem_chunks hc hx).2.2.1⟩
  · obtain ⟨r, hr, hx⟩ := mem_flatMap.1 hx
    refine ⟨aligned_chunksOf ?_ (aligned_mergeRanges hranges r hr) x hx, (mem_chunks hc hx).2.2.2⟩
    unfold hourLength minuteLength
    grind
  · exact (covers_flatMap fun r _ _ => covers_chunks hc (le_add_chunks hc r)).trans covers_mergeRanges

end

end Edr.Rollup
