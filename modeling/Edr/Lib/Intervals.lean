import Mathlib

/-!
# Intervals

Intervals `[a, b)` of a linear order, as pairs. They are merged in the order of their starts: one that
starts at most where the last one ends makes it longer, and any other one is a new one.

* `covers_chunks`, `inOrder_chunks`: the chunks of an interval cover it, and each one ends before the
  next one starts, or there.
-/

namespace Edr.Intervals

open List

variable {τ : Type*} [LinearOrder τ] {xs merged : List (τ × τ)} {x : τ × τ} {t : τ}

def push (merged : List (τ × τ)) (x : τ × τ) : List (τ × τ) :=
  match merged with
  | [] => [x]
  | last :: rest =>
    if x.1 ≤ last.2 then (last.1, max last.2 x.2) :: rest else x :: last :: rest

def mergeAll (xs : List (τ × τ)) : List (τ × τ) := (xs.foldl push []).reverse

def Covers (xs : List (τ × τ)) (t : τ) : Prop := ∃ x ∈ xs, x.1 ≤ t ∧ t < x.2

/-- The intervals are not empty, and each one ends before the next one starts. -/
structure Separated (xs : List (τ × τ)) : Prop where
  nonempty : ∀ x ∈ xs, x.1 < x.2
  pairwise : xs.Pairwise fun a b => a.2 < b.1

structure SeparatedDesc (merged : List (τ × τ)) : Prop where
  nonempty : ∀ m ∈ merged, m.1 < m.2
  pairwise : merged.Pairwise fun a b => b.2 < a.1

theorem not_covers_nil : ¬Covers [] t := fun ⟨_, hx, _⟩ => not_mem_nil hx

theorem covers_cons : Covers (x :: xs) t ↔ (x.1 ≤ t ∧ t < x.2) ∨ Covers xs t := by
  simp [Covers]

theorem SeparatedDesc.nil : SeparatedDesc ([] : List (τ × τ)) :=
  ⟨nofun, .nil⟩

theorem covers_push (hstart : ∀ m ∈ merged, m.1 ≤ x.1) :
    Covers (push merged x) t ↔ Covers merged t ∨ x.1 ≤ t ∧ t < x.2 := by
  cases merged with
  | nil => rw [push, covers_cons, or_comm]
  | cons last rest =>
    rw [push]
    split_ifs with hle
    · -- The last one and the new one have no gap between them.
      have hjoin : last.1 ≤ t ∧ t < max last.2 x.2 ↔
          (last.1 ≤ t ∧ t < last.2) ∨ x.1 ≤ t ∧ t < x.2 := by
        constructor
        · rintro ⟨hs, he⟩
          rcases lt_or_ge t last.2 with h | h
          · exact .inl ⟨hs, h⟩
          · exact .inr ⟨hle.trans h, (lt_max_iff.1 he).resolve_left h.not_gt⟩
        · rintro (⟨hs, he⟩ | ⟨hs, he⟩)
          · exact ⟨hs, lt_max_of_lt_left he⟩
          · exact ⟨(hstart last mem_cons_self).trans hs, lt_max_of_lt_right he⟩
      rw [covers_cons, covers_cons, hjoin]
      tauto
    · rw [covers_cons, or_comm]

theorem start_push {a : τ} (hstart : ∀ m ∈ merged, m.1 ≤ a) (hx : x.1 ≤ a) :
    ∀ m ∈ push merged x, m.1 ≤ a := by
  cases merged with
  | nil => exact forall_mem_cons.2 ⟨hx, hstart⟩
  | cons last rest =>
    rw [push]
    split_ifs
    · exact forall_mem_cons.2 (forall_mem_cons.1 hstart)
    · exact forall_mem_cons.2 ⟨hx, hstart⟩

theorem SeparatedDesc.push (h : SeparatedDesc merged) (hx : x.1 < x.2) :
    SeparatedDesc (push merged x) := by
  cases merged with
  | nil => exact ⟨forall_mem_cons.2 ⟨hx, h.nonempty⟩, pairwise_singleton _ _⟩
  | cons last rest =>
    obtain ⟨hlast, hrest⟩ := forall_mem_cons.1 h.nonempty
    obtain ⟨hbefore, hpairwise⟩ := pairwise_cons.1 h.pairwise
    rw [Intervals.push]
    split_ifs with hle
    · exact ⟨forall_mem_cons.2 ⟨lt_max_of_lt_left hlast, hrest⟩,
        pairwise_cons.2 ⟨hbefore, hpairwise⟩⟩
    · have hlt : last.2 < x.1 := not_le.1 hle
      refine ⟨forall_mem_cons.2 ⟨hx, h.nonempty⟩, pairwise_cons.2 ⟨?_, h.pairwise⟩⟩
      exact forall_mem_cons.2
        ⟨hlt, fun b hb => ((hbefore b hb).trans hlast).trans hlt⟩

theorem foldl_push (hmerged : SeparatedDesc merged)
    (hstart : ∀ x ∈ xs, ∀ m ∈ merged, m.1 ≤ x.1) (hne : ∀ x ∈ xs, x.1 < x.2)
    (hsorted : xs.Pairwise fun a b => a.1 ≤ b.1) :
    SeparatedDesc (xs.foldl push merged) ∧
      ∀ t, Covers (xs.foldl push merged) t ↔ Covers merged t ∨ Covers xs t := by
  induction xs generalizing merged with
  | nil => exact ⟨hmerged, fun t => (or_iff_left not_covers_nil).symm⟩
  | cons x xs ih =>
    obtain ⟨hx, hxs⟩ := forall_mem_cons.1 hstart
    obtain ⟨hne, hnes⟩ := forall_mem_cons.1 hne
    obtain ⟨hle, hsorted⟩ := pairwise_cons.1 hsorted
    obtain ⟨hsep, hcovers⟩ := ih (hmerged.push hne)
      (fun y hy => start_push (hxs y hy) (hle y hy)) hnes hsorted
    refine ⟨hsep, fun t => ?_⟩
    rw [foldl_cons, hcovers, covers_push hx, covers_cons, or_assoc]

theorem forall_mem_mergeAll {P : τ → Prop} (h : ∀ x ∈ xs, P x.1 ∧ P x.2) :
    ∀ m ∈ mergeAll xs, P m.1 ∧ P m.2 := by
  have hpush {merged : List (τ × τ)} {x : τ × τ} (hm : ∀ m ∈ merged, P m.1 ∧ P m.2)
      (hx : P x.1 ∧ P x.2) : ∀ m ∈ push merged x, P m.1 ∧ P m.2 := by
    cases merged with
    | nil => exact forall_mem_cons.2 ⟨hx, hm⟩
    | cons last rest =>
      obtain ⟨hlast, hrest⟩ := forall_mem_cons.1 hm
      rw [push]
      split_ifs
      · refine forall_mem_cons.2 ⟨⟨hlast.1, ?_⟩, hrest⟩
        rcases max_choice last.2 x.2 with h | h <;> rw [h]
        · exact hlast.2
        · exact hx.2
      · exact forall_mem_cons.2 ⟨hx, hm⟩
  have hfold {merged : List (τ × τ)} (hm : ∀ m ∈ merged, P m.1 ∧ P m.2) :
      ∀ m ∈ xs.foldl push merged, P m.1 ∧ P m.2 := by
    induction xs generalizing merged with
    | nil => exact hm
    | cons x xs ih =>
      obtain ⟨hx, hxs⟩ := forall_mem_cons.1 h
      exact ih hxs (hpush hm hx)
  exact fun m hm => hfold (fun _ hm => absurd hm not_mem_nil) m (mem_reverse.1 hm)

section

variable (hne : ∀ x ∈ xs, x.1 < x.2) (hsorted : xs.Pairwise fun a b => a.1 ≤ b.1)

include hne hsorted

theorem covers_mergeAll : Covers (mergeAll xs) t ↔ Covers xs t := by
  obtain ⟨-, hcovers⟩ := foldl_push .nil nofun hne hsorted
  have hreverse : Covers (mergeAll xs) t ↔ Covers (xs.foldl push []) t := by
    simp [Covers, mergeAll]
  rw [hreverse, hcovers, or_iff_right not_covers_nil]

theorem separated_mergeAll : Separated (mergeAll xs) := by
  obtain ⟨hsep, -⟩ := foldl_push .nil nofun hne hsorted
  exact ⟨fun x hx => hsep.nonempty x (mem_reverse.1 hx),
    pairwise_reverse.2 hsep.pairwise⟩

end

/-! ## Intervals in their order -/

/-- The intervals are not empty, and none starts before the end of one before it. -/
structure InOrder (xs : List (τ × τ)) : Prop where
  nonempty : ∀ x ∈ xs, x.1 < x.2
  pairwise : xs.Pairwise fun a b => a.2 ≤ b.1

theorem Separated.inOrder (h : Separated xs) : InOrder xs :=
  ⟨h.nonempty, h.pairwise.imp le_of_lt⟩

theorem covers_append {ys : List (τ × τ)} : Covers (xs ++ ys) t ↔ Covers xs t ∨ Covers ys t := by
  simp only [Covers, mem_append, or_and_right, exists_or]

theorem InOrder.flatMap {f : τ × τ → List (τ × τ)} (h : InOrder xs)
    (hf : ∀ x ∈ xs, InOrder (f x)) (hin : ∀ x ∈ xs, ∀ y ∈ f x, x.1 ≤ y.1 ∧ y.2 ≤ x.2) :
    InOrder (xs.flatMap f) where
  nonempty y hy := by
    obtain ⟨x, hx, hy⟩ := mem_flatMap.1 hy
    exact (hf x hx).nonempty y hy
  pairwise := by
    refine pairwise_flatMap.2 ⟨fun x hx => (hf x hx).pairwise, ?_⟩
    refine h.pairwise.imp_of_mem fun {a b} ha hb hab y hy z hz => ?_
    exact ((hin a ha y hy).2.trans hab).trans (hin b hb z hz).1

theorem covers_flatMap {f : τ × τ → List (τ × τ)}
    (hf : ∀ x ∈ xs, ∀ t, Covers (f x) t ↔ x.1 ≤ t ∧ t < x.2) :
    Covers (xs.flatMap f) t ↔ Covers xs t := by
  constructor
  · rintro ⟨y, hy, ht⟩
    obtain ⟨x, hx, hy⟩ := mem_flatMap.1 hy
    exact ⟨x, hx, (hf x hx t).1 ⟨y, hy, ht⟩⟩
  · rintro ⟨x, hx, ht⟩
    obtain ⟨y, hy, ht⟩ := (hf x hx t).2 ht
    exact ⟨y, mem_flatMap.2 ⟨x, hx, hy⟩, ht⟩

/-! ## Runs -/

section

variable {α : Type*} [AddCommGroup α] [LinearOrder α] {w : α} {xs : List α} {start previous t : α}

/-- The runs of some points, where there is an open one from `start` to the point `previous`. -/
def runsFrom (w : α) : α → α → List α → List (α × α)
  | start, previous, [] => [(start, previous + w)]
  | start, previous, x :: xs =>
    if w < x - previous then (start, previous + w) :: runsFrom w x x xs else runsFrom w start x xs

def runs (w : α) : List α → List (α × α)
  | [] => []
  | x :: xs => runsFrom w x x xs

theorem mem_runsFrom {r : α × α} (hr : r ∈ runsFrom w start previous xs) :
    (r.1 = start ∨ r.1 ∈ xs) ∧ ∃ y ∈ previous :: xs, r.2 = y + w := by
  induction xs generalizing start previous with
  | nil =>
    obtain rfl := mem_singleton.1 hr
    exact ⟨.inl rfl, previous, mem_cons_self, rfl⟩
  | cons x xs ih =>
    rw [runsFrom] at hr
    split_ifs at hr with hgap
    · rcases mem_cons.1 hr with rfl | hr
      · exact ⟨.inl rfl, previous, mem_cons_self, rfl⟩
      · obtain ⟨h₁, y, hy, h₂⟩ := ih hr
        exact ⟨.inr (mem_cons.2 h₁), y, mem_cons_of_mem _ hy, h₂⟩
    · obtain ⟨h₁, y, hy, h₂⟩ := ih hr
      exact ⟨h₁.imp_right (mem_cons_of_mem x), y, mem_cons_of_mem _ hy, h₂⟩

theorem mem_runs {r : α × α} (hr : r ∈ runs w xs) : r.1 ∈ xs ∧ ∃ y ∈ xs, r.2 = y + w := by
  cases xs with
  | nil => exact absurd hr not_mem_nil
  | cons x xs =>
    obtain ⟨h₁, h₂⟩ := mem_runsFrom hr
    exact ⟨mem_cons.2 h₁, h₂⟩

theorem runs_eq_nil : runs w xs = [] ↔ xs = [] := by
  have hne (start previous : α) (xs : List α) : runsFrom w start previous xs ≠ [] := by
    induction xs generalizing start previous with
    | nil => exact cons_ne_nil _ _
    | cons x xs ih =>
      rw [runsFrom]
      split_ifs
      · exact cons_ne_nil _ _
      · exact ih start x
  cases xs with
  | nil => exact iff_of_true rfl rfl
  | cons x xs => exact iff_of_false (hne x x xs) (cons_ne_nil x xs)

variable [IsOrderedAddMonoid α]

theorem covers_runsFrom (hsorted : (previous :: xs).Pairwise (· ≤ ·)) (hstart : start ≤ previous) :
    Covers (runsFrom w start previous xs) t ↔
      (start ≤ t ∧ t < previous + w) ∨ ∃ x ∈ xs, x ≤ t ∧ t < x + w := by
  induction xs generalizing start previous with
  | nil =>
    rw [runsFrom, covers_cons]
    simp [not_covers_nil]
  | cons x xs ih =>
    obtain ⟨hle, hsorted⟩ := pairwise_cons.1 hsorted
    have hx : previous ≤ x := hle x mem_cons_self
    rw [runsFrom]
    split_ifs with hgap
    · rw [covers_cons, ih hsorted le_rfl]
      simp only [mem_cons, exists_eq_or_imp]
    · -- The open run and the next point have no gap between them.
      have hjoin : start ≤ t ∧ t < x + w ↔
          (start ≤ t ∧ t < previous + w) ∨ x ≤ t ∧ t < x + w := by
        constructor
        · rintro ⟨hs, he⟩
          rcases lt_or_ge t (previous + w) with h | h
          · exact .inl ⟨hs, h⟩
          · exact .inr ⟨(sub_le_iff_le_add'.1 (not_lt.1 hgap)).trans h, he⟩
        · rintro (⟨hs, he⟩ | ⟨hs, he⟩)
          · exact ⟨hs, he.trans_le (add_le_add_left hx w)⟩
          · exact ⟨(hstart.trans hx).trans hs, he⟩
      rw [ih hsorted (hstart.trans hx), hjoin]
      simp only [mem_cons, exists_eq_or_imp, or_assoc]

theorem covers_runs (hsorted : xs.Pairwise (· ≤ ·)) :
    Covers (runs w xs) t ↔ ∃ x ∈ xs, x ≤ t ∧ t < x + w := by
  cases xs with
  | nil => exact iff_of_false not_covers_nil fun ⟨_, hx, _⟩ => not_mem_nil hx
  | cons x xs =>
    rw [runs, covers_runsFrom hsorted le_rfl]
    simp

theorem separated_runsFrom (hw : 0 < w) (hsorted : (previous :: xs).Pairwise (· ≤ ·))
    (hstart : start ≤ previous) : Separated (runsFrom w start previous xs) := by
  have hlt {a b : α} (h : a ≤ b) : a < b + w := h.trans_lt (lt_add_of_pos_right b hw)
  induction xs generalizing start previous with
  | nil => exact ⟨forall_mem_cons.2 ⟨hlt hstart, nofun⟩, pairwise_singleton _ _⟩
  | cons x xs ih =>
    obtain ⟨hle, hsorted⟩ := pairwise_cons.1 hsorted
    have hx : previous ≤ x := hle x mem_cons_self
    rw [runsFrom]
    split_ifs with hgap
    · have hrest := ih hsorted le_rfl
      refine ⟨forall_mem_cons.2 ⟨hlt hstart, hrest.nonempty⟩,
        pairwise_cons.2 ⟨fun r hr => ?_, hrest.pairwise⟩⟩
      -- A later run starts at a later point.
      have hr : x ≤ r.1 := by
        rcases (mem_runsFrom hr).1 with h | h
        · exact h.ge
        · exact (pairwise_cons.1 hsorted).1 _ h
      exact (lt_sub_iff_add_lt'.1 hgap).trans_le hr
    · exact ih hsorted (hstart.trans hx)

theorem separated_runs (hw : 0 < w) (hsorted : xs.Pairwise (· ≤ ·)) : Separated (runs w xs) := by
  cases xs with
  | nil => exact ⟨nofun, .nil⟩
  | cons x xs => exact separated_runsFrom hw hsorted le_rfl

end

/-! ## Chunks -/

section

variable {α : Type*} [AddCommGroup α] [LinearOrder α] {c a b t : α} {n : Nat}

/-- `[a, b)`, cut into chunks of length `c`; there are `n` chunks at most. -/
def chunks (c b : α) : Nat → α → List (α × α)
  | 0, _ => []
  | n + 1, a => if a < b then (a, min (a + c) b) :: chunks c b n (min (a + c) b) else []

theorem chunks_of_le (h : b ≤ a) (n : Nat) : chunks c b n a = [] := by
  cases n with
  | zero => rfl
  | succ n => rw [chunks, if_neg h.not_gt]

theorem le_next (hn : b ≤ a + (n + 1) • c) : b ≤ min (a + c) b ∨ b ≤ min (a + c) b + n • c := by
  rcases le_total (a + c) b with h | h
  · rw [min_eq_left h, add_assoc, ← succ_nsmul']
    exact .inr hn
  · rw [min_eq_right h]
    exact .inl le_rfl

theorem forall_mem_chunks {P : α → Prop} (ha : P a) (hb : P b) (hstep : ∀ x, P x → P (x + c))
    {x : α × α} (hx : x ∈ chunks c b n a) : P x.1 ∧ P x.2 := by
  induction n generalizing a with
  | zero => exact absurd hx not_mem_nil
  | succ n ih =>
    have hnext : P (min (a + c) b) := by
      rcases min_choice (a + c) b with h | h <;> rw [h]
      · exact hstep a ha
      · exact hb
    rw [chunks] at hx
    split_ifs at hx
    · rcases mem_cons.1 hx with rfl | hx
      · exact ⟨ha, hnext⟩
      · exact ih hnext hx
    · exact absurd hx not_mem_nil

variable [IsOrderedAddMonoid α]

theorem covers_chunks (hc : 0 < c) (hn : b ≤ a + n • c) :
    Covers (chunks c b n a) t ↔ a ≤ t ∧ t < b := by
  induction n generalizing a with
  | zero =>
    rw [zero_nsmul, add_zero] at hn
    exact iff_of_false not_covers_nil fun h => (h.1.trans_lt h.2).not_ge hn
  | succ n ih =>
    rw [chunks]
    split_ifs with hlt
    · have hrest : Covers (chunks c b n (min (a + c) b)) t ↔ min (a + c) b ≤ t ∧ t < b := by
        rcases le_next hn with h | h
        · rw [chunks_of_le h]
          exact iff_of_false not_covers_nil fun ht => (ht.1.trans_lt ht.2).not_ge h
        · exact ih h
      have ha : a ≤ min (a + c) b := le_min (le_add_of_nonneg_right hc.le) hlt.le
      rw [covers_cons, hrest]
      constructor
      · rintro (⟨h₀, h₁⟩ | ⟨h₀, h₁⟩)
        · exact ⟨h₀, h₁.trans_le (min_le_right _ _)⟩
        · exact ⟨ha.trans h₀, h₁⟩
      · rintro ⟨h₀, h₁⟩
        rcases lt_or_ge t (min (a + c) b) with h | h
        · exact .inl ⟨h₀, h⟩
        · exact .inr ⟨h, h₁⟩
    · exact iff_of_false not_covers_nil fun h => hlt (h.1.trans_lt h.2)

theorem mem_chunks (hc : 0 < c) {x : α × α} (hx : x ∈ chunks c b n a) :
    a ≤ x.1 ∧ x.1 < x.2 ∧ x.2 ≤ b ∧ x.2 - x.1 ≤ c := by
  induction n generalizing a with
  | zero => exact absurd hx not_mem_nil
  | succ n ih =>
    rw [chunks] at hx
    split_ifs at hx with hlt
    · rcases mem_cons.1 hx with rfl | hx
      · exact ⟨le_rfl, lt_min (lt_add_of_pos_right a hc) hlt, min_le_right _ _,
          sub_le_iff_le_add'.2 (min_le_left _ _)⟩
      · obtain ⟨h₀, h₁, h₂, h₃⟩ := ih hx
        exact ⟨(le_min (le_add_of_nonneg_right hc.le) hlt.le).trans h₀, h₁, h₂, h₃⟩
    · exact absurd hx not_mem_nil

theorem inOrder_chunks (hc : 0 < c) : InOrder (chunks c b n a) where
  nonempty x hx := (mem_chunks hc hx).2.1
  pairwise := by
    induction n generalizing a with
    | zero => exact .nil
    | succ n ih =>
      rw [chunks]
      split_ifs
      · exact pairwise_cons.2 ⟨fun x hx => (mem_chunks hc hx).1, ih⟩
      · exact .nil

end

end Edr.Intervals
