import Mathlib

/-!
# Grouped sums

What `SELECT key, SUM(n) .. GROUP BY key` computes, and the sums over some of its groups. Two
groupings are the same for every sum of groups as soon as they are made of entries with the same
sums, so a grouping can be made in steps: first finely, and then coarsely.
-/

namespace Edr.Grouping

open List

variable {κ κ' : Type*} {P : κ → Bool} {xs ys : List (κ × Nat)}

/-- The sum of the entries whose key satisfies `P`. -/
def total (P : κ → Bool) (xs : List (κ × Nat)) : Nat := ((xs.filter fun x => P x.1).map Prod.snd).sum

theorem total_cons (x : κ × Nat) :
    total P (x :: xs) = (if P x.1 then x.2 else 0) + total P xs := by
  rw [total, filter_cons]
  split_ifs
  · rw [map_cons, sum_cons, total]
  · rw [Nat.zero_add, total]

theorem total_map {P : κ' → Bool} (f : κ → κ') :
    total P (xs.map fun x => (f x.1, x.2)) = total (fun k => P (f k)) xs := by
  induction xs with
  | nil => rfl
  | cons x xs ih => rw [map_cons, total_cons, total_cons, ih]

variable [DecidableEq κ]

/-- `SELECT key, SUM(n) .. GROUP BY key`. -/
def groupSum (xs : List (κ × Nat)) : List (κ × Nat) :=
  (xs.map Prod.fst).dedup.map fun k => (k, total (fun k' => decide (k' = k)) xs)

theorem sum_total {keys : List κ} (hkeys : keys.Nodup)
    (hxs : ∀ x ∈ xs, P x.1 = true → x.1 ∈ keys) :
    ((keys.filter P).map fun k => total (fun k' => decide (k' = k)) xs).sum = total P xs := by
  induction xs with
  | nil =>
    refine sum_eq_zero fun n hn => ?_
    obtain ⟨_, _, rfl⟩ := mem_map.1 hn
    rfl
  | cons x xs ih =>
    obtain ⟨hx, hxs⟩ := forall_mem_cons.1 hxs
    -- The entry is counted at its own key, if that is one of `P`.
    have hone : ((keys.filter P).map fun k => if x.1 = k then x.2 else 0).sum =
        if P x.1 then x.2 else 0 := by
      split_ifs with hP
      · rw [sum_map_eq_nsmul_single x.1]
        · rw [if_pos rfl, count_eq_one_of_mem (hkeys.filter P) (mem_filter.2 ⟨hx hP, hP⟩),
            one_nsmul]
        · exact fun k hk _ => if_neg (Ne.symm hk)
      · refine sum_eq_zero fun n hn => ?_
        obtain ⟨k, hk, rfl⟩ := mem_map.1 hn
        refine if_neg ?_
        rintro rfl
        exact hP (mem_filter.1 hk).2
    rw [total_cons, ← ih hxs, ← hone, ← sum_map_add]
    simp [total_cons]

theorem total_groupSum : total P (groupSum xs) = total P xs := by
  rw [total, groupSum, filter_map, map_map]
  exact sum_total (nodup_dedup _) fun x hx _ => mem_dedup.2 (mem_map_of_mem hx)

omit [DecidableEq κ] in
theorem total_ones (l : List κ) : total P (l.map fun k => (k, 1)) = l.countP P := by
  induction l with
  | nil => rfl
  | cons k l ih => rw [map_cons, total_cons, ih, countP_cons, Nat.add_comm]

omit [DecidableEq κ] in
theorem total_map_ones {α : Type*} (f : α → κ) (l : List α) :
    total P (l.map fun a => (f a, 1)) = l.countP fun a => P (f a) := by
  have hcount : (l.countP fun a => P (f a)) = (l.map f).countP P := countP_map.symm
  rw [hcount, ← total_ones, map_map]
  rfl

/-- Entries that count the occurrences of their keys in a list add up to the number of elements of
    the list that satisfy `P`. -/
theorem total_eq_countP {l : List κ} (hnodup : (xs.map Prod.fst).Nodup)
    (hcount : ∀ x ∈ xs, P x.1 = true → x.2 = l.countP fun k => decide (k = x.1))
    (hmem : ∀ k ∈ l, P k = true → k ∈ xs.map Prod.fst) : total P xs = l.countP P := by
  have hones : ∀ x ∈ l.map fun k => (k, 1), P x.1 = true → x.1 ∈ xs.map Prod.fst := by
    intro x hx hP
    obtain ⟨k, hk, rfl⟩ := mem_map.1 hx
    exact hmem k hk hP
  rw [← total_ones, ← sum_total hnodup hones, filter_map, map_map, total]
  refine congrArg sum (map_congr_left fun x hx => ?_)
  obtain ⟨hx, hP⟩ := mem_filter.1 hx
  rw [Function.comp_apply, total_ones, hcount x hx hP]

theorem total_le_countP {l : List κ} (hnodup : (xs.map Prod.fst).Nodup)
    (hcount : ∀ x ∈ xs, P x.1 = true → x.2 = l.countP fun k => decide (k = x.1)) :
    total P xs ≤ l.countP P := by
  have htotal : total P xs = (l.filter fun k => decide (k ∈ xs.map Prod.fst)).countP P := by
    refine total_eq_countP hnodup (fun x hx hP => ?_) fun k hk _ =>
      of_decide_eq_true (mem_filter.1 hk).2
    rw [hcount x hx hP, countP_filter]
    refine countP_congr fun k _ => ?_
    simp only [Bool.and_eq_true, decide_eq_true_eq]
    exact ⟨fun hk => ⟨hk, hk ▸ mem_map_of_mem hx⟩, fun hk => hk.1⟩
  rw [htotal]
  exact filter_sublist.countP_le

end Edr.Grouping
