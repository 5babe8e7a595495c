import Edr.Lib.Paging

/-!
# Counters and their rankings

A counter gives a count to each key. Its ranking lists the keys that are counted, the most frequent
ones first and those of one count in the order of the keys, and stops after `n` of them. A counter
that is *cut* has its ranking left, and counts all other keys as 0.
-/

namespace Edr.Counter

open List

open Paging

variable {κ : Type*} [LinearOrder κ]

/-! ## The order of a ranking -/

/-- `ORDER BY n DESC, key ASC`. -/
def Ahead (x y : κ × Nat) : Prop := y.2 < x.2 ∨ y.2 = x.2 ∧ x.1 ≤ y.1

instance : DecidableRel (@Ahead κ _) := fun _ _ => inferInstanceAs (Decidable (_ ∨ _))

instance : Std.Total (@Ahead κ _) where
  total x y := by
    unfold Ahead
    grind

instance : IsTrans (κ × Nat) Ahead where
  trans x y z h h' := by
    unfold Ahead at *
    grind

theorem Ahead.antisymm {x y : κ × Nat} (h : Ahead x y) (h' : Ahead y x) : x = y := by
  unfold Ahead at h h'
  grind

theorem antisymmOn_ahead (l : List (κ × Nat)) : AntisymmOn Ahead l :=
  fun _ _ _ _ => Ahead.antisymm

theorem ahead_of_le (k : κ) {n m : Nat} (h : n ≤ m) : Ahead (k, m) (k, n) := by
  rcases h.lt_or_eq with hlt | heq
  · exact .inl hlt
  · exact .inr ⟨heq, le_rfl⟩

/-! ## Rankings -/

def entries (keys : List κ) (c : κ → Nat) : List (κ × Nat) :=
  (keys.dedup.filter fun k => decide (c k ≠ 0)).map fun k => (k, c k)

/-- The first `n` keys of a counter, whose keys are all in the list. -/
def ranked (n : Nat) (keys : List κ) (c : κ → Nat) : List (κ × Nat) := top Ahead n (entries keys c)

variable {n m : Nat} {keys keys' : List κ} {c c' : κ → Nat} {k : κ}

theorem mem_entries : (k, m) ∈ entries keys c ↔ k ∈ keys ∧ c k ≠ 0 ∧ m = c k := by
  simp only [entries, mem_map, mem_filter, mem_dedup, decide_eq_true_eq,
    Prod.mk.injEq]
  constructor
  · rintro ⟨k, ⟨hk, h⟩, rfl, rfl⟩
    exact ⟨hk, h, rfl⟩
  · rintro ⟨hk, h, rfl⟩
    exact ⟨k, ⟨hk, h⟩, rfl, rfl⟩

theorem nodup_entries (keys : List κ) (c : κ → Nat) : ((entries keys c).map Prod.fst).Nodup := by
  rw [entries, map_map]
  exact .map (fun _ _ h => h) ((nodup_dedup keys).filter _)

theorem mem_entries_of_mem_ranked (h : (k, m) ∈ ranked n keys c) : (k, m) ∈ entries keys c :=
  top_subset n h

theorem nodup_ranked (n : Nat) (keys : List κ) (c : κ → Nat) :
    ((ranked n keys c).map Prod.fst).Nodup :=
  (((perm_insertionSort Ahead (entries keys c)).map Prod.fst).nodup_iff.2
    (nodup_entries keys c)).sublist ((take_sublist n _).map _)

theorem ranked_eq_iff (hle : ∀ k, c' k ≤ c k) :
    ranked n keys c' = ranked n keys c ↔ ∀ k m, (k, m) ∈ ranked n keys c → c' k = c k := by
  constructor
  · intro heq k m h
    rw [← (mem_entries.1 (mem_entries_of_mem_ranked h)).2.2]
    rw [← heq] at h
    exact (mem_entries.1 (mem_entries_of_mem_ranked h)).2.2.symm
  intro h
  have hmem : ∀ x ∈ ranked n keys c, x ∈ entries keys c' := by
    rintro ⟨k, m⟩ hx
    obtain ⟨hk, hc, hm⟩ := mem_entries.1 (mem_entries_of_mem_ranked hx)
    have hck := h k m hx
    exact mem_entries.2 ⟨hk, hck ▸ hc, hm.trans hck.symm⟩
  -- The keys of the ranking are entries of the other counter as well, and then there are the rest.
  let rest := (entries keys c').filter fun x => decide (x ∉ ranked n keys c)
  have hperm : (entries keys c').Perm (ranked n keys c ++ rest) := by
    have hsplit := filter_append_perm (fun x => decide (x ∈ ranked n keys c)) (entries keys c')
    refine hsplit.symm.trans (List.Perm.append ?_ (by simp [rest]))
    rw [perm_ext_iff_of_nodup ((nodup_entries keys c').of_map.filter _)
      (nodup_ranked n keys c).of_map]
    intro x
    rw [mem_filter, decide_eq_true_eq]
    exact and_iff_right_of_imp (hmem x)
  -- An entry of the rest has a greater count in the first counter, where it is after the ranking.
  have hrest : ∀ x ∈ rest, ∃ m, (x.1, m) ∈ entries keys c ∧ (x.1, m) ∉ ranked n keys c ∧
      Ahead (x.1, m) x := by
    rintro ⟨k, m⟩ hx
    obtain ⟨hx, hnot⟩ := mem_filter.1 hx
    rw [decide_eq_true_eq] at hnot
    obtain ⟨hk, hc', rfl⟩ := mem_entries.1 hx
    have hc : c k ≠ 0 := (Nat.pos_of_ne_zero hc' |>.trans_le (hle k)).ne'
    refine ⟨c k, mem_entries.2 ⟨hk, hc, rfl⟩, fun hmem => hnot ?_, ahead_of_le k (hle k)⟩
    rw [h k _ hmem]
    exact hmem
  rw [ranked, top_perm (antisymmOn_ahead _) hperm]
  rcases Nat.lt_or_ge (ranked n keys c).length n with hlt | hge
  · -- The ranking has all the keys of the first counter.
    have hall : entries keys c ⊆ ranked n keys c := by
      have hlength : (entries keys c).length ≤ n := by
        rw [ranked, top, length_take, length_insertionSort] at hlt
        omega
      intro x hx
      rw [ranked, top, take_of_length_le (by rwa [length_insertionSort])]
      exact (perm_insertionSort _ _).mem_iff.2 hx
    have hnil : rest = [] := eq_nil_iff_forall_not_mem.2 fun x hx => by
      obtain ⟨m, hm, hnot, -⟩ := hrest x hx
      exact hnot (hall hm)
    rw [hnil, append_nil]
    exact top_top n _
  · rw [top_append_of_after (antisymmOn_ahead _) (fun x hx y hy hxy => ?_) hge]
    · exact top_top n _
    obtain ⟨m, hm, hnot, hahead⟩ := hrest x hx
    have hy : y ∈ ranked n keys c := by rwa [ranked, top_top] at hy
    have hyx : Ahead y x := IsTrans.trans y (x.1, m) x (rel_of_mem_top hy hm hnot) hahead
    have hnot' := (mem_filter.1 hx).2
    rw [decide_eq_true_eq] at hnot'
    exact hnot' (hxy.antisymm hyx ▸ hy)

/-! ## Cut counters -/

def lookup (groups : List (κ × Nat)) (k : κ) : Nat :=
  (groups.find? fun x => decide (x.1 = k)).elim 0 (·.2)

theorem lookup_of_mem {groups : List (κ × Nat)} (hnodup : (groups.map Prod.fst).Nodup)
    (h : (k, m) ∈ groups) : lookup groups k = m := by
  obtain ⟨x, hx⟩ := Option.isSome_iff_exists.1
    (find?_isSome.2 ⟨(k, m), h, decide_eq_true rfl⟩ :
      (groups.find? fun x => decide (x.1 = k)).isSome = true)
  have hkey : x.1 = k := by simpa using find?_some hx
  rw [lookup, hx, Option.elim_some,
    inj_on_of_nodup_map hnodup (mem_of_find?_eq_some hx) h hkey]

theorem lookup_of_not_mem {groups : List (κ × Nat)} (h : k ∉ groups.map Prod.fst) :
    lookup groups k = 0 := by
  have hnone : (groups.find? fun x => decide (x.1 = k)) = none :=
    find?_eq_none.2 fun x hx hk => h (of_decide_eq_true hk ▸ mem_map_of_mem hx)
  rw [lookup, hnone, Option.elim_none]

def cut (n : Nat) (keys : List κ) (c : κ → Nat) : κ → Nat := lookup (ranked n keys c)

theorem cut_eq (n : Nat) (keys : List κ) (c : κ → Nat) (k : κ) :
    cut n keys c k = if k ∈ (ranked n keys c).map Prod.fst then c k else 0 := by
  split_ifs with h
  · obtain ⟨⟨k, m⟩, hm, rfl⟩ := mem_map.1 h
    exact (lookup_of_mem (nodup_ranked n keys c) hm).trans
      (mem_entries.1 (mem_entries_of_mem_ranked hm)).2.2
  · exact lookup_of_not_mem h

theorem cut_le (n : Nat) (keys : List κ) (c : κ → Nat) (k : κ) : cut n keys c k ≤ c k := by
  rw [cut_eq]
  split_ifs
  · exact le_rfl
  · exact Nat.zero_le _

theorem cut_eq_self_iff : cut n keys c k = c k ↔
    (c k ≠ 0 → k ∈ (ranked n keys c).map Prod.fst) := by
  rw [cut_eq]
  split_ifs with h
  · exact iff_of_true rfl fun _ => h
  · exact ⟨fun hc hne => absurd hc.symm hne, fun hc => (of_not_not fun hne => h (hc hne)).symm⟩

/-- Two counters may be cut before they are added, iff each of them still has the keys of the
    ranking of the sum. -/
theorem ranked_add_cut_iff {keys₁ keys₂ : List κ} {c₁ c₂ : κ → Nat} :
    ranked n keys (fun k => cut n keys₁ c₁ k + cut n keys₂ c₂ k) =
        ranked n keys (fun k => c₁ k + c₂ k) ↔
      ∀ k m, (k, m) ∈ ranked n keys (fun k => c₁ k + c₂ k) →
        (c₁ k ≠ 0 → k ∈ (ranked n keys₁ c₁).map Prod.fst) ∧
        (c₂ k ≠ 0 → k ∈ (ranked n keys₂ c₂).map Prod.fst) := by
  rw [ranked_eq_iff fun k => Nat.add_le_add (cut_le n keys₁ c₁ k) (cut_le n keys₂ c₂ k)]
  refine forall_congr' fun k => forall_congr' fun m => forall_congr' fun _ => ?_
  rw [← cut_eq_self_iff, ← cut_eq_self_iff]
  have h₁ := cut_le n keys₁ c₁ k
  have h₂ := cut_le n keys₂ c₂ k
  omega

end Edr.Counter
