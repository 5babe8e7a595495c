import Edr.Lib.Paging
import Edr.Lib.Table

/-!
# Ranks in groups

Rows with an order `r`, in groups: two rows are in one group if `g` is the same for them. The first
rows of the groups can be found by a window function, which numbers the rows of each group, or by a
loop that keeps the first row that it has seen of each group. Both find the same rows.
-/

namespace Edr.Ranking

open List Table Nat

open Paging

/-! ## The order of a key -/

section

variable {α K : Type*} [LinearOrder K] (key : α → K)

/-- `ORDER BY key DESC`. -/
def descending (a b : α) : Prop := key b ≤ key a

instance : DecidableRel (descending key) := fun a b => inferInstanceAs (Decidable (key b ≤ key a))

instance : IsTrans α (descending key) := ⟨fun _ _ _ hab hbc => le_trans hbc hab⟩

instance : Std.Total (descending key) := ⟨fun a b => le_total (key b) (key a)⟩

variable {key}

theorem antisymmOn_descending {l : List α} (h : ∀ a ∈ l, ∀ b ∈ l, key a = key b → a = b) :
    AntisymmOn (descending key) l :=
  fun a ha b hb hab hba => h a ha b hb (le_antisymm hba hab)

/-- Two rows are not told apart by a key that ends in their id only if they are the same. -/
theorem antisymmOn_of_ids {L : Type*} [LinearOrder L] {first : α → K} {second : α → L} {id : α → Nat}
    {l : List α} (h : (l.map id).Nodup) : AntisymmOn (descending fun x =>
      (toLex (first x, toLex (second x, id x)) : K ×ₗ L ×ₗ Nat)) l := by
  refine antisymmOn_descending fun a ha b hb hkey => inj_on_of_nodup_map h ha hb ?_
  simp only [EmbeddingLike.apply_eq_iff_eq, Prod.mk.injEq] at hkey
  exact hkey.2.2

end

variable {α β κ κ' : Type*} (r : α → α → Prop) [DecidableRel r] (g : α → κ) [DecidableEq κ]

/-- `row_number() OVER (PARTITION BY g ORDER BY r)`. -/
def rowNumber (rows : List α) (x : α) : Nat :=
  rank r (rows.filter fun y => decide (g y = g x)) x + 1

def numbered (rows : List α) : List (α × Nat) := rows.map fun x => (x, rowNumber r g rows x)

def leaders (rows : List α) : List α := rows.filter fun x => decide (rowNumber r g rows x = 1)

def keep (t : Table κ α) (x : α) : Table κ α :=
  t.upsert (g x) fun
    | none => x
    | some y => if r y x then y else x

def best (rows : List α) : Table κ α := rows.foldl (keep r g) .empty

/-- The rows of the numbers up to `w`, in their order. -/
def firstRows (w : Nat) (rows : List (α × Nat)) : List α :=
  ((rows.filter fun x => decide (x.2 ≤ w)).insertionSort fun x y => x.2 ≤ y.2).map Prod.fst

variable {r g} {rows rows' : List α} {x y : α}

/-! ## The first rows of the groups -/

theorem rowNumber_eq_one : rowNumber r g rows x = 1 ↔ ∀ y ∈ rows, g y = g x → r x y := by
  rw [rowNumber, add_eq_right, rank, countP_eq_zero]
  simp

theorem mem_leaders : x ∈ leaders r g rows ↔ x ∈ rows ∧ ∀ y ∈ rows, g y = g x → r x y := by
  rw [leaders, mem_filter, decide_eq_true_eq, rowNumber_eq_one]

theorem leaders_eq_numbered :
    ((numbered r g rows).filter fun x => decide (x.2 = 1)).map Prod.fst = leaders r g rows := by
  rw [numbered, filter_map, map_map]
  exact map_id _

theorem leaders_subset : leaders r g rows ⊆ rows := fun _ hx => (mem_leaders.1 hx).1

theorem nodup_leaders (h : rows.Nodup) : (leaders r g rows).Nodup := h.filter _

theorem rowNumber_perm (h : rows.Perm rows') (x : α) :
    rowNumber r g rows x = rowNumber r g rows' x := by
  rw [rowNumber, rowNumber, rank_perm (h.filter _)]

theorem leaders_perm (h : rows.Perm rows') : (leaders r g rows).Perm (leaders r g rows') := by
  rw [leaders, leaders, filter_congr fun x _ => by rw [rowNumber_perm h x]]
  exact h.filter _

theorem leaders_injOn (hanti : AntisymmOn r rows) (hx : x ∈ leaders r g rows)
    (hy : y ∈ leaders r g rows) (h : g x = g y) : x = y := by
  obtain ⟨hxm, hx⟩ := mem_leaders.1 hx
  obtain ⟨hym, hy⟩ := mem_leaders.1 hy
  exact hanti x hxm y hym (hx y hym h.symm) (hy x hxm h)

theorem leaders_eq_self [Std.Total r] (h : ∀ x ∈ rows, ∀ y ∈ rows, g x = g y → x = y) :
    leaders r g rows = rows := by
  refine filter_eq_self.2 fun x hx => decide_eq_true (rowNumber_eq_one.2 fun y hy hg => ?_)
  rw [h y hy x hx hg]
  exact (Std.Total.total x x).elim id id

theorem leaders_filter [DecidableEq κ'] (h : α → κ') (e : κ') :
    (leaders r (fun x => (h x, g x)) rows).filter (fun x => decide (h x = e)) =
      leaders r g (rows.filter fun x => decide (h x = e)) := by
  rw [leaders, leaders, filter_filter, filter_filter]
  refine filter_congr fun x _ => ?_
  by_cases hx : h x = e
  · subst hx
    rw [Bool.and_comm]
    congr 1
    rw [decide_eq_decide, rowNumber_eq_one, rowNumber_eq_one]
    simp only [mem_filter, decide_eq_true_eq, Prod.mk.injEq]
    exact ⟨fun hall y hy hg => hall y hy.1 ⟨hy.2, hg⟩, fun hall y hy hg => hall y ⟨hy, hg.1⟩ hg.2⟩
  · simp [hx]

theorem leaders_map {s : β → β → Prop} [DecidableRel s] [DecidableEq κ'] {g' : β → κ'} (f : α → β)
    (hr : ∀ x y, s (f x) (f y) ↔ r x y) (hg : ∀ x y, g' (f x) = g' (f y) ↔ g x = g y) :
    leaders s g' (rows.map f) = (leaders r g rows).map f := by
  rw [leaders, leaders, filter_map]
  refine congrArg _ (filter_congr fun x _ => ?_)
  rw [Function.comp_apply, decide_eq_decide, rowNumber_eq_one, rowNumber_eq_one]
  simp [hr, hg]

/-! ## The loop -/

section

variable [IsTrans α r] [Std.Total r]

variable (r g rows) in
/-- What the loop has kept of a group after the rows `rows`. -/
def IsBest (k : κ) : Option α → Prop
  | none => ∀ y ∈ rows, g y ≠ k
  | some x => x ∈ rows ∧ g x = k ∧ ∀ y ∈ rows, g y = k → r x y

theorem isBest_best (rows : List α) (k : κ) : IsBest r g rows k ((best r g rows).get? k) := by
  induction rows using reverseRecOn with
  | nil => exact fun _ h => absurd h not_mem_nil
  | append_singleton rows a ih =>
    have hrefl : r a a := (Std.Total.total a a).elim id id
    rw [best, foldl_append, foldl_cons, foldl_nil, keep, get?_upsert]
    split_ifs with hk
    · subst hk
      change IsBest r g rows (g a) ((rows.foldl (keep r g) .empty).get? (g a)) at ih
      cases hget : (rows.foldl (keep r g) empty).get? (g a) with
      | none =>
        rw [hget] at ih
        refine ⟨mem_append_right _ mem_cons_self, rfl, fun y hy hg => ?_⟩
        rcases mem_append.1 hy with hy | hy
        · exact absurd hg (ih y hy)
        · cases mem_singleton.1 hy
          exact hrefl
      | some x =>
        rw [hget] at ih
        obtain ⟨hx, hgx, hall⟩ := ih
        by_cases hxa : r x a
        · simp only [if_pos hxa]
          refine ⟨mem_append_left _ hx, hgx, fun y hy hg => ?_⟩
          rcases mem_append.1 hy with hy | hy
          · exact hall y hy hg
          · cases mem_singleton.1 hy
            exact hxa
        · simp only [if_neg hxa]
          have hax : r a x := (Std.Total.total x a).resolve_left hxa
          refine ⟨mem_append_right _ mem_cons_self, rfl, fun y hy hg => ?_⟩
          rcases mem_append.1 hy with hy | hy
          · exact IsTrans.trans a x y hax (hall y hy hg)
          · cases mem_singleton.1 hy
            exact hrefl
    · change IsBest r g rows k ((rows.foldl (keep r g) .empty).get? k) at ih
      have hne {y : α} (hy : y ∈ rows ++ [a]) (hg : g y = k) : y ∈ rows := by
        refine (mem_append.1 hy).resolve_right fun hy => ?_
        cases mem_singleton.1 hy
        exact hk hg.symm
      cases hget : (rows.foldl (keep r g) empty).get? k with
      | none =>
        rw [hget] at ih
        exact fun y hy hg => ih y (hne hy hg) hg
      | some x =>
        rw [hget] at ih
        obtain ⟨hx, hgx, hall⟩ := ih
        exact ⟨mem_append_left _ hx, hgx, fun y hy hg => hall y (hne hy hg) hg⟩

theorem mem_best (hanti : AntisymmOn r rows) :
    x ∈ (best r g rows).rows.map Prod.snd ↔ x ∈ leaders r g rows := by
  rw [mem_leaders, mem_map]
  constructor
  · rintro ⟨⟨k, x⟩, hx, rfl⟩
    have hbest := isBest_best (r := r) (g := g) rows k
    rw [mem_rows.1 hx] at hbest
    obtain ⟨hm, rfl, hall⟩ := hbest
    exact ⟨hm, hall⟩
  · rintro ⟨hx, hall⟩
    have hbest := isBest_best (r := r) (g := g) rows (g x)
    cases hget : (best r g rows).get? (g x) with
    | none =>
      rw [hget] at hbest
      exact absurd rfl (hbest x hx)
    | some y =>
      rw [hget] at hbest
      obtain ⟨hy, hg, hall'⟩ := hbest
      cases hanti x hx y hy (hall y hy hg) (hall' x hx rfl)
      exact ⟨(g x, x), mem_rows.2 hget, rfl⟩

theorem best_perm (hnodup : rows.Nodup) (hanti : AntisymmOn r rows) :
    ((best r g rows).rows.map Prod.snd).Perm (leaders r g rows) := by
  refine (perm_ext_iff_of_nodup ?_ (nodup_leaders hnodup)).2 fun x => mem_best hanti
  -- A row determines the group that it is kept for.
  have hkeys : ((best r g rows).rows.map Prod.snd).map g = (best r g rows).rows.map Prod.fst := by
    rw [map_map]
    refine map_congr_left fun ⟨k, x⟩ hx => ?_
    have hbest := isBest_best (r := r) (g := g) rows k
    rw [mem_rows.1 hx] at hbest
    exact hbest.2.1
  exact .of_map g (hkeys ▸ (best r g rows).nodup)

end

/-! ## The rows of the least numbers -/

section

variable [IsTrans α r] [Std.Total r]

omit [IsTrans α r] in
theorem map_rank_of_sorted (hsorted : rows.Pairwise r) (hnodup : rows.Nodup)
    (hanti : AntisymmOn r rows) : rows.map (rank r rows) = List.range rows.length := by
  induction rows with
  | nil => rfl
  | cons a rows ih =>
    obtain ⟨ha, hsorted⟩ := pairwise_cons.1 hsorted
    obtain ⟨hnot, hnodup⟩ := nodup_cons.1 hnodup
    have hrefl : r a a := (Std.Total.total a a).elim id id
    have hzero : rank r (a :: rows) a = 0 := rank_eq_zero (forall_mem_cons.2 ⟨hrefl, ha⟩)
    have hsucc : rows.map (rank r (a :: rows)) = rows.map (.succ ∘ rank r rows) := by
      refine map_congr_left fun x hx => ?_
      have hxa : ¬r x a := fun h => hnot
        (hanti x (mem_cons_of_mem a hx) a mem_cons_self h (ha x hx) ▸ hx)
      rw [rank_cons, if_neg hxa]
      rfl
    rw [map_cons, hzero, hsucc, ← map_map,
      ih hsorted hnodup (hanti.subset (subset_cons_self a rows)), length_cons,
      range_succ_eq_map]

variable (hnodup : rows.Nodup) (hanti : AntisymmOn r rows)

include hnodup hanti

theorem map_rank_sort :
    (rows.insertionSort r).map (rank r rows) = List.range rows.length := by
  have hperm := perm_insertionSort r rows
  have hranks := map_rank_of_sorted (pairwise_insertionSort r rows)
    (hperm.nodup_iff.2 hnodup) (hanti.subset hperm.subset)
  rw [length_insertionSort] at hranks
  rw [← hranks]
  exact map_congr_left fun x _ => (rank_perm hperm x).symm

theorem rank_injOn (hx : x ∈ rows) (hy : y ∈ rows) (h : rank r rows x = rank r rows y) : x = y := by
  have hperm := perm_insertionSort r rows
  have hnodup' : ((rows.insertionSort r).map (rank r rows)).Nodup :=
    map_rank_sort hnodup hanti ▸ nodup_range
  exact inj_on_of_nodup_map hnodup' (hperm.symm.subset hx) (hperm.symm.subset hy) h

theorem sort_rank (w : Nat) :
    ((rows.filter fun x => decide (rank r rows x < w)).insertionSort
      fun x y => rank r rows x ≤ rank r rows y) = top r w rows := by
  have hperm := perm_insertionSort r rows
  have hsub : top r w rows ⊆ rows := fun x hx => hperm.subset (take_subset _ _ hx)
  have htop {x : α} (hx : x ∈ rows) : x ∈ top r w rows ↔ rank r rows x < w := by
    rw [top, mem_take_iff_rank (pairwise_insertionSort r rows) (hperm.nodup_iff.2 hnodup)
      (hanti.subset hperm.subset) (hperm.symm.subset hx), rank_perm hperm]
  have hmem (x : α) : x ∈ rows.filter (fun x => decide (rank r rows x < w)) ↔
      x ∈ top r w rows := by
    rw [mem_filter, decide_eq_true_eq]
    exact ⟨fun hx => (htop hx.1).2 hx.2, fun hx => ⟨hsub hx, (htop (hsub hx)).1 hx⟩⟩
  have hfilter : (rows.filter fun x => decide (rank r rows x < w)).Perm (top r w rows) :=
    (perm_ext_iff_of_nodup (hnodup.filter _)
      ((hperm.nodup_iff.2 hnodup).sublist (take_sublist _ _))).2 hmem
  have hsort := perm_insertionSort (fun x y => rank r rows x ≤ rank r rows y)
    (rows.filter fun x => decide (rank r rows x < w))
  have : IsTrans α fun x y => rank r rows x ≤ rank r rows y := ⟨fun _ _ _ => le_trans⟩
  have : Std.Total fun x y => rank r rows x ≤ rank r rows y := ⟨fun _ _ => le_total _ _⟩
  refine (hsort.trans hfilter).eq_of_pairwise ?_ (pairwise_insertionSort _ _)
    ((top_sorted w rows).imp fun h => rank_mono h)
  intro x y hx hy hxy hyx
  exact rank_injOn hnodup hanti (hsub (hfilter.subset (hsort.subset hx))) (hsub hy)
    (le_antisymm hxy hyx)

theorem sum_rank {M : Type*} [AddCommMonoid M] (f : Nat → α → M) :
    (rows.map fun x => f (rank r rows x) x).sum =
      ((rows.insertionSort r).zipIdx.map fun p => f p.2 p.1).sum := by
  have hperm := perm_insertionSort r rows
  rw [← (hperm.map fun x => f (rank r rows x) x).sum_eq]
  congr 1
  refine ext_getElem (by simp) fun i h₁ h₂ => ?_
  have hranks := congrArg (fun l => l[i]?) (map_rank_sort hnodup hanti)
  have hi : i < (rows.insertionSort r).length := by simpa using h₁
  have hi' : i < rows.length := by simpa using hi
  simp only [getElem?_map, getElem?_eq_getElem hi, Option.map_some, getElem?_range hi',
    Option.some.injEq] at hranks
  simp [hranks]

end

theorem numbered_filter (e : κ) :
    (numbered r g rows).filter (fun x => decide (g x.1 = e)) =
      (rows.filter fun x => decide (g x = e)).map fun x =>
        (x, rank r (rows.filter fun y => decide (g y = e)) x + 1) := by
  rw [numbered, filter_map]
  refine map_congr_left fun x hx => ?_
  obtain ⟨-, hx⟩ := mem_filter.1 hx
  cases of_decide_eq_true hx
  rfl

theorem firstRows_numbered [IsTrans α r] [Std.Total r] (hnodup : rows.Nodup)
    (hanti : AntisymmOn r rows) (w : Nat) :
    firstRows w (rows.map fun x => (x, rank r rows x + 1)) = top r w rows := by
  have hfilter : rows.filter ((fun x : α × Nat => decide (x.2 ≤ w)) ∘
      fun x => (x, rank r rows x + 1)) = rows.filter fun x => decide (rank r rows x < w) := rfl
  have hsort := map_insertionSort (fun x y => rank r rows x ≤ rank r rows y)
    (fun x y : α × Nat => x.2 ≤ y.2) (fun x => (x, rank r rows x + 1))
    (rows.filter fun x => decide (rank r rows x < w)) fun _ _ _ _ => succ_le_succ_iff.symm
  rw [firstRows, filter_map, hfilter, ← hsort, map_map, ← sort_rank hnodup hanti w]
  exact map_id _

/-! ## The first rows again -/

section

variable [IsTrans α r] [Std.Total r]

omit [IsTrans α r] [Std.Total r] in
theorem top_map {s : β → β → Prop} [DecidableRel s] (f : α → β) (hr : ∀ x y, s (f x) (f y) ↔ r x y)
    (w : Nat) : top s w (rows.map f) = (top r w rows).map f := by
  rw [top, top, map_take, map_insertionSort r s f _ fun x _ y _ => (hr x y).symm]

theorem top_leaders_top (hanti : AntisymmOn r rows) (w : Nat) :
    top r w (leaders r g (top r w (leaders r g rows))) = top r w (leaders r g rows) := by
  rw [leaders_eq_self fun x hx y hy => leaders_injOn hanti (top_subset w hx) (top_subset w hy),
    top_top]

end

/-! ## Lists that are below others -/

section

variable {K : Type*} [LinearOrder K] {l l' : List K}

def Below (l l' : List K) : Prop :=
  ∀ (i : Nat) (a : K), l[i]? = some a → ∃ b, l'[i]? = some b ∧ a ≤ b

theorem Below.cons {a b : K} (h : a ≤ b) (hl : Below l l') : Below (a :: l) (b :: l') := by
  intro i c hc
  cases i with
  | zero =>
    cases hc
    exact ⟨b, rfl, h⟩
  | succ i => exact hl i c hc

theorem Below.of_cons {a : K} (h : Below (a :: l) l') :
    ∃ b l₁, l' = b :: l₁ ∧ a ≤ b ∧ Below l l₁ := by
  obtain ⟨b, hb, hab⟩ := h 0 a rfl
  cases l' with
  | nil => cases hb
  | cons b' l₁ =>
    cases hb
    exact ⟨b, l₁, rfl, hab, fun i c hc => h (i + 1) c hc⟩

theorem Below.take (h : Below l l') (n : Nat) : Below (l.take n) (l'.take n) := by
  intro i a ha
  rw [getElem?_take] at ha
  split_ifs at ha with hi
  obtain ⟨b, hb, hab⟩ := h i a ha
  exact ⟨b, by rw [getElem?_take, if_pos hi, hb], hab⟩

theorem Below.sum_zip_le {ω : Type*} {f : K → ω → Int} {ws : List ω} (h : Below l l')
    (hmono : ∀ a b w, w ∈ ws → a ∈ l → a ≤ b → f a w ≤ f b w)
    (hnonneg : ∀ b w, w ∈ ws → b ∈ l' → 0 ≤ f b w) :
    ((l.zip ws).map fun p => f p.1 p.2).sum ≤ ((l'.zip ws).map fun p => f p.1 p.2).sum := by
  induction ws generalizing l l' with
  | nil => simp
  | cons w ws ih =>
    cases l with
    | nil =>
      refine sum_nonneg fun x hx => ?_
      obtain ⟨p, hp, rfl⟩ := mem_map.1 hx
      exact hnonneg p.1 p.2 (of_mem_zip hp).2 (of_mem_zip hp).1
    | cons a l =>
      obtain ⟨b, l₁, rfl, hab, hbelow⟩ := h.of_cons
      refine add_le_add (hmono a b w mem_cons_self mem_cons_self hab) (ih hbelow ?_ ?_)
      · exact fun a b w hw ha => hmono a b w (mem_cons_of_mem _ hw) (mem_cons_of_mem _ ha)
      · exact fun b w hw hb => hnonneg b w (mem_cons_of_mem _ hw) (mem_cons_of_mem _ hb)

/-- A sorted list is below another one if that has at least as many values from any threshold on. By
    induction on the first list: its greatest value is the first threshold. -/
theorem below_of_countP (hl : l.Pairwise (· ≥ ·)) (hl' : l'.Pairwise (· ≥ ·))
    (h : ∀ t, l.countP (fun a => decide (t ≤ a)) ≤ l'.countP fun a => decide (t ≤ a)) :
    Below l l' := by
  induction l generalizing l' with
  | nil => exact fun i a ha => by simp at ha
  | cons a l ih =>
    obtain ⟨ha, hl⟩ := pairwise_cons.1 hl
    cases l' with
    | nil =>
      have := h a
      simp at this
    | cons b l' =>
      obtain ⟨hb, hl'⟩ := pairwise_cons.1 hl'
      have hab : a ≤ b := by
        have hpos : 0 < (b :: l').countP fun c => decide (a ≤ c) :=
          lt_of_lt_of_le (by simp) (h a)
        obtain ⟨c, hc, hac⟩ := countP_pos_iff.1 hpos
        rcases mem_cons.1 hc with rfl | hc
        · exact of_decide_eq_true hac
        · exact (of_decide_eq_true hac).trans (hb c hc)
      refine .cons hab (ih hl hl' fun t => ?_)
      by_cases ht : t ≤ a
      · have := h t
        simpa [ht, ht.trans hab] using this
      · have hzero : l.countP (fun c => decide (t ≤ c)) = 0 := by
          refine countP_eq_zero.2 fun c hc => ?_
          rw [decide_eq_true_eq]
          exact fun htc => ht (htc.trans (ha c hc))
        rw [hzero]
        exact zero_le _

variable [IsTrans α r] [Std.Total r]

theorem exists_leader (hx : x ∈ rows) : ∃ y ∈ leaders r g rows, g y = g x := by
  have hbest := isBest_best (r := r) (g := g) rows (g x)
  cases hget : (best r g rows).get? (g x) with
  | none =>
    rw [hget] at hbest
    exact absurd rfl (hbest x hx)
  | some y =>
    rw [hget] at hbest
    obtain ⟨hy, hg, hall⟩ := hbest
    exact ⟨y, mem_leaders.2 ⟨hy, fun z hz hgz => hall z hz (hgz.trans hg)⟩, hg⟩

/-- Where rows grow, so do the first rows of their groups, place by place. -/
theorem below_leaders {f : α → K} (hf : ∀ x y, r x y → f y ≤ f x) (hnodup : rows.Nodup)
    (hanti : AntisymmOn r rows)
    (h : ∀ x ∈ rows, ∃ y ∈ rows', g y = g x ∧ f x ≤ f y) (w : Nat) :
    Below ((top r w (leaders r g rows)).map f) ((top r w (leaders r g rows')).map f) := by
  have hsorted (l : List α) : ((l.insertionSort r).map f).Pairwise (· ≥ ·) :=
    pairwise_map.2 ((pairwise_insertionSort r l).imp fun hxy => hf _ _ hxy)
  rw [top, top, map_take, map_take]
  refine (below_of_countP (hsorted _) (hsorted _) fun t => ?_).take w
  have hperm (l : List α) : ((l.insertionSort r).map f).countP (fun a => decide (t ≤ a)) =
      ((l.filter fun x => decide (t ≤ f x)).map g).length := by
    rw [countP_map, (perm_insertionSort r l).countP_eq, length_map,
      countP_eq_length_filter]
    rfl
  rw [hperm, hperm]
  -- The groups that reach the threshold do so in the other rows.
  refine (subperm_of_subset ?_ ?_).length_le
  · refine .map_on (fun x hx y hy hg => ?_) ((nodup_leaders hnodup).filter _)
    exact leaders_injOn hanti (mem_of_mem_filter hx) (mem_of_mem_filter hy) hg
  · intro k hk
    obtain ⟨x, hx, rfl⟩ := mem_map.1 hk
    obtain ⟨hx, ht⟩ := mem_filter.1 hx
    obtain ⟨y, hy, hgy, hxy⟩ := h x (leaders_subset hx)
    obtain ⟨z, hz, hgz⟩ := exists_leader (r := r) (g := g) hy
    have hyz : f y ≤ f z := hf z y ((mem_leaders.1 hz).2 y hy hgz.symm)
    refine mem_map.2 ⟨z, mem_filter.2 ⟨hz, ?_⟩, hgz.trans hgy⟩
    exact decide_eq_true (((of_decide_eq_true ht).trans hxy).trans hyz)

end

end Edr.Ranking
