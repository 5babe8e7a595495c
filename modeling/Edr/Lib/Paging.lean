import Mathlib

/-!
# Pages of two sources

A list that is made of two sources and shown in pages. For a page, the first `w` elements of each
source are merged, where `w` is the end of the page, and the page is cut out of the merged ones. The
second source has the order of the merge, and the first one may have any order.
-/

namespace Edr.Paging

open List Bool Nat

variable {α : Type*} (r : α → α → Prop) [DecidableRel r]

/-! ## Ranks -/

/-- The number of the elements that come before `x`. -/
def rank (l : List α) (x : α) : Nat := l.countP fun y => !decide (r x y)

def AntisymmOn (l : List α) : Prop := ∀ a ∈ l, ∀ b ∈ l, r a b → r b a → a = b

variable {r} {l l' : List α} {x y : α} {w w' : Nat}

omit [DecidableRel r] in
theorem AntisymmOn.subset (h : AntisymmOn r l) (hl : l' ⊆ l) : AntisymmOn r l' :=
  fun a ha b hb => h a (hl ha) b (hl hb)

theorem rank_append (l l' : List α) (x : α) : rank r (l ++ l') x = rank r l x + rank r l' x :=
  countP_append

theorem rank_perm (h : l.Perm l') (x : α) : rank r l x = rank r l' x := h.countP_eq _

theorem rank_le_of_sublist (h : l.Sublist l') (x : α) : rank r l x ≤ rank r l' x :=
  h.countP_le

theorem rank_cons (a : α) :
    rank r (a :: l) x = rank r l x + if r x a then 0 else 1 := by
  rw [rank, countP_cons, rank]
  by_cases h : r x a <;> simp [h]

theorem rank_eq_zero (h : ∀ y ∈ l, r x y) : rank r l x = 0 :=
  countP_eq_zero.2 fun y hy => by simp [h y hy]

theorem rank_take_le_add (h : w ≤ w') (x : α) :
    rank r (l.take w') x ≤ rank r (l.take w) x + (w' - w) := by
  obtain ⟨d, rfl⟩ := Nat.exists_eq_add_of_le h
  rw [take_add, rank_append, Nat.add_sub_cancel_left]
  exact Nat.add_le_add_left (countP_le_length.trans (length_take_le _ _)) _

section

variable [IsTrans α r]

theorem rank_mono (hyx : r y x) : rank r l y ≤ rank r l x := by
  refine countP_mono_left fun z _ hz => ?_
  simp only [not_eq_true', decide_eq_false_iff_not] at hz ⊢
  exact fun hxz => hz (IsTrans.trans y x z hyx hxz)

theorem rank_take (hsorted : l.Pairwise r) (w : Nat) (x : α) :
    rank r (l.take w) x = min w (rank r l x) := by
  induction l generalizing w with
  | nil => rw [take_nil]; exact (Nat.min_zero w).symm
  | cons a l ih =>
    obtain ⟨ha, hsorted⟩ := pairwise_cons.1 hsorted
    cases w with
    | zero => rw [take_zero, Nat.zero_min]; rfl
    | succ w =>
      by_cases hxa : r x a
      · have hzero : rank r (a :: l) x = 0 :=
          rank_eq_zero (forall_mem_cons.2 ⟨hxa, fun y hy => IsTrans.trans x a y hxa (ha y hy)⟩)
        have hle := rank_le_of_sublist (r := r) (take_sublist (w + 1) (a :: l)) x
        omega
      · rw [take_succ_cons, rank_cons, rank_cons, if_neg hxa, ih hsorted w]
        omega

variable [Std.Total r]

omit [IsTrans α r] in
theorem mem_take_iff_rank (hsorted : l.Pairwise r) (hnodup : l.Nodup) (hanti : AntisymmOn r l)
    (hx : x ∈ l) : x ∈ l.take w ↔ rank r l x < w := by
  induction l generalizing w with
  | nil => cases hx
  | cons a l ih =>
    obtain ⟨ha, hsorted⟩ := pairwise_cons.1 hsorted
    obtain ⟨hal, hnodup⟩ := nodup_cons.1 hnodup
    cases w with
    | zero => simp
    | succ w =>
      rw [take_succ_cons, mem_cons]
      rcases mem_cons.1 hx with rfl | hxl
      · have hrefl : r x x := (Std.Total.total x x).elim id id
        rw [rank_eq_zero (forall_mem_cons.2 ⟨hrefl, ha⟩)]
        exact ⟨fun _ => succ_pos w, fun _ => .inl rfl⟩
      · have hne : x ≠ a := fun h => hal (h ▸ hxl)
        have hxa : ¬r x a := fun h =>
          hne (hanti x hx a mem_cons_self h (ha x hxl))
        rw [rank_cons, if_neg hxa, Nat.add_lt_add_iff_right,
          ← ih hsorted hnodup (hanti.subset (subset_cons_self a l)) hxl]
        exact or_iff_right hne

omit [IsTrans α r] in
theorem mem_extract_iff_rank (hsorted : l.Pairwise r) (hnodup : l.Nodup) (hanti : AntisymmOn r l)
    {a b : Nat} : x ∈ l.extract a b ↔ x ∈ l ∧ a ≤ rank r l x ∧ rank r l x < b := by
  have hsub : l.take b ⊆ l := take_subset b l
  have hsplit : (l.take b).take a ++ (l.take b).drop a = l.take b := take_append_drop _ _
  have hextract : l.extract a b = (l.take b).drop a := by
    rw [extract_eq_take_drop, drop_take]
  rw [hextract]
  constructor
  · intro hx
    have hxb : x ∈ l.take b := drop_subset _ _ hx
    have hb := (mem_take_iff_rank hsorted hnodup hanti (hsub hxb)).1 hxb
    refine ⟨hsub hxb, not_lt.1 fun hlt => ?_, hb⟩
    -- It is not in the part before, too.
    have hnodup' := hnodup.sublist (take_sublist b l)
    rw [← hsplit, nodup_append'] at hnodup'
    refine hnodup'.2.2 ?_ hx
    rw [take_take, mem_take_iff_rank hsorted hnodup hanti (hsub hxb)]
    exact lt_min hlt hb
  · rintro ⟨hx, ha, hb⟩
    have hxb := (mem_take_iff_rank hsorted hnodup hanti hx).2 hb
    rw [← hsplit, mem_append] at hxb
    refine hxb.resolve_left fun hxa => ?_
    rw [take_take, mem_take_iff_rank hsorted hnodup hanti hx] at hxa
    omega

end

/-! ## The first elements -/

variable (r) in
/-- The first `w` elements of a list, in the order. -/
def top (w : Nat) (l : List α) : List α := (l.insertionSort r).take w

section

variable [IsTrans α r] [Std.Total r]

theorem sort_eq_of_perm (hanti : AntisymmOn r l) (h : l.Perm l') :
    l.insertionSort r = l'.insertionSort r := by
  have hl := perm_insertionSort r l
  have hl' := perm_insertionSort r l'
  exact ((hl.trans h).trans hl'.symm).eq_of_pairwise
    (fun a b ha hb => hanti a (hl.subset ha) b (h.symm.subset (hl'.subset hb)))
    (pairwise_insertionSort r l) (pairwise_insertionSort r l')

theorem sort_concat (hanti : AntisymmOn r (l ++ [x])) :
    (l ++ [x]).insertionSort r = (l.insertionSort r).orderedInsert r x :=
  sort_eq_of_perm hanti (perm_append_singleton x l)

theorem top_sorted (w : Nat) (l : List α) : (top r w l).Pairwise r :=
  (pairwise_insertionSort r l).sublist (take_sublist _ _)

theorem top_top (w : Nat) (l : List α) : top r w (top r w l) = top r w l := by
  rw [top, (top_sorted w l).insertionSort_eq, top, take_take, min_self]

theorem top_perm (hanti : AntisymmOn r l) (h : l.Perm l') (w : Nat) : top r w l = top r w l' := by
  rw [top, top, sort_eq_of_perm hanti h]

omit [IsTrans α r] [Std.Total r] in
theorem top_subset (w : Nat) : top r w l ⊆ l :=
  fun _ hx => (perm_insertionSort r l).subset (take_subset _ _ hx)

theorem rel_of_mem_top (hy : y ∈ top r w l) (hx : x ∈ l) (hxw : x ∉ top r w l) : r y x := by
  have hsorted := pairwise_insertionSort r l
  rw [← take_append_drop w (l.insertionSort r), pairwise_append] at hsorted
  refine hsorted.2.2 y hy x ?_
  have hx := (perm_insertionSort r l).mem_iff.2 hx
  rw [← take_append_drop w (l.insertionSort r), mem_append] at hx
  exact hx.resolve_left hxw

theorem top_concat_of_lt (hanti : AntisymmOn r (l ++ [x])) (h : l.length < w) :
    (top r w (l ++ [x])).Perm (x :: top r w l) := by
  have hlength : (l.insertionSort r).length ≤ w := by
    rw [length_insertionSort]
    exact h.le
  rw [top, top, sort_concat hanti, take_of_length_le hlength, take_of_length_le]
  · exact perm_orderedInsert r x _
  · rw [orderedInsert_length, length_insertionSort]
    exact h

omit [IsTrans α r] [Std.Total r] in
theorem take_orderedInsert_of_before {z : α} (hz : z ∈ l.take w) (hxz : r x z) :
    ((l.orderedInsert r x).take w).Perm (x :: l.take (w - 1)) := by
  induction l generalizing w with
  | nil =>
    rw [take_nil] at hz
    cases hz
  | cons a l ih =>
    cases w with
    | zero => cases hz
    | succ w =>
      by_cases hxa : r x a
      · rw [orderedInsert_cons_of_le r l hxa, take_succ_cons]
        exact .refl _
      · rw [take_succ_cons, mem_cons] at hz
        have hz : z ∈ l.take w := hz.resolve_left fun h => hxa (h ▸ hxz)
        obtain ⟨w, rfl⟩ := exists_eq_succ_of_ne_zero (n := w) (by rintro rfl; cases hz)
        rw [orderedInsert_of_not_le r l hxa, take_succ_cons]
        exact ((ih hz).cons a).trans (.swap x a _)

omit [IsTrans α r] [Std.Total r] in
theorem take_orderedInsert_of_after (h : ∀ y ∈ l.take w, ¬r x y) (hw : w ≤ l.length) :
    (l.orderedInsert r x).take w = l.take w := by
  induction l generalizing w with
  | nil =>
    rw [le_zero.1 hw]
    rfl
  | cons a l ih =>
    cases w with
    | zero => rfl
    | succ w =>
      obtain ⟨hxa, h⟩ := forall_mem_cons.1 h
      rw [orderedInsert_of_not_le r l hxa, take_succ_cons, take_succ_cons,
        ih h (le_of_succ_le_succ hw)]

theorem top_concat_of_before {z : α} (hanti : AntisymmOn r (l ++ [x])) (hz : z ∈ top r w l)
    (hxz : r x z) : (top r w (l ++ [x])).Perm (x :: top r (w - 1) l) := by
  rw [top, sort_concat hanti]
  exact take_orderedInsert_of_before hz hxz

theorem top_concat_of_after (hanti : AntisymmOn r (l ++ [x])) (h : ∀ y ∈ top r w l, ¬r x y)
    (hw : w ≤ l.length) : top r w (l ++ [x]) = top r w l := by
  rw [top, sort_concat hanti]
  exact take_orderedInsert_of_after h (hw.trans_eq (length_insertionSort r l).symm)

theorem top_append_of_after (hanti : AntisymmOn r (l ++ l'))
    (h : ∀ x ∈ l', ∀ y ∈ top r w l, ¬r x y) (hw : w ≤ l.length) :
    top r w (l ++ l') = top r w l := by
  induction l' using reverseRecOn with
  | nil => rw [append_nil]
  | append_singleton l' x ih =>
    rw [← append_assoc] at hanti ⊢
    have hl' := ih (hanti.subset (subset_append_left _ _))
      fun y hy => h y (mem_append_left _ hy)
    rw [top_concat_of_after hanti (hl' ▸ h x (mem_append_right _ (mem_singleton_self x)))
      (hw.trans (length_append ▸ le_add_right _ _)), hl']

end

/-! ## Pages -/

/-- What the merge up to `w` is made of. -/
def candidates (first second : List α) (w : Nat) : List α := first.take w ++ second.take w

variable (r) in
/-- The page number `i`, from 0 on, of `n` elements. -/
def page (first second : List α) (n i : Nat) : List α :=
  ((candidates first second ((i + 1) * n)).insertionSort r).extract (i * n) ((i + 1) * n)

variable (r) in
/-- The first `k` pages. -/
def pages (first second : List α) (n k : Nat) : List α :=
  (List.range k).flatMap (page r first second n)

variable (r) in
/-- At the end of each page up to `w`, the elements of the first source that are among the first of
    all are among the first of that source. -/
def CutsClean (first second : List α) (n w : Nat) : Prop :=
  ∀ i, i * n ≤ w → ∀ x ∈ first.take w, rank r (candidates first second w) x < i * n →
    x ∈ first.take (i * n)

/-- Two sources without a common element, the second one in the order of the merge. -/
structure Sources (r : α → α → Prop) (first second : List α) : Prop where
  nodup : (first ++ second).Nodup
  anti : AntisymmOn r (first ++ second)
  sorted : second.Pairwise r

section

variable {first second : List α} {n i K : Nat}

theorem candidates_subset (w : Nat) : candidates first second w ⊆ first ++ second := by
  intro x hx
  rcases mem_append.1 hx with hx | hx
  · exact mem_append_left _ (mem_of_mem_take hx)
  · exact mem_append_right _ (mem_of_mem_take hx)

theorem candidates_sublist (h : w ≤ w') :
    (candidates first second w).Sublist (candidates first second w') :=
  (take_sublist_take_left h).append (take_sublist_take_left h)

theorem candidates_eq (h : (first ++ second).length ≤ w) :
    candidates first second w = first ++ second := by
  rw [length_append] at h
  rw [candidates, take_of_length_le (by omega), take_of_length_le (by omega)]

theorem le_length_candidates (h : w ≤ (first ++ second).length) :
    w ≤ (candidates first second w).length := by
  rw [length_append] at h
  rw [candidates, length_append, length_take, length_take]
  omega

theorem rank_candidates_mono (h : w ≤ w') (x : α) :
    rank r (candidates first second w) x ≤ rank r (candidates first second w') x :=
  rank_le_of_sublist (candidates_sublist h) x

variable [IsTrans α r] (hs : Sources r first second)

include hs

theorem rank_candidates (w : Nat) (x : α) :
    rank r (candidates first second w) x =
      rank r (first.take w) x + min w (rank r second x) := by
  rw [candidates, rank_append, rank_take hs.sorted]

theorem rank_candidates_lt (h : w ≤ w') (hx : rank r (candidates first second w) x < w) :
    rank r (candidates first second w') x < w' := by
  have hfirst := rank_take_le_add (r := r) (l := first) h x
  rw [rank_candidates hs] at hx ⊢
  omega

omit [DecidableRel r] [IsTrans α r] in
theorem Sources.candidates_nodup (w : Nat) : (candidates first second w).Nodup :=
  hs.nodup.sublist ((take_sublist _ _).append (take_sublist _ _))

omit [DecidableRel r] [IsTrans α r] in
theorem Sources.candidates_anti (w : Nat) : AntisymmOn r (candidates first second w) :=
  hs.anti.subset (candidates_subset w)

variable [Std.Total r]

theorem cutsClean_of_sorted (hsorted : first.Pairwise r) : CutsClean r first second n w := by
  intro i hi x hx hrank
  have hnodup := (nodup_append'.1 hs.nodup).1
  rw [mem_take_iff_rank hsorted hnodup (hs.anti.subset (subset_append_left _ _))
    (mem_of_mem_take hx)]
  have hle := rank_le_of_sublist (r := r)
    (sublist_append_left (first.take w) (second.take w)) x
  rw [rank_take hsorted] at hle
  have hlt : min w (rank r first x) < i * n := hle.trans_lt hrank
  omega

theorem mem_page : x ∈ page r first second n i ↔
    x ∈ candidates first second ((i + 1) * n) ∧
      i * n ≤ rank r (candidates first second ((i + 1) * n)) x ∧
      rank r (candidates first second ((i + 1) * n)) x < (i + 1) * n := by
  have hperm := perm_insertionSort r (candidates first second ((i + 1) * n))
  rw [page, mem_extract_iff_rank (pairwise_insertionSort r _)
    (hperm.nodup_iff.2 (hs.candidates_nodup _))
    ((hs.candidates_anti _).subset hperm.subset), hperm.mem_iff, rank_perm hperm]

/-- If the cuts are clean, an element of the first ones in the longest merge is in the merge for its
    page. -/
theorem mem_candidates (hclean : CutsClean r first second n w) (hi : i * n ≤ w)
    (hx : x ∈ candidates first second w)
    (hrank : rank r (candidates first second w) x < i * n) :
    x ∈ candidates first second (i * n) := by
  rcases mem_append.1 hx with hx | hx
  · exact mem_append_left _ (hclean i hi x hx hrank)
  · rw [rank_candidates hs] at hrank
    refine mem_append_right _ ?_
    have hsecond := hs.anti.subset (subset_append_right first second)
    rw [mem_take_iff_rank hs.sorted (nodup_append.1 hs.nodup).2.1 hsecond
      (mem_of_mem_take hx)]
    omega

theorem rank_candidates_eq (hclean : CutsClean r first second n w) (hi : i * n ≤ w)
    (hrank : rank r (candidates first second w) x < i * n) :
    rank r (candidates first second (i * n)) x = rank r (candidates first second w) x := by
  refine le_antisymm (rank_candidates_mono hi x) ?_
  rw [rank, rank, countP_eq_length_filter, countP_eq_length_filter]
  refine (subperm_of_subset ((hs.candidates_nodup w).filter _) fun y hy => ?_).length_le
  obtain ⟨hy, hyx⟩ := mem_filter.1 hy
  refine mem_filter.2 ⟨mem_candidates hs hclean hi hy ?_, hyx⟩
  -- What comes before `x` has no greater rank.
  simp only [not_eq_true', decide_eq_false_iff_not] at hyx
  exact (rank_mono ((Std.Total.total y x).resolve_right hyx)).trans_lt hrank

theorem rank_lt_of_rank_lt (hclean : CutsClean r first second n w) (hi : i * n ≤ w)
    (hrank : rank r (candidates first second (i * n)) x < i * n) :
    rank r (candidates first second w) x < i * n := by
  by_contra hge
  rw [not_lt] at hge
  -- The first elements of the longest merge are all in the merge for the page, and before `x`.
  have hperm := perm_insertionSort r (candidates first second w)
  have hnodup := hperm.nodup_iff.2 (hs.candidates_nodup w)
  have hfirst : ((candidates first second w).insertionSort r).take (i * n) ⊆
      (candidates first second (i * n)).filter fun y => !decide (r x y) := by
    intro y hy
    have hmem := mem_of_mem_take hy
    rw [mem_take_iff_rank (pairwise_insertionSort r _) hnodup
      ((hs.candidates_anti w).subset hperm.subset) hmem, rank_perm hperm] at hy
    refine mem_filter.2 ⟨mem_candidates hs hclean hi (hperm.mem_iff.1 hmem) hy, ?_⟩
    simp only [not_eq_true', decide_eq_false_iff_not]
    exact fun hxy => absurd (rank_mono hxy) (hy.trans_le hge).not_ge
  have hlength := (subperm_of_subset
    (hnodup.sublist (take_sublist _ _)) hfirst).length_le
  rw [length_take, length_insertionSort, ← countP_eq_length_filter] at hlength
  have hle : rank r (candidates first second w) x ≤ (candidates first second w).length :=
    countP_le_length
  rw [min_eq_left (hge.trans hle)] at hlength
  exact absurd hlength hrank.not_ge

theorem mem_page_of_clean (hclean : CutsClean r first second n w) (hi : (i + 1) * n ≤ w) :
    x ∈ page r first second n i ↔ x ∈ candidates first second w ∧
      i * n ≤ rank r (candidates first second w) x ∧
      rank r (candidates first second w) x < (i + 1) * n := by
  rw [mem_page hs]
  constructor
  · rintro ⟨hx, hge, hlt⟩
    have hrank := rank_lt_of_rank_lt hs hclean hi hlt
    rw [rank_candidates_eq hs hclean hi hrank] at hge hlt
    exact ⟨(candidates_sublist hi).subset hx, hge, hlt⟩
  · rintro ⟨hx, hge, hlt⟩
    rw [rank_candidates_eq hs hclean hi hlt]
    exact ⟨mem_candidates hs hclean hi hx hlt, hge, hlt⟩

omit [IsTrans α r] [Std.Total r] in
theorem page_nodup : (page r first second n i).Nodup := by
  rw [page, extract_eq_take_drop]
  exact ((perm_insertionSort r _).nodup_iff.2 (hs.candidates_nodup _)).sublist
    ((take_sublist _ _).trans (drop_sublist _ _))

theorem pages_nodup {k : Nat} (hclean : CutsClean r first second n (K * n)) (hk : k ≤ K) :
    (pages r first second n k).Nodup := by
  have hend {i : Nat} (hi : i ∈ range k) : (i + 1) * n ≤ K * n :=
    mul_le_mul_right n ((mem_range.1 hi).trans_le hk)
  refine nodup_flatMap.2 ⟨fun i _ => page_nodup hs, ?_⟩
  refine pairwise_lt_range.imp_of_mem fun {i j} hi hj hij x hx hx' => ?_
  have hlt := ((mem_page_of_clean hs hclean (hend hi)).1 hx).2.2
  have hge := ((mem_page_of_clean hs hclean (hend hj)).1 hx').2.1
  exact absurd (hge.trans_lt hlt) (not_lt.2 (mul_le_mul_right n hij))

theorem mem_pages {k : Nat} (hn : 0 < n) (hclean : CutsClean r first second n (K * n))
    (hk : k ≤ K) (hlength : (first ++ second).length ≤ k * n) (hx : x ∈ first ++ second) :
    x ∈ pages r first second n k := by
  have hall : candidates first second (K * n) = first ++ second :=
    candidates_eq (hlength.trans (mul_le_mul_right n hk))
  -- The element is not before itself, so that its rank is less than the number of the elements.
  have hrank : rank r (candidates first second (K * n)) x < k * n := by
    rw [hall]
    have hrefl : r x x := (Std.Total.total x x).elim id id
    refine lt_of_lt_of_le (countP_le_length.lt_of_ne fun heq => ?_) hlength
    simpa [hrefl] using countP_eq_length.1 heq x hx
  refine mem_flatMap.2 ⟨rank r (candidates first second (K * n)) x / n, ?_, ?_⟩
  · exact mem_range.2 (Nat.div_lt_of_lt_mul (Nat.mul_comm n k ▸ hrank))
  · have hdiv : (rank r (candidates first second (K * n)) x / n + 1) * n ≤ K * n :=
      Nat.mul_le_mul_right n ((Nat.div_lt_of_lt_mul (Nat.mul_comm n k ▸ hrank)).trans_le hk)
    rw [mem_page_of_clean hs hclean hdiv]
    exact ⟨hall ▸ hx, div_mul_le_self _ n, lt_mul_of_div_lt (lt_succ_self _) hn⟩

omit hs [IsTrans α r] [Std.Total r] in
theorem length_page (h : (i + 1) * n ≤ (first ++ second).length) :
    (page r first second n i).length = n := by
  have hle := le_length_candidates h
  rw [page, extract_eq_take_drop, length_take, length_drop,
    length_insertionSort]
  have hsucc : (i + 1) * n = i * n + n := succ_mul i n
  omega

omit hs [IsTrans α r] [Std.Total r] in
theorem length_pages {k : Nat} (h : k * n ≤ (first ++ second).length) :
    (pages r first second n k).length = k * n := by
  have hpage : ∀ i ∈ range k, (page r first second n i).length = n := fun i hi =>
    length_page ((mul_le_mul_right n (mem_range.1 hi)).trans h)
  rw [pages, length_flatMap, map_congr_left hpage, map_const',
    sum_replicate_nat, length_range]

theorem pages_subset : pages r first second n K ⊆
    ((candidates first second (K * n)).insertionSort r).take (K * n) := by
  intro x hx
  obtain ⟨i, hi, hx⟩ := mem_flatMap.1 hx
  have hend : (i + 1) * n ≤ K * n := mul_le_mul_right n (mem_range.1 hi)
  obtain ⟨hx, -, hrank⟩ := (mem_page hs).1 hx
  have hperm := perm_insertionSort r (candidates first second (K * n))
  have hx' := (candidates_sublist hend).subset hx
  rw [mem_take_iff_rank (pairwise_insertionSort r _)
    (hperm.nodup_iff.2 (hs.candidates_nodup _))
    ((hs.candidates_anti _).subset hperm.subset) (hperm.mem_iff.2 hx'), rank_perm hperm]
  exact rank_candidates_lt hs hend hrank

theorem not_mem_pages (hx : x ∈ first)
    (hrank : rank r (candidates first second (K * n)) x < i * n) (hcut : x ∉ first.take (i * n)) :
    x ∉ pages r first second n K := by
  intro hmem
  obtain ⟨j, hj, hmem⟩ := mem_flatMap.1 hmem
  obtain ⟨hcand, hge, -⟩ := (mem_page hs).1 hmem
  have hend : (j + 1) * n ≤ K * n := mul_le_mul_right n (mem_range.1 hj)
  rcases lt_or_ge j i with hji | hij
  · -- Until the cut, the element is not in the merges.
    rcases mem_append.1 hcand with hx' | hx'
    · exact hcut (take_subset_take_left _ (mul_le_mul_right n hji) hx')
    · exact (nodup_append'.1 hs.nodup).2.2 hx (mem_of_mem_take hx')
  · -- After it, the element is before the page.
    have hle := (rank_candidates_mono hend x).trans_lt hrank
    exact absurd (hge.trans_lt hle) (not_lt.2 (mul_le_mul_right n hij))

/-- The pages have no element twice and, when they reach the number of the elements, all of them,
    iff the cuts are clean. -/
theorem pages_iff (hn : 0 < n) :
    (∀ k ≤ K, (pages r first second n k).Nodup ∧
      ((first ++ second).length ≤ k * n → ∀ x ∈ first ++ second, x ∈ pages r first second n k)) ↔
    CutsClean r first second n (K * n) := by
  constructor
  · intro h i hi x hx hrank
    by_contra hcut
    have hnot := not_mem_pages hs (mem_of_mem_take hx) hrank hcut
    obtain ⟨hnodup, hall⟩ := h K le_rfl
    rcases lt_or_ge (K * n) (first ++ second).length with hlt | hge
    · -- There is one element too few for the pages.
      have hperm := perm_insertionSort r (candidates first second (K * n))
      have hxs : x ∈ ((candidates first second (K * n)).insertionSort r).take (K * n) := by
        rw [mem_take_iff_rank (pairwise_insertionSort r _)
          (hperm.nodup_iff.2 (hs.candidates_nodup _))
          ((hs.candidates_anti _).subset hperm.subset)
          (hperm.mem_iff.2 (mem_append_left _ hx)), rank_perm hperm]
        exact hrank.trans_le hi
      have hlength := (subperm_of_subset (nodup_cons.2 ⟨hnot, hnodup⟩)
        (cons_subset.2 ⟨hxs, pages_subset hs⟩)).length_le
      rw [length_cons, length_pages hlt.le, length_take] at hlength
      omega
    · exact hnot (hall hge x (mem_append_left _ (mem_of_mem_take hx)))
  · intro hclean k hk
    exact ⟨pages_nodup hs hclean hk, fun hlength x hx => mem_pages hs hn hclean hk hlength hx⟩

end

end Edr.Paging
