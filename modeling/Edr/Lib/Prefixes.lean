import Mathlib

/-!
# Longest prefixes

The longest prefix of a list that has a property. There is at most one (`IsLongest.unique`). A search
that goes up stops at it, if no longer prefix than one without the property has the property
(`isLongest_append`); a search over the lengths finds it at the greatest one (`isLongest_take`).
-/

namespace Edr.Prefixes

variable {α : Type*} {p q : List α → Prop} {l chosen chosen' : List α}

/-- Of the prefixes of `l` with the property, `chosen` is the longest one. -/
structure IsLongest (p : List α → Prop) (l chosen : List α) : Prop where
  isPrefix : chosen <+: l
  holds : p chosen
  longest : ∀ l', l' <+: l → p l' → l' <+: chosen

/-- The property is one that prefixes keep. -/
def Closed (p : List α → Prop) : Prop := ∀ l l' : List α, l' <+: l → p l → p l'

/-- What a list starts with after a `dropWhile` has nothing more to drop. -/
theorem dropWhile_of_start {f : α → Bool} {l l' : List α} (h : l' <+: l.dropWhile f) :
    l'.dropWhile f = l' := by
  obtain ⟨rest, hrest⟩ := h
  have hstart := List.dropWhile_eq_self_iff.1 (List.dropWhile_idempotent f l)
  rw [← hrest] at hstart
  refine List.dropWhile_eq_self_iff.2 fun hpos => ?_
  have hf := hstart (hpos.trans_le (by simp))
  rwa [List.getElem_append_left hpos] at hf

theorem IsLongest.unique (h : IsLongest p l chosen) (h' : IsLongest p l chosen') :
    chosen = chosen' :=
  (h'.longest _ h.isPrefix h.holds).eq_of_length_le
    (h.longest _ h'.isPrefix h'.holds).length_le

theorem IsLongest.congr (h : IsLongest p l chosen) (hpq : ∀ l', l' <+: l → (p l' ↔ q l')) :
    IsLongest q l chosen where
  isPrefix := h.isPrefix
  holds := (hpq chosen h.isPrefix).1 h.holds
  longest l' hl' hq := h.longest l' hl' ((hpq l' hl').2 hq)

theorem isLongest_append {before after : List α} (hclosed : Closed p) (hp : p before)
    (hnext : ∀ a rest, after = a :: rest → ¬p (before ++ [a])) :
    IsLongest p (before ++ after) before where
  isPrefix := List.prefix_append before after
  holds := hp
  longest l' hl' hp' := by
    rcases List.prefix_or_prefix_of_prefix hl' (List.prefix_append before after) with h | h
    · exact h
    · obtain ⟨added, rfl⟩ := h
      rw [List.prefix_append_right_inj] at hl'
      cases added with
      | nil => rw [List.append_nil]
      | cons a added =>
        obtain ⟨rest, rfl⟩ := hl'
        have hcut : before ++ [a] <+: before ++ a :: added := ⟨added, by simp⟩
        exact absurd (hclosed _ _ hcut hp') (hnext a _ rfl)

theorem isLongest_take {n : Nat} (hp : p (l.take n))
    (hlast : ∀ m ≤ l.length, p (l.take m) → m ≤ n) : IsLongest p l (l.take n) where
  isPrefix := List.take_prefix n l
  holds := hp
  longest l' hl' hp' := by
    have hcut := List.prefix_iff_eq_take.1 hl'
    have hle := hlast l'.length hl'.length_le (hcut ▸ hp')
    rw [hcut]
    exact List.take_prefix_take_left hle

end Edr.Prefixes
