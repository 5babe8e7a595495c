import Mathlib

/-!
# Histories

What has happened so far, as a list of events with the latest one first, so that the past of an
event is the rest of the list behind it.

* `After p q h`: an event that meets `q` has happened after one that meets `p`.
-/

namespace Edr

variable {α : Type*}

/-- Each event of the history stands in the relation `φ` to its past. -/
def Always (φ : α → List α → Prop) (h : List α) : Prop :=
  ∀ e past, e :: past <:+ h → φ e past

/-- An event that meets `ψ` has happened, and since then only ones that meet `φ`. -/
def Since (φ ψ : α → Prop) : List α → Prop
  | [] => False
  | e :: past => ψ e ∨ φ e ∧ Since φ ψ past

/-- An event that meets `q` has happened after one that meets `p`. -/
def After (p q : α → Prop) (h : List α) : Prop :=
  ∃ e past, e :: past <:+ h ∧ q e ∧ ∃ e' ∈ past, p e'

variable {φ φ' : α → List α → Prop} {ψ χ p q : α → Prop} {e : α} {h : List α}

@[simp] theorem always_nil : Always φ [] := fun _ _ h => nomatch List.eq_nil_of_suffix_nil h

@[simp] theorem always_cons : Always φ (e :: h) ↔ φ e h ∧ Always φ h := by
  refine ⟨fun H => ⟨H e h List.suffix_rfl, fun e' past hs => ?_⟩, fun ⟨he, H⟩ e' past hs => ?_⟩
  · exact H e' past (hs.trans (List.suffix_cons e h))
  · rcases List.suffix_cons_iff.1 hs with heq | hs
    · cases heq
      exact he
    · exact H e' past hs

@[simp] theorem since_cons : Since ψ χ (e :: h) ↔ χ e ∨ ψ e ∧ Since ψ χ h := .rfl

@[simp] theorem after_cons : After p q (e :: h) ↔ (q e ∧ ∃ e' ∈ h, p e') ∨ After p q h := by
  constructor
  · rintro ⟨e', past, hs, hq, hp⟩
    rcases List.suffix_cons_iff.1 hs with heq | hs
    · cases heq
      exact .inl ⟨hq, hp⟩
    · exact .inr ⟨e', past, hs, hq, hp⟩
  · rintro (⟨hq, hp⟩ | ⟨e', past, hs, hq, hp⟩)
    · exact ⟨e, h, List.suffix_rfl, hq, hp⟩
    · exact ⟨e', past, hs.trans (List.suffix_cons e h), hq, hp⟩

end Edr
