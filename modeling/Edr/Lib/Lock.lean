import Mathlib

/-!
# Exclusive holders

Each of the agents `ι`, in its state in `σ`, holds at most one of the keys `κ`
(`hold : σ → Option κ`). `Exclusive` says that no two agents hold the same key. It is kept
when one agent moves to a state in which it holds nothing that another one does
(`Exclusive.update`).
-/

namespace Edr

open Function

variable {ι σ κ : Type*} {hold : σ → Option κ} {f : ι → σ}

def Exclusive (hold : σ → Option κ) (f : ι → σ) : Prop :=
  ∀ i j k, hold (f i) = some k → hold (f j) = some k → i = j

theorem Exclusive.others_ne (h : Exclusive hold f) {i : ι} {k : κ} (hi : hold (f i) = some k) :
    ∀ j, j ≠ i → hold (f j) ≠ some k :=
  fun j hj hk => hj (h j i k hk hi)

theorem Exclusive.update [DecidableEq ι] (h : Exclusive hold f) {i : ι} {x : σ}
    (hx : ∀ k, hold x = some k → ∀ j, j ≠ i → hold (f j) ≠ some k) :
    Exclusive hold (update f i x) := by
  intro i₁ i₂ k h₁ h₂
  by_cases e₁ : i₁ = i <;> by_cases e₂ : i₂ = i
  · exact e₁.trans e₂.symm
  · subst e₁
    rw [update_self] at h₁
    rw [update_of_ne e₂] at h₂
    exact absurd h₂ (hx k h₁ i₂ e₂)
  · subst e₂
    rw [update_self] at h₂
    rw [update_of_ne e₁] at h₁
    exact absurd h₁ (hx k h₂ i₁ e₁)
  · rw [update_of_ne e₁] at h₁
    rw [update_of_ne e₂] at h₂
    exact h i₁ i₂ k h₁ h₂

end Edr
