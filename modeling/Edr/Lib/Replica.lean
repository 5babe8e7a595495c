import Mathlib

/-!
# Replicas of a log

A source is the log of its changes, the last one first, so that what it was at an earlier time is a
suffix. A *replica* shows, for each of its keys, the source as it was at some time, or nothing yet:
`κ → Option (List χ)`. It is written by keys, from times that may differ.
-/

namespace Edr.Replica

variable {κ χ : Type*} {f g h : κ → Option (List χ)} {k : κ} {c : χ} {log log' σ : List χ}

/-- For no key does `g` show an earlier time than `f`. -/
def Advances (f g : κ → Option (List χ)) : Prop :=
  ∀ k σ, f k = some σ → ∃ σ', g k = some σ' ∧ σ <:+ σ'

theorem Advances.refl (f : κ → Option (List χ)) : Advances f f :=
  fun _ σ hσ => ⟨σ, hσ, List.suffix_refl σ⟩

theorem Advances.trans (hfg : Advances f g) (hgh : Advances g h) : Advances f h := by
  intro k σ hσ
  obtain ⟨σ', hσ', hle⟩ := hfg k σ hσ
  obtain ⟨σ'', hσ'', hle'⟩ := hgh k σ' hσ'
  exact ⟨σ'', hσ'', hle.trans hle'⟩

def Within (log : List χ) (f : κ → Option (List χ)) : Prop := ∀ k σ, f k = some σ → σ <:+ log

theorem Within.mono (hf : Within log f) (hlog : log <:+ log') : Within log' f :=
  fun k σ hσ => (hf k σ hσ).trans hlog

def Shows (f : κ → Option (List χ)) (k : κ) (c : χ) : Prop := ∃ σ, f k = some σ ∧ c ∈ σ

theorem Shows.advances (hc : Shows f k c) (hfg : Advances f g) : Shows g k c := by
  obtain ⟨σ, hσ, hc⟩ := hc
  obtain ⟨σ', hσ', hle⟩ := hfg k σ hσ
  exact ⟨σ', hσ', hle.subset hc⟩

/-- A replica advances when some keys are written from times that are not before those they show. -/
theorem advances_overwrite
    (hg : ∀ k, g k = f k ∨ ∃ ρ, g k = some ρ ∧ ∀ σ, f k = some σ → σ <:+ ρ) : Advances f g := by
  intro k σ hσ
  rcases hg k with h | ⟨ρ, hρ, hle⟩
  · exact ⟨σ, h.trans hσ, List.suffix_refl σ⟩
  · exact ⟨ρ, hρ, hle σ hσ⟩

theorem within_overwrite (hf : Within log f)
    (hg : ∀ k, g k = f k ∨ ∃ ρ, g k = some ρ ∧ ρ <:+ log) : Within log g := by
  intro k σ hσ
  rcases hg k with h | ⟨ρ, hρ, hle⟩
  · exact hf k σ (h.symm.trans hσ)
  · cases hρ.symm.trans hσ
    exact hle

end Edr.Replica
