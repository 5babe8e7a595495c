import Mathlib

/-!
# Decimal arithmetic

Decimal numbers are rationals. Libraries differ in how they round.

* `HasDecimals k`: a number with `k` digits after the point.
-/

namespace Edr.Decimal

open Int

def roundHalfAway (q : Rat) : Int := if 0 ≤ q then ⌊q + 1 / 2⌋ else -⌊-q + 1 / 2⌋

def roundHalfEven (q : Rat) : Int :=
  if q - ⌊q⌋ < 1 / 2 then ⌊q⌋
  else if 1 / 2 < q - ⌊q⌋ then ⌊q⌋ + 1
  else if ⌊q⌋ % 2 = 0 then ⌊q⌋
  else ⌊q⌋ + 1

/-- Rounding to `n` significant digits, with ties to the even digit. -/
def roundDigits (n : Nat) (q : Rat) : Rat :=
  let exponent := Int.log 10 |q| + 1 - n
  roundHalfEven (q / 10 ^ exponent) * 10 ^ exponent

/-- A number with `k` digits after the point. -/
def HasDecimals (k : Nat) (q : Rat) : Prop := ∃ z : Int, q * 10 ^ k = z

variable {q : Rat} {k : Nat}

instance : Decidable (HasDecimals k q) :=
  decidable_of_iff ((q * 10 ^ k).den = 1)
    ⟨fun h => ⟨_, (Rat.coe_int_num_of_den_eq_one h).symm⟩, fun ⟨z, hz⟩ => by rw [hz, Rat.den_intCast]⟩

theorem roundHalfAway_nonneg (h : 0 ≤ q) : 0 ≤ roundHalfAway q := by
  rw [roundHalfAway, if_pos h]
  exact floor_nonneg.2 (add_nonneg h (by norm_num))

theorem roundHalfAway_le {n : Int} (h₀ : 0 ≤ q) (h : q ≤ n) : roundHalfAway q ≤ n := by
  rw [roundHalfAway, if_pos h₀, ← lt_add_one_iff, floor_lt]
  push_cast
  linarith

theorem roundHalfEven_nonneg (h : 0 ≤ q) : 0 ≤ roundHalfEven q := by
  have hfloor := floor_nonneg.2 h
  unfold roundHalfEven
  split_ifs <;> omega

theorem roundDigits_nonneg {n : Nat} (h : 0 ≤ q) : 0 ≤ roundDigits n q := by
  have hpow (e : Int) : (0 : Rat) ≤ 10 ^ e := zpow_nonneg (by norm_num) e
  refine mul_nonneg ?_ (hpow _)
  exact_mod_cast roundHalfEven_nonneg (div_nonneg h (hpow _))

theorem roundHalfEven_intCast (z : Int) : roundHalfEven z = z := by
  simp [roundHalfEven]

theorem roundDigits_eq {n m : Nat} (hk : HasDecimals k q) (hm : |q| < 10 ^ m) (hn : m + k ≤ n) :
    roundDigits n q = q := by
  rcases eq_or_ne q 0 with rfl | hq
  · simp [roundDigits, roundHalfEven]
  obtain ⟨z, hz⟩ := hk
  have hlog : Int.log 10 |q| < m :=
    (lt_zpow_iff_log_lt (by decide) (abs_pos.2 hq)).1 (by rw [zpow_natCast]; exact_mod_cast hm)
  -- The digits that are kept reach behind the last one after the point.
  obtain ⟨d, hd⟩ : ∃ d : Nat, Int.log 10 |q| + 1 - n = -((k + d : Nat) : Int) :=
    ⟨(n - k - (Int.log 10 |q| + 1)).toNat, by omega⟩
  have hint : q / 10 ^ (-((k + d : Nat) : Int)) = ((z * 10 ^ d : Int) : Rat) := by
    rw [zpow_neg, div_inv_eq_mul, zpow_natCast, pow_add, ← mul_assoc, hz]
    push_cast
    rfl
  rw [roundDigits, hd, hint, roundHalfEven_intCast, ← hint]
  exact div_mul_cancel₀ q (zpow_ne_zero _ (by norm_num))

/-! ## Rounding keeps the order -/

theorem roundHalfAway_mono {p q : Rat} (hp : 0 ≤ p) (h : p ≤ q) :
    roundHalfAway p ≤ roundHalfAway q := by
  rw [roundHalfAway, roundHalfAway, if_pos hp, if_pos (hp.trans h)]
  exact floor_mono (by linarith)

theorem roundHalfAway_add_natCast (h : 0 ≤ q) (n : Nat) :
    roundHalfAway (q + n) = roundHalfAway q + n := by
  rw [roundHalfAway, roundHalfAway, if_pos h, if_pos (add_nonneg h (Nat.cast_nonneg n)),
    add_right_comm, floor_add_natCast]

theorem floor_le_roundHalfEven (q : Rat) : ⌊q⌋ ≤ roundHalfEven q := by
  unfold roundHalfEven
  split_ifs <;> omega

theorem roundHalfEven_le_floor_add_one (q : Rat) : roundHalfEven q ≤ ⌊q⌋ + 1 := by
  unfold roundHalfEven
  split_ifs <;> omega

theorem roundHalfEven_mono {p q : Rat} (h : p ≤ q) : roundHalfEven p ≤ roundHalfEven q := by
  rcases (floor_mono h).lt_or_eq with hlt | heq
  · exact (roundHalfEven_le_floor_add_one p).trans
      ((add_one_le_iff.2 hlt).trans (floor_le_roundHalfEven q))
  · -- Both lie between the same integers, and the fraction of `p` is the smaller one.
    have hfract : p - ⌊p⌋ ≤ q - ⌊q⌋ := by
      rw [heq]
      linarith
    unfold roundHalfEven
    rw [← heq] at hfract ⊢
    split_ifs <;> first | omega | (exfalso; linarith)

theorem mul_roundHalfEven_zpow {e f : Int} (h : e ≤ f) :
    (roundHalfEven (10 ^ f / 10 ^ e) : Rat) * 10 ^ e = 10 ^ f := by
  have hne : (10 : Rat) ^ e ≠ 0 := zpow_ne_zero e (by norm_num)
  have hdiv : (10 : Rat) ^ f / 10 ^ e = ((10 ^ (f - e).toNat : Int) : Rat) := by
    push_cast
    rw [← zpow_natCast, toNat_of_nonneg (by omega), zpow_sub₀ (by norm_num)]
  rw [hdiv, roundHalfEven_intCast, ← hdiv, div_mul_cancel₀ _ hne]

theorem mul_roundHalfEven_mono (e : Int) {p q : Rat} (h : p ≤ q) :
    (roundHalfEven (p / 10 ^ e) : Rat) * 10 ^ e ≤ roundHalfEven (q / 10 ^ e) * 10 ^ e := by
  have hpow : (0 : Rat) ≤ 10 ^ e := zpow_nonneg (by norm_num) e
  refine mul_le_mul_of_nonneg_right ?_ hpow
  exact_mod_cast roundHalfEven_mono (div_le_div_of_nonneg_right h hpow)

theorem roundDigits_le_zpow {n : Nat} (h : 0 < q) :
    roundDigits n q ≤ 10 ^ (Int.log 10 q + 1) := by
  have hlt : q < 10 ^ (Int.log 10 q + 1) := by exact_mod_cast lt_zpow_succ_log_self (by decide) q
  rw [roundDigits, abs_of_pos h]
  exact (mul_roundHalfEven_mono _ hlt.le).trans_eq (mul_roundHalfEven_zpow (by omega))

theorem zpow_le_roundDigits {n : Nat} (hn : 0 < n) (h : 0 < q) :
    10 ^ Int.log 10 q ≤ roundDigits n q := by
  have hle : (10 : Rat) ^ Int.log 10 q ≤ q := by exact_mod_cast zpow_log_le_self (by decide) h
  rw [roundDigits, abs_of_pos h]
  exact (mul_roundHalfEven_zpow (by omega)).symm.trans_le (mul_roundHalfEven_mono _ hle)

theorem roundDigits_mono {n : Nat} (hn : 0 < n) {p q : Rat} (hp : 0 ≤ p) (h : p ≤ q) :
    roundDigits n p ≤ roundDigits n q := by
  rcases hp.eq_or_lt with rfl | hp
  · have : roundDigits n 0 = 0 := by simp [roundDigits, roundHalfEven]
    rw [this]
    exact roundDigits_nonneg h
  have hq : 0 < q := hp.trans_le h
  have hpow (e : Int) : (0 : Rat) < 10 ^ e := zpow_pos (by norm_num) e
  rcases (log_mono_right hp h).lt_or_eq with hlt | heq
  · calc roundDigits n p ≤ 10 ^ (Int.log 10 p + 1) := roundDigits_le_zpow hp
      _ ≤ 10 ^ Int.log 10 q := zpow_le_zpow_right₀ (by norm_num) (add_one_le_iff.2 hlt)
      _ ≤ roundDigits n q := zpow_le_roundDigits hn hq
  · rw [roundDigits, roundDigits, abs_of_pos hp, abs_of_pos hq, heq]
    refine mul_le_mul_of_nonneg_right ?_ (hpow _).le
    exact_mod_cast roundHalfEven_mono (div_le_div_of_nonneg_right h (hpow _).le)
end Edr.Decimal
