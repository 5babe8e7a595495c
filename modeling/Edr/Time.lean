import Mathlib

/-!
# Instants and UTC days

Instants are integers, in milliseconds since the Unix epoch: the precision of the
`DateTime64(3)` columns of ClickHouse. Days are counted from the epoch too, so
that an instant before 1970 lies on a negative day. A bucket of the catalog is a
UTC day, known by its number: `dayStart` is its `bucket_start_at`, and
`dateOf` the day that an `occurred_at` is truncated to.
-/

namespace Edr

abbrev Time := Int

/-- `datetime.min` and `datetime.max`. -/
def datetimeMin : Time := -62135596800000

@[inherit_doc datetimeMin]
def datetimeMax : Time := 253402300799999

abbrev Day := Int

def dayLength : Int := 86400000

/-- `occurred_at.replace(hour=0, minute=0, second=0, microsecond=0)`, as a day. -/
def dateOf (t : Time) : Day := t / dayLength

def dayStart (d : Day) : Time := d * dayLength

/-- The first instant after a day: `bucket_start + timedelta(days=1)`. -/
def dayEnd (d : Day) : Time := dayStart d + dayLength

theorem dateOf_eq_iff {t : Time} {d : Day} : dateOf t = d ↔ dayStart d ≤ t ∧ t < dayEnd d := by
  unfold dateOf dayEnd dayStart dayLength
  grind

theorem dayStart_lt_dayEnd (d : Day) : dayStart d < dayEnd d :=
  (dateOf_eq_iff.1 (Int.mul_ediv_cancel d (by decide) : dateOf (dayStart d) = d)).2

/-! ## Intervals from the epoch -/

/-- The interval of `seconds` that a time lies in, counted from the epoch. -/
def interval (t : Time) (seconds : Nat) : Int := t / (seconds * 1000)

def CutUp (t : Time) (seconds : Nat) : Prop :=
  t < 0 ∧ t % 1000 ≠ 0 ∧ (seconds : Int) ∣ t / 1000 + 1

instance (t : Time) (seconds : Nat) : Decidable (CutUp t seconds) :=
  inferInstanceAs (Decidable (_ ∧ _ ∧ _))

theorem tdiv_thousand_eq (t : Time) :
    t.tdiv 1000 = t / 1000 + if t < 0 ∧ t % 1000 ≠ 0 then 1 else 0 := by
  rw [Int.tdiv_eq_ediv]
  congr 1
  by_cases h : 0 ≤ t ∨ (1000 : Int) ∣ t
  · rw [if_pos h, if_neg]
    grind
  · rw [if_neg h, if_pos]
    · rfl
    · grind

theorem add_one_ediv {a w : Int} (hw : 0 < w) :
    (a + 1) / w = a / w + if w ∣ a + 1 then 1 else 0 := by
  have ha := Int.ediv_mul_add_emod a w
  have hlt := Int.emod_lt_of_pos a hw
  have hnonneg := Int.emod_nonneg a hw.ne'
  have hdvd : w ∣ a + 1 ↔ a % w + 1 = w := by
    constructor
    · intro h
      have hrest : w ∣ a % w + 1 := by
        rw [← Int.dvd_add_right (Int.dvd_mul_left (a / w) w), ← add_assoc, ha]
        exact h
      exact le_antisymm hlt (Int.le_of_dvd (by omega) hrest)
    · intro h
      exact ⟨a / w + 1, by rw [Int.mul_add, Int.mul_comm, Int.mul_one]; omega⟩
  rw [Int.ediv_eq_iff_of_pos hw]
  split_ifs with h
  · have := hdvd.1 h
    rw [Int.add_mul, Int.one_mul]
    omega
  · have := mt hdvd.2 h
    rw [add_zero]
    omega

theorem tdiv_ediv_eq {t : Time} {seconds : Nat} (h : 0 < seconds) :
    t.tdiv 1000 / seconds = interval t seconds + if CutUp t seconds then 1 else 0 := by
  have h' : (0 : Int) < seconds := by exact_mod_cast h
  have hinterval : t / 1000 / seconds = interval t seconds := by
    rw [interval, Int.ediv_ediv, if_neg (by omega), sub_zero, mul_comm]
  rw [tdiv_thousand_eq, ← hinterval]
  by_cases hcut : t < 0 ∧ t % 1000 ≠ 0
  · rw [if_pos hcut, add_one_ediv h']
    simp [CutUp, hcut]
  · rw [if_neg hcut, if_neg (fun h => hcut ⟨h.1, h.2.1⟩), add_zero, add_zero]

end Edr
