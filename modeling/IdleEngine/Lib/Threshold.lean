import Mathlib.Algebra.Order.Floor.Ring
import Mathlib.Data.Rat.Floor
import Mathlib.Tactic.FieldSimp
import Mathlib.Tactic.Linarith
import Mathlib.Tactic.Ring

/-!
# Releasing an amount in whole units

An amount that grows by fractions is released in whole multiples of a unit; what is less than a
unit is kept, and `slack` short of a unit counts as one. Two such amounts that grow in a fixed
proportion `p : c` and are released in the same proportion `scale` stay in balance: what the one
is ahead of the other is always less than one unit (`abs_imbalance_release_le`).
-/

namespace Threshold

variable {unit slack total : ℚ}

/-- The whole units in an amount. -/
def release (unit slack total : ℚ) : ℚ := ⌊(total + slack) / unit⌋ * unit

section

variable (hunit : 0 < unit)
include hunit

theorem release_le (slack total : ℚ) : release unit slack total ≤ total + slack := by
  have hfloor := Int.floor_le ((total + slack) / unit)
  exact (le_div_iff₀ hunit).mp hfloor

theorem lt_release_add (slack total : ℚ) : total + slack < release unit slack total + unit := by
  have hfloor := Int.lt_floor_add_one ((total + slack) / unit)
  have hlt := (div_lt_iff₀ hunit).mp hfloor
  rw [release]
  linarith

theorem release_nonneg (h : 0 ≤ total + slack) : 0 ≤ release unit slack total :=
  mul_nonneg (by exact_mod_cast Int.floor_nonneg.mpr (div_nonneg h hunit.le)) hunit.le

/-- What is kept after a release scaled by at most one. -/
theorem neg_slack_le_kept {scale : ℚ} (hscale : scale ≤ 1)
    (h : 0 ≤ total + slack) : -slack ≤ total - release unit slack total * scale := by
  have hle : release unit slack total * scale ≤ release unit slack total :=
    mul_le_of_le_one_right (release_nonneg hunit h) hscale
  linarith [release_le hunit slack total]

/-! ### Amounts that grow -/

theorem release_mono {total' : ℚ} (h : total ≤ total') :
    release unit slack total ≤ release unit slack total' := by
  have hfloor : ⌊(total + slack) / unit⌋ ≤ ⌊(total' + slack) / unit⌋ :=
    Int.floor_mono (div_le_div_of_nonneg_right (add_le_add_left h slack) hunit.le)
  exact mul_le_mul_of_nonneg_right (by exact_mod_cast hfloor) hunit.le

/-- What is released of an amount is what it grows by, up to a unit. -/
theorem release_sub_lt (slack total total' : ℚ) :
    release unit slack total' - release unit slack total < total' - total + unit := by
  linarith [release_le hunit slack total',
    lt_release_add hunit slack total]

/-- Whole units may be taken out before or after. -/
theorem release_sub_units (total : ℚ) (units : ℤ) :
    release unit slack (total - units * unit) = release unit slack total - units * unit := by
  have hdiv : (total - units * unit + slack) / unit = (total + slack) / unit - units := by
    field_simp
    ring
  rw [release, hdiv, Int.floor_sub_intCast, release]
  push_cast
  ring

end

/-- All that is released of an amount that grows by `delta` and is released, again and again. -/
def releasedAfter (unit slack start delta : ℚ) : ℕ → ℚ
  | 0 => 0
  | k + 1 => release unit slack (start + (k + 1) * delta)

theorem release_sub_releasedAfter (hunit : 0 < unit) (total start delta : ℚ) (k : ℕ) :
    release unit slack (total - releasedAfter unit slack start delta k) =
      release unit slack total - releasedAfter unit slack start delta k := by
  cases k with
  | zero => simp [releasedAfter]
  | succ k => exact release_sub_units hunit total _

/-- In `k` steps as much is released as in one step of that length. -/
theorem releasedAfter_one_step (start delta : ℚ) {k : ℕ} (hk : 0 < k) :
    releasedAfter unit slack start (k * delta) 1 = releasedAfter unit slack start delta k := by
  obtain ⟨j, rfl⟩ := Nat.exists_eq_add_of_lt hk
  simp [releasedAfter]

variable (hunit : 0 < unit)
include hunit

/-- While nothing is released, an amount grows by less than a unit. -/
theorem lt_unit_of_releasedAfter_eq {start delta : ℚ} {j k : ℕ} (hj : 0 < j) (hjk : j ≤ k)
    (h : releasedAfter unit slack start delta k = releasedAfter unit slack start delta j) :
    (k - j : ℚ) * delta < unit := by
  obtain ⟨j, rfl⟩ := Nat.exists_eq_add_of_lt hj
  obtain ⟨k, rfl⟩ := Nat.exists_eq_add_of_lt (hj.trans_le hjk)
  simp only [releasedAfter, zero_add] at h
  have hhigh := lt_release_add hunit slack (start + (k + 1) * delta)
  have hlow := release_le hunit slack (start + (j + 1) * delta)
  rw [h] at hhigh
  push_cast
  linarith

theorem releasedAfter_mono {start delta : ℚ} (hstart : -slack ≤ start)
    (hdelta : 0 ≤ delta) {j k : ℕ} (hjk : j ≤ k) :
    releasedAfter unit slack start delta j ≤ releasedAfter unit slack start delta k := by
  cases k with
  | zero =>
    obtain rfl := Nat.le_zero.mp hjk
    exact le_rfl
  | succ k =>
    cases j with
    | zero =>
      have hgrown : 0 ≤ (k + 1 : ℚ) * delta := mul_nonneg (by positivity) hdelta
      exact release_nonneg hunit (by linarith)
    | succ j =>
      have hjk' : (j : ℚ) + 1 ≤ k + 1 := by exact_mod_cast hjk
      have hgrown : start + (j + 1) * delta ≤ start + (k + 1) * delta :=
        add_le_add_right (mul_le_mul_of_nonneg_right hjk' hdelta) start
      exact release_mono hunit hgrown

/-- Between two releases an amount releases what it grows by, up to a unit. -/
theorem releasedAfter_sub_lt (slack start delta : ℚ) {j k : ℕ} (hj : 0 < j) (hjk : j ≤ k) :
    releasedAfter unit slack start delta k - releasedAfter unit slack start delta j <
      (k - j : ℚ) * delta + unit := by
  obtain ⟨j, rfl⟩ := Nat.exists_eq_add_of_lt hj
  obtain ⟨k, rfl⟩ := Nat.exists_eq_add_of_lt (hj.trans_le hjk)
  have hlt := release_sub_lt hunit slack (start + (j + 1) * delta)
    (start + (k + 1) * delta)
  simp only [releasedAfter, zero_add]
  push_cast
  linarith

/-- An amount that waits for another to release something lags behind by at most a unit, and what
it grows by while the other grows by a unit. -/
theorem releasedAfter_lag {p c : ℚ} (hp : 0 < p) (hc : 0 < c) (waiting : ℚ)
    {leading work : ℚ} {j k : ℕ} (hj : 0 < j) (hjk : j ≤ k)
    (h : releasedAfter unit slack leading (c * work) k =
      releasedAfter unit slack leading (c * work) j) :
    releasedAfter unit slack waiting (p * work) k - releasedAfter unit slack waiting (p * work) j ≤
      unit * (1 + p / c) := by
  have hwait := lt_unit_of_releasedAfter_eq hunit hj hjk h
  have hlate := releasedAfter_sub_lt hunit slack waiting (p * work) hj hjk
  -- the time that has passed, measured by the leading amount
  have htime : (k - j : ℚ) * (p * work) ≤ unit * (p / c) := by
    have hscaled : (k - j : ℚ) * (p * work) = (k - j : ℚ) * (c * work) * (p / c) := by
      field_simp
    rw [hscaled]
    exact mul_le_mul_of_nonneg_right hwait.le (div_pos hp hc).le
  calc releasedAfter unit slack waiting (p * work) k - releasedAfter unit slack waiting (p * work) j
      ≤ (k - j : ℚ) * (p * work) + unit := hlate.le
    _ ≤ unit * (p / c) + unit := add_le_add_left htime unit
    _ = unit * (1 + p / c) := by ring

/-! ### Two amounts in proportion -/

/-- A remainder under a weight of at most `m`. -/
theorem weighted_remainder_mem (h0 : 0 ≤ slack) (h1 : slack ≤ unit) {q m : ℚ}
    (hq : 0 ≤ q) (hqm : q ≤ m) (total : ℚ) :
    -(m * slack) ≤ q * (total - release unit slack total) ∧
      q * (total - release unit slack total) ≤ m * (unit - slack) := by
  have hlow : -slack ≤ total - release unit slack total := by
    linarith [release_le hunit slack total]
  have hhigh : total - release unit slack total ≤ unit - slack := by
    linarith [lt_release_add hunit slack total]
  constructor
  · have hweight : q * slack ≤ m * slack := mul_le_mul_of_nonneg_right hqm h0
    have hmul := mul_le_mul_of_nonneg_left hlow hq
    linarith
  · have hweight : q * (unit - slack) ≤ m * (unit - slack) :=
      mul_le_mul_of_nonneg_right hqm (sub_nonneg.mpr h1)
    exact (mul_le_mul_of_nonneg_left hhigh hq).trans hweight

/-- The remainders of two amounts differ by at most one unit of the heavier. -/
theorem abs_remainders_le (h0 : 0 ≤ slack) (h1 : slack ≤ unit) {p c : ℚ}
    (hp : 0 ≤ p) (hc : 0 ≤ c) (produced consumed : ℚ) :
    |p * (consumed - release unit slack consumed) -
      c * (produced - release unit slack produced)| ≤ unit * max p c := by
  obtain ⟨hclow, hchigh⟩ := weighted_remainder_mem hunit h0 h1 hp (le_max_left p c) consumed
  obtain ⟨hplow, hphigh⟩ := weighted_remainder_mem hunit h0 h1 hc (le_max_right p c) produced
  rw [abs_le]
  constructor <;> linarith

/-- Releasing both amounts in the same proportion keeps them in balance. -/
theorem abs_imbalance_release_le (hslack : 0 ≤ slack) (hslack' : slack ≤ unit)
    {p c : ℚ} (hp : 0 ≤ p) (hc : 0 ≤ c) {scale : ℚ} (h0 : 0 ≤ scale) (h1 : scale ≤ 1)
    {produced consumed : ℚ}
    (h : |p * consumed - c * produced| ≤ unit * max p c) :
    |p * (consumed - release unit slack consumed * scale) -
      c * (produced - release unit slack produced * scale)| ≤ unit * max p c := by
  have hrem := abs_remainders_le hunit hslack hslack' hp hc produced consumed
  have hmix : p * (consumed - release unit slack consumed * scale) -
      c * (produced - release unit slack produced * scale) =
      (1 - scale) * (p * consumed - c * produced) +
        scale * (p * (consumed - release unit slack consumed) -
          c * (produced - release unit slack produced)) := by
    ring
  rw [hmix]
  calc |(1 - scale) * (p * consumed - c * produced) +
        scale * (p * (consumed - release unit slack consumed) -
          c * (produced - release unit slack produced))|
      ≤ |(1 - scale) * (p * consumed - c * produced)| +
        |scale * (p * (consumed - release unit slack consumed) -
          c * (produced - release unit slack produced))| := abs_add_le _ _
    _ ≤ (1 - scale) * (unit * max p c) + scale * (unit * max p c) := by
        rw [abs_mul, abs_mul, abs_of_nonneg (sub_nonneg.mpr h1), abs_of_nonneg h0]
        exact add_le_add (mul_le_mul_of_nonneg_left h (sub_nonneg.mpr h1))
          (mul_le_mul_of_nonneg_left hrem h0)
    _ = unit * max p c := by ring

end Threshold
