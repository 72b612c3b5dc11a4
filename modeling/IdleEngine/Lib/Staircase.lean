import Mathlib.Algebra.BigOperators.Intervals
import Mathlib.Algebra.Order.Archimedean.Basic

/-!
# Climbing a staircase with a purse

Every level may have a price for the step to the next one. A climber pays and goes on as long as
there is a price and the purse holds it. The climb is a relation between where it starts and where
it ends (`Climbs`): no money is lost (`Climbs.conserved`), and money that is added later leads where
it would have led at once (`Climbs.add`). It ends where there is a last level or where prices do not become arbitrarily small
(`exists_climbs`); `climb` is the loop that computes it.
-/

namespace Staircase

variable {α : Type} [AddCommGroup α] [LinearOrder α]

/-- From a level and a purse the climb ends at a level, with what is left. -/
inductive Climbs (price : ℕ → Option α) : ℕ → α → ℕ → α → Prop
  | rest {level : ℕ} {purse : α} (h : ∀ cost, price level = some cost → purse < cost) :
      Climbs price level purse level purse
  | pay {level last : ℕ} {purse cost left : α} (hprice : price level = some cost)
      (hcost : cost ≤ purse) (h : Climbs price (level + 1) (purse - cost) last left) :
      Climbs price level purse last left

/-- The climb as a loop; without an answer it takes more rounds than the fuel allows. -/
def climb (price : ℕ → Option α) : ℕ → ℕ → α → Option (ℕ × α)
  | 0, _, _ => none
  | fuel + 1, level, purse =>
      match price level with
      | none => some (level, purse)
      | some cost =>
          if purse < cost then some (level, purse) else climb price fuel (level + 1) (purse - cost)

/-- The prices of all steps between two levels. -/
def cost (price : ℕ → Option α) (level last : ℕ) : α :=
  ∑ i ∈ Finset.Ico level last, (price i).getD 0

variable {price : ℕ → Option α} {level last : ℕ} {purse left : α}

namespace Climbs

theorem le (h : Climbs price level purse last left) : level ≤ last := by
  induction h with
  | rest => exact le_rfl
  | pay _ _ _ ih => omega

/-- The climb ends where the next step has no price or is too dear. -/
theorem ends (h : Climbs price level purse last left) :
    ∀ cost, price last = some cost → left < cost := by
  induction h with
  | rest h => exact h
  | pay _ _ _ ih => exact ih

/-- **No money is lost.** What was paid and what is left make up the purse. -/
theorem conserved (h : Climbs price level purse last left) :
    cost price level last + left = purse := by
  induction h with
  | rest => rw [cost, Finset.Ico_self, Finset.sum_empty, zero_add]
  | pay hprice _ h ih =>
    rw [cost, Finset.sum_eq_sum_Ico_succ_bot (by have := h.le; omega), hprice, Option.getD_some,
      add_assoc]
    rw [cost] at ih
    rw [ih, add_sub_cancel]

/-- Nobody climbs beyond a level from which on there are no prices. -/
theorem le_cap {cap : ℕ} (hcap : ∀ i, cap ≤ i → price i = none)
    (h : Climbs price level purse last left) : last ≤ max level cap := by
  induction h with
  | rest => exact le_max_left _ _
  | @pay level _ _ _ _ hprice _ _ ih =>
    have hbelow : level < cap := by
      by_contra hnot
      rw [hcap level (by omega)] at hprice
      cases hprice
    omega

/-- The purse pays for whatever was climbed with less. -/
theorem add [IsOrderedAddMonoid α] {last' : ℕ} {left' gain : α} (hgain : 0 ≤ gain)
    (h : Climbs price level purse last left)
    (h' : Climbs price last (left + gain) last' left') :
    Climbs price level (purse + gain) last' left' := by
  induction h with
  | rest => exact h'
  | pay hprice hcost _ ih =>
    have hmore := ih h'
    rw [sub_add_eq_add_sub] at hmore
    exact .pay hprice (hcost.trans (le_add_of_nonneg_right hgain)) hmore

/-- The loop answers with as much fuel as there are steps to climb, and one round more. -/
theorem climb_eq (h : Climbs price level purse last left) :
    ∀ {fuel : ℕ}, last - level < fuel → climb price fuel level purse = some (last, left) := by
  induction h with
  | @rest level purse h =>
    intro fuel hfuel
    obtain ⟨fuel, rfl⟩ := Nat.exists_eq_succ_of_ne_zero (Nat.ne_zero_of_lt hfuel)
    rw [climb]
    split
    · rfl
    · next cost hprice => rw [if_pos (h cost hprice)]
  | pay hprice hcost h ih =>
    intro fuel hfuel
    obtain ⟨fuel, rfl⟩ := Nat.exists_eq_succ_of_ne_zero (Nat.ne_zero_of_lt hfuel)
    have hle := h.le
    rw [climb, hprice]
    dsimp only
    rw [if_neg (not_lt_of_ge hcost)]
    exact ih (by omega)

end Climbs

/-- With a last level the climb ends. -/
theorem exists_climbs_of_cap {cap : ℕ} (hcap : ∀ i, cap ≤ i → price i = none) (level : ℕ)
    (purse : α) : ∃ last left, Climbs price level purse last left := by
  -- by the levels that are left
  induction hn : cap - level generalizing level purse with
  | zero => exact ⟨level, purse, .rest fun cost hprice => by
      rw [hcap level (by omega)] at hprice
      cases hprice⟩
  | succ n ih =>
    by_cases hpay : ∃ cost, price level = some cost ∧ cost ≤ purse
    · obtain ⟨cost, hprice, hcost⟩ := hpay
      obtain ⟨last, left, h⟩ := ih (level + 1) (purse - cost) (by omega)
      exact ⟨last, left, .pay hprice hcost h⟩
    · exact ⟨level, purse, .rest fun cost hprice =>
        not_le.mp fun hcost => hpay ⟨cost, hprice, hcost⟩⟩

/-- With prices bounded away from zero the climb ends. -/
theorem exists_climbs_of_bound [IsOrderedAddMonoid α] [Archimedean α] {ε : α} (hε : 0 < ε)
    (hbound : ∀ i cost, price i = some cost → ε ≤ cost) (level : ℕ) (purse : α) :
    ∃ last left, Climbs price level purse last left := by
  -- by how often the purse holds the bound
  obtain ⟨n, hn⟩ := Archimedean.arch purse hε
  induction n generalizing level purse with
  | zero =>
    rw [zero_nsmul] at hn
    exact ⟨level, purse, .rest fun cost hprice =>
      (hn.trans_lt hε).trans_le (hbound level cost hprice)⟩
  | succ n ih =>
    by_cases hpay : ∃ cost, price level = some cost ∧ cost ≤ purse
    · obtain ⟨cost, hprice, hcost⟩ := hpay
      have hless : purse - cost ≤ n • ε := by
        rw [sub_le_iff_le_add]
        exact (succ_nsmul ε n ▸ hn).trans (by
          have hle := hbound level cost hprice
          gcongr)
      obtain ⟨last, left, h⟩ := ih (level + 1) (purse - cost) hless
      exact ⟨last, left, .pay hprice hcost h⟩
    · exact ⟨level, purse, .rest fun cost hprice =>
        not_le.mp fun hcost => hpay ⟨cost, hprice, hcost⟩⟩

end Staircase
