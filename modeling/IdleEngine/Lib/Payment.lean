import Mathlib.Algebra.Group.Pi.Basic
import Mathlib.Algebra.Order.Group.Defs
import Mathlib.Algebra.Order.Group.Unbundled.Basic

/-!
# Paying in parts

Amounts of several goods are held, and a price asks for some of each. A price can be paid when what
it asks for is there; a good of which it asks for nothing need not be, so it may even be owed. Two
prices can be paid one after the other exactly when their sum can be paid at once
(`affordable_add`).
-/

namespace Payment

variable {ι α : Type} [AddCommGroup α] [LinearOrder α]

/-- The price can be paid from what is held. -/
def Affordable (held price : ι → α) : Prop := ∀ i, 0 < price i → price i ≤ held i

theorem affordable_zero (held : ι → α) : Affordable held 0 := fun _ h => absurd h (lt_irrefl 0)

variable [IsOrderedAddMonoid α]

/-- **Two prices are paid one after the other exactly when their sum is paid at once.** -/
theorem affordable_add {held first second : ι → α} (hfirst : ∀ i, 0 ≤ first i)
    (hsecond : ∀ i, 0 ≤ second i) :
    Affordable held (first + second) ↔ Affordable held first ∧ Affordable (held - first) second := by
  constructor
  · intro h
    refine ⟨fun i hpos => ?_, fun i hpos => ?_⟩
    · have hsum : first i + second i ≤ held i :=
        h i (lt_of_lt_of_le hpos (le_add_of_nonneg_right (hsecond i)))
      exact (le_add_of_nonneg_right (hsecond i)).trans hsum
    · have hsum : first i + second i ≤ held i :=
        h i (lt_of_lt_of_le hpos (le_add_of_nonneg_left (hfirst i)))
      exact le_sub_iff_add_le'.mpr hsum
  · rintro ⟨h₁, h₂⟩ i hpos
    rcases (hsecond i).eq_or_lt with hzero | hsecondPos
    · -- only the first price asks for this good
      have hsum : first i + second i = first i := by rw [← hzero, add_zero]
      rw [Pi.add_apply, hsum] at hpos ⊢
      exact h₁ i hpos
    · exact le_sub_iff_add_le'.mp (h₂ i hsecondPos)

end Payment
