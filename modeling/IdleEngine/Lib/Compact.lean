import Mathlib.Data.List.Basic

/-!
# In-place stable compaction

`compact p xs` walks an array once with a read and a write position: an element that passes
`p` is moved to an output list, any other one is written back at the write position, and the
array is cut there at the end. The array is overwritten while it is read, but only behind the
read position, so the pass is a stable split (`compact_eq`).
-/

open List

namespace Compact

variable {α : Type*}

/-- The remaining rounds of the pass: the array, its read and write positions and the elements
moved out so far. -/
def compactLoop (p : α → Bool) : ℕ → ℕ → ℕ → List α → List α → List α × List α
  | 0, _, writeIndex, xs, out => (out, xs.take writeIndex)
  | rounds + 1, readIndex, writeIndex, xs, out =>
      match xs[readIndex]? with
      | none => (out, xs.take writeIndex)
      | some a =>
          if p a then compactLoop p rounds (readIndex + 1) writeIndex xs (out ++ [a])
          else
            let xs := if writeIndex ≠ readIndex then xs.set writeIndex a else xs
            compactLoop p rounds (readIndex + 1) (writeIndex + 1) xs out

/-- The pass over a whole array: what it moved out and what it left. -/
def compact (p : α → Bool) (xs : List α) : List α × List α :=
  compactLoop p xs.length 0 0 xs []

/-- Writing behind the read position keeps the unread part and appends to the written part. -/
private theorem write_back {xs : List α} {r w : ℕ} {a : α} (hw : w ≤ r) (ha : xs[r]? = some a) :
    let ys := if w ≠ r then xs.set w a else xs
    ys.length = xs.length ∧ ys.take (w + 1) = xs.take w ++ [a] ∧
      ys.drop (r + 1) = xs.drop (r + 1) := by
  obtain ⟨hr, rfl⟩ := List.getElem?_eq_some_iff.mp ha
  by_cases heq : w = r
  · subst heq
    simp only [ne_eq, not_true_eq_false, if_false, true_and, and_true]
    exact take_succ_eq_append_getElem hr
  · have hlt : w < xs.length := by omega
    simp only [ne_eq, heq, not_false_eq_true, if_true, length_set, true_and]
    refine ⟨?_, drop_set_of_lt (by omega)⟩
    rw [take_succ_eq_append_getElem (by simpa using hlt), getElem_set_self,
      take_set_of_le (Nat.le_refl _)]

/-- The loop invariant: the pass splits the unread part and leaves the written part alone. -/
theorem compactLoop_eq {p : α → Bool} :
    ∀ (rounds r w : ℕ) (xs out : List α), w ≤ r → xs.length = r + rounds →
      compactLoop p rounds r w xs out =
        (out ++ (xs.drop r).filter p, xs.take w ++ (xs.drop r).filter fun a => !p a) := by
  intro rounds
  induction rounds with
  | zero =>
    intro r w xs out _ hlen
    simp [compactLoop, drop_eq_nil_of_le (by omega : xs.length ≤ r)]
  | succ rounds ih =>
    intro r w xs out hw hlen
    have hr : r < xs.length := by omega
    have hget : xs[r]? = some xs[r] := getElem?_eq_getElem hr
    have hdrop : xs.drop r = xs[r] :: xs.drop (r + 1) := drop_eq_getElem_cons hr
    simp only [compactLoop, hget, hdrop]
    cases hp : p xs[r] with
    | true =>
      simp only [if_true, filter_cons, hp, Bool.not_true, Bool.false_eq_true, if_false]
      rw [ih (r + 1) w xs _ (by omega) (by omega)]
      simp
    | false =>
      obtain ⟨hylen, htake, hrest⟩ := write_back hw hget
      simp only [Bool.false_eq_true, if_false, filter_cons, hp, Bool.not_false, if_true]
      rw [ih (r + 1) (w + 1) _ _ (by omega) (by omega), htake, hrest]
      simp

/-- The pass is a stable split of the array. -/
theorem compact_eq (p : α → Bool) (xs : List α) :
    compact p xs = (xs.filter p, xs.filter fun a => !p a) := by
  simpa [compact] using compactLoop_eq (p := p) xs.length 0 0 xs [] (Nat.le_refl _) (by simp)

end Compact
