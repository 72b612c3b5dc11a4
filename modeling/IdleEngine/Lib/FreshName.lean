import Mathlib.Data.List.Nodup
import Mathlib.Data.List.Perm.Subperm
import Mathlib.Data.Nat.Digits.Defs

/-!
# Names that are not taken

Counting up from some number, a name that is not taken is found after as many attempts as there are
taken names and one more, when different numbers have different names (`firstFresh_notMem`).
Numbers written in hexadecimal digits and padded with zeros are such names
(`paddedHex_injective`).
-/

open List

open Nat

namespace FreshName

variable {α : Type*}

/-- The first name that is not taken, counting up from a number; the last attempt is not tested. -/
def firstFresh (taken : α → Bool) (name : ℕ → α) : ℕ → ℕ → α
  | 0, start => name start
  | fuel + 1, start =>
      if taken (name start) then firstFresh taken name fuel (start + 1) else name start

/-- When the name that is found is taken, all names up to it are. -/
theorem taken_of_taken_firstFresh {taken : α → Bool} {name : ℕ → α} (fuel start : ℕ)
    (h : taken (firstFresh taken name fuel start) = true) :
    ∀ i ≤ fuel, taken (name (start + i)) = true := by
  induction fuel generalizing start with
  | zero =>
    intro i hi
    obtain rfl : i = 0 := by omega
    exact h
  | succ fuel ih =>
    rw [firstFresh] at h
    by_cases hstart : taken (name start) = true
    · rw [if_pos hstart] at h
      intro i hi
      rcases i with _ | i
      · exact hstart
      · have hlater := ih (start + 1) h i (by omega)
        rwa [show start + 1 + i = start + (i + 1) by omega] at hlater
    · rw [if_neg hstart] at h
      exact absurd h hstart

/-- Among more numbers than there are taken names, one has a name that is not taken. -/
theorem firstFresh_notMem [DecidableEq α] {name : ℕ → α} (hname : Function.Injective name)
    (names : List α) (start : ℕ) :
    firstFresh (fun a => decide (a ∈ names)) name names.length start ∉ names := by
  intro hmem
  have htaken : ∀ i ≤ names.length, decide (name (start + i) ∈ names) = true :=
    @taken_of_taken_firstFresh α (fun a => decide (a ∈ names)) name names.length start
      (decide_eq_true hmem)
  have hnodup : ((range (names.length + 1)).map fun i => name (start + i)).Nodup :=
    List.Nodup.map (fun i j hij => add_left_cancel (hname hij)) nodup_range
  have hsubset : ((range (names.length + 1)).map fun i => name (start + i)) ⊆ names := by
    intro a ha
    obtain ⟨i, hi, rfl⟩ := mem_map.mp ha
    have hi' := mem_range.mp hi
    exact of_decide_eq_true (htaken i (by omega))
  have hlength := (subperm_of_subset hnodup hsubset).length_le
  rw [length_map, length_range] at hlength
  omega

/-! ### Padded hexadecimal digits -/

/-- The hexadecimal digits of a number, padded with zeros in front. -/
def paddedHex (width n : ℕ) : List Char :=
  ((Nat.digits 16 n).reverse.map Nat.digitChar).leftpad width '0'

/-- The padded digits are the characters of the digits behind some zeros. -/
theorem paddedHex_eq (width n : ℕ) :
    ∃ k, paddedHex width n =
      (digits 16 n ++ replicate k 0).reverse.map digitChar := by
  refine ⟨width - (digits 16 n).length, ?_⟩
  rw [paddedHex, leftpad, reverse_append, map_append, reverse_replicate,
    map_replicate, length_map, length_reverse]
  rfl

theorem digitChar_injOn {a b : ℕ} (ha : a < 16) (hb : b < 16)
    (h : digitChar a = digitChar b) : a = b := by
  have hall : ∀ a < 16, ∀ b < 16, digitChar a = digitChar b → a = b := by decide
  exact hall a ha b hb h

theorem map_digitChar_inj {l l' : List ℕ} (hl : ∀ d ∈ l, d < 16) (hl' : ∀ d ∈ l', d < 16)
    (h : l.map digitChar = l'.map digitChar) : l = l' := by
  induction l generalizing l' with
  | nil =>
    rcases l' with _ | ⟨d', l'⟩
    · rfl
    · cases h
  | cons d l ih =>
    rcases l' with _ | ⟨d', l'⟩
    · cases h
    · obtain ⟨hd, hrest⟩ := cons.inj h
      rw [digitChar_injOn (hl d (by simp)) (hl' d' (by simp)) hd,
        ih (fun d hd => hl d (by simp [hd])) (fun d hd => hl' d (by simp [hd])) hrest]

/-- Padded digits are read back: different numbers have different padded digits. -/
theorem paddedHex_injective (width : ℕ) : Function.Injective (paddedHex width) := by
  intro n m h
  obtain ⟨k, hk⟩ := paddedHex_eq width n
  obtain ⟨j, hj⟩ := paddedHex_eq width m
  have hdigits : ∀ n k d, d ∈ (digits 16 n ++ replicate k 0).reverse → d < 16 := by
    intro n k d hd
    rcases mem_append.mp (mem_reverse.mp hd) with hd | hd
    · exact digits_lt_base (by omega) hd
    · have hzero := (mem_replicate.mp hd).2
      omega
  rw [hk, hj] at h
  have hlists := reverse_injective (map_digitChar_inj (hdigits n k) (hdigits m j) h)
  have hvalues := congrArg (ofDigits 16) hlists
  rwa [ofDigits_append_replicate_zero, ofDigits_append_replicate_zero,
    ofDigits_digits, ofDigits_digits] at hvalues

end FreshName
