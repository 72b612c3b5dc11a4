import Mathlib.Data.List.Basic
import Mathlib.Data.List.Perm.Basic

/-!
# Stable insertion

`insertBehind before a l` puts `a` in front of the first element of `l` that it comes before, and so
behind everything that it ties with. In a list where no element comes before an earlier one
(`Ordered`), this keeps the order (`Ordered.insertBehind`) and the ties: among the elements of one
key, the new one is the last (`Ordered.filter_insertBehind`).

`before` is a strict order that need not be total: elements may be incomparable with all others.
-/

open List

namespace StableInsertion

variable {α κ : Type*} (before : α → α → Bool)

/-- The list with `a` in front of the first element that it comes before. -/
def insertBehind (a : α) : List α → List α
  | [] => [a]
  | b :: l => if before a b then a :: b :: l else b :: insertBehind a l

/-- No element comes before an earlier one. -/
def Ordered (l : List α) : Prop := l.Pairwise fun a b => before b a = false

variable {before} {a : α} {l : List α}

theorem perm_insertBehind (a : α) (l : List α) : (insertBehind before a l).Perm (a :: l) := by
  induction l with
  | nil => exact .refl _
  | cons b l ih =>
    rw [insertBehind]
    split
    · exact .refl _
    · exact (ih.cons b).trans (.swap a b l)

theorem Ordered.nil : Ordered before ([] : List α) := List.Pairwise.nil

theorem Ordered.filter (h : Ordered before l) (p : α → Bool) : Ordered before (l.filter p) :=
  List.Pairwise.filter p h

/-- **Insertion keeps the order.** -/
theorem Ordered.insertBehind (h : Ordered before l)
    (htrans : ∀ a b c, before a b = true → before b c = true → before a c = true)
    (hirrefl : ∀ a, before a a = false) (a : α) : Ordered before (insertBehind before a l) := by
  induction l with
  | nil => exact pairwise_singleton _ a
  | cons b l ih =>
    obtain ⟨hb, hl⟩ := pairwise_cons.mp h
    rw [StableInsertion.insertBehind]
    split
    · next hab =>
      refine pairwise_cons.mpr ⟨fun c hc => ?_, h⟩
      -- what comes before `a` comes before `b` too
      by_contra hca
      have hcb := htrans c a b (Bool.not_eq_false _ ▸ hca) hab
      rcases mem_cons.mp hc with rfl | hc
      · rw [hirrefl] at hcb
        cases hcb
      · rw [hb c hc] at hcb
        cases hcb
    · next hab =>
      refine pairwise_cons.mpr ⟨fun c hc => ?_, ih hl⟩
      rcases mem_cons.mp ((perm_insertBehind a l).mem_iff.mp hc) with rfl | hc
      · exact Bool.eq_false_iff.mpr hab
      · exact hb c hc

/-- **Insertion keeps the ties**: among the elements of one key the new one comes last. -/
theorem Ordered.filter_insertBehind [DecidableEq κ] {key : α → κ} (h : Ordered before l)
    (hkey : ∀ a b c, key a = key b → before a c = before b c) (hirrefl : ∀ a, before a a = false)
    (a : α) (k : κ) :
    (StableInsertion.insertBehind before a l).filter (fun b => decide (key b = k)) =
      (l ++ [a]).filter fun b => decide (key b = k) := by
  induction l with
  | nil => rfl
  | cons b l ih =>
    obtain ⟨hb, hl⟩ := pairwise_cons.mp h
    rw [StableInsertion.insertBehind]
    split
    · next hab =>
      by_cases hk : key a = k
      · -- an element of the same key would come before `b` too
        have hnone : (b :: l).filter (fun c => decide (key c = k)) = [] := by
          refine filter_eq_nil_iff.mpr fun c hc hck => ?_
          have hcb : before c b = true := by
            rw [← hkey a c b (hk.trans (of_decide_eq_true hck).symm)]
            exact hab
          rcases mem_cons.mp hc with rfl | hc
          · rw [hirrefl] at hcb
            cases hcb
          · rw [hb c hc] at hcb
            cases hcb
        rw [filter_append, hnone, filter_cons, hnone]
        simp [hk]
      · rw [filter_append, filter_cons]
        simp [hk]
    · rw [cons_append, filter_cons, filter_cons, ih hl]

end StableInsertion
