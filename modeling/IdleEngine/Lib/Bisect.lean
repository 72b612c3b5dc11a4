import Mathlib.Data.List.Sort

/-!
# Binary search for an insertion point

`partitionPoint p n` runs the usual half-open bisection on `0, …, n - 1`: it keeps a window
`[low, high)`, tests the midpoint and drops one half. The loop is structurally recursive on a
step budget, so it computes; a budget of the window's width always suffices
(`bisect_spec`).

On a list sorted by a total transitive relation the test "this element orders before the new
one" is an initial segment, so splicing the new element in at the partition point is
`List.orderedInsert` (`bisectInsert_eq_orderedInsert`).
-/

namespace Bisect

/-- One bisection loop over the window `[low, high)`, at most `fuel` rounds. -/
def bisect (p : ℕ → Bool) : ℕ → ℕ → ℕ → ℕ
  | 0, low, _ => low
  | fuel + 1, low, high =>
      if low < high then
        let mid := (low + high) / 2
        if p mid then bisect p fuel (mid + 1) high else bisect p fuel low mid
      else low

/-- The bisection over `0, …, n - 1`. -/
def partitionPoint (p : ℕ → Bool) (n : ℕ) : ℕ := bisect p n 0 n

/-- `p` holds on an initial segment of `0, …, n - 1`. -/
def InitialSegment (p : ℕ → Bool) (n : ℕ) : Prop :=
  ∀ i j, i ≤ j → j < n → p j = true → p i = true

/-- The loop invariant: below `low` the test succeeds, from `high` on it fails. A budget of the
window's width ends the loop with both ends equal. -/
theorem bisect_spec {p : ℕ → Bool} {n : ℕ} (hp : InitialSegment p n) :
    ∀ fuel low high, high - low ≤ fuel → low ≤ high → high ≤ n →
      (∀ i, i < low → p i = true) → (∀ i, high ≤ i → i < n → p i = false) →
      bisect p fuel low high ≤ n ∧
        (∀ i, i < bisect p fuel low high → p i = true) ∧
        ∀ i, bisect p fuel low high ≤ i → i < n → p i = false := by
  intro fuel
  induction fuel with
  | zero =>
    intro low high hfuel hle hn hlow hhigh
    have heq : low = high := by omega
    subst heq
    exact ⟨hn, hlow, hhigh⟩
  | succ fuel ih =>
    intro low high hfuel hle hn hlow hhigh
    rw [bisect]
    by_cases hlt : low < high
    · rw [if_pos hlt]
      have hmid : (low + high) / 2 < high := by omega
      cases hpm : p ((low + high) / 2) with
      | true =>
        simp only [hpm, if_true]
        -- the midpoint orders before: everything up to it does
        refine ih ((low + high) / 2 + 1) high (by omega) (by omega) hn (fun i hi => ?_) hhigh
        exact hp i ((low + high) / 2) (by omega) (by omega) hpm
      | false =>
        simp only [hpm, Bool.false_eq_true, if_false]
        refine ih low ((low + high) / 2) (by omega) (by omega) (by omega) hlow
          (fun i hi hin => ?_)
        by_contra hne
        have hpi : p i = true := by simpa using hne
        rw [hp _ i hi hin hpi] at hpm
        exact Bool.noConfusion hpm
    · rw [if_neg hlt]
      have heq : low = high := by omega
      subst heq
      exact ⟨hn, hlow, hhigh⟩

/-- The partition point separates the successes from the failures. -/
theorem partitionPoint_spec {p : ℕ → Bool} {n : ℕ} (hp : InitialSegment p n) :
    partitionPoint p n ≤ n ∧ (∀ i, i < partitionPoint p n → p i = true) ∧
      ∀ i, partitionPoint p n ≤ i → i < n → p i = false :=
  bisect_spec hp n 0 n (by omega) (by omega) le_rfl (fun i hi => absurd hi (by omega))
    (fun i hi hin => absurd hin (by omega))

variable {α : Type*}

/-- Splice `a` into `l` at the partition point of `before`. -/
def bisectInsert (before : α → Bool) (a : α) (l : List α) : List α :=
  let low := partitionPoint (fun i => (l[i]?).any before) l.length
  l.take low ++ a :: l.drop low

variable {l : List α}

/-- A list cut where a test turns from true to false is its `takeWhile` and `dropWhile`. -/
theorem take_drop_eq_while {p : α → Bool} {k : ℕ} (hk : k ≤ l.length)
    (hlow : ∀ i, i < k → (l[i]?).any p = true)
    (hhigh : ∀ i, k ≤ i → i < l.length → (l[i]?).any p = false) :
    l.take k = l.takeWhile p ∧ l.drop k = l.dropWhile p := by
  induction l generalizing k with
  | nil => simp
  | cons x xs ih =>
    cases k with
    | zero =>
      have hx : p x = false := by simpa using hhigh 0 le_rfl (by simp)
      simp [hx]
    | succ k =>
      have hx : p x = true := by simpa using hlow 0 (by omega)
      obtain ⟨htake, hdrop⟩ := ih (k := k) (by simpa using hk)
        (fun i hi => by simpa using hlow (i + 1) (by omega))
        (fun i hi hlt => by simpa using hhigh (i + 1) (by omega) (by simpa using hlt))
      simp [hx, htake, hdrop]

variable {r : α → α → Prop} {a : α}

/-- On a sorted list the binary insertion is Mathlib's ordered insertion. -/
theorem bisectInsert_eq_orderedInsert [DecidableRel r] [IsTrans α r] (hl : l.Pairwise r) :
    bisectInsert (fun b => !decide (r a b)) a l = l.orderedInsert r a := by
  have hseg : InitialSegment (fun i => (l[i]?).any fun b => !decide (r a b)) l.length := by
    intro i j hij hj hpj
    have hi : i < l.length := by omega
    simp only [List.getElem?_eq_getElem hj, Option.any_some, Bool.not_eq_eq_eq_not,
      Bool.not_true, decide_eq_false_iff_not] at hpj
    simp only [List.getElem?_eq_getElem hi, Option.any_some, Bool.not_eq_eq_eq_not,
      Bool.not_true, decide_eq_false_iff_not]
    rcases Nat.eq_or_lt_of_le hij with rfl | hlt
    · exact hpj
    · exact fun hai => hpj (IsTrans.trans _ _ _ hai (List.pairwise_iff_getElem.mp hl i j hi hj hlt))
  obtain ⟨hle, hlow, hhigh⟩ := partitionPoint_spec hseg
  obtain ⟨htake, hdrop⟩ := take_drop_eq_while hle hlow hhigh
  rw [bisectInsert, List.orderedInsert_eq_take_drop]
  simp only [htake, hdrop, decide_not]

/-- An ordered insertion seen through a map that keeps the comparisons with the new element. -/
theorem map_orderedInsert_of_iff {β : Type*} [DecidableRel r] {s : β → β → Prop} [DecidableRel s]
    {f : α → β} (h : ∀ b ∈ l, r a b ↔ s (f a) (f b)) :
    (l.orderedInsert r a).map f = (l.map f).orderedInsert s (f a) := by
  induction l with
  | nil => rfl
  | cons b l ih =>
    have hb : r a b ↔ s (f a) (f b) := h b (by simp)
    have hrest := ih fun c hc => h c (List.mem_cons_of_mem b hc)
    by_cases hab : r a b
    · simp [hab, hb.mp hab]
    · have hab' : ¬s (f a) (f b) := fun hs => hab (hb.mpr hs)
      simp [hab, hab', hrest]

/-- An element that stands before nothing is inserted at the end. -/
theorem orderedInsert_of_forall_not [DecidableRel r] (h : ∀ b ∈ l, ¬r a b) :
    l.orderedInsert r a = l ++ [a] := by
  induction l with
  | nil => rfl
  | cons b l ih =>
    have hb : ¬r a b := h b (by simp)
    simp [hb, ih fun c hc => h c (List.mem_cons_of_mem b hc)]

end Bisect
