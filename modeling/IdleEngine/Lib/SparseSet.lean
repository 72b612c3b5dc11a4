import Mathlib.Data.Int.Basic
import Mathlib.Data.List.Nodup
import Mathlib.Logic.Function.Basic
import Mathlib.Order.Basic

/-!
# Sparse sets

A sparse set keeps its members in a dense array and, beside it, a table with every element's
position in that array; a negative entry means absent. Insertion appends, removal moves the last
member into the gap. `Valid` says that the table is the inverse of the array.
-/

/-- A dense array of members with a position table. -/
structure SparseSet (α : Type*) where
  dense : List α
  position : α → ℤ

open Function

namespace SparseSet

open List

variable {α : Type*} [DecidableEq α]

/-- The table entry of an element that is absent. -/
def unset : ℤ := -1

/-- The set without members. -/
def empty : SparseSet α := { dense := [], position := fun _ => unset }

/-- Append an element unless it is present. -/
def insert (s : SparseSet α) (a : α) : SparseSet α :=
  if 0 ≤ s.position a then s
  else { dense := s.dense ++ [a], position := Function.update s.position a s.dense.length }

/-- Remove an element: the last member takes its place. -/
def erase (s : SparseSet α) (a : α) : SparseSet α :=
  if 0 ≤ s.position a then
    match s.dense.getLast? with
    | none => s
    | some last =>
        { dense := (s.dense.set (s.position a).toNat last).dropLast
          position := Function.update (Function.update s.position last (s.position a)) a unset }
  else s

/-- The table is the inverse of the array. -/
structure Valid (s : SparseSet α) : Prop where
  position_getElem : ∀ i (h : i < s.dense.length), s.position s.dense[i] = i
  mem_of_position : ∀ a, 0 ≤ s.position a → a ∈ s.dense
  unset_of_not_mem : ∀ a, a ∉ s.dense → s.position a = unset

variable {s : SparseSet α} {a b : α}

omit [DecidableEq α] in
theorem Valid.position_nonneg_iff (h : s.Valid) : 0 ≤ s.position a ↔ a ∈ s.dense := by
  refine ⟨h.mem_of_position a, fun hmem => ?_⟩
  obtain ⟨i, hi, rfl⟩ := getElem_of_mem hmem
  rw [h.position_getElem i hi]
  exact Int.natCast_nonneg i

omit [DecidableEq α] in
theorem Valid.nodup (h : s.Valid) : s.dense.Nodup := by
  refine nodup_iff_injective_get.mpr fun i j hij => ?_
  have hi := h.position_getElem i i.isLt
  have hj := h.position_getElem j j.isLt
  simp only [get_eq_getElem] at hij
  rw [hij, hj] at hi
  exact Fin.ext (by omega)

omit [DecidableEq α] in
theorem valid_empty : (empty : SparseSet α).Valid where
  position_getElem := by simp [empty]
  mem_of_position := by simp [empty, unset]
  unset_of_not_mem := by simp [empty]

theorem Valid.mem_insert (h : s.Valid) : b ∈ (s.insert a).dense ↔ b ∈ s.dense ∨ b = a := by
  rw [insert]
  split
  · next hpos =>
    have hmem := h.mem_of_position a hpos
    exact ⟨Or.inl, fun hb => hb.elim id fun hba => hba ▸ hmem⟩
  · simp

theorem Valid.insert (h : s.Valid) (a : α) : (s.insert a).Valid := by
  rw [SparseSet.insert]
  split
  · exact h
  · next hpos =>
    have hnotMem : a ∉ s.dense := fun hmem => hpos (h.position_nonneg_iff.mpr hmem)
    refine ⟨fun i hi => ?_, fun b hb => ?_, fun b hb => ?_⟩
    · by_cases hlast : i < s.dense.length
      · rw [getElem_append_left hlast]
        have hne : s.dense[i] ≠ a := fun heq => hnotMem (heq ▸ getElem_mem hlast)
        exact (update_of_ne hne _ _).trans (h.position_getElem i hlast)
      · have hilen : i = s.dense.length := by
          simp only [length_append, length_singleton] at hi
          omega
        subst hilen
        simp
    · by_cases hba : b = a
      · simp [hba]
      · simp only [update_of_ne hba] at hb
        exact mem_append_left _ (h.mem_of_position b hb)
    · simp only [mem_append, mem_singleton, not_or] at hb
      exact (update_of_ne hb.2 _ _).trans (h.unset_of_not_mem b hb.1)

omit [DecidableEq α] in
/-- The array after the last member moved into the gap at `k`. -/
private theorem getElem_set_dropLast {l : List α} {k i : ℕ} {last : α}
    (hi : i < ((l.set k last).dropLast).length) :
    ((l.set k last).dropLast)[i] =
      if k = i then last else getElem l i (by simp at hi; omega) := by
  rw [getElem_dropLast, getElem_set]

omit [DecidableEq α] in
/-- After the move the array holds the members other than the one at `k`. -/
private theorem mem_set_dropLast {l : List α} {k : ℕ} (hl : l.Nodup) (hk : k < l.length) :
    b ∈ (l.set k (getElem l (l.length - 1) (by omega))).dropLast ↔ b ∈ l ∧ b ≠ l[k] := by
  have hinj : ∀ i j (hi : i < l.length) (hj : j < l.length), i ≠ j → l[i] ≠ l[j] :=
    fun i j hi hj hij heq => hij (hl.getElem_inj_iff.mp heq)
  constructor
  · intro hb
    obtain ⟨i, hi, rfl⟩ := getElem_of_mem hb
    have hi' : i < l.length - 1 := by simpa using hi
    rw [getElem_set_dropLast hi]
    split
    · next hki => exact ⟨getElem_mem _, hinj _ _ _ _ (by omega)⟩
    · next hki => exact ⟨getElem_mem _, hinj _ _ _ _ (Ne.symm hki)⟩
  · rintro ⟨hb, hne⟩
    obtain ⟨j, hj, rfl⟩ := getElem_of_mem hb
    have hjk : j ≠ k := fun h => hne (by subst h; rfl)
    by_cases hlast : j = l.length - 1
    · subst hlast
      refine mem_iff_getElem.mpr ⟨k, by simp; omega, ?_⟩
      rw [getElem_set_dropLast]
      simp
    · refine mem_iff_getElem.mpr ⟨j, by simp; omega, ?_⟩
      rw [getElem_set_dropLast, if_neg (Ne.symm hjk)]

/-- What a removal does, when the element is present: it sits at some `k`, and the last member
moves there. -/
private theorem erase_eq (h : s.Valid) (hpos : 0 ≤ s.position a) :
    ∃ k, ∃ hk : k < s.dense.length, s.dense[k] = a ∧ s.erase a =
      { dense := (s.dense.set k (getElem s.dense (s.dense.length - 1) (by omega))).dropLast
        position := update
          (update s.position (getElem s.dense (s.dense.length - 1) (by omega)) k) a unset } := by
  obtain ⟨k, hk, hka⟩ := getElem_of_mem (h.mem_of_position a hpos)
  have hposition : s.position a = k := hka ▸ h.position_getElem k hk
  have hne : s.dense ≠ [] := ne_nil_of_length_pos (by omega)
  refine ⟨k, hk, hka, ?_⟩
  rw [erase, if_pos hpos, getLast?_eq_some_getLast hne, getLast_eq_getElem]
  simp only [hposition, Int.toNat_natCast]

theorem Valid.mem_erase (h : s.Valid) : b ∈ (s.erase a).dense ↔ b ∈ s.dense ∧ b ≠ a := by
  by_cases hpos : 0 ≤ s.position a
  · obtain ⟨k, hk, rfl, heq⟩ := erase_eq h hpos
    rw [heq]
    exact mem_set_dropLast h.nodup hk
  · rw [erase, if_neg hpos]
    have hnotMem : a ∉ s.dense := fun hmem => hpos (h.position_nonneg_iff.mpr hmem)
    exact ⟨fun hb => ⟨hb, fun hba => hnotMem (hba ▸ hb)⟩, And.left⟩

theorem Valid.erase (h : s.Valid) (a : α) : (s.erase a).Valid := by
  by_cases hpos : 0 ≤ s.position a
  · obtain ⟨k, hk, rfl, heq⟩ := erase_eq h hpos
    have hinj : ∀ i j (hi : i < s.dense.length) (hj : j < s.dense.length),
        i ≠ j → s.dense[i] ≠ s.dense[j] :=
      fun i j hi hj hij heq => hij (h.nodup.getElem_inj_iff.mp heq)
    have hmem := fun b => mem_set_dropLast (b := b) h.nodup hk
    rw [heq]
    refine ⟨fun i hi => ?_, fun b hb => (hmem b).mpr ?_, fun b hb => ?_⟩
    · have hi' : i < s.dense.length - 1 := by simpa using hi
      simp only [getElem_set_dropLast hi]
      split
      · next hki =>
        subst hki
        rw [update_of_ne (hinj _ _ _ _ (by omega)), update_self]
      · next hki =>
        rw [update_of_ne (hinj _ _ _ _ (Ne.symm hki)),
          update_of_ne (hinj _ _ _ _ (by omega))]
        exact h.position_getElem i (by omega)
    · have hbk : b ≠ s.dense[k] := by
        rintro rfl
        simp [unset] at hb
      simp only [update_of_ne hbk] at hb
      refine ⟨?_, hbk⟩
      by_cases hlast : b = s.dense[s.dense.length - 1]
      · exact hlast ▸ getElem_mem _
      · rw [update_of_ne hlast] at hb
        exact h.mem_of_position b hb
    · dsimp only
      by_cases hbk : b = s.dense[k]
      · rw [hbk, update_self]
      · have hnotMem : b ∉ s.dense := fun hb' => hb ((hmem b).mpr ⟨hb', hbk⟩)
        have hlast : b ≠ s.dense[s.dense.length - 1] := by
          rintro rfl
          exact hnotMem (getElem_mem _)
        rw [update_of_ne hbk, update_of_ne hlast]
        exact h.unset_of_not_mem b hnotMem
  · rw [SparseSet.erase, if_neg hpos]
    exact h

end SparseSet
