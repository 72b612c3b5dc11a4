import Mathlib.Data.List.Nodup

/-!
# Recent uses

The entries that a cache keeps when it forgets the least recently used ones: of the uses so far the
last one of each key (`latest`), and of these the first few. When the entry of one key is moved to
the front, it does not matter whether its old place or the entries beyond the room are given up
first (`take_filter_take`).
-/

namespace RecentUses

open List

variable {K V : Type} [DecidableEq K]

/-- The last use of each key. Uses are listed from the last one on. -/
def latest : List (K × V) → List (K × V)
  | [] => []
  | use :: older => use :: (latest older).filter fun entry => entry.1 ≠ use.1

theorem nodup_latest : ∀ uses : List (K × V), ((latest uses).map Prod.fst).Nodup
  | [] => nodup_nil
  | use :: older => by
    rw [latest, map_cons, nodup_cons]
    refine ⟨fun hmem => ?_, (nodup_latest older).sublist (filter_sublist.map _)⟩
    obtain ⟨entry, hentry, heq⟩ := mem_map.mp hmem
    exact of_decide_eq_true (mem_filter.mp hentry).2 heq

/-- Forgetting one key makes room for one entry. -/
theorem take_filter_take (k : K) :
    ∀ {entries : List (K × V)}, (entries.map Prod.fst).Nodup → ∀ n,
      ((entries.take (n + 1)).filter fun entry => entry.1 ≠ k).take n =
        (entries.filter fun entry => entry.1 ≠ k).take n
  | [], _, _ => rfl
  | entry :: entries, hnodup, n => by
    rw [map_cons, nodup_cons] at hnodup
    rw [take_succ_cons]
    by_cases hk : entry.1 = k
    · have hrest : ∀ other ∈ entries, decide (other.1 ≠ k) = true := by
        intro other hother
        refine decide_eq_true fun heq => hnodup.1 ?_
        rw [hk, ← heq]
        exact mem_map_of_mem hother
      rw [filter_cons_of_neg (by simpa using hk), filter_cons_of_neg (by simpa using hk),
        filter_eq_self.mpr hrest, filter_eq_self.mpr fun other hother =>
          hrest other (mem_of_mem_take hother), take_take, Nat.min_self]
    · rw [filter_cons_of_pos (by simpa using hk), filter_cons_of_pos (by simpa using hk)]
      rcases n with _ | n
      · rfl
      · rw [take_succ_cons, take_succ_cons, take_filter_take k hnodup.2]

end RecentUses
