import Mathlib.Data.List.Pairwise
import Mathlib.Order.Basic
import Mathlib.Order.Nat
import Mathlib.Tactic.Common

/-!
# Breadth-first search

A search from a source marks what it has seen, keeps what it has still to expand in a queue, and
expands the head of the queue first. `Frontier` is what holds between two expansions; `depth` is
how far from the source a vertex was when it was marked. A walk then either ends at a marked vertex
whose depth is at most its length, or it is longer than some queued vertex is deep
(`Frontier.walk`). So a vertex found while the head is expanded is found at its distance
(`Frontier.shortest`), and what is unmarked when the queue is empty cannot be reached
(`Frontier.unreachable`).
-/

open List

namespace BreadthFirst

variable {V : Type} {r : V → V → Prop}

/-- A walk of so many steps. -/
def Walk (r : V → V → Prop) : ℕ → V → V → Prop
  | 0, a, b => a = b
  | n + 1, a, b => ∃ c, Walk r n a c ∧ r c b

/-- A step before a walk. -/
theorem Walk.cons {n : ℕ} {a b c : V} (hstep : r a b) (h : Walk r n b c) : Walk r (n + 1) a c := by
  induction n generalizing c with
  | zero =>
    obtain rfl : b = c := h
    exact ⟨a, rfl, hstep⟩
  | succ n ih =>
    obtain ⟨d, hwalk, hlast⟩ := h
    exact ⟨d, ih hwalk, hlast⟩

/-- The state of a search between two expansions. -/
structure Frontier (r : V → V → Prop) (source : V) (marked : V → Prop) (depth : V → ℕ)
    (queue : List V) : Prop where
  source_marked : marked source
  source_depth : depth source = 0
  queued : ∀ v ∈ queue, marked v
  sorted : queue.Pairwise fun v w => depth v ≤ depth w
  level : ∀ v ∈ queue, ∀ w, marked w → depth w ≤ depth v + 1
  expanded : ∀ v, marked v → v ∉ queue → ∀ w, r v w → marked w ∧ depth w ≤ depth v + 1

namespace Frontier

variable {source : V} {marked : V → Prop} {depth : V → ℕ} {queue : List V}

/-- The search starts with the source. -/
theorem start (r : V → V → Prop) (source : V) :
    Frontier r source (· = source) (fun _ => 0) [source] where
  source_marked := rfl
  source_depth := rfl
  queued := by simp
  sorted := pairwise_singleton _ _
  level := by simp
  expanded v hv hnot := absurd (mem_singleton.mpr hv) hnot

/-- **Walks across the frontier.** -/
theorem walk (h : Frontier r source marked depth queue) {n : ℕ} {w : V} (hwalk : Walk r n source w) :
    (marked w ∧ depth w ≤ n) ∨ (¬marked w ∧ ∃ v ∈ queue, depth v + 1 ≤ n) := by
  induction n generalizing w with
  | zero =>
    obtain rfl : source = w := hwalk
    exact .inl ⟨h.source_marked, h.source_depth.le⟩
  | succ n ih =>
    obtain ⟨u, hwalk, hstep⟩ := hwalk
    by_cases hw : marked w
    · refine .inl ⟨hw, ?_⟩
      rcases ih hwalk with ⟨hu, hdepth⟩ | ⟨-, v, hv, hdepth⟩
      · by_cases hqueue : u ∈ queue
        · have hle := h.level u hqueue w hw
          omega
        · have hle := (h.expanded u hu hqueue w hstep).2
          omega
      · have hle := h.level v hv w hw
        omega
    · refine .inr ⟨hw, ?_⟩
      rcases ih hwalk with ⟨hu, hdepth⟩ | ⟨-, v, hv, hdepth⟩
      · -- an expanded vertex has no unmarked successor
        have hqueue : u ∈ queue := by
          by_contra hnot
          exact hw (h.expanded u hu hnot w hstep).1
        exact ⟨u, hqueue, by omega⟩
      · exact ⟨v, hv, by omega⟩

/-- What is unmarked when the queue is empty cannot be reached. -/
theorem unreachable (h : Frontier r source marked depth []) {w : V} (hw : ¬marked w) (n : ℕ) :
    ¬Walk r n source w := by
  intro hwalk
  rcases h.walk hwalk with ⟨hmarked, -⟩ | ⟨-, v, hv, -⟩
  · exact hw hmarked
  · exact absurd hv not_mem_nil

/-- An unmarked vertex is farther from the source than the head of the queue. -/
theorem shortest {v : V} (h : Frontier r source marked depth (v :: queue)) {w : V}
    (hw : ¬marked w) {n : ℕ} (hwalk : Walk r n source w) : depth v + 1 ≤ n := by
  rcases h.walk hwalk with ⟨hmarked, -⟩ | ⟨-, u, hu, hdepth⟩
  · exact absurd hmarked hw
  · rcases mem_cons.mp hu with rfl | hu
    · exact hdepth
    · have hle := rel_of_pairwise_cons h.sorted hu
      omega

/-- **Expanding the head** marks its successors and queues the new ones. -/
theorem expand {v : V} (h : Frontier r source marked depth (v :: queue)) {new : List V}
    {depth' : V → ℕ} (hstep : ∀ w, r v w → marked w ∨ w ∈ new)
    (hold : ∀ w, marked w → depth' w = depth w) (hnext : ∀ w ∈ new, depth' w = depth v + 1) :
    Frontier r source (fun w => marked w ∨ w ∈ new) depth' (queue ++ new) := by
  have hhead := h.queued v mem_cons_self
  have hrest : ∀ u ∈ queue, marked u := fun u hu => h.queued u (mem_cons_of_mem v hu)
  have hle : ∀ u ∈ queue, depth v ≤ depth u := fun u hu => rel_of_pairwise_cons h.sorted hu
  have hlevel : ∀ w, marked w → depth w ≤ depth v + 1 := h.level v mem_cons_self
  -- everything marked now is at most one deeper than the head
  have hbound : ∀ w, marked w ∨ w ∈ new → depth' w ≤ depth v + 1 := by
    rintro w (hw | hw)
    · rw [hold w hw]
      exact hlevel w hw
    · exact (hnext w hw).le
  refine
    { source_marked := .inl h.source_marked
      source_depth := (hold source h.source_marked).trans h.source_depth
      queued := fun u hu => (mem_append.mp hu).imp (hrest u) id
      sorted := pairwise_append.mpr ⟨?_, ?_, fun u hu w hw => ?_⟩
      level := fun u hu w hw => ?_
      expanded := fun u hu hnot w huw => ?_ }
  · refine (pairwise_cons.mp h.sorted).2.imp_of_mem fun {a b} ha hb hab => ?_
    rw [hold a (hrest a ha), hold b (hrest b hb)]
    exact hab
  · refine pairwise_of_forall_mem_list fun a ha b hb => ?_
    rw [hnext a ha, hnext b hb]
  · rw [hold u (hrest u hu), hnext w hw]
    exact hlevel u (hrest u hu)
  · refine (hbound w hw).trans (Nat.add_le_add_right ?_ 1)
    rcases mem_append.mp hu with hu | hu
    · rw [hold u (hrest u hu)]
      exact hle u hu
    · rw [hnext u hu]
      exact Nat.le_succ _
  · rw [mem_append, not_or] at hnot
    have humarked : marked u := hu.resolve_right hnot.2
    rw [hold u humarked]
    by_cases huv : u = v
    · subst huv
      exact ⟨hstep w huw, hbound w (hstep w huw)⟩
    · have hnotQueued : u ∉ v :: queue := fun hmem => (mem_cons.mp hmem).elim huv hnot.1
      obtain ⟨hw, hdepth⟩ := h.expanded u humarked hnotQueued w huw
      exact ⟨.inl hw, (hold w hw).trans_le hdepth⟩

end Frontier

end BreadthFirst
