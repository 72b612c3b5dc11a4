import Mathlib.Data.Finset.Card
import Mathlib.Data.List.Perm.Basic
import Mathlib.Logic.Relation

/-!
# Orders that put dependencies first

A finite list can be put in an order in which everything an item depends on stands before it
exactly when no item depends on itself through a chain (`exists_dependenciesFirst_iff`). The order
is found by sorting: an item is ranked by how many items it depends on.
-/

namespace DependencyOrder

variable {α : Type*}

/-- Everything an item depends on stands at an earlier place. -/
def DependenciesFirst (DependsOn : α → α → Prop) (order : List α) : Prop :=
  ∀ (i j : ℕ) (hi : i < order.length) (hj : j < order.length),
    DependsOn order[i] order[j] → j < i

open Classical in
/-- How many items of the list an item depends on, through any chain. -/
noncomputable def rank (DependsOn : α → α → Prop) (items : List α) (a : α) : ℕ :=
  (items.toFinset.filter fun b => Relation.TransGen DependsOn a b).card

variable {DependsOn : α → α → Prop} {a b : α}

/-- A dependency of an item has a smaller rank than the item. -/
theorem rank_lt {items : List α} (hacyclic : ∀ a, ¬ Relation.TransGen DependsOn a a)
    (hb : b ∈ items) (h : DependsOn a b) :
    rank DependsOn items b < rank DependsOn items a := by
  classical
  refine Finset.card_lt_card (Finset.ssubset_iff_subset_ne.mpr ⟨fun c hc => ?_, fun heq => ?_⟩)
  · obtain ⟨hmem, hchain⟩ := Finset.mem_filter.mp hc
    exact Finset.mem_filter.mpr ⟨hmem, .head h hchain⟩
  · -- the dependency itself is counted for the item but not for itself
    have hcounted : b ∈ items.toFinset.filter fun c => Relation.TransGen DependsOn a c :=
      Finset.mem_filter.mpr ⟨List.mem_toFinset.mpr hb, .single h⟩
    rw [← heq] at hcounted
    exact hacyclic b (Finset.mem_filter.mp hcounted).2

/-- Without a cycle, the items sorted by rank stand behind their dependencies. -/
theorem exists_dependenciesFirst (hacyclic : ∀ a, ¬ Relation.TransGen DependsOn a a)
    (items : List α) :
    ∃ order, List.Perm order items ∧ DependenciesFirst DependsOn order := by
  have htrans : ∀ a b c, decide (rank DependsOn items a ≤ rank DependsOn items b) = true →
      decide (rank DependsOn items b ≤ rank DependsOn items c) = true →
      decide (rank DependsOn items a ≤ rank DependsOn items c) = true := by
    intro a b c hab hbc
    exact decide_eq_true ((of_decide_eq_true hab).trans (of_decide_eq_true hbc))
  have hsorted := List.pairwise_mergeSort htrans (fun a b => by simpa using Nat.le_total _ _) items
  have hperm := List.mergeSort_perm items
    fun a b => decide (rank DependsOn items a ≤ rank DependsOn items b)
  refine ⟨_, hperm, fun i j hi hj hdepends => ?_⟩
  have hlt := rank_lt hacyclic (hperm.mem_iff.mp (List.getElem_mem hj)) hdepends
  by_contra hle
  have hij : i = j ∨ i < j := by omega
  rcases hij with rfl | hij
  · exact hacyclic _ (.single hdepends)
  · have hranks := of_decide_eq_true (List.pairwise_iff_getElem.mp hsorted i j hi hj hij)
    omega

/-- Along a chain of dependencies the first place at which an item stands gets smaller. -/
theorem idxOf_lt [DecidableEq α] {order : List α} (horder : DependenciesFirst DependsOn order)
    (hmem : ∀ a b, DependsOn a b → a ∈ order) (h : Relation.TransGen DependsOn a b)
    (hb : b ∈ order) : order.idxOf b < order.idxOf a := by
  induction h using Relation.TransGen.head_induction_on with
  | single h =>
    have ha := List.idxOf_lt_length_of_mem (hmem _ _ h)
    have hb' := List.idxOf_lt_length_of_mem hb
    exact horder _ _ ha hb' (by simpa using h)
  | head h hchain ih =>
    rename_i a c
    have ha := List.idxOf_lt_length_of_mem (hmem _ _ h)
    obtain ⟨d, hd, -⟩ := Relation.TransGen.head'_iff.mp hchain
    have hc := List.idxOf_lt_length_of_mem (hmem _ _ hd)
    have hfirst := horder _ _ ha hc (by simpa using h)
    omega

/-- An order that puts dependencies first exists exactly when no item depends on itself through a
chain; only items of the list have dependencies. -/
theorem exists_dependenciesFirst_iff {items : List α} (hmem : ∀ a b, DependsOn a b → a ∈ items) :
    (∃ order, List.Perm order items ∧ DependenciesFirst DependsOn order) ↔
      ∀ a, ¬ Relation.TransGen DependsOn a a := by
  classical
  refine ⟨fun ⟨order, hperm, horder⟩ a hcycle => ?_, fun h => exists_dependenciesFirst h items⟩
  obtain ⟨b, hb, -⟩ := Relation.TransGen.head'_iff.mp hcycle
  have hlt := idxOf_lt horder (fun a b h => hperm.mem_iff.mpr (hmem a b h)) hcycle
    (hperm.mem_iff.mpr (hmem a b hb))
  omega

/-- A cycle through relations of two kinds either uses the first kind alone or passes through a
step of the second. -/
theorem transGen_or {First Second : α → α → Prop}
    (h : Relation.TransGen (fun a b => First a b ∨ Second a b) a b) :
    Relation.TransGen First a b ∨
      ∃ c d, Relation.ReflTransGen (fun a b => First a b ∨ Second a b) a c ∧ Second c d ∧
        Relation.ReflTransGen (fun a b => First a b ∨ Second a b) d b := by
  induction h with
  | single h => exact h.elim (fun h => .inl (.single h)) fun h => .inr ⟨_, _, .refl, h, .refl⟩
  | tail hchain h ih =>
    rcases ih with ih | ⟨c, d, hac, hcd, hdb⟩
    · exact h.elim (fun h => .inl (ih.tail h)) fun h => .inr ⟨_, _, hchain.to_reflTransGen, h, .refl⟩
    · exact .inr ⟨c, d, hac, hcd, hdb.tail h⟩

end DependencyOrder
