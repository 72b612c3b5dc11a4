import Mathlib.Data.Fintype.Card
import IdleEngine.Resource.Coherence

/-!
# The dirty set

The indices that have changed since the last publish are kept three times: in a list, in a table of
their positions, and as a bit of the flags of each row. A publish marks what it has visited in the
same table. The three agree after every sequence of operations, and no mark is left
(`dirtySet_operations`).
-/

namespace IdleEngine

variable {n : ℕ}

/-- An operation of the store: one between publishes, or a snapshot, which publishes unless it is
taken for the recorder. -/
inductive StoreOperation (n : ℕ)
  | call (call : ResourceCall n)
  | publish
  | recorderSnapshot

/-- The store after an operation. -/
def ResourceState.operate (s : ResourceState n) : StoreOperation n → ResourceState n
  | .call call => s.call call
  | .publish => s.createPublishSnapshot
  | .recorderSnapshot => s

/-- The list of the dirty indices, the table of their positions and the dirty bits agree. -/
structure DirtySet (s : ResourceState n) : Prop where
  nodup : s.dirtyIndexScratch.dense.Nodup
  inverse : ∀ p (hp : p < s.dirtyIndexScratch.dense.length),
    s.dirtyIndexScratch.position s.dirtyIndexScratch.dense[p] = p
  unset : ∀ i, i ∉ s.dirtyIndexScratch.dense → s.dirtyIndexScratch.position i = SparseSet.unset
  flagged : ∀ i, (s.live i).flags.dirtyThisTick = true ↔ i ∈ s.dirtyIndexScratch.dense
  count : s.dirtyIndexScratch.dense.length ≤ n
  unvisited : ∀ i, s.dirtyIndexScratch.position i ≠ scratchVisited

theorem ResourceState.Scratched.dirtySet {s : ResourceState n} (h : s.Scratched) : DirtySet s where
  nodup := h.valid.nodup
  inverse := h.valid.position_getElem
  unset := h.valid.unset_of_not_mem
  flagged := h.dirty_iff
  count := by
    have hlength := List.Nodup.length_le_card h.valid.nodup
    rwa [Fintype.card_fin] at hlength
  unvisited := by
    intro i hvisited
    by_cases hi : i ∈ s.dirtyIndexScratch.dense
    · have hpos := h.valid.position_nonneg_iff.mpr hi
      rw [hvisited, scratchVisited] at hpos
      omega
    · rw [h.valid.unset_of_not_mem i hi] at hvisited
      cases hvisited

/-- **Step lemma.** Every operation keeps the buffers and the scratch coherent. -/
theorem Coherent.operate {s : ResourceState n} (h : Coherent s) (operation : StoreOperation n) :
    Coherent (s.operate operation) := by
  cases operation with
  | call call => exact (h.call call).coherent
  | publish => exact h.publish
  | recorderSnapshot => exact h

/-- **Dirty set representation.** After every sequence of operations of a store that was created,
the three records of its dirty indices agree, and no mark of a publish is left. -/
theorem dirtySet_operations {definitions : Fin n → ResourceDefinition} {precision : Precision}
    {s : ResourceState n} (hcreate : createResourceState definitions precision = .ok s)
    (operations : List (StoreOperation n)) :
    DirtySet (operations.foldl ResourceState.operate s) := by
  have hrun : Coherent (operations.foldl ResourceState.operate s) :=
    List.foldlRecOn _ _ (coherent_create hcreate) fun _ ht operation _ => ht.operate operation
  exact hrun.scratched.dirtySet

/-- A resource that is changed, published and changed again. -/
theorem dirtySet_operations_gold :
    ∃ s, createResourceState (fun _ : Fin 1 => goldDefinition) .default = .ok s ∧
      DirtySet ([.call (.mutate (.addAmount 0 (.fin 3))), .publish,
        .call (.mutate (.addAmount 0 (.fin 4)))].foldl ResourceState.operate s) := by
  have hcreated : ((createResourceState (fun _ : Fin 1 => goldDefinition)
      .default).toOption).isSome = true := by decide +kernel
  cases hcreate : createResourceState (fun _ : Fin 1 => goldDefinition) .default with
  | error message =>
    rw [hcreate] at hcreated
    cases hcreated
  | ok s => exact ⟨s, rfl, dirtySet_operations hcreate _⟩

/-- The second change is in the list again. -/
example : ((createResourceState (fun _ : Fin 1 => goldDefinition) .default).toOption.map fun s =>
    ([.call (.mutate (.addAmount 0 (.fin 3))), .publish,
      .call (.mutate (.addAmount 0 (.fin 4)))].foldl ResourceState.operate s).dirtyIndexScratch.dense)
    = some [0] := by decide +kernel

end IdleEngine
