import IdleEngine.Progression.Coordinator
import IdleEngine.Resource.Stored

/-!
# What upgrades do to the records

Unlocks set the two flags of a record. Capacity overrides change a capacity and clamp the amount:
a resource with an override has it as its capacity, one that has lost its override has its base
capacity back, and any other keeps the capacity it has (`applyCapacityOverrides_stored`).
-/

namespace IdleEngine

open Function

variable {n : ℕ} {sh : ContentShape}

namespace StoredResource

variable (r : StoredResource)

/-- The record, unlocked and shown. -/
def unlockAndShow : StoredResource := { r with unlocked := true, visible := true }

theorem withCapacity_idem (capacity : WithTop ℚ) :
    (r.withCapacity capacity).withCapacity capacity = r.withCapacity capacity := by
  rw [withCapacity_of_le (clampToCapacity_le_capacity _ _)]
  rfl

/-- The record under a capacity that may be given. -/
def withSomeCapacity (capacity : Option (WithTop ℚ)) : StoredResource :=
  match capacity with
  | some capacity => r.withCapacity capacity
  | none => r

theorem withSomeCapacity_idem (capacity : Option (WithTop ℚ)) :
    (r.withSomeCapacity capacity).withSomeCapacity capacity = r.withSomeCapacity capacity := by
  cases capacity with
  | none => rfl
  | some capacity => exact r.withCapacity_idem capacity

end StoredResource

namespace ResourceState

variable (s : ResourceState n)

theorem unlockIfLocked_stored (i : Fin n) :
    (s.unlockIfLocked i).stored =
      update s.stored i { s.stored i with unlocked := true } := by
  rw [unlockIfLocked]
  split
  · next hunlocked =>
    have hsame : { s.stored i with unlocked := true } = s.stored i := by
      have hflag : (s.stored i).unlocked = true := hunlocked
      rw [← hflag]
    rw [hsame, update_eq_self]
  · exact s.setUnlockedFlag_stored i true

theorem showIfHidden_stored (i : Fin n) :
    (s.showIfHidden i).stored =
      update s.stored i { s.stored i with visible := true } := by
  rw [showIfHidden]
  split
  · next hvisible =>
    have hsame : { s.stored i with visible := true } = s.stored i := by
      have hflag : (s.stored i).visible = true := hvisible
      rw [← hflag]
    rw [hsame, update_eq_self]
  · exact s.setVisibleFlag_stored i true

theorem unlockAndShow_stored (i : Fin n) :
    (s.unlockAndShow i).stored = update s.stored i (s.stored i).unlockAndShow := by
  rw [unlockAndShow, showIfHidden_stored, unlockIfLocked_stored, update_self,
    update_idem]
  rfl

theorem foldl_unlockAndShow_stored (l : List (Fin n)) (i : Fin n) :
    (l.foldl unlockAndShow s).stored i =
      if i ∈ l then (s.stored i).unlockAndShow else s.stored i := by
  have hloop : (l.foldl unlockAndShow s).stored =
      Overwrite.overwrite (fun _ r => r.unlockAndShow) l s.stored := by
    induction l generalizing s with
    | nil => rfl
    | cons j l ih =>
      rw [List.foldl_cons, ih, unlockAndShow_stored]
      rfl
  rw [hloop]
  exact Overwrite.overwrite_apply (g := fun _ r => r.unlockAndShow) (fun _ _ => rfl) l s.stored i

theorem applyDirtyToleranceOverrides_stored (base : Fin n → ℚ) (overrideIds : List (Fin n))
    (overrides : OrderedMap (Fin n) ℚ) :
    (s.applyDirtyToleranceOverrides base overrideIds overrides).stored = s.stored := by
  have hloop : ∀ {α : Type} (f : ResourceState n → α → ResourceState n) (l : List α) (s),
      (∀ s a, (f s a).stored = s.stored) → (l.foldl f s).stored = s.stored := by
    intro α f l s hf
    induction l generalizing s with
    | nil => rfl
    | cons a l ih => rw [List.foldl_cons, ih, hf]
  rw [applyDirtyToleranceOverrides]
  rw [hloop _ _ _ fun s entry => s.setDirtyTolerance_stored _ _,
    hloop _ _ _ fun s i => s.setDirtyTolerance_stored _ _]

end ResourceState

/-! ### Capacity overrides -/

/-- The capacity that a change of the overrides gives a resource, if any. -/
def overriddenCapacity (base : Fin n → WithTop ℚ) (overrideIds : List (Fin n))
    (overrides : OrderedMap (Fin n) Capacity) (i : Fin n) : Option (WithTop ℚ) :=
  match overrides.get? i with
  | some capacity => some capacity
  | none => if overrideIds.contains i then some (base i) else none

namespace ResourceState

variable (s : ResourceState n)

/-- A loop of capacity writes, each a function of its resource. -/
theorem foldl_setCapacityTo_stored {α : Type} (l : List α) (index : α → Fin n)
    (capacity : Fin n → Option (WithTop ℚ)) {f : ResourceState n → α → ResourceState n}
    (hf : ∀ s, ∀ a ∈ l, (f s a).stored = update s.stored (index a)
      ((s.stored (index a)).withSomeCapacity (capacity (index a)))) (i : Fin n) :
    (l.foldl f s).stored i =
      if i ∈ l.map index then (s.stored i).withSomeCapacity (capacity i) else s.stored i := by
  have hloop : (l.foldl f s).stored =
      Overwrite.overwrite (fun i r => r.withSomeCapacity (capacity i)) (l.map index) s.stored := by
    induction l generalizing s with
    | nil => rfl
    | cons a l ih =>
      rw [List.foldl_cons, ih _ fun s b hb => hf s b (List.mem_cons_of_mem a hb),
        hf s a List.mem_cons_self]
      rfl
  rw [hloop]
  exact Overwrite.overwrite_apply
    (g := fun i (r : StoredResource) => r.withSomeCapacity (capacity i))
    (fun i r => r.withSomeCapacity_idem (capacity i)) _ _ i

/-- **Capacity overrides**, record by record. -/
theorem applyCapacityOverrides_stored (base : Fin n → WithTop ℚ) (overrideIds : List (Fin n))
    (overrides : OrderedMap (Fin n) Capacity) (i : Fin n) :
    (s.applyCapacityOverrides base overrideIds overrides).stored i =
      (s.stored i).withSomeCapacity (overriddenCapacity base overrideIds overrides i) := by
  -- resources that have lost their override
  have hlost := fun s : ResourceState n => s.foldl_setCapacityTo_stored overrideIds id
    (fun i => if (overrides.get? i).isSome then none else some (base i))
    (f := fun s i => if (overrides.get? i).isSome then s else s.setCapacityTo i (base i))
    (fun s i _ => by
      dsimp only [id]
      split
      · exact (update_eq_self i s.stored).symm
      · exact s.setCapacityTo_stored i (base i)) i
  -- resources that have one
  have hset := fun s : ResourceState n => s.foldl_setCapacityTo_stored overrides.entries Prod.fst
    (fun i => (overrides.get? i).map Subtype.val)
    (f := fun s entry => s.setCapacityTo entry.1 entry.2)
    (fun s entry hentry => by
      rw [OrderedMap.get?_eq_some_iff.mpr hentry]
      exact s.setCapacityTo_stored entry.1 entry.2) i
  rw [applyCapacityOverrides, hset, hlost, List.map_id, overriddenCapacity]
  simp only [OrderedMap.mem_keys_iff]
  cases overrides.get? i with
  | some capacity =>
    simp only [Option.isSome_some, if_true, Option.map_some]
    split <;> rfl
  | none =>
    simp only [Option.isSome_none, Bool.false_eq_true, if_false, List.contains_iff_mem]
    split <;> rfl

end ResourceState

end IdleEngine
