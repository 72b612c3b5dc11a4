import IdleEngine.Save.Resources

/-!
# What loading does to the records

A save that passes the checks has non-negative capacities, so loading it keeps every record
within its bounds.
-/

namespace IdleEngine

open Outcome

variable {n : ℕ}

theorem assertSerializedArrayLength_ok {field : String} {actual expected : ℕ} {u : Unit}
    (h : assertSerializedArrayLength field actual expected = .ok u) : actual = expected := by
  unfold assertSerializedArrayLength at h
  split at h
  · assumption
  · cases h

theorem assertSerializedCapacity_ok {capacity : Option JsNumber} {u : Unit}
    (h : assertSerializedCapacity capacity = .ok u) :
    capacity = none ∨ ∃ c, capacity = some (.fin c) ∧ 0 ≤ c := by
  unfold assertSerializedCapacity at h
  split at h
  · exact .inl rfl
  · next capacity =>
    cases capacity with
    | fin c =>
      simp only [JsNumber.finite?] at h
      split at h
      · next hc => exact .inr ⟨c, rfl, hc⟩
      · cases h
    | posInf => cases h
    | negInf => cases h
    | nan => cases h

variable {serialized : SerializedResourceState} {liveIds : Fin n → String}

/-- The saved values of a save that reconciles passed their checks. -/
theorem reconcile_ok {reconciliation : ResourceReconciliation n}
    (h : reconcileSaveAgainstDefinitions serialized liveIds = .ok reconciliation) :
    serialized.capacities.length = serialized.ids.length ∧
      ∀ k < serialized.ids.length, validateSerializedValue serialized k = .ok () := by
  unfold reconcileSaveAgainstDefinitions at h
  obtain ⟨_, -, h⟩ := bind_ok h
  obtain ⟨_, hcapacities, h⟩ := bind_ok h
  obtain ⟨_, -, h⟩ := bind_ok h
  obtain ⟨_, -, h⟩ := bind_ok h
  obtain ⟨_, -, h⟩ := bind_ok h
  obtain ⟨_, -, h⟩ := bind_ok h
  obtain ⟨_, -, h⟩ := bind_ok h
  obtain ⟨_, hvalues, h⟩ := bind_ok h
  exact ⟨assertSerializedArrayLength_ok hcapacities,
    fun k hk => forM_ok hvalues (List.mem_range.mpr hk)⟩

theorem SerializedResourceState.recordAt_capacity_nonneg {reconciliation : ResourceReconciliation n}
    (h : reconcileSaveAgainstDefinitions serialized liveIds = .ok reconciliation) (k : ℕ) :
    0 ≤ (serialized.recordAt k).capacity := by
  obtain ⟨hlength, hvalues⟩ := reconcile_ok h
  rw [recordAt]
  dsimp only
  split
  · next capacity hcapacity =>
    have hk : k < serialized.ids.length := by
      rw [← hlength]
      by_contra hout
      rw [List.getD_eq_getElem?_getD, List.getElem?_eq_none (not_lt.mp hout)] at hcapacity
      cases hcapacity
    obtain ⟨_, -, hvalue⟩ := bind_ok (hvalues k hk)
    obtain ⟨_, hchecked, -⟩ := bind_ok hvalue
    rw [hcapacity] at hchecked
    obtain hnone | ⟨c, hc, hnonneg⟩ := assertSerializedCapacity_ok hchecked
    · cases hnone
    · obtain rfl : capacity = c := JsNumber.fin.inj (Option.some.inj hc)
      exact_mod_cast hnonneg
  · exact le_top

/-! ### Loading a table of records -/

theorem StoredResource.load_bounded {r saved : StoredResource} (hr : 0 ≤ r.amount)
    (hsaved : 0 ≤ saved.capacity) : (r.load saved).Bounded where
  nonneg := by
    rw [load]
    dsimp only
    split
    · exact clampToCapacity_nonneg hr hsaved
    · next hneg => exact clampToCapacity_nonneg (not_lt.mp hneg) hsaved
  le_capacity := clampToCapacity_le_capacity _ _

theorem StoredResource.load_of_le {r saved : StoredResource} (h : saved.Bounded)
    (hunlocked : r.unlocked ≤ saved.unlocked) (hvisible : r.visible ≤ saved.visible) :
    r.load saved = saved := by
  rw [load, if_neg (not_lt.mpr h.nonneg), clampToCapacity_of_le h.le_capacity]
  have hor : ∀ a b : Bool, a ≤ b → (a || b) = b := by decide
  rw [hor _ _ hunlocked, hor _ _ hvisible]

/-- The records after the loop of `hydrateResourceState`. -/
def loadRecords (records : Fin n → StoredResource) (serialized : SerializedResourceState)
    (remap : List (Fin n)) : Fin n → StoredResource :=
  remap.zipIdx.foldl
    (fun records entry => Function.update records entry.1
      ((records entry.1).load (serialized.recordAt entry.2))) records

/-- **Loading resources.** Loading acts on the records alone. -/
theorem ResourceState.restoreResources_stored (s : ResourceState n)
    (serialized : SerializedResourceState) (remap : List (Fin n))
    (hs : ∀ i, 0 ≤ (s.stored i).amount)
    (hsaved : ∀ k, 0 ≤ (serialized.recordAt k).capacity) :
    (s.restoreResources serialized remap).stored = loadRecords s.stored serialized remap := by
  rw [restoreResources, createPublishSnapshot_stored, loadRecords]
  generalize remap.zipIdx = entries
  induction entries generalizing s with
  | nil => rfl
  | cons entry entries ih =>
    have hstep := s.restoreResource_stored entry.1 (serialized.recordAt entry.2) (hs entry.1)
      (hsaved entry.2)
    rw [List.foldl_cons, List.foldl_cons, ← hstep]
    refine ih _ fun i => ?_
    rw [hstep]
    by_cases hi : i = entry.1
    · subst hi
      rw [Function.update_self]
      exact (StoredResource.load_bounded (hs _) (hsaved _)).nonneg
    · rw [Function.update_of_ne hi]
      exact hs i

theorem loadRecords_bounded {records : Fin n → StoredResource} (remap : List (Fin n))
    (h : Bounded records) (hsaved : ∀ k, 0 ≤ (serialized.recordAt k).capacity) :
    Bounded (loadRecords records serialized remap) := by
  refine List.foldlRecOn (motive := Bounded) _ _ h fun records hrecords entry _ => ?_
  exact hrecords.update (StoredResource.load_bounded (hrecords entry.1).nonneg (hsaved entry.2))

theorem Bounded.hydrateResources {s s' : ResourceState n} (h : Bounded s.stored)
    (hload : s.hydrateResources liveIds serialized = .ok s') : Bounded s'.stored := by
  obtain ⟨reconciliation, hreconcile, hrest⟩ := bind_ok hload
  obtain rfl := Except.ok.inj hrest
  have hsaved := SerializedResourceState.recordAt_capacity_nonneg hreconcile
  rw [s.restoreResources_stored serialized _ (fun i => (h i).nonneg) hsaved]
  exact loadRecords_bounded _ h hsaved

/-! ### A save with its own ids -/

theorem buildRemap_eq {seen ids : List String} (hseen : ∀ id ∈ ids, id ∉ seen) (hids : ids.Nodup) :
    buildRemap liveIds seen ids = .ok (ids.map (indexOfId liveIds)) := by
  induction ids generalizing seen with
  | nil => rfl
  | cons id ids ih =>
    obtain ⟨hnew, hnodup⟩ := List.nodup_cons.mp hids
    have hrest : ∀ id' ∈ ids, id' ∉ id :: seen := by
      intro id' hid' hmem
      rcases List.mem_cons.mp hmem with rfl | hmem
      · exact hnew hid'
      · exact hseen id' (List.mem_cons_of_mem _ hid') hmem
    have hfirst : seen.contains id = false := by simpa using hseen id List.mem_cons_self
    rw [buildRemap, hfirst, ih hrest hnodup]
    rfl

theorem ResourceState.validateDefinitionDigest_create (ids : List String) :
    validateDefinitionDigest (createDefinitionDigest ids) ids = .ok () := by
  simp [validateDefinitionDigest, createDefinitionDigest, nonNegativeInteger, JsNumber.finite?]

end IdleEngine
