import IdleEngine.Resource.Coherence
import IdleEngine.Resource.Reading

/-!
# What a save keeps of a resource

A save records a resource's amount, capacity and two flags. On these four the store behaves like
an array of plain records: each operation changes one record in a way that does not depend on the
publish buffers, the dirty tracking or the tolerances. The lemmas `…_stored` say which change
each operation makes; what is proved of the records then holds of the store.

A record is `Bounded` when its amount lies between zero and its capacity.
-/

namespace IdleEngine

open Function RowField

variable {n : ℕ}

/-- The part of a row that a save keeps. -/
structure StoredResource where
  amount : ℚ
  capacity : WithTop ℚ
  unlocked : Bool
  visible : Bool
  deriving DecidableEq

def ResourceRow.stored (row : ResourceRow) : StoredResource :=
  { amount := row.amount
    capacity := row.capacity
    unlocked := row.flags.unlocked
    visible := row.flags.visible }

/-- The records are a reading of the rows. -/
def storedReading : RowReading StoredResource where
  read := ResourceRow.stored
  read_dirty _ _ := rfl

namespace StoredResource

variable (r : StoredResource)

/-- The record under another capacity. -/
def withCapacity (capacity : WithTop ℚ) : StoredResource :=
  { r with capacity, amount := clampToCapacity r.amount capacity }

/-- The record with an amount added, as far as the capacity allows. -/
def add (amount : ℚ) : StoredResource :=
  { r with amount := clampToCapacity (r.amount + amount) r.capacity }

/-- The amount lies between zero and the capacity. -/
structure Bounded : Prop where
  nonneg : 0 ≤ r.amount
  le_capacity : (r.amount : WithTop ℚ) ≤ r.capacity

variable {r}

theorem Bounded.capacity_nonneg (h : r.Bounded) : 0 ≤ r.capacity :=
  le_trans (by exact_mod_cast h.nonneg) h.le_capacity

variable {capacity : WithTop ℚ}

theorem Bounded.withCapacity (h : r.Bounded) (hc : 0 ≤ capacity) :
    (r.withCapacity capacity).Bounded where
  nonneg := clampToCapacity_nonneg h.nonneg hc
  le_capacity := clampToCapacity_le_capacity r.amount capacity

theorem Bounded.add (h : r.Bounded) {amount : ℚ} (ha : 0 ≤ amount) : (r.add amount).Bounded where
  nonneg := clampToCapacity_nonneg (add_nonneg h.nonneg ha) h.capacity_nonneg
  le_capacity := clampToCapacity_le_capacity _ _

theorem withCapacity_of_le (h : (r.amount : WithTop ℚ) ≤ capacity) :
    r.withCapacity capacity = { r with capacity } := by
  rw [withCapacity, clampToCapacity_of_le h]

end StoredResource

namespace ResourceState

/-- The records of a store. -/
def stored (s : ResourceState n) (i : Fin n) : StoredResource := (s.live i).stored

theorem setLive_stored (s : ResourceState n) (i : Fin n) (row : ResourceRow) :
    (s.setLive i row).stored = update s.stored i row.stored :=
  s.setLive_readings storedReading i row

theorem markDirty_stored (s : ResourceState n) (i : Fin n) :
    (s.markDirty i).stored = s.stored :=
  s.markDirty_readings storedReading i

variable {V : Type}

theorem writeField_stored [DecidableEq V] (s : ResourceState n) (field : RowField V)
    (hfield : ∀ row, field.set (field.get row) row = row) (i : Fin n) (v : V) :
    (s.writeField field i v).stored =
      update s.stored i (field.set v (s.live i)).stored :=
  s.writeField_readings storedReading field hfield i v

theorem writeAmount_stored (s : ResourceState n) (i : Fin n) (v : ℚ) :
    (s.writeField amount i v).stored =
      update s.stored i { s.stored i with amount := v } :=
  s.writeField_stored amount (fun _ => rfl) i v

theorem writeCapacity_stored (s : ResourceState n) (i : Fin n) (v : WithTop ℚ) :
    (s.writeField capacity i v).stored =
      update s.stored i { s.stored i with capacity := v } :=
  s.writeField_stored capacity (fun _ => rfl) i v

theorem writeOther_stored [DecidableEq V] (s : ResourceState n) (field : RowField V)
    (hfield : ∀ row, field.set (field.get row) row = row)
    (hother : ∀ v row, (field.set v row).stored = row.stored) (i : Fin n) (v : V) :
    (s.writeField field i v).stored = s.stored :=
  s.writeOther_readings storedReading field hfield hother i v

theorem accumulateTickDelta_stored (s : ResourceState n) (i : Fin n) (delta : ℚ) :
    (s.accumulateTickDelta i delta).stored = s.stored := by
  rw [accumulateTickDelta]
  split
  · rfl
  · exact s.writeOther_stored tickDelta (fun _ => rfl) (fun _ _ => rfl) i _

/-! ### Operations -/

theorem setCapacityTo_stored (s : ResourceState n) (i : Fin n) (capacity : WithTop ℚ) :
    (s.setCapacityTo i capacity).stored =
      update s.stored i ((s.stored i).withCapacity capacity) := by
  have hamount : ((s.writeField RowField.capacity i capacity).live i).amount =
      (s.stored i).amount := by
    have h := congrArg StoredResource.amount
      (congrFun (s.writeCapacity_stored i capacity) i)
    rwa [update_self] at h
  rw [setCapacityTo, hamount]
  split
  · rw [accumulateTickDelta_stored, writeAmount_stored, writeCapacity_stored,
      update_self, update_idem]
    rfl
  · next hle =>
    rw [writeCapacity_stored, StoredResource.withCapacity_of_le (not_lt.mp hle)]

theorem setDirtyTolerance_stored (s : ResourceState n) (i : Fin n) (dirtyTolerance : JsNumber) :
    (s.setDirtyTolerance i dirtyTolerance).2.stored = s.stored := by
  rw [setDirtyTolerance]
  split
  · rfl
  · rw [markDirty_stored, setLive_stored]
    exact update_eq_self i s.stored

theorem addPositive_stored (s : ResourceState n) (i : Fin n) (amount : ℚ) :
    (s.addPositive i amount).2.stored = update s.stored i ((s.stored i).add amount) := by
  rw [addPositive]
  split
  · next hzero =>
    have hsame : (s.stored i).add amount = s.stored i := by
      rw [StoredResource.add]
      exact congrArg (fun a => ({ s.stored i with amount := a } : StoredResource))
        (sub_eq_zero.mp hzero)
    rw [hsame]
    exact (update_eq_self i s.stored).symm
  · rw [accumulateTickDelta_stored, writeAmount_stored]
    rfl

theorem putAmount_stored (s : ResourceState n) (i : Fin n) (amount : ℚ) :
    (s.putAmount i amount).stored =
      update s.stored i { s.stored i with amount } :=
  s.writeAmount_stored i amount

theorem setUnlockedFlag_stored (s : ResourceState n) (i : Fin n) (unlocked : Bool) :
    (s.setUnlockedFlag i unlocked).stored =
      update s.stored i { s.stored i with unlocked } :=
  s.writeField_stored flags (fun _ => rfl) i _

theorem setVisibleFlag_stored (s : ResourceState n) (i : Fin n) (visible : Bool) :
    (s.setVisibleFlag i visible).stored =
      update s.stored i { s.stored i with visible } :=
  s.writeField_stored flags (fun _ => rfl) i _

theorem clearDirtyBits_stored (rows : Fin n → ResourceRow) (indices : List (Fin n)) (i : Fin n) :
    (clearDirtyBits rows indices i).stored = (rows i).stored := by
  rw [clearDirtyBits,
    Overwrite.overwrite_apply (g := fun _ row => ResourceRow.clearDirty row) (fun _ _ => rfl)]
  split <;> rfl

theorem createPublishSnapshot_stored (s : ResourceState n) :
    s.createPublishSnapshot.stored = s.stored := by
  funext i
  exact clearDirtyBits_stored s.live _ i

theorem settleIndex_stored (s : ResourceState n) (deltaSeconds : ℚ) (i : Fin n) :
    ∃ amount, (s.settleIndex deltaSeconds i).stored = update s.stored i
      { s.stored i with amount := clampAmount amount (s.stored i).capacity } := by
  refine ⟨(s.live i).amount + ((s.live i).incomePerSecond * deltaSeconds -
    (s.live i).expensePerSecond * deltaSeconds), ?_⟩
  rw [settleIndex]
  simp only
  rw [writeOther_stored _ netPerSecond (fun _ => rfl) (fun _ _ => rfl),
    accumulateTickDelta_stored, writeAmount_stored]
  rfl

theorem finalizeIndex_stored (s : ResourceState n) (deltaSeconds : ℚ) (i : Fin n) :
    (s.finalizeIndex deltaSeconds i).stored = (s.settleIndex deltaSeconds i).stored := by
  rw [finalizeIndex]
  split
  · rfl
  · exact markDirty_stored _ i

theorem clampAmount_bounded {r : StoredResource} (h : r.Bounded) (amount : ℚ) :
    StoredResource.Bounded { r with amount := clampAmount amount r.capacity } := by
  constructor
  · simp only [clampAmount]
    split
    · exact le_refl 0
    · next hneg => exact clampToCapacity_nonneg (not_lt.mp hneg) h.capacity_nonneg
  · simp only [clampAmount]
    split
    · exact_mod_cast h.capacity_nonneg
    · exact clampToCapacity_le_capacity amount r.capacity

end ResourceState

/-! ### Bounded stores -/

/-- Every amount lies between zero and the capacity. -/
def Bounded (records : Fin n → StoredResource) : Prop := ∀ i, (records i).Bounded

variable {i : Fin n}

theorem Bounded.update {records : Fin n → StoredResource} (h : Bounded records) {r : StoredResource}
    (hr : r.Bounded) : Bounded (update records i r) := by
  intro j
  by_cases hj : j = i
  · subst hj
    rwa [update_self]
  · rw [update_of_ne hj]
    exact h j

namespace ResourceState

variable {s : ResourceState n} {i : Fin n} {amount : JsNumber} {s' : ResourceState n}

/-- `addAmount` of a number that is not finite or negative throws. -/
theorem addAmount_ok {d : ℚ} (h : s.addAmount i amount = .ok (d, s')) :
    ∃ x, amount = .fin x ∧ ((x = 0 ∧ d = 0 ∧ s' = s) ∨ (0 < x ∧ s.addPositive i x = (d, s'))) := by
  unfold addAmount at h
  cases amount with
  | fin x =>
    simp only [JsNumber.finite?] at h
    split at h
    · cases h
    · next hnonneg =>
      split at h
      · next hzero =>
        obtain ⟨rfl, rfl⟩ := Prod.mk.inj (Except.ok.inj h)
        exact ⟨x, rfl, .inl ⟨hzero, rfl, rfl⟩⟩
      · next hzero =>
        have hpos : 0 < x := lt_of_le_of_ne (not_lt.mp hnonneg) fun hx => hzero hx.symm
        exact ⟨x, rfl, .inr ⟨hpos, Except.ok.inj h⟩⟩
  | posInf => cases h
  | negInf => cases h
  | nan => cases h

/-- `spendAmount` that returns has taken nothing, or exactly what was asked for. -/
theorem spendAmount_ok {done : Bool} (h : s.spendAmount i amount = .ok (done, s')) :
    ∃ x, amount = .fin x ∧ 0 ≤ x ∧
      ((done = false ∧ s' = s ∧ (s.live i).amount < x) ∨
        (done = true ∧ (0 < x → x ≤ (s.live i).amount) ∧
          s'.stored = update s.stored i
            { s.stored i with amount := (s.stored i).amount - x })) := by
  unfold spendAmount at h
  cases amount with
  | fin x =>
    simp only [JsNumber.finite?] at h
    split at h
    · cases h
    · next hnonneg =>
      refine ⟨x, rfl, not_lt.mp hnonneg, ?_⟩
      split at h
      · next hzero =>
        obtain ⟨rfl, rfl⟩ := Prod.mk.inj (Except.ok.inj h)
        subst hzero
        refine .inr ⟨rfl, fun hpos => absurd hpos (lt_irrefl 0), ?_⟩
        rw [sub_zero]
        exact (update_eq_self i s.stored).symm
      · split at h
        · next hshort =>
          obtain ⟨rfl, rfl⟩ := Prod.mk.inj (Except.ok.inj h)
          exact .inl ⟨rfl, rfl, hshort⟩
        · next henough =>
          obtain ⟨rfl, rfl⟩ := Prod.mk.inj (Except.ok.inj h)
          refine .inr ⟨rfl, fun _ => not_lt.mp henough, ?_⟩
          rw [accumulateTickDelta_stored, writeAmount_stored]
          rfl
  | posInf => cases h
  | negInf => cases h
  | nan => cases h

theorem addPositive_delta (s : ResourceState n) (i : Fin n) (amount : ℚ) :
    (s.addPositive i amount).1 = ((s.stored i).add amount).amount - (s.stored i).amount := by
  rw [addPositive]
  split
  · next hzero => exact hzero.symm
  · rfl

end ResourceState

open ResourceState

variable {s s' : ResourceState n} {amount : JsNumber}

variable {d : ℚ}

/-- **Adding.** In a bounded store `addAmount` returns the change of the amount, which lies
between zero and what was asked for. -/
theorem Bounded.addAmount_exact (h : Bounded s.stored) (hadd : s.addAmount i amount = .ok (d, s')) :
    ∃ x, amount = .fin x ∧ 0 ≤ d ∧ d ≤ x ∧ (s'.live i).amount = (s.live i).amount + d := by
  obtain ⟨x, rfl, ⟨rfl, rfl, rfl⟩ | ⟨hpos, hrun⟩⟩ := addAmount_ok hadd
  · exact ⟨0, rfl, le_refl 0, le_refl 0, (add_zero _).symm⟩
  · have hdelta : d = ((s.stored i).add x).amount - (s.stored i).amount := by
      rw [← addPositive_delta, hrun]
    have hstored : s'.stored i = (s.stored i).add x := by
      have hrecords := congrFun (s.addPositive_stored i x) i
      rwa [hrun, update_self] at hrecords
    have hamount : (s'.live i).amount = ((s.stored i).add x).amount :=
      congrArg StoredResource.amount hstored
    refine ⟨x, rfl, ?_, ?_, ?_⟩
    · have hle : (s.stored i).amount ≤ ((s.stored i).add x).amount :=
        le_clampToCapacity (le_add_of_nonneg_right hpos.le) (h i).le_capacity
      linarith
    · have hle : ((s.stored i).add x).amount ≤ (s.stored i).amount + x :=
        clampToCapacity_le _ _
      linarith
    · rw [hamount, hdelta]
      change _ = (s.stored i).amount + _
      ring

variable {done : Bool}

/-- **Spending.** `spendAmount` removes exactly what was asked for, or leaves the amount as it
is and returns false. -/
theorem spendAmount_exact (hspend : s.spendAmount i amount = .ok (done, s')) :
    ∃ x, amount = .fin x ∧
      ((done = true ∧ (s'.live i).amount = (s.live i).amount - x) ∨
        (done = false ∧ (s'.live i).amount = (s.live i).amount)) := by
  obtain ⟨x, rfl, -, ⟨rfl, rfl, -⟩ | ⟨rfl, -, hstored⟩⟩ := spendAmount_ok hspend
  · exact ⟨x, rfl, .inr ⟨rfl, rfl⟩⟩
  · have hrecord := congrFun hstored i
    rw [update_self] at hrecord
    exact ⟨x, rfl, .inl ⟨rfl, congrArg StoredResource.amount hrecord⟩⟩

/-! ### Bounds across operations -/

/-- The mutations other than the unclamped write of an amount. -/
def ResourceMutation.Clamped : ResourceMutation n → Prop
  | .writeAmountDirect _ _ => False
  | _ => True

section

variable (h : Bounded s.stored)
include h

theorem Bounded.addAmount (hadd : s.addAmount i amount = .ok (d, s')) : Bounded s'.stored := by
  obtain ⟨x, -, ⟨-, -, rfl⟩ | ⟨hpos, hrun⟩⟩ := addAmount_ok hadd
  · exact h
  · have hstored := s.addPositive_stored i x
    rw [hrun] at hstored
    rw [hstored]
    exact h.update ((h i).add hpos.le)

theorem Bounded.spendAmount (hspend : s.spendAmount i amount = .ok (done, s')) :
    Bounded s'.stored := by
  obtain ⟨x, -, hx, ⟨-, rfl, -⟩ | ⟨-, henough, hstored⟩⟩ := spendAmount_ok hspend
  · exact h
  · rw [hstored]
    refine h.update ⟨?_, ?_⟩
    · rcases hx.eq_or_lt with rfl | hpos
      · simpa using (h i).nonneg
      · exact sub_nonneg.mpr (henough hpos)
    · refine le_trans ?_ (h i).le_capacity
      exact_mod_cast sub_le_self _ hx

theorem Bounded.setCapacityTo {capacity : WithTop ℚ} (hc : 0 ≤ capacity) :
    Bounded (s.setCapacityTo i capacity).stored := by
  rw [setCapacityTo_stored]
  exact h.update ((h i).withCapacity hc)

theorem Bounded.setUnlockedFlag (i : Fin n) (unlocked : Bool) :
    Bounded (s.setUnlockedFlag i unlocked).stored := by
  rw [setUnlockedFlag_stored]
  exact h.update ⟨(h i).nonneg, (h i).le_capacity⟩

theorem Bounded.setVisibleFlag (i : Fin n) (visible : Bool) :
    Bounded (s.setVisibleFlag i visible).stored := by
  rw [setVisibleFlag_stored]
  exact h.update ⟨(h i).nonneg, (h i).le_capacity⟩

end

/-- A rate changes no record. -/
theorem applyRate_stored (field : RowField ℚ) (hfield : ∀ row, field.set (field.get row) row = row)
    (hother : ∀ v row, (field.set v row).stored = row.stored) {fieldName : String}
    {amountPerSecond : JsNumber} (hrate : s.applyRate field fieldName i amountPerSecond = .ok s') :
    s'.stored = s.stored := by
  unfold applyRate at hrate
  split at hrate
  · cases hrate
  · split at hrate
    · cases hrate
    · split at hrate
      · obtain rfl := Except.ok.inj hrate
        rfl
      · obtain rfl := Except.ok.inj hrate
        rw [writeNet, writeOther_stored _ netPerSecond (fun _ => rfl) (fun _ _ => rfl),
          writeOther_stored _ field hfield hother]

/-- **Step lemma.** A mutation that does not write an amount directly keeps the bounds. -/
theorem Bounded.mutate (h : Bounded s.stored) {m : ResourceMutation n} (hm : m.Clamped) :
    Bounded (s.mutate m).stored := by
  cases m with
  | addAmount index amount =>
    cases hrun : s.addAmount index amount with
    | ok result => simpa [ResourceState.mutate, ResourceState.after, hrun] using h.addAmount hrun
    | error message => simpa [ResourceState.mutate, ResourceState.after, hrun] using h
  | spendAmount index amount =>
    cases hrun : s.spendAmount index amount with
    | ok result => simpa [ResourceState.mutate, ResourceState.after, hrun] using h.spendAmount hrun
    | error message => simpa [ResourceState.mutate, ResourceState.after, hrun] using h
  | setCapacity index capacity =>
    cases hparse : parseCapacity capacity with
    | none => simpa [ResourceState.mutate, ResourceState.after, setCapacity, hparse] using h
    | some nextCapacity =>
      simpa [ResourceState.mutate, ResourceState.after, setCapacity, hparse] using
        h.setCapacityTo (parseCapacity_nonneg hparse)
  | setDirtyTolerance index dirtyTolerance =>
    simpa [ResourceState.mutate, setDirtyTolerance_stored] using h
  | unlock index => exact h.setUnlockedFlag index true
  | grantVisibility index => exact h.setVisibleFlag index true
  | applyIncome index amountPerSecond =>
    cases hrun : s.applyIncome index amountPerSecond with
    | ok s' =>
      have hstored := applyRate_stored incomePerSecond (fun _ => rfl)
        (fun _ _ => rfl) hrun
      simpa [ResourceState.mutate, ResourceState.afterUnit, hrun, hstored] using h
    | error message => simpa [ResourceState.mutate, ResourceState.afterUnit, hrun] using h
  | applyExpense index amountPerSecond =>
    cases hrun : s.applyExpense index amountPerSecond with
    | ok s' =>
      have hstored := applyRate_stored expensePerSecond (fun _ => rfl)
        (fun _ _ => rfl) hrun
      simpa [ResourceState.mutate, ResourceState.afterUnit, hrun, hstored] using h
    | error message => simpa [ResourceState.mutate, ResourceState.afterUnit, hrun] using h
  | writeAmountDirect index amount => exact hm.elim
  | writeUnlockedDirect index unlocked => exact h.setUnlockedFlag index unlocked
  | writeVisibleDirect index visible => exact h.setVisibleFlag index visible

/-- **Settling.** A tick's rates keep the bounds. -/
theorem Bounded.finalizeAll (h : Bounded s.stored) (deltaMs : ℚ) :
    Bounded (s.finalizeAll deltaMs).stored := by
  have hloop : Bounded ((List.finRange n).foldl
      (fun s i => s.finalizeIndex (deltaMs / 1000) i) s).stored := by
    refine List.foldlRecOn (motive := fun t : ResourceState n => Bounded t.stored) _ _ h ?_
    intro t ht i _
    obtain ⟨amount, hsettle⟩ := t.settleIndex_stored (deltaMs / 1000) i
    rw [finalizeIndex_stored, hsettle]
    exact ht.update (clampAmount_bounded (ht i) amount)
  exact hloop

/-- The bounds hold after any operation but an unclamped write. -/
theorem Bounded.call (h : Bounded s.stored) {c : ResourceCall n}
    (hc : ∀ m, c = .mutate m → m.Clamped) : Bounded (s.call c).stored := by
  cases c with
  | mutate m => exact h.mutate (hc m rfl)
  | finalizeTick deltaMs =>
    rw [ResourceState.call, finalizeTick]
    split
    · exact h
    · split
      · exact h
      · exact h.finalizeAll _
  | resetPerTickAccumulators =>
    rw [ResourceState.call, resetPerTickAccumulators]
    split
    · exact h
    · exact h
  | clearDirtyScratch => exact h
  | forceClearDirtyState => exact h

/-! ### New stores -/

variable {precision : Precision}

theorem sanitizeDefinition_bounded {definition : ResourceDefinition} {row : ResourceRow}
    (h : sanitizeDefinition precision definition = .ok row) :
    row.stored.Bounded := by
  unfold sanitizeDefinition at h
  split at h
  · cases h
  · split at h
    · cases h
    · next capacity hcapacity =>
      obtain rfl := Except.ok.inj h
      exact ⟨clampToCapacity_nonneg (le_max_right _ _) (parseCapacity_nonneg hcapacity),
        clampToCapacity_le_capacity _ capacity⟩

theorem bounded_createResourceState {definitions : Fin n → ResourceDefinition}
    (h : createResourceState definitions precision = .ok s) :
    Bounded s.stored := by
  obtain ⟨rows, rfl, hrows⟩ := createResourceState_eq h
  exact fun i => sanitizeDefinition_bounded (hrows i)

end IdleEngine
