import Mathlib.Logic.Relation
import IdleEngine.Resource.Publish

/-!
# What an operation on the store can do

Every operation between two publishes is a sequence of elementary writes: one field of one live
row is changed and its index reconciled with the active buffer, or an index is marked dirty.
`Write` lists them. The invariants of the store are proved for one write (`Write.frame`,
`Write.local`) and carried to whole operations by induction on the sequence.

`A` restricts the flag writes a sequence may contain.
-/

namespace IdleEngine

open Relation ResourceState Function

variable {n : ℕ}

/-- The fields that hold a finite number. -/
def numberFields : List (RowField ℚ) :=
  [RowField.amount, RowField.incomePerSecond, RowField.expensePerSecond, RowField.netPerSecond,
    RowField.tickDelta]

/-- An elementary write at an index. -/
inductive Write (A : ResourceState n → Fin n → ResourceFlags → Prop) (i : Fin n) :
    ResourceState n → ResourceState n → Prop
  | number (s : ResourceState n) (field : RowField ℚ) (hfield : field ∈ numberFields) (v : ℚ) :
      Write A i s (s.writeField field i v)
  | capacity (s : ResourceState n) (v : WithTop ℚ) :
      Write A i s (s.writeField RowField.capacity i v)
  | flags (s : ResourceState n) (flags : ResourceFlags)
      (hdirty : flags.dirtyThisTick = (s.live i).flags.dirtyThisTick) (hok : A s i flags) :
      Write A i s (s.writeField RowField.flags i flags)
  | tolerance (s : ResourceState n) (t : ℚ) (ht : t ≤ s.precision.dirtyEpsilonOverrideMax) :
      Write A i s ((s.setLive i { s.live i with dirtyTolerance := t }).markDirty i)
  | mark (s : ResourceState n) : Write A i s (s.markDirty i)

/-- A sequence of writes at one index. -/
abbrev WritesAt (A : ResourceState n → Fin n → ResourceFlags → Prop) (i : Fin n) :
    ResourceState n → ResourceState n → Prop :=
  ReflTransGen (Write A i)

/-- What no write touches. -/
structure SameFrame (s s' : ResourceState n) : Prop where
  ids : s'.ids = s.ids
  precision : s'.precision = s.precision
  publish : s'.publish = s.publish
  activePublishIndex : s'.activePublishIndex = s.activePublishIndex

theorem SameFrame.refl (s : ResourceState n) : SameFrame s s := ⟨rfl, rfl, rfl, rfl⟩

theorem SameFrame.trans {s₁ s₂ s₃ : ResourceState n} (h₁ : SameFrame s₁ s₂)
    (h₂ : SameFrame s₂ s₃) : SameFrame s₁ s₃ :=
  ⟨h₂.ids.trans h₁.ids, h₂.precision.trans h₁.precision, h₂.publish.trans h₁.publish,
    h₂.activePublishIndex.trans h₁.activePublishIndex⟩

variable {s s' : ResourceState n}

theorem SameFrame.active (h : SameFrame s s') : s'.active = s.active := by
  rw [ResourceState.active, ResourceState.active, h.publish, h.activePublishIndex]

theorem SameFrame.standby (h : SameFrame s s') :
    s'.standby = s.standby := by
  rw [ResourceState.standby, ResourceState.standby, h.publish, h.activePublishIndex]

/-- A write at `i` concerns no other index. -/
structure Local (i : Fin n) (s s' : ResourceState n) : Prop where
  live : ∀ j, j ≠ i → s'.live j = s.live j
  scratch : ∀ j, j ≠ i → (j ∈ s'.dirtyIndexScratch.dense ↔ j ∈ s.dirtyIndexScratch.dense)

theorem Local.refl (i : Fin n) (s : ResourceState n) : Local i s s :=
  ⟨fun _ _ => rfl, fun _ _ => Iff.rfl⟩

theorem Local.trans {i : Fin n} {s₁ s₂ s₃ : ResourceState n} (h₁ : Local i s₁ s₂)
    (h₂ : Local i s₂ s₃) : Local i s₁ s₃ :=
  ⟨fun j hj => (h₂.live j hj).trans (h₁.live j hj),
    fun j hj => (h₂.scratch j hj).trans (h₁.scratch j hj)⟩

/-- The effect of one elementary step: the frame, the other indices, and the scratch. -/
structure Steps (i : Fin n) (s s' : ResourceState n) : Prop where
  frame : SameFrame s s'
  other : Local i s s'
  scratched : s'.Scratched

namespace ResourceState

variable {s : ResourceState n}

theorem setLive_steps (hs : s.Scratched) {i : Fin n} {row : ResourceRow}
    (hdirty : row.flags.dirtyThisTick = (s.live i).flags.dirtyThisTick) :
    Steps i s (s.setLive i row) where
  frame := ⟨rfl, rfl, rfl, rfl⟩
  other := ⟨fun j hj => update_of_ne hj _ _, fun _ _ => Iff.rfl⟩
  scratched :=
    { valid := hs.valid
      dirty_iff := by
        intro j
        by_cases hj : j = i
        · subst hj
          simp only [setLive, update_self, hdirty]
          exact hs.dirty_iff j
        · simp only [setLive, update_of_ne hj]
          exact hs.dirty_iff j }

theorem markDirty_mem (hs : s.Scratched) (i : Fin n) :
    i ∈ (s.markDirty i).dirtyIndexScratch.dense :=
  hs.valid.mem_insert.mpr (.inr rfl)

theorem markDirty_steps (hs : s.Scratched) (i : Fin n) :
    Steps i s (s.markDirty i) where
  frame := ⟨rfl, rfl, rfl, rfl⟩
  other := by
    refine ⟨fun j hj => update_of_ne hj _ _, fun j hj => ?_⟩
    exact hs.valid.mem_insert.trans (or_iff_left hj)
  scratched :=
    { valid := hs.valid.insert i
      dirty_iff := by
        intro j
        refine Iff.trans ?_ hs.valid.mem_insert.symm
        by_cases hj : j = i
        · subst hj
          simp [markDirty, setDirtyBit, setLive]
        · simp only [markDirty, setDirtyBit, setLive, update_of_ne hj, hj, or_false]
          exact hs.dirty_iff j }

theorem unmark_steps (hs : s.Scratched) (i : Fin n) :
    Steps i s
      { s.setDirtyBit i false with dirtyIndexScratch := s.dirtyIndexScratch.erase i } where
  frame := ⟨rfl, rfl, rfl, rfl⟩
  other := by
    refine ⟨fun j hj => update_of_ne hj _ _, fun j hj => ?_⟩
    exact hs.valid.mem_erase.trans (and_iff_left hj)
  scratched :=
    { valid := hs.valid.erase i
      dirty_iff := by
        intro j
        refine Iff.trans ?_ hs.valid.mem_erase.symm
        by_cases hj : j = i
        · subst hj
          simp [setDirtyBit, setLive]
        · simp only [setDirtyBit, setLive, update_of_ne hj, hj, ne_eq, not_false_eq_true,
            and_true]
          exact hs.dirty_iff j }

/-- What a write to a field can do: nothing, when the value is the same; else the row changes
and its index is marked, taken out because the whole row is clean, or left where it is because
the field at least is close. -/
theorem writeField_cases {V : Type} [DecidableEq V] (s : ResourceState n) (field : RowField V)
    (i : Fin n) (v : V) :
    let t := s.setLive i (field.set v (s.live i))
    s.writeField field i v = s ∨
      s.writeField field i v = t.markDirty i ∨
      (t.isIndexClean i = true ∧ s.writeField field i v =
        { t.setDirtyBit i false with dirtyIndexScratch := t.dirtyIndexScratch.erase i }) ∨
      (field.closeIn t.precision (t.live i) (t.active.rows i) = true ∧
        s.writeField field i v = t) := by
  intro t
  rw [writeField]
  by_cases hsame : field.get (s.live i) = v
  · exact .inl (if_pos hsame)
  · rw [if_neg hsame, reconcileDirtyState]
    by_cases hclose : field.closeIn t.precision (t.live i) (t.active.rows i) = true
    · rw [if_pos hclose, unmarkIfClean]
      by_cases hclean : t.isIndexClean i = true
      · exact .inr (.inr (.inl ⟨hclean, if_pos hclean⟩))
      · exact .inr (.inr (.inr ⟨hclose, if_neg hclean⟩))
    · exact .inr (.inl (if_neg hclose))

theorem writeField_steps {V : Type} [DecidableEq V] (hs : s.Scratched) (field : RowField V)
    (i : Fin n) (v : V)
    (hdirty : (field.set v (s.live i)).flags.dirtyThisTick = (s.live i).flags.dirtyThisTick) :
    Steps i s (s.writeField field i v) := by
  have hset := setLive_steps hs hdirty
  rcases s.writeField_cases field i v with h | h | ⟨-, h⟩ | ⟨-, h⟩
  · rw [h]
    exact ⟨SameFrame.refl s, Local.refl i s, hs⟩
  · rw [h]
    have hmark := markDirty_steps hset.scratched i
    exact ⟨hset.frame.trans hmark.frame, hset.other.trans hmark.other, hmark.scratched⟩
  · rw [h]
    have hunmark := unmark_steps hset.scratched i
    exact ⟨hset.frame.trans hunmark.frame, hset.other.trans hunmark.other, hunmark.scratched⟩
  · rw [h]
    exact hset

end ResourceState

variable {A : ResourceState n → Fin n → ResourceFlags → Prop} {i : Fin n}

theorem numberFields_flags {field : RowField ℚ} (h : field ∈ numberFields) (v : ℚ)
    (row : ResourceRow) : (field.set v row).flags = row.flags := by
  simp only [numberFields, List.mem_cons, List.not_mem_nil, or_false] at h
  rcases h with rfl | rfl | rfl | rfl | rfl <;> rfl

/-- **Step lemma.** One write keeps the frame, the other indices and a well-formed scratch. -/
theorem Write.steps (h : Write A i s s') (hs : s.Scratched) :
    Steps i s s' := by
  cases h with
  | number field hfield v =>
    exact writeField_steps hs field i v
      (congrArg ResourceFlags.dirtyThisTick (numberFields_flags hfield v _))
  | capacity v => exact writeField_steps hs RowField.capacity i v rfl
  | flags flags hdirty hok => exact writeField_steps hs RowField.flags i flags hdirty
  | tolerance t ht =>
    have hset : Steps i s (s.setLive i { s.live i with dirtyTolerance := t }) :=
      setLive_steps hs rfl
    have hmark := markDirty_steps hset.scratched i
    exact ⟨hset.frame.trans hmark.frame, hset.other.trans hmark.other, hmark.scratched⟩
  | mark => exact markDirty_steps hs i

theorem WritesAt.steps (h : WritesAt A i s s') (hs : s.Scratched) :
    Steps i s s' := by
  induction h with
  | refl => exact ⟨SameFrame.refl s, Local.refl i s, hs⟩
  | tail _ hwrite ih =>
    have hstep := hwrite.steps ih.scratched
    exact ⟨ih.frame.trans hstep.frame, ih.other.trans hstep.other, hstep.scratched⟩

/-! ### Operations as sequences of writes -/

namespace ResourceState

theorem accumulateTickDelta_writes (s : ResourceState n) (i : Fin n) (delta : ℚ) :
    WritesAt A i s (s.accumulateTickDelta i delta) := by
  rw [accumulateTickDelta]
  split
  · exact .refl
  · exact .single (Write.number s _ (by simp [numberFields]) _)

theorem writeAmount_writes (s : ResourceState n) (i : Fin n) (v : ℚ) :
    WritesAt A i s (s.writeField RowField.amount i v) :=
  ReflTransGen.single (Write.number s _ (by simp [numberFields]) v)

theorem setCapacityTo_writes (s : ResourceState n) (i : Fin n) (capacity : WithTop ℚ) :
    WritesAt A i s (s.setCapacityTo i capacity) := by
  have hcapacity : WritesAt A i s (s.writeField RowField.capacity i capacity) :=
    ReflTransGen.single (Write.capacity s capacity)
  rw [setCapacityTo]
  split
  · exact (hcapacity.trans (writeAmount_writes _ i _)).trans (accumulateTickDelta_writes _ i _)
  · exact hcapacity

theorem setDirtyTolerance_writes (s : ResourceState n) (i : Fin n) (dirtyTolerance : JsNumber) :
    WritesAt A i s (s.setDirtyTolerance i dirtyTolerance).2 := by
  rw [setDirtyTolerance]
  split
  · exact .refl
  · exact .single (Write.tolerance s _ (s.precision.clampDirtyTolerance_le _))

theorem addPositive_writes (s : ResourceState n) (i : Fin n) (amount : ℚ) :
    WritesAt A i s (s.addPositive i amount).2 := by
  simp only [addPositive]
  split
  · exact .refl
  · exact (writeAmount_writes s i _).trans (accumulateTickDelta_writes _ i _)

theorem addAmount_writes (s : ResourceState n) (i : Fin n) (amount : JsNumber) :
    WritesAt A i s (s.after (s.addAmount i amount)) := by
  unfold addAmount
  split
  · exact .refl
  · split
    · exact .refl
    · split
      · exact .refl
      · exact addPositive_writes s i _

theorem spendAmount_writes (s : ResourceState n) (i : Fin n) (amount : JsNumber) :
    WritesAt A i s (s.after (s.spendAmount i amount)) := by
  unfold spendAmount
  split
  · exact .refl
  · split
    · exact .refl
    · split
      · exact .refl
      · split
        · exact .refl
        · exact (writeAmount_writes s i _).trans (accumulateTickDelta_writes _ i _)

theorem setCapacity_writes (s : ResourceState n) (i : Fin n) (capacity : JsNumber) :
    WritesAt A i s (s.after (s.setCapacity i capacity)) := by
  unfold setCapacity
  split
  · exact .refl
  · exact setCapacityTo_writes s i _

theorem applyRate_writes (s : ResourceState n) {field : RowField ℚ} (hfield : field ∈ numberFields)
    (fieldName : String) (i : Fin n) (amountPerSecond : JsNumber) :
    WritesAt A i s (s.afterUnit (s.applyRate field fieldName i amountPerSecond)) := by
  unfold applyRate
  split
  · exact .refl
  · split
    · exact .refl
    · split
      · exact .refl
      · exact (ReflTransGen.single (Write.number s field hfield _)).tail
          (Write.number _ _ (by simp [numberFields]) _)

theorem writeAmountDirect_writes (s : ResourceState n) (i : Fin n) (amount : JsNumber) :
    WritesAt A i s (s.afterUnit (s.writeAmountDirect i amount)) := by
  unfold writeAmountDirect
  split
  · exact .refl
  · exact writeAmount_writes s i _

end ResourceState

/-- The index a mutation is about. -/
def ResourceMutation.index : ResourceMutation n → Fin n
  | .addAmount index _ | .spendAmount index _ | .setCapacity index _ | .setDirtyTolerance index _
  | .unlock index | .grantVisibility index | .applyIncome index _ | .applyExpense index _
  | .writeAmountDirect index _ | .writeUnlockedDirect index _ | .writeVisibleDirect index _ => index

/-- The flags a mutation writes, if it writes flags. -/
def ResourceMutation.flags? (s : ResourceState n) : ResourceMutation n → Option ResourceFlags
  | .unlock index => some { (s.live index).flags with unlocked := true }
  | .grantVisibility index => some { (s.live index).flags with visible := true }
  | .writeUnlockedDirect index unlocked => some { (s.live index).flags with unlocked }
  | .writeVisibleDirect index visible => some { (s.live index).flags with visible }
  | _ => none

theorem mutate_writes (s : ResourceState n) (m : ResourceMutation n)
    (hok : ∀ flags, m.flags? s = some flags → A s m.index flags) :
    WritesAt A m.index s (s.mutate m) := by
  cases m with
  | addAmount index amount => exact s.addAmount_writes index amount
  | spendAmount index amount => exact s.spendAmount_writes index amount
  | setCapacity index capacity => exact s.setCapacity_writes index capacity
  | setDirtyTolerance index dirtyTolerance => exact s.setDirtyTolerance_writes index dirtyTolerance
  | unlock index => exact .single (Write.flags s _ rfl (hok _ rfl))
  | grantVisibility index => exact .single (Write.flags s _ rfl (hok _ rfl))
  | applyIncome index amountPerSecond =>
    exact s.applyRate_writes (by simp [numberFields]) _ index amountPerSecond
  | applyExpense index amountPerSecond =>
    exact s.applyRate_writes (by simp [numberFields]) _ index amountPerSecond
  | writeAmountDirect index amount => exact s.writeAmountDirect_writes index amount
  | writeUnlockedDirect index unlocked =>
    exact .single (Write.flags s _ rfl (hok _ rfl))
  | writeVisibleDirect index visible =>
    exact .single (Write.flags s _ rfl (hok _ rfl))

/-- So is the finalization of one resource, before its rates are compared. -/
theorem settleIndex_writes (s : ResourceState n) (deltaSeconds : ℚ) (i : Fin n) :
    WritesAt A i s (s.settleIndex deltaSeconds i) :=
  ((s.writeAmount_writes i _).trans (accumulateTickDelta_writes _ i _)).tail
    (Write.number _ _ (by simp [numberFields]) _)

theorem finalizeIndex_writes (s : ResourceState n) (deltaSeconds : ℚ) (i : Fin n) :
    WritesAt A i s (s.finalizeIndex deltaSeconds i) := by
  have hsettle : WritesAt A i s (s.settleIndex deltaSeconds i) := settleIndex_writes s _ i
  simp only [ResourceState.finalizeIndex]
  split
  · exact hsettle
  · exact hsettle.tail (Write.mark _)

/-! ### The ids -/

theorem ResourceState.writeField_ids {V : Type} [DecidableEq V] (s : ResourceState n)
    (field : RowField V) (i : Fin n) (v : V) : (s.writeField field i v).ids = s.ids := by
  rcases s.writeField_cases field i v with h | h | ⟨-, h⟩ | ⟨-, h⟩ <;> rw [h] <;> rfl

theorem WritesAt.ids (h : WritesAt A i s s') : s'.ids = s.ids := by
  induction h with
  | refl => rfl
  | tail _ hwrite ih =>
    rw [← ih]
    cases hwrite with
    | number field _ v => exact writeField_ids _ field i v
    | capacity v => exact writeField_ids _ _ i v
    | flags flags _ _ => exact writeField_ids _ _ i flags
    | tolerance t _ => rfl
    | mark => rfl

end IdleEngine
