import IdleEngine.Resource.Stored
import IdleEngine.Resource.Tick

/-!
# Rates and their settlement

Besides the records, the store keeps an income and an expense per second. Recording a rate adds
to it, and `finalizeTick` settles both rates of every resource into its amount without clearing
them: `finalizeAll_rated` says what it leaves, resource by resource.
-/

namespace IdleEngine

variable {n : ℕ}

/-- A record with its rates. -/
structure RatedResource where
  stored : StoredResource
  incomePerSecond : ℚ
  expensePerSecond : ℚ
  deriving DecidableEq

def ResourceRow.rated (row : ResourceRow) : RatedResource :=
  { stored := row.stored
    incomePerSecond := row.incomePerSecond
    expensePerSecond := row.expensePerSecond }

def ratedReading : RowReading RatedResource where
  read := ResourceRow.rated
  read_dirty _ _ := rfl

namespace RatedResource

/-- What the rates are worth over a length of time. -/
def net (r : RatedResource) (deltaSeconds : ℚ) : ℚ :=
  r.incomePerSecond * deltaSeconds - r.expensePerSecond * deltaSeconds

/-- The rates settled into the amount. -/
def settle (deltaSeconds : ℚ) (r : RatedResource) : RatedResource :=
  { r with
    stored :=
      { r.stored with
        amount := ResourceState.clampAmount (r.stored.amount + r.net deltaSeconds)
          r.stored.capacity } }

end RatedResource

namespace ResourceState

/-- The records of a store with their rates. -/
def rated (s : ResourceState n) (i : Fin n) : RatedResource := (s.live i).rated

variable (s : ResourceState n)

theorem writeAmount_rated (i : Fin n) (amount : ℚ) :
    (s.writeField RowField.amount i amount).rated =
      Function.update s.rated i
        { s.rated i with stored := { s.stored i with amount } } :=
  s.writeField_readings ratedReading RowField.amount (fun _ => rfl) i amount

theorem accumulateTickDelta_rated (i : Fin n) (delta : ℚ) :
    (s.accumulateTickDelta i delta).rated = s.rated := by
  rw [accumulateTickDelta]
  split
  · rfl
  · exact s.writeOther_readings ratedReading RowField.tickDelta (fun _ => rfl) (fun _ _ => rfl) i _

theorem writeNetPerSecond_rated (i : Fin n) (v : ℚ) :
    (s.writeField RowField.netPerSecond i v).rated = s.rated :=
  s.writeOther_readings ratedReading RowField.netPerSecond (fun _ => rfl) (fun _ _ => rfl) i v

/-- Recording a positive rate. -/
theorem applyRate_rated {field : RowField ℚ} (hfield : ∀ row, field.set (field.get row) row = row)
    (fieldName : String) (i : Fin n) {amountPerSecond : ℚ} (h : 0 < amountPerSecond) :
    (s.afterUnit (s.applyRate field fieldName i (.fin amountPerSecond))).rated =
      Function.update s.rated i
        (field.set (field.get (s.live i) + amountPerSecond) (s.live i)).rated := by
  rw [applyRate]
  simp only [JsNumber.finite?]
  rw [if_neg (not_lt.mpr h.le), if_neg h.ne', afterUnit, writeNet, writeNetPerSecond_rated]
  exact s.writeField_readings ratedReading field hfield i _

/-! ### Settlement -/

theorem settleIndex_rated (deltaSeconds : ℚ) (i : Fin n) :
    (s.settleIndex deltaSeconds i).rated =
      Function.update s.rated i ((s.rated i).settle deltaSeconds) := by
  rw [settleIndex, writeNetPerSecond_rated, accumulateTickDelta_rated, writeAmount_rated]
  rfl

theorem finalizeIndex_rated (deltaSeconds : ℚ) (i : Fin n) :
    (s.finalizeIndex deltaSeconds i).rated =
      Function.update s.rated i ((s.rated i).settle deltaSeconds) := by
  rw [finalizeIndex, ← settleIndex_rated]
  split
  · rfl
  · exact markDirty_readings ratedReading _ i

/-- **Settlement.** Every resource is settled once. -/
theorem finalizeAll_rated (deltaMs : ℚ) (i : Fin n) :
    (s.finalizeAll deltaMs).rated i = (s.rated i).settle (deltaMs / 1000) := by
  have hrow : (List.finRange n).filter (fun j => decide (j = i)) = [i] := by
    rw [List.filter_eq, List.count_eq_one_of_mem (List.nodup_finRange n) (List.mem_finRange i)]
    rfl
  refine Overwrite.foldl_view_once (I := fun _ => True) (v := fun t : ResourceState n => t.rated i)
    (g := RatedResource.settle (deltaMs / 1000)) hrow (fun _ _ _ _ => trivial)
    (fun t _ j _ hj => ?_) (fun t _ => ?_) trivial
  · rw [finalizeIndex_rated, Function.update_of_ne]
    rintro rfl
    simp at hj
  · rw [finalizeIndex_rated, Function.update_self]

theorem finalizeAll_ids (deltaMs : ℚ) :
    (s.finalizeAll deltaMs).ids = s.ids := by
  refine List.foldlRecOn (motive := fun t : ResourceState n => t.ids = s.ids)
    (List.finRange n) _ rfl fun t ht i _ => ?_
  exact ((finalizeIndex_writes (A := fun _ _ _ => True) t (deltaMs / 1000) i).ids).trans ht

theorem clampAmount_of_bounded {r : StoredResource} (h : r.Bounded) :
    clampAmount r.amount r.capacity = r.amount := by
  rw [clampAmount, if_neg (not_lt.mpr h.nonneg), clampToCapacity_of_le h.le_capacity]

end ResourceState

theorem afterPublish_stored (s : ResourceState n) : (afterPublish s).stored = s.stored :=
  s.createPublishSnapshot_stored

end IdleEngine
