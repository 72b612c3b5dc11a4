import IdleEngine.Resource.State

/-!
# The operations of the resource store

Every operation checks its arguments first and throws before it writes anything, so an operation
that throws leaves the store as it is. The direct writes, which only prestige and restore code
may use, skip the clamping and the tick delta but not the dirty tracking.
-/

namespace IdleEngine

namespace ResourceState

variable {n : ℕ} (s : ResourceState n)

/-- `accumulateTickDelta`: a sum that is zero within tolerance, without the override's floor, is
stored as zero. -/
def accumulateTickDelta (index : Fin n) (delta : ℚ) : ResourceState n :=
  if delta = 0 then s
  else
    let next := (s.live index).tickDelta + delta
    let resolved :=
      if s.precision.epsilonEquals next 0 (s.live index).dirtyTolerance false then 0 else next
    s.writeField RowField.tickDelta index resolved

/-- `setCapacity` with a valid capacity; an amount above it is clamped. -/
def setCapacityTo (index : Fin n) (nextCapacity : WithTop ℚ) : ResourceState n :=
  let s := s.writeField RowField.capacity index nextCapacity
  let currentAmount := (s.live index).amount
  if nextCapacity < (currentAmount : WithTop ℚ) then
    let clampedAmount := clampToCapacity currentAmount nextCapacity
    (s.writeField RowField.amount index clampedAmount).accumulateTickDelta index
      (clampedAmount - currentAmount)
  else s

/-- `setCapacity`: the capacity that is stored. -/
def setCapacity (index : Fin n) (rawCapacity : JsNumber) :
    Except String (WithTop ℚ × ResourceState n) :=
  match parseCapacity rawCapacity with
  | none => .error "Capacity must be a finite, non-negative number or Infinity."
  | some capacity =>
      let s := s.setCapacityTo index capacity
      .ok ((s.live index).capacity, s)

/-- `setDirtyTolerance`: the tolerance that is stored. -/
def setDirtyTolerance (index : Fin n) (dirtyTolerance : JsNumber) : ℚ × ResourceState n :=
  let nextTolerance := s.precision.clampDirtyTolerance dirtyTolerance
  if (s.live index).dirtyTolerance = nextTolerance then (nextTolerance, s)
  else
    (nextTolerance,
      (s.setLive index { s.live index with dirtyTolerance := nextTolerance }).markDirty index)

/-- `addAmount` of a positive amount: what was added. -/
def addPositive (index : Fin n) (amount : ℚ) : ℚ × ResourceState n :=
  let previousAmount := (s.live index).amount
  let clampedAmount := clampToCapacity (previousAmount + amount) (s.live index).capacity
  let appliedDelta := clampedAmount - previousAmount
  if appliedDelta = 0 then (0, s)
  else
    (appliedDelta,
      (s.writeField RowField.amount index clampedAmount).accumulateTickDelta index appliedDelta)

/-- `addAmount`: what was added. -/
def addAmount (index : Fin n) (amount : JsNumber) : Except String (ℚ × ResourceState n) :=
  match amount.finite? with
  | none => .error "addAmount requires a finite input."
  | some amount =>
      if amount < 0 then .error "addAmount cannot receive a negative value."
      else if amount = 0 then .ok (0, s)
      else .ok (s.addPositive index amount)

/-- `spendAmount`: whether the amount was there to spend. -/
def spendAmount (index : Fin n) (amount : JsNumber) : Except String (Bool × ResourceState n) :=
  match amount.finite? with
  | none => .error "spendAmount requires a finite input."
  | some amount =>
      if amount < 0 then .error "spendAmount cannot receive a negative value."
      else if amount = 0 then .ok (true, s)
      else if (s.live index).amount < amount then .ok (false, s)
      else
        .ok (true,
          (s.writeField RowField.amount index ((s.live index).amount - amount)).accumulateTickDelta
            index (-amount))

/-- Write an amount without clamping it. -/
def putAmount (index : Fin n) (amount : ℚ) : ResourceState n :=
  s.writeField RowField.amount index amount

/-- `writeAmountDirect`. -/
def writeAmountDirect (index : Fin n) (amount : JsNumber) : Except String (ResourceState n) :=
  match amount.finite? with
  | none => .error "writeAmountDirect requires a finite amount."
  | some amount => .ok (s.putAmount index amount)

/-- `setFlagField` with `FLAG_UNLOCKED`. -/
def setUnlockedFlag (index : Fin n) (unlocked : Bool) : ResourceState n :=
  s.writeField RowField.flags index { (s.live index).flags with unlocked }

/-- `setFlagField` with `FLAG_VISIBLE`. -/
def setVisibleFlag (index : Fin n) (visible : Bool) : ResourceState n :=
  s.writeField RowField.flags index { (s.live index).flags with visible }

/-- `unlock`. -/
def unlock (index : Fin n) : ResourceState n := s.setUnlockedFlag index true

/-- `grantVisibility`. -/
def grantVisibility (index : Fin n) : ResourceState n := s.setVisibleFlag index true

/-- The net rate, written after one of its parts. -/
def writeNet (index : Fin n) : ResourceState n :=
  s.writeField RowField.netPerSecond index
    ((s.live index).incomePerSecond - (s.live index).expensePerSecond)

/-- `applyRate` for one of the two rates; the message names it. -/
def applyRate (field : RowField ℚ) (fieldName : String) (index : Fin n)
    (amountPerSecond : JsNumber) : Except String (ResourceState n) :=
  match amountPerSecond.finite? with
  | none => .error (fieldName ++ " amount must be a finite, non-negative value.")
  | some amountPerSecond =>
      if amountPerSecond < 0 then
        .error (fieldName ++ " amount must be a finite, non-negative value.")
      else if amountPerSecond = 0 then .ok s
      else
        .ok ((s.writeField field index (field.get (s.live index) + amountPerSecond)).writeNet index)

/-- `applyIncome`. -/
def applyIncome (index : Fin n) (amountPerSecond : JsNumber) : Except String (ResourceState n) :=
  s.applyRate RowField.incomePerSecond "income" index amountPerSecond

/-- `applyExpense`. -/
def applyExpense (index : Fin n) (amountPerSecond : JsNumber) : Except String (ResourceState n) :=
  s.applyRate RowField.expensePerSecond "expense" index amountPerSecond

/-- `clampAmount`. -/
def clampAmount (amount : ℚ) (capacity : WithTop ℚ) : ℚ :=
  if amount < 0 then 0 else clampToCapacity amount capacity

/-- The rates of a live row agree with the published ones. -/
def ratesClose (p : Precision) (live source : ResourceRow) : Bool :=
  RowField.incomePerSecond.closeIn p live source &&
    RowField.expensePerSecond.closeIn p live source &&
    RowField.netPerSecond.closeIn p live source

/-- Settle the rates of one resource into its amount and its net rate. -/
def settleIndex (deltaSeconds : ℚ) (index : Fin n) : ResourceState n :=
  let row := s.live index
  let proposedDelta := row.incomePerSecond * deltaSeconds - row.expensePerSecond * deltaSeconds
  let nextAmount := clampAmount (row.amount + proposedDelta) row.capacity
  ((s.writeField RowField.amount index nextAmount).accumulateTickDelta index
    (nextAmount - row.amount)).writeField RowField.netPerSecond index
      (row.incomePerSecond - row.expensePerSecond)

/-- `finalizeTick` for one resource: settle it, then mark its index when the rates are not the
published ones. -/
def finalizeIndex (deltaSeconds : ℚ) (index : Fin n) : ResourceState n :=
  let s := s.settleIndex deltaSeconds index
  if ratesClose s.precision (s.live index) (s.active.rows index) then s else s.markDirty index

/-- `finalizeTick` for a valid length of time. -/
def finalizeAll (deltaMs : ℚ) : ResourceState n :=
  { (List.finRange n).foldl (fun s index => s.finalizeIndex (deltaMs / 1000) index) s with
    publishGuardState := .finalized }

/-- `finalizeTick`. -/
def finalizeTick (deltaMs : JsNumber) : Except String (ResourceState n) :=
  match deltaMs.finite? with
  | none => .error "finalizeTick requires a finite, non-negative deltaMs."
  | some deltaMs =>
      if deltaMs < 0 then .error "finalizeTick requires a finite, non-negative deltaMs."
      else .ok (s.finalizeAll deltaMs)

/-- The live rows with their rates and tick deltas zeroed. -/
def zeroRates : ResourceState n :=
  { s with
    live := fun index =>
      { s.live index with
        incomePerSecond := 0, expensePerSecond := 0, netPerSecond := 0, tickDelta := 0 } }

/-- `resetPerTickAccumulators`: only right after a publish. -/
def resetPerTickAccumulators : Except String (ResourceState n) :=
  if s.publishGuardState = .published then
    .ok { s.zeroRates with publishGuardState := .idle }
  else .error "resetPerTickAccumulators requires a publish snapshot before clearing."

/-- `clearDirtyScratch`. -/
def clearDirtyScratch : ResourceState n :=
  { s with
    live := fun index => { s.live index with flags := (s.live index).flags.clearDirty }
    dirtyIndexScratch := SparseSet.empty }

/-- `forceClearDirtyState`. -/
def forceClearDirtyState : ResourceState n :=
  { s.clearDirtyScratch.zeroRates with publishGuardState := .idle }

end ResourceState

/-! ### Sequences of operations -/

/-- A change to one resource. -/
inductive ResourceMutation (n : ℕ)
  | addAmount (index : Fin n) (amount : JsNumber)
  | spendAmount (index : Fin n) (amount : JsNumber)
  | setCapacity (index : Fin n) (capacity : JsNumber)
  | setDirtyTolerance (index : Fin n) (dirtyTolerance : JsNumber)
  | unlock (index : Fin n)
  | grantVisibility (index : Fin n)
  | applyIncome (index : Fin n) (amountPerSecond : JsNumber)
  | applyExpense (index : Fin n) (amountPerSecond : JsNumber)
  | writeAmountDirect (index : Fin n) (amount : JsNumber)
  | writeUnlockedDirect (index : Fin n) (unlocked : Bool)
  | writeVisibleDirect (index : Fin n) (visible : Bool)

/-- Any operation on the store between two publishes. -/
inductive ResourceCall (n : ℕ)
  | mutate (mutation : ResourceMutation n)
  | finalizeTick (deltaMs : JsNumber)
  | resetPerTickAccumulators
  | clearDirtyScratch
  | forceClearDirtyState

namespace ResourceState

variable {n : ℕ}

/-- The state after an operation that may throw. -/
def after {α : Type} (s : ResourceState n) (result : Except String (α × ResourceState n)) :
    ResourceState n :=
  match result with
  | .ok (_, s') => s'
  | .error _ => s

/-- The state after an operation that returns nothing and may throw. -/
def afterUnit (s : ResourceState n) (result : Except String (ResourceState n)) :
    ResourceState n :=
  match result with
  | .ok s' => s'
  | .error _ => s

/-- The store after a mutation. -/
def mutate (s : ResourceState n) : ResourceMutation n → ResourceState n
  | .addAmount index amount => s.after (s.addAmount index amount)
  | .spendAmount index amount => s.after (s.spendAmount index amount)
  | .setCapacity index capacity => s.after (s.setCapacity index capacity)
  | .setDirtyTolerance index dirtyTolerance => (s.setDirtyTolerance index dirtyTolerance).2
  | .unlock index => s.unlock index
  | .grantVisibility index => s.grantVisibility index
  | .applyIncome index amountPerSecond => s.afterUnit (s.applyIncome index amountPerSecond)
  | .applyExpense index amountPerSecond => s.afterUnit (s.applyExpense index amountPerSecond)
  | .writeAmountDirect index amount => s.afterUnit (s.writeAmountDirect index amount)
  | .writeUnlockedDirect index unlocked => s.setUnlockedFlag index unlocked
  | .writeVisibleDirect index visible => s.setVisibleFlag index visible

/-- The store after any operation. -/
def call (s : ResourceState n) : ResourceCall n → ResourceState n
  | .mutate mutation => s.mutate mutation
  | .finalizeTick deltaMs => s.afterUnit (s.finalizeTick deltaMs)
  | .resetPerTickAccumulators => s.afterUnit s.resetPerTickAccumulators
  | .clearDirtyScratch => s.clearDirtyScratch
  | .forceClearDirtyState => s.forceClearDirtyState

end ResourceState

end IdleEngine
