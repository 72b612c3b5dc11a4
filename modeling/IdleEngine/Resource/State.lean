import Mathlib.Data.List.FinRange
import IdleEngine.Lib.Overwrite
import IdleEngine.Lib.SparseSet
import IdleEngine.Resource.Epsilon

/-!
# The resource store

The store keeps one live row per resource and two publish buffers of which one is active: the
last published rows. Indices whose live row may differ from the active one stand in the dirty
scratch. Every write compares the new value with the active row and then marks its index dirty
or, when the whole row agrees again, takes it out of the scratch.
-/

namespace IdleEngine

/-- The flag bits of a resource: `FLAG_VISIBLE`, `FLAG_UNLOCKED`, `FLAG_DIRTY_THIS_TICK`. -/
structure ResourceFlags where
  visible : Bool
  unlocked : Bool
  dirtyThisTick : Bool
  deriving DecidableEq, Repr

/-- The flags without the dirty bit. -/
def ResourceFlags.clearDirty (flags : ResourceFlags) : ResourceFlags :=
  { flags with dirtyThisTick := false }

/-- The number the flags without the dirty bit are: visible is 1, unlocked is 2. -/
def ResourceFlags.value (flags : ResourceFlags) : ℚ :=
  (if flags.visible then 1 else 0) + (if flags.unlocked then 2 else 0)

/-- The fields kept for one resource, live or published. -/
structure ResourceRow where
  amount : ℚ
  capacity : WithTop ℚ
  incomePerSecond : ℚ
  expensePerSecond : ℚ
  netPerSecond : ℚ
  tickDelta : ℚ
  flags : ResourceFlags
  dirtyTolerance : ℚ
  deriving DecidableEq

/-- A publish buffer; the dirty count is the length of the list. -/
structure PublishBuffer (n : ℕ) where
  rows : Fin n → ResourceRow
  dirtyIndices : List (Fin n)

/-- Where the store is in the order finalize, publish, reset. -/
inductive PublishGuardState
  | idle
  | finalized
  | published
  deriving DecidableEq, Repr

/-- The resource store over `n` resources. -/
structure ResourceState (n : ℕ) where
  ids : Fin n → String
  precision : Precision
  live : Fin n → ResourceRow
  publish : Bool → PublishBuffer n
  activePublishIndex : Bool
  dirtyIndexScratch : SparseSet (Fin n)
  publishGuardState : PublishGuardState

/-- A resource definition as content gives it. -/
structure ResourceDefinition where
  id : String
  startAmount : Option JsNumber
  capacity : Option JsNumber
  unlocked : Option Bool
  visible : Option Bool
  dirtyTolerance : Option JsNumber

/-- The least of an amount and a capacity. -/
def clampToCapacity (amount : ℚ) (capacity : WithTop ℚ) : ℚ :=
  match capacity with
  | none => amount
  | some capacity => min amount capacity

theorem coe_clampToCapacity (amount : ℚ) (capacity : WithTop ℚ) :
    ((clampToCapacity amount capacity : ℚ) : WithTop ℚ) = min (amount : WithTop ℚ) capacity := by
  cases capacity with
  | top => exact (min_eq_left le_top).symm
  | coe c => exact WithTop.coe_min amount c

theorem clampToCapacity_le (amount : ℚ) (capacity : WithTop ℚ) :
    clampToCapacity amount capacity ≤ amount := by
  cases capacity with
  | top => exact le_refl _
  | coe c => exact min_le_left _ _

theorem clampToCapacity_le_capacity (amount : ℚ) (capacity : WithTop ℚ) :
    ((clampToCapacity amount capacity : ℚ) : WithTop ℚ) ≤ capacity := by
  rw [coe_clampToCapacity]
  exact min_le_right _ _

theorem clampToCapacity_of_le {amount : ℚ} {capacity : WithTop ℚ}
    (h : (amount : WithTop ℚ) ≤ capacity) : clampToCapacity amount capacity = amount := by
  have hmin := coe_clampToCapacity amount capacity
  rw [min_eq_left h] at hmin
  exact_mod_cast hmin

theorem le_clampToCapacity {amount amount' : ℚ} {capacity : WithTop ℚ} (h : amount ≤ amount')
    (hc : (amount : WithTop ℚ) ≤ capacity) : amount ≤ clampToCapacity amount' capacity := by
  have hmin : (amount : WithTop ℚ) ≤ (clampToCapacity amount' capacity : ℚ) := by
    rw [coe_clampToCapacity]
    exact le_min (by exact_mod_cast h) hc
  exact_mod_cast hmin

theorem clampToCapacity_nonneg {amount : ℚ} {capacity : WithTop ℚ} (ha : 0 ≤ amount)
    (hc : 0 ≤ capacity) : 0 ≤ clampToCapacity amount capacity := by
  cases capacity with
  | top => exact ha
  | coe c => exact le_min ha (by exact_mod_cast hc)

/-- A capacity as callers give it: a number from zero up, or infinity. -/
def parseCapacity : JsNumber → Option (WithTop ℚ)
  | .fin capacity => if capacity < 0 then none else some (capacity : ℚ)
  | .posInf => some ⊤
  | .negInf | .nan => none

theorem parseCapacity_nonneg {raw : JsNumber} {capacity : WithTop ℚ}
    (h : parseCapacity raw = some capacity) : 0 ≤ capacity := by
  cases raw with
  | fin q =>
    simp only [parseCapacity] at h
    split at h
    · cases h
    · next hq =>
      obtain rfl := Option.some.inj h
      exact WithTop.coe_nonneg.mpr (not_lt.mp hq)
  | posInf =>
    obtain rfl := Option.some.inj h
    exact le_top
  | negInf => cases h
  | nan => cases h

/-- One definition of `sanitizeDefinitions`: the initial row, or the error of a start amount or
capacity that is no such number. -/
def sanitizeDefinition (precision : Precision) (definition : ResourceDefinition) :
    Except String ResourceRow :=
  match (definition.startAmount.getD (.fin 0)).finite? with
  | none =>
      .error ("Resource definition \"" ++ definition.id ++ "\" has a non-finite startAmount.")
  | some startAmount =>
      match parseCapacity (definition.capacity.getD .posInf) with
      | none => .error ("Resource definition \"" ++ definition.id ++ "\" has an invalid capacity.")
      | some capacity =>
          .ok
            { amount := clampToCapacity (max startAmount 0) capacity
              capacity
              incomePerSecond := 0
              expensePerSecond := 0
              netPerSecond := 0
              tickDelta := 0
              flags :=
                { visible := definition.visible.getD true
                  unlocked := definition.unlocked.getD true
                  dirtyThisTick := false }
              dirtyTolerance := precision.clampDirtyTolerance
                (definition.dirtyTolerance.getD (.fin precision.dirtyEpsilonCeiling)) }

/-- The error of the first missing or repeated id; `index` counts from the front. -/
def checkIds : List String → ℕ → List String → Option String
  | _, _, [] => none
  | seen, index, id :: ids =>
      if id = "" then some s!"Resource definition at index {index} is missing an id."
      else if seen.contains id then
        some ("Resource definition with id \"" ++ id ++ "\" is duplicated.")
      else checkIds (id :: seen) (index + 1) ids

/-- The row of an index that has no definition. -/
def blankRow : ResourceRow :=
  { amount := 0, capacity := ⊤, incomePerSecond := 0, expensePerSecond := 0, netPerSecond := 0
    tickDelta := 0
    flags := { visible := false, unlocked := false, dirtyThisTick := false }
    dirtyTolerance := 0 }

/-- A store with the given rows live and published in both buffers. -/
def ResourceState.initial {n : ℕ} (ids : Fin n → String) (precision : Precision)
    (rows : Fin n → ResourceRow) : ResourceState n :=
  { ids
    precision
    live := rows
    publish := fun _ => { rows, dirtyIndices := [] }
    activePublishIndex := false
    dirtyIndexScratch := SparseSet.empty
    publishGuardState := .idle }

/-- `createResourceState`. -/
def createResourceState {n : ℕ} (definitions : Fin n → ResourceDefinition)
    (precision : Precision) : Except String (ResourceState n) :=
  match checkIds [] 0 (List.ofFn fun i => (definitions i).id) with
  | some message => .error message
  | none =>
      match (List.ofFn definitions).mapM (sanitizeDefinition precision) with
      | .error message => .error message
      | .ok rows =>
          .ok (ResourceState.initial (fun i => (definitions i).id) precision
            fun i => rows.getD i blankRow)

/-- The index of the definition with an id. -/
def indexOfId {n : ℕ} (ids : Fin n → String) (id : String) : Option (Fin n) :=
  (List.finRange n).find? fun i => ids i == id

theorem indexOfId_eq_some_iff {n : ℕ} {ids : Fin n → String} (hids : Function.Injective ids)
    {id : String} {i : Fin n} : indexOfId ids id = some i ↔ ids i = id := by
  refine ⟨fun h => by simpa using List.find?_some h, fun h => ?_⟩
  cases hfind : indexOfId ids id with
  | none =>
    have hnone := List.find?_eq_none.mp hfind i (List.mem_finRange i)
    exact absurd h (by simpa using hnone)
  | some j =>
    have hj : ids j = id := by simpa using List.find?_some hfind
    rw [hids (hj.trans h.symm)]

/-- A resource with a capacity of 100 and nothing else given. -/
def goldDefinition : ResourceDefinition :=
  { id := "gold", startAmount := none, capacity := some (.fin 100), unlocked := none
    visible := none, dirtyTolerance := none }

namespace ResourceState

variable {n : ℕ} (s : ResourceState n)

/-- The buffer published last. -/
def active : PublishBuffer n := s.publish s.activePublishIndex

/-- The buffer the next publish writes. -/
def standby : PublishBuffer n := s.publish (!s.activePublishIndex)

/-- Change one live row. -/
def setLive (index : Fin n) (row : ResourceRow) : ResourceState n :=
  { s with live := Function.update s.live index row }

end ResourceState

/-! ### Fields -/

/-- A field of a row: how it is read, written, and compared for publishing. -/
structure RowField (V : Type) where
  get : ResourceRow → V
  set : V → ResourceRow → ResourceRow
  close : Precision → ℚ → Bool → V → V → Bool

namespace RowField

/-- A field that holds a finite number. -/
def number (get : ResourceRow → ℚ) (set : ℚ → ResourceRow → ResourceRow) : RowField ℚ :=
  { get, set, close := fun p tolerance override a b => p.epsilonEquals a b tolerance override }

def amount : RowField ℚ := number (·.amount) fun v row => { row with amount := v }

def incomePerSecond : RowField ℚ :=
  number (·.incomePerSecond) fun v row => { row with incomePerSecond := v }

def expensePerSecond : RowField ℚ :=
  number (·.expensePerSecond) fun v row => { row with expensePerSecond := v }

def netPerSecond : RowField ℚ :=
  number (·.netPerSecond) fun v row => { row with netPerSecond := v }

def tickDelta : RowField ℚ := number (·.tickDelta) fun v row => { row with tickDelta := v }

def capacity : RowField (WithTop ℚ) :=
  { get := (·.capacity)
    set := fun v row => { row with capacity := v }
    close := fun p tolerance override a b => p.epsilonEqualsTop a b tolerance override }

/-- The flags, compared as a number like the other fields. -/
def flags : RowField ResourceFlags :=
  { get := (·.flags)
    set := fun v row => { row with flags := v }
    close := fun p tolerance override a b => p.epsilonEquals a.value b.value tolerance override }

end RowField

/-- A resource whose tolerance is not the ceiling overrides it; `createEpsilonContext`. -/
def hasOverride (p : Precision) (dirtyTolerance : ℚ) : Bool :=
  decide (dirtyTolerance ≠ p.dirtyEpsilonCeiling)

/-- The comparison of one field under the live row's tolerance. -/
def RowField.closeIn {V : Type} (field : RowField V) (p : Precision) (live source : ResourceRow) :
    Bool :=
  field.close p live.dirtyTolerance (hasOverride p live.dirtyTolerance) (field.get live)
    (field.get source)

/-- A live row agrees with a published one: every number within tolerance, the tolerances
within the absolute floor, the flags exactly. -/
def rowClean (p : Precision) (live source : ResourceRow) : Bool :=
  RowField.amount.closeIn p live source &&
    RowField.capacity.closeIn p live source &&
    RowField.incomePerSecond.closeIn p live source &&
    RowField.expensePerSecond.closeIn p live source &&
    RowField.netPerSecond.closeIn p live source &&
    RowField.tickDelta.closeIn p live source &&
    p.epsilonEquals live.dirtyTolerance source.dirtyTolerance p.dirtyEpsilonAbsolute false &&
    decide (live.flags.clearDirty = source.flags.clearDirty)

namespace ResourceState

variable {n : ℕ} (s : ResourceState n)

/-- `isIndexClean`, against the active buffer. -/
def isIndexClean (index : Fin n) : Bool :=
  rowClean s.precision (s.live index) (s.active.rows index)

/-- `isIndexDirtyAgainstPublish`: the same comparisons against a given buffer. -/
def isIndexDirtyAgainstPublish (source : PublishBuffer n) (index : Fin n) : Bool :=
  !rowClean s.precision (s.live index) (source.rows index)

/-- The dirty bit of a live row, written. -/
def setDirtyBit (index : Fin n) (dirty : Bool) : ResourceState n :=
  s.setLive index
    { s.live index with flags := { (s.live index).flags with dirtyThisTick := dirty } }

/-- `markDirty`. -/
def markDirty (index : Fin n) : ResourceState n :=
  { s.setDirtyBit index true with dirtyIndexScratch := s.dirtyIndexScratch.insert index }

/-- `unmarkIfClean`. -/
def unmarkIfClean (index : Fin n) : ResourceState n :=
  if s.isIndexClean index then
    { s.setDirtyBit index false with dirtyIndexScratch := s.dirtyIndexScratch.erase index }
  else s

/-- `reconcileDirtyState` after a write to a field. -/
def reconcileDirtyState {V : Type} (field : RowField V) (index : Fin n) : ResourceState n :=
  if field.closeIn s.precision (s.live index) (s.active.rows index) then s.unmarkIfClean index
  else s.markDirty index

/-- `writeFloatField`: nothing happens when the value is the same. -/
def writeField {V : Type} [DecidableEq V] (field : RowField V) (index : Fin n) (nextValue : V) :
    ResourceState n :=
  if field.get (s.live index) = nextValue then s
  else (s.setLive index (field.set nextValue (s.live index))).reconcileDirtyState field index

end ResourceState

end IdleEngine
