import Mathlib.Data.List.ReduceOption
import IdleEngine.Resource.Stored
import IdleEngine.CodeUnits

/-!
# Saving and loading resources

`exportForSave` writes the live rows as arrays. Loading first checks the arrays against each
other and against the definitions (`reconcileSaveAgainstDefinitions`), and throws before it
changes anything; then it restores one saved resource after the other with the public operations
of the store. An amount is brought to its target by adding or spending the difference, and flags
are only ever set.
-/

namespace IdleEngine

open Function StoredResource

/-- `ResourceDefinitionDigest`. -/
structure DefinitionDigest where
  ids : List String
  version : JsNumber
  hash : String
  deriving DecidableEq

/-- `SerializedResourceState`. A capacity that is none is `null`; a flag value that is none is
not a boolean. -/
structure SerializedResourceState where
  ids : List String
  amounts : List JsNumber
  capacities : List (Option JsNumber)
  flags : List JsNumber
  unlocked : Option (List (Option Bool))
  visible : Option (List (Option Bool))
  definitionDigest : Option DefinitionDigest

/-! ### Digests -/

/-- One round of the FNV-1a hash. -/
def fnvRound (hash unit : ℕ) : ℕ := ((hash ^^^ unit) * 0x01000193) % 2 ^ 32

/-- The eight hexadecimal digits of a hash. -/
def hexDigits8 (hash : ℕ) : String :=
  String.ofList ((List.range 8).map fun k => Nat.digitChar (hash / 16 ^ (7 - k) % 16))

/-- `computeStableDigest`. -/
def computeStableDigest (ids : List String) : String :=
  let hash := ids.foldl
    (fun hash id => fnvRound ((id.toList.flatMap utf16Units).foldl fnvRound hash) 0xff) 0x811c9dc5
  "fnv1a-" ++ hexDigits8 hash

/-- `createDefinitionDigest`. -/
def createDefinitionDigest (ids : List String) : DefinitionDigest :=
  { ids, version := .fin ids.length, hash := computeStableDigest ids }

/-! ### Export -/

/-- The number of a capacity in a save. -/
def serializeCapacity (capacity : WithTop ℚ) : Option JsNumber :=
  match capacity with
  | ⊤ => none
  | (capacity : ℚ) => some (.fin capacity)

/-- `exportForSave`. -/
def ResourceState.exportForSave {n : ℕ} (s : ResourceState n) : SerializedResourceState :=
  let ids := List.ofFn s.ids
  { ids
    amounts := List.ofFn fun i => .fin (s.live i).amount
    capacities := List.ofFn fun i => serializeCapacity (s.live i).capacity
    flags := List.ofFn fun i => .fin (s.live i).flags.value
    unlocked := some (List.ofFn fun i => some (s.live i).flags.unlocked)
    visible := some (List.ofFn fun i => some (s.live i).flags.visible)
    definitionDigest := some (createDefinitionDigest ids) }

/-! ### Reconciliation -/

/-- `assertSerializedArrayLength`. -/
def assertSerializedArrayLength (field : String) (actual expected : ℕ) : Except String Unit :=
  if actual = expected then .ok ()
  else
    .error ("Serialized resource state field \"" ++ field ++ "\" length (" ++ toString actual ++
      ") does not match ids length (" ++ toString expected ++ ").")

/-- The length check of an array that may be missing. -/
def assertOptionalArrayLength (field : String) (values : Option (List (Option Bool)))
    (expected : ℕ) : Except String Unit :=
  match values with
  | none => .ok ()
  | some values => assertSerializedArrayLength field values.length expected

/-- `validateSerializedIds`. -/
def validateSerializedIds (ids : List String) : Except String Unit :=
  if ids.contains "" then .error "Serialized resource ids must be non-empty strings." else .ok ()

/-- A whole number from zero up. -/
def nonNegativeInteger (version : JsNumber) : Option ℕ :=
  match version.finite? with
  | some version => if version.den = 1 ∧ 0 ≤ version then some version.num.toNat else none
  | none => none

/-- `validateDefinitionDigest`. -/
def validateDefinitionDigest (digest : DefinitionDigest) (ids : List String) :
    Except String Unit :=
  match nonNegativeInteger digest.version with
  | none => .error "Serialized resource digest has an invalid version."
  | some version =>
      if version ≠ ids.length then
        .error "Serialized resource digest version does not match saved ids length."
      else if digest.ids ≠ ids then
        .error "Serialized resource digest ids diverge from the saved ids."
      else if digest.hash ≠ computeStableDigest ids then
        .error ("Serialized resource digest hash mismatch: expected \"" ++
          computeStableDigest ids ++ "\" but got \"" ++ digest.hash ++ "\". " ++
          "This may indicate a corrupted or tampered save file.")
      else .ok ()

/-- `assertSerializedAmount`. -/
def assertSerializedAmount (amount : JsNumber) : Except String Unit :=
  match amount.finite? with
  | some _ => .ok ()
  | none => .error "Serialized resource amounts must be finite numbers."

/-- `assertSerializedCapacity`. -/
def assertSerializedCapacity (capacity : Option JsNumber) : Except String Unit :=
  let message := "Serialized resource capacities must be null or finite, non-negative numbers."
  match capacity with
  | none => .ok ()
  | some capacity =>
      match capacity.finite? with
      | some capacity => if 0 ≤ capacity then .ok () else .error message
      | none => .error message

/-- `assertSerializedFlag`. -/
def assertSerializedFlag (flag : JsNumber) : Except String Unit :=
  match nonNegativeInteger flag with
  | some flag =>
      if flag ≤ 255 then .ok ()
      else .error "Serialized resource flags must be integers between 0 and 255."
  | none => .error "Serialized resource flags must be integers between 0 and 255."

/-- `assertOptionalSerializedBoolean`, at an index. -/
def assertOptionalSerializedBoolean (values : Option (List (Option Bool))) (index : ℕ)
    (message : String) : Except String Unit :=
  match values with
  | none => .ok ()
  | some values =>
      match values[index]? with
      | some (some _) => .ok ()
      | _ => .error message

/-- `validateSerializedValues`, at an index within the arrays. -/
def validateSerializedValue (serialized : SerializedResourceState) (index : ℕ) :
    Except String Unit := do
  assertSerializedAmount (serialized.amounts.getD index .nan)
  assertSerializedCapacity (serialized.capacities.getD index none)
  assertSerializedFlag (serialized.flags.getD index .nan)
  assertOptionalSerializedBoolean serialized.unlocked index
    "Serialized resource unlocked values must be boolean when provided."
  assertOptionalSerializedBoolean serialized.visible index
    "Serialized resource visible values must be boolean when provided."

/-- `buildDefinitionIndex`: the check of the live definitions. -/
def checkDefinitionIds (ids : List String) : Except String Unit :=
  match checkIds [] 0 ids with
  | some message => .error message
  | none => .ok ()

/-- The live index of every saved id. A repeated id throws at once; whether an id is no longer
defined is kept for later. -/
def buildRemap {n : ℕ} (liveIds : Fin n → String) :
    List String → List String → Except String (List (Option (Fin n)))
  | _, [] => .ok []
  | seen, id :: ids =>
      if seen.contains id then
        .error ("Serialized resource id \"" ++ id ++ "\" appears multiple times.")
      else do
        let later ← buildRemap liveIds (id :: seen) ids
        return indexOfId liveIds id :: later

/-- `ResourceDefinitionReconciliation`; ids that were removed throw. -/
structure ResourceReconciliation (n : ℕ) where
  remap : List (Fin n)
  addedIds : List String
  digestsMatch : Bool

/-- `reconcileSaveAgainstDefinitions`. -/
def reconcileSaveAgainstDefinitions {n : ℕ} (serialized : SerializedResourceState)
    (liveIds : Fin n → String) : Except String (ResourceReconciliation n) := do
  let expectedLength := serialized.ids.length
  assertSerializedArrayLength "amounts" serialized.amounts.length expectedLength
  assertSerializedArrayLength "capacities" serialized.capacities.length expectedLength
  assertSerializedArrayLength "flags" serialized.flags.length expectedLength
  assertOptionalArrayLength "unlocked" serialized.unlocked expectedLength
  assertOptionalArrayLength "visible" serialized.visible expectedLength
  validateSerializedIds serialized.ids
  let definitionDigest :=
    serialized.definitionDigest.getD (createDefinitionDigest serialized.ids)
  validateDefinitionDigest definitionDigest serialized.ids
  (List.range expectedLength).forM (validateSerializedValue serialized)
  checkDefinitionIds (List.ofFn liveIds)
  let remap ← buildRemap liveIds [] serialized.ids
  if remap.contains none then
    .error "Serialized resource definitions are incompatible with live definitions."
  else
    let expectedDigest := createDefinitionDigest (List.ofFn liveIds)
    return { remap := remap.reduceOption
             addedIds := (List.ofFn liveIds).filter fun id => !serialized.ids.contains id
             digestsMatch := definitionDigest.hash == expectedDigest.hash &&
               decide (definitionDigest.version = expectedDigest.version) }

/-! ### Restoring -/

namespace SerializedResourceState

variable (serialized : SerializedResourceState)

/-- The record saved at an index, once the values are validated: an amount is a finite number, a
capacity is finite or `null`, and a missing array of flags sets none. -/
def recordAt (index : ℕ) : StoredResource :=
  { amount := ((serialized.amounts.getD index .nan).finite?).getD 0
    capacity :=
      match serialized.capacities.getD index none with
      | some (.fin capacity) => (capacity : ℚ)
      | _ => ⊤
    unlocked := ((serialized.unlocked.getD []).getD index none).getD false
    visible := ((serialized.visible.getD []).getD index none).getD false }

end SerializedResourceState

namespace ResourceState

variable {n : ℕ}

/-- Bring an amount to its target by adding or spending the difference. -/
def moveAmountTo (s : ResourceState n) (i : Fin n) (targetAmount : ℚ) : ResourceState n :=
  let currentAmount := (s.live i).amount
  if currentAmount < targetAmount then (s.addPositive i (targetAmount - currentAmount)).2
  else if targetAmount < currentAmount then
    s.after (s.spendAmount i (.fin (currentAmount - targetAmount)))
  else s

/-- One pass of the loop of `hydrateResourceState`. -/
def restoreResource (s : ResourceState n) (i : Fin n) (saved : StoredResource) :
    ResourceState n :=
  let s := (s.setCapacityTo i saved.capacity).moveAmountTo i saved.amount
  let s := if saved.unlocked then s.unlock i else s
  if saved.visible then s.grantVisibility i else s

/-- The loop of `hydrateResourceState`, and its publish. -/
def restoreResources (s : ResourceState n) (serialized : SerializedResourceState)
    (remap : List (Fin n)) : ResourceState n :=
  (remap.zipIdx.foldl (fun s entry => s.restoreResource entry.1 (serialized.recordAt entry.2)) s
    ).createPublishSnapshot

/-- `hydrateResources`, with the ids of the definitions. -/
def hydrateResources (s : ResourceState n) (liveIds : Fin n → String)
    (serialized : SerializedResourceState) : Except String (ResourceState n) := do
  let reconciliation ← reconcileSaveAgainstDefinitions serialized liveIds
  return s.restoreResources serialized reconciliation.remap

end ResourceState

/-- What loading a saved record makes of a record. -/
def StoredResource.load (r saved : StoredResource) : StoredResource :=
  { amount := clampToCapacity (if saved.amount < 0 then r.amount else saved.amount) saved.capacity
    capacity := saved.capacity
    unlocked := r.unlocked || saved.unlocked
    visible := r.visible || saved.visible }

namespace ResourceState

variable {n : ℕ}

theorem moveAmountTo_stored (s : ResourceState n) (i : Fin n) (targetAmount : ℚ)
    (hs : (s.stored i).Bounded) :
    (s.moveAmountTo i targetAmount).stored = update s.stored i
      { s.stored i with
        amount := clampToCapacity
          (if targetAmount < 0 then (s.stored i).amount else targetAmount)
          (s.stored i).capacity } := by
  have hamount : (s.live i).amount = (s.stored i).amount := rfl
  have hsame := clampToCapacity_of_le hs.le_capacity
  rw [moveAmountTo, hamount]
  split
  · next hup =>
    -- the target is above a non-negative amount: add
    have hpos : ¬ targetAmount < 0 := not_lt.mpr (hs.nonneg.trans hup.le)
    rw [addPositive_stored, if_neg hpos, add, add_sub_cancel]
  · next hup =>
    split
    · next hdown =>
      have hdelta : 0 < (s.stored i).amount - targetAmount := sub_pos.mpr hdown
      rw [spendAmount]
      simp only [JsNumber.finite?, if_neg (not_lt.mpr hdelta.le), if_neg hdelta.ne']
      split
      · next hshort =>
        -- a negative target cannot be reached by spending
        have hneg : targetAmount < 0 := by
          have hlt : (s.stored i).amount < (s.stored i).amount - targetAmount := hshort
          linarith
        rw [if_pos hneg, hsame]
        exact (update_eq_self i s.stored).symm
      · next henough =>
        have hpos : ¬ targetAmount < 0 := by
          have hle : (s.stored i).amount - targetAmount ≤ (s.stored i).amount :=
            not_lt.mp henough
          linarith
        have hle : (targetAmount : WithTop ℚ) ≤ (s.stored i).capacity :=
          le_trans (by exact_mod_cast hdown.le) hs.le_capacity
        rw [if_neg hpos, clampToCapacity_of_le hle]
        change ((s.writeField RowField.amount i _).accumulateTickDelta i _).stored = _
        rw [accumulateTickDelta_stored, writeAmount_stored, hamount, sub_sub_cancel]
    · next hdown =>
      have heq : targetAmount = (s.stored i).amount :=
        le_antisymm (not_lt.mp hup) (not_lt.mp hdown)
      rw [heq, ite_self, hsame]
      exact (update_eq_self i s.stored).symm

theorem setFlags_stored (s : ResourceState n) (i : Fin n) (unlocked visible : Bool) :
    (let s := if unlocked then s.unlock i else s
      if visible then s.grantVisibility i else s).stored =
      update s.stored i
        { s.stored i with
          unlocked := (s.stored i).unlocked || unlocked
          visible := (s.stored i).visible || visible } := by
  have hsame := (update_eq_self i s.stored).symm
  cases unlocked <;> cases visible <;>
    simp [unlock, grantVisibility, setUnlockedFlag_stored, setVisibleFlag_stored]

/-- **Loading one resource.** Whatever the record was, its amount and capacity become the saved
ones; the flags are joined. -/
theorem restoreResource_stored (s : ResourceState n) (i : Fin n) (saved : StoredResource)
    (hs : 0 ≤ (s.stored i).amount) (hsaved : 0 ≤ saved.capacity) :
    (s.restoreResource i saved).stored =
      update s.stored i ((s.stored i).load saved) := by
  have hcapacity := s.setCapacityTo_stored i saved.capacity
  have hrecord : (s.setCapacityTo i saved.capacity).stored i =
      (s.stored i).withCapacity saved.capacity := by
    rw [hcapacity, update_self]
  have hbounded : ((s.setCapacityTo i saved.capacity).stored i).Bounded := by
    rw [hrecord]
    exact ⟨clampToCapacity_nonneg hs hsaved, clampToCapacity_le_capacity _ _⟩
  have hmove := moveAmountTo_stored _ i saved.amount hbounded
  rw [hrecord, hcapacity, update_idem] at hmove
  rw [restoreResource, setFlags_stored, hmove, update_self, update_idem]
  congr 1
  -- a negative target leaves the amount that the capacity has clamped already
  have hidem : clampToCapacity (clampToCapacity (s.stored i).amount saved.capacity)
      saved.capacity = clampToCapacity (s.stored i).amount saved.capacity :=
    clampToCapacity_of_le (clampToCapacity_le_capacity _ _)
  by_cases hneg : saved.amount < 0
  · simp [load, withCapacity, hneg, hidem]
  · simp [load, withCapacity, hneg]

end ResourceState

end IdleEngine
