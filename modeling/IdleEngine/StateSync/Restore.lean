import IdleEngine.Save.Reconcilable

/-!
# Restoring the resources of a snapshot

`restorePartial` writes the resources of a snapshot into a live store: the capacity first, then the
amount by an addition or a spending, then the flags. Flags are only ever set, so the store takes
the saved values over exactly when it has no flag set that the snapshot has unset
(`restorePartial_takesOver_iff`); amounts and capacities become the saved ones in any case.
-/

namespace IdleEngine

open Outcome List Function

variable {n : ℕ}

/-! ### The restore -/

/-- The loop over the ids in `assertSerializedResourceState`. -/
def assertDistinctIds : List String → List String → Except String Unit
  | _, [] => .ok ()
  | seen, id :: ids =>
      if id = "" then .error "Serialized resource ids must be non-empty strings."
      else if seen.contains id then
        .error ("Serialized resource id \"" ++ id ++ "\" appears multiple times.")
      else assertDistinctIds (id :: seen) ids

/-- `assertSerializedResourceState`. -/
def assertSerializedResourceState (serialized : SerializedResourceState) :
    Except String Unit := do
  let expectedLength := serialized.ids.length
  assertSerializedArrayLength "amounts" serialized.amounts.length expectedLength
  assertSerializedArrayLength "capacities" serialized.capacities.length expectedLength
  assertSerializedArrayLength "flags" serialized.flags.length expectedLength
  assertOptionalArrayLength "unlocked" serialized.unlocked expectedLength
  assertOptionalArrayLength "visible" serialized.visible expectedLength
  assertDistinctIds [] serialized.ids

/-- `buildRemapFromResources`. -/
def buildRemapFromResources (resources : ResourceState n) (serialized : SerializedResourceState) :
    List (Option (Fin n)) :=
  serialized.ids.map (indexOfId resources.ids)

/-- Bring an amount to its target by adding or spending the difference. No comparison with a
number that is none holds, and one with an infinite number hands it on to the operation. -/
def ResourceState.restoreAmount (s : ResourceState n) (i : Fin n) (targetAmount : JsNumber) :
    Except String (ResourceState n) :=
  let currentAmount := (s.live i).amount
  match targetAmount with
  | .nan => .ok s
  | .posInf => (s.addAmount i .posInf).map Prod.snd
  | .negInf => (s.spendAmount i .posInf).map Prod.snd
  | .fin targetAmount =>
      if currentAmount < targetAmount then
        (s.addAmount i (.fin (targetAmount - currentAmount))).map Prod.snd
      else if targetAmount < currentAmount then
        (s.spendAmount i (.fin (currentAmount - targetAmount))).map Prod.snd
      else .ok s

/-- The flags that a snapshot sets at an index. -/
def ResourceState.restoreFlags (s : ResourceState n) (i : Fin n) (unlocked visible : Bool) :
    ResourceState n :=
  let s := if unlocked then s.unlock i else s
  if visible then s.grantVisibility i else s

/-- One pass of the loop of `applySerializedResourceState`; a resource without a live index is
skipped. -/
def ResourceState.applySerializedEntry (serialized : SerializedResourceState)
    (s : ResourceState n) (entry : Option (Fin n) × ℕ) : Except String (ResourceState n) :=
  match entry with
  | (none, _) => .ok s
  | (some i, savedIndex) => do
      let capacity := (serialized.capacities.getD savedIndex none).getD .posInf
      let written ← s.setCapacity i capacity
      let s ← written.2.restoreAmount i (serialized.amounts.getD savedIndex (.fin 0))
      return s.restoreFlags i (((serialized.unlocked.getD []).getD savedIndex none).getD false)
        (((serialized.visible.getD []).getD savedIndex none).getD false)

/-- `applySerializedResourceState`. -/
def ResourceState.applySerializedResourceState (s : ResourceState n)
    (serialized : SerializedResourceState) (remap : List (Option (Fin n))) :
    Except String (ResourceState n) := do
  let s ← remap.zipIdx.foldlM (applySerializedEntry serialized) s
  return s.createPublishSnapshot

/-- `restorePartial` of the resources. -/
def ResourceState.restorePartial (s : ResourceState n) (serialized : SerializedResourceState) :
    Except String (ResourceState n) := do
  assertSerializedResourceState serialized
  s.applySerializedResourceState serialized (buildRemapFromResources s serialized)

/-! ### Snapshots -/

/-- A well-formed snapshot of resources, with amounts within capacity. -/
structure Restorable (serialized : SerializedResourceState) : Prop where
  amounts_length : serialized.amounts.length = serialized.ids.length
  capacities_length : serialized.capacities.length = serialized.ids.length
  flags_length : serialized.flags.length = serialized.ids.length
  unlocked_length : ∀ values, serialized.unlocked = some values →
    values.length = serialized.ids.length
  visible_length : ∀ values, serialized.visible = some values →
    values.length = serialized.ids.length
  nonempty : ∀ id ∈ serialized.ids, id ≠ ""
  nodup : serialized.ids.Nodup
  amounts : ∀ amount ∈ serialized.amounts, ∃ value, amount = .fin value
  capacities : ∀ capacity ∈ serialized.capacities,
    capacity = none ∨ ∃ value, capacity = some (.fin value)
  within : ∀ k < serialized.ids.length, (serialized.recordAt k).Bounded

theorem assertDistinctIds_ok {seen ids : List String} (hids : ids.Nodup)
    (hall : ∀ id ∈ ids, id ≠ "" ∧ id ∉ seen) : assertDistinctIds seen ids = .ok () := by
  induction ids generalizing seen with
  | nil => rfl
  | cons id ids ih =>
    obtain ⟨hempty, hseen⟩ := hall id mem_cons_self
    obtain ⟨hnodup, hrest⟩ := unseen_tail hids hall
    rw [assertDistinctIds, if_neg hempty, if_neg (by simpa using hseen)]
    exact ih hnodup hrest

variable {serialized : SerializedResourceState}

theorem Restorable.assert_ok (h : Restorable serialized) :
    assertSerializedResourceState serialized = .ok () := by
  simp only [assertSerializedResourceState, check_bind_eq_ok, assertSerializedArrayLength_iff,
    assertOptionalArrayLength_iff]
  exact ⟨h.amounts_length, h.capacities_length, h.flags_length, h.unlocked_length,
    h.visible_length,
    assertDistinctIds_ok h.nodup fun id hid => ⟨h.nonempty id hid, not_mem_nil⟩⟩

/-- What a well-formed snapshot holds at an index. -/
theorem Restorable.entry (h : Restorable serialized) {k : ℕ} (hk : k < serialized.ids.length) :
    serialized.amounts.getD k (.fin 0) = .fin (serialized.recordAt k).amount ∧
      parseCapacity ((serialized.capacities.getD k none).getD .posInf) =
        some (serialized.recordAt k).capacity := by
  have hbounded := h.within k hk
  have hamount : k < serialized.amounts.length := h.amounts_length.symm ▸ hk
  have hcapacity : k < serialized.capacities.length := h.capacities_length.symm ▸ hk
  obtain ⟨value, hvalue⟩ := h.amounts _ (getElem_mem hamount)
  have hentry : serialized.amounts[k]? = some (.fin value) := by
    rw [getElem?_eq_getElem hamount, hvalue]
  constructor
  · simp [SerializedResourceState.recordAt, getD_eq_getElem?_getD, hentry, JsNumber.finite?]
  · have hnonneg := hbounded.capacity_nonneg
    rcases h.capacities _ (getElem_mem hcapacity) with hnone | ⟨c, hc⟩
    · have hentry : serialized.capacities[k]? = some none := by
        rw [getElem?_eq_getElem hcapacity, hnone]
      simp [SerializedResourceState.recordAt, getD_eq_getElem?_getD, hentry, parseCapacity]
    · have hentry : serialized.capacities[k]? = some (some (.fin c)) := by
        rw [getElem?_eq_getElem hcapacity, hc]
      simp only [SerializedResourceState.recordAt, getD_eq_getElem?_getD, hentry,
        Option.getD_some] at hnonneg ⊢
      have hc : 0 ≤ c := by exact_mod_cast hnonneg
      simp [parseCapacity, hc]

/-! ### One resource -/

namespace ResourceState

/-- An amount within capacity is reached, whatever the amount was. -/
theorem restoreAmount_ok (s : ResourceState n) (i : Fin n) {targetAmount : ℚ}
    (hnonneg : 0 ≤ targetAmount)
    (hle : (targetAmount : WithTop ℚ) ≤ (s.stored i).capacity) :
    ∃ s', s.restoreAmount i (.fin targetAmount) = .ok s' ∧
      s'.stored = update s.stored i { s.stored i with amount := targetAmount } := by
  have hamount : (s.live i).amount = (s.stored i).amount := rfl
  rw [restoreAmount]
  dsimp only
  split
  · next hup =>
    have hpos : 0 < targetAmount - (s.live i).amount := sub_pos.mpr hup
    refine ⟨(s.addPositive i (targetAmount - (s.live i).amount)).2, ?_, ?_⟩
    · rw [addAmount]
      simp only [JsNumber.finite?, if_neg (not_lt.mpr hpos.le), if_neg hpos.ne']
      rfl
    · rw [addPositive_stored, hamount, StoredResource.add, add_sub_cancel,
        clampToCapacity_of_le hle]
  · next hup =>
    split
    · next hdown =>
      have hpos : 0 < (s.live i).amount - targetAmount := sub_pos.mpr hdown
      have henough : ¬ (s.live i).amount < (s.live i).amount - targetAmount := by linarith
      rw [spendAmount]
      simp only [JsNumber.finite?, if_neg (not_lt.mpr hpos.le), if_neg hpos.ne', if_neg henough]
      refine ⟨_, rfl, ?_⟩
      rw [accumulateTickDelta_stored, writeAmount_stored, sub_sub_cancel]
    · next hdown =>
      have heq : targetAmount = (s.stored i).amount :=
        le_antisymm (not_lt.mp hup) (not_lt.mp hdown)
      refine ⟨s, rfl, ?_⟩
      rw [heq]
      exact (update_eq_self i s.stored).symm

variable {serialized : SerializedResourceState}

/-- **Restoring one resource.** Amount and capacity become the saved ones, whatever the record
was; the flags are joined. -/
theorem applySerializedEntry_ok (h : Restorable serialized) (s : ResourceState n) (i : Fin n)
    {k : ℕ} (hk : k < serialized.ids.length) :
    ∃ s', s.applySerializedEntry serialized (some i, k) = .ok s' ∧
      s'.stored = update s.stored i ((s.stored i).load (serialized.recordAt k)) := by
  obtain ⟨hamount, hcapacity⟩ := h.entry hk
  have hbounded := h.within k hk
  have hrecord : ((s.setCapacityTo i (serialized.recordAt k).capacity).stored i) =
      (s.stored i).withCapacity (serialized.recordAt k).capacity := by
    rw [setCapacityTo_stored, update_self]
  obtain ⟨moved, hmove, hmoved⟩ := restoreAmount_ok
    (s.setCapacityTo i (serialized.recordAt k).capacity) i hbounded.nonneg
    (hrecord ▸ hbounded.le_capacity)
  rw [hrecord, setCapacityTo_stored, update_idem] at hmoved
  refine ⟨moved.restoreFlags i (serialized.recordAt k).unlocked (serialized.recordAt k).visible,
    ?_, ?_⟩
  · rw [applySerializedEntry, hamount, setCapacity, hcapacity]
    change (restoreAmount _ i _ >>= _) = _
    rw [hmove]
    rfl
  · rw [restoreFlags, setFlags_stored, hmoved, update_self, update_idem]
    congr 1
    rw [StoredResource.load, if_neg (not_lt.mpr hbounded.nonneg),
      clampToCapacity_of_le hbounded.le_capacity]
    rfl

/-- The loop of the restore: a resource of the snapshot is loaded from its place there, and the
other resources stay. -/
theorem applySerializedEntries_ok (h : Restorable serialized) {liveIds : Fin n → String}
    (hids : Function.Injective liveIds) {ids : List String} (hnodup : ids.Nodup) (first : ℕ)
    (hfirst : first + ids.length ≤ serialized.ids.length) (s : ResourceState n) :
    ∃ s', ((ids.map (indexOfId liveIds)).zipIdx first).foldlM (applySerializedEntry serialized) s =
        .ok s' ∧
      ∀ i, (liveIds i ∉ ids → s'.stored i = s.stored i) ∧
        ∀ k, ids[k]? = some (liveIds i) →
          s'.stored i = (s.stored i).load (serialized.recordAt (first + k)) := by
  induction ids generalizing first s with
  | nil => exact ⟨s, rfl, fun i => ⟨fun _ => rfl, fun k hk => by cases hk⟩⟩
  | cons id ids ih =>
    obtain ⟨hnew, hrest⟩ := nodup_cons.mp hnodup
    have hlength : first + 1 + ids.length ≤ serialized.ids.length := by
      rw [length_cons] at hfirst
      omega
    -- the first pass touches the resource with the first id, if there is one
    obtain ⟨s₁, hstep, hoff, hon⟩ : ∃ s₁,
        s.applySerializedEntry serialized (indexOfId liveIds id, first) = .ok s₁ ∧
        (∀ i, liveIds i ≠ id → s₁.stored i = s.stored i) ∧
        ∀ i, liveIds i = id →
          s₁.stored i = (s.stored i).load (serialized.recordAt first) := by
      cases hindex : indexOfId liveIds id with
      | none =>
        refine ⟨s, rfl, fun _ _ => rfl, fun i hi => ?_⟩
        rw [(indexOfId_eq_some_iff hids).mpr hi] at hindex
        cases hindex
      | some j =>
        have hj := (indexOfId_eq_some_iff hids).mp hindex
        obtain ⟨s₁, hstep, hstored⟩ := s.applySerializedEntry_ok h j (by omega : first < _)
        refine ⟨s₁, hstep, fun i hi => ?_, fun i hi => ?_⟩
        · rw [hstored, update_of_ne fun hij => hi ((congrArg liveIds hij).trans hj)]
        · obtain rfl : i = j := hids (hi.trans hj.symm)
          rw [hstored, update_self]
    obtain ⟨s', hloop, hs'⟩ := ih hrest (first + 1) hlength s₁
    refine ⟨s', ?_, fun i => ⟨fun hi => ?_, fun k hk => ?_⟩⟩
    · rw [map_cons, zipIdx_cons, foldlM_cons, hstep]
      exact hloop
    · obtain ⟨hne, hout⟩ := not_or.mp (fun hmem => hi (mem_cons.mpr hmem))
      rw [(hs' i).1 hout, hoff i hne]
    · cases k with
      | zero =>
        have hi : liveIds i = id := (Option.some.inj hk).symm
        rw [(hs' i).1 (hi ▸ hnew), hon i hi, Nat.add_zero]
      | succ k =>
        have hmem : liveIds i ∈ ids := mem_of_getElem? hk
        rw [(hs' i).2 k hk, hoff i fun heq => hnew (heq ▸ hmem), Nat.add_assoc, Nat.add_comm 1]

/-- **A partial restore** of a well-formed snapshot succeeds. A resource of the snapshot is loaded
from its place there, and the other resources stay. -/
theorem restorePartial_ok {s : ResourceState n} (hids : Function.Injective s.ids)
    (h : Restorable serialized) :
    ∃ s', s.restorePartial serialized = .ok s' ∧
      ∀ i, (s.ids i ∉ serialized.ids → s'.stored i = s.stored i) ∧
        ∀ k, serialized.ids[k]? = some (s.ids i) →
          s'.stored i = (s.stored i).load (serialized.recordAt k) := by
  obtain ⟨s', hloop, hs'⟩ := applySerializedEntries_ok h hids h.nodup 0
    (Nat.zero_add _).le s
  refine ⟨s'.createPublishSnapshot, ?_, fun i => ?_⟩
  · rw [restorePartial, h.assert_ok, applySerializedResourceState, buildRemapFromResources, hloop]
    rfl
  · simpa only [createPublishSnapshot_stored, Nat.zero_add] using hs' i

end ResourceState

/-! ### What the restore takes over -/

/-- The store holds the saved record of every resource of the snapshot, and the other resources
are as they were. -/
structure TakesOver (serialized : SerializedResourceState) (s s' : ResourceState n) : Prop where
  saved : ∀ k i, serialized.ids[k]? = some (s.ids i) → s'.stored i = serialized.recordAt k
  others : ∀ i, s.ids i ∉ serialized.ids → s'.stored i = s.stored i

variable {r saved : StoredResource}

theorem StoredResource.load_amount (h : saved.Bounded) :
    (r.load saved).amount = saved.amount := by
  rw [load, if_neg (not_lt.mpr h.nonneg)]
  exact clampToCapacity_of_le h.le_capacity

/-- A record within its bounds replaces another one exactly when the flags of that one are among
its own. -/
theorem StoredResource.load_eq_iff (h : saved.Bounded) :
    r.load saved = saved ↔ r.unlocked ≤ saved.unlocked ∧ r.visible ≤ saved.visible := by
  refine ⟨fun heq => ?_, fun hflags => load_of_le h hflags.1 hflags.2⟩
  have hor : ∀ a b : Bool, (a || b) = b → a ≤ b := by decide
  exact ⟨hor _ _ (congrArg StoredResource.unlocked heq), hor _ _ (congrArg StoredResource.visible heq)⟩

/-- **What a partial restore takes over.** Restoring the resources of a well-formed snapshot gives
every resource of the snapshot its saved amount and capacity. It takes all values over exactly when
no resource of the snapshot has a flag set in the live store that the snapshot has unset. -/
theorem restorePartial_takesOver_iff {s : ResourceState n} (hids : Function.Injective s.ids)
    {serialized : SerializedResourceState} (h : Restorable serialized) :
    ∃ s', s.restorePartial serialized = .ok s' ∧
      (∀ k i, serialized.ids[k]? = some (s.ids i) →
        (s'.stored i).amount = (serialized.recordAt k).amount ∧
        (s'.stored i).capacity = (serialized.recordAt k).capacity) ∧
      (TakesOver serialized s s' ↔
        ∀ k i, serialized.ids[k]? = some (s.ids i) →
          (s.stored i).unlocked ≤ (serialized.recordAt k).unlocked ∧
          (s.stored i).visible ≤ (serialized.recordAt k).visible) := by
  obtain ⟨s', hrestore, hs'⟩ := ResourceState.restorePartial_ok hids h
  have hwithin : ∀ {k i}, serialized.ids[k]? = some (s.ids i) →
      (serialized.recordAt k).Bounded := fun hk =>
    h.within _ (List.getElem?_eq_some_iff.mp hk).1
  have hiff : ∀ k i, serialized.ids[k]? = some (s.ids i) →
      (s'.stored i = serialized.recordAt k ↔
        (s.stored i).unlocked ≤ (serialized.recordAt k).unlocked ∧
        (s.stored i).visible ≤ (serialized.recordAt k).visible) := by
    intro k i hk
    rw [(hs' i).2 k hk, StoredResource.load_eq_iff (hwithin hk)]
  refine ⟨s', hrestore, fun k i hk => ?_,
    fun hover k i hk => (hiff k i hk).mp (hover.saved k i hk), fun hflags =>
      ⟨fun k i hk => (hiff k i hk).mpr (hflags k i hk), fun i => (hs' i).1⟩⟩
  rw [(hs' i).2 k hk]
  exact ⟨StoredResource.load_amount (hwithin hk), rfl⟩

/-- A store of gold that is unlocked. -/
def unlockedGold : ResourceState 1 :=
  ResourceState.initial (fun _ => "gold") Precision.default fun _ =>
    { blankRow with flags := { visible := true, unlocked := true, dirtyThisTick := false } }

/-- A snapshot of gold, unlocked or locked. -/
def goldSnapshot (unlocked : Bool) : SerializedResourceState where
  ids := ["gold"]
  amounts := [.fin 5]
  capacities := [some (.fin 10)]
  flags := [.fin 1]
  unlocked := some [some unlocked]
  visible := some [some true]
  definitionDigest := none

theorem goldSnapshot_restorable (unlocked : Bool) : Restorable (goldSnapshot unlocked) where
  amounts_length := rfl
  capacities_length := rfl
  flags_length := rfl
  unlocked_length := fun values h => by rw [← Option.some.inj h]; rfl
  visible_length := fun values h => by rw [← Option.some.inj h]; rfl
  nonempty := by cases unlocked <;> decide
  nodup := by cases unlocked <;> decide
  amounts := fun amount h => ⟨5, mem_singleton.mp h⟩
  capacities := fun capacity h => .inr ⟨10, mem_singleton.mp h⟩
  within := by
    intro k hk
    obtain rfl : k = 0 := Nat.lt_one_iff.mp hk
    cases unlocked
    · exact ⟨by decide +kernel, by decide +kernel⟩
    · exact ⟨by decide +kernel, by decide +kernel⟩

/-- Gold that is locked in the snapshot stays unlocked. -/
theorem unlockedGold_stays_unlocked :
    Restorable (goldSnapshot false) ∧
      ∃ s', unlockedGold.restorePartial (goldSnapshot false) = .ok s' ∧
        ¬ TakesOver (goldSnapshot false) unlockedGold s' := by
  have hids : Function.Injective unlockedGold.ids := fun i j _ => Subsingleton.elim i j
  obtain ⟨s', hrestore, hs'⟩ :=
    ResourceState.restorePartial_ok hids (goldSnapshot_restorable false)
  refine ⟨goldSnapshot_restorable false, s', hrestore, fun hover => ?_⟩
  have hload := (hs' ⟨0, Nat.one_pos⟩).2 0 rfl
  rw [hover.saved 0 ⟨0, Nat.one_pos⟩ rfl] at hload
  exact absurd (congrArg StoredResource.unlocked hload) (by decide)

/-- Gold that is unlocked in the snapshot too is taken over. -/
theorem restorePartial_takesOver_iff_unlocked :
    ∃ s', unlockedGold.restorePartial (goldSnapshot true) = .ok s' ∧
      TakesOver (goldSnapshot true) unlockedGold s' := by
  have hids : Function.Injective unlockedGold.ids := fun i j _ => Subsingleton.elim i j
  obtain ⟨s', hrestore, -, hiff⟩ :=
    restorePartial_takesOver_iff hids (goldSnapshot_restorable true)
  refine ⟨s', hrestore, hiff.mpr fun k i hk => ?_⟩
  obtain rfl : k = 0 := Nat.lt_one_iff.mp (List.getElem?_eq_some_iff.mp hk).1
  obtain rfl : i = ⟨0, Nat.one_pos⟩ := Subsingleton.elim _ _
  exact ⟨by decide, by decide⟩

end IdleEngine
