import IdleEngine.Save.Reconcile

/-!
# Which saves reconcile

`reconcileSaveAgainstDefinitions` checks a save of the resources and throws at the first check that
fails. Every check is characterized by what it accepts, and together they accept exactly the
reconcilable saves (`reconcile_iff`). The remap of a save that is accepted has the live index of
every saved id at the place of that id.
-/

namespace IdleEngine

open Outcome List Option

variable {n : ℕ}

/-- A save whose arrays fit together, whose values are in range and whose ids are all defined. -/
structure Reconcilable (serialized : SerializedResourceState) (liveIds : Fin n → String) :
    Prop where
  amounts_length : serialized.amounts.length = serialized.ids.length
  capacities_length : serialized.capacities.length = serialized.ids.length
  flags_length : serialized.flags.length = serialized.ids.length
  unlocked_length : ∀ values, serialized.unlocked = some values →
    values.length = serialized.ids.length
  visible_length : ∀ values, serialized.visible = some values →
    values.length = serialized.ids.length
  nonempty : ∀ id ∈ serialized.ids, id ≠ ""
  nodup : serialized.ids.Nodup
  digest : ∀ digest, serialized.definitionDigest = some digest →
    digest = createDefinitionDigest serialized.ids
  amounts : ∀ amount ∈ serialized.amounts, ∃ value, amount = .fin value
  capacities : ∀ capacity ∈ serialized.capacities,
    capacity = none ∨ ∃ value, capacity = some (.fin value) ∧ 0 ≤ value
  flags : ∀ flag ∈ serialized.flags, ∃ value : ℕ, flag = .fin value ∧ value ≤ 255
  unlocked : ∀ values, serialized.unlocked = some values → ∀ value ∈ values, value.isSome
  visible : ∀ values, serialized.visible = some values → ∀ value ∈ values, value.isSome
  defined : ∀ id ∈ serialized.ids, ∃ i, liveIds i = id

/-! ### The checks -/

variable {field : String} {expected : ℕ}

theorem assertSerializedArrayLength_iff {actual : ℕ} :
    assertSerializedArrayLength field actual expected = .ok () ↔ actual = expected := by
  refine ⟨assertSerializedArrayLength_ok, fun h => ?_⟩
  rw [assertSerializedArrayLength, if_pos h]

variable {values : Option (List (Option Bool))}

theorem assertOptionalArrayLength_iff : assertOptionalArrayLength field values expected = .ok () ↔
      ∀ list, values = some list → list.length = expected := by
  cases values with
  | none => exact ⟨fun _ _ h => (by cases h), fun _ => rfl⟩
  | some list =>
    rw [assertOptionalArrayLength, assertSerializedArrayLength_iff]
    exact ⟨fun h _ hlist => some.inj hlist ▸ h, fun h => h list rfl⟩

variable {ids : List String}

theorem validateSerializedIds_iff :
    validateSerializedIds ids = .ok () ↔ ∀ id ∈ ids, id ≠ "" := by
  rw [validateSerializedIds]
  by_cases hempty : "" ∈ ids
  · rw [if_pos (contains_iff_mem.mpr hempty)]
    exact ⟨fun h => (by cases h), fun h => absurd rfl (h "" hempty)⟩
  · rw [if_neg fun h => hempty (contains_iff_mem.mp h)]
    refine ⟨fun _ id hid heq => ?_, fun _ => rfl⟩
    subst heq
    exact hempty hid

variable {k : ℕ}

theorem nonNegativeInteger_eq_some_iff {value : JsNumber} :
    nonNegativeInteger value = some k ↔ value = .fin k := by
  cases value with
  | fin q =>
    rw [nonNegativeInteger, JsNumber.finite?]
    dsimp only
    constructor
    · intro h
      split at h
      · next hq =>
        obtain rfl := some.inj h
        have hnum : 0 ≤ q.num := Rat.num_nonneg.mpr hq.2
        have hcast : ((q.num.toNat : ℕ) : ℚ) = q := by
          rw [← Int.cast_natCast, Int.toNat_of_nonneg hnum]
          exact (Rat.den_eq_one_iff q).mp hq.1
        rw [hcast]
      · cases h
    · intro h
      obtain rfl := JsNumber.fin.inj h
      rw [if_pos ⟨Rat.den_natCast k, Nat.cast_nonneg k⟩, Rat.num_natCast]
      rfl
  | posInf => exact ⟨fun h => (by cases h), fun h => by cases h⟩
  | negInf => exact ⟨fun h => (by cases h), fun h => by cases h⟩
  | nan => exact ⟨fun h => (by cases h), fun h => by cases h⟩

theorem validateDefinitionDigest_iff {digest : DefinitionDigest} :
    validateDefinitionDigest digest ids = .ok () ↔ digest = createDefinitionDigest ids := by
  constructor
  · intro h
    rw [validateDefinitionDigest] at h
    split at h
    · cases h
    · next version hversion =>
      split at h
      · cases h
      · next hlength =>
        split at h
        · cases h
        · next hids =>
          split at h
          · cases h
          · next hhash =>
            obtain ⟨digestIds, digestVersion, digestHash⟩ := digest
            obtain rfl := nonNegativeInteger_eq_some_iff.mp hversion
            obtain rfl := not_not.mp hlength
            obtain rfl : digestIds = ids := not_not.mp hids
            obtain rfl : digestHash = _ := not_not.mp hhash
            rfl
  · rintro rfl
    exact ResourceState.validateDefinitionDigest_create ids

theorem assertSerializedAmount_iff {amount : JsNumber} :
    assertSerializedAmount amount = .ok () ↔ ∃ value, amount = .fin value := by
  cases amount with
  | fin value => exact ⟨fun _ => ⟨value, rfl⟩, fun _ => rfl⟩
  | posInf => exact ⟨fun h => (by cases h), fun ⟨_, h⟩ => by cases h⟩
  | negInf => exact ⟨fun h => (by cases h), fun ⟨_, h⟩ => by cases h⟩
  | nan => exact ⟨fun h => (by cases h), fun ⟨_, h⟩ => by cases h⟩

theorem assertSerializedCapacity_iff {capacity : Option JsNumber} :
    assertSerializedCapacity capacity = .ok () ↔
      capacity = none ∨ ∃ value, capacity = some (.fin value) ∧ 0 ≤ value := by
  refine ⟨assertSerializedCapacity_ok, ?_⟩
  rintro (rfl | ⟨value, rfl, hvalue⟩)
  · rfl
  · exact if_pos hvalue

theorem assertSerializedFlag_iff {flag : JsNumber} :
    assertSerializedFlag flag = .ok () ↔ ∃ value : ℕ, flag = .fin value ∧ value ≤ 255 := by
  rw [assertSerializedFlag]
  cases hflag : nonNegativeInteger flag with
  | none =>
    refine ⟨fun h => (by cases h), ?_⟩
    rintro ⟨value, hvalue, -⟩
    rw [nonNegativeInteger_eq_some_iff.mpr hvalue] at hflag
    cases hflag
  | some value =>
    obtain rfl := nonNegativeInteger_eq_some_iff.mp hflag
    dsimp only
    constructor
    · intro h
      split at h
      · next hle => exact ⟨value, rfl, hle⟩
      · cases h
    · rintro ⟨value', hvalue, hle⟩
      obtain rfl : value = value' := by exact_mod_cast JsNumber.fin.inj hvalue
      rw [if_pos hle]

variable {index : ℕ}

theorem assertOptionalSerializedBoolean_iff {message : String} :
    assertOptionalSerializedBoolean values index message = .ok () ↔
      ∀ list, values = some list → ∃ value, list[index]? = some (some value) := by
  cases values with
  | none => exact ⟨fun _ _ h => (by cases h), fun _ => rfl⟩
  | some list =>
    rw [assertOptionalSerializedBoolean]
    cases hvalue : list[index]? with
    | none =>
      refine ⟨fun h => (by cases h), fun h => ?_⟩
      obtain ⟨value, hsome⟩ := h list rfl
      rw [hvalue] at hsome
      cases hsome
    | some entry =>
      cases entry with
      | none =>
        refine ⟨fun h => (by cases h), fun h => ?_⟩
        obtain ⟨value, hsome⟩ := h list rfl
        rw [hvalue] at hsome
        cases hsome
      | some value =>
        refine ⟨fun _ list' hlist => ?_, fun _ => rfl⟩
        obtain rfl := some.inj hlist
        exact ⟨value, hvalue⟩

/-! ### The values -/

variable {length : ℕ}

theorem forall_mem_iff_getD {α : Type} {list : List α} {p : α → Prop}
    (hlength : list.length = length) (d : α) :
    (∀ a ∈ list, p a) ↔ ∀ k < length, p (list.getD k d) := by
  subst hlength
  rw [forall_mem_iff_forall_getElem]
  refine forall₂_congr fun k hk => ?_
  rw [getD_eq_getElem?_getD, getElem?_eq_getElem hk, getD_some]

theorem forall_isSome_iff_getElem? {list : List (Option Bool)} (hlength : list.length = length) :
    (∀ value ∈ list, value.isSome) ↔ ∀ k < length, ∃ value, list[k]? = some (some value) := by
  subst hlength
  rw [forall_mem_iff_forall_getElem]
  refine forall₂_congr fun k hk => ?_
  rw [getElem?_eq_getElem hk, isSome_iff_exists]
  exact exists_congr fun value => ⟨fun h => h ▸ rfl, fun h => some.inj h⟩

variable {serialized : SerializedResourceState}

theorem validateSerializedValue_iff :
    validateSerializedValue serialized index = .ok () ↔
      (∃ value, serialized.amounts.getD index .nan = .fin value) ∧
      (serialized.capacities.getD index none = none ∨
        ∃ value, serialized.capacities.getD index none = some (.fin value) ∧ 0 ≤ value) ∧
      (∃ value : ℕ, serialized.flags.getD index .nan = .fin value ∧ value ≤ 255) ∧
      (∀ list, serialized.unlocked = some list → ∃ value, list[index]? = some (some value)) ∧
      ∀ list, serialized.visible = some list → ∃ value, list[index]? = some (some value) := by
  simp only [validateSerializedValue, check_bind_eq_ok, assertSerializedAmount_iff,
    assertSerializedCapacity_iff, assertSerializedFlag_iff, assertOptionalSerializedBoolean_iff]

/-- All values of a save whose arrays fit together pass their checks exactly when they are in
range. -/
theorem values_iff (hamounts : serialized.amounts.length = serialized.ids.length)
    (hcapacities : serialized.capacities.length = serialized.ids.length)
    (hflags : serialized.flags.length = serialized.ids.length)
    (hunlocked : ∀ values, serialized.unlocked = some values →
      values.length = serialized.ids.length)
    (hvisible : ∀ values, serialized.visible = some values →
      values.length = serialized.ids.length) :
    (range serialized.ids.length).forM (validateSerializedValue serialized) = .ok () ↔
      (∀ amount ∈ serialized.amounts, ∃ value, amount = .fin value) ∧
      (∀ capacity ∈ serialized.capacities,
        capacity = none ∨ ∃ value, capacity = some (.fin value) ∧ 0 ≤ value) ∧
      (∀ flag ∈ serialized.flags, ∃ value : ℕ, flag = .fin value ∧ value ≤ 255) ∧
      (∀ values, serialized.unlocked = some values → ∀ value ∈ values, value.isSome) ∧
      ∀ values, serialized.visible = some values → ∀ value ∈ values, value.isSome := by
  have hall : (range serialized.ids.length).forM (validateSerializedValue serialized) =
      .ok () ↔ ∀ k < serialized.ids.length, validateSerializedValue serialized k = .ok () :=
    ⟨fun h k hk => forM_ok h (mem_range.mpr hk),
      fun h => forM_eq_ok fun k hk => h k (mem_range.mp hk)⟩
  have hbooleans : ∀ values : Option (List (Option Bool)),
      (∀ list, values = some list → list.length = serialized.ids.length) →
      ((∀ list, values = some list → ∀ value ∈ list, value.isSome) ↔
        ∀ k < serialized.ids.length, ∀ list, values = some list →
          ∃ value, list[k]? = some (some value)) := by
    intro values hlength
    constructor
    · exact fun h k hk list hlist =>
        (forall_isSome_iff_getElem? (hlength list hlist)).mp (h list hlist) k hk
    · exact fun h list hlist =>
        (forall_isSome_iff_getElem? (hlength list hlist)).mpr fun k hk => h k hk list hlist
  rw [hall, forall_mem_iff_getD hamounts .nan, forall_mem_iff_getD hcapacities none,
    forall_mem_iff_getD hflags .nan, hbooleans _ hunlocked, hbooleans _ hvisible]
  simp only [validateSerializedValue_iff, imp_and, forall_and]

/-! ### The ids -/

variable {liveIds : Fin n → String}

variable {seen : List String}

theorem buildRemap_eq_ok_iff {remap : List (Option (Fin n))} :
    buildRemap liveIds seen ids = .ok remap ↔
      (∀ id ∈ ids, id ∉ seen) ∧ ids.Nodup ∧ remap = ids.map (indexOfId liveIds) := by
  constructor
  · intro h
    -- the ids that were seen grow along the list, as in the loop
    induction ids generalizing seen remap with
    | nil => exact ⟨by simp, nodup_nil, (Except.ok.inj h).symm⟩
    | cons id ids ih =>
      rw [buildRemap] at h
      split at h
      · cases h
      · next hnew =>
        obtain ⟨later, hlater, hremap⟩ := bind_ok h
        obtain ⟨hseen, hnodup, rfl⟩ := ih hlater
        have hid : id ∉ seen := by simpa using hnew
        refine ⟨fun other hother => ?_, nodup_cons.mpr ⟨fun hmem => ?_, hnodup⟩, ?_⟩
        · rcases mem_cons.mp hother with rfl | hmem
          · exact hid
          · exact fun hs => hseen other hmem (mem_cons_of_mem _ hs)
        · exact hseen id hmem mem_cons_self
        · exact (Except.ok.inj hremap).symm
  · rintro ⟨hseen, hnodup, rfl⟩
    exact buildRemap_eq hseen hnodup

/-- What a loop over distinct, non-empty ids knows behind its first one. -/
theorem unseen_tail {id : String} (hids : (id :: ids).Nodup)
    (hall : ∀ other ∈ id :: ids, other ≠ "" ∧ other ∉ seen) :
    ids.Nodup ∧ ∀ other ∈ ids, other ≠ "" ∧ other ∉ id :: seen := by
  obtain ⟨hnew, hnodup⟩ := nodup_cons.mp hids
  refine ⟨hnodup, fun other hother => ?_⟩
  obtain ⟨hempty, hseen⟩ := hall other (mem_cons_of_mem _ hother)
  exact ⟨hempty, not_mem_cons_of_ne_of_not_mem (fun h => hnew (h ▸ hother)) hseen⟩

theorem checkIds_eq_none (hids : ids.Nodup) (hall : ∀ id ∈ ids, id ≠ "" ∧ id ∉ seen) :
    checkIds seen k ids = none := by
  induction ids generalizing seen k with
  | nil => rfl
  | cons id ids ih =>
    obtain ⟨hempty, hseen⟩ := hall id mem_cons_self
    obtain ⟨hnodup, hrest⟩ := unseen_tail hids hall
    rw [checkIds, if_neg hempty, if_neg (by simpa using hseen)]
    exact ih hnodup hrest

/-! ### The reconciliation -/

/-- What the reconciliation computes of a save that passes all checks. -/
def reconciliationOf (serialized : SerializedResourceState) (liveIds : Fin n → String) :
    ResourceReconciliation n :=
  let definitionDigest :=
    serialized.definitionDigest.getD (createDefinitionDigest serialized.ids)
  let expectedDigest := createDefinitionDigest (List.ofFn liveIds)
  { remap := (serialized.ids.map (indexOfId liveIds)).reduceOption
    addedIds := (List.ofFn liveIds).filter fun id => !serialized.ids.contains id
    digestsMatch := definitionDigest.hash == expectedDigest.hash &&
      decide (definitionDigest.version = expectedDigest.version) }

theorem contains_none_eq_false_iff (hids : Function.Injective liveIds) :
    (ids.map (indexOfId liveIds)).contains none = false ↔
      ∀ id ∈ ids, ∃ i, liveIds i = id := by
  rw [Bool.eq_false_iff, Ne, contains_iff_mem, List.mem_map]
  simp only [not_exists, not_and]
  refine forall₂_congr fun id _ => ?_
  rw [← Ne, ne_none_iff_exists']
  exact exists_congr fun i => indexOfId_eq_some_iff hids

theorem checkDefinitionIds_ofFn (hids : Function.Injective liveIds)
    (hnonempty : ∀ i, liveIds i ≠ "") : checkDefinitionIds (ofFn liveIds) = .ok () := by
  have hall : ∀ id ∈ ofFn liveIds, id ≠ "" ∧ id ∉ ([] : List String) := by
    intro id hid
    obtain ⟨i, rfl⟩ := mem_ofFn.mp hid
    exact ⟨hnonempty i, not_mem_nil⟩
  rw [checkDefinitionIds, checkIds_eq_none (nodup_ofFn.mpr hids) hall]

theorem digest_iff :
    validateDefinitionDigest
        (serialized.definitionDigest.getD (createDefinitionDigest serialized.ids))
        serialized.ids = .ok () ↔
      ∀ digest, serialized.definitionDigest = some digest →
        digest = createDefinitionDigest serialized.ids := by
  rw [validateDefinitionDigest_iff]
  cases serialized.definitionDigest with
  | none => exact ⟨fun _ _ h => (by cases h), fun _ => rfl⟩
  | some digest =>
    exact ⟨fun h _ hdigest => some.inj hdigest ▸ h, fun h => h digest rfl⟩

/-- **Reconciliation succeeds exactly for the reconcilable saves.** -/
theorem reconcile_eq_ok_iff (hids : Function.Injective liveIds) (hnonempty : ∀ i, liveIds i ≠ "")
    {reconciliation : ResourceReconciliation n} :
    reconcileSaveAgainstDefinitions serialized liveIds = .ok reconciliation ↔
      Reconcilable serialized liveIds ∧ reconciliation = reconciliationOf serialized liveIds := by
  simp only [reconcileSaveAgainstDefinitions, check_bind_eq_ok, assertSerializedArrayLength_iff,
    assertOptionalArrayLength_iff, validateSerializedIds_iff, digest_iff,
    checkDefinitionIds_ofFn hids hnonempty, true_and]
  simp only [bind_eq_ok, buildRemap_eq_ok_iff]
  constructor
  · rintro ⟨hamounts, hcapacities, hflags, hunlocked, hvisible, hempty, hdigest, hvalues,
      remap, ⟨-, hnodup, rfl⟩, hremap⟩
    obtain ⟨hamount, hcapacity, hflag, hunlock, hvisibility⟩ :=
      (values_iff hamounts hcapacities hflags hunlocked hvisible).mp hvalues
    split at hremap
    · cases hremap
    · next hdefined =>
      have hall := (contains_none_eq_false_iff hids).mp (Bool.eq_false_iff.mpr hdefined)
      exact ⟨⟨hamounts, hcapacities, hflags, hunlocked, hvisible, hempty, hnodup, hdigest,
        hamount, hcapacity, hflag, hunlock, hvisibility, hall⟩, (Except.ok.inj hremap).symm⟩
  · rintro ⟨h, rfl⟩
    have hvalues := (values_iff h.amounts_length h.capacities_length h.flags_length
      h.unlocked_length h.visible_length).mpr
      ⟨h.amounts, h.capacities, h.flags, h.unlocked, h.visible⟩
    refine ⟨h.amounts_length, h.capacities_length, h.flags_length, h.unlocked_length,
      h.visible_length, h.nonempty, h.digest, hvalues, _,
      ⟨fun _ _ => not_mem_nil, h.nodup, rfl⟩, ?_⟩
    rw [(contains_none_eq_false_iff hids).mpr h.defined]
    rfl

theorem map_reduceOption_indexOfId (hids : Function.Injective liveIds)
    (hdefined : ∀ id ∈ ids, ∃ i, liveIds i = id) :
    (ids.map (indexOfId liveIds)).reduceOption.map liveIds = ids := by
  induction ids with
  | nil => rfl
  | cons id ids ih =>
    obtain ⟨i, hi⟩ := hdefined id mem_cons_self
    rw [map_cons, (indexOfId_eq_some_iff hids).mpr hi, reduceOption_cons_of_some,
      map_cons, hi, ih fun other hother => hdefined other (mem_cons_of_mem _ hother)]

/-- **Reconciliation.** Against definitions with distinct, non-empty ids the reconciliation
succeeds exactly for the reconcilable saves. Then the remap is injective and index-aligned, and
the added ids are the definitions the save does not have, in the order of the definitions. -/
theorem reconcileSaveAgainstDefinitions_spec {liveIds : Fin n → String}
    (hids : Function.Injective liveIds) (hnonempty : ∀ i, liveIds i ≠ "")
    (serialized : SerializedResourceState) :
    ((∃ reconciliation,
        reconcileSaveAgainstDefinitions serialized liveIds = .ok reconciliation) ↔
      Reconcilable serialized liveIds) ∧
    ∀ reconciliation, reconcileSaveAgainstDefinitions serialized liveIds = .ok reconciliation →
      reconciliation.remap.Nodup ∧
      reconciliation.remap.map liveIds = serialized.ids ∧
      reconciliation.addedIds = (List.ofFn liveIds).filter fun id => id ∉ serialized.ids := by
  simp only [reconcile_eq_ok_iff hids hnonempty]
  refine ⟨⟨fun ⟨_, h, _⟩ => h, fun h => ⟨_, h, rfl⟩⟩, ?_⟩
  rintro _ ⟨h, rfl⟩
  have haligned : (reconciliationOf serialized liveIds).remap.map liveIds = serialized.ids :=
    map_reduceOption_indexOfId hids h.defined
  have hnodup : ((reconciliationOf serialized liveIds).remap.map liveIds).Nodup :=
    haligned.symm ▸ h.nodup
  refine ⟨hnodup.of_map, haligned, ?_⟩
  exact List.filter_congr fun id _ => by simp

/-- The ids of two definitions. -/
def oreAndGold (i : Fin 2) : String := if i.val = 0 then "gold" else "ore"

/-- A save of ore alone, without a digest. -/
def oreSave : SerializedResourceState where
  ids := ["ore"]
  amounts := [.fin 3]
  capacities := [none]
  flags := [.fin ((2 : ℕ) : ℚ)]
  unlocked := some [some true]
  visible := none
  definitionDigest := none

/-- The ore of the save finds its place and the gold is added. -/
theorem reconcileSaveAgainstDefinitions_spec_oreSave :
    ∃ reconciliation, reconcileSaveAgainstDefinitions oreSave oreAndGold = .ok reconciliation ∧
      reconciliation.remap.map oreAndGold = ["ore"] ∧ reconciliation.addedIds = ["gold"] := by
  have hids : ∀ i j, oreAndGold i = oreAndGold j → i = j := by decide
  have hnonempty : ∀ i, oreAndGold i ≠ "" := by decide
  have hsave : Reconcilable oreSave oreAndGold :=
    { amounts_length := rfl
      capacities_length := rfl
      flags_length := rfl
      unlocked_length := fun values h => by rw [← Option.some.inj h]; rfl
      visible_length := fun values h => by cases h
      nonempty := by decide
      nodup := by decide
      digest := fun digest h => by cases h
      amounts := fun amount h => ⟨3, List.mem_singleton.mp h⟩
      capacities := fun capacity h => .inl (List.mem_singleton.mp h)
      flags := fun flag h => ⟨2, List.mem_singleton.mp h, by decide⟩
      unlocked := fun values h value hvalue => by
        rw [← Option.some.inj h] at hvalue
        rw [List.mem_singleton.mp hvalue]
        rfl
      visible := fun values h => by cases h
      defined := by decide }
  obtain ⟨hiff, hspec⟩ := reconcileSaveAgainstDefinitions_spec hids hnonempty oreSave
  obtain ⟨reconciliation, hreconcile⟩ := hiff.mpr hsave
  obtain ⟨-, haligned, hadded⟩ := hspec reconciliation hreconcile
  refine ⟨reconciliation, hreconcile, haligned, hadded.trans ?_⟩
  decide

end IdleEngine
