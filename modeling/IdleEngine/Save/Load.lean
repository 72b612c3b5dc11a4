import IdleEngine.Lib.Outcome
import IdleEngine.Save.Format

/-!
# What loading a save keeps

A loaded save is in normal form: written out and loaded again it comes back as it is
(`load_toJs`). Against the save it was loaded from it is compared component by component. A
component that a save **contains** is a property that is not undefined; `Carries` says that another
value has the same property.

A save of version 1 keeps everything that has the type its format declares. The migration from
version 0 names every section of the legacy format but one: the pseudo-random registry `prd` is
dropped, so a legacy save is kept exactly when it has none.
-/

namespace IdleEngine

open JsValue List

/-! ### Reading what was written -/

@[simp]
theorem get_record_cons (key name : String) (entry : JsValue) (fields : List (String × JsValue)) :
    (record ((name, entry) :: fields)).get key =
      if name = key then entry else (record fields).get key := by
  simp only [JsValue.get, fields_record, OrderedMap.find]
  split <;> rfl

@[simp]
theorem get_record_nil (key : String) : (record []).get key = .undefined := rfl

@[simp]
theorem has_record_cons (key name : String) (entry : JsValue) (fields : List (String × JsValue)) :
    (record ((name, entry) :: fields)).has key =
      if name = key then true else (record fields).has key := by
  simp only [JsValue.has, fields_record, OrderedMap.find]
  split <;> rfl

variable {value : JsValue}

@[simp]
theorem isRecord_record (fields : List (String × JsValue)) : (record fields).isRecord = true := rfl

/-- Only objects have properties. -/
theorem isRecord_of_get {key : String} (h : value.get key ≠ .undefined) :
    value.isRecord = true := by
  cases value with
  | object kind fields => rfl
  | array elements => rfl
  | _ => exact absurd rfl h

theorem readNonNegativeInt_nat (n : ℕ) :
    readNonNegativeInt (number (.fin n)) = some n := by
  have hnonneg : ¬((n : ℚ) < 0) := not_lt.mpr (Nat.cast_nonneg n)
  simp only [readNonNegativeInt, JsValue.finite?, JsValue.number?, JsNumber.finite?, Option.bind_some,
    if_neg hnonneg, Nat.floor_natCast]

theorem readNonNegativeNumber_nonneg_eq {amount : ℚ} (h : 0 ≤ amount) :
    readNonNegativeNumber (number (.fin amount)) = some amount := by
  simp only [readNonNegativeNumber, JsValue.finite?, JsValue.number?, JsNumber.finite?,
    Option.bind_some, if_neg (not_lt.mpr h)]

/-! ### Loading twice -/

/-- An optional number as a property. -/
def optionalNumber : Option ℚ → JsValue
  | none => .undefined
  | some value => number (.fin value)

@[simp]
theorem finite?_optionalNumber (value : Option ℚ) : (optionalNumber value).finite? = value := by
  cases value <;> rfl

theorem get_optionalField (key name : String) (value : Option ℚ) (fields : List (String × JsValue))
    (hnew : (record fields).get name = .undefined) :
    (record (optionalField name value ++ fields)).get key =
      if name = key then optionalNumber value else (record fields).get key := by
  cases value with
  | none =>
    by_cases hkey : name = key
    · subst hkey
      simpa [optionalField, optionalNumber] using hnew
    · simp [optionalField, hkey]
  | some value => simp [optionalField, optionalNumber]

/-- The properties of a normalized runtime section. -/
theorem get_runtime_toJs (runtime : GameStateSaveRuntime) (key : String) :
    runtime.toJs.get key =
      if "step" = key then number (.fin runtime.step)
      else if "accumulatorBacklogMs" = key then number (.fin runtime.accumulatorBacklogMs)
      else if "hostFrameBacklogMs" = key then number (.fin runtime.hostFrameBacklogMs)
      else if "creditedBacklogMs" = key then number (.fin runtime.creditedBacklogMs)
      else if "rngSeed" = key then optionalNumber runtime.rngSeed
      else if "rngState" = key then optionalNumber runtime.rngState
      else .undefined := by
  have hstate : ∀ key, (record (optionalField "rngState" runtime.rngState ++ [])).get key =
      if "rngState" = key then optionalNumber runtime.rngState else .undefined := fun key =>
    get_optionalField key _ _ _ rfl
  have hseed : ∀ key, (record (optionalField "rngSeed" runtime.rngSeed ++
      (optionalField "rngState" runtime.rngState ++ []))).get key =
      if "rngSeed" = key then optionalNumber runtime.rngSeed
      else if "rngState" = key then optionalNumber runtime.rngState else .undefined := fun key => by
    rw [get_optionalField key _ _ _ (by rw [hstate, if_neg (by simp)]), hstate]
  rw [← hseed key, append_nil]
  simp only [GameStateSaveRuntime.toJs, cons_append, nil_append, get_record_cons]

theorem normalizeRuntime_toJs (runtime : GameStateSaveRuntime) :
    normalizeRuntime runtime.toJs = runtime := by
  have hrecord : runtime.toJs.isRecord = true := rfl
  have hcredited : creditedBacklogOf runtime.toJs = runtime.creditedBacklogMs := by
    rw [creditedBacklogOf, get_runtime_toJs]
    simp [readNonNegativeNumber_nonneg_eq runtime.credited_nonneg]
  have hhost : hostFrameBacklogOf runtime.toJs = runtime.hostFrameBacklogMs := by
    rw [hostFrameBacklogOf, get_runtime_toJs]
    simp [readNonNegativeNumber_nonneg_eq runtime.hostFrame_nonneg]
  obtain ⟨step, total, hostFrame, credited, rngSeed, rngState, hnonneg, hnonneg', rfl⟩ := runtime
  simp only [normalizeRuntime, hrecord, if_true, hcredited, hhost, get_runtime_toJs,
    GameStateSaveRuntime.mk.injEq]
  simp [readNonNegativeInt_nat]

theorem normalizeEntitySystemState_toJs (entities : SerializedEntitySystemState) :
    normalizeEntitySystemState entities.toJs = entities := by
  simp [normalizeEntitySystemState, SerializedEntitySystemState.toJs, arraySection, JsValue.array?]

theorem getSaveVersion_toJs (save : GameStateSaveFormat) :
    getSaveVersion save.toJs = some gameStateSaveSchemaVersion := by
  simp [getSaveVersion, GameStateSaveFormat.toJs, readNonNegativeInt_nat]

theorem validateSaveFormatV1_toJs (stringOf : JsValue → String) (save : GameStateSaveFormat) :
    validateSaveFormatV1 stringOf save.toJs = .ok save := by
  obtain ⟨savedAt, resources, progression, automation, transforms, entities, prd, commandQueue,
    runtime, hsavedAt, hprd⟩ := save
  have hprd' : normalizePrdRegistryState prd = prd := by
    rcases hprd with rfl | hrecord
    · rfl
    · rw [normalizePrdRegistryState, if_pos hrecord]
  simp [validateSaveFormatV1, GameStateSaveFormat.toJs, JsValue.number?, JsValue.finite?,
    JsNumber.finite?, not_lt.mpr hsavedAt, arraySection, JsValue.array?,
    normalizeEntitySystemState_toJs, hprd', normalizeRuntime_toJs]

/-- **Loading is idempotent.** A loaded save loads as itself. -/
theorem load_toJs (stringOf : JsValue → String) (save : GameStateSaveFormat) :
    loadGameStateSaveFormat stringOf save.toJs = .ok save := by
  rw [loadGameStateSaveFormat, loadGameStateSaveFormatWith, detectedVersion, getSaveVersion_toJs]
  simp only [if_true]
  exact validateSaveFormatV1_toJs stringOf save

/-! ### What a save contains -/

/-- Every listed property that `source` contains is the same in `target`. -/
def Carries (keys : List String) (source target : JsValue) : Prop :=
  ∀ key ∈ keys, source.get key ≠ .undefined → target.get key = source.get key

/-- The step and the backlog of a runtime section. -/
def runtimeKeys : List String :=
  ["step", "accumulatorBacklogMs", "hostFrameBacklogMs", "creditedBacklogMs"]

/-- The parts of an entity section. -/
def entityKeys : List String := ["entities", "instances", "entityInstances"]

/-- The components of a save of version 1, in the value it is loaded as. -/
structure PreservesV1 (value out : JsValue) : Prop where
  sections : Carries ["resources", "progression", "automation", "transforms", "prd", "commandQueue"]
    value out
  entities : Carries entityKeys (value.get "entities") (out.get "entities")
  runtime : Carries runtimeKeys (value.get "runtime") (out.get "runtime")

/-- The same resources, apart from the automation that legacy resources may embed. -/
structure SameButAutomation (source target : JsValue) : Prop where
  same : source.has "automationState" = false → target = source
  properties : ∀ key, key ≠ "automationState" → target.get key = source.get key

/-- The components of a save of version 0, in the value it is loaded as. -/
structure PreservesV0 (value out : JsValue) : Prop where
  resources : SameButAutomation (value.get "resources") (out.get "resources")
  progression : (value.get "progression").isRecord = false →
    out.get "progression" = value.get "progression"
  progression_properties : ∀ key, key ≠ "resources" →
    (out.get "progression").get key = (value.get "progression").get key
  progression_resources : SameButAutomation ((value.get "progression").get "resources")
    ((out.get "progression").get "resources")
  sections : Carries ["automation", "transforms", "prd", "commandQueue"] value out
  embedded : value.get "automation" = .undefined →
    (value.get "resources").get "automationState" ≠ .undefined →
      out.get "automation" = (value.get "resources").get "automationState"
  runtime : Carries runtimeKeys (value.get "runtime") (out.get "runtime")

/-- A section is missing or a list. -/
def IsSection (value : JsValue) : Prop := value = .undefined ∨ ∃ elements, value = array elements

/-- A runtime section of the declared type: a natural number of steps, backlogs that are not
negative, and a total that is the sum of its parts. -/
structure WellFormedRuntime (fields : JsValue) : Prop where
  step : fields.get "step" = .undefined ∨ ∃ n : ℕ, fields.get "step" = number (.fin n)
  hostFrame : fields.get "hostFrameBacklogMs" = .undefined ∨
    ∃ hostFrame : ℚ, 0 ≤ hostFrame ∧ fields.get "hostFrameBacklogMs" = number (.fin hostFrame)
  credited : fields.get "creditedBacklogMs" = .undefined ∨
    ∃ credited : ℚ, 0 ≤ credited ∧ fields.get "creditedBacklogMs" = number (.fin credited)
  total : fields.get "accumulatorBacklogMs" = .undefined ∨
    ∃ total credited : ℚ, fields.get "accumulatorBacklogMs" = number (.fin total) ∧
      (fields.get "creditedBacklogMs" = .undefined ∧ credited = 0 ∨
        fields.get "creditedBacklogMs" = number (.fin credited)) ∧
      (fields.get "hostFrameBacklogMs" = .undefined ∧ credited ≤ total ∨
        fields.get "hostFrameBacklogMs" = number (.fin (total - credited)))

/-- A save of version 1 whose sections have their declared types. -/
structure CompleteV1 (value : JsValue) : Prop where
  automation : IsSection (value.get "automation")
  transforms : IsSection (value.get "transforms")
  prd : value.get "prd" = .undefined ∨ (value.get "prd").isRecord = true
  entities : ∀ key ∈ entityKeys, IsSection ((value.get "entities").get key)
  runtime : WellFormedRuntime (value.get "runtime")

/-- A save of version 0 whose sections have their declared types, without a registry. -/
structure CompleteV0 (value : JsValue) : Prop where
  automation : IsSection (value.get "automation")
  embedded : value.get "automation" = .undefined →
    IsSection ((value.get "resources").get "automationState")
  transforms : IsSection (value.get "transforms")
  prd : value.get "prd" = .undefined
  runtime : WellFormedRuntime (value.get "runtime")

/-! ### Section by section -/

theorem arraySection_iff (value : JsValue) :
    (value ≠ .undefined → array (arraySection value) = value) ↔ IsSection value := by
  constructor
  · intro h
    by_cases hmissing : value = .undefined
    · exact .inl hmissing
    · exact .inr ⟨_, (h hmissing).symm⟩
  · rintro (hmissing | ⟨elements, rfl⟩) hpresent
    · exact absurd hmissing hpresent
    · rfl

theorem prd_iff (value : JsValue) :
    (value ≠ .undefined → normalizePrdRegistryState value = value) ↔
      value = .undefined ∨ value.isRecord = true := by
  rw [normalizePrdRegistryState]
  by_cases hrecord : value.isRecord = true
  · simp [hrecord]
  · rw [if_neg hrecord]
    constructor
    · intro h
      by_contra hne
      rw [not_or] at hne
      exact hne.1 (h hne.1).symm
    · rintro (hmissing | hrecord') hpresent
      · exact absurd hmissing hpresent
      · exact absurd hrecord' hrecord

theorem entities_iff (value : JsValue) :
    Carries entityKeys value (normalizeEntitySystemState value).toJs ↔
      ∀ key ∈ entityKeys, IsSection (value.get key) := by
  have hget : ∀ key ∈ entityKeys, value.isRecord = true →
      (normalizeEntitySystemState value).toJs.get key = array (arraySection (value.get key)) := by
    intro key hkey hrecord
    simp only [entityKeys, mem_cons, not_mem_nil, or_false] at hkey
    rw [normalizeEntitySystemState, if_neg (by simp [hrecord])]
    rcases hkey with rfl | rfl | rfl <;> simp [SerializedEntitySystemState.toJs]
  refine forall₂_congr fun key hkey => ?_
  rw [← arraySection_iff]
  refine forall_congr' fun hpresent => ?_
  rw [hget key hkey (isRecord_of_get hpresent)]

theorem backlog_eq_getD {fallback : ℚ}
    (h : value = .undefined ∨ ∃ amount : ℚ, 0 ≤ amount ∧ value = number (.fin amount)) :
    value ≠ .undefined → number (.fin ((readNonNegativeNumber value).getD fallback)) = value := by
  rintro hpresent
  rcases h with hmissing | ⟨amount, hnonneg, rfl⟩
  · exact absurd hmissing hpresent
  · rw [readNonNegativeNumber_nonneg_eq hnonneg]
    rfl

theorem runtime_iff (value : JsValue) :
    Carries runtimeKeys value (normalizeRuntime value).toJs ↔ WellFormedRuntime value := by
  have hcredited := creditedBacklogOf_nonneg value
  have hhost := hostFrameBacklogOf_nonneg value
  -- what the normalized section has for a property of the input
  have hstep_get : (normalizeRuntime value).toJs.get "step" =
      number (.fin (normalizeRuntime value).step) := by rw [get_runtime_toJs]; simp
  have htotal_get : (normalizeRuntime value).toJs.get "accumulatorBacklogMs" =
      number (.fin (normalizeRuntime value).accumulatorBacklogMs) := by rw [get_runtime_toJs]; simp
  have hhost_get : (normalizeRuntime value).toJs.get "hostFrameBacklogMs" =
      number (.fin (normalizeRuntime value).hostFrameBacklogMs) := by rw [get_runtime_toJs]; simp
  have hcredited_get : (normalizeRuntime value).toJs.get "creditedBacklogMs" =
      number (.fin (normalizeRuntime value).creditedBacklogMs) := by rw [get_runtime_toJs]; simp
  by_cases hrecord : value.isRecord = true
  swap
  · -- without properties both sides hold
    have hmissing : ∀ key, value.get key = .undefined := fun key =>
      by_contra fun hne => hrecord (isRecord_of_get hne)
    exact ⟨fun _ => ⟨.inl (hmissing _), .inl (hmissing _), .inl (hmissing _), .inl (hmissing _)⟩,
      fun _ key _ hpresent => absurd (hmissing key) hpresent⟩
  have hstep_eq : (normalizeRuntime value).step = (readNonNegativeInt (value.get "step")).getD 0 := by
    simp only [normalizeRuntime, hrecord, if_true]
  have htotal_eq : (normalizeRuntime value).accumulatorBacklogMs =
      hostFrameBacklogOf value + creditedBacklogOf value := by
    simp only [normalizeRuntime, hrecord, if_true]
  have hhost_eq : (normalizeRuntime value).hostFrameBacklogMs = hostFrameBacklogOf value := by
    simp only [normalizeRuntime, hrecord, if_true]
  have hcredited_eq : (normalizeRuntime value).creditedBacklogMs = creditedBacklogOf value := by
    simp only [normalizeRuntime, hrecord, if_true]
  have hcarries : Carries runtimeKeys value (normalizeRuntime value).toJs ↔
      (value.get "step" ≠ .undefined →
        number (.fin ((readNonNegativeInt (value.get "step")).getD 0 : ℕ)) = value.get "step") ∧
      (value.get "accumulatorBacklogMs" ≠ .undefined →
        number (.fin (hostFrameBacklogOf value + creditedBacklogOf value)) =
          value.get "accumulatorBacklogMs") ∧
      (value.get "hostFrameBacklogMs" ≠ .undefined →
        number (.fin (hostFrameBacklogOf value)) = value.get "hostFrameBacklogMs") ∧
      (value.get "creditedBacklogMs" ≠ .undefined →
        number (.fin (creditedBacklogOf value)) = value.get "creditedBacklogMs") := by
    simp only [Carries, runtimeKeys, forall_mem_cons, not_mem_nil, IsEmpty.forall_iff,
      implies_true, and_true, hstep_get, htotal_get, hhost_get, hcredited_get, hstep_eq, htotal_eq,
      hhost_eq, hcredited_eq]
  rw [hcarries]
  constructor
  · rintro ⟨hstep, htotal, hhostFrame, hcreditedBacklog⟩
    refine ⟨?_, ?_, ?_, ?_⟩
    · by_cases hmissing : value.get "step" = .undefined
      · exact .inl hmissing
      · exact .inr ⟨_, (hstep hmissing).symm⟩
    · by_cases hmissing : value.get "hostFrameBacklogMs" = .undefined
      · exact .inl hmissing
      · exact .inr ⟨_, hhost, (hhostFrame hmissing).symm⟩
    · by_cases hmissing : value.get "creditedBacklogMs" = .undefined
      · exact .inl hmissing
      · exact .inr ⟨_, hcredited, (hcreditedBacklog hmissing).symm⟩
    · by_cases hmissing : value.get "accumulatorBacklogMs" = .undefined
      · exact .inl hmissing
      · refine .inr ⟨_, creditedBacklogOf value, (htotal hmissing).symm, ?_, ?_⟩
        · by_cases hnone : value.get "creditedBacklogMs" = .undefined
          · exact .inl ⟨hnone, by rw [creditedBacklogOf, hnone]; rfl⟩
          · exact .inr (hcreditedBacklog hnone).symm
        · by_cases hnone : value.get "hostFrameBacklogMs" = .undefined
          · exact .inl ⟨hnone, by linarith⟩
          · refine .inr ?_
            rw [add_sub_cancel_right]
            exact (hhostFrame hnone).symm
  · rintro ⟨hstep, hhostFrame, hcreditedBacklog, htotal⟩
    refine ⟨?_, ?_, backlog_eq_getD hhostFrame,
      backlog_eq_getD hcreditedBacklog⟩
    · intro hpresent
      rcases hstep with hmissing | ⟨n, hn⟩
      · exact absurd hmissing hpresent
      · rw [hn, readNonNegativeInt_nat]
        rfl
    · intro hpresent
      rcases htotal with hmissing | ⟨total, credited, htotal, hcreditedPart, hhostPart⟩
      · exact absurd hmissing hpresent
      -- the credited part is what the section says, and the host part is the rest
      have hread : ∀ {part : JsValue} {amount : ℚ}, (part = .undefined ∨ ∃ amount' : ℚ,
          0 ≤ amount' ∧ part = number (.fin amount')) → part = number (.fin amount) →
          readNonNegativeNumber part = some amount := by
        rintro part amount (hmissing | ⟨amount', hnonneg, hpart⟩) hsome
        · rw [hmissing] at hsome
          cases hsome
        · rw [hpart] at hsome
          obtain rfl : amount' = amount := by simpa using hsome
          rw [hpart, readNonNegativeNumber_nonneg_eq hnonneg]
      have hcreditedOf : creditedBacklogOf value = credited := by
        rcases hcreditedPart with ⟨hnone, rfl⟩ | hsome
        · rw [creditedBacklogOf, hnone]
          rfl
        · rw [creditedBacklogOf, hread hcreditedBacklog hsome, Option.getD_some]
      have hhostOf : hostFrameBacklogOf value = total - credited := by
        rcases hhostPart with ⟨hnone, hle⟩ | hsome
        · have hnonneg : 0 ≤ total := by linarith [hcreditedOf ▸ hcredited]
          rw [hostFrameBacklogOf, hnone, htotal, readNonNegativeNumber_nonneg_eq hnonneg, hcreditedOf]
          exact max_eq_right (by simpa using hle)
        · rw [hostFrameBacklogOf, hread hhostFrame hsome, Option.getD_some]
      rw [hcreditedOf, hhostOf, sub_add_cancel, htotal]

/-! ### Legacy sections -/

theorem stripEmbeddedAutomation_same (value : JsValue) :
    SameButAutomation value (stripEmbeddedAutomation value) where
  same := by
    intro hnone
    rw [stripEmbeddedAutomation, if_pos hnone, ite_self]
  properties := by
    intro key hkey
    rw [stripEmbeddedAutomation]
    split
    · rfl
    · split
      · rfl
      · simp only [JsValue.get, fields_record, OrderedMap.find_erase, if_neg (Ne.symm hkey)]

theorem get_stripProgression {progression : JsValue} (hrecord : progression.isRecord = true)
    (key : String) : (stripProgression progression).get key =
      if "resources" = key then stripEmbeddedAutomation (progression.get "resources")
      else progression.get key := by
  rw [stripProgression, if_pos hrecord]
  simp only [JsValue.get, fields_record, OrderedMap.find_setEntries]
  split <;> rfl

/-- The automation of a legacy save is kept when its section, or failing that the embedded one, is
a list. -/
theorem legacyAutomation_iff (value : JsValue) :
    ((value.get "automation" ≠ .undefined →
        array (legacyAutomation value) = value.get "automation") ∧
      (value.get "automation" = .undefined →
        (value.get "resources").get "automationState" ≠ .undefined →
          array (legacyAutomation value) = (value.get "resources").get "automationState")) ↔
      IsSection (value.get "automation") ∧
        (value.get "automation" = .undefined →
          IsSection ((value.get "resources").get "automationState")) := by
  by_cases hmissing : value.get "automation" = .undefined
  · have hlegacy : legacyAutomation value =
        arraySection ((value.get "resources").get "automationState") := by
      rw [legacyAutomation, hmissing, arraySection]
      cases ((value.get "resources").get "automationState").array? <;> rfl
    have hembedded := arraySection_iff ((value.get "resources").get "automationState")
    constructor
    · rintro ⟨-, h⟩
      exact ⟨.inl hmissing, fun _ => hembedded.mp (hlegacy ▸ h hmissing)⟩
    · rintro ⟨-, h⟩
      exact ⟨fun hpresent => absurd hmissing hpresent, fun _ => hlegacy ▸ hembedded.mpr (h hmissing)⟩
  · constructor
    · rintro ⟨h, -⟩
      exact ⟨.inr ⟨_, (h hmissing).symm⟩, fun hnone => absurd hnone hmissing⟩
    · rintro ⟨hnone | ⟨elements, hsection⟩, -⟩
      · exact absurd hnone hmissing
      · refine ⟨fun _ => ?_, fun hnone => absurd hnone hmissing⟩
        rw [legacyAutomation, hsection]
        rfl

/-! ### Accepted saves -/

variable {stringOf : JsValue → String} {out : GameStateSaveFormat}

/-- What validation makes of a value it accepts, property by property. -/
theorem validate_ok (h : validateSaveFormatV1 stringOf value = .ok out) :
    out.toJs.get "resources" = value.get "resources" ∧
      out.toJs.get "progression" = value.get "progression" ∧
      out.toJs.get "automation" = array (arraySection (value.get "automation")) ∧
      out.toJs.get "transforms" = array (arraySection (value.get "transforms")) ∧
      out.toJs.get "entities" = (normalizeEntitySystemState (value.get "entities")).toJs ∧
      out.toJs.get "prd" = normalizePrdRegistryState (value.get "prd") ∧
      out.toJs.get "commandQueue" = value.get "commandQueue" ∧
      out.toJs.get "runtime" = (normalizeRuntime (value.get "runtime")).toJs := by
  rw [validateSaveFormatV1] at h
  split at h
  · cases h
  split at h
  · cases h
  split at h
  · cases h
  split at h
  · cases h
  split at h
  · cases h
  split at h
  · cases h
  split at h
  · cases h
  obtain rfl := Except.ok.inj h
  simp [GameStateSaveFormat.toJs]

/-- The save that the migration builds. -/
theorem migrateLegacyV0ToV1_ok {migrated : JsValue} (h : migrateLegacyV0ToV1 value = .ok migrated) :
    getSaveVersion migrated = some gameStateSaveSchemaVersion ∧
      migrated.get "resources" = stripEmbeddedAutomation (value.get "resources") ∧
      migrated.get "progression" = stripProgression (value.get "progression") ∧
      migrated.get "automation" = array (legacyAutomation value) ∧
      migrated.get "transforms" = array (arraySection (value.get "transforms")) ∧
      migrated.get "prd" = .undefined ∧ migrated.get "commandQueue" = value.get "commandQueue" ∧
      migrated.get "runtime" = (normalizeRuntime (value.get "runtime")).toJs := by
  rw [migrateLegacyV0ToV1] at h
  split at h
  · cases h
  · obtain rfl := Except.ok.inj h
    simp [getSaveVersion, readNonNegativeInt_nat]

theorem findMigrationPath_default (version : ℕ) (hversion : version ≠ gameStateSaveSchemaVersion) :
    findMigrationPath defaultGameStateSaveMigrations version gameStateSaveSchemaVersion =
      if version = 0 then some defaultGameStateSaveMigrations else none := by
  have hne : (version : ℚ) ≠ gameStateSaveSchemaVersion := fun h => hversion (by exact_mod_cast h)
  rw [findMigrationPath, if_neg hne]
  by_cases hzero : version = 0
  · subst hzero
    simp [searchRounds, defaultGameStateSaveMigrations, followMigrations, gameStateSaveSchemaVersion]
  · have hzero' : ¬(0 : ℚ) = version := fun h => hzero (by exact_mod_cast h.symm)
    simp [searchRounds, defaultGameStateSaveMigrations, followMigrations, hzero, hzero']

/-- An accepted save is validated as it is, or after the migration from version 0. -/
theorem load_cases (h : loadGameStateSaveFormat stringOf value = .ok out) :
    (detectedVersion value = some 0 ∧ ∃ migrated, migrateLegacyV0ToV1 value = .ok migrated ∧
        validateSaveFormatV1 stringOf migrated = .ok out) ∨
      (detectedVersion value = some 1 ∧ validateSaveFormatV1 stringOf value = .ok out) := by
  rw [loadGameStateSaveFormat, loadGameStateSaveFormatWith] at h
  cases hdetected : detectedVersion value with
  | none => simp [hdetected] at h
  | some version =>
    rw [hdetected] at h
    simp only at h
    by_cases hcurrent : version = gameStateSaveSchemaVersion
    · subst hcurrent
      rw [if_pos rfl] at h
      exact .inr ⟨rfl, h⟩
    · have hne : (version : ℚ) ≠ gameStateSaveSchemaVersion := fun heq => hcurrent (by exact_mod_cast heq)
      rw [if_neg hne, findMigrationPath_default version hcurrent] at h
      by_cases hzero : version = 0
      · subst hzero
        refine .inl ⟨rfl, ?_⟩
        simp only [if_true, defaultGameStateSaveMigrations, runMigrations] at h
        cases hmigrated : migrateLegacyV0ToV1 value with
        | error message => simp [hmigrated] at h
        | ok migrated =>
          have hversion := (migrateLegacyV0ToV1_ok hmigrated).1
          simp only [hmigrated, hversion, ne_eq, not_true_eq_false, if_false] at h
          exact ⟨migrated, rfl, h⟩
      · simp [hzero] at h

/-- A save of version 1 is kept exactly when its sections have their declared types. -/
theorem preservesV1_iff (hout : validateSaveFormatV1 stringOf value = .ok out) :
    PreservesV1 value out.toJs ↔ CompleteV1 value := by
  obtain ⟨oresources, oprogression, oautomation, otransforms, oentities, oprd, oqueue, oruntime⟩ :=
    validate_ok hout
  have hautomation_iff := arraySection_iff (value.get "automation")
  have htransforms_iff := arraySection_iff (value.get "transforms")
  have hentities_iff := entities_iff (value.get "entities")
  have hprd_iff := prd_iff (value.get "prd")
  have hruntime_iff := runtime_iff (value.get "runtime")
  constructor
  · intro hkeeps
    have hsections := hkeeps.sections
    simp only [Carries, forall_mem_cons, not_mem_nil, IsEmpty.forall_iff, implies_true,
      and_true, true_and, oresources, oprogression, oautomation, otransforms, oprd, oqueue]
      at hsections
    obtain ⟨hkeeps_automation, hkeeps_transforms, hkeeps_prd⟩ := hsections
    exact ⟨hautomation_iff.mp hkeeps_automation, htransforms_iff.mp hkeeps_transforms,
      hprd_iff.mp hkeeps_prd, hentities_iff.mp (oentities ▸ hkeeps.entities),
      hruntime_iff.mp (oruntime ▸ hkeeps.runtime)⟩
  · intro hcomplete
    refine ⟨?_, ?_, ?_⟩
    · simp only [Carries, forall_mem_cons, not_mem_nil, IsEmpty.forall_iff, implies_true,
        and_true, true_and, oresources, oprogression, oautomation, otransforms, oprd, oqueue]
      exact ⟨hautomation_iff.mpr hcomplete.automation, htransforms_iff.mpr hcomplete.transforms,
        hprd_iff.mpr hcomplete.prd⟩
    · rw [oentities]
      exact hentities_iff.mpr hcomplete.entities
    · rw [oruntime]
      exact hruntime_iff.mpr hcomplete.runtime

/-- A save of version 0 is kept exactly when its sections have their declared types and it has no
registry. -/
theorem preservesV0_iff {migrated : JsValue} (hmigrated : migrateLegacyV0ToV1 value = .ok migrated)
    (hout : validateSaveFormatV1 stringOf migrated = .ok out) :
    PreservesV0 value out.toJs ↔ CompleteV0 value := by
  obtain ⟨-, hresources, hprogression, hautomation, htransforms, hprd, hqueue, hruntime⟩ :=
    migrateLegacyV0ToV1_ok hmigrated
  obtain ⟨oresources, oprogression, oautomation, otransforms, -, oprd, oqueue, oruntime⟩ :=
    validate_ok hout
  rw [hresources] at oresources
  rw [hprogression] at oprogression
  rw [hautomation] at oautomation
  rw [htransforms] at otransforms
  rw [hprd] at oprd
  rw [hqueue] at oqueue
  rw [hruntime, normalizeRuntime_toJs] at oruntime
  have hautomation_iff := legacyAutomation_iff value
  have htransforms_iff := arraySection_iff (value.get "transforms")
  have hruntime_iff := runtime_iff (value.get "runtime")
  constructor
  · intro hkeeps
    -- each section has its own condition
    have hsections := hkeeps.sections
    simp only [Carries, forall_mem_cons, not_mem_nil, IsEmpty.forall_iff, implies_true,
      and_true, oautomation, otransforms, oprd, oqueue] at hsections
    obtain ⟨hkeeps_automation, hkeeps_transforms, hkeeps_prd⟩ := hsections
    have hboth := hautomation_iff.mp ⟨hkeeps_automation, oautomation ▸ hkeeps.embedded⟩
    refine ⟨hboth.1, hboth.2, htransforms_iff.mp hkeeps_transforms, ?_,
      hruntime_iff.mp (oruntime ▸ hkeeps.runtime)⟩
    -- a registry would have to be carried, but the migration drops it
    by_contra hpresent
    exact hpresent (hkeeps_prd hpresent).symm
  · intro hcomplete
    have hboth := hautomation_iff.mpr ⟨hcomplete.automation, hcomplete.embedded⟩
    refine ⟨?_, ?_, ?_, ?_, ?_, ?_, ?_⟩
    · rw [oresources]
      exact stripEmbeddedAutomation_same _
    · intro hvalue
      rw [oprogression, stripProgression, if_neg (by simp [hvalue])]
    · intro key hkey
      rw [oprogression]
      by_cases hrecord : (value.get "progression").isRecord = true
      · rw [get_stripProgression hrecord, if_neg (Ne.symm hkey)]
      · rw [stripProgression, if_neg hrecord]
    · rw [oprogression]
      by_cases hrecord : (value.get "progression").isRecord = true
      · rw [get_stripProgression hrecord, if_pos rfl]
        exact stripEmbeddedAutomation_same _
      · rw [stripProgression, if_neg hrecord]
        exact ⟨fun _ => rfl, fun _ _ => rfl⟩
    · simp only [Carries, forall_mem_cons, not_mem_nil, IsEmpty.forall_iff, implies_true,
        and_true, oautomation, otransforms, oprd, oqueue]
      exact ⟨hboth.1, htransforms_iff.mpr hcomplete.transforms,
        fun hpresent => absurd hcomplete.prd hpresent⟩
    · rw [oautomation]
      exact hboth.2
    · rw [oruntime]
      exact hruntime_iff.mpr hcomplete.runtime

/-- A legacy save with some more sections. -/
def legacySave (sections : List (String × JsValue)) : JsValue :=
  record ([("resources", record [("automationState", array [])]), ("progression", record []),
    ("commandQueue", record [])] ++ sections)

end IdleEngine
