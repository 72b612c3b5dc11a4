import IdleEngine.Production.Accumulators
import IdleEngine.Progression.Prestige
import IdleEngine.Save.Resources

/-!
# Saving and loading the progression

A save of the progression holds what cannot be derived: the resources, how many generators and
upgrades there are, how far the achievements are, the accumulators. Loading checks the schema
version, then writes one part after the other — upgrades one by one, each write applying the
effects of all upgrades at that moment — and last updates the progression for the saved step.
-/

namespace IdleEngine

open Stateful

variable {sh : ContentShape}

/-! ### The format -/

/-- `SerializedProgressionGeneratorStateV1`. In all entries of a save a value that is no number
is the not-a-number value, one that is no boolean is none, and an entry that is no object reads
as one with a blank id. -/
structure SerializedGenerator where
  id : String
  owned : JsNumber
  enabled : Option Bool
  isUnlocked : Option Bool
  nextPurchaseReadyAtStep : Option JsNumber

/-- `SerializedProgressionUpgradeStateV1`. -/
structure SerializedUpgrade where
  id : String
  purchases : JsNumber

/-- `SerializedProgressionAchievementStateV2`. -/
structure SerializedAchievement where
  id : String
  completions : JsNumber
  progress : JsNumber
  nextRepeatableAtStep : Option JsNumber
  lastCompletedStep : Option JsNumber

/-- `SerializedProgressionCoordinatorState`; a list that is none is missing. -/
structure SerializedProgression where
  schemaVersion : ℤ
  step : JsNumber
  resources : SerializedResourceState
  generators : Option (List SerializedGenerator)
  upgrades : Option (List SerializedUpgrade)
  achievements : Option (List SerializedAchievement)
  productionAccumulators : Option SerializedProductionAccumulators

/-- `normalizeNonNegativeInt`. -/
def normalizeNonNegativeInt (value : JsNumber) : ℕ :=
  match value.finite? with
  | some value => if value < 0 then 0 else ⌊value⌋.toNat
  | none => 0

/-- A whole number that is not negative is kept. -/
theorem normalizeNonNegativeInt_natCast (n : ℕ) : normalizeNonNegativeInt (.fin n) = n := by
  have hn : ¬((n : ℚ) < 0) := not_lt.mpr (Nat.cast_nonneg n)
  simp [normalizeNonNegativeInt, JsNumber.finite?, hn]

/-- `normalizeNonNegativeNumber`. -/
def normalizeNonNegativeNumber (value : JsNumber) : ℚ :=
  match value.finite? with
  | some value => if value < 0 then 0 else value
  | none => 0

/-- `normalizeOptionalNonNegativeInt`. -/
def normalizeOptionalNonNegativeInt (value : Option JsNumber) : Option ℕ :=
  match value.bind JsNumber.finite? with
  | some value => if value < 0 then none else some ⌊value⌋.toNat
  | none => none

/-! ### The state that is saved -/

/-- A coordinator with its production system. -/
structure Progression (options : ProgressionOptions sh) where
  coordinator : Coordinator sh
  accumulators : ProductionAccumulators options

/-- `PROGRESSION_COORDINATOR_SAVE_SCHEMA_VERSION`. -/
def progressionSaveSchemaVersion : ℤ := 2

/-- `serializeProgressionCoordinatorState`. -/
def serializeProgressionCoordinatorState {options : ProgressionOptions sh}
    (p : Progression options) : SerializedProgression :=
  let c := p.coordinator
  { schemaVersion := progressionSaveSchemaVersion
    step := .fin c.lastUpdatedStep
    resources := c.resources.exportForSave
    generators := some (List.ofFn fun i =>
      { id := (options.content.generators i).id
        owned := .fin (c.generators i).owned
        enabled := some (c.generators i).enabled
        isUnlocked := some (c.generators i).isUnlocked
        nextPurchaseReadyAtStep := some (.fin (c.generators i).nextPurchaseReadyAtStep) })
    upgrades := some (List.ofFn fun i =>
      { id := (options.content.upgrades i).id
        purchases := .fin (c.upgrades i).purchases })
    achievements := some (List.ofFn fun i =>
      { id := (options.content.achievements i).id
        completions := .fin (c.achievements i).completions
        progress := .fin (normalizeNonNegativeNumber (.fin (c.achievements i).progress))
        nextRepeatableAtStep := (c.achievements i).nextRepeatableAtStep.map fun s => .fin s
        lastCompletedStep := (c.achievements i).lastCompletedStep.map fun s => .fin s })
    productionAccumulators := some p.accumulators.exportAccumulators }

/-! ### Restoring -/

variable (options : ProgressionOptions sh)

/-- `assertSupportedSchemaVersion`. -/
def assertSupportedSchemaVersion (schemaVersion : ℤ) : Except String Unit :=
  if schemaVersion = 1 ∨ schemaVersion = progressionSaveSchemaVersion then .ok ()
  else
    .error ("Unsupported progression coordinator save schema version: " ++ toString schemaVersion)

namespace Coordinator

variable (c : Coordinator sh)

/-- `resetGeneratorState`. -/
def resetGeneratorState : Coordinator sh :=
  { c with
    generators := fun i =>
      { c.generators i with
        owned := 0, enabled := true, isUnlocked := false, nextPurchaseReadyAtStep := 1 } }

/-- One saved generator, written. -/
def writeGenerator (i : Fin sh.generators) (entry : SerializedGenerator) : Coordinator sh :=
  c.setGenerator i
    { c.generators i with
      owned := normalizeNonNegativeInt entry.owned
      enabled := entry.enabled.getD true
      isUnlocked := entry.isUnlocked.getD false
      nextPurchaseReadyAtStep :=
        match entry.nextPurchaseReadyAtStep with
        | some step => normalizeNonNegativeInt step
        | none => (c.generators i).nextPurchaseReadyAtStep }

/-- One pass of `restoreGeneratorState`. -/
def restoreGenerator (c : Coordinator sh) (entry : SerializedGenerator) : Coordinator sh :=
  if isNonBlankString entry.id then
    match indexOfId (fun i => (options.content.generators i).id) entry.id with
    | some i => c.writeGenerator i entry
    | none => c
  else c

/-- `resetUpgradeState`. -/
def resetUpgradeState : Coordinator sh :=
  (List.finRange sh.upgrades).foldl (fun c i => c.setUpgradePurchases options i 0) c

/-- One pass of `restoreUpgradeState`. -/
def restoreUpgrade (c : Coordinator sh) (entry : SerializedUpgrade) : Coordinator sh :=
  if isNonBlankString entry.id then
    match indexOfId (fun i => (options.content.upgrades i).id) entry.id with
    | some i => c.setUpgradePurchases options i (normalizeNonNegativeInt entry.purchases)
    | none => c
  else c

/-- `resetAchievementState`. -/
def resetAchievementState : Coordinator sh :=
  { c with
    achievements := fun _ =>
      { isVisible := false, completions := 0, progress := 0, target := 0
        nextRepeatableAtStep := none, lastCompletedStep := none } }

/-- One pass of `restoreAchievementState`. -/
def restoreAchievement (c : Coordinator sh) (entry : SerializedAchievement) : Coordinator sh :=
  if isNonBlankString entry.id then
    match indexOfId (fun i => (options.content.achievements i).id) entry.id with
    | some i =>
        c.setAchievement i
          { c.achievements i with
            completions := normalizeNonNegativeInt entry.completions
            progress := normalizeNonNegativeNumber entry.progress
            nextRepeatableAtStep := normalizeOptionalNonNegativeInt entry.nextRepeatableAtStep
            lastCompletedStep := normalizeOptionalNonNegativeInt entry.lastCompletedStep }
    | none => c
  else c

end Coordinator

/-- The passes over a section of the save; one that is missing cannot be iterated. -/
def restoreSection {α : Type} (name : String) (entries : Option (List α))
    (restore : Coordinator sh → α → Coordinator sh) : ProgressionM sh Unit :=
  match entries with
  | none => throw (name ++ " is not iterable")
  | some entries => modify fun c => entries.foldl restore c

/-- `hydrateResources` of the coordinator. -/
def hydrateCoordinatorResources (serialized : SerializedResourceState) : ProgressionM sh Unit :=
  fun c =>
    match c.resources.hydrateResources (fun i => (options.content.resources i).id) serialized with
    | .ok resources => .ok () { c with resources }
    | .error message => .error message c

/-- The part of `hydrateProgressionCoordinatorState` before the accumulators. -/
def restoreProgressionSections (serialized : SerializedProgression) (skipResources : Bool) :
    ProgressionM sh Unit := do
  readState fun _ => assertSupportedSchemaVersion serialized.schemaVersion
  if skipResources then pure () else hydrateCoordinatorResources options serialized.resources
  modify (·.resetGeneratorState)
  restoreSection "serialized.generators" serialized.generators
    (Coordinator.restoreGenerator options)
  modify (·.resetUpgradeState options)
  restoreSection "serialized.upgrades" serialized.upgrades (Coordinator.restoreUpgrade options)
  modify (·.resetAchievementState)
  if serialized.schemaVersion = 2 then
    restoreSection "serialized.achievements" serialized.achievements
      (Coordinator.restoreAchievement options)
  else pure ()

variable {options}

/-- A computation of the coordinator, in a progression. -/
def inCoordinator {α : Type} (m : ProgressionM sh α) : EStateM String (Progression options) α :=
  zoom (fun p => p.coordinator) (fun coordinator p => { p with coordinator }) m

/-- `restoreAccumulators`, of accumulators that may be missing in the save. -/
def Progression.restoreSavedAccumulators (p : Progression options)
    (saved : Option SerializedProductionAccumulators) : Progression options :=
  match saved with
  | some saved => { p with accumulators := ProductionAccumulators.restoreAccumulators saved }
  | none => p

/-- `hydrateProgressionCoordinatorState`. -/
def hydrateProgressionCoordinatorState (serialized : Option SerializedProgression)
    (skipResources : Bool) : EStateM String (Progression options) Unit := do
  match serialized with
  | none => pure ()
  | some serialized => do
      inCoordinator (restoreProgressionSections options serialized skipResources)
      modify (·.restoreSavedAccumulators serialized.productionAccumulators)
      inCoordinator (updateForStep options (normalizeNonNegativeInt serialized.step))

/-- What `hydrateGameStateSaveFormat` does to the progression: the resources of the save first,
then the progression without its resources. -/
def loadProgression (resources : SerializedResourceState)
    (progression : Option SerializedProgression) : EStateM String (Progression options) Unit := do
  inCoordinator (hydrateCoordinatorResources options resources)
  hydrateProgressionCoordinatorState progression true

end IdleEngine
