import IdleEngine.Lib.Stateful
import IdleEngine.Progression.Coordinator

/-!
# Updating the progression for a step

`updateForStep` recomputes what follows from the current state — flags of achievements, upgrade
effects, unlocks, rates, statuses — and completes achievements, again and again until a pass
completes none. Conditions are evaluated against the state as it is at that moment, and one that
throws stops the update where it stands.
-/

namespace IdleEngine

variable {sh : ContentShape}

/-- Operations on the coordinator that may throw. -/
abbrev ProgressionM (sh : ContentShape) := EStateM String (Coordinator sh)

/-- What an evaluation that reads the state returns or throws. -/
def readState {α : Type} (evaluate : Coordinator sh → Except String α) : ProgressionM sh α :=
  fun c =>
    match evaluate c with
    | .ok a => .ok a c
    | .error message => .error message c

variable (options : ProgressionOptions sh)

/-- `evaluateCondition` in the facade's context. -/
def conditionHolds (condition : Condition) : ProgressionM sh Bool :=
  readState fun c => evaluateCondition (c.conditionContext options) 0 condition

/-- `evaluateCondition` of a condition that may be missing, which then holds. -/
def optionalConditionHolds : Option Condition → ProgressionM sh Bool
  | some condition => conditionHolds options condition
  | none => pure true

/-- `conditions.every(…)` in the facade's context. -/
def allConditionsHold : List Condition → ProgressionM sh Bool
  | [] => pure true
  | condition :: conditions => do
      let holds ← conditionHolds options condition
      if holds then allConditionsHold conditions else pure false

def modifyResources (f : ResourceState sh.resources → ResourceState sh.resources) :
    ProgressionM sh Unit :=
  modify fun c => { c with resources := f c.resources }

/-- `getUpgradeEffects` of the facade. -/
def getUpgradeEffects (step : ℕ) : ProgressionM sh (UpgradeEffects sh) := fun c =>
  .ok (c.getUpgradeEffects options step).1 (c.getUpgradeEffects options step).2

/-! ### Resources -/

/-- `updateUnlockVisibility`, first half for one resource. -/
def unlockWhenMet (i : Fin sh.resources) : ProgressionM sh Unit := do
  match (options.content.resources i).unlockCondition with
  | none => pure ()
  | some condition =>
      let c ← get
      if (c.resources.live i).flags.unlocked then pure ()
      else
        let met ← conditionHolds options condition
        if met then modifyResources (·.unlock i) else pure ()

/-- `updateUnlockVisibility`, second half for one resource: without a visibility condition, a
resource with an unlock condition is shown once it is unlocked. -/
def showWhenMet (i : Fin sh.resources) : ProgressionM sh Unit := do
  let c ← get
  if (c.resources.live i).flags.visible then pure ()
  else
    match (options.content.resources i).visibilityCondition with
    | some condition =>
        let met ← conditionHolds options condition
        if met then modifyResources (·.grantVisibility i) else pure ()
    | none =>
        if (options.content.resources i).unlockCondition.isSome &&
            (c.resources.live i).flags.unlocked then
          modifyResources (·.grantVisibility i)
        else pure ()

/-- `updateUnlockVisibility`. -/
def updateUnlockVisibility : ProgressionM sh Unit :=
  (List.finRange sh.resources).forM fun i => do
    unlockWhenMet options i
    showWhenMet options i

/-! ### Generators -/

/-- `buildGeneratorRates`: rates that are not finite are left out. -/
def buildGeneratorRates (context : FormulaContext) :
    List (RateEntry sh) → Except String (List (GeneratorRateView sh))
  | [] => .ok []
  | entry :: entries => do
      let rate ← entry.rate context
      let later ← buildGeneratorRates context entries
      match rate.finite? with
      | some rate => .ok ({ resource := entry.resource, rate } :: later)
      | none => .ok later

/-- `computeGeneratorVisibility`. -/
def computeGeneratorVisibility (i : Fin sh.generators) (unlockedByUpgrade : Bool) :
    ProgressionM sh Bool := do
  if unlockedByUpgrade then pure true
  else
    match (options.content.generators i).visibilityCondition with
    | some condition => conditionHolds options condition
    | none => do
        let c ← get
        pure (c.generators i).isUnlocked

/-- A generator's new state once it is unlocked or not: `wasUnlocked` is what it was before. -/
def Coordinator.settleGenerator (c : Coordinator sh) (i : Fin sh.generators) (step : ℕ)
    (wasUnlocked isVisible : Bool) : Coordinator sh :=
  let state := c.generators i
  c.setGenerator i
    { state with
      isVisible
      nextPurchaseReadyAtStep :=
        if !wasUnlocked && state.isUnlocked then step + 1 else state.nextPurchaseReadyAtStep
      owned := Coordinator.clampOwned state.owned (options.content.generators i).maxLevel }

/-- A generator unlocked, when `unlock` says so. -/
def Coordinator.unlockGenerator (c : Coordinator sh) (i : Fin sh.generators) (unlock : Bool) :
    Coordinator sh :=
  c.setGenerator i { c.generators i with isUnlocked := (c.generators i).isUnlocked || unlock }

/-- `updateGeneratorStatusForStep`, for one generator. -/
def updateGeneratorStatus (step : ℕ) (effects : UpgradeEffects sh) (i : Fin sh.generators) :
    ProgressionM sh Unit := do
  let unlockedByUpgrade := effects.unlockedGenerators.contains i
  let baseUnlock ← conditionHolds options (options.content.generators i).baseUnlock
  let c ← get
  let wasUnlocked := (c.generators i).isUnlocked
  modify (·.unlockGenerator i (baseUnlock || unlockedByUpgrade))
  let isVisible ← computeGeneratorVisibility options i unlockedByUpgrade
  modify (·.settleGenerator options i step wasUnlocked isVisible)

/-- A rate under the multipliers of its generator and resource. -/
def scaleRate (effects : UpgradeEffects sh) (i : Fin sh.generators)
    (view : GeneratorRateView sh) : GeneratorRateView sh :=
  { view with
    rate := view.rate * effects.generatorRateMultipliers i *
      effects.resourceRateMultipliers view.resource }

/-- A rate of consumption under its further multipliers. -/
def scaleConsumption (effects : UpgradeEffects sh) (i : Fin sh.generators)
    (view : GeneratorRateView sh) : GeneratorRateView sh :=
  { scaleRate effects i view with
    rate := (scaleRate effects i view).rate * effects.generatorConsumptionMultipliers i *
      effects.generatorResourceConsumptionMultipliers i view.resource }

/-- A generator's rates, written. -/
def Coordinator.setRates (c : Coordinator sh) (effects : UpgradeEffects sh)
    (i : Fin sh.generators) (produces consumes : List (GeneratorRateView sh)) :
    Coordinator sh :=
  c.setGenerator i
    { c.generators i with
      produces := produces.map (scaleRate effects i)
      consumes := consumes.map (scaleConsumption effects i) }

/-- `updateGeneratorRatesForStep`, for one generator. -/
def updateGeneratorRates (step : ℕ) (effects : UpgradeEffects sh) (i : Fin sh.generators) :
    ProgressionM sh Unit := do
  let definition := options.content.generators i
  let baseProduces ← readState fun c =>
    buildGeneratorRates (c.formulaContext options 1 step) definition.produces
  let baseConsumes ← readState fun c =>
    buildGeneratorRates (c.formulaContext options 1 step) definition.consumes
  modify (·.setRates effects i baseProduces baseConsumes)

/-- `GeneratorManager.updateForStep`. -/
def updateGenerators (step : ℕ) (effects : UpgradeEffects sh) : ProgressionM sh Unit := do
  (List.finRange sh.generators).forM (updateGeneratorStatus options step effects)
  (List.finRange sh.generators).forM (updateGeneratorRates options step effects)

/-! ### Upgrades and prestige layers -/

/-- `purchases >= maxPurchases`. -/
def reachedMaximum (purchases : ℕ) (maxPurchases : Option ℕ) : Bool :=
  match maxPurchases with
  | some maxPurchases => decide (maxPurchases ≤ purchases)
  | none => false

/-- `resolveUpgradeStatus`. -/
def resolveUpgradeStatus (i : Fin sh.upgrades) : ProgressionM sh UpgradeStatus := do
  let definition := options.content.upgrades i
  let c ← get
  if reachedMaximum (c.upgrades i).purchases definition.maxPurchases then pure .purchased
  else
    let prerequisitesMet ← allConditionsHold options definition.prerequisites
    if prerequisitesMet then
      let unlocked ← optionalConditionHolds options definition.unlockCondition
      pure (if unlocked then .available else .locked)
    else pure .locked

/-- An upgrade's visibility under its status. -/
def upgradeVisible (i : Fin sh.upgrades) (status : UpgradeStatus) : ProgressionM sh Bool :=
  match (options.content.upgrades i).visibilityCondition with
  | some condition => conditionHolds options condition
  | none => pure (decide (status ≠ .locked))

/-- `UpgradeManager.updateForStep`, for one upgrade. -/
def updateUpgrade (i : Fin sh.upgrades) : ProgressionM sh Unit := do
  let status ← resolveUpgradeStatus options i
  modify fun c => c.setUpgrade i { c.upgrades i with status }
  let isVisible ← upgradeVisible options i status
  modify fun c => c.setUpgrade i { c.upgrades i with isVisible }

/-- `PrestigeManager.updateForStep`, for one layer. -/
def updatePrestigeLayer (i : Fin sh.prestigeLayers) : ProgressionM sh Unit := do
  let isUnlocked ← conditionHolds options (options.content.prestigeLayers i).unlockCondition
  modify fun c =>
    { c with
      prestigeLayers := Function.update c.prestigeLayers i { isUnlocked, isVisible := isUnlocked } }

/-! ### Achievements -/

/-- A derived reward of a completed achievement, applied again. -/
def Coordinator.applyDerivedReward (c : Coordinator sh) (i : Fin sh.achievements) :
    Coordinator sh :=
  match (options.content.achievements i).reward with
  | some (.grantFlag flagId value) =>
      { c with achievementFlagState := Function.update c.achievementFlagState flagId (some value) }
  | some (.unlockAutomation automationId) =>
      { c with
        achievementAutomationIds := Function.update c.achievementAutomationIds automationId true }
  | _ => c

/-- The order of the derived rewards: by the step of the last completion, a missing step before
all others, then by index. -/
def completedBefore (achievements : Fin sh.achievements → AchievementState)
    (i j : Fin sh.achievements) : Bool :=
  match (achievements i).lastCompletedStep, (achievements j).lastCompletedStep with
  | none, none => decide (i ≤ j)
  | none, some _ => true
  | some _, none => false
  | some a, some b => decide (a < b ∨ (a = b ∧ i ≤ j))

/-- `collectDerivedRewardEntries`: those without a derived reward have no effect later. -/
def collectDerivedRewardEntries (achievements : Fin sh.achievements → AchievementState) :
    List (Fin sh.achievements) :=
  ((List.finRange sh.achievements).filter fun i => decide (0 < (achievements i).completions)
    ).mergeSort (completedBefore achievements)

/-- `rebuildDerivedRewards`. -/
def Coordinator.rebuildDerivedRewards (c : Coordinator sh) : Coordinator sh :=
  let cleared :=
    { c with achievementFlagState := fun _ => none, achievementAutomationIds := fun _ => false }
  ((collectDerivedRewardEntries c.achievements).foldl (·.applyDerivedReward options ·) cleared
    ).rebuildCombinedAutomationIds

/-- `getAchievementTrackValue`. -/
def getAchievementTrackValue (context : ConditionContext) : AchievementTrack sh → ℚ
  | .resource resourceId _ => context.getResourceAmount resourceId
  | .generatorLevel generatorId => context.getGeneratorLevel generatorId
  | .generatorCount generatorIds _ =>
      ((generatorIds.getD (List.ofFn fun i => (options.content.generators i).id)).map
        context.getGeneratorLevel).sum
  | .upgradeOwned upgradeId => context.getUpgradePurchases upgradeId
  | .flag flagId => if askHook context.isFlagSet flagId then 1 else 0
  | .script scriptId => if askHook context.evaluateScriptCondition scriptId then 1 else 0
  | .customMetric metricId =>
      ((options.getCustomMetricValue.bind fun value => (value metricId).finite?)).getD 0

/-- `isAchievementTrackComplete`. -/
def isAchievementTrackComplete (track : AchievementTrack sh) (measurement target : ℚ) : Bool :=
  let comparator : Comparator :=
    match track with
    | .resource _ comparator | .generatorCount _ comparator => comparator
    | _ => .gte
  compareWithComparator (.fin measurement) (.fin target) comparator

/-- `computeAchievementTarget`. -/
def computeAchievementTarget (achievement : AchievementContent sh) (context : FormulaContext) :
    ℚ :=
  let targetValue := (evaluateFiniteNumericFormula achievement.target context).getD 0
  if 0 < targetValue then targetValue else 1

/-- `grantAchievementResource`. -/
def Coordinator.grantAchievementResource (c : Coordinator sh) (i : Fin sh.resources)
    (amount : ℚ) : Coordinator sh :=
  if amount ≤ 0 then c
  else { c with resources := ((c.resources.unlockAndShow i).addPositive i amount).2 }

/-- The scaling of a repeatable achievement's reward. -/
def rewardScaling (achievement : AchievementContent sh) (context : FormulaContext) : ℚ :=
  match achievement.mode, achievement.repeatable.bind (·.rewardScaling) with
  | .repeatable, some scaling => (evaluateFiniteNumericFormula scaling context).getD 1
  | _, _ => 1

/-- `applyAchievementReward`. -/
def Coordinator.applyAchievementReward (c : Coordinator sh) (achievement : AchievementContent sh)
    (context : FormulaContext) : Coordinator sh :=
  match achievement.reward with
  | some (.grantResource resource amount) =>
      c.grantAchievementResource resource
        ((evaluateFiniteNumericFormula amount context).getD 0 * rewardScaling achievement context)
  | some (.grantUpgrade upgrade) => c.incrementUpgradePurchases options upgrade
  | some (.unlockAutomation automationId) =>
      { c with
        achievementAutomationIds := Function.update c.achievementAutomationIds automationId true
      }.rebuildCombinedAutomationIds
  | some (.grantFlag flagId value) =>
      { c with achievementFlagState := Function.update c.achievementFlagState flagId (some value) }
  | none => c

/-- A number with negative values replaced by zero: `normalizeFiniteNonNegativeNumber`. -/
def normalizeNonNegative (value : ℚ) : ℚ := if value < 0 then 0 else value

/-- The number of ticks before a repeatable achievement can complete again, before the least of
one applies. -/
def resetWindow (achievement : AchievementContent sh) (context : FormulaContext) : ℕ :=
  match achievement.repeatable.bind (·.resetWindow) with
  | some formula =>
      match evaluateFiniteNumericFormula formula context with
      | some ticks => if ticks < 0 then 1 else ⌊ticks⌋.toNat
      | none => 1
  | none => 1

/-- `step < nextRepeatableAtStep`. -/
def waitsUntil (nextRepeatableAtStep : Option ℕ) (step : ℕ) : Bool :=
  match nextRepeatableAtStep with
  | some nextRepeatableAtStep => decide (step < nextRepeatableAtStep)
  | none => false

namespace Coordinator

/-- `updateRepeatableAchievementForStep`: whether the achievement completes, and the coordinator
afterwards. -/
def updateRepeatableAchievement (c : Coordinator sh) (step : ℕ) (i : Fin sh.achievements)
    (target : ℚ) (eligible : Bool) : Bool × Coordinator sh :=
  let definition := options.content.achievements i
  let state := c.achievements i
  let maxRepeats := definition.repeatable.bind (·.maxRepeats)
  if reachedMaximum state.completions maxRepeats then
    (false, c.setAchievement i
      { state with
        progress := max (normalizeNonNegative state.progress) target
        nextRepeatableAtStep := none })
  else if waitsUntil state.nextRepeatableAtStep step then
    (false, c.setAchievement i
      { state with progress := max (normalizeNonNegative state.progress) target })
  else
    let measurement :=
      getAchievementTrackValue options (c.conditionContext options) definition.track
    if eligible && isAchievementTrackComplete definition.track measurement target then
      let completions := state.completions + 1
      let context := c.formulaContext options completions step
      let nextEligibleAt := step + max 1 (resetWindow definition context)
      let completed := c.setAchievement i
        { state with
          completions
          lastCompletedStep := some step
          progress := target
          nextRepeatableAtStep :=
            if reachedMaximum completions maxRepeats then none else some nextEligibleAt }
      (true, completed.applyAchievementReward options definition context)
    else
      (false, c.setAchievement i { state with progress := normalizeNonNegative measurement })

/-- `updateSingleAchievementForStep`. -/
def updateSingleAchievement (c : Coordinator sh) (step : ℕ) (i : Fin sh.achievements)
    (target : ℚ) (eligible : Bool) : Bool × Coordinator sh :=
  let definition := options.content.achievements i
  let state := c.achievements i
  if 0 < state.completions then
    (false, c.setAchievement i
      { state with progress := max (normalizeNonNegative state.progress) target })
  else if !eligible then (false, c.setAchievement i { state with progress := 0 })
  else
    let measurement :=
      getAchievementTrackValue options (c.conditionContext options) definition.track
    if isAchievementTrackComplete definition.track measurement target then
      let completed := c.setAchievement i
        { state with
          completions := 1
          lastCompletedStep := some step
          progress := target
          nextRepeatableAtStep := none }
      (true, completed.applyAchievementReward options definition (c.formulaContext options 1 step))
    else
      (false, c.setAchievement i
        { state with
          progress := max (normalizeNonNegative state.progress) (normalizeNonNegative measurement) })

/-- The update of an achievement in its mode. -/
def stepAchievement (c : Coordinator sh) (step : ℕ) (i : Fin sh.achievements) (target : ℚ)
    (eligible : Bool) : Bool × Coordinator sh :=
  match (options.content.achievements i).mode with
  | .repeatable => c.updateRepeatableAchievement options step i target eligible
  | .oneShot | .incremental => c.updateSingleAchievement options step i target eligible

/-- The level at which an achievement's formulas are evaluated. -/
def nextCompletionIndex (c : Coordinator sh) (i : Fin sh.achievements) : ℕ :=
  match (options.content.achievements i).mode with
  | .repeatable => (c.achievements i).completions + 1
  | .oneShot | .incremental => 1

/-- The target of an achievement at a step. -/
def achievementTarget (c : Coordinator sh) (step : ℕ) (i : Fin sh.achievements) : ℚ :=
  computeAchievementTarget (options.content.achievements i)
    (c.formulaContext options (c.nextCompletionIndex options i) step)

end Coordinator

/-- `computeAchievementVisibility`. -/
def computeAchievementVisibility (i : Fin sh.achievements) (completions : ℕ) (eligible : Bool) :
    ProgressionM sh Bool :=
  if 0 < completions then pure true
  else if eligible then
    optionalConditionHolds options (options.content.achievements i).visibilityCondition
  else pure false

/-- `AchievementTracker.updateForStep`, for one achievement: whether it completes. -/
def updateAchievement (step : ℕ) (i : Fin sh.achievements) : ProgressionM sh Bool := do
  let c ← get
  let target := c.achievementTarget options step i
  modify fun c => c.setAchievement i { c.achievements i with target }
  let eligible ← optionalConditionHolds options (options.content.achievements i).unlockCondition
  let isVisible ←
    computeAchievementVisibility options i (c.achievements i).completions eligible
  modify fun c => c.setAchievement i { c.achievements i with isVisible }
  modifyGet fun c => c.stepAchievement options step i target eligible

/-- `AchievementTracker.updateForStep`: whether any achievement completes. -/
def updateAchievements (step : ℕ) : ProgressionM sh Bool :=
  (List.finRange sh.achievements).foldlM (fun completedAny i => do
    let completed ← updateAchievement options step i
    pure (completedAny || completed)) false

/-! ### The facade -/

/-- One pass of `updateForStep`: whether an achievement completed. -/
def updatePass (step : ℕ) : ProgressionM sh Bool := do
  modify (·.rebuildDerivedRewards options)
  let upgradeEffects ← getUpgradeEffects options step
  updateUnlockVisibility options
  updateGenerators options step upgradeEffects
  (List.finRange sh.upgrades).forM (updateUpgrade options)
  (List.finRange sh.prestigeLayers).forM (updatePrestigeLayer options)
  updateAchievements options step

/-- At most the given number of passes, until one completes no achievement. -/
def updatePasses (step : ℕ) : ℕ → ProgressionM sh Unit
  | 0 => pure ()
  | passes + 1 => do
      let achievementsUnlocked ← updatePass options step
      if achievementsUnlocked then updatePasses step passes else pure ()

/-- `updateForStep`. -/
def updateForStep (step : ℕ) : ProgressionM sh Unit := do
  modify fun c => { c with lastUpdatedStep := step }
  updatePasses options step (sh.achievements + 1)

/-! ### Construction -/

/-- The context in which a new generator's rates are evaluated. -/
def defaultRateContext : FormulaContext :=
  { variableValue := formulaVariables 1 0 0
    resource := fun _ => none
    generator := fun _ => none
    upgrade := fun _ => none
    automation := fun _ => none
    prestigeLayer := fun _ => none }

/-- `createGeneratorRecord`. -/
def createGeneratorRecord (generator : GeneratorContent sh) :
    Except String (GeneratorState sh) := do
  let produces ← buildGeneratorRates defaultRateContext generator.produces
  let consumes ← buildGeneratorRates defaultRateContext generator.consumes
  return { owned := generator.initialLevel, enabled := true, produces, consumes
           isUnlocked := decide (0 < generator.initialLevel), isVisible := true
           nextPurchaseReadyAtStep := 1 }

/-- The index of the resource that counts a layer's resets. -/
def prestigeCountIndex (i : Fin sh.prestigeLayers) : Option (Fin sh.resources) :=
  indexOfId (fun i => (options.content.resources i).id)
    (prestigeCountId (options.content.prestigeLayers i).id)

/-- The check of `PrestigeManager` that a layer's count is a resource. -/
def checkPrestigeCount (i : Fin sh.prestigeLayers) : Except String Unit :=
  match prestigeCountIndex options i with
  | some _ => .ok ()
  | none =>
      let layerId := (options.content.prestigeLayers i).id
      .error ("Prestige layer \"" ++ layerId ++ "\" requires a resource named \"" ++
        prestigeCountId layerId ++ "\" to track prestige count. " ++
        "Add this resource to your content pack's resources array.")

/-- The generator state of an index that has no record. -/
def blankGenerator : GeneratorState sh :=
  { owned := 0, enabled := true, isUnlocked := false, isVisible := true, produces := []
    consumes := [], nextPurchaseReadyAtStep := 1 }

/-- A coordinator of new managers, before its first update. -/
def Coordinator.initial (resources : ResourceState sh.resources)
    (generators : Fin sh.generators → GeneratorState sh) : Coordinator sh :=
  { resources
    capacityOverrideIds := []
    dirtyToleranceOverrideIds := []
    generators
    upgrades := fun _ => { status := .locked, isVisible := true, purchases := 0 }
    upgradeEffectsCache := none
    flagState := fun _ => none
    upgradeAutomationIds := fun _ => false
    prestigeLayers := fun _ => { isUnlocked := false, isVisible := false }
    achievements := fun _ =>
      { isVisible := false, completions := 0, progress := 0, target := 0
        nextRepeatableAtStep := none, lastCompletedStep := none }
    achievementFlagState := fun _ => none
    achievementAutomationIds := fun _ => false
    grantedAutomationIds := fun _ => false
    usedTokens := fun _ => none
    lastUpdatedStep := 0 }

/-- `createProgressionCoordinator`, without an initial state. -/
def createProgressionCoordinator : Except String (Coordinator sh) := do
  let resources ← createResourceState (fun i => (options.content.resources i).definition)
    options.precision
  let generators ← (List.ofFn options.content.generators).mapM createGeneratorRecord
  (List.finRange sh.prestigeLayers).forM (checkPrestigeCount options)
  let initial := Coordinator.initial resources fun i => generators.getD i blankGenerator
  match updateForStep options 0 initial with
  | .ok _ c => .ok c
  | .error message _ => .error message

end IdleEngine
