import IdleEngine.Progression.UpgradeEffects
import IdleEngine.Resource.Mutators

/-!
# The progression coordinator

The state of a progression: the resource store, the states of generators, upgrades, prestige
layers and achievements, and what is derived from the purchased upgrades. The derived part is
recomputed whenever the purchases change or a step is taken, and applied to the store: unlocks,
capacities, tolerances.

Display names, costs, hints and metrics are views that nothing here reads, and are left out; so
are the events that upgrades and achievements publish.
-/

namespace IdleEngine

structure GeneratorRateView (sh : ContentShape) where
  resource : Fin sh.resources
  rate : ℚ

structure GeneratorState (sh : ContentShape) where
  owned : ℕ
  enabled : Bool
  isUnlocked : Bool
  isVisible : Bool
  produces : List (GeneratorRateView sh)
  consumes : List (GeneratorRateView sh)
  nextPurchaseReadyAtStep : ℕ

inductive UpgradeStatus
  | locked
  | available
  | purchased
  deriving DecidableEq, Repr

structure UpgradeState where
  status : UpgradeStatus
  isVisible : Bool
  purchases : ℕ

structure PrestigeLayerState where
  isUnlocked : Bool
  isVisible : Bool

structure AchievementState where
  isVisible : Bool
  completions : ℕ
  progress : ℚ
  target : ℚ
  nextRepeatableAtStep : Option ℕ
  lastCompletedStep : Option ℕ

/-- The state of `ProgressionFacade` and its managers. The cache of evaluated effects is dropped
whenever the purchases change, so a revision counter beside it is not kept. `usedTokens` are the
confirmation tokens of prestiges, each with the time it was used. -/
structure Coordinator (sh : ContentShape) where
  resources : ResourceState sh.resources
  capacityOverrideIds : List (Fin sh.resources)
  dirtyToleranceOverrideIds : List (Fin sh.resources)
  generators : Fin sh.generators → GeneratorState sh
  upgrades : Fin sh.upgrades → UpgradeState
  upgradeEffectsCache : Option (ℕ × UpgradeEffects sh)
  flagState : String → Option Bool
  upgradeAutomationIds : String → Bool
  prestigeLayers : Fin sh.prestigeLayers → PrestigeLayerState
  achievements : Fin sh.achievements → AchievementState
  achievementFlagState : String → Option Bool
  achievementAutomationIds : String → Bool
  grantedAutomationIds : String → Bool
  usedTokens : String → Option ℚ
  lastUpdatedStep : ℕ

variable {sh : ContentShape}

/-! ### What upgrades do to the store -/

namespace ResourceState

variable {n : ℕ}

def unlockIfLocked (s : ResourceState n) (i : Fin n) : ResourceState n :=
  if (s.live i).flags.unlocked then s else s.unlock i

def showIfHidden (s : ResourceState n) (i : Fin n) : ResourceState n :=
  if (s.live i).flags.visible then s else s.grantVisibility i

/-- Unlock and show a resource, where it is not: `applyUnlockedResources`, for one resource. -/
def unlockAndShow (s : ResourceState n) (i : Fin n) : ResourceState n :=
  (s.unlockIfLocked i).showIfHidden i

/-- `applyCapacityOverrides` on the store: the resources that had an override and have none now
get their base capacity back. -/
def applyCapacityOverrides (s : ResourceState n) (base : Fin n → WithTop ℚ)
    (overrideIds : List (Fin n)) (overrides : OrderedMap (Fin n) Capacity) : ResourceState n :=
  let s := overrideIds.foldl
    (fun s i => if (overrides.get? i).isSome then s else s.setCapacityTo i (base i)) s
  overrides.entries.foldl (fun s entry => s.setCapacityTo entry.1 entry.2) s

/-- `applyDirtyToleranceOverrides` on the store. -/
def applyDirtyToleranceOverrides (s : ResourceState n) (base : Fin n → ℚ)
    (overrideIds : List (Fin n)) (overrides : OrderedMap (Fin n) ℚ) : ResourceState n :=
  let s := overrideIds.foldl (fun s i => (s.setDirtyTolerance i (.fin (base i))).2) s
  overrides.entries.foldl (fun s entry => (s.setDirtyTolerance entry.1 (.fin entry.2)).2) s

end ResourceState

namespace Coordinator

variable (options : ProgressionOptions sh) (c : Coordinator sh)

/-- What formulas read of the coordinator. -/
def inputs : FormulaInputs sh :=
  { amount := fun i => (c.resources.live i).amount
    owned := fun i => (c.generators i).owned
    purchases := fun i => (c.upgrades i).purchases }

def setGenerator (i : Fin sh.generators) (state : GeneratorState sh) : Coordinator sh :=
  { c with generators := Function.update c.generators i state }

def setUpgrade (i : Fin sh.upgrades) (state : UpgradeState) : Coordinator sh :=
  { c with upgrades := Function.update c.upgrades i state }

def setAchievement (i : Fin sh.achievements) (state : AchievementState) : Coordinator sh :=
  { c with achievements := Function.update c.achievements i state }

/-- `rebuildCombinedAutomationIds`. -/
def rebuildCombinedAutomationIds : Coordinator sh :=
  { c with
    grantedAutomationIds := fun id => c.upgradeAutomationIds id || c.achievementAutomationIds id }

/-- `applyDerivedStateFromEffects`. -/
def applyDerivedStateFromEffects (effects : UpgradeEffects sh) : Coordinator sh :=
  { c with flagState := effects.grantedFlags, upgradeAutomationIds := effects.grantedAutomations }

/-- `applyUnlockedResources`. -/
def applyUnlockedResources (resources : List (Fin sh.resources)) : Coordinator sh :=
  { c with resources := resources.foldl ResourceState.unlockAndShow c.resources }

/-- `applyUnlockedGenerators`, for one generator. -/
def applyUnlockedGenerator (step : ℕ) (c : Coordinator sh) (i : Fin sh.generators) :
    Coordinator sh :=
  let state := c.generators i
  c.setGenerator i
    { state with
      isUnlocked := true
      isVisible := true
      nextPurchaseReadyAtStep :=
        if state.isUnlocked then state.nextPurchaseReadyAtStep else step + 1 }

/-- `applyUnlockedGenerators`. -/
def applyUnlockedGenerators (generators : List (Fin sh.generators)) (step : ℕ) :
    Coordinator sh :=
  generators.foldl (applyUnlockedGenerator step) c

/-- `applyCapacityOverrides`. -/
def applyCapacityOverrides (overrides : OrderedMap (Fin sh.resources) Capacity) :
    Coordinator sh :=
  { c with
    resources := c.resources.applyCapacityOverrides options.baseCapacity c.capacityOverrideIds
      overrides
    capacityOverrideIds := overrides.entries.map Prod.fst }

/-- `applyDirtyToleranceOverrides`. -/
def applyDirtyToleranceOverrides (overrides : OrderedMap (Fin sh.resources) ℚ) :
    Coordinator sh :=
  { c with
    resources := c.resources.applyDirtyToleranceOverrides options.baseDirtyTolerance
      c.dirtyToleranceOverrideIds overrides
    dirtyToleranceOverrideIds := overrides.entries.map Prod.fst }

/-- `UpgradeManager.getUpgradeEffects`: the effects at a step, from the cache when it is of that
step. -/
def cachedUpgradeEffects (step : ℕ) : UpgradeEffects sh :=
  match c.upgradeEffectsCache with
  | some (cachedStep, effects) =>
      if cachedStep = step then effects else evaluateUpgradeEffects options c.inputs step
  | none => evaluateUpgradeEffects options c.inputs step

/-- The evaluated effects, applied. -/
def applyUpgradeEffects (step : ℕ) (effects : UpgradeEffects sh) : Coordinator sh :=
  ((((({ c with upgradeEffectsCache := some (step, effects) }
    ).applyDerivedStateFromEffects effects).rebuildCombinedAutomationIds.applyUnlockedResources
      effects.unlockedResources).applyUnlockedGenerators effects.unlockedGenerators step
    ).applyCapacityOverrides options effects.resourceCapacityOverrides
    ).applyDirtyToleranceOverrides options effects.dirtyToleranceOverrides

/-- `getUpgradeEffects`: the effects at a step, and the coordinator with them applied. -/
def getUpgradeEffects (step : ℕ) : UpgradeEffects sh × Coordinator sh :=
  let effects := c.cachedUpgradeEffects options step
  (effects, c.applyUpgradeEffects options step effects)

/-- The purchases of an upgrade, written; `onPurchasesChanged` applies the new effects. -/
def writePurchases (i : Fin sh.upgrades) (purchases : ℕ) : Coordinator sh :=
  let c := { c.setUpgrade i { c.upgrades i with purchases } with upgradeEffectsCache := none }
  (c.getUpgradeEffects options c.lastUpdatedStep).2

/-- A number of purchases, at most the largest. -/
def capPurchases (i : Fin sh.upgrades) (purchases : ℕ) : ℕ :=
  match (options.content.upgrades i).maxPurchases with
  | some maxPurchases => min purchases maxPurchases
  | none => purchases

/-- `incrementUpgradePurchases`. -/
def incrementUpgradePurchases (i : Fin sh.upgrades) : Coordinator sh :=
  c.writePurchases options i (capPurchases options i ((c.upgrades i).purchases + 1))

/-- `setUpgradePurchases`. -/
def setUpgradePurchases (i : Fin sh.upgrades) (purchases : ℕ) : Coordinator sh :=
  c.writePurchases options i (capPurchases options i purchases)

/-- `clampOwned`. -/
def clampOwned (owned : ℕ) (maxLevel : Option ℕ) : ℕ :=
  match maxLevel with
  | some maxLevel => min owned maxLevel
  | none => owned

/-- `incrementGeneratorOwned`. -/
def incrementGeneratorOwned (i : Fin sh.generators) (count : ℕ) : Coordinator sh :=
  c.setGenerator i
    { c.generators i with
      owned := clampOwned ((c.generators i).owned + count) (options.content.generators i).maxLevel }

/-- `setGeneratorEnabled`. -/
def setGeneratorEnabled (i : Fin sh.generators) (enabled : Bool) : Coordinator sh :=
  c.setGenerator i { c.generators i with enabled }

/-- `resetGeneratorForPrestige`. -/
def resetGeneratorForPrestige (resetStep : ℕ) (c : Coordinator sh) (i : Fin sh.generators) :
    Coordinator sh :=
  let initialLevel := (options.content.generators i).initialLevel
  c.setGenerator i
    { c.generators i with
      owned := initialLevel
      enabled := true
      isUnlocked := decide (0 < initialLevel)
      nextPurchaseReadyAtStep := resetStep + 1 }

/-- The condition context of the facade. -/
def conditionContext : ConditionContext :=
  { getResourceAmount := c.inputs.getResourceAmount options
    getGeneratorLevel := c.inputs.getGeneratorLevel options
    getUpgradePurchases := c.inputs.getUpgradePurchases options
    maxConditionDepth := options.maxConditionDepth
    hasPrestigeLayerUnlocked := some fun id =>
      match indexOfId (fun i => (options.content.prestigeLayers i).id) id with
      | some i => (c.prestigeLayers i).isUnlocked
      | none => false
    isFlagSet := some fun id => (c.achievementFlagState id).getD ((c.flagState id).getD false)
    evaluateScriptCondition := options.evaluateScriptCondition }

/-- The formula context of the facade at a level and a step. -/
def formulaContext (level step : ℕ) : FormulaContext :=
  createFormulaEvaluationContext options c.inputs level step

end Coordinator

end IdleEngine
