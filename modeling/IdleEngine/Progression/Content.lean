import IdleEngine.JsValue
import IdleEngine.Progression.Condition
import IdleEngine.Resource.State

/-!
# Content

What a content pack says about the progression: resources, generators, upgrades, prestige layers
and achievements. A reference from one definition to another is the index it resolves to; an id
that names nothing has no effect where the engine meets it. Conditions and saves keep their ids.
-/

namespace IdleEngine

/-- How many definitions of each kind a content pack has. -/
structure ContentShape where
  resources : ℕ
  generators : ℕ
  upgrades : ℕ
  prestigeLayers : ℕ
  achievements : ℕ

/-- A `NormalizedResource`. -/
structure ResourceContent where
  id : String
  startAmount : Option JsNumber
  capacity : Option JsNumber
  unlocked : Option Bool
  visible : Option Bool
  dirtyTolerance : Option JsNumber
  unlockCondition : Option Condition
  visibilityCondition : Option Condition

/-- The definition `ResourceManager` makes of a resource: locked and visible by default. -/
def ResourceContent.definition (resource : ResourceContent) : ResourceDefinition :=
  { id := resource.id
    startAmount := some (resource.startAmount.getD (.fin 0))
    capacity := resource.capacity
    unlocked := some (resource.unlocked.getD false)
    visible := some (resource.visible.getD true)
    dirtyTolerance := resource.dirtyTolerance }

/-- The capacity of a resource without upgrades. -/
def ResourceContent.baseCapacity (resource : ResourceContent) : WithTop ℚ :=
  (parseCapacity (resource.capacity.getD .posInf)).getD ⊤

/-- An entry of a generator's `produces` or `consumes`. -/
structure RateEntry (sh : ContentShape) where
  resource : Fin sh.resources
  rate : NumericFormula

/-- A `NormalizedGenerator`, without what its purchases cost. -/
structure GeneratorContent (sh : ContentShape) where
  id : String
  initialLevel : ℕ
  maxLevel : Option ℕ
  baseUnlock : Condition
  visibilityCondition : Option Condition
  produces : List (RateEntry sh)
  consumes : List (RateEntry sh)

inductive AdjustmentOperation
  | add
  | multiply
  | set
  deriving DecidableEq, Repr

/-- The effects of an upgrade that change state; `emitEvent` only publishes. -/
inductive UpgradeEffect (sh : ContentShape)
  | modifyGeneratorRate (generator : Fin sh.generators) (operation : AdjustmentOperation)
      (value : NumericFormula)
  | modifyGeneratorCost (generator : Fin sh.generators) (operation : AdjustmentOperation)
      (value : NumericFormula)
  | modifyGeneratorConsumption (generator : Fin sh.generators)
      (resource : Option (Fin sh.resources)) (operation : AdjustmentOperation)
      (value : NumericFormula)
  | modifyResourceRate (resource : Fin sh.resources) (operation : AdjustmentOperation)
      (value : NumericFormula)
  | modifyResourceCapacity (resource : Fin sh.resources) (operation : AdjustmentOperation)
      (value : NumericFormula)
  | alterDirtyTolerance (resource : Fin sh.resources) (operation : AdjustmentOperation)
      (value : NumericFormula)
  | unlockResource (resource : Fin sh.resources)
  | unlockGenerator (generator : Fin sh.generators)
  | grantAutomation (automationId : String)
  | grantFlag (flagId : String) (value : Bool)

/-- The `repeatable` part of an upgrade. -/
structure RepeatableUpgrade where
  maxPurchases : Option ℕ
  effectCurve : Option NumericFormula

/-- A `NormalizedUpgrade`, without its costs. -/
structure UpgradeContent (sh : ContentShape) where
  id : String
  repeatable : Option RepeatableUpgrade
  prerequisites : List Condition
  unlockCondition : Option Condition
  visibilityCondition : Option Condition
  effects : List (UpgradeEffect sh)

/-- How often an upgrade can be bought; none is without limit. -/
def UpgradeContent.maxPurchases {sh : ContentShape} (upgrade : UpgradeContent sh) : Option ℕ :=
  match upgrade.repeatable with
  | some repeatable => repeatable.maxPurchases
  | none => some 1

inductive RetentionEntry (sh : ContentShape)
  | resource (resource : Fin sh.resources) (amount : Option NumericFormula)
  | generator (generator : Fin sh.generators)
  | upgrade (upgrade : Fin sh.upgrades)

/-- The reward of a prestige layer. -/
structure PrestigeReward (sh : ContentShape) where
  resource : Fin sh.resources
  baseReward : NumericFormula
  multiplierCurve : Option NumericFormula

/-- A `NormalizedPrestigeLayer`. -/
structure PrestigeLayerContent (sh : ContentShape) where
  id : String
  unlockCondition : Condition
  resetTargets : List (Fin sh.resources)
  resetGenerators : List (Fin sh.generators)
  resetUpgrades : List (Fin sh.upgrades)
  reward : PrestigeReward sh
  retention : List (RetentionEntry sh)

inductive AchievementTrack (sh : ContentShape)
  | resource (resourceId : String) (comparator : Comparator)
  | generatorLevel (generatorId : String)
  | generatorCount (generatorIds : Option (List String)) (comparator : Comparator)
  | upgradeOwned (upgradeId : String)
  | flag (flagId : String)
  | script (scriptId : String)
  | customMetric (metricId : String)

inductive AchievementReward (sh : ContentShape)
  | grantResource (resource : Fin sh.resources) (amount : NumericFormula)
  | grantUpgrade (upgrade : Fin sh.upgrades)
  | unlockAutomation (automationId : String)
  | grantFlag (flagId : String) (value : Bool)

inductive AchievementMode
  | oneShot
  | incremental
  | repeatable
  deriving DecidableEq, Repr

/-- The `repeatable` part of an achievement's progress. -/
structure RepeatableAchievement where
  maxRepeats : Option ℕ
  resetWindow : Option NumericFormula
  rewardScaling : Option NumericFormula

/-- A `NormalizedAchievement`. -/
structure AchievementContent (sh : ContentShape) where
  id : String
  mode : AchievementMode
  track : AchievementTrack sh
  target : NumericFormula
  repeatable : Option RepeatableAchievement
  unlockCondition : Option Condition
  visibilityCondition : Option Condition
  reward : Option (AchievementReward sh)

/-- A content pack of a shape. Ids of a kind are distinct, and none is blank. -/
structure ContentPack (sh : ContentShape) where
  resources : Fin sh.resources → ResourceContent
  generators : Fin sh.generators → GeneratorContent sh
  upgrades : Fin sh.upgrades → UpgradeContent sh
  prestigeLayers : Fin sh.prestigeLayers → PrestigeLayerContent sh
  achievements : Fin sh.achievements → AchievementContent sh
  generator_ids : Function.Injective fun i => (generators i).id
  upgrade_ids : Function.Injective fun i => (upgrades i).id
  achievement_ids : Function.Injective fun i => (achievements i).id
  generator_nonblank : ∀ i, isNonBlankString (generators i).id = true
  upgrade_nonblank : ∀ i, isNonBlankString (upgrades i).id = true
  achievement_nonblank : ∀ i, isNonBlankString (achievements i).id = true

/-- `ProgressionCoordinatorOptions`, with the hooks of the host. -/
structure ProgressionOptions (sh : ContentShape) where
  content : ContentPack sh
  stepDurationMs : ℚ
  precision : Precision
  maxConditionDepth : Option JsNumber
  evaluateScriptCondition : Option (String → Bool)
  getCustomMetricValue : Option (String → JsNumber)

end IdleEngine
