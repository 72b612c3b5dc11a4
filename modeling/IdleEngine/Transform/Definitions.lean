import IdleEngine.Entity.System
import IdleEngine.Transform.Prd

/-!
# Transforms: content and state

A transform turns inputs into outputs: at once, after a duration (a batch), or by sending entities
on a mission. A mission may have stages; then the plan of its batch says at which stage it stands,
whether a decision is pending there, and which checkpoint rewards were granted on the way.

Amounts, rates and multipliers of a plan were checked to be finite when the plan was made, and steps
are natural numbers.
-/

namespace IdleEngine

/-! ### Content -/

inductive TransformMode
  | instant
  | continuous
  | batch
  | mission
  deriving DecidableEq, Repr

/-- The text of a mode. -/
def TransformMode.toText : TransformMode → String
  | .instant => "instant"
  | .continuous => "continuous"
  | .batch => "batch"
  | .mission => "mission"

inductive TransformTrigger
  | manual
  | automation (automationId : String)
  | condition (condition : Condition)
  | event (eventId : String)

/-- `trigger.kind`. -/
def TransformTrigger.kind : TransformTrigger → String
  | .manual => "manual"
  | .automation _ => "automation"
  | .condition _ => "condition"
  | .event _ => "event"

/-- An input or an output. -/
structure TransformEndpoint where
  resourceId : String
  amount : NumericFormula

/-- `entityRequirements`. -/
structure MissionEntityRequirement where
  entityId : String
  count : NumericFormula
  minStats : List (String × NumericFormula)
  preferHighStats : List String
  returnOnComplete : Bool

inductive MissionEntityScope
  | average
  | sum
  | min
  | max
  deriving DecidableEq, Repr

/-- `statModifiers`. -/
structure MissionSuccessRateModifier where
  stat : String
  weight : NumericFormula
  entityScope : MissionEntityScope

/-- `successRate`. -/
structure MissionSuccessRate where
  baseRate : NumericFormula
  statModifiers : List MissionSuccessRateModifier
  usePRD : Bool

/-- An outcome or a checkpoint. -/
structure MissionOutcome where
  outputs : List TransformEndpoint
  entityExperience : Option NumericFormula

/-- The outcome of a critical success, with its chance. -/
structure MissionCriticalOutcome extends MissionOutcome where
  chance : NumericFormula

/-- `outcomes`. -/
structure MissionOutcomes where
  success : MissionOutcome
  failure : Option MissionOutcome
  critical : Option MissionCriticalOutcome

/-- `modifiers` of a decision option. -/
structure MissionDecisionModifiers where
  successRateBonus : Option NumericFormula
  durationMultiplier : Option NumericFormula
  outputMultiplier : Option NumericFormula

/-- A decision option; without a next stage the mission ends. -/
structure MissionDecisionOption where
  id : String
  label : String
  condition : Option Condition
  nextStage : Option String
  modifiers : Option MissionDecisionModifiers

/-- A decision. -/
structure MissionDecision where
  prompt : String
  timeout : Option NumericFormula
  defaultOption : String
  options : List MissionDecisionOption

/-- A stage. Its next stage may be left out (the outer `none`) or `null`. -/
structure MissionStage where
  id : String
  duration : NumericFormula
  checkpoint : Option MissionOutcome
  decision : Option MissionDecision
  stageSuccessRate : Option NumericFormula
  successOutcome : Option MissionOutcome
  failureOutcome : Option MissionOutcome
  nextStage : Option (Option String)

/-- `safety`. -/
structure TransformSafety where
  maxRunsPerTick : Option JsNumber
  maxOutstandingBatches : Option JsNumber

/-- `TransformDefinition`; a transform without stages has an empty list of them. -/
structure TransformDefinition where
  id : String
  mode : TransformMode
  inputs : List TransformEndpoint
  outputs : List TransformEndpoint
  duration : Option NumericFormula
  cooldown : Option NumericFormula
  trigger : TransformTrigger
  unlockCondition : Option Condition
  safety : Option TransformSafety
  entityRequirements : List MissionEntityRequirement
  successRate : Option MissionSuccessRate
  outcomes : Option MissionOutcomes
  stages : List MissionStage
  initialStage : Option String
  order : Option ℚ

/-- `stages.find`, by id. -/
def TransformDefinition.findStage (transform : TransformDefinition) (stageId : String) :
    Option MissionStage :=
  transform.stages.find? fun stage => stage.id = stageId

/-! ### Batches -/

/-- `TransformBatchOutput`, with a finite amount. -/
structure BatchOutput where
  resourceId : String
  amount : ℚ
  deriving DecidableEq, Repr

/-- `MissionPreparedOutcome`. -/
structure MissionPreparedOutcome where
  outputs : List BatchOutput
  entityExperience : ℚ
  deriving DecidableEq, Repr

/-- `MissionBatchPlanBase`. -/
structure MissionBatchPlanBase where
  baseRate : ℚ
  usePRD : Bool
  criticalChance : Option ℚ
  success : MissionPreparedOutcome
  failure : MissionPreparedOutcome
  critical : Option MissionPreparedOutcome
  deriving DecidableEq, Repr

/-- `MultiStageMissionDecisionState`. -/
structure MultiStageMissionDecisionState where
  stageId : String
  expiresAtStep : ℕ
  deriving DecidableEq, Repr

/-- `MultiStageMissionAccumulatedModifiers`. -/
structure MultiStageMissionAccumulatedModifiers where
  successRateBonus : ℚ
  durationMultiplier : ℚ
  outputMultiplier : ℚ
  deriving DecidableEq, Repr

/-- `MultiStageMissionBatchPlan`. -/
structure MultiStageMissionBatchPlan extends MissionBatchPlanBase where
  currentStageId : String
  currentStageStartStep : ℕ
  currentStageSuccessRate : ℚ
  currentStageCheckpoint : Option MissionPreparedOutcome
  checkpointRewardsGranted : List String
  pendingDecision : Option MultiStageMissionDecisionState
  accumulatedModifiers : MultiStageMissionAccumulatedModifiers
  returnOnCompleteEntityInstanceIds : List String
  deriving DecidableEq, Repr

/-- `MissionBatchPlan`. -/
inductive MissionBatchPlan
  | singleStage (plan : MissionBatchPlanBase)
  | multiStage (plan : MultiStageMissionBatchPlan)
  deriving DecidableEq, Repr

/-- `TransformBatchQueueEntry`. A list of instance ids that is missing counts as an empty one. -/
structure TransformBatchQueueEntry where
  completeAtStep : ℕ
  outputs : List BatchOutput
  batchId : Option String
  entityInstanceIds : List String
  entityExperience : Option ℚ
  mission : Option MissionBatchPlan
  sequence : ℕ
  deriving DecidableEq, Repr

/-- The batch id that events name. -/
def TransformBatchQueueEntry.eventBatchId (entry : TransformBatchQueueEntry) : String :=
  entry.batchId.getD (toString entry.sequence)

/-- `clampProbability`. -/
def clampProbability (value : ℚ) : ℚ := min 1 (max 0 value)

/-! ### Results -/

/-- The error of a `TransformExecutionResult`. -/
structure TransformError where
  code : String
  message : String
  details : List (String × JsValue)

/-- Why a computation of the transform system ends early: it throws, or it returns an error. -/
inductive Halt
  | exception (message : String)
  | failure (error : TransformError)

/-- A computation on a state that it only reads. -/
abbrev Prepared := Except Halt

/-! ### The stores -/

/-- What has happened at the stages of missions: the roll for the success of a stage, and the reward
that was granted for its checkpoint. -/
inductive StageRecord
  | rolled (stageId : String) (success : Bool)
  | granted (stageId : String) (reward : MissionPreparedOutcome)
  deriving DecidableEq, Repr

/-- The stores that deliveries change. `stageRecords` is a history variable. -/
structure TransformStores (n : ℕ) where
  resources : ResourceState n
  entitySystem : Option EntitySystem
  prdRegistry : PRDRegistry
  rng : Rng
  events : Option (EventBus JsValue)
  stageRecords : List StageRecord

/-- What a transform system is created with, apart from the stores. The accessor of the resource
store may lack `getResourceIndex`, `spendAmount` and `addAmount`; condition contexts read the live
amounts. Where no number was drawn yet, the seed comes from the host. The loop that raises the level
of an entity ends within `experienceFuel` rounds. -/
structure TransformSystemOptions (n : ℕ) where
  stepDurationMs : ℚ
  hasResourceIndex : Bool
  hasSpendAmount : Bool
  hasAddAmount : Bool
  conditionContext : Option (ResourceState n → ConditionContext)
  entityConfig : EntityConfig
  entityConditionContext : Option (ResourceState n → ConditionContext)
  experienceFuel : ℕ
  calculatePRDConstant : PrdMath
  fallbackSeed : UInt32

/-- A computation on the stores that may throw. -/
abbrev StoreM (n : ℕ) := EStateM String (TransformStores n)

variable {n : ℕ}

/-- What a prepared computation throws, is thrown; its error is returned. -/
def StoreM.attempt {α : Type} (result : Prepared α) : StoreM n (Except TransformError α) :=
  match result with
  | .ok a => pure (.ok a)
  | .error (.failure error) => pure (.error error)
  | .error (.exception message) => throw message

/-- What a computation on the stores that it only reads returns or throws. -/
def StoreM.ofExcept {α : Type} (result : Except String α) : StoreM n α :=
  match result with
  | .ok a => pure a
  | .error message => throw message

namespace TransformSystemOptions

variable (options : TransformSystemOptions n)

/-- `getResourceIndex`; without it nothing is found. -/
def getResourceIndex (resources : ResourceState n) (resourceId : String) : Option (Fin n) :=
  if options.hasResourceIndex then indexOfId resources.ids resourceId else none

/-- `resolveResourceAmount` without a condition context; the first amount is read where there is no
`getResourceIndex`, which throws in a store without resources. -/
def accessorAmount (resources : ResourceState n) (resourceId : String) : Option ℚ :=
  if options.hasResourceIndex then
    some ((indexOfId resources.ids resourceId).elim 0 fun i => (resources.live i).amount)
  else (List.finRange n).head?.map fun i => (resources.live i).amount

/-- The condition context, on the live amounts. -/
def conditionsAt (resources : ResourceState n) : Option ConditionContext :=
  options.conditionContext.map fun context => context resources

/-- `createTransformFormulaEvaluationContext`. -/
def formulaContext (step : ℕ) (resources : ResourceState n) : FormulaContext :=
  let deltaTime := options.stepDurationMs / 1000
  let conditions := options.conditionsAt resources
  { variableValue := formulaVariables 0 (step * deltaTime) deltaTime
    resource := fun id =>
      match conditions with
      | some context => some (context.getResourceAmount id)
      | none => options.accessorAmount resources id
    generator := fun id => some ((conditions.map (·.getGeneratorLevel id)).getD 0)
    upgrade := fun id => some ((conditions.map (·.getUpgradePurchases id)).getD 0)
    automation := fun _ => some 0
    prestigeLayer := fun _ => some 0 }

/-- `evaluateNumericFormula`. -/
def evaluateNumericFormula (step : ℕ) (resources : ResourceState n) (formula : NumericFormula) :
    Prepared JsNumber :=
  match formula (options.formulaContext step resources) with
  | .ok value => .ok value
  | .error message => .error (.exception message)

/-- A formula whose value has to be finite. -/
def evaluateFinite (step : ℕ) (resources : ResourceState n) (error : TransformError)
    (formula : NumericFormula) : Prepared ℚ := do
  let value ← options.evaluateNumericFormula step resources formula
  match value.finite? with
  | some value => .ok value
  | none => .error (.failure error)

/-- `calculateDurationStepsFromMs`. -/
def calculateDurationStepsFromMs (durationMs : ℚ) : ℕ :=
  if options.stepDurationMs ≤ 0 then 0 else ⌈max 0 durationMs / options.stepDurationMs⌉₊

end TransformSystemOptions

end IdleEngine
