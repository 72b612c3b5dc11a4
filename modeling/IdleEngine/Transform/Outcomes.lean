import IdleEngine.Entity.Saves
import IdleEngine.Transform.Definitions

/-!
# Mission outcomes

An outcome is prepared when its formulas are evaluated: its amounts are then fixed and its resources
are known to exist (`prepareMissionOutcomePlan`). What was prepared is granted later, possibly from
a save; resources that no longer exist are then passed over, and an entity that throws does not keep
the others from their experience.
-/

namespace IdleEngine

open Stateful JsValue

variable {n : ℕ}

/-! ### Preparing -/

/-- The error of a transform, with its id and more details. -/
def TransformDefinition.errorWith (transform : TransformDefinition) (code message : String)
    (details : List (String × JsValue)) : TransformError :=
  { code, message, details := ("transformId", string transform.id) :: details }

/-- An output formula of a transform is not finite. -/
def TransformDefinition.invalidOutputFormula (transform : TransformDefinition) : TransformError :=
  transform.errorWith "INVALID_OUTPUT_FORMULA"
    "Transform output formula evaluated to non-finite value." []

/-- `PreparedResourceDelta`. -/
structure PreparedResourceDelta (n : ℕ) where
  resourceId : String
  resourceIndex : Fin n
  amount : ℚ

section Prepare

variable (options : TransformSystemOptions n) (transform : TransformDefinition) (step : ℕ)
  (resources : ResourceState n)

/-- The amounts of endpoints by resource; a negative amount counts as zero. -/
def evaluateEndpoints (error : TransformError) (endpoints : List TransformEndpoint) :
    Prepared (OrderedMap String ℚ) :=
  endpoints.foldlM
    (fun amounts endpoint => do
      let amountRaw ← options.evaluateFinite step resources error endpoint.amount
      let existing := (amounts.get? endpoint.resourceId).getD 0
      return amounts.set endpoint.resourceId (existing + max 0 amountRaw))
    OrderedMap.empty

/-- `evaluateMissionOutcomeOutputs`. -/
def evaluateMissionOutcomeOutputs (outcome : Option MissionOutcome) :
    Prepared (OrderedMap String ℚ) :=
  evaluateEndpoints options step resources transform.invalidOutputFormula
    (outcome.elim [] MissionOutcome.outputs)

/-- `evaluateMissionOutcomeExperience`. -/
def evaluateMissionOutcomeExperience (outcome : Option MissionOutcome) : Prepared ℚ :=
  match outcome.bind MissionOutcome.entityExperience with
  | none => .ok 0
  | some formula =>
    (options.evaluateFinite step resources (transform.errorWith "INVALID_OUTPUT_FORMULA"
      "Mission experience formula evaluated to non-finite value." []) formula).map (max 0)

/-- The output of the loop of `prepareOutputs`. -/
def prepareOutput (output : String × ℚ) : Prepared (PreparedResourceDelta n) :=
  if options.hasResourceIndex = false then
    .error (.failure (transform.errorWith "RESOURCE_STATE_MISSING_INDEXER"
      "Resource state does not support resource id lookups." []))
  else
    match options.getResourceIndex resources output.1 with
    | none =>
      .error (.failure (transform.errorWith "OUTPUT_RESOURCE_NOT_FOUND"
        ("Output resource \"" ++ output.1 ++ "\" not found.") [("resourceId", string output.1)]))
    | some resourceIndex =>
      if options.hasAddAmount = false then
        .error (.failure (transform.errorWith "RESOURCE_STATE_MISSING_ADD_AMOUNT"
          "Resource state does not support applying transform outputs." []))
      else .ok { resourceId := output.1, resourceIndex, amount := output.2 }

/-- `prepareOutputs`. -/
def prepareOutputs (outputs : OrderedMap String ℚ) : Prepared (List (PreparedResourceDelta n)) :=
  ((sortById Prod.fst outputs.entries).filter fun output => output.2 ≠ 0).mapM
    (prepareOutput options transform resources)

/-- `prepareMissionOutcomePlan`. -/
def prepareMissionOutcomePlan (outcome : Option MissionOutcome) :
    Prepared MissionPreparedOutcome := do
  let outputs ← evaluateMissionOutcomeOutputs options transform step resources outcome
  let entityExperience ← evaluateMissionOutcomeExperience options transform step resources outcome
  let prepared ← prepareOutputs options transform resources outputs
  return { outputs := prepared.map fun output => ⟨output.resourceId, output.amount⟩
           entityExperience }

end Prepare

/-- `scaleMissionPreparedOutcome`. -/
def scaleMissionPreparedOutcome (outcome : MissionPreparedOutcome) (multiplier : ℚ) :
    MissionPreparedOutcome :=
  let safeMultiplier := max 0 multiplier
  { outputs := outcome.outputs.map fun output =>
      { output with amount := max 0 (output.amount * safeMultiplier) }
    entityExperience := max 0 (outcome.entityExperience * safeMultiplier) }

/-! ### Granting -/

inductive MissionOutcomeKind
  | failure
  | success
  | critical
  deriving DecidableEq, Repr

/-- The text of an outcome kind. -/
def MissionOutcomeKind.toText : MissionOutcomeKind → String
  | .failure => "failure"
  | .success => "success"
  | .critical => "critical"

/-- The outputs of an event. -/
def outputsToJs (outputs : List BatchOutput) : JsValue :=
  array (outputs.map fun output =>
    record [("resourceId", string output.resourceId), ("amount", number (.fin output.amount))])

/-- `publishMissionEvent`; an error of the publisher is only reported. -/
def publishMissionEvent (type : String) (payload : JsValue) : StoreM n Unit :=
  modify fun stores =>
    { stores with events := stores.events.map fun bus => (bus.publish type payload none).2 }

/-- A stage record is added. -/
def recordStage (record : StageRecord) : StoreM n Unit :=
  modify fun stores => { stores with stageRecords := stores.stageRecords ++ [record] }

section Grant

variable (options : TransformSystemOptions n) (transform : TransformDefinition) (step : ℕ)

/-- The output of the loop of `applyBatchOutputs`. -/
def applyBatchOutput (output : BatchOutput) : StoreM n Unit := do
  let stores ← get
  if output.amount = 0 then pure ()
  else
    match options.getResourceIndex stores.resources output.resourceId with
    | none => pure ()
    | some index => do
      let added ← StoreM.ofExcept (stores.resources.addAmount index (.fin output.amount))
      set { stores with resources := added.2 }

/-- `applyBatchOutputs`. -/
def applyBatchOutputs (outputs : List BatchOutput) : StoreM n Unit :=
  if options.hasAddAmount && options.hasResourceIndex then
    outputs.forM (applyBatchOutput options)
  else pure ()

/-- The condition context of the entity system. -/
def TransformSystemOptions.entityConditions (resources : ResourceState n) :
    Option ConditionContext :=
  options.entityConditionContext.map fun context => context resources

/-- An operation on the entity system for each of some instances; what one throws is only
reported. -/
def forEachEntity (operation : ResourceState n → String → EntityM Unit)
    (entityInstanceIds : List String) : StoreM n Unit :=
  modify fun stores =>
    { stores with
      entitySystem := stores.entitySystem.map fun entitySystem =>
        entityInstanceIds.foldl
          (fun entitySystem instanceId =>
            final (operation stores.resources instanceId entitySystem))
          entitySystem }

/-- `grantEntityExperience`. -/
def grantEntityExperience (entityExperience : ℚ) (entityInstanceIds : List String) :
    StoreM n Unit :=
  if entityExperience ≤ 0 then pure ()
  else
    forEachEntity
      (fun resources instanceId => addExperience options.entityConfig
        (options.entityConditions resources) options.experienceFuel instanceId
        (.fin entityExperience) step)
      entityInstanceIds

/-- `returnMissionEntities`. -/
def returnMissionEntities (entityInstanceIds : List String) : StoreM n Unit :=
  forEachEntity (fun _ instanceId => returnFromMission instanceId) entityInstanceIds

/-- `seededRandom`. -/
def drawRandom : StoreM n ℚ :=
  modifyGet fun stores =>
    ((stores.rng.seededRandom options.fallbackSeed).1,
      { stores with rng := (stores.rng.seededRandom options.fallbackSeed).2 })

/-- The roll for a success, with the distribution of the transform or without. -/
def rollSuccess (usePRD : Bool) (rate : ℚ) : StoreM n Bool := do
  let drawn ← drawRandom options
  if usePRD then
    modifyGet fun stores =>
      let prd := PRDRegistry.getOrCreate options.calculatePRDConstant stores.prdRegistry
        transform.id rate
      ((prd.roll drawn).1,
        { stores with prdRegistry := stores.prdRegistry.set transform.id (prd.roll drawn).2 })
  else pure (decide (drawn < rate))

/-- Whether a success is critical: the chance is only rolled where there is an outcome for it. -/
def rollCritical (mission : MissionBatchPlanBase) : StoreM n (Option MissionPreparedOutcome) :=
  match mission.critical, mission.criticalChance with
  | some critical, some criticalChance => do
    let drawn ← drawRandom options
    pure (if drawn < clampProbability criticalChance then some critical else none)
  | _, _ => pure none

/-- `determineMissionOutcome`. -/
def determineMissionOutcome (mission : MissionBatchPlanBase) :
    StoreM n (MissionOutcomeKind × MissionPreparedOutcome) := do
  let success ← rollSuccess options transform mission.usePRD (clampProbability mission.baseRate)
  if success = false then pure (.failure, mission.failure)
  else do
    let critical ← rollCritical options mission
    pure (critical.elim (.success, mission.success) fun outcome => (.critical, outcome))

/-- What ends a mission: the outcome is granted, entities return, and the end is published. -/
def finishMission (entry : TransformBatchQueueEntry) (outcomeKind : MissionOutcomeKind)
    (outcome : MissionPreparedOutcome) (returning : List String) : StoreM n Unit := do
  applyBatchOutputs options outcome.outputs
  grantEntityExperience options step outcome.entityExperience entry.entityInstanceIds
  returnMissionEntities returning
  publishMissionEvent "mission:completed" (record
    [("transformId", string transform.id), ("batchId", string entry.eventBatchId),
      ("completedAtStep", number (.fin step)), ("outcomeKind", string outcomeKind.toText),
      ("success", bool (outcomeKind ≠ .failure)), ("critical", bool (outcomeKind = .critical)),
      ("outputs", outputsToJs outcome.outputs),
      ("entityExperience", number (.fin outcome.entityExperience)),
      ("entityInstanceIds", array (entry.entityInstanceIds.map string))])

/-- `completeMissionBatch`. -/
def completeMissionBatch (entry : TransformBatchQueueEntry) (mission : MissionBatchPlanBase) :
    StoreM n Unit := do
  let result ← determineMissionOutcome options transform mission
  finishMission options transform step entry result.1 result.2 []

/-- `completeMultiStageMission`. -/
def completeMultiStageMission (entry : TransformBatchQueueEntry)
    (mission : MultiStageMissionBatchPlan) (outcomeKind : MissionOutcomeKind)
    (outcome : MissionPreparedOutcome) : StoreM n Unit :=
  finishMission options transform step entry outcomeKind
    (scaleMissionPreparedOutcome outcome mission.accumulatedModifiers.outputMultiplier)
    mission.returnOnCompleteEntityInstanceIds

/-- `completeStandardBatch`. -/
def completeStandardBatch (entry : TransformBatchQueueEntry) : StoreM n Unit := do
  applyBatchOutputs options entry.outputs
  grantEntityExperience options step (entry.entityExperience.getD 0) entry.entityInstanceIds

end Grant

end IdleEngine
