import IdleEngine.Lib.Worklist
import IdleEngine.Transform.Outcomes

/-!
# The stages of a mission, and the delivery of batches

A batch that is due is taken out of the queue. A batch of a mission with stages may go back into it:
at the stage where it is, with a decision pending there, or at a later stage, on its way there. In
the source this is the last thing that happens to the batch, so that the functions below return the
batch that is to be inserted.
-/

namespace IdleEngine

open Stateful JsValue

variable {n : ℕ}

/-! ### Scheduling -/

section Schedule

variable (options : TransformSystemOptions n) (transform : TransformDefinition) (step : ℕ)
  (resources : ResourceState n)

/-- `evaluateOptionalFormula`: what is not finite counts as missing. -/
def evaluateModifierFormula (formula : Option NumericFormula) : Except String (Option ℚ) :=
  match formula with
  | none => .ok none
  | some formula => (formula (options.formulaContext step resources)).map JsNumber.finite?

/-- `applyMissionDecisionModifiers`. -/
def applyMissionDecisionModifiers (current : MultiStageMissionAccumulatedModifiers)
    (modifiers : Option MissionDecisionModifiers) :
    Except String MultiStageMissionAccumulatedModifiers :=
  match modifiers with
  | none => .ok current
  | some modifiers => do
    let successRateBonus ← evaluateModifierFormula options step resources modifiers.successRateBonus
    let durationMultiplier ←
      evaluateModifierFormula options step resources modifiers.durationMultiplier
    let outputMultiplier ← evaluateModifierFormula options step resources modifiers.outputMultiplier
    return {
      successRateBonus := current.successRateBonus + successRateBonus.getD 0
      durationMultiplier := current.durationMultiplier * (durationMultiplier.elim 1 (max 0))
      outputMultiplier := current.outputMultiplier * (outputMultiplier.elim 1 (max 0)) }

/-- The reward of a checkpoint, prepared and scaled. -/
def prepareCheckpoint (stage : MissionStage) (outputMultiplier : ℚ) :
    Prepared (Option MissionPreparedOutcome) :=
  match stage.checkpoint with
  | none => .ok none
  | some checkpoint =>
    (prepareMissionOutcomePlan options transform step resources (some checkpoint)).map
      fun prepared => some (scaleMissionPreparedOutcome prepared outputMultiplier)

/-- The success rate of a stage; without one of its own it is the base rate. -/
def evaluateStageSuccessRate (stage : MissionStage) (baseRate : ℚ) : Prepared ℚ :=
  match stage.stageSuccessRate with
  | none => .ok baseRate
  | some formula =>
    options.evaluateFinite step resources (transform.errorWith "INVALID_SUCCESS_RATE"
      "Mission stage success rate evaluated to non-finite value."
      [("stageId", string stage.id)]) formula

/-- The duration of a stage. -/
def evaluateStageDuration (stage : MissionStage) : Prepared ℚ :=
  options.evaluateFinite step resources (transform.errorWith "INVALID_DURATION_FORMULA"
    "Mission stage duration formula evaluated to non-finite value." [("stageId", string stage.id)])
    stage.duration

/-- `scheduleMultiStageMissionStage`, for a stage that was found: the plan, and the step at which
the stage is complete. -/
def scheduleStage (mission : MultiStageMissionBatchPlan) (stage : MissionStage) :
    Prepared (MultiStageMissionBatchPlan × ℕ) := do
  let modifiers := mission.accumulatedModifiers
  let durationMsRaw ← evaluateStageDuration options transform step resources stage
  let durationMs :=
    if 0 ≤ modifiers.durationMultiplier then durationMsRaw * modifiers.durationMultiplier
    else durationMsRaw
  let successRateRaw ←
    evaluateStageSuccessRate options transform step resources stage mission.baseRate
  let checkpoint ←
    prepareCheckpoint options transform step resources stage modifiers.outputMultiplier
  return ({ mission with
    currentStageId := stage.id
    currentStageStartStep := step
    currentStageSuccessRate :=
      clampProbability (clampProbability successRateRaw + modifiers.successRateBonus)
    currentStageCheckpoint := checkpoint
    pendingDecision := none }, step + options.calculateDurationStepsFromMs durationMs)

/-- `scheduleMultiStageMissionStage`. -/
def scheduleMultiStageMissionStage (mission : MultiStageMissionBatchPlan) (stageId : String) :
    Prepared (MultiStageMissionBatchPlan × ℕ) :=
  match transform.findStage stageId with
  | none =>
    .error (.failure (transform.errorWith "INVALID_STAGE"
      "Mission stage definition missing for multi-stage mission." [("stageId", string stageId)]))
  | some stage => scheduleStage options transform step resources mission stage

/-! ### Decisions -/

/-- `MissionDecisionOptionView`. -/
structure MissionDecisionOptionView where
  id : String
  label : String
  available : Bool

/-- Whether an option is available. -/
def optionAvailable (option : MissionDecisionOption) : Except String Bool :=
  match option.condition with
  | none => .ok true
  | some condition =>
    match options.conditionsAt resources with
    | none => .ok false
    | some context => evaluateCondition context 0 condition

/-- `buildDecisionOptionViews`. -/
def buildDecisionOptionViews (decision : MissionDecision) :
    Except String (List MissionDecisionOptionView) :=
  decision.options.mapM fun option =>
    (optionAvailable options resources option).map fun available =>
      { id := option.id, label := option.label, available }

end Schedule

/-- `selectAvailableDecisionOption`. -/
def selectAvailableDecisionOption (decision : MissionDecision)
    (optionViews : List MissionDecisionOptionView) : Option MissionDecisionOption :=
  let availableOptionIds := (optionViews.filter (·.available)).map (·.id)
  let isAvailable := fun option : MissionDecisionOption => availableOptionIds.contains option.id
  let defaultOption := decision.options.find? fun option => option.id = decision.defaultOption
  (defaultOption.filter isAvailable).or (decision.options.find? isAvailable)

/-- `Number.MAX_SAFE_INTEGER`. -/
def maxSafeInteger : ℕ := 9007199254740991

/-- The step at which a decision is made for the player. A timeout that is missing is infinite, and
one that is not finite never ends. -/
def TransformSystemOptions.decisionExpiresAtStep (options : TransformSystemOptions n) (step : ℕ)
    (timeoutMs : JsNumber) : ℕ :=
  match timeoutMs.finite? with
  | none => maxSafeInteger
  | some timeoutMs =>
    let timeoutSteps := options.calculateDurationStepsFromMs timeoutMs
    if timeoutSteps = maxSafeInteger then maxSafeInteger else step + timeoutSteps

section Deliver

variable (options : TransformSystemOptions n) (transform : TransformDefinition) (step : ℕ)

/-- A computation that only reads the resources. -/
def StoreM.prepare {α : Type} (computation : ResourceState n → Prepared α) :
    StoreM n (Except TransformError α) := do
  let stores ← get
  StoreM.attempt (computation stores.resources)

/-- A computation that only reads the resources and has no error to return. -/
def StoreM.read {α : Type} (computation : ResourceState n → Except String α) : StoreM n α := do
  let stores ← get
  StoreM.ofExcept (computation stores.resources)

/-- `completeMultiStageMissionFailure`. -/
def completeMultiStageMissionFailure (entry : TransformBatchQueueEntry)
    (mission : MultiStageMissionBatchPlan) : StoreM n Unit :=
  completeMultiStageMission options transform step entry mission .failure mission.failure

/-- An entry with its plan and completion step replaced. -/
def TransformBatchQueueEntry.withMission (entry : TransformBatchQueueEntry)
    (mission : MultiStageMissionBatchPlan) (completeAtStep : ℕ) : TransformBatchQueueEntry :=
  { entry with completeAtStep, mission := some (.multiStage mission) }

/-- `rescheduleMissionEntry`. -/
def rescheduleMissionEntry (entry : TransformBatchQueueEntry) (mission : MultiStageMissionBatchPlan)
    (nextStageId : String) : StoreM n (Option TransformBatchQueueEntry) := do
  let scheduled ← StoreM.prepare fun resources =>
    scheduleMultiStageMissionStage options transform step resources mission nextStageId
  match scheduled with
  | .error _ => do
    completeMultiStageMissionFailure options transform step entry mission
    pure none
  | .ok scheduled => pure (some (entry.withMission scheduled.1 scheduled.2))

/-- `resolveMissionCompletionOutcomeKind`. -/
def resolveMissionCompletionOutcomeKind (mission : MultiStageMissionBatchPlan) :
    StoreM n (MissionOutcomeKind × MissionPreparedOutcome) := do
  let critical ← rollCritical options mission.toMissionBatchPlanBase
  pure (critical.elim (.success, mission.success) fun outcome => (.critical, outcome))

/-- An outcome that a stage may have instead of the one of the mission. -/
def prepareOverride (outcome : Option MissionOutcome) (resources : ResourceState n) :
    Prepared (Option MissionPreparedOutcome) :=
  match outcome with
  | none => .ok none
  | some outcome =>
    (prepareMissionOutcomePlan options transform step resources (some outcome)).map some

/-- `maybeResolveStageSuccessOverride`. -/
def maybeResolveStageSuccessOverride (stage : MissionStage) (outcomeKind : MissionOutcomeKind) :
    ResourceState n → Prepared (Option MissionPreparedOutcome) :=
  prepareOverride options transform step
    (if outcomeKind = .success then stage.successOutcome else none)

/-- `completeMultiStageMissionAfterSuccessStage`. -/
def completeMultiStageMissionAfterSuccessStage (entry : TransformBatchQueueEntry)
    (mission : MultiStageMissionBatchPlan) (stage : MissionStage) : StoreM n Unit := do
  let resolved ← resolveMissionCompletionOutcomeKind options mission
  let override ← StoreM.prepare
    (maybeResolveStageSuccessOverride options transform step stage resolved.1)
  match override with
  | .error _ => completeMultiStageMissionFailure options transform step entry mission
  | .ok override =>
    completeMultiStageMission options transform step entry mission resolved.1
      (override.getD resolved.2)

/-- `completeMultiStageMissionOnStageFailure`. -/
def completeMultiStageMissionOnStageFailure (entry : TransformBatchQueueEntry)
    (mission : MultiStageMissionBatchPlan) (stage : MissionStage) : StoreM n Unit := do
  let override ← StoreM.prepare (prepareOverride options transform step stage.failureOutcome)
  completeMultiStageMission options transform step entry mission .failure
    (override.toOption.join.getD mission.failure)

/-- The event that a decision was made. -/
def publishDecisionMade (entry : TransformBatchQueueEntry) (stage : MissionStage)
    (option : MissionDecisionOption) : StoreM n Unit :=
  publishMissionEvent "mission:decision-made" (record
    [("transformId", string transform.id), ("batchId", string entry.eventBatchId),
      ("stageId", string stage.id), ("optionId", string option.id),
      ("nextStageId", option.nextStage.elim .null string)])

/-- The plan after a decision. -/
def planAfterDecision (mission : MultiStageMissionBatchPlan) (option : MissionDecisionOption)
    (resources : ResourceState n) : Except String MultiStageMissionBatchPlan :=
  (applyMissionDecisionModifiers options step resources mission.accumulatedModifiers
    option.modifiers).map fun accumulatedModifiers =>
      { mission with accumulatedModifiers, pendingDecision := none }

/-- `handlePendingDecisionBatch`, from the option on. -/
def followOption (entry : TransformBatchQueueEntry) (mission : MultiStageMissionBatchPlan)
    (stage : MissionStage) (option : MissionDecisionOption) :
    StoreM n (Option TransformBatchQueueEntry) := do
  let mission ← StoreM.read (planAfterDecision options step mission option)
  publishDecisionMade transform entry stage option
  match option.nextStage with
  | none => do
    completeMultiStageMissionAfterSuccessStage options transform step entry mission stage
    pure none
  | some nextStageId => rescheduleMissionEntry options transform step entry mission nextStageId

/-- The option that `handlePendingDecisionBatch` chooses. -/
def chooseOption (decision : MissionDecision) (resources : ResourceState n) :
    Except String (Option MissionDecisionOption) :=
  (buildDecisionOptionViews options resources decision).map
    (selectAvailableDecisionOption decision)

/-- `handlePendingDecisionBatch`. -/
def handlePendingDecisionBatch (entry : TransformBatchQueueEntry)
    (mission : MultiStageMissionBatchPlan) (stage : MissionStage) :
    StoreM n (Option TransformBatchQueueEntry) :=
  match stage.decision with
  | none => do
    completeMultiStageMissionFailure options transform step entry mission
    pure none
  | some decision => do
    let chosenOption ← StoreM.read (chooseOption options decision)
    match chosenOption with
    | none => do
      completeMultiStageMissionFailure options transform step entry mission
      pure none
    | some option => followOption options transform step entry mission stage option

/-! ### Stage completion -/

/-- `applyStageCheckpointRewards`: the checkpoint that is granted now, if any. -/
def checkpointToGrant (mission : MultiStageMissionBatchPlan) (stage : MissionStage)
    (success : Bool) : Option MissionPreparedOutcome :=
  if success && !mission.checkpointRewardsGranted.contains stage.id then
    mission.currentStageCheckpoint
  else none

/-- `applyStageCheckpointRewards`: the ids of the stages whose rewards were granted. -/
def applyStageCheckpointRewards (entry : TransformBatchQueueEntry)
    (mission : MultiStageMissionBatchPlan) (stage : MissionStage) (success : Bool) :
    StoreM n (List String) :=
  match checkpointToGrant mission stage success with
  | none => pure mission.checkpointRewardsGranted
  | some checkpoint => do
    recordStage (.granted stage.id checkpoint)
    applyBatchOutputs options checkpoint.outputs
    grantEntityExperience options step checkpoint.entityExperience entry.entityInstanceIds
    pure (mission.checkpointRewardsGranted ++ [stage.id])

/-- `publishMissionStageCompleted`. -/
def publishMissionStageCompleted (entry : TransformBatchQueueEntry) (stage : MissionStage)
    (checkpoint : Option MissionPreparedOutcome) : StoreM n Unit :=
  publishMissionEvent "mission:stage-completed" (record
    ([("transformId", string transform.id), ("batchId", string entry.eventBatchId),
      ("stageId", string stage.id)] ++
      checkpoint.elim [] fun checkpoint =>
        [("checkpoint", record [("outputs", outputsToJs checkpoint.outputs)])]))

/-- The timeout of a decision. -/
def evaluateTimeout (decision : MissionDecision) (resources : ResourceState n) :
    Except String JsNumber :=
  match decision.timeout with
  | none => .ok .posInf
  | some timeout => timeout (options.formulaContext step resources)

/-- `scheduleMissionDecision`. -/
def scheduleMissionDecision (entry : TransformBatchQueueEntry)
    (mission : MultiStageMissionBatchPlan) (stage : MissionStage) (decision : MissionDecision) :
    StoreM n (Option TransformBatchQueueEntry) := do
  let timeoutMs ← StoreM.read (evaluateTimeout options step decision)
  let expiresAtStep := options.decisionExpiresAtStep step timeoutMs
  let optionViews ← StoreM.read fun resources =>
    buildDecisionOptionViews options resources decision
  publishMissionEvent "mission:decision-required" (record
    [("transformId", string transform.id), ("batchId", string entry.eventBatchId),
      ("stageId", string stage.id), ("prompt", string decision.prompt),
      ("options", array (optionViews.map fun option => record [("id", string option.id),
        ("label", string option.label), ("available", bool option.available)])),
      ("expiresAtStep", number (.fin expiresAtStep))])
  pure (some (entry.withMission
    { mission with pendingDecision := some { stageId := stage.id, expiresAtStep } } expiresAtStep))

/-- `rollMissionStageSuccess`. -/
def rollMissionStageSuccess (mission : MultiStageMissionBatchPlan) (stage : MissionStage) :
    StoreM n Bool := do
  let success ← rollSuccess options transform mission.usePRD
    (clampProbability mission.currentStageSuccessRate)
  recordStage (.rolled stage.id success)
  pure success

/-- `handleStageCompletionBatch`, after the stage succeeded or failed. -/
def leaveStage (entry : TransformBatchQueueEntry) (mission : MultiStageMissionBatchPlan)
    (stage : MissionStage) (success : Bool) : StoreM n (Option TransformBatchQueueEntry) :=
  if success = false then do
    completeMultiStageMissionOnStageFailure options transform step entry mission stage
    pure none
  else
    match stage.decision, stage.nextStage.join with
    | some decision, _ =>
      scheduleMissionDecision options transform step entry mission stage decision
    | none, none => do
      completeMultiStageMissionAfterSuccessStage options transform step entry mission stage
      pure none
    | none, some nextStageId =>
      rescheduleMissionEntry options transform step entry mission nextStageId

/-- `handleStageCompletionBatch`. -/
def handleStageCompletionBatch (entry : TransformBatchQueueEntry)
    (mission : MultiStageMissionBatchPlan) (stage : MissionStage) :
    StoreM n (Option TransformBatchQueueEntry) := do
  let success ← rollMissionStageSuccess options transform mission stage
  let checkpointRewardsGranted ←
    applyStageCheckpointRewards options step entry mission stage success
  publishMissionStageCompleted transform entry stage (checkpointToGrant mission stage success)
  leaveStage options transform step entry { mission with checkpointRewardsGranted } stage success

/-! ### Delivery -/

/-- The stage at which a plan stands. -/
def MultiStageMissionBatchPlan.stageId (mission : MultiStageMissionBatchPlan) : String :=
  (mission.pendingDecision.map MultiStageMissionDecisionState.stageId).getD mission.currentStageId

/-- `deliverDueMultiStageMissionBatch`. -/
def deliverDueMultiStageMissionBatch (entry : TransformBatchQueueEntry)
    (mission : MultiStageMissionBatchPlan) : StoreM n (Option TransformBatchQueueEntry) :=
  match transform.findStage mission.stageId with
  | none => do
    completeMultiStageMissionFailure options transform step entry mission
    pure none
  | some stage =>
    if mission.pendingDecision.isSome then
      handlePendingDecisionBatch options transform step entry mission stage
    else handleStageCompletionBatch options transform step entry mission stage

/-- `deliverDueBatchEntry`. -/
def deliverDueBatchEntry (entry : TransformBatchQueueEntry) :
    StoreM n (Option TransformBatchQueueEntry) :=
  match if transform.mode = .mission then entry.mission else none with
  | none => do
    completeStandardBatch options step entry
    pure none
  | some (.singleStage mission) => do
    completeMissionBatch options transform step entry mission
    pure none
  | some (.multiStage mission) =>
    if transform.stages = [] then do
      completeMissionBatch options transform step entry mission.toMissionBatchPlanBase
      pure none
    else deliverDueMultiStageMissionBatch options transform step entry mission

end Deliver

/-- One batch is to be delivered before another one. -/
def TransformBatchQueueEntry.precedes (entry other : TransformBatchQueueEntry) : Bool :=
  decide (entry.completeAtStep < other.completeAtStep ∨
    entry.completeAtStep = other.completeAtStep ∧ entry.sequence < other.sequence)

/-- `insertBatch`. -/
def insertBatch (batches : List TransformBatchQueueEntry) (entry : TransformBatchQueueEntry) :
    List TransformBatchQueueEntry :=
  let low := Bisect.partitionPoint
    (fun mid => batches[mid]?.any fun other => other.precedes entry) batches.length
  batches.take low ++ entry :: batches.drop low

/-- The queue of a transform, and the stores. -/
structure Delivery (n : ℕ) where
  batches : List TransformBatchQueueEntry
  stores : TransformStores n

/-- A computation on the stores of a delivery. -/
def deliveryStores {α : Type} (computation : StoreM n α) : EStateM String (Delivery n) α :=
  zoom Delivery.stores (fun stores delivery => { delivery with stores }) computation

/-- The round of the loop of `deliverDueBatches`: whether there was a batch to deliver. -/
def deliverNext (options : TransformSystemOptions n) (transform : TransformDefinition) (step : ℕ) :
    EStateM String (Delivery n) Bool := do
  let delivery ← get
  match delivery.batches with
  | [] => pure false
  | entry :: batches =>
    if entry.completeAtStep ≤ step then do
      -- the batch has left the queue when its delivery throws
      set { delivery with batches }
      let again ← deliveryStores (deliverDueBatchEntry options transform step entry)
      modify fun delivery =>
        { delivery with batches := again.elim delivery.batches (insertBatch delivery.batches) }
      pure true
    else pure false

/-- `deliverDueBatches`: whether the loop ended within the fuel. -/
def deliverDueBatches (options : TransformSystemOptions n) (transform : TransformDefinition)
    (step fuel : ℕ) : EStateM String (Delivery n) Bool :=
  Worklist.repeatWhile (deliverNext options transform step) fuel

end IdleEngine
