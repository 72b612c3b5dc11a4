import IdleEngine.Transform.StageGraph
import IdleEngine.Transform.Stages

/-!
# Starting a mission, and the decisions of the player

The plan of a mission with stages starts at its first stage (`buildStagePlan`): the success rate and
the checkpoint of that stage are prepared when the mission starts, and nothing is granted yet. A
decision of the player is about the batch whose plan has it pending (`resolveInQueue`).
-/

namespace IdleEngine

open Stateful JsValue

variable {n : ℕ}

/-- The instances that a mission sends, each with whether it returns when the mission ends. -/
abbrev MissionAssignments := List (String × Bool)

section Prepare

variable (options : TransformSystemOptions n) (transform : TransformDefinition) (step : ℕ)
  (resources : ResourceState n)

/-- The first stage of a mission: the initial one, or else the first in the list. -/
def TransformDefinition.firstStage (transform : TransformDefinition) : Option MissionStage :=
  (transform.rootStage.bind transform.findStage).or transform.stages.head?

/-- `returnOnCompleteEntityInstanceIds` of a new plan. -/
def returningInstances (assignments : MissionAssignments) : List String :=
  sortById id ((assignments.filter Prod.snd).map Prod.fst)

/-- `buildMissionPlanForRun`, for a mission with stages. -/
def buildStagePlan (basePlan : MissionBatchPlanBase) (assignments : MissionAssignments)
    (stage : MissionStage) : Prepared MultiStageMissionBatchPlan := do
  let successRateRaw ←
    evaluateStageSuccessRate options transform step resources stage basePlan.baseRate
  let checkpoint ← prepareCheckpoint options transform step resources stage 1
  return {
    toMissionBatchPlanBase := basePlan
    currentStageId := stage.id
    currentStageStartStep := step
    currentStageSuccessRate := clampProbability (clampProbability successRateRaw + 0)
    currentStageCheckpoint := checkpoint
    checkpointRewardsGranted := []
    pendingDecision := none
    accumulatedModifiers :=
      { successRateBonus := 0, durationMultiplier := 1, outputMultiplier := 1 }
    returnOnCompleteEntityInstanceIds := returningInstances assignments }

end Prepare

/-- The entry that a mission run inserts. -/
def missionEntry (sequence completeAtStep : ℕ) (assignments : MissionAssignments)
    (plan : MissionBatchPlan) : TransformBatchQueueEntry :=
  { completeAtStep
    outputs := []
    batchId := some (toString sequence)
    entityInstanceIds := assignments.map Prod.fst
    entityExperience := none
    mission := some plan
    sequence }

/-! ### Decisions of the player -/

/-- What `resolveMissionDecisionBatchContext` finds. -/
structure MissionDecisionBatchContext where
  transform : TransformDefinition
  stage : MissionStage
  option : MissionDecisionOption
  entry : TransformBatchQueueEntry
  mission : MultiStageMissionBatchPlan
  entryIndex : ℕ

/-- An error of `resolveMissionDecisionBatchContext` that names the batch. -/
def decisionError (transformId batchId code message : String)
    (details : List (String × JsValue)) : TransformError :=
  ⟨code, message, [("transformId", string transformId), ("batchId", string batchId)] ++ details⟩

/-- `resolveMissionDecisionBatchContext`, for a multi-stage mission and its queue. -/
def resolveInQueue (transform : TransformDefinition) (batchQueue : List TransformBatchQueueEntry)
    (batchId stageId optionId : String) : Except TransformError MissionDecisionBatchContext :=
  let fail := decisionError transform.id batchId
  let entryIndex := batchQueue.findIdx fun entry => entry.batchId == some batchId
  match batchQueue[entryIndex]? with
  | none => .error (fail "UNKNOWN_MISSION_BATCH" "Mission batch not found." [])
  | some entry =>
    match entry.mission with
    | some (.multiStage mission) =>
      match mission.pendingDecision with
      | none =>
        .error (fail "NO_PENDING_DECISION" "Mission batch does not have a pending decision." [])
      | some pending =>
        if pending.stageId ≠ stageId then
          .error (fail "DECISION_STAGE_MISMATCH"
            "Decision stage id does not match the pending decision stage."
            [("expectedStageId", string pending.stageId), ("stageId", string stageId)])
        else
          match transform.findStage stageId with
          | none =>
            .error (fail "INVALID_STAGE" "Stage definition missing a decision block."
              [("stageId", string stageId)])
          | some stage =>
            match stage.decision with
            | none =>
              .error (fail "INVALID_STAGE" "Stage definition missing a decision block."
                [("stageId", string stageId)])
            | some decision =>
              match decision.options.find? fun option => option.id = optionId with
              | none =>
                .error (fail "UNKNOWN_DECISION_OPTION" "Decision option id not found."
                  [("stageId", string stageId), ("optionId", string optionId)])
              | some option => .ok { transform, stage, option, entry, mission, entryIndex }
    | _ =>
      .error (fail "INVALID_MISSION_BATCH"
        "Mission batch does not contain multi-stage mission state." [])

end IdleEngine
