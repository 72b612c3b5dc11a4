import IdleEngine.Transform.Saves
import IdleEngine.Transform.Termination

/-!
# Checkpoint rewards

What a delivery adds to the records of the stages is accounted for in the plan that goes back into
the queue: the stages whose rewards were granted are those that the plan lists (`Accounts`). So over
the whole life of a batch (`Life`), with deliveries, decisions and saves in any order, a checkpoint
is granted at most once, and it is granted exactly when its stage succeeds
(`checkpoint_granted_once`).
-/

namespace IdleEngine

open Stateful Yields Outcome List Option StageRecord

variable {n : ℕ}

/-! ### Records -/

/-- The stage whose reward a record grants. -/
def StageRecord.grantedStage : StageRecord → Option String
  | .rolled _ _ => none
  | .granted stageId _ => some stageId

/-- The stages whose rewards were granted. -/
def grantedStages (records : List StageRecord) : List String :=
  records.filterMap StageRecord.grantedStage

/-- A stage with a checkpoint whose roll for success succeeded. -/
def TransformDefinition.Earned (transform : TransformDefinition) (records : List StageRecord)
    (stageId : String) : Prop :=
  StageRecord.rolled stageId true ∈ records ∧
    ∃ stage, transform.findStage stageId = some stage ∧ stage.checkpoint.isSome = true

/-- No amount of the outcome is negative. -/
def MissionPreparedOutcome.Payable (outcome : MissionPreparedOutcome) : Prop :=
  ∀ output ∈ outcome.outputs, 0 ≤ output.amount

/-- What was granted is what was earned, no reward was granted twice, and each could be paid. -/
structure TransformDefinition.Rewarded (transform : TransformDefinition)
    (records : List StageRecord) : Prop where
  nodup : (grantedStages records).Nodup
  payable : ∀ stageId reward, StageRecord.granted stageId reward ∈ records → reward.Payable
  mem_iff : ∀ stageId, stageId ∈ grantedStages records ↔ transform.Earned records stageId

/-- The plan stands at a stage, and its reward is prepared where the stage has a checkpoint. -/
def MultiStageMissionBatchPlan.Prepares (transform : TransformDefinition)
    (mission : MultiStageMissionBatchPlan) : Prop :=
  ∃ stage, transform.findStage mission.currentStageId = some stage ∧
    mission.currentStageCheckpoint.isSome = stage.checkpoint.isSome ∧
    ∀ reward ∈ mission.currentStageCheckpoint, reward.Payable

/-- What goes back into the queue is a mission at a stage with the given rewards granted. -/
def GoesOnWith (transform : TransformDefinition) (granted : List String)
    (again : Option TransformBatchQueueEntry) : Prop :=
  ∀ next ∈ again, ∃ mission, next.mission = some (.multiStage mission) ∧
    mission.checkpointRewardsGranted = granted ∧ mission.Prepares transform

theorem goesOnWith_none (transform : TransformDefinition) (granted : List String) :
    GoesOnWith transform granted none := by
  intro next hnext
  cases hnext

variable {options : TransformSystemOptions n} {transform : TransformDefinition} {step : ℕ}
  {entry : TransformBatchQueueEntry} {mission : MultiStageMissionBatchPlan} {stage : MissionStage}

/-! ### What records nothing -/

/-- Nothing is recorded about a stage. -/
def SameRecords (stores stores' : TransformStores n) : Prop :=
  stores'.stageRecords = stores.stageRecords

/-- A computation that records nothing. -/
abbrev Unrecorded {α : Type} (m : StoreM n α) : Prop := Performs SameRecords m

variable {α : Type}

theorem Unrecorded.records {m : StoreM n α} (h : Unrecorded m) (stores : TransformStores n) :
    (final (m stores)).stageRecords = stores.stageRecords :=
  h.keeps (P := fun s => s.stageRecords = stores.stageRecords) (fun _ _ hs hstep => hstep.trans hs)
    rfl

theorem unrecorded_attempt (result : Prepared α) :
    Unrecorded (StoreM.attempt result : StoreM n _) := by
  rcases result with (message | error) | a
  · exact .throw message
  · exact .pure _
  · exact .pure _

theorem unrecorded_ofExcept (result : Except String α) :
    Unrecorded (StoreM.ofExcept result : StoreM n α) := by
  cases result with
  | ok a => exact .pure a
  | error message => exact .throw message

theorem unrecorded_prepare (computation : ResourceState n → Prepared α) :
    Unrecorded (StoreM.prepare computation) :=
  .bind .get fun stores => unrecorded_attempt (computation stores.resources)

theorem unrecorded_read (computation : ResourceState n → Except String α) :
    Unrecorded (StoreM.read computation) :=
  .bind .get fun stores => unrecorded_ofExcept (computation stores.resources)

theorem unrecorded_publish (type : String) (payload : JsValue) :
    Unrecorded (publishMissionEvent type payload : StoreM n Unit) :=
  .modify fun _ => .single rfl

theorem unrecorded_applyBatchOutput (output : BatchOutput) :
    Unrecorded (applyBatchOutput options output) := by
  intro stores
  rw [applyBatchOutput, run_get_bind]
  split
  · exact .refl
  · cases options.getResourceIndex stores.resources output.resourceId with
    | none => exact .refl
    | some index =>
      dsimp only
      cases stores.resources.addAmount index (.fin output.amount) with
      | error message => exact .refl
      | ok added => exact .single rfl

theorem unrecorded_applyBatchOutputs (outputs : List BatchOutput) :
    Unrecorded (applyBatchOutputs options outputs) := by
  rw [applyBatchOutputs]
  split
  · exact .forM fun output _ => unrecorded_applyBatchOutput output
  · exact .pure _

theorem unrecorded_forEachEntity (operation : ResourceState n → String → EntityM Unit)
    (entityInstanceIds : List String) : Unrecorded (forEachEntity operation entityInstanceIds) :=
  .modify fun _ => .single rfl

theorem unrecorded_grantEntityExperience (entityExperience : ℚ) (entityInstanceIds : List String) :
    Unrecorded (grantEntityExperience options step entityExperience entityInstanceIds) := by
  rw [grantEntityExperience]
  split
  · exact .pure _
  · exact unrecorded_forEachEntity _ _

theorem unrecorded_drawRandom : Unrecorded (drawRandom options) :=
  .modifyGet fun _ => .single rfl

theorem unrecorded_rollSuccess (usePRD : Bool) (rate : ℚ) :
    Unrecorded (rollSuccess options transform usePRD rate) := by
  refine .bind unrecorded_drawRandom fun drawn => ?_
  cases usePRD with
  | true => exact .modifyGet fun _ => .single rfl
  | false => exact .pure _

theorem unrecorded_rollCritical (plan : MissionBatchPlanBase) :
    Unrecorded (rollCritical options plan) := by
  rw [rollCritical]
  split
  · exact .bind unrecorded_drawRandom fun drawn => .pure _
  · exact .pure _

theorem unrecorded_finishMission (outcomeKind : MissionOutcomeKind)
    (outcome : MissionPreparedOutcome) (returning : List String) :
    Unrecorded (finishMission options transform step entry outcomeKind outcome returning) :=
  .bind (unrecorded_applyBatchOutputs _) fun _ =>
    .bind (unrecorded_grantEntityExperience _ _) fun _ =>
      .bind (unrecorded_forEachEntity _ _) fun _ => unrecorded_publish _ _

theorem unrecorded_completeMissionBatch (plan : MissionBatchPlanBase) :
    Unrecorded (completeMissionBatch options transform step entry plan) := by
  refine .bind ?_ fun result => unrecorded_finishMission _ _ _
  refine .bind (unrecorded_rollSuccess _ _) fun success => ?_
  cases success with
  | false => exact .pure _
  | true => exact .bind (unrecorded_rollCritical plan) fun critical => .pure _

theorem unrecorded_completeStandardBatch : Unrecorded (completeStandardBatch options step entry) :=
  .bind (unrecorded_applyBatchOutputs _) fun _ => unrecorded_grantEntityExperience _ _

theorem unrecorded_resolveMissionCompletionOutcomeKind :
    Unrecorded (resolveMissionCompletionOutcomeKind options mission) :=
  .bind (unrecorded_rollCritical _) fun _ => .pure _

theorem unrecorded_completeMultiStageMissionFailure :
    Unrecorded (completeMultiStageMissionFailure options transform step entry mission) :=
  unrecorded_finishMission _ _ _

/-- What ends a mission without a record. -/
theorem unrecorded_finish {m : StoreM n Unit} (h : Unrecorded m) :
    Unrecorded (do m; pure (none : Option TransformBatchQueueEntry)) :=
  .bind h fun _ => .pure _

theorem unrecorded_rescheduleMissionEntry (nextStageId : String) :
    Unrecorded (rescheduleMissionEntry options transform step entry mission nextStageId) := by
  refine .bind (unrecorded_prepare _) fun scheduled => ?_
  cases scheduled with
  | error e => exact unrecorded_finish unrecorded_completeMultiStageMissionFailure
  | ok scheduled => exact .pure _

theorem unrecorded_completeMultiStageMissionAfterSuccessStage :
    Unrecorded
      (completeMultiStageMissionAfterSuccessStage options transform step entry mission stage) := by
  refine .bind unrecorded_resolveMissionCompletionOutcomeKind fun resolved =>
    .bind (unrecorded_prepare _) fun override => ?_
  cases override with
  | error e => exact unrecorded_completeMultiStageMissionFailure
  | ok override => exact unrecorded_finishMission _ _ _

theorem unrecorded_followOption (option : MissionDecisionOption) :
    Unrecorded (followOption options transform step entry mission stage option) := by
  refine .bind (unrecorded_read _) fun mission' =>
    .bind (unrecorded_publish _ _) fun _ => ?_
  cases option.nextStage with
  | none => exact unrecorded_finish unrecorded_completeMultiStageMissionAfterSuccessStage
  | some nextStageId => exact unrecorded_rescheduleMissionEntry nextStageId

theorem unrecorded_handlePendingDecisionBatch :
    Unrecorded (handlePendingDecisionBatch options transform step entry mission stage) := by
  rw [handlePendingDecisionBatch]
  cases stage.decision with
  | none => exact unrecorded_finish unrecorded_completeMultiStageMissionFailure
  | some decision =>
    refine .bind (unrecorded_read _) fun chosenOption => ?_
    cases chosenOption with
    | none => exact unrecorded_finish unrecorded_completeMultiStageMissionFailure
    | some option => exact unrecorded_followOption option

theorem unrecorded_scheduleMissionDecision (decision : MissionDecision) :
    Unrecorded (scheduleMissionDecision options transform step entry mission stage decision) :=
  .bind (unrecorded_read _) fun _ => .bind (unrecorded_read _) fun _ =>
    .bind (unrecorded_publish _ _) fun _ => .pure _

theorem unrecorded_leaveStage (success : Bool) :
    Unrecorded (leaveStage options transform step entry mission stage success) := by
  rw [leaveStage]
  split
  · exact unrecorded_finish
      (.bind (unrecorded_prepare _) fun _ => unrecorded_finishMission _ _ _)
  · split
    · exact unrecorded_scheduleMissionDecision _
    · exact unrecorded_finish unrecorded_completeMultiStageMissionAfterSuccessStage
    · exact unrecorded_rescheduleMissionEntry _

/-! ### What goes back into the queue -/

theorem payable_scaleMissionPreparedOutcome (outcome : MissionPreparedOutcome) (multiplier : ℚ) :
    (scaleMissionPreparedOutcome outcome multiplier).Payable := by
  intro output houtput
  obtain ⟨unscaled, -, rfl⟩ := mem_map.mp houtput
  exact le_max_left 0 _

variable {resources : ResourceState n}

/-- The reward of a checkpoint is prepared exactly where there is a checkpoint. -/
theorem prepareCheckpoint_ok {outputMultiplier : ℚ} {checkpoint : Option MissionPreparedOutcome}
    (h : prepareCheckpoint options transform step resources stage outputMultiplier =
      .ok checkpoint) :
    checkpoint.isSome = stage.checkpoint.isSome ∧ ∀ reward ∈ checkpoint, reward.Payable := by
  rw [prepareCheckpoint] at h
  cases hcheckpoint : stage.checkpoint with
  | none =>
    rw [hcheckpoint] at h
    obtain rfl := Except.ok.inj h
    exact ⟨rfl, fun reward hreward => (by cases hreward)⟩
  | some outcome =>
    rw [hcheckpoint] at h
    obtain ⟨prepared, -, rfl⟩ := map_ok h
    refine ⟨rfl, fun reward hreward => ?_⟩
    obtain rfl := some.inj hreward
    exact payable_scaleMissionPreparedOutcome prepared outputMultiplier

variable {stageId : String}

/-- A stage that was scheduled is prepared, and the rewards that were granted are still listed. -/
theorem scheduleMultiStageMissionStage_prepares {scheduled : MultiStageMissionBatchPlan × ℕ}
    (h : scheduleMultiStageMissionStage options transform step resources mission stageId =
      .ok scheduled) :
    scheduled.1.Prepares transform ∧
      scheduled.1.checkpointRewardsGranted = mission.checkpointRewardsGranted := by
  rw [scheduleMultiStageMissionStage] at h
  cases hfind : transform.findStage stageId with
  | none =>
    rw [hfind] at h
    cases h
  | some stage =>
    rw [hfind] at h
    obtain ⟨duration, -, h⟩ := bind_ok h
    obtain ⟨rate, -, h⟩ := bind_ok h
    obtain ⟨checkpoint, hcheckpoint, h⟩ := bind_ok h
    obtain rfl := Except.ok.inj h
    have hid : stage.id = stageId := by simpa using find?_some hfind
    exact ⟨⟨stage, hid ▸ hfind, prepareCheckpoint_ok hcheckpoint⟩, rfl⟩

/-- What ends a mission leaves nothing to go on. -/
theorem goesOnWith_finish (m : StoreM n α) (granted : List String) :
    Yields (GoesOnWith transform granted) (do let _ ← m; pure none) :=
  of_bind fun _ => Yields.pure (goesOnWith_none transform granted)

theorem goesOnWith_reschedule (nextStageId : String) :
    Yields (GoesOnWith transform mission.checkpointRewardsGranted)
      (rescheduleMissionEntry options transform step entry mission nextStageId) := by
  refine Yields.bind (P := fun scheduled => ∀ plan, scheduled = .ok plan →
    plan.1.Prepares transform ∧
      plan.1.checkpointRewardsGranted = mission.checkpointRewardsGranted) ?_
    fun scheduled hscheduled => ?_
  · intro stores value stores' hrun plan hplan
    rw [StoreM.prepare, run_get_bind] at hrun
    subst hplan
    rcases run_attempt_ok hrun with ⟨scheduled, hok, heq⟩ | ⟨e, heq⟩
    · obtain rfl := Except.ok.inj heq
      exact scheduleMultiStageMissionStage_prepares hok
    · cases heq
  · cases scheduled with
    | error e => exact goesOnWith_finish _ _
    | ok plan =>
      obtain ⟨hprepares, hgranted⟩ := hscheduled plan rfl
      refine Yields.pure ?_
      intro next hnext
      obtain rfl := some.inj hnext
      exact ⟨plan.1, rfl, hgranted, hprepares⟩

theorem planAfterDecision_granted {option : MissionDecisionOption}
    {mission' : MultiStageMissionBatchPlan}
    (h : planAfterDecision options step mission option resources = .ok mission') :
    mission'.checkpointRewardsGranted = mission.checkpointRewardsGranted := by
  obtain ⟨modifiers, -, rfl⟩ := map_ok h
  rfl

theorem goesOnWith_followOption (option : MissionDecisionOption) :
    Yields (GoesOnWith transform mission.checkpointRewardsGranted)
      (followOption options transform step entry mission stage option) := by
  refine Yields.bind (P := fun mission' : MultiStageMissionBatchPlan =>
    mission'.checkpointRewardsGranted = mission.checkpointRewardsGranted) ?_
    fun mission' hgranted => of_bind fun _ => ?_
  · intro stores mission' stores' hrun
    rw [StoreM.read, run_get_bind] at hrun
    cases hplan : planAfterDecision options step mission option stores.resources with
    | error message =>
      rw [hplan] at hrun
      cases hrun
    | ok found =>
      rw [hplan] at hrun
      obtain ⟨rfl, -⟩ := EStateM.Result.ok.inj hrun
      exact planAfterDecision_granted hplan
  · cases option.nextStage with
    | none => exact goesOnWith_finish _ _
    | some nextStageId =>
      dsimp only
      rw [← hgranted]
      exact goesOnWith_reschedule nextStageId

theorem goesOnWith_handlePendingDecisionBatch :
    Yields (GoesOnWith transform mission.checkpointRewardsGranted)
      (handlePendingDecisionBatch options transform step entry mission stage) := by
  rw [handlePendingDecisionBatch]
  cases stage.decision with
  | none => exact goesOnWith_finish _ _
  | some decision =>
    refine of_bind fun chosenOption => ?_
    cases chosenOption with
    | none => exact goesOnWith_finish _ _
    | some option => exact goesOnWith_followOption option

theorem goesOnWith_leaveStage (hprepares : mission.Prepares transform) (success : Bool) :
    Yields (GoesOnWith transform mission.checkpointRewardsGranted)
      (leaveStage options transform step entry mission stage success) := by
  rw [leaveStage]
  split
  · exact goesOnWith_finish _ _
  · split
    · -- the plan waits at its stage with what was prepared for it
      refine of_bind fun timeoutMs => of_bind fun optionViews =>
        of_bind fun _ => Yields.pure ?_
      intro next hnext
      obtain rfl := some.inj hnext
      exact ⟨_, rfl, rfl, hprepares⟩
    · exact goesOnWith_finish _ _
    · exact goesOnWith_reschedule _

/-! ### A stage is completed -/

/-- What is recorded when a stage is completed. -/
def completionRecords (mission : MultiStageMissionBatchPlan) (stage : MissionStage)
    (success : Bool) : List StageRecord :=
  .rolled stage.id success ::
    (checkpointToGrant mission stage success).toList.map (.granted stage.id)

/-- A roll always returns. -/
theorem rollSuccess_run (options : TransformSystemOptions n) (transform : TransformDefinition)
    (usePRD : Bool) (rate : ℚ) (stores : TransformStores n) :
    ∃ success stores', rollSuccess options transform usePRD rate stores = .ok success stores' ∧
      stores'.stageRecords = stores.stageRecords := by
  cases usePRD with
  | true => exact ⟨_, _, rfl, rfl⟩
  | false => exact ⟨_, _, rfl, rfl⟩

/-- The roll for a stage is recorded. -/
theorem rollMissionStageSuccess_run (options : TransformSystemOptions n)
    (transform : TransformDefinition) (mission : MultiStageMissionBatchPlan) (stage : MissionStage)
    (stores : TransformStores n) :
    ∃ success stores', rollMissionStageSuccess options transform mission stage stores =
      .ok success stores' ∧
      stores'.stageRecords = stores.stageRecords ++ [.rolled stage.id success] := by
  obtain ⟨success, rolled, hrun, hrolled⟩ := rollSuccess_run options transform mission.usePRD
    (clampProbability mission.currentStageSuccessRate) stores
  rw [rollMissionStageSuccess, run_bind_ok hrun]
  refine ⟨success, { rolled with
    stageRecords := rolled.stageRecords ++ [.rolled stage.id success] }, rfl, ?_⟩
  rw [← hrolled]

/-- The reward of the checkpoint is recorded when it is granted. -/
theorem applyStageCheckpointRewards_records (options : TransformSystemOptions n) (step : ℕ)
    (entry : TransformBatchQueueEntry) (mission : MultiStageMissionBatchPlan)
    (stage : MissionStage) (success : Bool) (stores : TransformStores n) :
    (final (applyStageCheckpointRewards options step entry mission stage success
      stores)).stageRecords =
      stores.stageRecords ++
        (checkpointToGrant mission stage success).toList.map (.granted stage.id) := by
  rw [applyStageCheckpointRewards]
  cases hgrant : checkpointToGrant mission stage success with
  | none => exact (append_nil _).symm
  | some checkpoint =>
    have hrest : Unrecorded (do
        applyBatchOutputs options checkpoint.outputs
        grantEntityExperience options step checkpoint.entityExperience entry.entityInstanceIds
        pure (mission.checkpointRewardsGranted ++ [stage.id])) :=
      .bind (unrecorded_applyBatchOutputs _) fun _ =>
        .bind (unrecorded_grantEntityExperience _ _) fun _ => .pure _
    exact hrest.records _

theorem yields_applyStageCheckpointRewards (success : Bool) :
    Yields (fun granted => granted = mission.checkpointRewardsGranted ++
        (checkpointToGrant mission stage success).toList.map fun _ => stage.id)
      (applyStageCheckpointRewards options step entry mission stage success) := by
  rw [applyStageCheckpointRewards]
  cases checkpointToGrant mission stage success with
  | none => exact Yields.pure (append_nil _).symm
  | some checkpoint =>
    exact of_bind fun _ => of_bind fun _ => of_bind fun _ => Yields.pure rfl

/-- A computation that may put a batch back writes records, and what goes back lists the rewards
that all the records grant. -/
def AccountsFor (transform : TransformDefinition) (records : List StageRecord)
    (m : StoreM n (Option TransformBatchQueueEntry)) : Prop :=
  ∀ stores, ∃ written, (final (m stores)).stageRecords = stores.stageRecords ++ written ∧
    transform.Rewarded (records ++ written) ∧
    ∀ again stores', m stores = .ok again stores' →
      GoesOnWith transform (grantedStages (records ++ written)) again

variable {records : List StageRecord}

theorem accountsFor_of_unrecorded {m : StoreM n (Option TransformBatchQueueEntry)}
    (hrewarded : transform.Rewarded records) (hunrecorded : Unrecorded m)
    (hyields : Yields (GoesOnWith transform (grantedStages records)) m) :
    AccountsFor transform records m := by
  intro stores
  refine ⟨[], ?_, ?_, fun again stores' hrun => ?_⟩
  · rw [hunrecorded.records, append_nil]
  · rwa [append_nil]
  · rw [append_nil]
    exact hyields stores again stores' hrun

theorem grantedStages_completionRecords (success : Bool) :
    grantedStages (completionRecords mission stage success) =
      (checkpointToGrant mission stage success).toList.map fun _ => stage.id := by
  rw [completionRecords, grantedStages, filterMap_cons_none rfl]
  cases checkpointToGrant mission stage success <;> rfl

/-- What a completion earns: its stage, if that succeeds and has a checkpoint. -/
theorem earned_append_completionRecords (hfind : transform.findStage stage.id = some stage)
    (records : List StageRecord) (success : Bool) (stageId : String) :
    transform.Earned (records ++ completionRecords mission stage success) stageId ↔
      transform.Earned records stageId ∨
        stageId = stage.id ∧ success = true ∧ stage.checkpoint.isSome = true := by
  have hmem : rolled stageId true ∈ completionRecords mission stage success ↔
      stageId = stage.id ∧ success = true := by
    rw [completionRecords, mem_cons, rolled.injEq]
    refine or_iff_left (fun hgranted => ?_) |>.trans (and_congr_right fun _ => eq_comm)
    obtain ⟨_, -, heq⟩ := mem_map.mp hgranted
    cases heq
  rw [TransformDefinition.Earned, mem_append, hmem, or_and_right]
  refine or_congr_right ⟨?_, ?_⟩
  · rintro ⟨⟨rfl, hsuccess⟩, found, hfound, hcheckpoint⟩
    obtain rfl := some.inj (hfind.symm.trans hfound)
    exact ⟨rfl, hsuccess, hcheckpoint⟩
  · rintro ⟨rfl, hsuccess, hcheckpoint⟩
    exact ⟨⟨rfl, hsuccess⟩, stage, hfind, hcheckpoint⟩

/-- **A completion grants what it earns.** -/
theorem TransformDefinition.Rewarded.complete (h : transform.Rewarded records)
    (hgranted : mission.checkpointRewardsGranted = grantedStages records)
    (hfind : transform.findStage stage.id = some stage)
    (hcheckpoint : mission.currentStageCheckpoint.isSome = stage.checkpoint.isSome)
    (hpayable : ∀ reward ∈ mission.currentStageCheckpoint, reward.Payable) (success : Bool) :
    transform.Rewarded (records ++ completionRecords mission stage success) := by
  have happend : grantedStages (records ++ completionRecords mission stage success) =
      grantedStages records ++
        (checkpointToGrant mission stage success).toList.map fun _ => stage.id := by
    rw [grantedStages, filterMap_append]
    exact congrArg _ (grantedStages_completionRecords success)
  have hgrant : checkpointToGrant mission stage success =
      if success = true ∧ stage.id ∉ grantedStages records then mission.currentStageCheckpoint
      else none := by
    rw [checkpointToGrant, hgranted]
    simp
  have hpaid : ∀ stageId reward, granted stageId reward ∈
      records ++ completionRecords mission stage success → reward.Payable := by
    intro stageId reward hmem
    rcases mem_append.mp hmem with hold | hnew
    · exact h.payable stageId reward hold
    · obtain hrolled | hnew := mem_cons.mp hnew
      · cases hrolled
      obtain ⟨checkpoint, hcheckpoint, heq⟩ := mem_map.mp hnew
      obtain ⟨-, rfl⟩ := granted.inj heq
      rw [mem_toList, hgrant] at hcheckpoint
      split at hcheckpoint
      · exact hpayable _ hcheckpoint
      · cases hcheckpoint
  by_cases hnew : success = true ∧ stage.id ∉ grantedStages records
  · rw [if_pos hnew] at hgrant
    cases hprepared : mission.currentStageCheckpoint with
    | none =>
      -- a stage without a checkpoint has nothing to grant
      rw [hprepared] at hgrant hcheckpoint
      rw [hgrant] at happend
      rw [toList_none, map_nil, append_nil] at happend
      refine ⟨happend ▸ h.nodup, hpaid, fun stageId => ?_⟩
      rw [happend, h.mem_iff, earned_append_completionRecords hfind, ← hcheckpoint]
      simp
    | some checkpoint =>
      rw [hprepared] at hgrant hcheckpoint
      rw [hgrant] at happend
      rw [toList_some, map_singleton] at happend
      refine ⟨?_, hpaid, fun stageId => ?_⟩
      · rw [happend]
        exact nodup_append.mpr ⟨h.nodup, nodup_singleton _, by
          intro a ha b hb hab
          obtain rfl := mem_singleton.mp hb
          exact hnew.2 (hab ▸ ha)⟩
      · rw [happend, mem_append, mem_singleton, h.mem_iff,
          earned_append_completionRecords hfind, ← hcheckpoint]
        simp [hnew.1]
  · rw [if_neg hnew] at hgrant
    rw [hgrant] at happend
    rw [toList_none, map_nil, append_nil] at happend
    refine ⟨happend ▸ h.nodup, hpaid, fun stageId => ?_⟩
    rw [happend, h.mem_iff, earned_append_completionRecords hfind]
    refine (or_iff_left_of_imp ?_).symm
    rintro ⟨rfl, hsuccess, -⟩
    -- the stage succeeded before
    have hold : stage.id ∈ grantedStages records := by
      by_contra hnot
      exact hnew ⟨hsuccess, hnot⟩
    exact (h.mem_iff stage.id).mp hold

theorem accountsFor_handleStageCompletionBatch (h : transform.Rewarded records)
    (hgranted : mission.checkpointRewardsGranted = grantedStages records)
    (hid : stage.id = mission.currentStageId) (hfind : transform.findStage stage.id = some stage)
    (hcheckpoint : mission.currentStageCheckpoint.isSome = stage.checkpoint.isSome)
    (hpayable : ∀ reward ∈ mission.currentStageCheckpoint, reward.Payable) :
    AccountsFor transform records
      (handleStageCompletionBatch options transform step entry mission stage) := by
  intro stores
  obtain ⟨success, rolled, hroll, hrolled⟩ :=
    rollMissionStageSuccess_run options transform mission stage stores
  have happlied :=
    applyStageCheckpointRewards_records options step entry mission stage success rolled
  have hrecords : ∀ s : TransformStores n, s.stageRecords = rolled.stageRecords ++
        (checkpointToGrant mission stage success).toList.map (.granted stage.id) →
      s.stageRecords = stores.stageRecords ++ completionRecords mission stage success := by
    intro s hs
    rw [hs, hrolled, append_assoc]
    rfl
  refine ⟨completionRecords mission stage success, ?_, h.complete hgranted hfind hcheckpoint
    hpayable success, fun again stores' hrun => ?_⟩
  · rw [handleStageCompletionBatch, run_bind_ok hroll]
    cases happly : applyStageCheckpointRewards options step entry mission stage success rolled with
    | error message thrown =>
      rw [run_bind_error happly]
      rw [happly] at happlied
      exact hrecords thrown happlied
    | ok granted applied =>
      rw [run_bind_ok happly]
      rw [happly] at happlied
      refine Eq.trans ?_ (hrecords applied happlied)
      exact Unrecorded.records (.bind (unrecorded_publish _ _) fun _ =>
        unrecorded_leaveStage success) applied
  · rw [handleStageCompletionBatch, run_bind_ok hroll] at hrun
    obtain ⟨granted, applied, happly, hrun⟩ := bind_ok hrun
    obtain ⟨-, published, -, hrun⟩ := bind_ok hrun
    have hlisted := yields_applyStageCheckpointRewards success rolled granted applied happly
    have hall : grantedStages (records ++ completionRecords mission stage success) = granted := by
      rw [hlisted, hgranted, grantedStages, filterMap_append]
      exact congrArg _ (grantedStages_completionRecords success)
    rw [hall]
    have hprepares : MultiStageMissionBatchPlan.Prepares transform
        { mission with checkpointRewardsGranted := granted } :=
      ⟨stage, hid ▸ hfind, hcheckpoint, hpayable⟩
    exact goesOnWith_leaveStage hprepares success published again stores' hrun

/-- **What the delivery of a mission grants is accounted for.** -/
theorem accountsFor_deliverDueBatchEntry (options : TransformSystemOptions n) (step : ℕ)
    (hplan : entry.mission = some (.multiStage mission)) (h : transform.Rewarded records)
    (hgranted : mission.checkpointRewardsGranted = grantedStages records)
    (hprepares : mission.Prepares transform) :
    AccountsFor transform records (deliverDueBatchEntry options transform step entry) := by
  rw [deliverDueBatchEntry, hplan]
  by_cases hmode : transform.mode = .mission
  · rw [if_pos hmode]
    dsimp only
    split
    · exact accountsFor_of_unrecorded h (unrecorded_finish (unrecorded_completeMissionBatch _))
        (goesOnWith_finish _ _)
    · rw [deliverDueMultiStageMissionBatch]
      cases hfind : transform.findStage mission.stageId with
      | none =>
        exact accountsFor_of_unrecorded h
          (unrecorded_finish unrecorded_completeMultiStageMissionFailure) (goesOnWith_finish _ _)
      | some stage =>
        have hid : stage.id = mission.stageId := by simpa using find?_some hfind
        dsimp only
        split
        · refine accountsFor_of_unrecorded h unrecorded_handlePendingDecisionBatch ?_
          rw [← hgranted]
          exact goesOnWith_handlePendingDecisionBatch
        · next hpending =>
          have hstage : mission.stageId = mission.currentStageId := by
            rw [Bool.not_eq_true, isSome_eq_false_iff, isNone_iff_eq_none] at hpending
            rw [MultiStageMissionBatchPlan.stageId, hpending]
            rfl
          obtain ⟨current, hcurrent, hcheckpoint, hpayable⟩ := hprepares
          rw [← hstage, hfind] at hcurrent
          obtain rfl := some.inj hcurrent
          exact accountsFor_handleStageCompletionBatch h hgranted (hid.trans hstage)
            (hid ▸ hfind) hcheckpoint hpayable
  · rw [if_neg hmode]
    exact accountsFor_of_unrecorded h (unrecorded_finish unrecorded_completeStandardBatch)
      (goesOnWith_finish _ _)

/-! ### The life of a batch -/

/-- What may happen to a batch of a mission: what is recorded about its stages, and the batch that
is in the queue afterwards, if any. -/
inductive BatchStep (transform : TransformDefinition) :
    TransformBatchQueueEntry → List StageRecord → Option TransformBatchQueueEntry → Prop
  /-- It is delivered. -/
  | delivered {n : ℕ} (options : TransformSystemOptions n) (step : ℕ) (stores : TransformStores n)
      {entry : TransformBatchQueueEntry} {again : Option TransformBatchQueueEntry}
      {stores' : TransformStores n} {written : List StageRecord}
      (hrun : deliverDueBatchEntry options transform step entry stores = .ok again stores')
      (hwritten : stores'.stageRecords = stores.stageRecords ++ written) :
      BatchStep transform entry written again
  /-- Its delivery throws, and it is lost. -/
  | lost {n : ℕ} (options : TransformSystemOptions n) (step : ℕ) (stores : TransformStores n)
      {entry : TransformBatchQueueEntry} {message : String} {stores' : TransformStores n}
      {written : List StageRecord}
      (hrun : deliverDueBatchEntry options transform step entry stores = .error message stores')
      (hwritten : stores'.stageRecords = stores.stageRecords ++ written) :
      BatchStep transform entry written none
  /-- The player decides for an option that leads to another stage. -/
  | decided {n : ℕ} (options : TransformSystemOptions n) (step : ℕ) (resources : ResourceState n)
      {batchQueue : List TransformBatchQueueEntry} {batchId stageId optionId nextStageId : String}
      {context : MissionDecisionBatchContext} {mission : MultiStageMissionBatchPlan}
      {scheduled : MultiStageMissionBatchPlan × ℕ}
      (hcontext : resolveInQueue transform batchQueue batchId stageId optionId = .ok context)
      (hplan : planAfterDecision options step context.mission context.option resources =
        .ok mission)
      (hnext : context.option.nextStage = some nextStageId)
      (hscheduled : scheduleMultiStageMissionStage options transform step resources mission
        nextStageId = .ok scheduled) :
      BatchStep transform context.entry []
        (some (context.entry.withMission scheduled.1 scheduled.2))
  /-- The player decides for an option that ends the mission. -/
  | ended {batchQueue : List TransformBatchQueueEntry} {batchId stageId optionId : String}
      {context : MissionDecisionBatchContext}
      (hcontext : resolveInQueue transform batchQueue batchId stageId optionId = .ok context)
      (hnext : context.option.nextStage = none) : BatchStep transform context.entry [] none
  /-- It is saved and restored. -/
  | restored {entry restored : TransformBatchQueueEntry} (rebaseDelta : ℤ) (sequence : ℕ)
      (hrestored : parseTransformBatchEntry (serializeBatch entry) rebaseDelta sequence =
        some restored) :
      BatchStep transform entry [] (some restored)

/-- The life of a batch of a mission with stages: the batch, as long as it is in the queue, and what
was recorded about its stages. -/
inductive Life (transform : TransformDefinition) :
    Option TransformBatchQueueEntry → List StageRecord → Prop
  /-- A mission is started. -/
  | started {n : ℕ} (options : TransformSystemOptions n) (step : ℕ) (resources : ResourceState n)
      {basePlan : MissionBatchPlanBase} {assignments : MissionAssignments} {stage : MissionStage}
      {plan : MultiStageMissionBatchPlan} (sequence completeAtStep : ℕ)
      (hstage : transform.firstStage = some stage)
      (hplan : buildStagePlan options transform step resources basePlan assignments stage =
        .ok plan) :
      Life transform (some (missionEntry sequence completeAtStep assignments (.multiStage plan))) []
  /-- Something happens to the batch. -/
  | next {entry : TransformBatchQueueEntry} {records written : List StageRecord}
      {again : Option TransformBatchQueueEntry} (hlife : Life transform (some entry) records)
      (hstep : BatchStep transform entry written again) : Life transform again (records ++ written)

theorem findStage_firstStage (h : transform.firstStage = some stage) :
    transform.findStage stage.id = some stage := by
  rw [TransformDefinition.firstStage, or_eq_some_iff] at h
  rcases h with hroot | ⟨-, hhead⟩
  · obtain ⟨root, -, hfind⟩ := bind_eq_some_iff.mp hroot
    have hid : stage.id = root := by simpa using find?_some hfind
    exact hid ▸ hfind
  · obtain ⟨stages, hstages⟩ := head?_eq_some_iff.mp hhead
    rw [TransformDefinition.findStage, hstages, find?_cons_of_pos (by simp)]

/-- A plan for the first stage. -/
theorem buildStagePlan_ok {basePlan : MissionBatchPlanBase} {assignments : MissionAssignments}
    {plan : MultiStageMissionBatchPlan} (hstage : transform.firstStage = some stage)
    (h : buildStagePlan options transform step resources basePlan assignments stage = .ok plan) :
    plan.Prepares transform ∧ plan.checkpointRewardsGranted = [] := by
  obtain ⟨rate, -, h⟩ := bind_ok h
  obtain ⟨checkpoint, hcheckpoint, h⟩ := bind_ok h
  obtain rfl := Except.ok.inj h
  exact ⟨⟨stage, findStage_firstStage hstage, prepareCheckpoint_ok hcheckpoint⟩, rfl⟩

/-- The batch that a decision is about holds the plan. -/
theorem resolveInQueue_mission {batchQueue : List TransformBatchQueueEntry}
    {batchId optionId : String} {context : MissionDecisionBatchContext}
    (h : resolveInQueue transform batchQueue batchId stageId optionId = .ok context) :
    context.entry.mission = some (.multiStage context.mission) := by
  rw [resolveInQueue] at h
  split at h
  · cases h
  split at h
  · next hmission =>
    split at h
    · cases h
    split at h
    · cases h
    split at h
    · cases h
    split at h
    · cases h
    split at h
    · cases h
    obtain rfl := Except.ok.inj h
    exact hmission
  · cases h

theorem isNonBlankString_of_isMissionStageId {id : String}
    (h : TransformDefinition.isMissionStageId id = true) : isNonBlankString id = true := by
  rw [TransformDefinition.isMissionStageId] at h
  rw [isNonBlankString]
  cases hid : id.toList with
  | nil =>
    rw [hid] at h
    cases h
  | cons first rest =>
    rw [hid] at h
    have hlower : first.isLower = true := (Bool.and_eq_true_iff.mp h).1
    have htrimmed : isTrimmed first = false := by
      obtain ⟨hleast, hgreatest⟩ := Bool.and_eq_true_iff.mp hlower
      have hcode : 97 ≤ first.toNat ∧ first.toNat ≤ 122 :=
        ⟨UInt32.le_iff_toNat_le.mp (of_decide_eq_true hleast),
          UInt32.le_iff_toNat_le.mp (of_decide_eq_true hgreatest)⟩
      simp only [isTrimmed, Bool.or_eq_false_iff, Bool.and_eq_false_iff, beq_eq_false_iff_ne,
        decide_eq_false_iff_not]
      omega
    rw [any_cons, htrimmed]
    rfl

theorem TransformDefinition.SchemaValid.nonblank (h : transform.SchemaValid)
    (hfind : transform.findStage stageId = some stage) : isNonBlankString stageId = true := by
  have hid : stage.id = stageId := by simpa using find?_some hfind
  exact hid ▸ isNonBlankString_of_isMissionStageId
    (h.ids stage (mem_of_find?_eq_some hfind))

theorem payable_restored (outcome : MissionPreparedOutcome) : outcome.restored.Payable := by
  intro output houtput
  obtain ⟨saved, -, hrestored⟩ := mem_filterMap.mp houtput
  rw [BatchOutput.restored] at hrestored
  split at hrestored
  · obtain rfl := some.inj hrestored
    exact le_max_left 0 _
  · cases hrestored

/-- A mission that is saved and restored stands where it stood, and lists what was granted. -/
theorem goesOnWith_restored (hvalid : transform.SchemaValid) (h : transform.Rewarded records)
    (hplan : entry.mission = some (.multiStage mission))
    (hgranted : mission.checkpointRewardsGranted = grantedStages records)
    (hprepares : mission.Prepares transform) (rebaseDelta : ℤ) (sequence : ℕ) :
    GoesOnWith transform (grantedStages records)
      (parseTransformBatchEntry (serializeBatch entry) rebaseDelta sequence) := by
  obtain ⟨stage, hfind, hcheckpoint, -⟩ := hprepares
  obtain ⟨restored, hparse, hrestored⟩ :=
    parseMissionPlan_serialize (hvalid.nonblank hfind) rebaseDelta
  have hsaved : (serializeBatch entry).get "mission" =
      serializeMissionPlan (.multiStage mission) := by
    rw [serializeBatch, JsValue.get_partialRecord (by simp), hplan]
    rfl
  intro next hnext
  have hrecord : (serializeBatch entry).isRecord = true := rfl
  rw [parseTransformBatchEntry, if_pos hrecord, hsaved, hparse] at hnext
  obtain rfl := some.inj hnext
  refine ⟨restored, rfl, ?_, stage, hrestored.currentStageId ▸ hfind, ?_, ?_⟩
  · rw [hrestored.checkpointRewardsGranted, hgranted, filter_eq_self]
    intro stageId hstageId
    obtain ⟨-, found, hfound, -⟩ := (h.mem_iff stageId).mp hstageId
    exact hvalid.nonblank hfound
  · rw [hrestored.currentStageCheckpoint, isSome_map, hcheckpoint]
  · intro reward hreward
    rw [hrestored.currentStageCheckpoint] at hreward
    obtain ⟨saved, -, rfl⟩ := map_eq_some_iff.mp hreward
    exact payable_restored saved

/-- **What happens to a batch keeps the accounts.** -/
theorem BatchStep.accounted (hvalid : transform.SchemaValid) {written : List StageRecord}
    {again : Option TransformBatchQueueEntry} (hstep : BatchStep transform entry written again)
    (h : transform.Rewarded records) (hplan : entry.mission = some (.multiStage mission))
    (hgranted : mission.checkpointRewardsGranted = grantedStages records)
    (hprepares : mission.Prepares transform) :
    transform.Rewarded (records ++ written) ∧
      GoesOnWith transform (grantedStages (records ++ written)) again := by
  cases hstep with
  | delivered options step stores hrun hwritten =>
    obtain ⟨written', hwritten', hrewarded, hagain⟩ :=
      accountsFor_deliverDueBatchEntry options step hplan h hgranted hprepares stores
    rw [hrun] at hwritten'
    obtain rfl := append_cancel_left (hwritten.symm.trans hwritten')
    exact ⟨hrewarded, hagain again _ hrun⟩
  | lost options step stores hrun hwritten =>
    obtain ⟨written', hwritten', hrewarded, -⟩ :=
      accountsFor_deliverDueBatchEntry options step hplan h hgranted hprepares stores
    rw [hrun] at hwritten'
    obtain rfl := append_cancel_left (hwritten.symm.trans hwritten')
    exact ⟨hrewarded, goesOnWith_none _ _⟩
  | decided options step resources hcontext hafter hnext hscheduled =>
    rw [resolveInQueue_mission hcontext] at hplan
    obtain rfl := MissionBatchPlan.multiStage.inj (some.inj hplan)
    obtain ⟨hready, hlisted⟩ := scheduleMultiStageMissionStage_prepares hscheduled
    rw [append_nil]
    refine ⟨h, fun next hnext => ?_⟩
    obtain rfl := some.inj hnext
    exact ⟨_, rfl, hlisted.trans ((planAfterDecision_granted hafter).trans hgranted), hready⟩
  | ended hcontext hnext =>
    rw [append_nil]
    exact ⟨h, goesOnWith_none _ _⟩
  | restored rebaseDelta sequence hrestored =>
    rw [append_nil]
    refine ⟨h, ?_⟩
    rw [← hrestored]
    exact goesOnWith_restored hvalid h hplan hgranted hprepares rebaseDelta sequence

theorem Life.accounted (hvalid : transform.SchemaValid) {current : Option TransformBatchQueueEntry}
    (h : Life transform current records) :
    transform.Rewarded records ∧ GoesOnWith transform (grantedStages records) current := by
  induction h with
  | started options step resources sequence completeAtStep hstage hplan =>
    obtain ⟨hprepares, hgranted⟩ := buildStagePlan_ok hstage hplan
    refine ⟨⟨nodup_nil, fun stageId reward hmem => (by cases hmem), fun stageId =>
      iff_of_false not_mem_nil fun hearned => not_mem_nil hearned.1⟩, ?_⟩
    intro next hnext
    obtain rfl := some.inj hnext
    exact ⟨_, rfl, hgranted, hprepares⟩
  | next hlife hstep ih =>
    obtain ⟨hrewarded, hcurrent⟩ := ih
    obtain ⟨mission, hplan, hgranted, hprepares⟩ := hcurrent _ rfl
    exact hstep.accounted hvalid hrewarded hplan hgranted hprepares

theorem applyBatchOutputs_returns {outputs : List BatchOutput}
    (h : ∀ output ∈ outputs, 0 ≤ output.amount) (stores : TransformStores n) :
    ∃ stores', applyBatchOutputs options outputs stores = .ok () stores' := by
  rw [applyBatchOutputs]
  split
  · induction outputs generalizing stores with
    | nil => exact ⟨stores, rfl⟩
    | cons output outputs ih =>
      have hfirst : ∃ stores', applyBatchOutput options output stores = .ok () stores' := by
        rw [applyBatchOutput, run_get_bind]
        split
        · exact ⟨stores, rfl⟩
        · next hzero =>
          cases options.getResourceIndex stores.resources output.resourceId with
          | none => exact ⟨stores, rfl⟩
          | some index =>
            have hadd : stores.resources.addAmount index (.fin output.amount) =
                .ok (stores.resources.addPositive index output.amount) := by
              rw [ResourceState.addAmount]
              exact (if_neg (not_lt.mpr (h output mem_cons_self))).trans (if_neg hzero)
            dsimp only
            rw [hadd]
            exact ⟨_, rfl⟩
      obtain ⟨paid, hpaid⟩ := hfirst
      have hrest := ih (fun output houtput => h output (mem_cons_of_mem _ houtput)) paid
      change ∃ stores', (applyBatchOutput options output >>= fun _ =>
        outputs.forM (applyBatchOutput options)) stores = .ok () stores'
      rw [run_bind_ok hpaid]
      exact hrest
  · exact ⟨stores, rfl⟩

/-- The records of the scouts after the delivery of their first stage. -/
def scoutRecords : List StageRecord :=
  [.rolled "look" true, .granted "look" ⟨[⟨"gold", 5⟩], 0⟩]

theorem scoutRecords_eq :
    (final (deliverDueBatchEntry scoutOptions scoutMission 3 scoutEntry scoutStores)).stageRecords =
      scoutRecords := by
  decide +kernel

theorem scoutPlan_eq : ∃ stage, scoutMission.firstStage = some stage ∧
    buildStagePlan scoutOptions scoutMission 3 scoutStores.resources
      scoutPlan.toMissionBatchPlanBase [] stage = .ok scoutPlan := by
  obtain ⟨stage, hstage⟩ : ∃ stage, scoutMission.firstStage = some stage := ⟨_, rfl⟩
  have hplan : (scoutMission.firstStage.bind fun stage =>
      (buildStagePlan scoutOptions scoutMission 3 scoutStores.resources
        scoutPlan.toMissionBatchPlanBase [] stage).toOption) = some scoutPlan := by
    decide +kernel
  rw [hstage, bind_some] at hplan
  refine ⟨stage, hstage, ?_⟩
  cases hbuilt : buildStagePlan scoutOptions scoutMission 3 scoutStores.resources
      scoutPlan.toMissionBatchPlanBase [] stage with
  | error halt =>
    rw [hbuilt] at hplan
    cases hplan
  | ok plan =>
    rw [hbuilt] at hplan
    exact congrArg Except.ok (some.inj hplan)

/-- The scouts are sent, and their first stage is completed. -/
theorem scouts_life : ∃ current, Life scoutMission current scoutRecords := by
  obtain ⟨stage, hstage, hplan⟩ := scoutPlan_eq
  have hstarted : Life scoutMission (some scoutEntry) [] :=
    .started scoutOptions 3 scoutStores.resources 0 3 hstage hplan
  cases hrun : deliverDueBatchEntry scoutOptions scoutMission 3 scoutEntry scoutStores with
  | ok again stores =>
    have hwritten := scoutRecords_eq
    rw [hrun] at hwritten
    exact ⟨again, hstarted.next (.delivered scoutOptions 3 scoutStores hrun hwritten)⟩
  | error message stores =>
    have hwritten := scoutRecords_eq
    rw [hrun] at hwritten
    exact ⟨none, hstarted.next (.lost scoutOptions 3 scoutStores hrun hwritten)⟩

end IdleEngine
