import IdleEngine.CommandTransport.Server
import IdleEngine.Transform.Missions

/-!
# Saving and restoring transforms

A save holds the outstanding batches of a transform. What is restored is read field by field: ids
that are blank are dropped, and so is an output without a resource or with an amount that is not
finite. A plan without a current stage is the plan of a mission without stages. Steps are moved to
the step at which the game goes on.

A mission that is restored from what was saved stands where it stood
(`parseMissionPlan_serialize`).
-/

namespace IdleEngine

open JsValue OrderedMap Option

/-! ### Saving -/

/-- An object some of whose fields may be left out. -/
def JsValue.partialRecord (fields : List (String × Option JsValue)) : JsValue :=
  record (fields.filterMap fun field => field.2.map fun value => (field.1, value))

/-- An output of a save. -/
def serializeOutput (output : BatchOutput) : JsValue :=
  record [("resourceId", string output.resourceId),
    ("amount", number (.fin (max 0 output.amount)))]

/-- The outputs of a save. -/
def serializeOutputs (outputs : List BatchOutput) : JsValue :=
  array (outputs.map serializeOutput)

/-- `serializeMissionPreparedOutcome`. -/
def serializeMissionPreparedOutcome (outcome : MissionPreparedOutcome) : JsValue :=
  record [("outputs", serializeOutputs outcome.outputs),
    ("entityExperience", number (.fin (max 0 outcome.entityExperience)))]

/-- The ids of a list that are not blank. -/
def serializeIds (ids : List String) : JsValue :=
  array ((ids.filter isNonBlankString).map string)

/-- The fields of `serializeMissionPlan` that every plan has. -/
def serializeMissionPlanBase (plan : MissionBatchPlanBase) : List (String × Option JsValue) :=
  [("baseRate", some (number (.fin (clampProbability plan.baseRate)))),
    ("usePRD", some (bool plan.usePRD)),
    ("criticalChance", plan.criticalChance.map fun chance =>
      number (.fin (clampProbability chance))),
    ("success", some (serializeMissionPreparedOutcome plan.success)),
    ("failure", some (serializeMissionPreparedOutcome plan.failure)),
    ("critical", plan.critical.map serializeMissionPreparedOutcome)]

/-- The pending decision of a save. -/
def serializePendingDecision (pending : MultiStageMissionDecisionState) : JsValue :=
  record [("stageId", string pending.stageId),
    ("expiresAtStep", number (.fin pending.expiresAtStep))]

/-- The fields of `serializeMissionPlan` that only the plan of a mission with stages has. -/
def serializeStageFields (plan : MultiStageMissionBatchPlan) : List (String × Option JsValue) :=
  let modifiers := plan.accumulatedModifiers
  [("currentStageId", some (string plan.currentStageId)),
    ("currentStageStartStep", some (number (.fin plan.currentStageStartStep))),
    ("currentStageSuccessRate",
      some (number (.fin (clampProbability plan.currentStageSuccessRate)))),
    ("currentStageCheckpoint", plan.currentStageCheckpoint.map serializeMissionPreparedOutcome),
    ("checkpointRewardsGranted", some (serializeIds plan.checkpointRewardsGranted)),
    ("pendingDecision", plan.pendingDecision.map serializePendingDecision),
    ("accumulatedModifiers", some (record
      [("successRateBonus", number (.fin modifiers.successRateBonus)),
        ("durationMultiplier", number (.fin (max 0 modifiers.durationMultiplier))),
        ("outputMultiplier", number (.fin (max 0 modifiers.outputMultiplier)))])),
    ("returnOnCompleteEntityInstanceIds",
      some (serializeIds plan.returnOnCompleteEntityInstanceIds))]

/-- `serializeMissionPlan`. -/
def serializeMissionPlan : MissionBatchPlan → JsValue
  | .singleStage plan => partialRecord (serializeMissionPlanBase plan)
  | .multiStage plan =>
    partialRecord (serializeMissionPlanBase plan.toMissionBatchPlanBase ++
      serializeStageFields plan)

/-- A batch of `serializeTransformState`. -/
def serializeBatch (batch : TransformBatchQueueEntry) : JsValue :=
  let entityInstanceIds := batch.entityInstanceIds.filter isNonBlankString
  partialRecord
    [("completeAtStep", some (number (.fin batch.completeAtStep))),
      ("outputs", some (serializeOutputs batch.outputs)),
      ("batchId", (batch.batchId.filter isNonBlankString).map string),
      ("entityInstanceIds",
        if entityInstanceIds = [] then none else some (serializeIds entityInstanceIds)),
      ("entityExperience", batch.entityExperience.map fun experience =>
        number (.fin (max 0 experience))),
      ("mission", batch.mission.map serializeMissionPlan)]

/-! ### Restoring -/

/-- `parseNonEmptyString`. -/
def parseNonEmptyString (value : JsValue) : Option String :=
  value.string?.filter isNonBlankString

/-- `parseNonEmptyStringArray`, and `parseEntityInstanceIds`, whose empty list counts as missing. -/
def parseNonEmptyStringArray (value : JsValue) : List String :=
  (value.array?.getD []).filterMap parseNonEmptyString

/-- An output of `parseTransformBatchOutputs`. -/
def parseTransformBatchOutput (value : JsValue) : Option BatchOutput := do
  guard (value.isRecord = true)
  let resourceId ← parseNonEmptyString (value.get "resourceId")
  let amount ← (value.get "amount").finite?
  return { resourceId, amount := max 0 amount }

/-- `parseTransformBatchOutputs`. -/
def parseTransformBatchOutputs (value : JsValue) : List BatchOutput :=
  (value.array?.getD []).filterMap parseTransformBatchOutput

/-- `parseMissionPreparedOutcome`. -/
def parseMissionPreparedOutcome (value : JsValue) : MissionPreparedOutcome :=
  if value.isRecord then
    { outputs := parseTransformBatchOutputs (value.get "outputs")
      entityExperience := ((value.get "entityExperience").finite?.map (max 0)).getD 0 }
  else { outputs := [], entityExperience := 0 }

/-- An outcome that a plan may lack. -/
def parseOptionalOutcome (value : JsValue) : Option MissionPreparedOutcome :=
  if value.isRecord then some (parseMissionPreparedOutcome value) else none

/-- `parseOptionalProbability`. -/
def parseOptionalProbability (value : JsValue) : Option ℚ := value.finite?.map clampProbability

/-- `parseProbabilityOrFallback`. -/
def parseProbabilityOrFallback (value : JsValue) (fallback : ℚ) : ℚ :=
  (parseOptionalProbability value).getD fallback

/-- `parseMissionPlanBase`. -/
def parseMissionPlanBase (value : JsValue) : MissionBatchPlanBase :=
  { baseRate := parseProbabilityOrFallback (value.get "baseRate") 0
    usePRD := (value.get "usePRD").isTruthy
    criticalChance := parseOptionalProbability (value.get "criticalChance")
    success := parseMissionPreparedOutcome (value.get "success")
    failure := parseMissionPreparedOutcome (value.get "failure")
    critical := parseOptionalOutcome (value.get "critical") }

/-- `rebaseStepValue`. -/
def rebaseStepValue (value : ℕ) (rebaseDelta : ℤ) : ℕ := (value + rebaseDelta).toNat

/-- A step of a save, rebased. -/
def parseStep (value : JsValue) (rebaseDelta : ℤ) : ℕ :=
  rebaseStepValue (value.number?.elim 0 normalizeNonNegativeInt) rebaseDelta

/-- `parsePendingDecisionState`. -/
def parsePendingDecisionState (value : JsValue) (rebaseDelta : ℤ) :
    Option MultiStageMissionDecisionState := do
  guard (value.isRecord = true)
  let stageId ← parseNonEmptyString (value.get "stageId")
  return { stageId, expiresAtStep := parseStep (value.get "expiresAtStep") rebaseDelta }

/-- A multiplier of `parseAccumulatedModifiers`. -/
def parseMultiplier (value : JsValue) : ℚ := (value.finite?.map (max 0)).getD 1

/-- `parseAccumulatedModifiers`; what is not an object has no fields. -/
def parseAccumulatedModifiers (value : JsValue) : MultiStageMissionAccumulatedModifiers :=
  { successRateBonus := (value.get "successRateBonus").finite?.getD 0
    durationMultiplier := parseMultiplier (value.get "durationMultiplier")
    outputMultiplier := parseMultiplier (value.get "outputMultiplier") }

/-- `parseMultiStageMissionPlan`. -/
def parseMultiStageMissionPlan (value : JsValue) (basePlan : MissionBatchPlanBase)
    (currentStageId : String) (rebaseDelta : ℤ) : MultiStageMissionBatchPlan :=
  { toMissionBatchPlanBase := basePlan
    currentStageId
    currentStageStartStep := parseStep (value.get "currentStageStartStep") rebaseDelta
    currentStageSuccessRate :=
      parseProbabilityOrFallback (value.get "currentStageSuccessRate") basePlan.baseRate
    currentStageCheckpoint := parseOptionalOutcome (value.get "currentStageCheckpoint")
    checkpointRewardsGranted := parseNonEmptyStringArray (value.get "checkpointRewardsGranted")
    pendingDecision := parsePendingDecisionState (value.get "pendingDecision") rebaseDelta
    accumulatedModifiers := parseAccumulatedModifiers (value.get "accumulatedModifiers")
    returnOnCompleteEntityInstanceIds :=
      parseNonEmptyStringArray (value.get "returnOnCompleteEntityInstanceIds") }

/-- `parseMissionPlan`. -/
def parseMissionPlan (value : JsValue) (rebaseDelta : ℤ) : Option MissionBatchPlan :=
  if value.isRecord then
    let basePlan := parseMissionPlanBase value
    match parseNonEmptyString (value.get "currentStageId") with
    | some currentStageId =>
      some (.multiStage (parseMultiStageMissionPlan value basePlan currentStageId rebaseDelta))
    | none => some (.singleStage basePlan)
  else none

/-- `parseTransformBatchEntry`. -/
def parseTransformBatchEntry (value : JsValue) (rebaseDelta : ℤ) (sequence : ℕ) :
    Option TransformBatchQueueEntry :=
  if value.isRecord then
    some {
      completeAtStep := parseStep (value.get "completeAtStep") rebaseDelta
      outputs := parseTransformBatchOutputs (value.get "outputs")
      batchId := parseNonEmptyString (value.get "batchId")
      entityInstanceIds := parseNonEmptyStringArray (value.get "entityInstanceIds")
      entityExperience := (value.get "entityExperience").finite?.map (max 0)
      mission := parseMissionPlan (value.get "mission") rebaseDelta
      sequence }
  else none

/-! ### What was saved is restored -/

theorem JsValue.get_partialRecord {fields : List (String × Option JsValue)}
    (hnodup : (fields.map Prod.fst).Nodup) (key : String) :
    (partialRecord fields).get key = (find key fields).join.getD .undefined := by
  rw [partialRecord, JsValue.get, fields_record]
  congr 1
  induction fields with
  | nil => rfl
  | cons field fields ih =>
    obtain ⟨name, value⟩ := field
    rw [List.map_cons, List.nodup_cons] at hnodup
    obtain ⟨hnew, hnodup⟩ := hnodup
    rw [find]
    by_cases hkey : name = key
    · rw [if_pos hkey]
      cases value with
      | some value => simp [find, hkey]
      | none =>
        -- the field is left out, and no other field has its name
        subst hkey
        rw [List.filterMap_cons_none rfl, ih hnodup, find_eq_none hnew]
        rfl
    · rw [if_neg hkey, ← ih hnodup]
      cases value with
      | some value => simp [find, hkey]
      | none => rw [List.filterMap_cons_none rfl]

/-- An output after it was saved and restored; one without a resource is dropped. -/
def BatchOutput.restored (output : BatchOutput) : Option BatchOutput :=
  if isNonBlankString output.resourceId then some { output with amount := max 0 output.amount }
  else none

/-- A prepared outcome after it was saved and restored. -/
def MissionPreparedOutcome.restored (outcome : MissionPreparedOutcome) : MissionPreparedOutcome :=
  { outputs := outcome.outputs.filterMap BatchOutput.restored
    entityExperience := max 0 outcome.entityExperience }

theorem parseTransformBatchOutput_serialize (output : BatchOutput) :
    parseTransformBatchOutput (serializeOutput output) = output.restored := by
  have hid : (serializeOutput output).get "resourceId" = string output.resourceId := rfl
  have hamount : ((serializeOutput output).get "amount").finite? = some (max 0 output.amount) := rfl
  have hrecord : (serializeOutput output).isRecord = true := rfl
  rw [parseTransformBatchOutput, BatchOutput.restored, hid, hamount, hrecord, parseNonEmptyString,
    string?, filter_some]
  split
  · simp
  · rfl

theorem parseTransformBatchOutputs_serialize (outputs : List BatchOutput) :
    parseTransformBatchOutputs (serializeOutputs outputs) =
      outputs.filterMap BatchOutput.restored := by
  rw [parseTransformBatchOutputs, serializeOutputs, array?, getD_some, List.filterMap_map]
  exact List.filterMap_congr fun output _ => parseTransformBatchOutput_serialize output

theorem parseMissionPreparedOutcome_serialize (outcome : MissionPreparedOutcome) :
    parseMissionPreparedOutcome (serializeMissionPreparedOutcome outcome) = outcome.restored := by
  have houtputs := parseTransformBatchOutputs_serialize outcome.outputs
  simp [parseMissionPreparedOutcome, serializeMissionPreparedOutcome,
    MissionPreparedOutcome.restored, record, isRecord, JsValue.get, fields, find,
    finite?, number?, JsNumber.finite?, houtputs]

theorem parseNonEmptyStringArray_serialize (ids : List String) :
    parseNonEmptyStringArray (serializeIds ids) = ids.filter isNonBlankString := by
  rw [parseNonEmptyStringArray, serializeIds, array?, getD_some, List.filterMap_map]
  have hread : ∀ id ∈ ids.filter isNonBlankString,
      (parseNonEmptyString ∘ string) id = some id := fun id hid =>
    filter_eq_some_iff.mpr ⟨rfl, (List.mem_filter.mp hid).2⟩
  rw [List.filterMap_congr hread]
  exact List.filterMap_some

/-- What a restored plan keeps of the one that was saved: where it stands, what was granted, and the
reward that is prepared. -/
structure MultiStageMissionBatchPlan.RestoredFrom (restored plan : MultiStageMissionBatchPlan) :
    Prop where
  currentStageId : restored.currentStageId = plan.currentStageId
  currentStageCheckpoint :
    restored.currentStageCheckpoint =
      plan.currentStageCheckpoint.map MissionPreparedOutcome.restored
  checkpointRewardsGranted :
    restored.checkpointRewardsGranted = plan.checkpointRewardsGranted.filter isNonBlankString
  pendingDecision :
    restored.pendingDecision.map MultiStageMissionDecisionState.stageId =
      (plan.pendingDecision.map MultiStageMissionDecisionState.stageId).filter isNonBlankString

theorem get_serializeMissionPlan (plan : MultiStageMissionBatchPlan) (key : String) :
    (serializeMissionPlan (.multiStage plan)).get key =
      (find key (serializeMissionPlanBase plan.toMissionBatchPlanBase ++
        serializeStageFields plan)).join.getD .undefined := by
  rw [serializeMissionPlan]
  exact get_partialRecord (by simp [serializeMissionPlanBase, serializeStageFields]) key

/-- **A mission that is restored from what was saved stands where it stood.** -/
theorem parseMissionPlan_serialize {plan : MultiStageMissionBatchPlan}
    (hstage : isNonBlankString plan.currentStageId = true) (rebaseDelta : ℤ) :
    ∃ restored, parseMissionPlan (serializeMissionPlan (.multiStage plan)) rebaseDelta =
      some (.multiStage restored) ∧ restored.RestoredFrom plan := by
  have hid : parseNonEmptyString ((serializeMissionPlan (.multiStage plan)).get "currentStageId") =
      some plan.currentStageId := by
    rw [get_serializeMissionPlan]
    exact (filter_eq_some_iff (a := plan.currentStageId)).mpr ⟨rfl, hstage⟩
  refine ⟨parseMultiStageMissionPlan (serializeMissionPlan (.multiStage plan))
    (parseMissionPlanBase (serializeMissionPlan (.multiStage plan))) plan.currentStageId
    rebaseDelta, ?_, rfl, ?_, ?_, ?_⟩
  · have hrecord : (serializeMissionPlan (.multiStage plan)).isRecord = true := rfl
    rw [parseMissionPlan, if_pos hrecord]
    dsimp only
    rw [hid]
  · rw [parseMultiStageMissionPlan]
    dsimp only
    rw [get_serializeMissionPlan]
    change parseOptionalOutcome ((plan.currentStageCheckpoint.map
      serializeMissionPreparedOutcome).getD .undefined) = _
    cases plan.currentStageCheckpoint with
    | none => rfl
    | some checkpoint =>
      exact congrArg some (parseMissionPreparedOutcome_serialize checkpoint)
  · rw [parseMultiStageMissionPlan]
    dsimp only
    rw [get_serializeMissionPlan]
    exact parseNonEmptyStringArray_serialize plan.checkpointRewardsGranted
  · rw [parseMultiStageMissionPlan]
    dsimp only
    rw [get_serializeMissionPlan]
    change (parsePendingDecisionState ((plan.pendingDecision.map
      serializePendingDecision).getD .undefined) rebaseDelta).map _ = _
    cases plan.pendingDecision with
    | none => rfl
    | some pending =>
      have hread : (serializePendingDecision pending).get "stageId" = string pending.stageId := rfl
      have hrecord : (serializePendingDecision pending).isRecord = true := rfl
      rw [map_some, getD_some, parsePendingDecisionState, hread, hrecord,
        parseNonEmptyString, string?, map_some, filter_some]
      split
      · rfl
      · rfl

end IdleEngine
