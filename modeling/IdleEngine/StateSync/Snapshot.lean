import IdleEngine.Save.Progression
import IdleEngine.StateSync.Identical

/-!
# Captured snapshots

`CapturedSnapshot` is a snapshot as `captureGameStateSnapshot` puts it together, section by section,
and `CapturedSnapshot.toJs` is the object that is compared and hashed. What the serializers
guarantee is part of the structure: automations, transforms and entities are sorted by id, the
generators, upgrades and achievements stand in the order of the content, no id occurs twice, and a
resource section lists its digest with its ids. All numbers may be any numbers. The plan of a
mission is kept as the value that is serialized.
-/

namespace IdleEngine

open JsValue

/-! ### The sections -/

/-- A number that may be undefined. -/
def numberOrUndefined : Option JsNumber → JsValue
  | none => .undefined
  | some value => .number value

/-- The runtime section of a snapshot. -/
structure CapturedRuntime where
  step : JsNumber
  stepSizeMs : JsNumber
  accumulatorBacklogMs : Option JsNumber
  hostFrameBacklogMs : Option JsNumber
  creditedBacklogMs : Option JsNumber
  rngSeed : Option JsNumber
  rngState : Option JsNumber

def CapturedRuntime.toJs (runtime : CapturedRuntime) : JsValue :=
  record [("step", .number runtime.step), ("stepSizeMs", .number runtime.stepSizeMs),
    ("accumulatorBacklogMs", numberOrUndefined runtime.accumulatorBacklogMs),
    ("hostFrameBacklogMs", numberOrUndefined runtime.hostFrameBacklogMs),
    ("creditedBacklogMs", numberOrUndefined runtime.creditedBacklogMs),
    ("rngSeed", numberOrUndefined runtime.rngSeed), ("rngState", numberOrUndefined runtime.rngState)]

/-- One resource of a snapshot; a capacity that is none is `null`. -/
structure CapturedResource where
  id : String
  amount : JsNumber
  capacity : Option JsNumber
  unlocked : Bool
  visible : Bool
  flags : JsNumber

/-- `SerializedResourceState` as a snapshot has it: every array has a value for each resource. -/
structure CapturedResources where
  rows : List CapturedResource
  nodup : (rows.map CapturedResource.id).Nodup

namespace CapturedResource

/-- The property of a resource that a column holds. -/
def property (row : CapturedResource) : String → JsValue
  | "amount" => .number row.amount
  | "capacity" => row.capacity.elim .null .number
  | "unlocked" => .bool row.unlocked
  | "visible" => .bool row.visible
  | "flags" => .number row.flags
  | _ => .undefined

end CapturedResource

def DefinitionDigest.toJs (digest : DefinitionDigest) : JsValue :=
  record [("ids", array (digest.ids.map string)), ("version", .number digest.version),
    ("hash", string digest.hash)]

namespace CapturedResources

/-- The ids in the order of the definitions. -/
def ids (resources : CapturedResources) : List String := resources.rows.map CapturedResource.id

/-- One of the arrays. -/
def column (resources : CapturedResources) (key : String) : JsValue :=
  array (resources.rows.map fun row => row.property key)

def toJs (resources : CapturedResources) : JsValue :=
  record [("ids", array (resources.ids.map string)), ("amounts", resources.column "amount"),
    ("capacities", resources.column "capacity"), ("unlocked", resources.column "unlocked"),
    ("visible", resources.column "visible"), ("flags", resources.column "flags"),
    ("definitionDigest", (createDefinitionDigest resources.ids).toJs)]

end CapturedResources

def SerializedGenerator.toJs (generator : SerializedGenerator) : JsValue :=
  record [("id", string generator.id), ("owned", .number generator.owned),
    ("enabled", generator.enabled.elim .undefined .bool),
    ("isUnlocked", generator.isUnlocked.elim .undefined .bool),
    ("nextPurchaseReadyAtStep", numberOrUndefined generator.nextPurchaseReadyAtStep)]

def SerializedUpgrade.toJs (upgrade : SerializedUpgrade) : JsValue :=
  record [("id", string upgrade.id), ("purchases", .number upgrade.purchases)]

def SerializedAchievement.toJs (achievement : SerializedAchievement) : JsValue :=
  record [("id", string achievement.id), ("completions", .number achievement.completions),
    ("progress", .number achievement.progress),
    ("nextRepeatableAtStep", numberOrUndefined achievement.nextRepeatableAtStep),
    ("lastCompletedStep", numberOrUndefined achievement.lastCompletedStep)]

/-- The fields of a record with distinct keys, none of which names the prototype. -/
structure RecordOf (α : Type) where
  fields : List (String × α)
  nodup : (fields.map Prod.fst).Nodup
  proto : ∀ field ∈ fields, field.1 ≠ "__proto__"

/-- The record, with its values as they are written. -/
def RecordOf.toJs {α : Type} (r : RecordOf α) (value : α → JsValue) : JsValue :=
  record (r.fields.map fun field => (field.1, value field.2))

/-- `SerializedProgressionCoordinatorStateV2` as a snapshot has it. -/
structure CapturedProgression where
  schemaVersion : JsNumber
  step : JsNumber
  resources : CapturedResources
  generators : List SerializedGenerator
  upgrades : List SerializedUpgrade
  achievements : List SerializedAchievement
  productionAccumulators : Option (RecordOf JsNumber)
  generators_nodup : (generators.map SerializedGenerator.id).Nodup
  upgrades_nodup : (upgrades.map SerializedUpgrade.id).Nodup
  achievements_nodup : (achievements.map SerializedAchievement.id).Nodup

/-- The accumulators of a production system, or nothing without one. -/
def accumulatorsJs : Option (RecordOf JsNumber) → JsValue
  | none => .undefined
  | some accumulators => record [("accumulators", accumulators.toJs .number)]

def CapturedProgression.toJs (progression : CapturedProgression) : JsValue :=
  record [("schemaVersion", .number progression.schemaVersion),
    ("step", .number progression.step), ("resources", progression.resources.toJs),
    ("generators", array (progression.generators.map SerializedGenerator.toJs)),
    ("upgrades", array (progression.upgrades.map SerializedUpgrade.toJs)),
    ("achievements", array (progression.achievements.map SerializedAchievement.toJs)),
    ("productionAccumulators", accumulatorsJs progression.productionAccumulators)]

/-- `SerializedAutomationState`; a step that is none is `null`. -/
structure SerializedAutomation where
  id : String
  enabled : Bool
  lastFiredStep : Option JsNumber
  cooldownExpiresStep : JsNumber
  unlocked : Bool
  lastThresholdSatisfied : Option Bool

def SerializedAutomation.toJs (automation : SerializedAutomation) : JsValue :=
  record [("id", string automation.id), ("enabled", .bool automation.enabled),
    ("lastFiredStep", automation.lastFiredStep.elim .null .number),
    ("cooldownExpiresStep", .number automation.cooldownExpiresStep),
    ("unlocked", .bool automation.unlocked),
    ("lastThresholdSatisfied", automation.lastThresholdSatisfied.elim .undefined .bool)]

/-- `TransformBatchOutput`. -/
structure TransformBatchOutput where
  resourceId : String
  amount : JsNumber

def TransformBatchOutput.toJs (output : TransformBatchOutput) : JsValue :=
  record [("resourceId", string output.resourceId), ("amount", .number output.amount)]

/-- A batch of a `SerializedTransformState`. The plan of a mission is a value that JSON can write. -/
structure SerializedTransformBatch where
  completeAtStep : JsNumber
  outputs : List TransformBatchOutput
  batchId : Option String
  entityInstanceIds : Option (List String)
  entityExperience : Option JsNumber
  mission : Option {plan : JsValue // Plain plan}

def SerializedTransformBatch.toJs (batch : SerializedTransformBatch) : JsValue :=
  record [("completeAtStep", .number batch.completeAtStep),
    ("outputs", array (batch.outputs.map TransformBatchOutput.toJs)),
    ("batchId", batch.batchId.elim .undefined .string),
    ("entityInstanceIds", batch.entityInstanceIds.elim .undefined fun ids =>
      array (ids.map string)),
    ("entityExperience", numberOrUndefined batch.entityExperience),
    ("mission", batch.mission.elim .undefined Subtype.val)]

/-- `SerializedTransformState`. -/
structure SerializedTransform where
  id : String
  unlocked : Bool
  cooldownExpiresStep : JsNumber
  batches : Option (List SerializedTransformBatch)

def SerializedTransform.toJs (transform : SerializedTransform) : JsValue :=
  record [("id", string transform.id), ("unlocked", .bool transform.unlocked),
    ("cooldownExpiresStep", .number transform.cooldownExpiresStep),
    ("batches", transform.batches.elim .undefined fun batches =>
      array (batches.map SerializedTransformBatch.toJs))]

/-- `SerializedEntityState`. -/
structure SerializedEntity where
  id : String
  count : JsNumber
  availableCount : JsNumber
  unlocked : Bool
  visible : Bool

def SerializedEntity.toJs (entity : SerializedEntity) : JsValue :=
  record [("id", string entity.id), ("count", .number entity.count),
    ("availableCount", .number entity.availableCount), ("unlocked", .bool entity.unlocked),
    ("visible", .bool entity.visible)]

/-- The assignment of an entity instance to a mission. -/
structure EntityAssignment where
  missionId : String
  batchId : String
  deployedAtStep : JsNumber
  returnStep : JsNumber

def EntityAssignment.toJs (assignment : EntityAssignment) : JsValue :=
  record [("missionId", string assignment.missionId), ("batchId", string assignment.batchId),
    ("deployedAtStep", .number assignment.deployedAtStep),
    ("returnStep", .number assignment.returnStep)]

/-- `SerializedEntityInstanceState`. -/
structure SerializedEntityInstance where
  instanceId : String
  entityId : String
  level : JsNumber
  experience : JsNumber
  stats : RecordOf JsNumber
  assignment : Option EntityAssignment

def SerializedEntityInstance.toJs (entry : SerializedEntityInstance) : JsValue :=
  record [("instanceId", string entry.instanceId), ("entityId", string entry.entityId),
    ("level", .number entry.level), ("experience", .number entry.experience),
    ("stats", entry.stats.toJs .number),
    ("assignment", entry.assignment.elim .null EntityAssignment.toJs)]

/-- `SerializedEntityInstancesByEntity`. -/
structure SerializedEntityInstanceList where
  entityId : String
  instanceIds : List String

def SerializedEntityInstanceList.toJs (list : SerializedEntityInstanceList) : JsValue :=
  record [("entityId", string list.entityId), ("instanceIds", array (list.instanceIds.map string))]

/-- `PRDState`. -/
structure PRDState where
  attempts : JsNumber
  constant : JsNumber

def PRDState.toJs (state : PRDState) : JsValue :=
  record [("attempts", .number state.attempts), ("constant", .number state.constant)]

/-! ### The snapshot -/

/-- The ids ascend by their code units, as `compareStableStrings` sorts them. -/
def Ascending (ids : List String) : Prop := ids.Pairwise fun a b => codeUnits a < codeUnits b

/-- `SerializedEntitySystemState` as a snapshot has it. -/
structure CapturedEntities where
  entities : List SerializedEntity
  instances : List SerializedEntityInstance
  entityInstances : List SerializedEntityInstanceList
  entities_ascending : Ascending (entities.map SerializedEntity.id)
  instances_ascending : Ascending (instances.map SerializedEntityInstance.instanceId)
  lists_ascending : Ascending (entityInstances.map SerializedEntityInstanceList.entityId)

def CapturedEntities.toJs (entities : CapturedEntities) : JsValue :=
  record [("entities", array (entities.entities.map SerializedEntity.toJs)),
    ("instances", array (entities.instances.map SerializedEntityInstance.toJs)),
    ("entityInstances", array (entities.entityInstances.map SerializedEntityInstanceList.toJs))]

/-- A snapshot as `captureGameStateSnapshot` puts it together, with the command queue that it
exports. -/
structure CapturedSnapshot where
  capturedAt : JsNumber
  runtime : CapturedRuntime
  resources : CapturedResources
  progression : CapturedProgression
  automation : List SerializedAutomation
  transforms : List SerializedTransform
  entities : CapturedEntities
  prd : RecordOf PRDState
  commandQueue : CommandQueue JsValue
  automation_ascending : Ascending (automation.map SerializedAutomation.id)
  transforms_ascending : Ascending (transforms.map SerializedTransform.id)

namespace CapturedSnapshot

/-- The object of a snapshot. -/
def toJs (snapshot : CapturedSnapshot) : JsValue :=
  record [("version", .number (.fin 1)), ("capturedAt", .number snapshot.capturedAt),
    ("runtime", snapshot.runtime.toJs), ("resources", snapshot.resources.toJs),
    ("progression", snapshot.progression.toJs),
    ("automation", array (snapshot.automation.map SerializedAutomation.toJs)),
    ("transforms", array (snapshot.transforms.map SerializedTransform.toJs)),
    ("entities", snapshot.entities.toJs), ("prd", snapshot.prd.toJs PRDState.toJs),
    ("commandQueue", snapshot.commandQueue.exportForSave)]

end CapturedSnapshot

/-! ### The checksum -/

/-- `{ ...runtime, ...normalizeRuntimeBacklogFields(runtime) }`. -/
def normalizeRuntimeForChecksum (runtime : JsValue) : JsValue :=
  record ((normalizeRuntimeBacklogFields runtime).foldl
    (fun fields field => OrderedMap.setEntries field.1 field.2 fields) runtime.fields)

/-- The part of a snapshot that is hashed. -/
def checksumSnapshot (snapshot : JsValue) : JsValue :=
  record [("version", snapshot.get "version"),
    ("runtime", normalizeRuntimeForChecksum (snapshot.get "runtime")),
    ("resources", snapshot.get "resources"), ("progression", snapshot.get "progression"),
    ("automation", snapshot.get "automation"), ("transforms", snapshot.get "transforms"),
    ("entities", snapshot.get "entities"), ("prd", snapshot.get "prd"),
    ("commandQueue", snapshot.get "commandQueue")]

/-- `fnv1a32`. -/
def fnv1a32 (data : List ℕ) : String := hexDigits8 (data.foldl fnvRound 0x811c9dc5)

namespace TextHost

variable (host : TextHost)

/-- `stringifyDeterministic` of the part that is hashed: the canonical string. -/
def canonicalString (snapshot : JsValue) : Option String :=
  (checksumSnapshot snapshot).normalizeForDeterministicJson.stringify host.numbers

/-- `computeStateChecksum`. -/
def computeStateChecksum (snapshot : JsValue) : String :=
  fnv1a32 (((host.canonicalString snapshot).getD "").toUTF8.toList.map UInt8.toNat)

end TextHost

end IdleEngine
