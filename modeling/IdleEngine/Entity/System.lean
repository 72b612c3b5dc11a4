import IdleEngine.Lib.FreshName
import IdleEngine.StateSync.Snapshot

/-!
# The entity system

Entities are counted; of some of them every single instance is tracked, with its level, experience,
stats and the mission it is assigned to. A count stands beside two indexes of the instances: by
instance id, and the ids of each entity in the order in which they were created. An operation that
throws keeps what it has changed.

The numbers that the generator will return next are part of the state, so that a run may reseed it
at any time; the resources, generators and upgrades that formulas and conditions read are given to
each operation.
-/

namespace IdleEngine

/-! ### Definitions -/

/-- A stat of an entity. -/
structure EntityStat where
  id : String
  baseValue : NumericFormula
  minValue : Option NumericFormula
  maxValue : Option NumericFormula

/-- `progression` of an entity. -/
structure EntityProgression where
  levelFormula : NumericFormula
  maxLevel : Option ℕ
  statGrowth : String → Option NumericFormula

/-- `EntityDefinition`. -/
structure EntityDefinition where
  id : String
  stats : List EntityStat
  maxCount : Option NumericFormula
  startCount : ℕ
  trackInstances : Bool
  progression : Option EntityProgression
  unlockCondition : Option Condition
  visibilityCondition : Option Condition
  unlocked : Bool
  visible : Bool

/-- What an entity system is created with. The schema of a content pack refuses two entities of one
id. -/
structure EntityConfig where
  definitions : List EntityDefinition
  nodup : (definitions.map (·.id)).Nodup
  stepDurationMs : JsNumber

/-- `definitionById.get`. -/
def EntityConfig.definitionById (config : EntityConfig) (entityId : String) :
    Option EntityDefinition :=
  config.definitions.find? fun definition => definition.id = entityId

/-! ### States -/

/-- `EntityState`. -/
structure EntityState where
  id : String
  count : ℕ
  availableCount : ℕ
  unlocked : Bool
  visible : Bool
  deriving DecidableEq, Repr

/-- `EntityInstanceState`. -/
structure EntityInstanceState where
  instanceId : String
  entityId : String
  level : ℕ
  experience : ℚ
  stats : OrderedMap String ℚ
  assignment : Option EntityAssignment

/-- The maps of an entity system: `EntitySystemState`. -/
structure EntitySystemState where
  entities : OrderedMap String EntityState
  instances : OrderedMap String EntityInstanceState
  entityInstances : OrderedMap String (List String)

/-- `EntitySystem`; `draws` are the numbers that the generator returns next. -/
structure EntitySystem extends EntitySystemState where
  currentStep : ℕ
  draws : ℕ → ℕ

/-- Operations on the entity system that may throw. -/
abbrev EntityM := EStateM String EntitySystem

namespace EntitySystem

/-- The state of an entity is changed in place. -/
def modifyEntity (s : EntitySystem) (entityId : String) (f : EntityState → EntityState) :
    EntitySystem :=
  match s.entities.get? entityId with
  | some state => { s with entities := s.entities.set entityId (f state) }
  | none => s

/-- The state of an instance is changed in place. -/
def setInstance (s : EntitySystem) (instanceId : String) (state : EntityInstanceState) :
    EntitySystem :=
  { s with instances := s.instances.set instanceId state }

/-- The instance ids of an entity; none when the entity has no list. -/
def instanceIds (s : EntitySystem) (entityId : String) : List String :=
  (s.entityInstances.get? entityId).getD []

end EntitySystem

/-! ### Formulas -/

/-- A number that is not finite or negative counts as zero. -/
def finiteNonNegative (value : JsNumber) : ℚ :=
  match value.finite? with
  | some value => if 0 ≤ value then value else 0
  | none => 0

/-- `normalizeFiniteNumber`. -/
def normalizeFiniteNumber (value : JsNumber) : ℚ := value.finite?.getD 0

/-- `createEntityFormulaEvaluationContext`. -/
def createEntityFormulaEvaluationContext (level step : ℕ) (stepDurationMs : JsNumber)
    (conditionContext : Option ConditionContext) : FormulaContext :=
  let deltaTime := finiteNonNegative stepDurationMs / 1000
  { variableValue := formulaVariables level (step * deltaTime) deltaTime
    resource := fun id => some ((conditionContext.map (·.getResourceAmount id)).getD 0)
    generator := fun id => some ((conditionContext.map (·.getGeneratorLevel id)).getD 0)
    upgrade := fun id => some ((conditionContext.map (·.getUpgradePurchases id)).getD 0)
    automation := fun _ => some 0
    prestigeLayer := fun _ => some 0 }

/-- `evaluateFormula`. -/
def evaluateFormula (formula : NumericFormula) (context : FormulaContext) : Except String ℚ :=
  (formula context).map normalizeFiniteNumber

/-- `evaluateFormula` of a formula that may be missing. -/
def evaluateOptionalFormula (formula : Option NumericFormula) (context : FormulaContext) :
    Except String (Option ℚ) :=
  match formula with
  | some formula => (evaluateFormula formula context).map some
  | none => .ok none

/-- `clampNumber`; a missing bound is infinite. -/
def clampNumber (value : ℚ) (min max : Option ℚ) : ℚ :=
  let raised := (min.map (value ⊔ ·)).getD value
  (max.map (raised ⊓ ·)).getD raised

/-- The stat of `computeStats`. -/
def computeStat (definition : EntityDefinition) (level : ℕ) (context : FormulaContext)
    (stat : EntityStat) : Except String ℚ := do
  let base ← evaluateFormula stat.baseValue context
  let growthFormula := definition.progression.bind (·.statGrowth stat.id)
  let growthValue ← evaluateOptionalFormula growthFormula context
  let levelBonus := growthValue.getD 0 * ((level ⊔ 1 : ℕ) - 1)
  let minValue ← evaluateOptionalFormula stat.minValue context
  let maxValue ← evaluateOptionalFormula stat.maxValue context
  return clampNumber (base + levelBonus) minValue maxValue

/-- `computeStats`. -/
def computeStats (definition : EntityDefinition) (level : ℕ) (context : FormulaContext) :
    Except String (OrderedMap String ℚ) :=
  definition.stats.foldlM
    (fun stats stat => (computeStat definition level context stat).map (stats.set stat.id))
    OrderedMap.empty

section Operations

variable (config : EntityConfig) (conditionContext : Option ConditionContext)

/-- `buildFormulaContext`. -/
def buildFormulaContext (level step : ℕ) : FormulaContext :=
  createEntityFormulaEvaluationContext level step config.stepDurationMs conditionContext

/-- `getMaxCount`. -/
def getMaxCount (definition : EntityDefinition) (targetCount step : ℕ) :
    Except String (Option ℕ) :=
  (evaluateOptionalFormula definition.maxCount
    (buildFormulaContext config conditionContext targetCount step)).map
    (Option.map fun maxCount => ⌊maxCount⌋.toNat)

/-- What a computation that does not change the system returns or throws. -/
def EntityM.ofExcept {α : Type} (value : Except String α) : EntityM α :=
  match value with
  | .ok a => pure a
  | .error message => throw message

/-- A value that an operation needs. -/
def EntityM.require {α : Type} (message : String) (value : Option α) : EntityM α :=
  match value with
  | some a => pure a
  | none => throw message

/-- The definition and the state of an entity, both of which an operation needs. -/
def findEntity (entityId : String) : EntityM (EntityDefinition × EntityState) := do
  let s ← get
  EntityM.require ("Entity \"" ++ entityId ++ "\" not found.")
    ((config.definitionById entityId).bind fun definition =>
      (s.entities.get? entityId).map fun state => (definition, state))

/-- The state of an instance, which an operation needs. -/
def findInstance (instanceId : String) : EntityM EntityInstanceState := do
  let s ← get
  EntityM.require ("Entity instance \"" ++ instanceId ++ "\" not found.")
    (s.instances.get? instanceId)

/-! ### Instance ids -/

/-- The id of an instance: the entity, the step and a suffix of six hexadecimal digits or more. -/
def instanceIdText (entityId : String) (creationStep suffix : ℕ) : String :=
  entityId ++ "_" ++ toString creationStep ++ "_" ++
    String.ofList (FreshName.paddedHex 6 suffix)

/-- `rng.nextInt(0, INSTANCE_SUFFIX_MAX)`. -/
def nextSuffix : EntityM ℕ :=
  modifyGet fun s => (s.draws 0, { s with draws := fun i => s.draws (i + 1) })

/-- The random attempts of `generateInstanceId`. -/
def drawInstanceId (entityId : String) (creationStep : ℕ) : ℕ → EntityM (Option String)
  | 0 => pure none
  | attempts + 1 => do
      let suffix ← nextSuffix
      let s ← get
      let id := instanceIdText entityId creationStep suffix
      if (s.instances.get? id).isSome then drawInstanceId entityId creationStep attempts
      else pure (some id)

/-- The loop of `generateInstanceId` that counts up from the number of instances; it ends after as
many attempts as there are instances and one more. -/
def EntitySystem.countedInstanceId (s : EntitySystem) (entityId : String) (creationStep : ℕ) :
    String :=
  let taken := s.instances.entries.map Prod.fst
  FreshName.firstFresh (fun id => decide (id ∈ taken)) (instanceIdText entityId creationStep)
    taken.length taken.length

/-- `generateInstanceId`. -/
def generateInstanceId (entityId : String) (creationStep : ℕ) : EntityM String := do
  let drawn ← drawInstanceId entityId creationStep 5
  match drawn with
  | some id => pure id
  | none =>
      let s ← get
      pure (s.countedInstanceId entityId creationStep)

/-! ### Instances -/

/-- An instance is added to both indexes and to the counts. -/
def EntitySystem.insertInstance (s : EntitySystem) (state : EntityInstanceState) : EntitySystem :=
  let indexed : EntitySystem :=
    { s with
      instances := s.instances.set state.instanceId state
      entityInstances :=
        s.entityInstances.set state.entityId (s.instanceIds state.entityId ++ [state.instanceId]) }
  indexed.modifyEntity state.entityId fun entity =>
    { entity with count := entity.count + 1, availableCount := entity.availableCount + 1 }

/-- An instance is removed from both indexes and from the counts. -/
def EntitySystem.removeInstance (s : EntitySystem) (instanceId : String)
    (state : EntityInstanceState) : EntitySystem :=
  let indexed : EntitySystem :=
    { s with
      instances := s.instances.erase instanceId
      entityInstances :=
        match s.entityInstances.get? state.entityId with
        | some list => s.entityInstances.set state.entityId (list.erase instanceId)
        | none => s.entityInstances }
  indexed.modifyEntity state.entityId fun entity =>
    { entity with
      count := entity.count - 1
      availableCount :=
        if state.assignment.isNone then entity.availableCount - 1 else entity.availableCount }

/-- `createInstance`. -/
def createInstance (entityId : String) (creationStep : ℕ) : EntityM EntityInstanceState := do
  let found ← findEntity config entityId
  if found.1.trackInstances = false then
    throw ("Entity \"" ++ entityId ++ "\" does not track instances.")
  else
    let maxCount ← EntityM.ofExcept
      (getMaxCount config conditionContext found.1 (found.2.count + 1) creationStep)
    if maxCount.any (· ≤ found.2.count) then
      throw ("Entity \"" ++ entityId ++ "\" reached max count.")
    else
      let instanceId ← generateInstanceId entityId creationStep
      let stats ← EntityM.ofExcept
        (computeStats found.1 1 (buildFormulaContext config conditionContext 1 creationStep))
      modifyGet fun s =>
        let state : EntityInstanceState :=
          { instanceId, entityId, level := 1, experience := 0, stats, assignment := none }
        (state, s.insertInstance state)

/-- `destroyInstance`. -/
def destroyInstance (instanceId : String) : EntityM Unit := do
  let state ← findInstance instanceId
  let s ← get
  if (s.entities.get? state.entityId).isNone then
    throw ("Entity \"" ++ state.entityId ++ "\" not found.")
  else modify fun s => s.removeInstance instanceId state

/-! ### Counts -/

/-- `addEntity`. -/
def addEntity (entityId : String) (count : JsNumber) (step : ℕ) : EntityM Unit := do
  let found ← findEntity config entityId
  let normalizedCount := normalizeNonNegativeInt count
  if normalizedCount = 0 then pure ()
  else if found.1.trackInstances then
    (List.range normalizedCount).forM fun _ => do
      let _ ← createInstance config conditionContext entityId step
      pure ()
  else
    let maxCount ← EntityM.ofExcept
      (getMaxCount config conditionContext found.1 (found.2.count + normalizedCount) step)
    let wanted := found.2.count + normalizedCount
    let targetCount := (maxCount.map (wanted ⊓ ·)).getD wanted
    -- a maximum that has fallen below the count takes entities away
    modify fun s => s.modifyEntity entityId fun entity =>
      { entity with
        count := targetCount
        availableCount := ((entity.availableCount : ℤ) + (targetCount - entity.count)).toNat }

/-- `collectAvailableInstances`: the latest instances without an assignment. -/
def collectAvailableInstances (s : EntitySystem) (instanceIds : List String) (count : ℕ) :
    List String :=
  (instanceIds.reverse.filter fun instanceId =>
    (s.instances.get? instanceId).any fun state => state.assignment.isNone).take count

/-- `removeEntityInstances`. -/
def removeEntityInstances (entityId : String) (normalizedCount : ℕ) : EntityM Unit := do
  let s ← get
  let available := collectAvailableInstances s (s.instanceIds entityId) normalizedCount
  if available.length < normalizedCount then
    throw ("Entity \"" ++ entityId ++ "\" lacks " ++ toString normalizedCount ++
      " available instances.")
  else available.forM destroyInstance

/-- `removeEntity`, with `removeEntityCount`. -/
def removeEntity (entityId : String) (count : JsNumber) : EntityM Unit := do
  let found ← findEntity config entityId
  let normalizedCount := normalizeNonNegativeInt count
  if normalizedCount = 0 then pure ()
  else if found.1.trackInstances then removeEntityInstances entityId normalizedCount
  else if found.2.count < normalizedCount then
    throw ("Entity \"" ++ entityId ++ "\" lacks " ++ toString normalizedCount ++ " count.")
  else
    modify fun s => s.modifyEntity entityId fun entity =>
      { entity with
        count := entity.count - normalizedCount
        availableCount := entity.availableCount - normalizedCount }

/-! ### Missions -/

/-- An instance gets an assignment. -/
def EntitySystem.assign (s : EntitySystem) (instanceId : String) (state : EntityInstanceState)
    (assignment : EntityAssignment) : EntitySystem :=
  (s.setInstance instanceId { state with assignment := some assignment }).modifyEntity
    state.entityId fun entity => { entity with availableCount := entity.availableCount - 1 }

/-- An instance gives up its assignment. -/
def EntitySystem.unassign (s : EntitySystem) (instanceId : String) (state : EntityInstanceState) :
    EntitySystem :=
  (s.setInstance instanceId { state with assignment := none }).modifyEntity
    state.entityId fun entity => { entity with availableCount := entity.availableCount + 1 }

/-- `assignToMission`. -/
def assignToMission (instanceId : String) (assignment : EntityAssignment) : EntityM Unit := do
  let state ← findInstance instanceId
  if state.assignment.isSome then
    throw ("Entity instance \"" ++ instanceId ++ "\" already assigned.")
  else if assignment.returnStep.lt assignment.deployedAtStep then
    throw "Assignment returnStep must be >= deployedAtStep."
  else modify fun s => s.assign instanceId state assignment

/-- `returnFromMission`. -/
def returnFromMission (instanceId : String) : EntityM Unit := do
  let state ← findInstance instanceId
  if state.assignment.isNone then pure ()
  else modify fun s => s.unassign instanceId state

/-! ### Experience -/

/-- The loop of `addExperience`: the level and the experience that are left. Without an answer the
loop takes more rounds than the fuel allows. -/
def levelUp (progression : EntityProgression) (step : ℕ) :
    ℕ → ℕ → ℚ → Except String (Option (ℕ × ℚ))
  | 0, _, _ => .ok none
  | fuel + 1, level, experience =>
      if progression.maxLevel.any (fun maxLevel => maxLevel ⊔ 1 ≤ level) then
        .ok (some (level, experience))
      else do
        let required ← evaluateFormula progression.levelFormula
          (buildFormulaContext config conditionContext level step)
        if required ≤ 0 ∨ experience < required then return some (level, experience)
        else levelUp progression step fuel (level + 1) (experience - required)

/-- The end of `addExperience`: the experience that is left, then the level, then the stats. -/
def settleLevel (definition : EntityDefinition) (instanceId : String) (state : EntityInstanceState)
    (step level : ℕ) (experience : ℚ) : EntityM Unit := do
  modify fun s => s.setInstance instanceId { state with experience }
  if level = state.level then pure ()
  else
    modify fun s => s.setInstance instanceId { state with experience, level }
    let stats ← EntityM.ofExcept (computeStats definition level
      (buildFormulaContext config conditionContext level step))
    modify fun s => s.setInstance instanceId { state with experience, level, stats }

/-- `addExperience`, once its loop has ended within the fuel. -/
def addExperience (fuel : ℕ) (instanceId : String) (amount : JsNumber) (step : ℕ) :
    EntityM Unit := do
  let state ← findInstance instanceId
  match config.definitionById state.entityId with
  | none => throw ("Entity \"" ++ state.entityId ++ "\" not found.")
  | some definition =>
      let normalizedAmount := normalizeFiniteNumber amount
      if normalizedAmount ≤ 0 then pure ()
      else
        let experienced := { state with experience := state.experience + normalizedAmount }
        modify fun s => s.setInstance instanceId experienced
        match definition.progression with
        | none => pure ()
        | some progression =>
            let levelled ← EntityM.ofExcept (levelUp config conditionContext progression step fuel
              (state.level ⊔ 1) experienced.experience)
            match levelled with
            | none => pure ()
            | some (level, experience) =>
                settleLevel config conditionContext definition instanceId experienced step level
                  experience

/-! ### Ticks -/

/-- A condition read in the context of the host. -/
def EntityM.conditionHolds (context : ConditionContext) (condition : Condition) : EntityM Bool :=
  EntityM.ofExcept (evaluateCondition context 0 condition)

/-- `resolveVisibility`. -/
def resolveVisibility (context : ConditionContext) (definition : EntityDefinition) : EntityM Bool :=
  match definition.visibilityCondition with
  | some condition => EntityM.conditionHolds context condition
  | none => pure definition.visible

/-- `resolveUnlocked`. -/
def resolveUnlocked (context : ConditionContext) (definition : EntityDefinition) : EntityM Bool :=
  if definition.unlocked then pure true
  else
    match definition.unlockCondition with
    | some condition => EntityM.conditionHolds context condition
    | none => pure true

/-- `refreshEntityVisibility`, for one definition. -/
def refreshEntity (context : ConditionContext) (definition : EntityDefinition) : EntityM Unit := do
  let s ← get
  match s.entities.get? definition.id with
  | none => pure ()
  | some state =>
      let visible ← resolveVisibility context definition
      modify fun s => s.modifyEntity definition.id fun entity => { entity with visible }
      if state.unlocked then pure ()
      else
        let unlocked ← resolveUnlocked context definition
        modify fun s => s.modifyEntity definition.id fun entity => { entity with unlocked }

/-- `processReturningMissions`; no instance is added or removed meanwhile. -/
def processReturningMissions (step : ℕ) : EntityM Unit := do
  let s ← get
  s.instances.entries.forM fun entry =>
    if entry.2.assignment.any (fun assignment => assignment.returnStep.le (.fin step)) then
      returnFromMission entry.2.instanceId
    else pure ()

/-- `tick`. -/
def EntitySystem.tick (step : ℕ) : EntityM Unit := do
  modify fun s => { s with currentStep := step }
  match conditionContext with
  | some context => config.definitions.forM (refreshEntity context)
  | none => pure ()
  processReturningMissions step

/-! ### Creation -/

/-- The state of an entity before there is any. -/
def initialEntityState (definition : EntityDefinition) : EntityState :=
  { id := definition.id
    count := 0
    availableCount := 0
    unlocked := definition.unlocked || definition.unlockCondition.isNone
    visible := definition.visible }

/-- An entity gets its initial state and an empty list. -/
def EntitySystem.declare (s : EntitySystem) (definition : EntityDefinition) : EntitySystem :=
  { s with
    entities := s.entities.set definition.id (initialEntityState definition)
    entityInstances := s.entityInstances.set definition.id [] }

/-- `initializeState`, for one definition. -/
def initializeEntity (definition : EntityDefinition) : EntityM Unit := do
  modify fun s => s.declare definition
  if definition.startCount = 0 then pure ()
  else if definition.trackInstances then
    let maxCount ← EntityM.ofExcept
      (getMaxCount config conditionContext definition definition.startCount 0)
    let targetCount := (maxCount.map (definition.startCount ⊓ ·)).getD definition.startCount
    (List.range targetCount).forM fun _ => do
      let _ ← createInstance config conditionContext definition.id 0
      pure ()
  else addEntity config conditionContext definition.id (.fin definition.startCount) 0

/-- The maps of a system before it is initialized. -/
def EntitySystem.blank (draws : ℕ → ℕ) : EntitySystem :=
  { entities := OrderedMap.empty
    instances := OrderedMap.empty
    entityInstances := OrderedMap.empty
    currentStep := 0
    draws }

/-- `initializeState`; the constructor throws what this throws. -/
def initializeState : EntityM Unit := config.definitions.forM (initializeEntity config conditionContext)

end Operations

end IdleEngine
