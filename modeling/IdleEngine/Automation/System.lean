import IdleEngine.Command.Queue
import IdleEngine.Events.EventBus
import IdleEngine.Lib.Stateful
import IdleEngine.Progression.UpgradeEffects
import IdleEngine.Resource.Mutators

/-!
# The automation system

An automation fires in four steps on four subsystems: it spends its cost from the resource store,
publishes `automation:fired`, enqueues the command for its target, and records the step and the
cooldown. Each step may throw, and what was done before it stays; the runtime swallows the error of
a system.

Formulas read the live amounts, so those of the target and of the cooldown see the amounts that the
cost has left.
-/

namespace IdleEngine

/-! ### Definitions -/

/-- The trigger of an automation. -/
inductive AutomationTrigger
  | interval (interval : NumericFormula)
  | resourceThreshold (resourceId : String) (comparator : Comparator) (threshold : NumericFormula)
  | commandQueueEmpty
  | event (eventId : String)

/-- `trigger.kind`. -/
def AutomationTrigger.kind : AutomationTrigger → String
  | .interval _ => "interval"
  | .resourceThreshold _ _ _ => "resourceThreshold"
  | .commandQueueEmpty => "commandQueueEmpty"
  | .event _ => "event"

inductive AutomationTargetType
  | generator
  | upgrade
  | purchaseGenerator
  | collectResource
  | system
  deriving DecidableEq, Repr

/-- `resourceCost`. -/
structure AutomationResourceCost where
  resourceId : String
  rate : NumericFormula

/-- `AutomationDefinition`. -/
structure AutomationDefinition where
  id : String
  trigger : AutomationTrigger
  targetType : AutomationTargetType
  targetId : Option String
  systemTargetId : Option String
  targetEnabled : Option Bool
  targetCount : Option NumericFormula
  targetAmount : Option NumericFormula
  cooldown : Option NumericFormula
  resourceCost : Option AutomationResourceCost
  unlockCondition : Condition
  enabledByDefault : Bool

/-- `AutomationState`; its id is its key. -/
structure AutomationState where
  enabled : Bool
  lastFiredStep : JsNumber
  cooldownExpiresStep : JsNumber
  unlocked : Bool
  lastThresholdSatisfied : Option Bool
  deriving DecidableEq

/-- `AutomationSystemOptions`, apart from the stores. The accessor of the resource store may lack
`getResourceIndex` and `spendAmount`; a condition context reads the live amounts. -/
structure AutomationSystemOptions (n : ℕ) where
  automations : List AutomationDefinition
  stepDurationMs : ℚ
  hasResourceIndex : Bool
  hasSpendAmount : Bool
  conditionContext : Option (ResourceState n → ConditionContext)
  isAutomationUnlocked : Option (String → Bool)

/-- The stores that an evaluation changes. -/
structure AutomationWorld (n : ℕ) where
  automationStates : OrderedMap String AutomationState
  resources : ResourceState n
  queue : CommandQueue JsValue
  events : EventBus JsValue
  retainedEventTriggers : List String

/-- An evaluation: it changes the stores and may throw. -/
abbrev AutomationM (n : ℕ) := EStateM String (AutomationWorld n)

variable {n : ℕ}

namespace AutomationSystemOptions

variable (options : AutomationSystemOptions n)

/-- `getResourceIndex`; without it nothing is found. -/
def getResourceIndex (resources : ResourceState n) (resourceId : String) : Option (Fin n) :=
  if options.hasResourceIndex then indexOfId resources.ids resourceId else none

/-- `getAmount(0)`, which throws in a store without resources. -/
def firstAmount (resources : ResourceState n) : Option ℚ :=
  (List.finRange n).head?.map fun i => (resources.live i).amount

/-- The amount that the accessor has for a resource id. -/
def accessorAmount (resources : ResourceState n) (resourceId : String) : Option ℚ :=
  if options.hasResourceIndex then
    some ((indexOfId resources.ids resourceId).elim 0 fun i => (resources.live i).amount)
  else firstAmount resources

/-- The condition context, on the live amounts. -/
def conditionsAt (resources : ResourceState n) : Option ConditionContext :=
  options.conditionContext.map fun context => context resources

/-- `createAutomationFormulaEvaluationContext`. -/
def formulaContext (step : ℚ) (resources : ResourceState n) : FormulaContext :=
  let deltaTime := options.stepDurationMs / 1000
  let conditions := options.conditionsAt resources
  { variableValue := formulaVariables 0 (step * deltaTime) deltaTime
    resource := fun id =>
      match conditions with
      | some context => some (context.getResourceAmount id)
      | none => options.accessorAmount resources id
    generator := fun id => some ((conditions.map (·.getGeneratorLevel id)).getD 0)
    upgrade := fun id => some ((conditions.map (·.getUpgradePurchases id)).getD 0)
    automation := fun _ => some 0
    prestigeLayer := fun _ => some 0 }

/-- `ensureAutomationUnlocked`: whether the automation is unlocked from here on. -/
def ensureAutomationUnlocked (automation : AutomationDefinition) (state : AutomationState)
    (resources : ResourceState n) : Except String Bool :=
  if state.unlocked then .ok true
  else if options.isAutomationUnlocked.any fun isUnlocked => isUnlocked automation.id then .ok true
  else
    match options.conditionsAt resources with
    | some context => evaluateCondition context 0 automation.unlockCondition
    | none =>
      match automation.unlockCondition with
      | .always => .ok true
      | _ => .ok false

/-- `Math.ceil(ms / stepDurationMs)`. -/
def stepsOf (ms : JsNumber) : JsNumber :=
  match ms with
  | .fin ms =>
    if options.stepDurationMs = 0 then
      if ms = 0 then .nan else if 0 < ms then .posInf else .negInf
    else .fin ⌈ms / options.stepDurationMs⌉
  | .posInf => if options.stepDurationMs < 0 then .negInf else .posInf
  | .negInf => if options.stepDurationMs < 0 then .posInf else .negInf
  | .nan => .nan

/-- `evaluateResourceThresholdTrigger`, of the fields of the trigger. -/
def evaluateResourceThresholdTrigger (resourceId : String) (comparator : Comparator)
    (threshold : NumericFormula) (step : ℚ) (resources : ResourceState n) : Except String Bool :=
  match options.accessorAmount resources resourceId with
  | none => .error "ResourceState index 0 is out of range."
  | some amount =>
    (threshold (options.formulaContext step resources)).map fun thresholdValue =>
      compareWithComparator (.fin amount) thresholdValue comparator

/-- `updateCooldown`: the step until which the cooldown lasts. -/
def cooldownExpires (automation : AutomationDefinition) (step : ℚ) (resources : ResourceState n) :
    Except String JsNumber :=
  match automation.cooldown with
  | none => .ok (.fin 0)
  | some cooldown =>
    (cooldown (options.formulaContext step resources)).map fun cooldownMs =>
      match cooldownMs with
      | .fin ms =>
        if ms ≤ 0 then .fin 0
        else
          match options.stepsOf (.fin ms) with
          | .fin cooldownSteps => .fin (step + cooldownSteps + 1)
          | cooldownSteps => cooldownSteps
      | _ => .fin 0

end AutomationSystemOptions

/-- `isCooldownActive`. -/
def isCooldownActive (state : AutomationState) (currentStep : ℚ) : Bool :=
  (JsNumber.fin currentStep).lt state.cooldownExpiresStep

/-- `currentStep - lastFiredStep`. -/
def stepsSinceLastFired (currentStep : ℚ) : JsNumber → JsNumber
  | .fin last => .fin (currentStep - last)
  | .posInf => .negInf
  | .negInf => .posInf
  | .nan => .nan

/-- `evaluateIntervalTrigger`; an automation that never fired fires at once. -/
def evaluateIntervalTrigger (options : AutomationSystemOptions n) (interval : NumericFormula)
    (state : AutomationState) (step : ℚ) (resources : ResourceState n) : Except String Bool :=
  if state.lastFiredStep = .negInf then .ok true
  else
    (interval (options.formulaContext step resources)).map fun intervalMs =>
      (options.stepsOf intervalMs).le (stepsSinceLastFired step state.lastFiredStep)

/-! ### The command of an automation -/

/-- `SYSTEM_AUTOMATION_TARGET_MAPPING`. -/
def systemAutomationTargetMapping : List (String × String) :=
  [("offline-catchup", "OFFLINE_CATCHUP"), ("research-daemon", "RESEARCH_DAEMON")]

/-- `mapSystemTargetToCommandType`. -/
def mapSystemTargetToCommandType (systemTargetId : String) : Except String String :=
  match systemAutomationTargetMapping.lookup systemTargetId with
  | some commandType => .ok commandType
  | none =>
    .error ("Unknown system automation target: \"" ++ systemTargetId ++ "\". Expected one of: " ++
      ", ".intercalate (systemAutomationTargetMapping.map Prod.fst))

/-- A formula that may be missing. -/
def evaluateOr (formula : Option NumericFormula) (context : FormulaContext) (missing : JsNumber) :
    Except String JsNumber :=
  match formula with
  | some formula => formula context
  | none => .ok missing

/-- The count of a purchase: at least one, and one where the formula is not finite. -/
def targetCount (rawCount : JsNumber) : ℚ := (rawCount.finite?.map fun count => max 1 ⌊count⌋).getD 1

/-- The amount to collect: nothing where the formula is not finite or negative. -/
def targetAmount (rawAmount : JsNumber) : ℚ := max 0 (rawAmount.finite?.getD 0)

/-- A text that may be missing. -/
def JsValue.ofString? (text : Option String) : JsValue := text.elim .undefined .string

/-- The type and the payload of the command. -/
structure AutomationTarget where
  commandType : String
  payload : JsValue

/-- The target of `enqueueAutomationCommand`. -/
def automationTarget (automation : AutomationDefinition) (context : FormulaContext) :
    Except String AutomationTarget :=
  let targetId := JsValue.ofString? automation.targetId
  match automation.targetType with
  | .generator =>
    .ok ⟨"TOGGLE_GENERATOR", .object .plain
      [("generatorId", targetId), ("enabled", .bool (automation.targetEnabled.getD true))]⟩
  | .upgrade => .ok ⟨"PURCHASE_UPGRADE", .object .plain [("upgradeId", targetId)]⟩
  | .purchaseGenerator =>
    (evaluateOr automation.targetCount context (.fin 1)).map fun rawCount =>
      ⟨"PURCHASE_GENERATOR", .object .plain
        [("generatorId", targetId), ("count", .number (.fin (targetCount rawCount)))]⟩
  | .collectResource =>
    (evaluateOr automation.targetAmount context (.fin 1)).map fun rawAmount =>
      ⟨"COLLECT_RESOURCE", .object .plain
        [("resourceId", targetId), ("amount", .number (.fin (targetAmount rawAmount)))]⟩
  | .system =>
    (mapSystemTargetToCommandType (automation.systemTargetId.getD "system:unknown")).map
      fun commandType => ⟨commandType, .object .plain []⟩

/-- The command of `enqueueAutomationCommand`. -/
def automationCommand (options : AutomationSystemOptions n) (automation : AutomationDefinition)
    (step : ℚ) (resources : ResourceState n) : Except String (Command JsValue) :=
  (automationTarget automation (options.formulaContext step resources)).map fun target =>
    { type := target.commandType
      priority := .automation
      payload := target.payload
      timestamp := ((step * options.stepDurationMs : ℚ) : WithTop ℚ)
      step := .fin (step + 1)
      requestId := none }

/-! ### One evaluation -/

section Evaluation

variable (options : AutomationSystemOptions n) (automation : AutomationDefinition) (step : ℚ)

/-- The world with the state of an automation changed. -/
def AutomationWorld.withState (world : AutomationWorld n) (automation : AutomationDefinition)
    (change : AutomationState → AutomationState) : AutomationWorld n :=
  (world.automationStates.get? automation.id).elim world fun state =>
    { world with automationStates := world.automationStates.set automation.id (change state) }

/-- Change the state of the automation. -/
def setAutomationState (change : AutomationState → AutomationState) : AutomationM n Unit :=
  modify fun world => world.withState automation change

/-- What a pure step of an evaluation returns or throws. -/
def liftResult {α : Type} (result : Except String α) : AutomationM n α :=
  match result with
  | .ok a => pure a
  | .error e => throw e

/-- `updateThresholdStateDuringCooldown`. -/
def updateThresholdStateDuringCooldown : AutomationM n Unit :=
  match automation.trigger with
  | .resourceThreshold resourceId comparator threshold => do
    let world ← get
    let currentlySatisfied ← liftResult (options.evaluateResourceThresholdTrigger resourceId
      comparator threshold step world.resources)
    if currentlySatisfied then pure ()
    else setAutomationState automation fun state =>
      { state with lastThresholdSatisfied := some false }
  | _ => pure ()

/-- `AutomationTriggerEvaluation`. -/
structure AutomationTriggerEvaluation where
  triggered : Bool
  thresholdCrossing : Bool

/-- `evaluateAutomationTrigger`. -/
def evaluateAutomationTrigger (pendingEventTriggers : List String) (state : AutomationState) :
    AutomationM n AutomationTriggerEvaluation :=
  match automation.trigger with
  | .interval interval => do
    let world ← get
    let triggered ← liftResult (evaluateIntervalTrigger options interval state step world.resources)
    pure ⟨triggered, false⟩
  | .resourceThreshold resourceId comparator threshold => do
    let world ← get
    let currentThresholdSatisfied ← liftResult (options.evaluateResourceThresholdTrigger resourceId
      comparator threshold step world.resources)
    let thresholdCrossing := currentThresholdSatisfied && !state.lastThresholdSatisfied.getD false
    if thresholdCrossing then pure ⟨true, true⟩
    else do
      setAutomationState automation fun state =>
        { state with lastThresholdSatisfied := some currentThresholdSatisfied }
      pure ⟨false, false⟩
  | .commandQueueEmpty => do
    let world ← get
    pure ⟨world.queue.size = 0, false⟩
  | .event _ => pure ⟨pendingEventTriggers.contains automation.id, false⟩

/-- `handleAutomationSpendFailure`. -/
def handleAutomationSpendFailure (thresholdCrossing : Bool) : AutomationM n Unit :=
  match automation.trigger with
  | .event _ => modify fun world =>
    { world with retainedEventTriggers := addToSet world.retainedEventTriggers automation.id }
  | .resourceThreshold _ _ _ =>
    if thresholdCrossing then
      setAutomationState automation fun state =>
        { state with lastThresholdSatisfied := some false }
    else pure ()
  | _ => pure ()

/-- What `trySpendAutomationResourceCost` is to spend: an amount of a resource, or nothing where it
has to fail. -/
def automationCharge (cost : AutomationResourceCost) (resources : ResourceState n) :
    Except String (Option (Fin n × ℚ)) :=
  (cost.rate (options.formulaContext step resources)).map fun amountRaw =>
    match amountRaw.finite?, options.getResourceIndex resources cost.resourceId with
    | some amount, some i => if options.hasSpendAmount then some (i, max 0 amount) else none
    | _, _ => none

/-- `spendAmount` of the accessor. -/
def spendCharge (charge : Fin n × ℚ) : AutomationM n Bool := do
  let world ← get
  let spent ← liftResult (world.resources.spendAmount charge.1 (.fin charge.2))
  set { world with resources := spent.2 }
  pure spent.1

/-- `trySpendAutomationResourceCost`. -/
def trySpendAutomationResourceCost : AutomationM n Bool :=
  match automation.resourceCost with
  | none => pure true
  | some cost => do
    let world ← get
    let charge ← liftResult (automationCharge options step cost world.resources)
    charge.elim (pure false) spendCharge

/-- The payload of `automation:fired`. -/
def firedPayload : JsValue :=
  .object .plain [("automationId", .string automation.id),
    ("triggerKind", .string automation.trigger.kind), ("step", .number (.fin step))]

/-- `events.publish('automation:fired', …)`. -/
def publishFired : AutomationM n Unit := do
  let world ← get
  let published := world.events.publish "automation:fired" (firedPayload automation step) none
  set { world with events := published.2 }
  liftResult published.1

/-- `enqueueAutomationCommand`; whether the queue took the command is not looked at. -/
def enqueueAutomationCommand (cloneStructured : JsValue → Except String JsValue) :
    AutomationM n Unit := do
  let world ← get
  let command ← liftResult (automationCommand options automation step world.resources)
  let enqueued := world.queue.enqueue cloneStructured command
  set { world with queue := enqueued.2 }
  let _ ← liftResult enqueued.1
  pure ()

/-- `updateCooldown`. -/
def updateCooldown : AutomationM n Unit := do
  let world ← get
  let expires ← liftResult (options.cooldownExpires automation step world.resources)
  setAutomationState automation fun state => { state with cooldownExpiresStep := expires }

/-- The part of `processAutomationTick` up to the trigger: whether it fired, and if so, whether the
automation crossed its threshold. -/
def checkTrigger (pendingEventTriggers : List String) : AutomationM n (Option Bool) := do
  let world ← get
  match world.automationStates.get? automation.id with
  | none => pure none
  | some state => do
    let unlocked ← liftResult (options.ensureAutomationUnlocked automation state world.resources)
    setAutomationState automation fun state => { state with unlocked }
    if !unlocked || !state.enabled then pure none
    else if isCooldownActive state step then do
      updateThresholdStateDuringCooldown options automation step
      pure none
    else do
      let evaluation ← evaluateAutomationTrigger options automation step pendingEventTriggers state
      pure (if evaluation.triggered then some evaluation.thresholdCrossing else none)

/-- The part of `processAutomationTick` that spends the cost: what is left is to fire. -/
def payForFiring (thresholdCrossing : Bool) : AutomationM n (Option Bool) := do
  let spent ← trySpendAutomationResourceCost options automation step
  if spent then pure (some thresholdCrossing)
  else do
    handleAutomationSpendFailure automation thresholdCrossing
    pure none

/-- The part of `processAutomationTick` before the event. -/
def prepareFiring (pendingEventTriggers : List String) : AutomationM n (Option Bool) := do
  let triggered ← checkTrigger options automation step pendingEventTriggers
  triggered.elim (pure none) (payForFiring options automation step)

/-- The part of `processAutomationTick` after the command was enqueued. -/
def recordFiring (thresholdCrossing : Bool) : AutomationM n Unit := do
  setAutomationState automation fun state => { state with lastFiredStep := .fin step }
  updateCooldown options automation step
  if thresholdCrossing then
    setAutomationState automation fun state => { state with lastThresholdSatisfied := some true }
  else pure ()

/-- The part of `processAutomationTick` from the event on. -/
def fireAutomation (cloneStructured : JsValue → Except String JsValue) (thresholdCrossing : Bool) :
    AutomationM n Unit := do
  publishFired automation step
  enqueueAutomationCommand options automation step cloneStructured
  recordFiring options automation step thresholdCrossing

/-- `processAutomationTick`. -/
def processAutomationTick (cloneStructured : JsValue → Except String JsValue)
    (pendingEventTriggers : List String) : AutomationM n Unit := do
  let prepared ← prepareFiring options automation step pendingEventTriggers
  prepared.elim (pure ()) (fireAutomation options automation step cloneStructured)

end Evaluation

end IdleEngine
