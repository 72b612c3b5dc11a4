import IdleEngine.Automation.Firing
import IdleEngine.Content.Formulas
import IdleEngine.Lib.EdgeTrigger

/-!
# Threshold automations are edge triggers

To an automation with a threshold an evaluation is a look of an edge trigger (`EdgeTrigger`): what
it sees is the comparison, whether the cost can be paid, and until when the cooldown would last
(`lookAt`); what it keeps is the remembered comparison and the cooldown (`AutomationState.edge`).
Where publishing and enqueueing do not throw, an evaluation does to the state of the automation what
the look does to the trigger, and goes on to fire when the trigger fires (`evaluate_seen`).
-/

namespace IdleEngine

open Stateful EdgeTrigger AutomationSystemOptions Bool

variable {n : ℕ}

section Definitions

variable (options : AutomationSystemOptions n) (automation : AutomationDefinition) (step : ℚ)

/-- `evaluateResourceThresholdTrigger` of an automation. -/
def thresholdComparison (resources : ResourceState n) : Except String Bool :=
  match automation.trigger with
  | .resourceThreshold resourceId comparator threshold =>
    options.evaluateResourceThresholdTrigger resourceId comparator threshold step resources
  | _ => .error "Expected resourceThreshold trigger"

/-- What is left in the store once the cost is paid; nothing where it cannot be paid. -/
def payCost (resources : ResourceState n) : Except String (Option (ResourceState n)) :=
  match automation.resourceCost with
  | none => .ok (some resources)
  | some cost => do
    let charge ← automationCharge options step cost resources
    charge.elim (.ok none) fun charge =>
      (resources.spendAmount charge.1 (.fin charge.2)).map fun spent =>
        if spent.1 then some spent.2 else none

/-- The store after the cost was paid, where it can be paid. -/
def paidFor (resources : ResourceState n) : Option (ResourceState n) :=
  (payCost options automation step resources).toOption.join

/-- When the automation would be in its cooldown if it fired now. -/
def cooldownAfter (resources : ResourceState n) (t : ℚ) : Bool :=
  (paidFor options automation step resources).any fun paid =>
    (options.cooldownExpires automation step paid).toOption.any (JsNumber.fin t).lt

/-- What an evaluation sees beside the comparison. -/
def lookSeeing (resources : ResourceState n) (holds : Bool) : Look ℚ :=
  { time := step
    holds
    pays := (paidFor options automation step resources).isSome
    rest := cooldownAfter options automation step resources }

/-- What an evaluation sees, where it comes to the comparison. -/
def lookAt (state : AutomationState) (world : AutomationWorld n) : Option (Look ℚ) :=
  if (options.ensureAutomationUnlocked automation state world.resources).toOption = some true ∧
      state.enabled then
    (thresholdComparison options automation step world.resources).toOption.map
      (lookSeeing options automation step world.resources)
  else none

/-- The remembered comparison and the cooldown. -/
def AutomationState.edge (state : AutomationState) : State ℚ :=
  { remembered := state.lastThresholdSatisfied.getD false, rests := isCooldownActive state }

/-- The world in which the automation has a given state. -/
def AutomationWorld.holding (world : AutomationWorld n) (state : AutomationState) :
    AutomationWorld n :=
  { world with automationStates := world.automationStates.set automation.id state }

/-- What an evaluation makes of the state: whether the automation is enabled stays, and a cooldown
that is new was computed. -/
structure Becomes (state : AutomationState) (unlocked : Bool) (edge : State ℚ)
    (state' : AutomationState) : Prop where
  enabled : state'.enabled = state.enabled
  unlocked : state'.unlocked = unlocked
  edge : state'.edge = edge
  cooldown : state'.cooldownExpiresStep = state.cooldownExpiresStep ∨
    ∃ step paid, options.cooldownExpires automation step paid = .ok state'.cooldownExpiresStep

/-- Whether an evaluation goes on to fire. -/
def firesAt (pendingEventTriggers : List String) (state : AutomationState)
    (world : AutomationWorld n) : Bool :=
  match prepareFiring options automation step pendingEventTriggers
    (world.holding automation state) with
  | .ok (some _) _ => true
  | _ => false

/-- Publishing and enqueueing do not throw in this evaluation. -/
def Unhindered (cloneStructured : JsValue → Except String JsValue)
    (pendingEventTriggers : List String) (state : AutomationState) (world : AutomationWorld n) :
    Prop :=
  ∀ crossing paid,
    GoesOn options automation step pendingEventTriggers (world.holding automation state) crossing
      paid →
    ∃ told queued, publishFired automation step paid = .ok () told ∧
      enqueueAutomationCommand options automation step cloneStructured told = .ok () queued

end Definitions

variable {options : AutomationSystemOptions n} {automation : AutomationDefinition} {step : ℚ}
  {world told queued : AutomationWorld n} {state : AutomationState}

/-! ### The stores that a step leaves alone -/

theorem publishFired_ok (h : publishFired automation step world = .ok () told) :
    told.automationStates = world.automationStates ∧ told.resources = world.resources := by
  rw [publishFired, run_get_bind] at h
  obtain ⟨_, w, hset, hlift⟩ := bind_ok h
  obtain rfl := (EStateM.Result.ok.inj hset).2
  cases hpublished : (world.events.publish "automation:fired" (firedPayload automation step)
      none).1 with
  | error e =>
    rw [hpublished] at hlift
    cases hlift
  | ok u =>
    rw [hpublished] at hlift
    obtain rfl := (EStateM.Result.ok.inj hlift).2
    exact ⟨rfl, rfl⟩

theorem enqueueAutomationCommand_ok {cloneStructured : JsValue → Except String JsValue}
    (h : enqueueAutomationCommand options automation step cloneStructured told = .ok () queued) :
    queued.automationStates = told.automationStates ∧ queued.resources = told.resources := by
  rw [enqueueAutomationCommand, run_get_bind] at h
  obtain ⟨command, w, hcommand, h⟩ := bind_ok h
  cases hbuilt : automationCommand options automation step told.resources with
  | error e =>
    rw [hbuilt] at hcommand
    cases hcommand
  | ok built =>
    rw [hbuilt] at hcommand
    obtain ⟨rfl, rfl⟩ := EStateM.Result.ok.inj hcommand
    obtain ⟨_, w', hset, h⟩ := bind_ok h
    obtain rfl := (EStateM.Result.ok.inj hset).2
    cases hqueue : (told.queue.enqueue cloneStructured built).1 with
    | error e =>
      rw [hqueue] at h
      cases h
    | ok done =>
      rw [hqueue] at h
      obtain rfl := (EStateM.Result.ok.inj h).2
      exact ⟨rfl, rfl⟩

/-! ### The cost -/

/-- How the payment ends: the store changes only where the cost is paid. -/
def AutomationWorld.afterPayment (world : AutomationWorld n) :
    Except String (Option (ResourceState n)) → EStateM.Result String (AutomationWorld n) Bool
  | .error e => .error e world
  | .ok none => .ok false world
  | .ok (some paid) => .ok true { world with resources := paid }

theorem trySpend_eq (world : AutomationWorld n) :
    trySpendAutomationResourceCost options automation step world =
      world.afterPayment (payCost options automation step world.resources) := by
  unfold trySpendAutomationResourceCost payCost
  cases automation.resourceCost with
  | none => rfl
  | some cost =>
    dsimp only
    rw [run_get_bind]
    cases hcharge : automationCharge options step cost world.resources with
    | error e => exact run_bind_error (run_liftResult_error rfl world) _
    | ok charge =>
      rw [run_bind_ok (run_liftResult_ok rfl world)]
      cases charge with
      | none => rfl
      | some charge =>
        change spendCharge charge world = world.afterPayment (Except.map _ _)
        rw [spendCharge, run_get_bind]
        cases hspent : world.resources.spendAmount charge.1 (.fin charge.2) with
        | error e => exact run_bind_error (run_liftResult_error rfl world) _
        | ok spent =>
          rw [run_bind_ok (run_liftResult_ok rfl world)]
          obtain ⟨x, -, -, ⟨hfalse, hsame, -⟩ | ⟨htrue, -⟩⟩ := ResourceState.spendAmount_ok hspent
          · rw [Except.map, hfalse, hsame]
            rfl
          · rw [Except.map, htrue]
            rfl

/-! ### Up to the trigger -/

/-- The state of the automation in a world. -/
def HasState (automation : AutomationDefinition) (world : AutomationWorld n)
    (state : AutomationState) : Prop :=
  world.automationStates.get? automation.id = some state

theorem HasState.withState (h : HasState automation world state)
    (change : AutomationState → AutomationState) :
    HasState automation (world.withState automation change) (change state) := by
  rw [HasState, AutomationWorld.withState_get?, h]
  rfl

section Check

variable {pendingEventTriggers : List String} (hstate : HasState automation world state)

include hstate

/-- An automation that is locked or disabled is passed over. -/
theorem checkTrigger_idle {unlocked : Bool} (hunlocked : options.ensureAutomationUnlocked automation
      state world.resources = .ok unlocked) (hidle : (!unlocked || !state.enabled) = true) :
    checkTrigger options automation step pendingEventTriggers world =
      .ok none (world.withState automation fun state => { state with unlocked }) := by
  rw [checkTrigger, run_get_bind, hstate]
  dsimp only
  rw [run_bind_ok (run_liftResult_ok hunlocked world),
    run_bind_ok (run_setAutomationState _ _ world), if_pos hidle]
  rfl

/-- A condition that throws ends the evaluation. -/
theorem checkTrigger_locked {e : String} (hunlocked : options.ensureAutomationUnlocked automation
      state world.resources = .error e) :
    checkTrigger options automation step pendingEventTriggers world = .error e world := by
  rw [checkTrigger, run_get_bind, hstate]
  dsimp only
  rw [run_bind_error (run_liftResult_error hunlocked world)]

variable (hunlocked : options.ensureAutomationUnlocked automation state world.resources = .ok true)
  (henabled : state.enabled = true)

include hunlocked henabled

/-- An automation that is unlocked and enabled comes to its cooldown. -/
theorem checkTrigger_awake :
    checkTrigger options automation step pendingEventTriggers world =
      (if isCooldownActive state step then do
          updateThresholdStateDuringCooldown options automation step
          pure none
        else do
          let evaluation ←
            evaluateAutomationTrigger options automation step pendingEventTriggers state
          pure (if evaluation.triggered then some evaluation.thresholdCrossing else none))
        (world.withState automation fun state => { state with unlocked := true }) := by
  rw [checkTrigger, run_get_bind, hstate]
  dsimp only
  rw [run_bind_ok (run_liftResult_ok hunlocked world),
    run_bind_ok (run_setAutomationState _ _ world), henabled]
  rfl

variable {resourceId : String} {comparator : Comparator} {threshold : NumericFormula}
  (htrigger : automation.trigger = .resourceThreshold resourceId comparator threshold)

include htrigger

/-- A comparison that throws ends the evaluation, in the cooldown or out of it. -/
theorem checkTrigger_incomparable {e : String}
    (hcomparison : thresholdComparison options automation step world.resources = .error e) :
    checkTrigger options automation step pendingEventTriggers world =
      .error e (world.withState automation fun state => { state with unlocked := true }) := by
  have hresources := (world.withState_stores automation fun state =>
    { state with unlocked := true }).1
  rw [thresholdComparison, htrigger, ← hresources] at hcomparison
  rw [checkTrigger_awake hstate hunlocked henabled]
  split
  · rw [updateThresholdStateDuringCooldown, htrigger]
    dsimp only
    exact run_bind_error (run_bind_error (run_liftResult_error hcomparison _) _) _
  · rw [evaluateAutomationTrigger, htrigger]
    dsimp only
    exact run_bind_error (run_bind_error (run_liftResult_error hcomparison _) _) _

variable {holds : Bool}
  (hcomparison : thresholdComparison options automation step world.resources = .ok holds)

include hcomparison

omit hstate hunlocked henabled in
theorem evaluateResourceThresholdTrigger_eq (change : AutomationState → AutomationState) :
    options.evaluateResourceThresholdTrigger resourceId comparator threshold step
      (world.withState automation change).resources = .ok holds := by
  rw [(world.withState_stores automation change).1, ← hcomparison, thresholdComparison, htrigger]

/-- In its cooldown the automation forgets a comparison that does not hold. -/
theorem checkTrigger_resting (hresting : isCooldownActive state step = true) :
    ∃ world' state', checkTrigger options automation step pendingEventTriggers world =
        .ok none world' ∧ HasState automation world' state' ∧
      Becomes options automation state true
        { state.edge with remembered := state.edge.remembered && holds } state' := by
  have hunlock := hstate.withState fun state => { state with unlocked := true }
  have hholds := evaluateResourceThresholdTrigger_eq htrigger hcomparison fun state =>
    { state with unlocked := true }
  rw [checkTrigger_awake hstate hunlocked henabled, if_pos hresting]
  generalize (world.withState automation fun state => { state with unlocked := true }) = unlocked
    at hunlock hholds ⊢
  cases holds with
  | true =>
    have hrun : updateThresholdStateDuringCooldown options automation step unlocked =
        .ok () unlocked := by
      rw [updateThresholdStateDuringCooldown, htrigger]
      dsimp only
      rw [run_get_bind, run_bind_ok (run_liftResult_ok hholds _)]
      rfl
    refine ⟨_, _, run_bind_ok hrun _, hunlock, rfl, rfl, ?_, .inl rfl⟩
    rw [Bool.and_true]
    rfl
  | false =>
    have hrun : updateThresholdStateDuringCooldown options automation step unlocked =
        .ok () (unlocked.withState automation fun state =>
          { state with lastThresholdSatisfied := some false }) := by
      rw [updateThresholdStateDuringCooldown, htrigger]
      dsimp only
      rw [run_get_bind, run_bind_ok (run_liftResult_ok hholds _)]
      rfl
    refine ⟨_, _, run_bind_ok hrun _,
      hunlock.withState fun state => { state with lastThresholdSatisfied := some false },
      rfl, rfl, ?_, .inl rfl⟩
    rw [Bool.and_false]
    rfl

variable (hresting : isCooldownActive state step = false)
include hresting

/-- The trigger out of the cooldown. -/
theorem checkTrigger_looking : checkTrigger options automation step pendingEventTriggers world = (do
        let evaluation ← (if holds && !state.edge.remembered then pure ⟨true, true⟩
          else do
            setAutomationState automation fun state =>
              { state with lastThresholdSatisfied := some holds }
            pure ⟨false, false⟩ : AutomationM n AutomationTriggerEvaluation)
        pure (if evaluation.triggered then some evaluation.thresholdCrossing else none))
      (world.withState automation fun state => { state with unlocked := true }) := by
  have hholds := evaluateResourceThresholdTrigger_eq htrigger hcomparison fun state =>
    { state with unlocked := true }
  rw [checkTrigger_awake hstate hunlocked henabled, hresting]
  simp only [false_eq_true, if_false]
  generalize (world.withState automation fun state => { state with unlocked := true }) = unlocked
    at hholds ⊢
  have hrun : evaluateAutomationTrigger options automation step pendingEventTriggers state
      unlocked = (if holds && !state.edge.remembered then pure ⟨true, true⟩
        else do
          setAutomationState automation fun state =>
            { state with lastThresholdSatisfied := some holds }
          pure ⟨false, false⟩ : AutomationM n AutomationTriggerEvaluation) unlocked := by
    rw [evaluateAutomationTrigger, htrigger]
    dsimp only
    rw [run_get_bind, run_bind_ok (run_liftResult_ok hholds _)]
    rfl
  change EStateM.bind _ _ _ = EStateM.bind _ _ _
  rw [EStateM.bind, EStateM.bind, hrun]

/-- Out of its cooldown the automation remembers the comparison, unless it crossed. -/
theorem checkTrigger_uncrossed (hcrossed : (holds && !state.edge.remembered) = false) :
    ∃ world' state', checkTrigger options automation step pendingEventTriggers world =
        .ok none world' ∧ HasState automation world' state' ∧
      Becomes options automation state true { state.edge with remembered := holds } state' := by
  have hunlock := hstate.withState fun state => { state with unlocked := true }
  rw [checkTrigger_looking hstate hunlocked henabled htrigger hcomparison hresting, hcrossed]
  exact ⟨_, _, rfl,
    hunlock.withState fun state => { state with lastThresholdSatisfied := some holds },
    rfl, rfl, rfl, .inl rfl⟩

/-- A crossing is one from a comparison that is not remembered as holding. -/
theorem checkTrigger_crossed (hcrossed : (holds && !state.edge.remembered) = true) :
    checkTrigger options automation step pendingEventTriggers world =
      .ok (some true)
        (world.withState automation fun state => { state with unlocked := true }) := by
  rw [checkTrigger_looking hstate hunlocked henabled htrigger hcomparison hresting, hcrossed]
  rfl

end Check

/-! ### A whole evaluation -/

section Evaluation

variable {pendingEventTriggers : List String} {cloneStructured : JsValue → Except String JsValue}

/-- The world after an evaluation. -/
def evaluated (options : AutomationSystemOptions n) (automation : AutomationDefinition) (step : ℚ)
    (cloneStructured : JsValue → Except String JsValue) (pendingEventTriggers : List String)
    (state : AutomationState) (world : AutomationWorld n) : AutomationWorld n :=
  final (processAutomationTick options automation step cloneStructured pendingEventTriggers
    (world.holding automation state))

theorem hasState_holding (state : AutomationState) (world : AutomationWorld n) :
    HasState automation (world.holding automation state) state := by
  rw [HasState, AutomationWorld.holding, OrderedMap.get?_set, if_pos rfl]

/-- **What an evaluation does**: whether it fires, and what it makes of the state. -/
structure Evaluates (options : AutomationSystemOptions n) (automation : AutomationDefinition)
    (step : ℚ) (cloneStructured : JsValue → Except String JsValue)
    (pendingEventTriggers : List String) (state : AutomationState) (world : AutomationWorld n)
    (fires unlocked : Bool) (edge : State ℚ) : Prop where
  fires : firesAt options automation step pendingEventTriggers state world = fires
  becomes : ∃ state', HasState automation (evaluated options automation step cloneStructured
    pendingEventTriggers state world) state' ∧
      Becomes options automation state unlocked edge state'

/-- The run came to its end in the world, or threw there, and nothing is left to fire. -/
def EndsIn (result : EStateM.Result String (AutomationWorld n) (Option Bool))
    (world : AutomationWorld n) : Prop :=
  result = .ok none world ∨ ∃ e, result = .error e world

variable {world' : AutomationWorld n} {state' : AutomationState} {unlocked : Bool} {edge : State ℚ}

/-- An evaluation that does not come to fire is over. -/
theorem evaluates_of_prepare (h : EndsIn (prepareFiring options automation step
      pendingEventTriggers (world.holding automation state)) world')
    (hstate : HasState automation world' state')
    (hbecomes : Becomes options automation state unlocked edge state') :
    Evaluates options automation step cloneStructured pendingEventTriggers state world false
      unlocked edge := by
  rcases h with h | ⟨e, h⟩
  · refine ⟨by rw [firesAt, h], state', ?_, hbecomes⟩
    rw [evaluated, processAutomationTick, run_bind_ok h]
    exact hstate
  · refine ⟨by rw [firesAt, h], state', ?_, hbecomes⟩
    rw [evaluated, processAutomationTick, run_bind_error h]
    exact hstate

theorem evaluates_of_check (h : EndsIn (checkTrigger options automation step pendingEventTriggers
      (world.holding automation state)) world')
    (hstate : HasState automation world' state')
    (hbecomes : Becomes options automation state unlocked edge state') :
    Evaluates options automation step cloneStructured pendingEventTriggers state world false
      unlocked edge :=
  evaluates_of_prepare (h.imp (run_bind_ok · _) fun ⟨e, h⟩ => ⟨e, run_bind_error h _⟩) hstate
    hbecomes

variable {resourceId : String} {comparator : Comparator} {threshold : NumericFormula}
  (htrigger : automation.trigger = .resourceThreshold resourceId comparator threshold)

include htrigger

/-- An evaluation that does not come to the comparison changes nothing that matters. -/
theorem evaluate_unseen (h : lookAt options automation step state world = none) :
    Evaluates options automation step cloneStructured pendingEventTriggers state world false
      ((options.ensureAutomationUnlocked automation state world.resources).toOption.getD
        state.unlocked) state.edge := by
  have hstate := @hasState_holding n automation state world
  cases hunlocked : options.ensureAutomationUnlocked automation state world.resources with
  | error e =>
    exact evaluates_of_check (.inr ⟨e, checkTrigger_locked hstate hunlocked⟩) hstate
      ⟨rfl, rfl, rfl, .inl rfl⟩
  | ok unlocked =>
    by_cases hidle : (!unlocked || !state.enabled) = true
    · exact evaluates_of_check (.inl (checkTrigger_idle hstate hunlocked hidle))
        (hstate.withState _) ⟨rfl, rfl, rfl, .inl rfl⟩
    · obtain ⟨rfl, henabled⟩ : unlocked = true ∧ state.enabled = true := by simpa using hidle
      rw [lookAt, if_pos ⟨by rw [hunlocked]; rfl, henabled⟩, Option.map_eq_none_iff] at h
      cases hcomparison : thresholdComparison options automation step world.resources with
      | ok holds =>
        rw [hcomparison] at h
        cases h
      | error e =>
        exact evaluates_of_check (.inr ⟨e, checkTrigger_incomparable hstate hunlocked henabled
          htrigger hcomparison⟩) (hstate.withState _) ⟨rfl, rfl, rfl, .inl rfl⟩

omit htrigger in
/-- What is recorded once the command is enqueued. -/
theorem recordFiring_run (hstate : HasState automation queued state) {expires : JsNumber}
    (hexpires : options.cooldownExpires automation step queued.resources = .ok expires) :
    ∃ world' state', recordFiring options automation step true queued = .ok () world' ∧
      HasState automation world' state' ∧
        Becomes options automation state state.unlocked
          { remembered := true, rests := fun t => (JsNumber.fin t).lt expires } state' := by
  have hresources := (queued.withState_stores automation fun state =>
    { state with lastFiredStep := .fin step }).1
  rw [← hresources] at hexpires
  have hcooldown : updateCooldown options automation step
      (queued.withState automation fun state => { state with lastFiredStep := .fin step }) =
        .ok () ((queued.withState automation fun state =>
          { state with lastFiredStep := .fin step }).withState automation fun state =>
            { state with cooldownExpiresStep := expires }) := by
    rw [updateCooldown, run_get_bind, run_bind_ok (run_liftResult_ok hexpires _)]
    rfl
  have hfired := hstate.withState fun state => { state with lastFiredStep := .fin step }
  have hcooled := hfired.withState fun state => { state with cooldownExpiresStep := expires }
  have hremembered := hcooled.withState fun state =>
    { state with lastThresholdSatisfied := some true }
  refine ⟨_, _, ?_, hremembered, rfl, rfl, rfl, .inr ⟨step, _, hexpires⟩⟩
  rw [recordFiring, run_bind_ok (run_setAutomationState _ _ queued), run_bind_ok hcooldown]
  rfl

omit htrigger in
/-- A firing that nothing hinders is recorded. -/
theorem evaluates_of_paid {paid : AutomationWorld n}
    (h : prepareFiring options automation step pendingEventTriggers
      (world.holding automation state) = .ok (some true) paid)
    (hstate : HasState automation paid { state with unlocked := true })
    (hfree : Unhindered options automation step cloneStructured pendingEventTriggers state world)
    {expires : JsNumber}
    (hexpires : options.cooldownExpires automation step paid.resources = .ok expires) :
    Evaluates options automation step cloneStructured pendingEventTriggers state world true true
      { remembered := true, rests := fun t => (JsNumber.fin t).lt expires } := by
  obtain ⟨told, queued, htold, hqueued⟩ := hfree true paid h
  obtain ⟨hstates, hresources⟩ := publishFired_ok htold
  obtain ⟨hstates', hresources'⟩ := enqueueAutomationCommand_ok hqueued
  rw [← hresources, ← hresources'] at hexpires
  have hqueuedState : HasState automation queued { state with unlocked := true } := by
    rw [HasState, hstates', hstates]
    exact hstate
  obtain ⟨world', fired, hrecord, hfired, hedge⟩ := recordFiring_run hqueuedState hexpires
  have hfire : fireAutomation options automation step cloneStructured true paid = .ok () world' :=
    (run_bind_ok htold _).trans ((run_bind_ok hqueued _).trans hrecord)
  refine ⟨by rw [firesAt, h], fired, ?_, hedge.enabled, hedge.unlocked, hedge.edge, hedge.cooldown⟩
  rw [evaluated, processAutomationTick, run_bind_ok h]
  change HasState automation
    (final (fireAutomation options automation step cloneStructured true paid)) fired
  rw [hfire]
  exact hfired

omit htrigger in
theorem resolves_formulaContext {resources resources' : ResourceState n} {id : String}
    (h : (options.accessorAmount resources id).isSome) (target : ReferenceTarget) :
    (options.formulaContext step resources').resolves target = true := by
  rcases target with ⟨_ | _ | _⟩ | ⟨_ | _ | _ | _ | _, entityId⟩
  case entity.resource =>
    rw [FormulaContext.resolves, FormulaContext.lookup, FormulaContext.entity]
    unfold formulaContext
    dsimp only
    split
    · rfl
    · unfold accessorAmount firstAmount at h ⊢
      split
      · rfl
      · next hindex =>
        rw [if_neg hindex, Option.isSome_map] at h
        rwa [Option.isSome_map]
  all_goals rfl

variable {math : FormulaMath}
  (haccepted : ∀ cooldown, automation.cooldown = some cooldown → AcceptedFormula math cooldown)

include haccepted

theorem cooldownExpires_returns {resources : ResourceState n} {holds : Bool}
    (hcomparison : thresholdComparison options automation step resources = .ok holds)
    (paid : ResourceState n) :
    ∃ expires, options.cooldownExpires automation step paid = .ok expires := by
  have haccessor : (options.accessorAmount resources resourceId).isSome = true := by
    rw [thresholdComparison, htrigger] at hcomparison
    dsimp only at hcomparison
    unfold evaluateResourceThresholdTrigger at hcomparison
    cases haccessor : options.accessorAmount resources resourceId with
    | some amount => rfl
    | none =>
      rw [haccessor] at hcomparison
      cases hcomparison
  rw [cooldownExpires]
  cases hcooldown : automation.cooldown with
  | none => exact ⟨_, rfl⟩
  | some cooldown =>
    exact Outcome.exists_map_ok.mpr ((haccepted cooldown hcooldown).returns_of_resolves rfl
      (resolves_formulaContext haccessor))

section Awake

variable
  (hunlocked : options.ensureAutomationUnlocked automation state world.resources = .ok true)
  (henabled : state.enabled = true) {holds : Bool}
  (hcomparison : thresholdComparison options automation step world.resources = .ok holds)

include hunlocked henabled hcomparison

omit haccepted in
theorem evaluate_uncrossed
    (hquiet : isCooldownActive state step = true ∨ (holds && !state.edge.remembered) = false) :
    Evaluates options automation step cloneStructured pendingEventTriggers state world false true
      { state.edge with remembered := state.edge.remembered && holds } := by
  have hstate := @hasState_holding n automation state world
  cases hresting : isCooldownActive state step with
  | true =>
    obtain ⟨world', state', hrun, hown, hedge⟩ := @checkTrigger_resting n options automation step _
      state pendingEventTriggers hstate hunlocked henabled _ _ _ htrigger _ hcomparison hresting
    exact evaluates_of_check (.inl hrun) hown hedge
  | false =>
    have huncrossed : (holds && !state.edge.remembered) = false := by
      rcases hquiet with hrest | huncrossed
      · rw [hresting] at hrest
        cases hrest
      · exact huncrossed
    obtain ⟨world', state', hrun, hown, hedge⟩ := @checkTrigger_uncrossed n options automation
      step _ state pendingEventTriggers hstate hunlocked henabled _ _ _ htrigger _ hcomparison
      hresting huncrossed
    refine evaluates_of_check (.inl hrun) hown
      ⟨hedge.enabled, hedge.unlocked, hedge.edge.trans ?_, hedge.cooldown⟩
    -- without a crossing the comparison is held and remembered, or is not held
    cases hremembered : state.edge.remembered with
    | true => rw [Bool.true_and]
    | false =>
      rw [hremembered, Bool.not_false, Bool.and_true] at huncrossed
      rw [huncrossed, Bool.false_and]

section Crossed

variable (hresting : isCooldownActive state step = false)
  (hcrossed : (holds && !state.edge.remembered) = true)

include hresting hcrossed

omit haccepted in
theorem exists_prepareFiring_crossed (triggers : List String) : ∃ crossed : AutomationWorld n,
    HasState automation crossed { state with unlocked := true } ∧
      crossed.resources = world.resources ∧
      trySpendAutomationResourceCost options automation step crossed =
        crossed.afterPayment (payCost options automation step world.resources) ∧
      prepareFiring options automation step triggers
        (world.holding automation state) = payForFiring options automation step true crossed := by
  have hstate := @hasState_holding n automation state world
  have hresources := ((world.holding automation state).withState_stores automation fun state =>
    { state with unlocked := true }).1
  refine ⟨_, hstate.withState fun state => { state with unlocked := true }, hresources, ?_,
    run_bind_ok (checkTrigger_crossed hstate hunlocked henabled htrigger hcomparison hresting
      hcrossed) _⟩
  rw [trySpend_eq, hresources]
  rfl

omit haccepted in
/-- A crossing that cannot be paid for is forgotten. -/
theorem evaluate_unpaid (hunpaid : paidFor options automation step world.resources = none) :
    Evaluates options automation step cloneStructured pendingEventTriggers state world false true
      state.edge := by
  obtain ⟨crossed, hstate, -, hspend, hprepare⟩ := exists_prepareFiring_crossed htrigger hunlocked
    henabled hcomparison hresting hcrossed pendingEventTriggers
  rw [paidFor] at hunpaid
  rcases hpayment : payCost options automation step world.resources with e | paid
  · rw [hpayment] at hspend
    exact evaluates_of_prepare (.inr ⟨e, hprepare.trans (run_bind_error hspend _)⟩) hstate
      ⟨rfl, rfl, rfl, .inl rfl⟩
  · rw [hpayment] at hspend hunpaid
    obtain rfl : paid = none := hunpaid
    have hfail : handleAutomationSpendFailure automation true crossed =
        .ok () (crossed.withState automation fun state =>
          { state with lastThresholdSatisfied := some false }) := by
      rw [handleAutomationSpendFailure, htrigger]
      rfl
    refine evaluates_of_prepare
      (.inl (hprepare.trans ((run_bind_ok hspend _).trans (run_bind_ok hfail _))))
      (hstate.withState _) ⟨rfl, rfl, ?_, .inl rfl⟩
    -- what crossed was not remembered
    have hforgot : state.edge.remembered = false := by
      rw [and_eq_true, not_eq_true'] at hcrossed
      exact hcrossed.2
    change { remembered := false, rests := isCooldownActive state : State ℚ } = state.edge
    rw [← hforgot]
    rfl

/-- A crossing that is paid for fires. -/
theorem evaluate_paid {paid : ResourceState n}
    (hpaid : paidFor options automation step world.resources = some paid)
    (hfree : Unhindered options automation step cloneStructured pendingEventTriggers state world) :
    Evaluates options automation step cloneStructured pendingEventTriggers state world true true
      { remembered := true, rests := cooldownAfter options automation step world.resources } := by
  obtain ⟨crossed, hstate, -, hspend, hprepare⟩ := exists_prepareFiring_crossed htrigger hunlocked
    henabled hcomparison hresting hcrossed pendingEventTriggers
  obtain ⟨expires, hexpires⟩ := cooldownExpires_returns htrigger haccepted hcomparison paid
  have hrest : cooldownAfter options automation step world.resources =
      fun t => (JsNumber.fin t).lt expires := by
    funext t
    rw [cooldownAfter, hpaid, Option.any_some, hexpires]
    rfl
  rw [paidFor] at hpaid
  rcases hpayment : payCost options automation step world.resources with e | result
  · rw [hpayment] at hpaid
    cases hpaid
  · rw [hpayment] at hspend hpaid
    obtain rfl : result = some paid := hpaid
    rw [hrest]
    exact evaluates_of_paid (hprepare.trans (run_bind_ok hspend _)) hstate hfree hexpires

end Crossed

end Awake

/-- **An evaluation is a look of the edge trigger**, and the automation fires when the trigger
does. -/
theorem evaluate_seen {look : Look ℚ} (h : lookAt options automation step state world = some look)
    (hfree : Unhindered options automation step cloneStructured pendingEventTriggers state world) :
    Evaluates options automation step cloneStructured pendingEventTriggers state world
      (state.edge.fires look) true (state.edge.next look) := by
  rw [lookAt, Option.ite_none_right_eq_some, Option.map_eq_some_iff] at h
  obtain ⟨⟨hunlock, henabled⟩, holds, hcomparison, rfl⟩ := h
  have hunlocked : options.ensureAutomationUnlocked automation state world.resources =
      .ok true := Outcome.toOption_eq_some_iff.mp hunlock
  replace hcomparison := Outcome.toOption_eq_some_iff.mp hcomparison
  by_cases hquiet : isCooldownActive state step = true ∨
      (holds && !state.edge.remembered) = false
  · have hrest : ¬ state.edge.fires
        (lookSeeing options automation step world.resources holds) = true := by
      intro hfires
      obtain ⟨hawake, hholds, hforgot, -⟩ := fires_iff.mp hfires
      rcases hquiet with hresting | huncrossed
      · exact false_ne_true (hawake.symm.trans hresting)
      · rw [hforgot, Bool.not_false, Bool.and_true] at huncrossed
        exact false_ne_true (huncrossed.symm.trans hholds)
    rw [next_of_not_fires hrest, eq_false_iff.mpr hrest]
    exact evaluate_uncrossed htrigger hunlocked henabled hcomparison hquiet
  · obtain ⟨hresting, hcrossed⟩ : isCooldownActive state step = false ∧
        (holds && !state.edge.remembered) = true := by simpa using hquiet
    obtain ⟨hholds, hforgot⟩ : holds = true ∧ state.edge.remembered = false := by
      simpa using hcrossed
    cases hpaid : paidFor options automation step world.resources with
    | none =>
      have hrest : ¬ state.edge.fires
          (lookSeeing options automation step world.resources holds) = true := by
        intro hfires
        have hpays := (fires_iff.mp hfires).2.2.2
        rw [lookSeeing, hpaid] at hpays
        cases hpays
      have hsame : { state.edge with remembered := state.edge.remembered && holds } =
          state.edge := by
        rw [hforgot, Bool.false_and, ← hforgot]
      rw [next_of_not_fires hrest, eq_false_iff.mpr hrest, lookSeeing, hsame]
      exact evaluate_unpaid htrigger hunlocked henabled hcomparison hresting hcrossed hpaid
    | some paid =>
      have hfires : state.edge.fires
          (lookSeeing options automation step world.resources holds) = true :=
        fires_iff.mpr ⟨hresting, hholds, hforgot, by rw [lookSeeing, hpaid]; rfl⟩
      rw [next_of_fires hfires, hfires]
      exact evaluate_paid htrigger haccepted hunlocked henabled hcomparison hresting hcrossed
        hpaid hfree

end Evaluation

end IdleEngine
