import IdleEngine.Automation.System
import IdleEngine.Command.Delivery
import IdleEngine.Resource.Stored

/-!
# Firing is all or nothing, or not

Up to the cost an evaluation touches nothing that is at stake: the amounts, the queue, and the
step and the cooldown recorded for the automation (`checkTrigger_quiet`). From there on each of the
four steps of firing may be the last one. An evaluation is all or nothing exactly when the event,
the command and the cooldown all go through, or when the steps done before the one that failed have
left no trace.
-/

namespace IdleEngine

open Stateful CommandQueue Performs

variable {n : ℕ}

/-! ### What is at stake -/

/-- The amounts of all resources. -/
def AutomationWorld.amounts (world : AutomationWorld n) (i : Fin n) : ℚ :=
  (world.resources.live i).amount

/-- The step and the cooldown that are recorded for an automation. -/
def AutomationWorld.firingRecord (world : AutomationWorld n) (automation : AutomationDefinition) :
    Option (JsNumber × JsNumber) :=
  (world.automationStates.get? automation.id).map fun state =>
    (state.lastFiredStep, state.cooldownExpiresStep)

/-- What is left of amounts after a charge. -/
def chargedAmounts (amounts : Fin n → ℚ) (charge : Option (Fin n × ℚ)) : Fin n → ℚ :=
  charge.elim amounts fun charge =>
    Function.update amounts charge.1 (amounts charge.1 - charge.2)

section

variable (options : AutomationSystemOptions n) (automation : AutomationDefinition) (step : ℚ)

/-- The full cost of firing, where the automation has one. -/
def automationCost (resources : ResourceState n) : Option (Fin n × ℚ) :=
  automation.resourceCost.bind fun cost =>
    (automationCharge options step cost resources).toOption.join

/-- The automation has fired: the cost is spent, the command is in the queue, and the step and the
cooldown are recorded. -/
structure Fired (cloneStructured : JsValue → Except String JsValue)
    (world world' : AutomationWorld n) : Prop where
  spent : world'.amounts =
    chargedAmounts world.amounts (automationCost options automation step world.resources)
  queued : ∃ room command payload, world.queue.makeRoom .automation = some room ∧
    automationCommand options automation step world'.resources = .ok command ∧
    cloneStructured command.payload = .ok payload ∧
    world'.queue = room.2.insert { command with payload }
  recorded : ∃ expires, options.cooldownExpires automation step world'.resources = .ok expires ∧
    world'.firingRecord automation = some (.fin step, expires)

/-- Nothing that is at stake has changed. -/
structure Untouched (world world' : AutomationWorld n) : Prop where
  amounts : world'.amounts = world.amounts
  queue : world'.queue = world.queue
  record : world'.firingRecord automation = world.firingRecord automation

/-- One evaluation does all of it or nothing. -/
def AllOrNothing (cloneStructured : JsValue → Except String JsValue)
    (world world' : AutomationWorld n) : Prop :=
  Fired options automation step cloneStructured world world' ∨ Untouched automation world world'

end

/-- The bus takes an event: its type is known, the tick goes on, both buffers have room, and the
payload is valid. -/
def EventBus.Accepts {EventPayload : Type} (bus : EventBus EventPayload) (eventType : String)
    (payload : EventPayload) : Prop :=
  ∃ channel, bus.channels[bus.channels.findIdx fun channel => channel.type == eventType]? =
      some channel ∧ bus.tickAborted = false ∧
    EventBus.isAtCapacity channel channel.internalBuffer = false ∧
    EventBus.isAtCapacity channel channel.outboundBuffer = false ∧
    channel.validator payload = none

theorem EventBus.publish_ok_iff {EventPayload : Type} {bus : EventBus EventPayload}
    {eventType : String} {payload : EventPayload} {issuedAt : Option ℚ} :
    (bus.publish eventType payload issuedAt).1 = .ok () ↔ bus.Accepts eventType payload := by
  unfold EventBus.publish EventBus.Accepts
  dsimp only
  cases bus.channels[bus.channels.findIdx fun channel => channel.type == eventType]? with
  | none => simp
  | some channel =>
    simp only [Option.some.injEq, exists_eq_left']
    cases bus.tickAborted <;>
      cases isAtCapacity channel channel.internalBuffer <;>
      cases isAtCapacity channel channel.outboundBuffer <;>
      cases channel.validator payload <;> simp

/-- An evaluation that has not come to the cost yet: the stores are untouched. -/
structure Quiet (automation : AutomationDefinition) (world world' : AutomationWorld n) : Prop where
  resources : world'.resources = world.resources
  queue : world'.queue = world.queue
  events : world'.events = world.events
  record : world'.firingRecord automation = world.firingRecord automation

namespace Quiet

variable {automation : AutomationDefinition}

theorem refl (world : AutomationWorld n) : Quiet automation world world := ⟨rfl, rfl, rfl, rfl⟩

theorem trans {world world' world'' : AutomationWorld n} (h : Quiet automation world world')
    (h' : Quiet automation world' world'') : Quiet automation world world'' where
  resources := h'.resources.trans h.resources
  queue := h'.queue.trans h.queue
  events := h'.events.trans h.events
  record := h'.record.trans h.record

theorem of_performs {α : Type} {m : AutomationM n α} (h : Performs (Quiet automation) m)
    (world : AutomationWorld n) : Quiet automation world (final (m world)) :=
  h.keeps (P := Quiet automation world) (fun _ _ hbase hstep => hbase.trans hstep) (refl world)

end Quiet

variable {α : Type}

theorem run_liftResult_ok {result : Except String α} {a : α} (h : result = .ok a)
    (world : AutomationWorld n) : liftResult result world = .ok a world := by
  rw [h]
  rfl

theorem run_liftResult_error {result : Except String α} {e : String} (h : result = .error e)
    (world : AutomationWorld n) :
    (liftResult result : AutomationM n α) world = .error e world := by
  rw [h]
  rfl

/-- What a pure step returns or throws, without a trace. -/
theorem liftResult_performs {step : AutomationWorld n → AutomationWorld n → Prop}
    (result : Except String α) : Performs step (liftResult result : AutomationM n α) := by
  cases result with
  | ok a => exact .pure a
  | error e => exact .throw e

namespace AutomationWorld

variable (world : AutomationWorld n) (automation : AutomationDefinition)
  (change : AutomationState → AutomationState)

theorem withState_stores :
    (world.withState automation change).resources = world.resources ∧
      (world.withState automation change).queue = world.queue ∧
      (world.withState automation change).events = world.events := by
  rw [withState]
  cases world.automationStates.get? automation.id <;> exact ⟨rfl, rfl, rfl⟩

theorem withState_get? :
    (world.withState automation change).automationStates.get? automation.id =
      (world.automationStates.get? automation.id).map change := by
  rw [withState]
  cases h : world.automationStates.get? automation.id with
  | none => exact h
  | some state =>
    change (world.automationStates.set _ _).get? _ = _
    rw [OrderedMap.get?_set, if_pos rfl]
    rfl

/-- What a change of the state does to the record. -/
theorem withState_record {f : JsNumber × JsNumber → JsNumber × JsNumber}
    (hchange : ∀ state, ((change state).lastFiredStep, (change state).cooldownExpiresStep) =
      f (state.lastFiredStep, state.cooldownExpiresStep)) :
    (world.withState automation change).firingRecord automation =
      (world.firingRecord automation).map f := by
  rw [firingRecord, withState_get?, firingRecord, Option.map_map, Option.map_map]
  exact congrArg (fun f => Option.map f _) (funext hchange)

theorem withState_quiet
    (hchange : ∀ state, ((change state).lastFiredStep, (change state).cooldownExpiresStep) =
      (state.lastFiredStep, state.cooldownExpiresStep)) :
    Quiet automation world (world.withState automation change) := by
  obtain ⟨hresources, hqueue, hevents⟩ := world.withState_stores automation change
  have hrecord := world.withState_record automation change (f := id) hchange
  rw [Option.map_id] at hrecord
  exact ⟨hresources, hqueue, hevents, hrecord⟩

end AutomationWorld

section

variable (options : AutomationSystemOptions n) (automation : AutomationDefinition) (step : ℚ)

theorem setAutomationState_performs {change : AutomationState → AutomationState}
    (hchange : ∀ state, ((change state).lastFiredStep, (change state).cooldownExpiresStep) =
      (state.lastFiredStep, state.cooldownExpiresStep)) :
    Performs (Quiet automation) (setAutomationState automation change : AutomationM n Unit) :=
  modify fun world => .single (world.withState_quiet automation change hchange)

theorem updateThresholdStateDuringCooldown_performs :
    Performs (Quiet automation) (updateThresholdStateDuringCooldown options automation step) := by
  unfold updateThresholdStateDuringCooldown
  cases automation.trigger with
  | resourceThreshold resourceId comparator threshold =>
    refine .bind get fun world => ?_
    refine .bind (liftResult_performs _) fun currentlySatisfied => ?_
    split
    · exact .pure _
    · exact setAutomationState_performs automation fun _ => rfl
  | interval interval => exact .pure _
  | commandQueueEmpty => exact .pure _
  | event eventId => exact .pure _

variable (pendingEventTriggers : List String)

theorem evaluateAutomationTrigger_performs (state : AutomationState) :
    Performs (Quiet automation)
      (evaluateAutomationTrigger options automation step pendingEventTriggers state) := by
  unfold evaluateAutomationTrigger
  cases automation.trigger with
  | interval interval =>
    refine .bind get fun world => ?_
    exact .bind (liftResult_performs _) fun _ => pure _
  | resourceThreshold resourceId comparator threshold =>
    refine .bind get fun world => ?_
    refine .bind (liftResult_performs _) fun satisfied => ?_
    dsimp only
    split
    · exact .pure _
    · refine .bind ?_ fun _ => pure _
      exact setAutomationState_performs automation fun _ => rfl
  | commandQueueEmpty => exact .bind get fun _ => pure _
  | event eventId => exact .pure _

/-- **Up to the trigger nothing that is at stake changes.** -/
theorem checkTrigger_performs :
    Performs (Quiet automation) (checkTrigger options automation step pendingEventTriggers) := by
  refine .bind get fun world => ?_
  cases world.automationStates.get? automation.id with
  | none => exact .pure _
  | some state =>
    refine .bind (liftResult_performs _) fun unlocked => ?_
    refine .bind (setAutomationState_performs automation fun _ => rfl) fun _ => ?_
    split
    · exact .pure _
    · split
      · exact .bind (updateThresholdStateDuringCooldown_performs options automation step)
          fun _ => pure _
      · exact .bind
          (evaluateAutomationTrigger_performs options automation step pendingEventTriggers state)
          fun _ => pure _

theorem handleAutomationSpendFailure_performs (thresholdCrossing : Bool) :
    Performs (Quiet automation)
      (handleAutomationSpendFailure automation thresholdCrossing : AutomationM n Unit) := by
  unfold handleAutomationSpendFailure
  cases automation.trigger with
  | resourceThreshold resourceId comparator threshold =>
    dsimp only
    split
    · exact setAutomationState_performs automation fun _ => rfl
    · exact .pure _
  | event eventId => exact .modify fun _ => .single ⟨rfl, rfl, rfl, rfl⟩
  | interval interval => exact .pure _
  | commandQueueEmpty => exact .pure _

/-! ### The cost -/

/-- The cost has been spent and nothing else has changed. -/
structure Paid (world world' : AutomationWorld n) : Prop where
  amounts : world'.amounts =
    chargedAmounts world.amounts (automationCost options automation step world.resources)
  queue : world'.queue = world.queue
  record : world'.firingRecord automation = world.firingRecord automation

/-- A charge is spent in full, or the attempt leaves no trace. -/
theorem spendCharge_cases (charge : Fin n × ℚ) (world : AutomationWorld n) :
    (∃ resources, spendCharge charge world = .ok true { world with resources } ∧
        AutomationWorld.amounts { world with resources } =
          chargedAmounts world.amounts (some charge)) ∨
      spendCharge charge world = .ok false world ∨
      ∃ e, spendCharge charge world = .error e world := by
  unfold spendCharge
  rw [run_get_bind]
  cases hspend : world.resources.spendAmount charge.1 (.fin charge.2) with
  | error e => exact .inr (.inr ⟨e, rfl⟩)
  | ok spent =>
    rw [run_bind_ok (run_liftResult_ok rfl world)]
    obtain ⟨x, hx, -, ⟨hfail, hsame, -⟩ | ⟨hdone, -, hstored⟩⟩ := ResourceState.spendAmount_ok hspend
    · refine .inr (.inl ?_)
      rw [hfail, hsame]
      rfl
    · obtain rfl := JsNumber.fin.inj hx
      refine .inl ⟨spent.2, ?_, funext fun i => ?_⟩
      · rw [hdone]
        rfl
      · change (spent.2.stored i).amount =
          Function.update world.amounts charge.1 (world.amounts charge.1 - charge.2) i
        rw [hstored]
        rcases eq_or_ne i charge.1 with rfl | hne
        · rw [Function.update_self, Function.update_self]
          rfl
        · rw [Function.update_of_ne hne, Function.update_of_ne hne]
          rfl

/-- **The cost is spent in full, or the attempt leaves no trace.** -/
theorem trySpendAutomationResourceCost_cases (world : AutomationWorld n) :
    (∃ world', trySpendAutomationResourceCost options automation step world = .ok true world' ∧
        Paid options automation step world world') ∨
      trySpendAutomationResourceCost options automation step world = .ok false world ∨
      ∃ e, trySpendAutomationResourceCost options automation step world = .error e world := by
  unfold trySpendAutomationResourceCost
  cases hcost : automation.resourceCost with
  | none =>
    refine .inl ⟨world, rfl, ?_, rfl, rfl⟩
    rw [automationCost, hcost]
    rfl
  | some cost =>
    dsimp only
    rw [run_get_bind]
    cases hcharge : automationCharge options step cost world.resources with
    | error e => exact .inr (.inr ⟨e, rfl⟩)
    | ok charge =>
      rw [run_bind_ok (run_liftResult_ok rfl world)]
      cases charge with
      | none => exact .inr (.inl rfl)
      | some charge =>
        rcases spendCharge_cases charge world with ⟨resources, hrun, hamounts⟩ | hfail | herror
        · refine .inl ⟨_, hrun, ?_, rfl, rfl⟩
          rw [hamounts, automationCost, hcost, Option.bind_some, hcharge]
          rfl
        · exact .inr (.inl hfail)
        · exact .inr (.inr herror)

variable {world world' : AutomationWorld n}

theorem Quiet.untouched {automation : AutomationDefinition} (h : Quiet automation world world') :
    Untouched automation world world' where
  amounts := by
    funext i
    rw [AutomationWorld.amounts, h.resources]
    rfl
  queue := h.queue
  record := h.record

/-- Where an evaluation was quiet first, the cost it pays then is the cost it had at the start. -/
theorem Quiet.paid {options : AutomationSystemOptions n} {automation : AutomationDefinition}
    {step : ℚ} {world'' : AutomationWorld n} (h : Quiet automation world world')
    (hpaid : Paid options automation step world' world'') :
    Paid options automation step world world'' where
  amounts := by
    have hamounts := hpaid.amounts
    rwa [h.resources, h.untouched.amounts] at hamounts
  queue := hpaid.queue.trans h.queue
  record := hpaid.record.trans h.record

/-- The automation goes on to fire: it is unlocked and enabled, not in its cooldown, its trigger
has fired, and its cost is spent. -/
def GoesOn (pendingEventTriggers : List String) (world : AutomationWorld n) (crossing : Bool)
    (world' : AutomationWorld n) : Prop :=
  prepareFiring options automation step pendingEventTriggers world = .ok (some crossing) world'

/-- **Before the event the cost is spent in full and the automation goes on to fire, or nothing that
is at stake has changed.** -/
theorem prepareFiring_cases (world : AutomationWorld n) :
    (∃ crossing world', GoesOn options automation step pendingEventTriggers world crossing world' ∧
        Paid options automation step world world') ∨
      Quiet automation world
          (final (prepareFiring options automation step pendingEventTriggers world)) ∧
        ∀ crossing world',
          ¬ GoesOn options automation step pendingEventTriggers world crossing world' := by
  unfold GoesOn prepareFiring
  have hcheck := Quiet.of_performs
    (checkTrigger_performs options automation step pendingEventTriggers) world
  cases hrun : checkTrigger options automation step pendingEventTriggers world with
  | error e world₁ =>
    rw [hrun] at hcheck
    rw [run_bind_error hrun]
    exact .inr ⟨hcheck, fun _ _ h => by cases h⟩
  | ok triggered world₁ =>
    rw [hrun] at hcheck
    rw [run_bind_ok hrun]
    cases triggered with
    | none => exact .inr ⟨hcheck, fun _ _ h => by cases h⟩
    | some crossing =>
      change (∃ c w, payForFiring options automation step crossing world₁ = .ok (some c) w ∧ _) ∨
        Quiet automation world (final (payForFiring options automation step crossing world₁)) ∧
          ∀ c w, ¬ payForFiring options automation step crossing world₁ = .ok (some c) w
      unfold payForFiring
      rcases trySpendAutomationResourceCost_cases options automation step world₁ with
        ⟨world₂, hspend, hpaid⟩ | hspend | ⟨e, hspend⟩
      · rw [run_bind_ok hspend]
        exact .inl ⟨crossing, world₂, rfl, hcheck.paid hpaid⟩
      · rw [run_bind_ok hspend]
        simp only [Bool.false_eq_true, if_false]
        have hfail := Quiet.of_performs (handleAutomationSpendFailure_performs automation crossing)
          world₁
        cases hhandle : handleAutomationSpendFailure automation crossing world₁ with
        | ok _ world₂ =>
          rw [hhandle] at hfail
          rw [run_bind_ok hhandle]
          exact .inr ⟨hcheck.trans hfail, fun _ _ h => by cases h⟩
        | error e world₂ =>
          rw [hhandle] at hfail
          rw [run_bind_error hhandle]
          exact .inr ⟨hcheck.trans hfail, fun _ _ h => by cases h⟩
      · rw [run_bind_error hspend]
        exact .inr ⟨hcheck, fun _ _ h => by cases h⟩

/-! ### The four steps of firing -/

/-- What an evaluation has left of the stores. -/
structure Leaves (world world' : AutomationWorld n) (queue : CommandQueue JsValue)
    (record : Option (JsNumber × JsNumber)) : Prop where
  resources : world'.resources = world.resources
  queue : world'.queue = queue
  record : world'.firingRecord automation = record

theorem run_setAutomationState (change : AutomationState → AutomationState)
    (world : AutomationWorld n) :
    setAutomationState automation change world =
      .ok () (world.withState automation change) := rfl

/-- The step is recorded, and the cooldown if its formula has a value. -/
theorem recordFiring_leaves (thresholdCrossing : Bool) (world : AutomationWorld n) :
    Leaves automation world
      (final (recordFiring options automation step thresholdCrossing world)) world.queue
      ((world.firingRecord automation).map fun record =>
        (.fin step, (options.cooldownExpires automation step world.resources).toOption.getD
          record.2)) := by
  unfold recordFiring
  rw [run_bind_ok (run_setAutomationState automation _ world)]
  obtain ⟨hresources, hqueue, -⟩ := world.withState_stores automation fun state =>
    { state with lastFiredStep := .fin step }
  have hrecord := world.withState_record automation
    (fun state => { state with lastFiredStep := .fin step })
    (f := fun record => (.fin step, record.2)) fun _ => rfl
  generalize world.withState automation _ = stepped at hresources hqueue hrecord
  unfold updateCooldown
  rw [bind_assoc, run_get_bind, bind_assoc]
  cases hexpires : options.cooldownExpires automation step world.resources with
  | error e =>
    rw [run_bind_error (run_liftResult_error (hresources ▸ hexpires) stepped)]
    exact ⟨hresources, hqueue, hrecord⟩
  | ok expires =>
    rw [run_bind_ok (run_liftResult_ok (hresources ▸ hexpires) stepped),
      run_bind_ok (run_setAutomationState automation _ stepped)]
    obtain ⟨hresources', hqueue', -⟩ := stepped.withState_stores automation fun state =>
      { state with cooldownExpiresStep := expires }
    have hrecord' := stepped.withState_record automation
      (fun state => { state with cooldownExpiresStep := expires })
      (f := fun record => (record.1, expires)) fun _ => rfl
    generalize stepped.withState automation _ = cooled at hresources' hqueue' hrecord'
    have hlast : Quiet automation cooled (final ((if thresholdCrossing then
        setAutomationState automation fun state => { state with lastThresholdSatisfied := some true }
      else pure () : AutomationM n Unit) cooled)) := by
      refine Quiet.of_performs ?_ cooled
      split
      · exact setAutomationState_performs automation fun _ => rfl
      · exact .pure _
    refine ⟨hlast.resources.trans (hresources'.trans hresources),
      hlast.queue.trans (hqueue'.trans hqueue), ?_⟩
    rw [hlast.record, hrecord', hrecord, Option.map_map]
    rfl

/-- The world after the event was published or refused. -/
def afterEvent (world : AutomationWorld n) : AutomationWorld n :=
  { world with
    events := (world.events.publish "automation:fired" (firedPayload automation step) none).2 }

theorem publishFired_accepted
    (h : world.events.Accepts "automation:fired" (firedPayload automation step)) :
    publishFired automation step world = .ok () (afterEvent automation step world) :=
  run_liftResult_ok (EventBus.publish_ok_iff.mpr h) _

theorem publishFired_refused
    (h : ¬ world.events.Accepts "automation:fired" (firedPayload automation step)) :
    ∃ e, publishFired automation step world = .error e (afterEvent automation step world) := by
  have hnot : (world.events.publish "automation:fired" (firedPayload automation step) none).1 ≠
      .ok () := fun hok => h (EventBus.publish_ok_iff.mp hok)
  cases hpublish : (world.events.publish "automation:fired" (firedPayload automation step) none).1
    with
  | ok _ => exact absurd hpublish hnot
  | error e => exact ⟨e, run_liftResult_error hpublish _⟩

/-- The command types that automations use. -/
def automationCommandTypes : List String :=
  ["TOGGLE_GENERATOR", "PURCHASE_UPGRADE", "PURCHASE_GENERATOR", "COLLECT_RESOURCE"] ++
    systemAutomationTargetMapping.map Prod.snd

theorem mapSystemTargetToCommandType_mem {systemTargetId commandType : String}
    (h : mapSystemTargetToCommandType systemTargetId = .ok commandType) :
    commandType ∈ systemAutomationTargetMapping.map Prod.snd := by
  unfold mapSystemTargetToCommandType at h
  cases hlookup : systemAutomationTargetMapping.lookup systemTargetId with
  | none =>
    rw [hlookup] at h
    cases h
  | some found =>
    rw [hlookup] at h
    obtain rfl := Except.ok.inj h
    obtain ⟨before, after, hsplit, -⟩ := List.lookup_eq_some_iff.mp hlookup
    rw [hsplit]
    simp

theorem automationTarget_commandType {context : FormulaContext} {target : AutomationTarget}
    (h : automationTarget automation context = .ok target) :
    target.commandType ∈ automationCommandTypes := by
  unfold automationTarget at h
  cases htype : automation.targetType with
  | generator =>
    rw [htype] at h
    obtain rfl := Except.ok.inj h
    simp [automationCommandTypes]
  | upgrade =>
    rw [htype] at h
    obtain rfl := Except.ok.inj h
    simp [automationCommandTypes]
  | purchaseGenerator =>
    rw [htype] at h
    obtain ⟨rawCount, -, rfl⟩ := Outcome.map_ok h
    simp [automationCommandTypes]
  | collectResource =>
    rw [htype] at h
    obtain ⟨rawAmount, -, rfl⟩ := Outcome.map_ok h
    simp [automationCommandTypes]
  | system =>
    rw [htype] at h
    obtain ⟨commandType, hmap, rfl⟩ := Outcome.map_ok h
    exact List.mem_append_right _ (mapSystemTargetToCommandType_mem hmap)

variable {command : Command JsValue}

theorem automationCommand_authorized {resources : ResourceState n}
    (h : automationCommand options automation step resources = .ok command) :
    authorizeCommand command = true ∧ command.priority = .automation := by
  obtain ⟨target, htarget, rfl⟩ := Outcome.map_ok h
  refine ⟨?_, rfl⟩
  have htypes : ∀ commandType ∈ automationCommandTypes,
      ((commandAuthorizations.lookup commandType).all fun allowed =>
        allowed.contains .automation) = true := by decide
  have hallowed := htypes _ (automationTarget_commandType automation htarget)
  unfold authorizeCommand
  dsimp only
  cases hlookup : commandAuthorizations.lookup target.commandType with
  | none => rfl
  | some allowed =>
    rw [hlookup] at hallowed
    exact hallowed

variable (cloneStructured : JsValue → Except String JsValue)

theorem enqueue_invalid {e : String}
    (h : automationCommand options automation step world.resources = .error e) :
    enqueueAutomationCommand options automation step cloneStructured world = .error e world := by
  unfold enqueueAutomationCommand
  rw [run_get_bind, run_bind_error (run_liftResult_error h world)]

theorem enqueue_rejected
    (h : automationCommand options automation step world.resources = .ok command)
    (hroom : world.queue.makeRoom .automation = none) :
    enqueueAutomationCommand options automation step cloneStructured world = .ok () world := by
  obtain ⟨hauthorized, hpriority⟩ := automationCommand_authorized options automation step h
  have henqueue : world.queue.enqueue cloneStructured command = (.ok false, world.queue) := by
    rw [enqueue, hauthorized, if_neg (by decide), hpriority, hroom]
  unfold enqueueAutomationCommand
  rw [run_get_bind, run_bind_ok (run_liftResult_ok h world), henqueue]
  rfl

variable {room : Option (CommandQueueEntry JsValue) × CommandQueue JsValue}

theorem enqueue_not_cloned {e : String}
    (h : automationCommand options automation step world.resources = .ok command)
    (hroom : world.queue.makeRoom .automation = some room)
    (hclone : cloneStructured command.payload = .error e) :
    enqueueAutomationCommand options automation step cloneStructured world =
      .error e { world with queue := room.2 } := by
  obtain ⟨hauthorized, hpriority⟩ := automationCommand_authorized options automation step h
  have henqueue : world.queue.enqueue cloneStructured command = (.error e, room.2) := by
    rw [enqueue, hauthorized, if_neg (by decide), hpriority, hroom]
    dsimp only
    rw [hclone]
  unfold enqueueAutomationCommand
  rw [run_get_bind, run_bind_ok (run_liftResult_ok h world), henqueue]
  rfl

theorem enqueue_accepted {payload : JsValue}
    (h : automationCommand options automation step world.resources = .ok command)
    (hroom : world.queue.makeRoom .automation = some room)
    (hclone : cloneStructured command.payload = .ok payload) :
    enqueueAutomationCommand options automation step cloneStructured world =
      .ok () { world with queue := room.2.insert { command with payload } } := by
  obtain ⟨hauthorized, hpriority⟩ := automationCommand_authorized options automation step h
  have henqueue : world.queue.enqueue cloneStructured command =
      (.ok true, room.2.insert { command with payload }) := by
    rw [enqueue, hauthorized, if_neg (by decide), hpriority, hroom]
    dsimp only
    rw [hclone]
  unfold enqueueAutomationCommand
  rw [run_get_bind, run_bind_ok (run_liftResult_ok h world), henqueue]
  rfl

/-! ### When an evaluation is all or nothing -/

/-- The event, the command and the cooldown go through. -/
structure GoesThrough (world : AutomationWorld n) : Prop where
  event : world.events.Accepts "automation:fired" (firedPayload automation step)
  command : ∃ command payload,
    automationCommand options automation step world.resources = .ok command ∧
      cloneStructured command.payload = .ok payload
  room : (world.queue.makeRoom .automation).isSome = true
  cooldown : ∃ expires, options.cooldownExpires automation step world.resources = .ok expires

/-- What fails does so before anything was changed: the event is refused, the command cannot be
built, or it cannot be copied and no other command was dropped for it; or the queue rejects it and
the step and the cooldown were already recorded. -/
inductive LeavesNoTrace (world : AutomationWorld n) : Prop
  | event (h : ¬ world.events.Accepts "automation:fired" (firedPayload automation step))
  | command (e : String)
      (h : automationCommand options automation step world.resources = .error e)
  | clone (command : Command JsValue) (e : String)
      (room : Option (CommandQueueEntry JsValue) × CommandQueue JsValue)
      (h : automationCommand options automation step world.resources = .ok command)
      (hclone : cloneStructured command.payload = .error e)
      (hroom : world.queue.makeRoom .automation = some room) (hkept : room.2 = world.queue)
  | rejected (hroom : world.queue.makeRoom .automation = none)
      (hrecord : ((world.firingRecord automation).map fun record =>
        (.fin step, (options.cooldownExpires automation step world.resources).toOption.getD
          record.2)) = world.firingRecord automation)

theorem makeRoom_nextSequence {queue : CommandQueue JsValue} {priority : CommandPriority}
    (h : queue.makeRoom priority = some room) : room.2.nextSequence = queue.nextSequence := by
  unfold makeRoom at h
  split at h
  · rcases dropFrom_cases queue priority commandPriorityOrder.reverse with
      hnone | ⟨p, victim, lane, -, -, hsome⟩
    · simp [dropLowestPriorityUpTo, hnone] at h
    · simp only [dropLowestPriorityUpTo, hsome, Option.some.injEq] at h
      rw [← h]
      rfl
  · rw [← Option.some.inj h]

theorem insert_ne {queue : CommandQueue JsValue} {priority : CommandPriority}
    (h : queue.makeRoom priority = some room) (command : Command JsValue) :
    room.2.insert command ≠ queue := by
  intro heq
  have hnext : room.2.nextSequence + 1 = queue.nextSequence :=
    congrArg nextSequence heq
  rw [makeRoom_nextSequence h] at hnext
  omega

variable {options automation step cloneStructured}

theorem Fired.queue_ne (h : Fired options automation step cloneStructured world world') :
    world'.queue ≠ world.queue := by
  obtain ⟨room, command, payload, hroom, -, -, hqueue⟩ := h.queued
  rw [hqueue]
  exact insert_ne hroom _

/-- All or nothing, where the queue was left as it was. -/
theorem allOrNothing_iff_of_queue {paid : AutomationWorld n} {record : Option (JsNumber × JsNumber)}
    (hpaid : Paid options automation step world paid)
    (hleaves : Leaves automation paid world' paid.queue record) :
    AllOrNothing options automation step cloneStructured world world' ↔
      paid.amounts = world.amounts ∧ record = paid.firingRecord automation := by
  have hqueue : world'.queue = world.queue := hleaves.queue.trans hpaid.queue
  have hamounts : world'.amounts = paid.amounts := by
    funext i
    rw [AutomationWorld.amounts, hleaves.resources]
    rfl
  constructor
  · rintro (hfired | huntouched)
    · exact absurd hqueue hfired.queue_ne
    · exact ⟨hamounts.symm.trans huntouched.amounts,
        hleaves.record.symm.trans (huntouched.record.trans hpaid.record.symm)⟩
  · rintro ⟨hfree, hrecord⟩
    exact .inr ⟨hamounts.trans hfree, hqueue, hleaves.record.trans (hrecord.trans hpaid.record)⟩

/-- **Firing is all or nothing exactly when all goes through, or nothing was spent and nothing was
changed before the failure.** -/
theorem fireAutomation_allOrNothing_iff {paid : AutomationWorld n} (crossing : Bool)
    (hpaid : Paid options automation step world paid)
    (hstate : paid.firingRecord automation ≠ none) :
    AllOrNothing options automation step cloneStructured world
        (final (fireAutomation options automation step cloneStructured crossing paid)) ↔
      GoesThrough options automation step cloneStructured paid ∨
        paid.amounts = world.amounts ∧
          LeavesNoTrace options automation step cloneStructured paid := by
  have htold : Paid options automation step world (afterEvent automation step paid) :=
    ⟨hpaid.amounts, hpaid.queue, hpaid.record⟩
  -- the firing is followed to the first thing that fails
  unfold fireAutomation
  by_cases haccepts : paid.events.Accepts "automation:fired" (firedPayload automation step)
  case neg =>
    obtain ⟨e, hpublish⟩ := publishFired_refused automation step haccepts
    rw [run_bind_error hpublish]
    refine (allOrNothing_iff_of_queue htold ⟨rfl, rfl, rfl⟩).trans
      ⟨fun h => .inr ⟨h.1, .event haccepts⟩, fun h => ⟨?_, rfl⟩⟩
    exact h.elim (fun h => absurd h.event haccepts) And.left
  rw [run_bind_ok (publishFired_accepted automation step haccepts)]
  cases hcommand : automationCommand options automation step
      (afterEvent automation step paid).resources with
  | error e =>
    rw [run_bind_error (enqueue_invalid options automation step cloneStructured hcommand)]
    refine (allOrNothing_iff_of_queue htold ⟨rfl, rfl, rfl⟩).trans
      ⟨fun h => .inr ⟨h.1, .command e hcommand⟩, fun h => ⟨h.elim (fun h => ?_) And.left, rfl⟩⟩
    obtain ⟨command, -, hbuilt, -⟩ := h.command
    cases hcommand.symm.trans hbuilt
  | ok command =>
    cases hroom : (afterEvent automation step paid).queue.makeRoom .automation with
    | none =>
      -- a full queue turns the command away, but the firing is still recorded
      rw [run_bind_ok (enqueue_rejected options automation step cloneStructured hcommand hroom)]
      refine (allOrNothing_iff_of_queue htold
        (recordFiring_leaves options automation step crossing _)).trans
        ⟨fun h => .inr ⟨h.1, .rejected hroom h.2⟩, ?_⟩
      rintro (hthrough | ⟨hfree, hevent | ⟨e, herror⟩ | ⟨_, _, room, _, _, hsome, _⟩ | ⟨_, hrecord⟩⟩)
      · cases (congrArg Option.isSome hroom).symm.trans hthrough.room
      · exact absurd haccepts hevent
      · cases hcommand.symm.trans herror
      · cases hroom.symm.trans hsome
      · exact ⟨hfree, hrecord⟩
    | some room =>
      -- room is made before the payload is cloned: another command may be gone by then
      cases hclone : cloneStructured command.payload with
      | error e =>
        rw [run_bind_error
          (enqueue_not_cloned options automation step cloneStructured hcommand hroom hclone)]
        constructor
        · rintro (hfired | huntouched)
          · obtain ⟨_, _, _, -, hbuilt, hcloned, -⟩ := hfired.queued
            obtain rfl := Except.ok.inj (hcommand.symm.trans hbuilt)
            cases hclone.symm.trans hcloned
          · exact .inr ⟨huntouched.amounts, .clone command e room hcommand hclone hroom
              (huntouched.queue.trans hpaid.queue.symm)⟩
        · rintro (hthrough | ⟨hfree, hevent | ⟨_, herror⟩ | ⟨_, _, room', _, _, hsome, hkept⟩ |
            ⟨hnone, _⟩⟩)
          · obtain ⟨_, _, hbuilt, hcloned⟩ := hthrough.command
            obtain rfl := Except.ok.inj (hcommand.symm.trans hbuilt)
            cases hclone.symm.trans hcloned
          · exact absurd haccepts hevent
          · cases hcommand.symm.trans herror
          · obtain rfl := Option.some.inj (hroom.symm.trans hsome)
            exact .inr ⟨hfree, hkept.trans hpaid.queue, hpaid.record⟩
          · cases hroom.symm.trans hnone
      | ok payload =>
        rw [run_bind_ok
          (enqueue_accepted options automation step cloneStructured hcommand hroom hclone)]
        -- the command is queued; only the cooldown can still fail to evaluate
        have hleaves := recordFiring_leaves options automation step crossing
          { afterEvent automation step paid with
            queue := room.2.insert { command with payload } }
        have hresources : (final (recordFiring options automation step crossing
            { afterEvent automation step paid with
              queue := room.2.insert { command with payload } })).resources = paid.resources :=
          hleaves.resources
        constructor
        · rintro (hfired | huntouched)
          · obtain ⟨expires, hexpires, -⟩ := hfired.recorded
            rw [hresources] at hexpires
            exact .inl ⟨haccepts, ⟨command, payload, hcommand, hclone⟩,
              Option.isSome_iff_exists.mpr ⟨room, hroom⟩, ⟨expires, hexpires⟩⟩
          · have hsame := hleaves.queue.symm.trans (huntouched.queue.trans hpaid.queue.symm)
            exact absurd hsame (insert_ne hroom _)
        · rintro (hthrough | ⟨_, hevent | ⟨_, herror⟩ | ⟨_, _, _, hbuilt, hfailed, _, _⟩ |
            ⟨hnone, _⟩⟩)
          · obtain ⟨expires, hexpires⟩ := hthrough.cooldown
            refine .inl ⟨?_, ?_, expires, ?_, ?_⟩
            · funext i
              rw [AutomationWorld.amounts, hresources]
              exact congrFun hpaid.amounts i
            · refine ⟨room, command, payload, ?_, ?_, hclone, hleaves.queue⟩
              · rw [← hpaid.queue]
                exact hroom
              · rw [hresources]
                exact hcommand
            · rw [hresources]
              exact hexpires
            · obtain ⟨record, hrecord⟩ := Option.ne_none_iff_exists'.mp hstate
              rw [hleaves.record]
              change Option.map _ (paid.firingRecord automation) = _
              rw [hrecord]
              change some (JsNumber.fin step, (options.cooldownExpires automation step
                paid.resources).toOption.getD record.2) = _
              rw [hexpires]
              rfl
          · exact absurd haccepts hevent
          · cases hcommand.symm.trans herror
          · obtain rfl := Except.ok.inj (hcommand.symm.trans hbuilt)
            cases hclone.symm.trans hfailed
          · cases hroom.symm.trans hnone

end

/-! ### The whole evaluation -/

section

variable (options : AutomationSystemOptions n) (automation : AutomationDefinition) (step : ℚ)

theorem GoesOn.firingRecord {pendingEventTriggers : List String} {world world' : AutomationWorld n}
    {crossing : Bool}
    (h : GoesOn options automation step pendingEventTriggers world crossing world') :
    world.firingRecord automation ≠ none := by
  intro hnone
  have hstate : world.automationStates.get? automation.id = none := Option.map_eq_none_iff.mp hnone
  have hcheck : checkTrigger options automation step pendingEventTriggers world =
      .ok none world := by
    unfold checkTrigger
    rw [run_get_bind, hstate]
    rfl
  unfold GoesOn prepareFiring at h
  rw [run_bind_ok hcheck] at h
  cases h

/-- **One evaluation is all or nothing exactly when the automation does not go on to fire, or all
goes through, or nothing was spent and nothing was changed before the failure.** -/
theorem processAutomationTick_allOrNothing_iff (cloneStructured : JsValue → Except String JsValue)
    (pendingEventTriggers : List String) (world : AutomationWorld n) :
    AllOrNothing options automation step cloneStructured world
        (final (processAutomationTick options automation step cloneStructured pendingEventTriggers
          world)) ↔
      ∀ crossing paid,
        GoesOn options automation step pendingEventTriggers world crossing paid →
          GoesThrough options automation step cloneStructured paid ∨
            chargedAmounts world.amounts (automationCost options automation step world.resources) =
                world.amounts ∧
              LeavesNoTrace options automation step cloneStructured paid := by
  unfold processAutomationTick
  rcases prepareFiring_cases options automation step pendingEventTriggers world with
    ⟨crossing, paid, hgoes, hpaid⟩ | ⟨hquiet, hstays⟩
  · have hstate : paid.firingRecord automation ≠ none := by
      rw [hpaid.record]
      exact hgoes.firingRecord options automation step
    rw [run_bind_ok hgoes]
    refine (fireAutomation_allOrNothing_iff crossing hpaid hstate).trans ?_
    rw [hpaid.amounts]
    constructor
    · rintro h _ _ hgoes'
      obtain ⟨hsame, rfl⟩ := EStateM.Result.ok.inj (hgoes.symm.trans hgoes')
      exact h
    · exact fun h => h crossing paid hgoes
  · refine iff_of_true (.inr ?_) fun crossing paid hgoes => absurd hgoes (hstays crossing paid)
    cases hprepare : prepareFiring options automation step pendingEventTriggers world with
    | error e paid =>
      rw [run_bind_error hprepare]
      rw [hprepare] at hquiet
      exact hquiet.untouched
    | ok prepared paid =>
      rw [hprepare] at hquiet
      cases prepared with
      | some crossing => exact absurd hprepare (hstays crossing paid)
      | none =>
        rw [run_bind_ok hprepare]
        exact hquiet.untouched

end

/-! ### A full queue -/

/-- An automation that pays 5 gold to buy a generator once a second. -/
def minerAutomation : AutomationDefinition where
  id := "auto:miner"
  trigger := .interval (.constant (.fin 1000))
  targetType := .purchaseGenerator
  targetId := some "mine"
  systemTargetId := none
  targetEnabled := none
  targetCount := none
  targetAmount := none
  cooldown := none
  resourceCost := some ⟨"gold", .constant (.fin 5)⟩
  unlockCondition := .always
  enabledByDefault := true

def minerOptions : AutomationSystemOptions 1 where
  automations := [minerAutomation]
  stepDurationMs := 100
  hasResourceIndex := true
  hasSpendAmount := true
  conditionContext := none
  isAutomationUnlocked := none

theorem smallQueue_pos : (0 : ℚ) < 1 := by decide

/-- A queue for one command that holds a command of the player. -/
def fullQueue : CommandQueue JsValue :=
  (CommandQueue.empty 1 smallQueue_pos).insert
    { type := "PURCHASE_UPGRADE", priority := .player, payload := .undefined,
      timestamp := ((0 : ℚ) : WithTop ℚ), step := .fin 3, requestId := none }

/-- The bus with the channel of the event. -/
def minerBus : EventBus JsValue where
  channels := [{
    type := "automation:fired", capacity := 1, capacity_pos := smallQueue_pos
    validator := fun _ => none, internalBuffer := [], outboundBuffer := [], subscribers := [] }]
  currentTick := 3
  dispatchCounter := 0
  tickAborted := false
  lastOverflowError := none
  now := 300

/-- There are 10 gold, and the automation has never fired. -/
def minerWorld : AutomationWorld 1 where
  automationStates := OrderedMap.empty.set "auto:miner" ⟨true, .negInf, .fin 0, true, none⟩
  resources := ResourceState.initial (fun _ => "gold") .default fun _ =>
    { blankRow with amount := 10 }
  queue := fullQueue
  events := minerBus
  retainedEventTriggers := []

/-- The queue rejects the command, and the gold is spent. -/
theorem minerWorld_keeps_cost :
    ¬ AllOrNothing minerOptions minerAutomation 3 .ok minerWorld
      (final (processAutomationTick minerOptions minerAutomation 3 .ok [] minerWorld)) ∧
    (∀ i, minerWorld.amounts i = 10) ∧
    (∀ i, (final (processAutomationTick minerOptions minerAutomation 3 .ok [] minerWorld)).amounts i
      = 5) ∧
    (final (processAutomationTick minerOptions minerAutomation 3 .ok [] minerWorld)).queue =
      minerWorld.queue := by
  have hqueue : (final (processAutomationTick minerOptions minerAutomation 3 .ok []
      minerWorld)).queue = minerWorld.queue := rfl
  have hbefore : ∀ i, minerWorld.amounts i = 10 := fun _ => rfl
  have hafter : ∀ i, (final (processAutomationTick minerOptions minerAutomation 3 .ok []
      minerWorld)).amounts i = 5 := by decide +kernel
  refine ⟨?_, hbefore, hafter, hqueue⟩
  rintro (hfired | huntouched)
  · exact hfired.queue_ne hqueue
  · have hkept := congrFun huntouched.amounts ⟨0, by decide⟩
    rw [hafter, hbefore] at hkept
    exact absurd hkept (by decide)

end IdleEngine
