import IdleEngine.Runtime.Handler

/-!
# The fixed-step tick loop

`runTickStep` is one step: start the bus tick, capture and execute the commands of the step,
dispatch, then tick every system with a dispatch after each, and only then advance the step
counter. Errors of command handlers and systems are caught where they run; an error out of a
dispatch leaves the step and the batch.

`drainAccumulator` debits a batch of steps from the backlog before it runs the batch, and looks
again afterwards, since handlers may have credited time.
-/

namespace IdleEngine

variable {Payload EventPayload World : Type}

theorem defaultStepMs_pos : (0 : ℚ) < 100 := by norm_num

/-- What a runtime is built from: its step size and frame budget, and the handlers and systems
registered with it. -/
structure RuntimeConfig (Payload EventPayload World : Type) where
  stepSizeMs : ℚ
  stepSizeMs_pos : 0 < stepSizeMs
  maxStepsPerFrame : ℚ
  cloneStructured : Payload → Except String Payload
  commandHandlers : String → Option (Command Payload → HandlerProgram Payload EventPayload World)
  eventHandlers : ℕ → EventSlot EventPayload → HandlerProgram Payload EventPayload World
  systems : List (ℚ → HandlerProgram Payload EventPayload World)

namespace RuntimeConfig

variable (config : RuntimeConfig Payload EventPayload World)

/-- `executeWithResult`: unknown and unauthorized commands do nothing, a handler's error is
recorded and not rethrown. -/
def executeWithResult (command : Command Payload) : RuntimeM Payload EventPayload World PUnit :=
  match config.commandHandlers command.type with
  | none => pure ⟨⟩
  | some handler =>
      if authorizeCommand command = false then pure ⟨⟩
      else tryCatchThe String ((handler command).run config.cloneStructured) fun _ => pure ⟨⟩

/-- Take the commands due now; what is queued from here on is for the next step. -/
def dequeueCommandsForCurrentStep : RuntimeM Payload EventPayload World (List (Command Payload)) := do
  modify fun s => { s with nextExecutableStep := s.currentStep }
  let s ← get
  let (commands, commandQueue) := s.commandQueue.dequeueUpToStep (.fin s.currentStep)
  modify fun s => { s with commandQueue, nextExecutableStep := s.currentStep + 1 }
  return commands

/-- Execute the captured commands that are stamped with the current step; skip the others. -/
def executeCommandsForCurrentStep (commands : List (Command Payload)) :
    RuntimeM Payload EventPayload World PUnit :=
  commands.forM fun command => do
    let s ← get
    if command.step ≠ .fin s.currentStep then pure ⟨⟩
    else config.executeWithResult command

/-- Hand one event to the active subscribers of its channel. -/
def dispatchSlot (channelIndex : ℕ) (slot : EventSlot EventPayload) :
    RuntimeM Payload EventPayload World PUnit := do
  let s ← get
  let subscribers := (s.eventBus.channels[channelIndex]?).elim [] (·.subscribers)
  subscribers.forM fun subscriber =>
    if subscriber.active then
      (config.eventHandlers subscriber.handler slot).run config.cloneStructured
    else pure ⟨⟩

/-- The dispatch loop; `cursors` counts the events already dispatched per channel. -/
def dispatchLoop : ℕ → List ℕ → RuntimeM Payload EventPayload World PUnit
  | 0, _ => pure ⟨⟩
  | fuel + 1, cursors => do
      let s ← get
      match s.eventBus.findNextDispatchCandidate cursors with
      | none => pure ⟨⟩
      | some (channelIndex, slot) => do
          config.dispatchSlot channelIndex slot
          dispatchLoop fuel (cursors.modify channelIndex (· + 1))

/-- `eventBus.dispatch`: a handler that throws leaves the buffers as they are. -/
def dispatch : RuntimeM Payload EventPayload World PUnit := do
  let s ← get
  config.dispatchLoop s.eventBus.totalCapacity (List.replicate s.eventBus.channels.length 0)
  modify fun s => { s with eventBus := s.eventBus.clearInternalBuffers }

/-- `tickSystem`: a system's error is recorded and not rethrown. -/
def tickSystem (system : ℚ → HandlerProgram Payload EventPayload World) :
    RuntimeM Payload EventPayload World PUnit := do
  let s ← get
  tryCatchThe String ((system s.currentStep).run config.cloneStructured) fun _ => pure ⟨⟩

/-- Every system in registration order, with a dispatch after each. -/
def tickSystems : RuntimeM Payload EventPayload World PUnit :=
  config.systems.forM fun system => do
    config.tickSystem system
    config.dispatch

/-- Everything a step does before the step counter moves. -/
def runStepBody (resetOutbound : Bool) : RuntimeM Payload EventPayload World PUnit := do
  modify fun s =>
    { s with
      eventBus := { s.eventBus with now := s.currentStep * config.stepSizeMs }.beginTick
        s.currentStep resetOutbound }
  let commands ← dequeueCommandsForCurrentStep
  config.executeCommandsForCurrentStep commands
  config.dispatch
  config.tickSystems

/-- One step. The outbound buffers are reset by the first step of a batch only. -/
def runTickStep (resetOutbound : Bool) : RuntimeM Payload EventPayload World Bool := do
  config.runStepBody resetOutbound
  modify fun s =>
    { s with currentStep := s.currentStep + 1, nextExecutableStep := s.currentStep + 1 }
  return false

/-- The rest of a batch: the steps to go and those processed. -/
def runTickBatchLoop : ℕ → Bool → ℕ → RuntimeM Payload EventPayload World ℕ
  | 0, _, processedSteps => pure processedSteps
  | stepCount + 1, resetOutbound, processedSteps => do
      let resetOutbound ← config.runTickStep resetOutbound
      runTickBatchLoop stepCount resetOutbound (processedSteps + 1)

/-- A batch of steps. -/
def runTickBatch (stepCount : ℕ) : RuntimeM Payload EventPayload World ℕ :=
  config.runTickBatchLoop stepCount true 0

/-- The steps of the next batch: the whole steps available, within the remaining budget. -/
def drainSteps (s : RuntimeState Payload EventPayload World) (source : BacklogSource)
    (remainingStepBudget : ℕ) : ℕ :=
  (min ⌊s.accumulators.availableMs source / config.stepSizeMs⌋ (remainingStepBudget : ℤ)).toNat

/-- Debit a batch from the backlog, then run it. -/
def runDebitedBatch (source : BacklogSource) (steps : ℕ) :
    RuntimeM Payload EventPayload World ℕ := do
  modify fun s =>
    { s with
      accumulators :=
        s.accumulators.consumeAccumulatorBacklog (steps * config.stepSizeMs) source }
  config.runTickBatch steps

/-- The drain loop. Every round spends at least one step of the remaining budget, so a fuel of
the whole budget suffices. -/
def drainLoop (source : BacklogSource) : ℕ → ℕ → ℕ → RuntimeM Payload EventPayload World ℕ
  | 0, _, processedSteps => pure processedSteps
  | fuel + 1, remainingStepBudget, processedSteps => do
      let s ← get
      let steps := config.drainSteps s source remainingStepBudget
      if steps = 0 then pure processedSteps
      else do
        let ran ← config.runDebitedBatch source steps
        drainLoop source fuel (remainingStepBudget - steps) (processedSteps + ran)

/-- Run whole steps out of the backlog, at most `stepBudget` of them. -/
def drainAccumulator (stepBudget : ℚ) (source : BacklogSource) :
    RuntimeM Payload EventPayload World ℕ :=
  if stepBudget ≤ 0 then pure 0
  else config.drainLoop source ⌊stepBudget⌋.toNat ⌊stepBudget⌋.toNat 0

/-- The steps `drainCreditedBacklog` may run. -/
def resolveDrainStepBudget (maxSteps : Option JsNumber) : ℤ :=
  let frameBudget := if 0 < config.maxStepsPerFrame then ⌊config.maxStepsPerFrame⌋ else 0
  if frameBudget ≤ 0 then 0
  else
    match maxSteps with
    | none => frameBudget
    | some maxSteps =>
        match maxSteps.finite? with
        | none => 0
        | some maxSteps => if maxSteps ≤ 0 then 0 else min ⌊maxSteps⌋ frameBudget

/-- `drainCreditedBacklog`. -/
def drainCreditedBacklog (maxSteps : Option JsNumber) : RuntimeM Payload EventPayload World ℕ :=
  config.drainAccumulator (config.resolveDrainStepBudget maxSteps) .credited

/-- Accept host-frame time. -/
def acceptHostFrame (deltaMs : ℚ) : RuntimeM Payload EventPayload World PUnit :=
  modify fun s =>
    { s with
      accumulators := s.accumulators.addHostFrame deltaMs
      acceptedMs := deltaMs :: s.acceptedMs }

/-- `fastForward`: advance the step counter over the backlog without running the steps. -/
def fastForward (deltaMs : JsNumber) : RuntimeM Payload EventPayload World ℕ :=
  match deltaMs.finite? with
  | none => pure 0
  | some deltaMs =>
      if deltaMs ≤ 0 then pure 0
      else do
        acceptHostFrame deltaMs
        let s ← get
        let steps := ⌊s.accumulators.totalMs / config.stepSizeMs⌋.toNat
        if steps = 0 then pure 0
        else do
          modify fun s =>
            { s with
              accumulators :=
                s.accumulators.consumeAccumulatorBacklog (steps * config.stepSizeMs) .any
              currentStep := s.currentStep + steps
              nextExecutableStep := s.currentStep + steps }
          return steps

/-- `tick`: accept host time and run at most a frame's budget of steps. -/
def tick (deltaMs : JsNumber) : RuntimeM Payload EventPayload World ℕ :=
  match deltaMs.finite? with
  | none => pure 0
  | some deltaMs =>
      if deltaMs ≤ 0 then pure 0
      else do
        acceptHostFrame deltaMs
        config.drainAccumulator config.maxStepsPerFrame .any

/-! ### Calls from the host -/

/-- The state of a new runtime: the initial step counts if it is a finite number from zero up,
the initial backlog is restored. -/
def create (commandQueue : CommandQueue Payload) (eventBus : EventBus EventPayload) (world : World)
    (initialStep : Option JsNumber) (hostFrameMs creditedMs : Option JsNumber) :
    RuntimeState Payload EventPayload World :=
  let step :=
    match initialStep.bind JsNumber.finite? with
    | none => 0
    | some step => if 0 ≤ step then step else 0
  { accumulators := Accumulators.restore hostFrameMs creditedMs
    currentStep := step
    nextExecutableStep := step
    commandQueue
    eventBus
    world
    acceptedMs := [] }

/-- A call from the host that concerns time. -/
inductive Call
  | tick (deltaMs : JsNumber)
  | fastForward (deltaMs : JsNumber)
  | creditTime (deltaMs : JsNumber)
  | drainCreditedBacklog (maxSteps : Option JsNumber)

/-- One call; the number of steps it returns, zero for `creditTime`. -/
def perform : Call → RuntimeM Payload EventPayload World ℕ
  | .tick deltaMs => config.tick deltaMs
  | .fastForward deltaMs => config.fastForward deltaMs
  | .creditTime deltaMs => do
      IdleEngine.creditTime deltaMs
      return 0
  | .drainCreditedBacklog maxSteps => config.drainCreditedBacklog maxSteps

/-- A call that returned, with the states around it. -/
structure CallRecord (Payload EventPayload World : Type) where
  call : Call
  before : RuntimeState Payload EventPayload World
  returned : ℕ
  after : RuntimeState Payload EventPayload World

/-- A sequence of calls in which none throws: the record of each and the state at the end. -/
def performAll : List Call → RuntimeState Payload EventPayload World →
    Except String
      (List (CallRecord Payload EventPayload World) × RuntimeState Payload EventPayload World)
  | [], s => .ok ([], s)
  | call :: calls, s =>
      match config.perform call s with
      | .error error _ => .error error
      | .ok returned after =>
          match performAll calls after with
          | .error error => .error error
          | .ok (records, last) =>
              .ok ({ call, before := s, returned, after } :: records, last)

end RuntimeConfig

end IdleEngine
