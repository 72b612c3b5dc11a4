import IdleEngine.Command.Delivery
import IdleEngine.Lib.Traced
import IdleEngine.Runtime.Tick

/-!
# What happens to each command

The tick loop with the events of the commands: accepted by the queue, dropped to make room,
dispatched, or skipped because the step it is stamped with is not the one that runs. Every
traced definition stands for the one of the same name in the loop and computes the same
(`run_perform`): the events are read off the states that the loop goes through.
-/

namespace IdleEngine

variable {Payload EventPayload World : Type}

/-- What can happen to a command. An acceptance records the step that the runtime announced as
the next executable one, a dispatch and a skip the step that runs. -/
inductive CommandEvent (Payload : Type)
  | accepted (command : Command Payload) (nextExecutableStep : ℚ)
  | dropped (command : Command Payload)
  | dispatched (command : Command Payload) (currentStep : ℚ)
  | skipped (command : Command Payload) (currentStep : ℚ)
  deriving DecidableEq

/-- A runtime computation with the events of the commands. -/
abbrev TracedM (Payload EventPayload World : Type) :=
  Traced String (RuntimeState Payload EventPayload World) (CommandEvent Payload)

/-- What an `enqueue` does to commands: drop one for the newcomer, accept the newcomer. -/
def enqueueEvents (cloneStructured : Payload → Except String Payload) (command : Command Payload)
    (s : RuntimeState Payload EventPayload World) : List (CommandEvent Payload) :=
  (QueueLedger.victim s.commandQueue command).map .dropped ++
    (QueueLedger.snapshot cloneStructured s.commandQueue command).map
      (.accepted · s.nextExecutableStep)

namespace CommandTrace

open Traced

/-- `enqueueCommand`. -/
def enqueueCommand (cloneStructured : Payload → Except String Payload)
    (command : Command Payload) : TracedM Payload EventPayload World (Except String Bool) := do
  emit (enqueueEvents cloneStructured command)
  silent (IdleEngine.enqueueCommand cloneStructured command)

/-- A handler. -/
def handler (cloneStructured : Payload → Except String Payload) :
    HandlerProgram Payload EventPayload World → TracedM Payload EventPayload World PUnit
  | .done => pure ⟨⟩
  | .raise error => silent (throw error)
  | .creditTime deltaMs next => do
      silent (IdleEngine.creditTime deltaMs)
      handler cloneStructured next
  | .enqueue command next => do
      let result ← enqueueCommand cloneStructured command
      handler cloneStructured (next result)
  | .publish eventType payload issuedAt next => do
      let result ← silent (publishEvent eventType payload issuedAt)
      handler cloneStructured (next result)
  | .read next => do
      let s ← silent get
      handler cloneStructured (next s.view s.world)
  | .write world next => do
      silent (modify fun s => { s with world })
      handler cloneStructured next

variable (config : RuntimeConfig Payload EventPayload World)

/-- `executeWithResult`. -/
def executeWithResult (command : Command Payload) : TracedM Payload EventPayload World PUnit :=
  match config.commandHandlers command.type with
  | none => pure ⟨⟩
  | some program =>
      if authorizeCommand command = false then pure ⟨⟩
      else (handler config.cloneStructured (program command)).tryCatch fun _ => pure ⟨⟩

/-- One captured command: skipped, or handed to the dispatcher. -/
def executeCommand (command : Command Payload) : TracedM Payload EventPayload World PUnit := do
  let s ← silent get
  if command.step ≠ .fin s.currentStep then emit fun s => [.skipped command s.currentStep]
  else do
    emit fun s => [.dispatched command s.currentStep]
    executeWithResult config command

/-- `executeCommandsForCurrentStep`. -/
def executeCommandsForCurrentStep (commands : List (Command Payload)) :
    TracedM Payload EventPayload World PUnit :=
  commands.forM (executeCommand config)

/-- `dispatchSlot`. -/
def dispatchSlot (channelIndex : ℕ) (slot : EventSlot EventPayload) :
    TracedM Payload EventPayload World PUnit := do
  let s ← silent get
  let subscribers := (s.eventBus.channels[channelIndex]?).elim [] (·.subscribers)
  subscribers.forM fun subscriber =>
    if subscriber.active then
      handler config.cloneStructured (config.eventHandlers subscriber.handler slot)
    else pure ⟨⟩

/-- `dispatchLoop`. -/
def dispatchLoop : ℕ → List ℕ → TracedM Payload EventPayload World PUnit
  | 0, _ => pure ⟨⟩
  | fuel + 1, cursors => do
      let s ← silent get
      match s.eventBus.findNextDispatchCandidate cursors with
      | none => pure ⟨⟩
      | some (channelIndex, slot) => do
          dispatchSlot config channelIndex slot
          dispatchLoop fuel (cursors.modify channelIndex (· + 1))

/-- `dispatch`. -/
def dispatch : TracedM Payload EventPayload World PUnit := do
  let s ← silent get
  dispatchLoop config s.eventBus.totalCapacity (List.replicate s.eventBus.channels.length 0)
  silent (modify fun s => { s with eventBus := s.eventBus.clearInternalBuffers })

/-- `tickSystem`. -/
def tickSystem (system : ℚ → HandlerProgram Payload EventPayload World) :
    TracedM Payload EventPayload World PUnit := do
  let s ← silent get
  (handler config.cloneStructured (system s.currentStep)).tryCatch fun _ => pure ⟨⟩

/-- `tickSystems`. -/
def tickSystems : TracedM Payload EventPayload World PUnit :=
  config.systems.forM fun system => do
    tickSystem config system
    dispatch config

/-- `runStepBody`. -/
def runStepBody (resetOutbound : Bool) : TracedM Payload EventPayload World PUnit := do
  silent (modify fun s =>
    { s with
      eventBus := { s.eventBus with now := s.currentStep * config.stepSizeMs }.beginTick
        s.currentStep resetOutbound })
  let commands ← silent RuntimeConfig.dequeueCommandsForCurrentStep
  executeCommandsForCurrentStep config commands
  dispatch config
  tickSystems config

/-- `runTickStep`. -/
def runTickStep (resetOutbound : Bool) : TracedM Payload EventPayload World Bool := do
  runStepBody config resetOutbound
  silent (modify fun s =>
    { s with currentStep := s.currentStep + 1, nextExecutableStep := s.currentStep + 1 })
  return false

/-- `runTickBatchLoop`. -/
def runTickBatchLoop : ℕ → Bool → ℕ → TracedM Payload EventPayload World ℕ
  | 0, _, processedSteps => pure processedSteps
  | stepCount + 1, resetOutbound, processedSteps => do
      let resetOutbound ← runTickStep config resetOutbound
      runTickBatchLoop stepCount resetOutbound (processedSteps + 1)

/-- `runDebitedBatch`. -/
def runDebitedBatch (source : BacklogSource) (steps : ℕ) :
    TracedM Payload EventPayload World ℕ := do
  silent (modify fun s =>
    { s with
      accumulators :=
        s.accumulators.consumeAccumulatorBacklog (steps * config.stepSizeMs) source })
  runTickBatchLoop config steps true 0

/-- `drainLoop`. -/
def drainLoop (source : BacklogSource) : ℕ → ℕ → ℕ → TracedM Payload EventPayload World ℕ
  | 0, _, processedSteps => pure processedSteps
  | fuel + 1, remainingStepBudget, processedSteps => do
      let s ← silent get
      let steps := config.drainSteps s source remainingStepBudget
      if steps = 0 then pure processedSteps
      else do
        let ran ← runDebitedBatch config source steps
        drainLoop source fuel (remainingStepBudget - steps) (processedSteps + ran)

/-- `drainAccumulator`. -/
def drainAccumulator (stepBudget : ℚ) (source : BacklogSource) :
    TracedM Payload EventPayload World ℕ :=
  if stepBudget ≤ 0 then pure 0
  else drainLoop config source ⌊stepBudget⌋.toNat ⌊stepBudget⌋.toNat 0

/-- `tick`. -/
def tick (deltaMs : JsNumber) : TracedM Payload EventPayload World ℕ :=
  match deltaMs.finite? with
  | none => pure 0
  | some deltaMs =>
      if deltaMs ≤ 0 then pure 0
      else do
        silent (RuntimeConfig.acceptHostFrame deltaMs)
        drainAccumulator config config.maxStepsPerFrame .any

/-- A call from the host that concerns time. -/
def perform : RuntimeConfig.Call → TracedM Payload EventPayload World ℕ
  | .tick deltaMs => tick config deltaMs
  | .fastForward deltaMs => silent (config.fastForward deltaMs)
  | .creditTime deltaMs => do
      silent (IdleEngine.creditTime deltaMs)
      return 0
  | .drainCreditedBacklog maxSteps =>
      drainAccumulator config (config.resolveDrainStepBudget maxSteps) .credited

/-! ### The computation is that of the loop -/

@[simp]
theorem run_handler (cloneStructured : Payload → Except String Payload)
    (program : HandlerProgram Payload EventPayload World) :
    (handler cloneStructured program).run = program.run cloneStructured := by
  induction program with
  | done => rfl
  | raise error => rfl
  | creditTime deltaMs next ih => rw [handler, HandlerProgram.run, run_bind, ih]; rfl
  | enqueue command next ih =>
    rw [handler, HandlerProgram.run, run_bind]
    simp only [ih]
    rfl
  | publish eventType payload issuedAt next ih =>
    rw [handler, HandlerProgram.run, run_bind]
    simp only [ih]
    rfl
  | read next ih =>
    rw [handler, HandlerProgram.run, run_bind]
    simp only [ih]
    rfl
  | write world next ih => rw [handler, HandlerProgram.run, run_bind, ih]; rfl

@[simp]
theorem run_executeWithResult (command : Command Payload) :
    (executeWithResult config command).run = config.executeWithResult command := by
  rw [executeWithResult, RuntimeConfig.executeWithResult]
  cases config.commandHandlers command.type with
  | none => rfl
  | some program =>
    simp only
    split
    · rfl
    · rw [run_tryCatch, run_handler]
      rfl

@[simp]
theorem run_executeCommandsForCurrentStep (commands : List (Command Payload)) :
    (executeCommandsForCurrentStep config commands).run =
      config.executeCommandsForCurrentStep commands := by
  refine run_forM fun command _ => ?_
  rw [executeCommand, run_bind]
  refine congrArg (get >>= ·) (funext fun s => ?_)
  split
  · rfl
  · rw [run_emit_bind, run_executeWithResult]

@[simp]
theorem run_dispatchSlot (channelIndex : ℕ) (slot : EventSlot EventPayload) :
    (dispatchSlot config channelIndex slot).run = config.dispatchSlot channelIndex slot := by
  rw [dispatchSlot, run_bind]
  refine congrArg (get >>= ·) (funext fun s => run_forM fun subscriber _ => ?_)
  split
  · exact run_handler _ _
  · rfl

@[simp]
theorem run_dispatchLoop (fuel : ℕ) (cursors : List ℕ) :
    (dispatchLoop config fuel cursors).run = config.dispatchLoop fuel cursors := by
  induction fuel generalizing cursors with
  | zero => rfl
  | succ fuel ih =>
    rw [dispatchLoop, RuntimeConfig.dispatchLoop, run_bind]
    refine congrArg (get >>= ·) (funext fun s => ?_)
    cases s.eventBus.findNextDispatchCandidate cursors with
    | none => rfl
    | some candidate =>
      simp only [run_bind, run_dispatchSlot, ih]

@[simp]
theorem run_dispatch : (dispatch config).run = config.dispatch := by
  rw [dispatch, RuntimeConfig.dispatch, run_bind]
  refine congrArg (get >>= ·) (funext fun s => ?_)
  rw [run_bind, run_dispatchLoop]
  rfl

@[simp]
theorem run_tickSystems : (tickSystems config).run = config.tickSystems := by
  refine run_forM fun system _ => ?_
  rw [run_bind, run_dispatch, tickSystem, RuntimeConfig.tickSystem, run_bind]
  refine congrArg (· >>= fun _ => config.dispatch) ?_
  refine congrArg (get >>= ·) (funext fun s => ?_)
  rw [run_tryCatch, run_handler]
  rfl

@[simp]
theorem run_runTickStep (resetOutbound : Bool) :
    (runTickStep config resetOutbound).run = config.runTickStep resetOutbound := by
  simp only [runTickStep, RuntimeConfig.runTickStep, runStepBody, RuntimeConfig.runStepBody,
    run_bind, run_silent, run_pure, run_executeCommandsForCurrentStep, run_dispatch,
    run_tickSystems]

@[simp]
theorem run_runTickBatchLoop (stepCount : ℕ) (resetOutbound : Bool) (processedSteps : ℕ) :
    (runTickBatchLoop config stepCount resetOutbound processedSteps).run =
      config.runTickBatchLoop stepCount resetOutbound processedSteps := by
  induction stepCount generalizing resetOutbound processedSteps with
  | zero => rfl
  | succ stepCount ih =>
    rw [runTickBatchLoop, RuntimeConfig.runTickBatchLoop, run_bind, run_runTickStep]
    simp only [ih]

@[simp]
theorem run_drainAccumulator (stepBudget : ℚ) (source : BacklogSource) :
    (drainAccumulator config stepBudget source).run =
      config.drainAccumulator stepBudget source := by
  have hloop : ∀ fuel remaining processedSteps,
      (drainLoop config source fuel remaining processedSteps).run =
        config.drainLoop source fuel remaining processedSteps := by
    intro fuel
    induction fuel with
    | zero => exact fun _ _ => rfl
    | succ fuel ih =>
      intro remaining processedSteps
      rw [drainLoop, RuntimeConfig.drainLoop, run_bind]
      refine congrArg (get >>= ·) (funext fun s => ?_)
      simp only
      split
      · rfl
      · rw [run_bind, runDebitedBatch, run_bind, run_runTickBatchLoop]
        simp only [ih]
        rfl
  rw [drainAccumulator, RuntimeConfig.drainAccumulator]
  split
  · rfl
  · exact hloop _ _ _

/-- **Faithfulness.** The traced calls compute what the calls compute. -/
theorem run_perform (call : RuntimeConfig.Call) : (perform config call).run = config.perform call := by
  cases call with
  | tick deltaMs =>
    rw [perform, RuntimeConfig.perform, tick, RuntimeConfig.tick]
    cases deltaMs.finite? with
    | none => rfl
    | some deltaMs =>
      simp only
      split
      · rfl
      · rw [run_bind, run_drainAccumulator]
        rfl
  | fastForward deltaMs => rfl
  | creditTime deltaMs => rfl
  | drainCreditedBacklog maxSteps => exact run_drainAccumulator _ _ _

end CommandTrace

end IdleEngine
