import IdleEngine.Runtime.Tick

/-!
# What runs inside a step

Commands, event handlers and systems are programs over a small interface. A relation between
runtime states that the programs of a runtime respect, and the engine between them
(`StepRespects`), is respected by the whole step once it has begun (`StepRespects.afterBegin`),
whether or not a program throws. What every operation of the interface respects (`StepRules`), any
program respects.
-/

namespace IdleEngine

open TwoState Within

variable {Payload EventPayload World : Type}

/-- A program that the runtime runs within a step. -/
inductive RuntimeConfig.Runs (config : RuntimeConfig Payload EventPayload World) :
    HandlerProgram Payload EventPayload World → Prop
  | command {type : String} {handler : Command Payload → HandlerProgram Payload EventPayload World}
      (h : config.commandHandlers type = some handler) (command : Command Payload) :
      Runs config (handler command)
  | event (subscriber : ℕ) (slot : EventSlot EventPayload) :
      Runs config (config.eventHandlers subscriber slot)
  | system {system : ℚ → HandlerProgram Payload EventPayload World} (h : system ∈ config.systems)
      (step : ℚ) : Runs config (system step)

variable {config : RuntimeConfig Payload EventPayload World}
  {R : RuntimeState Payload EventPayload World → RuntimeState Payload EventPayload World → Prop}

/-- A relation that the programs of a runtime respect, and the engine between them. -/
structure StepRespects (config : RuntimeConfig Payload EventPayload World)
    (R : RuntimeState Payload EventPayload World →
      RuntimeState Payload EventPayload World → Prop) : Prop where
  program : ∀ program, config.Runs program → Within R (program.run config.cloneStructured)
  queue : ∀ (s : RuntimeState Payload EventPayload World) commandQueue nextExecutableStep,
    R s { s with commandQueue, nextExecutableStep }
  dispatched : ∀ s : RuntimeState Payload EventPayload World,
    R s { s with eventBus := s.eventBus.clearInternalBuffers }

namespace StepRespects

variable [Std.Refl R] [IsTrans (RuntimeState Payload EventPayload World) R]

theorem executeWithResult (rules : StepRespects config R) (command : Command Payload) :
    Within R (config.executeWithResult command) := by
  unfold RuntimeConfig.executeWithResult
  split
  · exact .pure _
  · next handler hhandler =>
    split
    · exact .pure _
    · exact .tryCatch (rules.program _ (.command hhandler command)) fun _ => .pure _

theorem dispatchLoop (rules : StepRespects config R) (fuel : ℕ) (cursors : List ℕ) :
    Within R (config.dispatchLoop fuel cursors) := by
  induction fuel generalizing cursors with
  | zero => exact .pure _
  | succ fuel ih =>
    refine get_bind fun t => ?_
    split
    · exact .pure _
    · refine .bind ?_ fun _ => ih _
      -- one event: its subscribers one after the other
      refine get_bind fun _ => .forM _ fun subscriber _ => ?_
      split
      · exact rules.program _ (.event _ _)
      · exact .pure _

theorem dispatch (rules : StepRespects config R) : Within R config.dispatch :=
  get_bind fun _ => .bind (rules.dispatchLoop _ _)
    fun _ => .modify rules.dispatched

theorem tickSystems (rules : StepRespects config R) : Within R config.tickSystems :=
  .forM _ fun _ hsystem => .bind
    (get_bind fun _ =>
      .tryCatch (rules.program _ (.system hsystem _)) fun _ => .pure _)
    fun _ => rules.dispatch

theorem executeCommands (rules : StepRespects config R) (commands : List (Command Payload)) :
    Within R (config.executeCommandsForCurrentStep commands) := by
  refine .forM _ fun command _ => get_bind fun _ => ?_
  split
  · exact .pure _
  · exact rules.executeWithResult command

theorem dequeueCommands (rules : StepRespects config R) :
    Within R (RuntimeConfig.dequeueCommandsForCurrentStep :
      RuntimeM Payload EventPayload World (List (Command Payload))) :=
  .bind (.modify fun s => rules.queue s s.commandQueue s.currentStep) fun _ =>
    get_bind fun _ =>
      .bind (.modify fun s => rules.queue s _ _) fun _ =>
        .pure _

/-- **A step, once it has begun.** -/
theorem afterBegin (rules : StepRespects config R) :
    Within R (do
      let commands ← RuntimeConfig.dequeueCommandsForCurrentStep
      config.executeCommandsForCurrentStep commands
      config.dispatch
      config.tickSystems) :=
  .bind rules.dequeueCommands fun commands =>
    .bind (rules.executeCommands commands) fun _ =>
      .bind rules.dispatch fun _ => rules.tickSystems

end StepRespects

/-! ### Any program -/

/-- A relation that every operation within a step respects. -/
structure StepRules (R : RuntimeState Payload EventPayload World →
    RuntimeState Payload EventPayload World → Prop) : Prop where
  credit : ∀ (s : RuntimeState Payload EventPayload World) (deltaMs : ℚ), 0 < deltaMs →
    R s { s with
      accumulators := s.accumulators.addCredited deltaMs
      acceptedMs := deltaMs :: s.acceptedMs }
  queue : ∀ (s : RuntimeState Payload EventPayload World) commandQueue nextExecutableStep,
    R s { s with commandQueue, nextExecutableStep }
  publish : ∀ (s : RuntimeState Payload EventPayload World) eventType payload issuedAt,
    R s { s with eventBus := (s.eventBus.publish eventType payload issuedAt).2 }
  write : ∀ (s : RuntimeState Payload EventPayload World) world, R s { s with world }
  dispatched : ∀ s : RuntimeState Payload EventPayload World,
    R s { s with eventBus := s.eventBus.clearInternalBuffers }

namespace StepRules

theorem enqueueCommand (rules : StepRules R) (cloneStructured : Payload → Except String Payload)
    (command : Command Payload) :
    Within R (enqueueCommand cloneStructured command :
      RuntimeM Payload EventPayload World (Except String Bool)) := by
  intro s
  exact rules.queue s _ s.nextExecutableStep

theorem publishEvent (rules : StepRules R) (eventType : String) (payload : EventPayload)
    (issuedAt : Option ℚ) :
    Within R (publishEvent eventType payload issuedAt :
      RuntimeM Payload EventPayload World (Except String Unit)) := by
  intro s
  exact rules.publish s eventType payload issuedAt

variable [Std.Refl R]

theorem creditTime (rules : StepRules R) (deltaMs : JsNumber) :
    Within R (creditTime deltaMs : RuntimeM Payload EventPayload World PUnit) := by
  unfold IdleEngine.creditTime
  split
  · exact .pure _
  · split
    · exact .pure _
    · next hpos => exact .modify fun s => rules.credit s _ (not_le.mp hpos)

variable [IsTrans (RuntimeState Payload EventPayload World) R]

/-- Whatever a handler does, it moves the state along the relation. -/
theorem handler (rules : StepRules R) (cloneStructured : Payload → Except String Payload)
    (program : HandlerProgram Payload EventPayload World) :
    Within R (program.run cloneStructured) := by
  induction program with
  | done => exact .pure _
  | raise error => exact .throw error
  | creditTime deltaMs next ih => exact .bind (rules.creditTime deltaMs) fun _ => ih
  | enqueue command next ih => exact .bind (rules.enqueueCommand _ command) ih
  | publish eventType payload issuedAt next ih =>
    exact .bind (rules.publishEvent eventType payload issuedAt) ih
  | read next ih => exact get_bind fun t => ih t.view t.world
  | write world next ih =>
    exact .bind (.modify fun s => rules.write s world) fun _ => ih

theorem respects (rules : StepRules R) (config : RuntimeConfig Payload EventPayload World) :
    StepRespects config R :=
  ⟨fun program _ => rules.handler _ program, rules.queue, rules.dispatched⟩

end StepRules

end IdleEngine
