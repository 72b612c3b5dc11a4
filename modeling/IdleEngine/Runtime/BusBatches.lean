import IdleEngine.Events.Server

/-!
# A runtime runs its bus in batches

Whatever the handlers and systems of a runtime do, a call of the host takes its bus through batches of
steps (`RuntimeConfig.perform_runs_batches`), so what `IdleEngine.Events.Server` says of ticks holds
of a runtime whose host sends a frame after every call. A tick that runs two steps in one batch, and
a tick in which a system credits the time of a second batch, are the two ways in which its frames go
wrong.
-/

namespace IdleEngine

open TwoState

variable {Payload EventPayload World : Type}

/-- Within a step a runtime calls its bus, and stays in the step. -/
def CallsBus (s s' : RuntimeState Payload EventPayload World) : Prop :=
  s'.currentStep = s.currentStep ∧ ∃ busCalls, s'.eventBus = (EventBus.calls busCalls s.eventBus).1

instance : Std.Refl (CallsBus : RuntimeState Payload EventPayload World → _ → Prop) :=
  ⟨fun _ => ⟨rfl, [], rfl⟩⟩

instance : IsTrans (RuntimeState Payload EventPayload World) CallsBus := by
  refine ⟨?_⟩
  rintro s s₁ s₂ ⟨hstep₁, calls₁, hbus₁⟩ ⟨hstep₂, calls₂, hbus₂⟩
  exact ⟨hstep₂.trans hstep₁, calls₁ ++ calls₂, by rw [EventBus.calls_append, ← hbus₁, hbus₂]⟩

theorem stepRules_callsBus : StepRules (CallsBus :
    RuntimeState Payload EventPayload World → RuntimeState Payload EventPayload World → Prop) where
  credit _ _ _ := ⟨rfl, [], rfl⟩
  queue _ _ _ := ⟨rfl, [], rfl⟩
  publish s eventType payload issuedAt := by
    refine ⟨rfl, [.publish eventType payload issuedAt], ?_⟩
    change _ = (s.eventBus.call (.publish eventType payload issuedAt)).1
    rw [EventBus.call]
    rcases s.eventBus.publish eventType payload issuedAt with ⟨error | _, bus⟩
    · rfl
    · rfl
  write _ _ := ⟨rfl, [], rfl⟩
  dispatched _ := ⟨rfl, [.dispatched], rfl⟩

/-- The bus went through some batches. -/
def RunsBatches (s s' : RuntimeState Payload EventPayload World) : Prop :=
  ∃ batches, s'.eventBus = (EventBus.runBatches batches s.eventBus).1

instance : Std.Refl (RunsBatches : RuntimeState Payload EventPayload World → _ → Prop) :=
  ⟨fun _ => ⟨[], rfl⟩⟩

instance : IsTrans (RuntimeState Payload EventPayload World) RunsBatches := by
  refine ⟨?_⟩
  rintro s s₁ s₂ ⟨batches₁, hbus₁⟩ ⟨batches₂, hbus₂⟩
  exact ⟨batches₁ ++ batches₂, by rw [EventBus.runBatches_append, ← hbus₁, hbus₂]⟩

theorem RunsBatches.of_bus_eq {s s' : RuntimeState Payload EventPayload World}
    (h : s'.eventBus = s.eventBus) : RunsBatches s s' := ⟨[], h⟩

namespace RuntimeConfig

variable (config : RuntimeConfig Payload EventPayload World)

/-- One step, whether it returns or throws, is a step of the bus with the number of the current
step. -/
theorem runTickStep_runs (resetOutbound : Bool) :
    Spec (config.runTickStep resetOutbound)
      (fun s reset s' => reset = false ∧ ∃ step : BusStep EventPayload, step.tick = s.currentStep ∧
        s'.eventBus = (s.eventBus.runStep resetOutbound step).1)
      (fun s _ s' => ∃ step : BusStep EventPayload, step.tick = s.currentStep ∧
        s'.eventBus = (s.eventBus.runStep resetOutbound step).1) := by
  have hbody : Within (fun s s' : RuntimeState Payload EventPayload World =>
      ∃ step : BusStep EventPayload, step.tick = s.currentStep ∧
        s'.eventBus = (s.eventBus.runStep resetOutbound step).1)
      (config.runStepBody resetOutbound) := by
    refine Spec.bind (M := fun s _ s₁ => s₁ = { s with
      eventBus := { s.eventBus with now := s.currentStep * config.stepSizeMs }.beginTick
        s.currentStep resetOutbound }) (Spec.modify fun _ => rfl)
      (fun _ => (stepRules_callsBus.respects config).afterBegin) ?_ ?_
    · rintro s _ s₁ _ s₂ rfl ⟨-, busCalls, hbus⟩
      exact ⟨⟨s.currentStep, s.currentStep * config.stepSizeMs, busCalls⟩, rfl, hbus⟩
    · rintro s _ s₁ _ s₂ rfl ⟨-, busCalls, hbus⟩
      exact ⟨⟨s.currentStep, s.currentStep * config.stepSizeMs, busCalls⟩, rfl, hbus⟩
  refine Spec.bind hbody (K := fun _ s reset s' => reset = false ∧ s'.eventBus = s.eventBus)
    (X := fun _ _ _ _ => False) (fun _ => fun _ => ⟨rfl, rfl⟩) ?_ (fun _ _ _ _ _ _ h => h.elim)
  rintro s _ s₁ reset s₂ ⟨step, htick, hbus⟩ ⟨hreset, hsame⟩
  exact ⟨hreset, step, htick, hsame.trans hbus⟩

theorem runTickBatchLoop_runs (stepCount processedSteps : ℕ) :
    Within (fun s s' : RuntimeState Payload EventPayload World =>
      ∃ steps, s'.eventBus = (EventBus.runSteps steps s.eventBus).1)
      (config.runTickBatchLoop stepCount false processedSteps) := by
  induction stepCount generalizing processedSteps with
  | zero => exact Spec.pure fun _ => ⟨[], rfl⟩
  | succ stepCount ih =>
    refine Spec.bind_known ((config.runTickStep_runs false).mono (fun _ _ _ h => h) ?_)
      (ih (processedSteps + 1)) ?_ ?_
    · rintro s _ s' ⟨step, -, hbus⟩
      exact ⟨[step], hbus⟩
    all_goals
      rintro s s₁ _ s₂ ⟨step, -, hbus⟩ ⟨steps, hsteps⟩
      exact ⟨step :: steps, by rw [hsteps, hbus]; rfl⟩

theorem runTickBatch_runs {stepCount : ℕ} (hpos : 0 < stepCount) :
    Within RunsBatches (config.runTickBatch stepCount) := by
  obtain ⟨rest, rfl⟩ : ∃ rest, stepCount = rest + 1 := ⟨stepCount - 1, by omega⟩
  refine .bind_known ((config.runTickStep_runs true).mono (fun _ _ _ h => h) ?_)
    (config.runTickBatchLoop_runs rest 1) ?_ ?_
  · rintro s _ s' ⟨step, -, hbus⟩
    exact ⟨[⟨step, []⟩], hbus⟩
  all_goals
    rintro s s₁ _ s₂ ⟨step, -, hbus⟩ ⟨steps, hsteps⟩
    exact ⟨[⟨step, steps⟩], by rw [hsteps, hbus]; rfl⟩

theorem drainAccumulator_runs (stepBudget : ℚ) (source : BacklogSource) :
    Within RunsBatches (config.drainAccumulator stepBudget source) := by
  have hloop : ∀ fuel remaining processedSteps,
      Within RunsBatches (config.drainLoop source fuel remaining processedSteps) := by
    intro fuel
    induction fuel with
    | zero => exact fun _ _ => .pure _
    | succ fuel ih =>
      intro remaining processedSteps
      refine .get_bind fun t => ?_
      dsimp only
      split
      · exact .pure _
      · next hsteps =>
        refine .bind (.bind (.modify fun _ => .of_bus_eq rfl) fun _ => ?_)
          fun _ => ih _ _
        exact config.runTickBatch_runs (Nat.pos_of_ne_zero hsteps)
  unfold drainAccumulator
  split
  · exact .pure _
  · exact hloop _ _ _

/-- **A runtime runs its bus in batches**, whatever its handlers and systems do, and also when one
of them throws. -/
theorem perform_runs_batches (call : Call) : Within RunsBatches (config.perform call) := by
  rcases call with deltaMs | deltaMs | deltaMs | maxSteps
  · change Within RunsBatches (config.tick deltaMs)
    unfold tick
    split
    · exact .pure _
    · split
      · exact .pure _
      · exact .bind (.modify fun _ => .of_bus_eq rfl)
          fun _ => config.drainAccumulator_runs _ _
  · change Within RunsBatches (config.fastForward deltaMs)
    unfold fastForward
    split
    · exact .pure _
    · split
      · exact .pure _
      · refine .bind (.modify fun _ => .of_bus_eq rfl) fun _ => .get_bind fun _ => ?_
        dsimp only
        split
        · exact .pure _
        · exact .bind (.modify fun _ => .of_bus_eq rfl) fun _ => .pure _
  · refine .bind ?_ fun _ => .pure _
    unfold IdleEngine.creditTime
    split
    · exact .pure _
    · split
      · exact .pure _
      · exact .modify fun _ => .of_bus_eq rfl
  · exact config.drainAccumulator_runs _ _

/-- **A run of the host.** After any calls, some of which may have thrown, the bus has gone through
batches, and the outbound buffers, from which the host builds its frames, hold the events that the
last of them accepted, and no others. -/
theorem performs_run_batches (calls : List Call) (s : RuntimeState Payload EventPayload World) :
    let s' := calls.foldl (fun s call => Stateful.final (config.perform call s)) s
    ∃ batches, s'.eventBus = (EventBus.runBatches batches s.eventBus).1 ∧
      ∀ log, (EventBus.runBatches batches s.eventBus).2.getLast? = some log →
        s'.eventBus.Holding log := by
  have hruns : RunsBatches s
      (calls.foldl (fun s call => Stateful.final (config.perform call s)) s) := by
    induction calls generalizing s with
    | nil => exact refl_of RunsBatches s
    | cons call calls ih =>
      have hcall : RunsBatches s (Stateful.final (config.perform call s)) := by
        rcases hresult : config.perform call s with ⟨_, s'⟩ | ⟨_, s'⟩
        · exact (config.perform_runs_batches call).ok hresult
        · exact (config.perform_runs_batches call).error hresult
      exact trans_of RunsBatches hcall (ih _)
  obtain ⟨batches, hbus⟩ := hruns
  exact ⟨batches, hbus, fun log hlast => hbus ▸ EventBus.holding_runBatches batches _ hlast⟩

end RuntimeConfig

end IdleEngine
