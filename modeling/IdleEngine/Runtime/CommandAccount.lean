import IdleEngine.Runtime.CommandTrace

/-!
# Accounts of the commands

An account is an invariant about the state and the history of the commands that says how far ahead
the queued commands lie (`lag`) and which captured commands are still `pending`. `CommandAccount`
lists what the actions of a step have to do with it; whatever does that is kept by every handler,
every step and every tick, also by those that throw (`CommandTrace.holds_tick`).
-/

namespace IdleEngine

open Traced Holds

variable {Payload EventPayload World : Type}

/-- The rules of an account. -/
structure CommandAccount (cloneStructured : Payload → Except String Payload)
    (I : ℕ → List (Command Payload) → RuntimeState Payload EventPayload World →
      List (CommandEvent Payload) → Prop) : Prop where
  /-- what is neither the queue nor the step counter may change freely -/
  of_eq : ∀ {lag pending history} {s s' : RuntimeState Payload EventPayload World},
    I lag pending s history → s'.commandQueue = s.commandQueue →
      s'.currentStep = s.currentStep → s'.nextExecutableStep = s.nextExecutableStep →
      I lag pending s' history
  enqueue : ∀ {lag pending history} {s : RuntimeState Payload EventPayload World},
    I lag pending s history → ∀ command,
      I lag pending { s with commandQueue := (s.commandQueue.enqueue cloneStructured command).2 }
        (history ++ enqueueEvents cloneStructured command s)
  /-- of the queued commands those that are due are captured -/
  capture : ∀ {history} {s : RuntimeState Payload EventPayload World}, I 0 [] s history →
    I 1 (s.commandQueue.dequeueUpToStep (.fin s.currentStep)).1
      { s with
        commandQueue := (s.commandQueue.dequeueUpToStep (.fin s.currentStep)).2
        nextExecutableStep := s.currentStep + 1 } history
  skip : ∀ {lag command pending history} {s : RuntimeState Payload EventPayload World},
    I lag (command :: pending) s history → command.step ≠ .fin s.currentStep →
      I lag pending s (history ++ [.skipped command s.currentStep])
  dispatch : ∀ {lag command pending history} {s : RuntimeState Payload EventPayload World},
    I lag (command :: pending) s history → command.step = .fin s.currentStep →
      I lag pending s (history ++ [.dispatched command s.currentStep])
  advance : ∀ {history} {s : RuntimeState Payload EventPayload World}, I 1 [] s history →
    I 0 [] { s with currentStep := s.currentStep + 1, nextExecutableStep := s.currentStep + 1 }
      history
  /-- a step that throws leaves the counter -/
  relax : ∀ {history} {s : RuntimeState Payload EventPayload World}, I 1 [] s history →
    I 0 [] s history

namespace CommandTrace

variable {config : RuntimeConfig Payload EventPayload World} {lag : ℕ}
  {pending : List (Command Payload)}
  {I : ℕ → List (Command Payload) → RuntimeState Payload EventPayload World →
    List (CommandEvent Payload) → Prop}
  {E : RuntimeState Payload EventPayload World → List (CommandEvent Payload) → Prop}

section Handlers

theorem holds_silent_modify (rules : CommandAccount config.cloneStructured I)
    {f : RuntimeState Payload EventPayload World → RuntimeState Payload EventPayload World}
    (hqueue : ∀ s, (f s).commandQueue = s.commandQueue)
    (hstep : ∀ s, (f s).currentStep = s.currentStep)
    (hnext : ∀ s, (f s).nextExecutableStep = s.nextExecutableStep) :
    Holds (I lag pending) (silent (modify f) : TracedM Payload EventPayload World PUnit)
      (fun _ => I lag pending) E :=
  silent_modify fun s _ h => rules.of_eq h (hqueue s) (hstep s) (hnext s)

theorem holds_creditTime (rules : CommandAccount config.cloneStructured I) (deltaMs : JsNumber) :
    Holds (I lag pending)
      (silent (IdleEngine.creditTime deltaMs) : TracedM Payload EventPayload World PUnit)
      (fun _ => I lag pending) E := by
  rw [IdleEngine.creditTime]
  rcases deltaMs.finite? with _ | deltaMs
  · exact .pure fun _ _ h => h
  · dsimp only
    split
    · exact .pure fun _ _ h => h
    · exact holds_silent_modify rules (fun _ => rfl) (fun _ => rfl) fun _ => rfl

theorem holds_publishEvent (rules : CommandAccount config.cloneStructured I) (eventType : String)
    (payload : EventPayload) (issuedAt : Option ℚ) :
    Holds (I lag pending)
      (silent (publishEvent eventType payload issuedAt) : TracedM Payload EventPayload World _)
      (fun _ => I lag pending) E := by
  intro s history h
  change I lag pending
    { s with eventBus := (s.eventBus.publish eventType payload issuedAt).2 } (history ++ [])
  rw [List.append_nil]
  exact rules.of_eq h rfl rfl rfl

theorem holds_enqueueCommand (rules : CommandAccount config.cloneStructured I)
    (command : Command Payload) :
    Holds (I lag pending)
      (enqueueCommand config.cloneStructured command : TracedM Payload EventPayload World _)
      (fun _ => I lag pending) E := by
  intro s history h
  change I lag pending
    { s with commandQueue := (s.commandQueue.enqueue config.cloneStructured command).2 }
    (history ++ (enqueueEvents config.cloneStructured command s ++ []))
  rw [List.append_nil]
  exact rules.enqueue h command

theorem holds_handler (rules : CommandAccount config.cloneStructured I)
    (program : HandlerProgram Payload EventPayload World) :
    Holds (I lag pending) (handler config.cloneStructured program) (fun _ => I lag pending)
      (I lag pending) := by
  induction program with
  | done => exact .pure fun _ _ h => h
  | raise error => exact silent_throw fun _ _ h => h
  | creditTime deltaMs next ih => exact .bind (holds_creditTime rules deltaMs) fun _ => ih
  | enqueue command next ih => exact .bind (holds_enqueueCommand rules command) ih
  | publish eventType payload issuedAt next ih =>
    exact .bind (holds_publishEvent rules eventType payload issuedAt) ih
  | read next ih =>
    exact get_bind fun t => (ih t.view t.world).forget
  | write world next ih =>
    exact .bind (holds_silent_modify rules (fun _ => rfl) (fun _ => rfl) fun _ => rfl)
      fun _ => ih

theorem holds_executeWithResult (rules : CommandAccount config.cloneStructured I)
    (command : Command Payload) :
    Holds (I lag pending) (executeWithResult config command) (fun _ => I lag pending) E := by
  rw [executeWithResult]
  rcases config.commandHandlers command.type with _ | program
  · exact .pure fun _ _ h => h
  · dsimp only
    split
    · exact .pure fun _ _ h => h
    · exact .tryCatch (holds_handler rules _) fun _ => .pure fun _ _ h => h

/-- The captured commands one after the other: each is skipped or dispatched. -/
theorem holds_executeCommandsForCurrentStep (rules : CommandAccount config.cloneStructured I)
    (commands : List (Command Payload)) :
    Holds (I lag commands) (executeCommandsForCurrentStep config commands)
      (fun _ => I lag []) E := by
  refine .forM (I := fun rest => I lag rest) fun command rest _ => ?_
  refine get_bind fun t => ?_
  split
  · next hne =>
    refine .emit fun s history h => ?_
    obtain ⟨rfl, h⟩ := h
    exact rules.skip h hne
  · next heq =>
    rw [not_not] at heq
    refine .bind (M := fun _ => I lag rest) (.emit fun s history h => ?_)
      fun _ => holds_executeWithResult rules command
    obtain ⟨rfl, h⟩ := h
    exact rules.dispatch h heq

theorem holds_dispatchSlot (rules : CommandAccount config.cloneStructured I) (channelIndex : ℕ)
    (slot : EventSlot EventPayload) :
    Holds (I lag pending) (dispatchSlot config channelIndex slot) (fun _ => I lag pending)
      (I lag pending) := by
  refine get_bind fun t => ?_
  refine .forget (.forM (I := fun _ => I lag pending) fun subscriber rest _ => ?_)
  split
  · exact holds_handler rules _
  · exact .pure fun _ _ h => h

theorem holds_dispatch (rules : CommandAccount config.cloneStructured I) :
    Holds (I lag pending) (dispatch config) (fun _ => I lag pending) (I lag pending) := by
  have hloop : ∀ fuel cursors, Holds (I lag pending) (dispatchLoop config fuel cursors)
      (fun _ => I lag pending) (I lag pending) := by
    intro fuel
    induction fuel with
    | zero => exact fun _ => .pure fun _ _ h => h
    | succ fuel ih =>
      intro cursors
      refine get_bind fun t => ?_
      rcases t.eventBus.findNextDispatchCandidate cursors with _ | candidate
      · exact .pure fun _ _ h => h.2
      · exact .bind (holds_dispatchSlot rules _ _).forget fun _ => ih _
  refine get_bind fun t => .bind (hloop _ _).forget fun _ => ?_
  exact holds_silent_modify rules (fun _ => rfl) (fun _ => rfl) fun _ => rfl

theorem holds_tickSystems (rules : CommandAccount config.cloneStructured I) :
    Holds (I lag pending) (tickSystems config) (fun _ => I lag pending) (I lag pending) := by
  refine .forM (I := fun _ => I lag pending) fun system rest _ => ?_
  refine .bind (get_bind fun t => ?_) fun _ => holds_dispatch rules
  exact .tryCatch (holds_handler rules _).forget fun _ => .pure fun _ _ h => h

end Handlers

/-! ### Steps and ticks -/

/-- **Step lemma.** A step that returns has dealt with what it captured and moved the counter; a
step that throws has dealt with what it captured and left the counter. -/
theorem holds_runTickStep (rules : CommandAccount config.cloneStructured I)
    (resetOutbound : Bool) :
    Holds (I 0 []) (runTickStep config resetOutbound) (fun _ => I 0 []) (I 0 []) := by
  refine .bind (M := fun _ => I 1 []) ?_ fun _ =>
    .bind (M := fun _ => I 0 []) (silent_modify fun s history h => rules.advance h)
      fun _ => .pure fun _ _ h => h
  refine .bind (M := fun _ => I 0 [])
    (holds_silent_modify rules (fun _ => rfl) (fun _ => rfl) fun _ => rfl) fun _ => ?_
  refine .bind (M := fun commands => I 1 commands) ?_ fun commands =>
    .bind (holds_executeCommandsForCurrentStep rules commands) fun _ =>
      .mono (P := I 1 []) (Q := fun _ => I 1 []) (E := I 1 [])
        (.bind (holds_dispatch rules) fun _ => holds_tickSystems rules)
        (fun _ _ h => h) (fun _ _ _ h => h) fun _ _ h => rules.relax h
  intro s history h
  change I 1 _ { s with
      commandQueue := (s.commandQueue.dequeueUpToStep (.fin s.currentStep)).2
      nextExecutableStep := s.currentStep + 1 } (history ++ [])
  rw [List.append_nil]
  exact rules.capture (s := s) h

theorem holds_runTickBatchLoop (rules : CommandAccount config.cloneStructured I)
    (stepCount : ℕ) (resetOutbound : Bool) (processedSteps : ℕ) :
    Holds (I 0 []) (runTickBatchLoop config stepCount resetOutbound processedSteps)
      (fun _ => I 0 []) (I 0 []) := by
  induction stepCount generalizing resetOutbound processedSteps with
  | zero => exact .pure fun _ _ h => h
  | succ stepCount ih => exact .bind (holds_runTickStep rules _) fun _ => ih _ _

theorem holds_drainAccumulator (rules : CommandAccount config.cloneStructured I)
    (stepBudget : ℚ) (source : BacklogSource) :
    Holds (I 0 []) (drainAccumulator config stepBudget source) (fun _ => I 0 []) (I 0 []) := by
  have hloop : ∀ fuel remaining processedSteps,
      Holds (I 0 []) (drainLoop config source fuel remaining processedSteps)
        (fun _ => I 0 []) (I 0 []) := by
    intro fuel
    induction fuel with
    | zero => exact fun _ _ => .pure fun _ _ h => h
    | succ fuel ih =>
      intro remaining processedSteps
      refine get_bind fun t => ?_
      dsimp only
      split
      · refine .pure fun s history h => ?_
        exact h.2
      · refine .bind (M := fun _ => I 0 []) ?_ fun _ => ih _ _
        refine .forget (.bind (M := fun _ => I 0 []) ?_
          fun _ => holds_runTickBatchLoop rules _ _ _)
        exact holds_silent_modify rules (fun _ => rfl) (fun _ => rfl) fun _ => rfl
  rw [drainAccumulator]
  split
  · exact .pure fun _ _ h => h
  · exact hloop _ _ _

/-- **A tick keeps the account**, whether it returns or throws. -/
theorem holds_tick (rules : CommandAccount config.cloneStructured I) (deltaMs : JsNumber) :
    Holds (I 0 []) (tick config deltaMs) (fun _ => I 0 []) (I 0 []) := by
  rw [tick]
  rcases deltaMs.finite? with _ | deltaMs
  · exact .pure fun _ _ h => h
  · dsimp only
    split
    · exact .pure fun _ _ h => h
    · exact .bind (holds_silent_modify rules (fun _ => rfl) (fun _ => rfl) fun _ => rfl)
        fun _ => holds_drainAccumulator rules _ _

end CommandTrace

end IdleEngine
