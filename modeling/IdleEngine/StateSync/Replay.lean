import IdleEngine.StateSync.Prediction

/-!
# The replay after a rollback

A restored runtime holds the commands of the snapshot's queue, and the manager queues its pending
ones in it. From there on the commands are divided as in `IdleEngine.Runtime.CommandShares`. The
replay ticks the runtime one step size at a time: every tick keeps the division, every tick runs at
least one step, and so the loop of the replay reaches its target (`replayLoop_reaches`).
-/

namespace IdleEngine

open Traced RuntimeConfig

/-! ### One tick of the replay -/

namespace RuntimeConfig

variable {EventPayload World : Type} {config : RuntimeConfig JsValue EventPayload World}

variable {s s' : RuntimeState JsValue EventPayload World} {processed : ℕ}

theorem tick_pos (hsize : accumulatorEpsilonMs < config.stepSizeMs)
    (hbudget : 1 ≤ config.maxStepsPerFrame)
    (htick : config.tick (.fin config.stepSizeMs) s = .ok processed s') : processed ≠ 0 := by
  have hpos := config.stepSizeMs_pos
  let accepted : RuntimeState JsValue EventPayload World :=
    { s with
      accumulators := s.accumulators.addHostFrame config.stepSizeMs
      acceptedMs := config.stepSizeMs :: s.acceptedMs }
  -- the accepted time alone is worth one step
  have havailable : config.stepSizeMs ≤ accepted.accumulators.availableMs .any := by
    have hhost := s.accumulators.hostFrame.nonneg
    have hcredited := s.accumulators.credited.nonneg
    have hadded : (normalizeBacklogMs (s.accumulators.hostFrame.val + config.stepSizeMs)).val =
        s.accumulators.hostFrame.val + config.stepSizeMs := by
      rw [normalizeBacklogMs, dif_pos (by linarith)]
    change config.stepSizeMs ≤ (s.accumulators.addHostFrame config.stepSizeMs).totalMs
    rw [Accumulators.totalMs_eq]
    change config.stepSizeMs ≤
      (normalizeBacklogMs (s.accumulators.hostFrame.val + config.stepSizeMs)).val +
        s.accumulators.credited.val
    rw [hadded]
    linarith
  obtain ⟨fuel, hfuel⟩ : ∃ fuel, ⌊config.maxStepsPerFrame⌋.toNat = fuel + 1 := by
    have hfloor : 1 ≤ ⌊config.maxStepsPerFrame⌋ := Int.le_floor.mpr (by exact_mod_cast hbudget)
    exact ⟨⌊config.maxStepsPerFrame⌋.toNat - 1, by omega⟩
  have hsteps : config.drainSteps accepted .any (fuel + 1) ≠ 0 := by
    intro hzero
    rcases config.available_lt_of_drainSteps_eq_zero hzero with hnone | hless
    · omega
    · linarith
  have hrun : config.tick (.fin config.stepSizeMs) s =
      (config.runDebitedBatch .any (config.drainSteps accepted .any (fuel + 1)) >>= fun ran =>
        config.drainLoop .any fuel (fuel + 1 - config.drainSteps accepted .any (fuel + 1))
          (0 + ran)) accepted := by
    have hnonpos : ¬ config.stepSizeMs ≤ 0 := not_le.mpr hpos
    have hbudgetPos : ¬ config.maxStepsPerFrame ≤ 0 := by linarith
    simp only [tick, JsNumber.finite?, hnonpos, if_false, drainAccumulator, hbudgetPos, hfuel,
      drainLoop]
    change (if config.drainSteps accepted .any (fuel + 1) = 0 then _ else _ :
      RuntimeM JsValue EventPayload World ℕ) accepted = _
    rw [if_neg hsteps]
  rw [hrun] at htick
  change EStateM.bind _ _ accepted = _ at htick
  rw [EStateM.bind] at htick
  rcases hbatch : config.runDebitedBatch .any (config.drainSteps accepted .any (fuel + 1)) accepted
    with ⟨ran, s₁⟩ | ⟨error, s₁⟩
  · rw [hbatch] at htick
    obtain ⟨hdebited, hwithin⟩ := config.drainSteps_le hsteps
    obtain ⟨hran, -⟩ := (config.runDebitedBatch_spec .any _).ok hbatch hdebited
    obtain ⟨m, hm, -⟩ := (config.drainLoop_spec .any fuel _ _ (by omega)).ok htick
    omega
  · rw [hbatch] at htick
    cases htick

theorem tick_step (htick : config.tick (.fin config.stepSizeMs) s = .ok processed s') :
    s'.currentStep = s.currentStep + processed :=
  ((config.tick_spec config.stepSizeMs_pos).ok htick).1.step

/-- A tick keeps every account of the commands. -/
theorem tick_account {I : ℕ → List (Command JsValue) → RuntimeState JsValue EventPayload World →
      List (CommandEvent JsValue) → Prop} (rules : CommandAccount config.cloneStructured I)
    {events : List (CommandEvent JsValue)} (h : I 0 [] s events)
    (htick : config.perform (.tick (.fin config.stepSizeMs)) s = .ok processed s') :
    I 0 [] s'
      (events ++ (CommandTrace.perform config (.tick (.fin config.stepSizeMs))).trace s) := by
  rw [← CommandTrace.run_perform] at htick
  exact (CommandTrace.holds_tick rules (.fin config.stepSizeMs)).ok h htick

/-- Queueing the pending commands changes only the queue, and keeps the division of the commands. -/
theorem enqueuePending_divided {timely₀ others₀ : Multiset (Command JsValue)} {confirmedStep : ℚ}
    {commands : List (Command JsValue)}
    {now last : RuntimeState JsValue EventPayload World × List (CommandEvent JsValue)}
    (h : Divided timely₀ others₀ 0 [] now.1 now.2)
    (hrun : config.enqueuePending confirmedStep commands now = .ok last) :
    Divided timely₀ others₀ 0 [] last.1 last.2 ∧ last.1.currentStep = now.1.currentStep := by
  induction commands generalizing now with
  | nil =>
    obtain rfl := Except.ok.inj hrun
    exact ⟨h, rfl⟩
  | cons command rest ih =>
    obtain ⟨s, events⟩ := now
    unfold enqueuePending at hrun
    split at hrun
    · have hqueued := h.enqueue config.cloneStructured command
      split at hrun
      · cases hrun
      · next result commandQueue henqueue =>
        have hqueue : (s.commandQueue.enqueue config.cloneStructured command).2 = commandQueue :=
          congrArg Prod.snd henqueue
        rw [hqueue] at hqueued
        exact @ih ({ s with commandQueue }, events ++ enqueueEvents config.cloneStructured command s)
          hqueued hrun
    · exact ih h hrun

end RuntimeConfig

namespace PredictionManager

variable {EventPayload World Contents : Type}
  {options : PredictionManagerOptions EventPayload World Contents}
  {replay : PredictionReplayOptions EventPayload World Contents}
  {config : RuntimeConfig JsValue EventPayload World}

/-! ### Recording checksums leaves the commands alone -/

theorem recordStep_pendingCommands (m : PredictionManager) (step : ℚ)
    (snapshot : GameStateSnapshot Contents) :
    (m.recordStep options step snapshot).pendingCommands = m.pendingCommands := by
  unfold recordStep
  dsimp only
  split
  · rw [recordChecksum]
    split
    · rfl
    · rfl
  · rfl

/-! ### The loops of the replay -/

variable {P : ReplayProgress EventPayload World → Prop}

/-- What the ticks of a replay preserve, those that run a step and those that run none. -/
structure KeptByTicks (options : PredictionManagerOptions EventPayload World Contents)
    (replay : PredictionReplayOptions EventPayload World Contents)
    (config : RuntimeConfig JsValue EventPayload World)
    (P : ReplayProgress EventPayload World → Prop) : Prop where
  idle : ∀ progress runtime, P progress →
    config.perform (.tick (.fin config.stepSizeMs)) progress.runtime = .ok 0 runtime →
      P { progress with
        runtime
        events := progress.events ++
          (CommandTrace.perform config (.tick (.fin config.stepSizeMs))).trace progress.runtime
        remainingSteps := 0 }
  ran : ∀ progress processed runtime, P progress → processed ≠ 0 →
    config.perform (.tick (.fin config.stepSizeMs)) progress.runtime = .ok processed runtime →
      P { manager := progress.manager.recordStep options runtime.currentStep
            (replay.captureSnapshot runtime)
          runtime
          events := progress.events ++
            (CommandTrace.perform config (.tick (.fin config.stepSizeMs))).trace progress.runtime
          replayedSteps := progress.replayedSteps + processed
          remainingSteps := progress.remainingSteps - processed }

variable {progress last : ReplayProgress EventPayload World}

/-- A replay leaves a progress with a property, or throws with the manager of one. -/
def Reached (P : ReplayProgress EventPayload World → Prop)
    (outcome : Except (PredictionManager × String) (ReplayProgress EventPayload World)) : Prop :=
  (∀ m message, outcome = .error (m, message) → ∃ reached, P reached ∧ reached.manager = m) ∧
    ∀ last, outcome = .ok last → P last

theorem Reached.ok (hp : P progress) : Reached P (.ok progress) :=
  ⟨fun _ _ hrun => (by cases hrun), fun _ hrun => (Except.ok.inj hrun) ▸ hp⟩

theorem KeptByTicks.replayBatch (h : KeptByTicks options replay config P) (batch : ℕ)
    (hp : P progress) : Reached P (replayBatch options replay config batch progress) := by
  induction batch generalizing progress with
  | zero => exact .ok hp
  | succ batch ih =>
    unfold PredictionManager.replayBatch
    dsimp only
    split
    · refine ⟨fun m message hrun => ?_, fun last hrun => (by cases hrun)⟩
      exact ⟨progress, hp, (Prod.mk.inj (Except.error.inj hrun)).1⟩
    · next processed runtime htick =>
      split
      · next hzero => exact .ok (h.idle progress runtime hp (hzero ▸ htick))
      · next hsome => exact ih (h.ran progress processed runtime hp hsome htick)

/-- **Invariant rule.** What the ticks preserve, a replay preserves, also one that throws. -/
theorem KeptByTicks.replayLoop (h : KeptByTicks options replay config P) (fuel : ℕ)
    (hp : P progress) : Reached P (replayLoop options replay config fuel progress) := by
  induction fuel generalizing progress with
  | zero => exact .ok hp
  | succ fuel ih =>
    rw [PredictionManager.replayLoop]
    split
    · exact .ok hp
    · dsimp only
      have hbatch := h.replayBatch
        ⌈min (max 1 (options.window.maxReplayStepsPerTick : ℚ)) progress.remainingSteps⌉₊ hp
      split
      · next error herror =>
        rw [herror] at hbatch
        refine ⟨fun m message hrun => ?_, fun last hrun => (by cases hrun)⟩
        exact hbatch.1 m message (congrArg _ (Except.error.inj hrun))
      · next middle hmiddle => exact ih (hbatch.2 middle hmiddle)

theorem keptByTicks_pendingCommands (pendingCommands : List (Command JsValue)) :
    KeptByTicks options replay config
      fun progress => progress.manager.pendingCommands = pendingCommands where
  idle _ _ h _ := h
  ran _ _ _ h _ _ := (recordStep_pendingCommands _ _ _).trans h

/-- **The replay keeps the division of the commands.** -/
theorem keptByTicks_divided {timely₀ others₀ : Multiset (Command JsValue)}
    (events : List (CommandEvent JsValue)) :
    KeptByTicks options replay config fun progress =>
      Divided timely₀ others₀ 0 [] progress.runtime progress.events ∧
        events <+: progress.events where
  idle _ _ h htick := ⟨tick_account
    (divided_account config.cloneStructured timely₀ others₀) h.1 htick,
    h.2.trans (List.prefix_append _ _)⟩
  ran _ _ _ h _ htick := ⟨tick_account
    (divided_account config.cloneStructured timely₀ others₀) h.1 htick,
    h.2.trans (List.prefix_append _ _)⟩

/-- A batch whose ticks all run steps leaves as much less to do as it ran, and it ran at least one
step for each tick. -/
theorem replayBatch_progress (hsize : accumulatorEpsilonMs < config.stepSizeMs)
    (hbudget : 1 ≤ config.maxStepsPerFrame) (batch : ℕ)
    (hrun : replayBatch options replay config batch progress = .ok last) :
    progress.remainingSteps - last.remainingSteps =
        last.runtime.currentStep - progress.runtime.currentStep ∧
      (batch : ℚ) ≤ progress.remainingSteps - last.remainingSteps := by
  induction batch generalizing progress with
  | zero =>
    obtain rfl := Except.ok.inj hrun
    constructor
    · ring
    · simp
  | succ batch ih =>
    unfold replayBatch at hrun
    dsimp only at hrun
    split at hrun
    · cases hrun
    · next processed runtime htick =>
      have hpos : processed ≠ 0 := tick_pos hsize hbudget htick
      have hstep := tick_step htick
      rw [if_neg hpos] at hrun
      obtain ⟨hequal, hless⟩ := ih hrun
      have hone : (1 : ℚ) ≤ processed := by
        exact_mod_cast Nat.one_le_iff_ne_zero.mpr hpos
      constructor
      · change progress.remainingSteps - processed - last.remainingSteps =
          last.runtime.currentStep - runtime.currentStep at hequal
        linarith
      · change (batch : ℚ) ≤ progress.remainingSteps - processed - last.remainingSteps at hless
        push_cast
        linarith

/-- **The replay reaches its target** when every tick can run a step. -/
theorem replayLoop_reaches (hsize : accumulatorEpsilonMs < config.stepSizeMs)
    (hbudget : 1 ≤ config.maxStepsPerFrame) (fuel : ℕ) (hfuel : progress.remainingSteps ≤ fuel)
    (hrun : replayLoop options replay config fuel progress = .ok last) :
    progress.runtime.currentStep + progress.remainingSteps ≤ last.runtime.currentStep := by
  have hdone : last.remainingSteps ≤ 0 ∧
      progress.remainingSteps - last.remainingSteps =
        last.runtime.currentStep - progress.runtime.currentStep := by
    induction fuel generalizing progress with
    | zero =>
      obtain rfl := Except.ok.inj hrun
      constructor
      · simpa using hfuel
      · ring
    | succ fuel ih =>
      unfold replayLoop at hrun
      split at hrun
      · next hnone =>
        obtain rfl := Except.ok.inj hrun
        exact ⟨hnone, by ring⟩
      · next hsome =>
        dsimp only at hrun
        split at hrun
        · cases hrun
        · next middle hbatch =>
          obtain ⟨hequal, hless⟩ := replayBatch_progress hsize hbudget _ hbatch
          -- a batch is never empty
          have hbatchPos :
              (0 : ℚ) < min (max 1 (options.window.maxReplayStepsPerTick : ℚ))
                progress.remainingSteps := by
            have hmax : (0 : ℚ) < max 1 (options.window.maxReplayStepsPerTick : ℚ) :=
              lt_max_of_lt_left one_pos
            exact lt_min hmax (not_le.mp hsome)
          have hone : (1 : ℚ) ≤ (⌈min (max 1 (options.window.maxReplayStepsPerTick : ℚ))
              progress.remainingSteps⌉₊ : ℕ) := by
            exact_mod_cast Nat.one_le_iff_ne_zero.mpr (Nat.ceil_pos.mpr hbatchPos).ne'
          have hrest : middle.remainingSteps ≤ fuel := by
            push_cast at hfuel
            linarith
          obtain ⟨hzero, hlater⟩ := ih hrest hrun
          exact ⟨hzero, by linarith⟩
  linarith [hdone.1, hdone.2]

end PredictionManager

end IdleEngine
