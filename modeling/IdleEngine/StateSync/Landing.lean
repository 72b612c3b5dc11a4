import IdleEngine.StateSync.Confirmation

/-!
# Where a replay lands

`replayToStep` ticks the restored runtime by one step size at a time until no step is missing, and
looks at what is missing only in front of a batch of ticks. A tick runs the steps that the backlog
holds, as many as the frame allows. So a restored backlog of a step or more carries the replay over
its target in a batch that is not cut short (`replay_overshoots`), and a frame that allows no step
ends the replay at once.

A replay lands on its target exactly when its batches fit (`reconcileWithReplay_lands_iff`). Whether
they do is arithmetic on the restored backlog as long as no program credits time (`quietTick`).
-/

namespace IdleEngine

open TwoState JsValue

/-! ### Batches of ticks -/

section Batches

variable {σ : Type} (tick : σ → ℕ × σ)

/-- So many ticks: the steps that they run, and where they end. -/
def ticks : ℕ → σ → ℕ × σ
  | 0, s => (0, s)
  | n + 1, s => ((tick s).1 + (ticks n (tick s).2).1, (ticks n (tick s).2).2)

/-- So many ticks, each of which runs a step. -/
def Busy : ℕ → σ → Prop
  | 0, _ => True
  | n + 1, s => (tick s).1 ≠ 0 ∧ Busy n (tick s).2

/-- The batches of a replay with so many steps to go fit: the ticks of a batch run a step each, and
together no more than are missing in front of it; or they have run all that are missing when a tick
runs none. -/
inductive Fits (batchSize : ℚ) : σ → ℚ → Prop
  | done (s : σ) : Fits batchSize s 0
  | batch {s : σ} {remaining : ℚ} (hpos : 0 < remaining)
      (hbusy : Busy tick ⌈min batchSize remaining⌉₊ s)
      (hfits : ((ticks tick ⌈min batchSize remaining⌉₊ s).1 : ℚ) ≤ remaining)
      (hrest : Fits batchSize (ticks tick ⌈min batchSize remaining⌉₊ s).2
        (remaining - (ticks tick ⌈min batchSize remaining⌉₊ s).1)) : Fits batchSize s remaining
  | idle {s : σ} {remaining : ℚ} (n : ℕ) (hpos : 0 < remaining)
      (hn : n < ⌈min batchSize remaining⌉₊) (hbusy : Busy tick n s)
      (hidle : (tick (ticks tick n s).2).1 = 0) (hall : ((ticks tick n s).1 : ℚ) = remaining) :
      Fits batchSize s remaining

variable {tick} {batchSize remaining : ℚ} {s : σ} {m n : ℕ}

theorem Fits.nonneg (h : Fits tick batchSize s remaining) : 0 ≤ remaining := by
  cases h with
  | done => exact le_rfl
  | batch hpos => exact hpos.le
  | idle _ hpos => exact hpos.le

theorem fits_iff_of_nonpos (hle : remaining ≤ 0) :
    Fits tick batchSize s remaining ↔ remaining = 0 := by
  constructor
  · exact fun h => le_antisymm hle h.nonneg
  · rintro rfl
    exact .done s

theorem Busy.le_ticks (h : Busy tick n s) : n ≤ (ticks tick n s).1 := by
  induction n generalizing s with
  | zero => exact Nat.zero_le _
  | succ n ih =>
    have hrest := ih h.2
    have hfirst := h.1
    rw [ticks]
    dsimp only
    omega

/-- Of ticks that all run a step none runs none. -/
theorem Busy.not_idle (h : Busy tick n s) (hlt : m < n) : (tick (ticks tick m s).2).1 ≠ 0 := by
  induction m generalizing n s with
  | zero =>
    obtain ⟨n, rfl⟩ := Nat.exists_eq_succ_of_ne_zero (by omega : n ≠ 0)
    exact h.1
  | succ m ih =>
    obtain ⟨n, rfl⟩ := Nat.exists_eq_succ_of_ne_zero (by omega : n ≠ 0)
    exact ih h.2 (by omega)

theorem fits_iff_of_busy (hpos : 0 < remaining) (hbusy : Busy tick ⌈min batchSize remaining⌉₊ s) :
    Fits tick batchSize s remaining ↔
      Fits tick batchSize (ticks tick ⌈min batchSize remaining⌉₊ s).2
        (remaining - (ticks tick ⌈min batchSize remaining⌉₊ s).1) := by
  constructor
  · intro h
    cases h with
    | done => exact absurd hpos (lt_irrefl 0)
    | batch _ _ _ hrest => exact hrest
    | idle _ _ hn _ hidle _ => exact absurd hidle (hbusy.not_idle hn)
  · exact fun hrest => .batch hpos hbusy (sub_nonneg.mp hrest.nonneg) hrest

theorem fits_iff_of_idle (hpos : 0 < remaining) (hn : n < ⌈min batchSize remaining⌉₊)
    (hbusy : Busy tick n s) (hidle : (tick (ticks tick n s).2).1 = 0) :
    Fits tick batchSize s remaining ↔ ((ticks tick n s).1 : ℚ) = remaining := by
  constructor
  · intro h
    cases h with
    | done => exact absurd hpos (lt_irrefl 0)
    | batch _ hall _ _ => exact absurd hidle (hall.not_idle hn)
    | idle m _ _ hbusy' hidle' hall =>
      rcases lt_trichotomy m n with hlt | rfl | hlt
      · exact absurd hidle' (hbusy.not_idle hlt)
      · exact hall
      · exact absurd hidle (hbusy'.not_idle hlt)
  · exact .idle n hpos hn hbusy hidle

end Batches

/-! ### One tick -/

/-- The backlog is as it was. -/
def SameBacklog {Payload EventPayload World : Type}
    (s s' : RuntimeState Payload EventPayload World) : Prop :=
  s'.accumulators = s.accumulators

instance {Payload EventPayload World : Type} :
    Std.Refl (SameBacklog :
      RuntimeState Payload EventPayload World → RuntimeState Payload EventPayload World → Prop) :=
  ⟨fun _ => rfl⟩

instance {Payload EventPayload World : Type} :
    IsTrans (RuntimeState Payload EventPayload World) SameBacklog :=
  ⟨fun _ _ _ h₁ h₂ => Eq.trans h₂ h₁⟩

namespace RuntimeConfig

variable {EventPayload World : Type} (config : RuntimeConfig JsValue EventPayload World)

/-- A tick of the replay: the steps that it runs, and the runtime after it. -/
def replayTick (s : RuntimeState JsValue EventPayload World) :
    ℕ × RuntimeState JsValue EventPayload World :=
  match config.tick (.fin config.stepSizeMs) s with
  | .ok processed s' => (processed, s')
  | .error _ s' => (0, s')

/-- What a tick of the replay does to the backlog when no program credits time. -/
def quietTick (a : Accumulators) : ℕ × Accumulators :=
  let a := a.addHostFrame config.stepSizeMs
  let steps := (min ⌊a.totalMs / config.stepSizeMs⌋ ⌊config.maxStepsPerFrame⌋).toNat
  (steps, a.consumeAccumulatorBacklog (steps * config.stepSizeMs) .any)

/-- No program that runs within a step credits time. -/
def Quiet : Prop :=
  ∀ program, config.Runs program → Within SameBacklog (program.run config.cloneStructured)

variable {config} {s s' : RuntimeState JsValue EventPayload World}

theorem Quiet.runTickBatchLoop (h : config.Quiet) (stepCount : ℕ) (resetOutbound : Bool)
    (processedSteps : ℕ) :
    Within SameBacklog (config.runTickBatchLoop stepCount resetOutbound processedSteps) := by
  have rules : StepRespects config SameBacklog := ⟨h, fun _ _ _ => rfl, fun _ => rfl⟩
  induction stepCount generalizing resetOutbound processedSteps with
  | zero => exact .pure _
  | succ stepCount ih =>
    refine .bind (.bind (.bind (.modify fun _ => rfl)
      fun _ => rules.afterBegin) fun _ => .bind (.modify fun _ => rfl) fun _ => ?_)
      fun _ => ih _ _
    exact .pure _

/-- A drain that finds nothing to run. -/
theorem drainLoop_of_idle {remaining : ℕ} (fuel processedSteps : ℕ)
    (hidle : config.drainSteps s .any remaining = 0) :
    config.drainLoop .any fuel remaining processedSteps s = .ok processedSteps s := by
  cases fuel with
  | zero => rfl
  | succ fuel =>
    change (if config.drainSteps s .any remaining = 0 then pure processedSteps else _ :
      RuntimeM JsValue EventPayload World ℕ) s = _
    rw [if_pos hidle]
    rfl

/-- Behind a batch nothing is left to run: the backlog is not worth a step, or the budget is spent.
-/
theorem drainSteps_consumed {remaining : ℕ}
    (havailable : config.drainSteps s .any remaining * config.stepSizeMs ≤
      s.accumulators.availableMs .any)
    (hleft : s'.accumulators = s.accumulators.consumeAccumulatorBacklog
      (config.drainSteps s .any remaining * config.stepSizeMs) .any) :
    config.drainSteps s' .any (remaining - config.drainSteps s .any remaining) = 0 := by
  have hpos := config.stepSizeMs_pos
  have hless : s'.accumulators.availableMs .any ≤
      s.accumulators.availableMs .any - config.drainSteps s .any remaining * config.stepSizeMs := by
    rw [hleft]
    exact (s.accumulators.consumeAccumulatorBacklog_spec (by positivity) havailable).1
  have hcases : config.drainSteps s .any remaining = remaining ∨
      ⌊s.accumulators.availableMs .any / config.stepSizeMs⌋ ≤
        config.drainSteps s .any remaining := by
    rw [drainSteps]
    omega
  rw [drainSteps, Int.toNat_eq_zero, min_le_iff]
  rcases hcases with hspent | hwhole
  · right
    omega
  · left
    have hfloor := Int.lt_floor_add_one (s.accumulators.availableMs .any / config.stepSizeMs)
    rw [div_lt_iff₀ hpos] at hfloor
    have hwhole' : (⌊s.accumulators.availableMs .any / config.stepSizeMs⌋ : ℚ) ≤
        config.drainSteps s .any remaining := by exact_mod_cast hwhole
    have hstep : s'.accumulators.availableMs .any / config.stepSizeMs < 1 := by
      rw [div_lt_one hpos]
      nlinarith
    exact Int.lt_add_one_iff.mp (Int.floor_lt.mpr (by simpa using hstep))

/-- A drain runs one batch: what it leaves is not worth a step, or out of budget. -/
theorem Quiet.drainLoop (h : config.Quiet) {fuel remaining total : ℕ}
    (hrun : config.drainLoop .any (fuel + 1) remaining 0 s = .ok total s') :
    total = config.drainSteps s .any remaining ∧
      s'.accumulators = s.accumulators.consumeAccumulatorBacklog
        (config.drainSteps s .any remaining * config.stepSizeMs) .any := by
  by_cases hidle : config.drainSteps s .any remaining = 0
  · rw [drainLoop_of_idle _ _ hidle] at hrun
    cases hrun
    rw [hidle, Nat.cast_zero, zero_mul, Accumulators.consumeAccumulatorBacklog_of_nonpos _ le_rfl]
    exact ⟨rfl, rfl⟩
  · change (if config.drainSteps s .any remaining = 0 then _ else _ :
      RuntimeM JsValue EventPayload World ℕ) s = _ at hrun
    rw [if_neg hidle] at hrun
    change EStateM.bind _ _ s = _ at hrun
    rw [EStateM.bind] at hrun
    obtain ⟨havailable, hbudget⟩ := config.drainSteps_le hidle
    rcases hbatch : config.runDebitedBatch .any (config.drainSteps s .any remaining) s
      with ⟨ran, s₁⟩ | ⟨error, s₁⟩
    · rw [hbatch] at hrun
      obtain ⟨rfl, -⟩ := (config.runDebitedBatch_spec .any _).ok hbatch havailable
      have hleft : s₁.accumulators = s.accumulators.consumeAccumulatorBacklog
          (config.drainSteps s .any remaining * config.stepSizeMs) .any :=
        (h.runTickBatchLoop _ true 0).ok hbatch
      have hdone := drainSteps_consumed havailable hleft
      change config.drainLoop .any fuel _ _ s₁ = _ at hrun
      rw [drainLoop_of_idle _ _ hdone] at hrun
      cases hrun
      exact ⟨by omega, hleft⟩
    · rw [hbatch] at hrun
      cases hrun

/-- **A tick of a quiet runtime.** -/
theorem Quiet.tick (h : config.Quiet) {processed : ℕ}
    (htick : config.tick (.fin config.stepSizeMs) s = .ok processed s') :
    config.quietTick s.accumulators = (processed, s'.accumulators) := by
  have hpos := config.stepSizeMs_pos
  let accepted : RuntimeState JsValue EventPayload World :=
    { s with
      accumulators := s.accumulators.addHostFrame config.stepSizeMs
      acceptedMs := config.stepSizeMs :: s.acceptedMs }
  have hrun :
      config.drainAccumulator config.maxStepsPerFrame .any accepted = .ok processed s' := by
    rw [RuntimeConfig.tick, JsNumber.finite?] at htick
    dsimp only at htick
    rw [if_neg (not_le.mpr hpos)] at htick
    exact htick
  have hsteps : (min ⌊accepted.accumulators.totalMs / config.stepSizeMs⌋
      ⌊config.maxStepsPerFrame⌋).toNat =
        config.drainSteps accepted .any ⌊config.maxStepsPerFrame⌋.toNat := by
    have hnonneg : 0 ≤ ⌊accepted.accumulators.availableMs .any / config.stepSizeMs⌋ :=
      Int.floor_nonneg.mpr (div_nonneg (normalizeBacklogMs _).nonneg hpos.le)
    rw [drainSteps]
    change (min ⌊accepted.accumulators.availableMs .any / config.stepSizeMs⌋ _).toNat = _
    omega
  rw [drainAccumulator] at hrun
  rw [quietTick]
  change ((min ⌊accepted.accumulators.totalMs / config.stepSizeMs⌋
    ⌊config.maxStepsPerFrame⌋).toNat, accepted.accumulators.consumeAccumulatorBacklog
      ((min ⌊accepted.accumulators.totalMs / config.stepSizeMs⌋
        ⌊config.maxStepsPerFrame⌋).toNat * config.stepSizeMs) .any) = _
  rw [hsteps]
  rcases hbudget : ⌊config.maxStepsPerFrame⌋.toNat with _ | budget
  · -- the frame allows no step
    have hnone : config.drainSteps accepted .any 0 = 0 := by
      rw [drainSteps]
      omega
    have hsame : (pure 0 : RuntimeM JsValue EventPayload World ℕ) accepted = .ok processed s' := by
      rw [hbudget] at hrun
      split at hrun
      · exact hrun
      · exact hrun
    obtain ⟨hzero, hstate⟩ := EStateM.Result.ok.inj hsame
    rw [← hzero, ← hstate, hnone, Nat.cast_zero, zero_mul,
      Accumulators.consumeAccumulatorBacklog_of_nonpos _ le_rfl]
  · rw [hbudget, if_neg] at hrun
    · obtain ⟨rfl, hleft⟩ := h.drainLoop hrun
      rw [hleft]
    · intro hle
      have hfloor := Int.floor_nonpos hle
      omega

end RuntimeConfig

/-! ### The loops of the replay -/

namespace PredictionManager

variable {EventPayload World Contents : Type}
  {options : PredictionManagerOptions EventPayload World Contents}
  {replay : PredictionReplayOptions EventPayload World Contents}
  {config : RuntimeConfig JsValue EventPayload World}

/-- The manager has counted the steps of a part of the replay, and knows its runtime's step if it
knew it before. -/
structure Tracks (progress last : ReplayProgress EventPayload World) : Prop where
  replayedSteps : (last.replayedSteps : ℚ) - last.runtime.currentStep =
    progress.replayedSteps - progress.runtime.currentStep
  localStep : progress.manager.localStep = progress.runtime.currentStep →
    last.manager.localStep = last.runtime.currentStep

variable {progress middle last : ReplayProgress EventPayload World}

theorem Tracks.trans (h₁ : Tracks progress middle) (h₂ : Tracks middle last) :
    Tracks progress last :=
  ⟨h₂.replayedSteps.trans h₁.replayedSteps, fun h => h₂.localStep (h₁.localStep h)⟩

theorem recordStep_localStep (m : PredictionManager) (step : ℚ)
    (snapshot : GameStateSnapshot Contents) :
    (m.recordStep options step snapshot).localStep = step := by
  unfold recordStep
  dsimp only
  split
  · rw [recordChecksum]
    split
    · rfl
    · rfl
  · rfl

variable {σ : Type} {tick : σ → ℕ × σ} {abs : RuntimeState JsValue EventPayload World → σ}

/-- The ticks of a batch are all run, or one of them runs no step and ends the replay. -/
theorem replayBatch_ticks
    (hticks : ∀ s processed s', config.tick (.fin config.stepSizeMs) s = .ok processed s' →
      tick (abs s) = (processed, abs s'))
    {n : ℕ} (hrun : replayBatch options replay config n progress = .ok last) :
    Tracks progress last ∧ ∃ m ≤ n, Busy tick m (abs progress.runtime) ∧
      last.runtime.currentStep =
        progress.runtime.currentStep + (ticks tick m (abs progress.runtime)).1 ∧
      ((m = n ∧ abs last.runtime = (ticks tick n (abs progress.runtime)).2 ∧
          last.remainingSteps =
            progress.remainingSteps - (ticks tick n (abs progress.runtime)).1) ∨
        m < n ∧ (tick (ticks tick m (abs progress.runtime)).2).1 = 0 ∧
          last.remainingSteps = 0) := by
  induction n generalizing progress with
  | zero =>
    obtain rfl := Except.ok.inj hrun
    exact ⟨⟨rfl, id⟩, 0, le_rfl, trivial, by simp [ticks], .inl ⟨rfl, rfl, by simp [ticks]⟩⟩
  | succ n ih =>
    unfold replayBatch at hrun
    dsimp only at hrun
    split at hrun
    · cases hrun
    · next processed runtime htick =>
      have hfirst := hticks _ _ _ htick
      have hstep : runtime.currentStep = progress.runtime.currentStep + processed :=
        RuntimeConfig.tick_step htick
      split at hrun
      · next hzero =>
        -- a tick that runs no step ends the replay
        obtain rfl := Except.ok.inj hrun
        have hsame : runtime.currentStep = progress.runtime.currentStep := by simp [hstep, hzero]
        refine ⟨⟨by rw [hsame], fun h => h.trans hsame.symm⟩, 0, Nat.zero_le _, trivial, ?_,
          .inr ⟨Nat.succ_pos n, ?_, rfl⟩⟩
        · simp [ticks, hsame]
        · simp [ticks, hfirst, hzero]
      · next hsome =>
        obtain ⟨htracks, m, hm, hbusy, hcurrent, hends⟩ := ih hrun
        refine ⟨Tracks.trans ⟨?_, fun _ => recordStep_localStep _ _ _⟩ htracks, m + 1, by omega,
          ⟨by rwa [hfirst], by rwa [hfirst]⟩, ?_, ?_⟩
        · push_cast
          rw [hstep]
          ring
        · rw [hcurrent, ticks, hfirst, hstep]
          push_cast
          ring
        · rw [ticks, ticks, hfirst]
          refine hends.imp ?_ ?_
          · rintro ⟨rfl, hlast, hleft⟩
            refine ⟨rfl, hlast, ?_⟩
            rw [hleft]
            push_cast
            ring
          · rintro ⟨hlt, hidle, hleft⟩
            exact ⟨by omega, hidle, hleft⟩

/-- **A replay that returns** has run exactly what was missing if and only if its batches fit. -/
theorem replayLoop_lands_iff
    (hticks : ∀ s processed s', config.tick (.fin config.stepSizeMs) s = .ok processed s' →
      tick (abs s) = (processed, abs s'))
    {fuel : ℕ} (hfuel : progress.remainingSteps ≤ fuel)
    (hrun : replayLoop options replay config fuel progress = .ok last) :
    Tracks progress last ∧
      (last.runtime.currentStep = progress.runtime.currentStep + progress.remainingSteps ↔
        Fits tick (max 1 (options.window.maxReplayStepsPerTick : ℚ)) (abs progress.runtime)
          progress.remainingSteps) := by
  induction fuel generalizing progress with
  | zero =>
    obtain rfl := Except.ok.inj hrun
    exact ⟨⟨rfl, id⟩, left_eq_add.trans (fits_iff_of_nonpos (by simpa using hfuel)).symm⟩
  | succ fuel ih =>
    unfold replayLoop at hrun
    split at hrun
    · next hnone =>
      obtain rfl := Except.ok.inj hrun
      exact ⟨⟨rfl, id⟩, left_eq_add.trans (fits_iff_of_nonpos hnone).symm⟩
    · next hsome =>
      have hpos := not_le.mp hsome
      dsimp only at hrun
      split at hrun
      · cases hrun
      · next middle hbatch =>
        obtain ⟨htracks, n, hn, hbusy, hcurrent, hends⟩ := replayBatch_ticks hticks hbatch
        rcases hends with ⟨rfl, hstate, hleft⟩ | ⟨hlt, hidle, hleft⟩
        · have hone : 1 ≤ ⌈min (max 1 (options.window.maxReplayStepsPerTick : ℚ))
              progress.remainingSteps⌉₊ :=
            Nat.one_le_ceil_iff.mpr (lt_min (lt_max_of_lt_left one_pos) hpos)
          have hfuel' : middle.remainingSteps ≤ fuel := by
            push_cast at hfuel
            linarith [(Nat.one_le_cast (α := ℚ)).mpr (hone.trans hbusy.le_ticks)]
          obtain ⟨hrest, hiff⟩ := ih hfuel' hrun
          refine ⟨htracks.trans hrest, ?_⟩
          rw [fits_iff_of_busy hpos hbusy, ← hstate, ← hleft, ← hiff, hcurrent, hleft,
            add_add_sub_cancel]
        · have hend : replayLoop options replay config fuel middle = .ok middle := by
            cases fuel with
            | zero => rfl
            | succ fuel => rw [replayLoop, if_pos hleft.le]
          obtain rfl := Except.ok.inj (hend.symm.trans hrun)
          refine ⟨htracks, ?_⟩
          rw [hcurrent, fits_iff_of_idle hpos hlt hbusy hidle]
          exact add_right_inj _

variable (abs) in
/-- The replay of a runtime that was restored from a snapshot of the step `fromStep`. -/
theorem replayToStep_lands_iff
    (hticks : ∀ s processed s', config.tick (.fin config.stepSizeMs) s = .ok processed s' →
      tick (abs s) = (processed, abs s')) {m : PredictionManager}
    {now : RuntimeState JsValue EventPayload World × List (CommandEvent JsValue)}
    {fromStep toStep : ℚ} (hlocal : m.localStep = fromStep) (hle : fromStep ≤ toStep)
    (hstart : now.1.currentStep = if 0 ≤ fromStep then fromStep else 0)
    (hrun : m.replayToStep options replay config now toStep = .ok last) :
    (last.runtime.currentStep = toStep ∧ last.manager.localStep = toStep ∧
        (last.replayedSteps : ℚ) = toStep - fromStep) ↔
      0 ≤ fromStep ∧ Fits tick (max 1 (options.window.maxReplayStepsPerTick : ℚ)) (abs now.1)
        (toStep - fromStep) := by
  rw [replayToStep] at hrun
  obtain ⟨htracks, hiff⟩ := replayLoop_lands_iff hticks (by exact Nat.le_ceil _) hrun
  have hcounted := htracks.replayedSteps
  dsimp only at hcounted hiff
  rw [Nat.cast_zero] at hcounted
  by_cases hfrom : 0 ≤ fromStep
  · rw [if_pos hfrom] at hstart
    rw [hstart, max_eq_right (sub_nonneg.mpr hle), add_sub_cancel] at hiff
    rw [hstart] at hcounted
    constructor
    · exact fun h => ⟨hfrom, hiff.mp h.1⟩
    · intro h
      have hlanded := hiff.mpr h.2
      refine ⟨hlanded, ?_, by linarith⟩
      exact (htracks.localStep (hlocal.trans hstart.symm)).trans hlanded
  · -- the runtime starts from zero instead, so what it counts is not what was missing
    rw [if_neg hfrom] at hstart
    refine iff_of_false ?_ fun h => hfrom h.1
    rintro ⟨hlanded, -, hreplayed⟩
    linarith

/-- A replay has taken runtime and manager from one step to another, and says so. -/
structure Lands (fromStep toStep : ℚ) (m : PredictionManager)
    (reconciliation : Reconciliation EventPayload World) : Prop where
  runtime : reconciliation.replaced.map (·.1.currentStep) = some toStep
  localStep : m.localStep = toStep ∧ reconciliation.result.localStep = toStep
  replayedSteps : reconciliation.result.replayedSteps = toStep - fromStep

theorem lands_iff {result : RollbackResult} {fromStep toStep : ℚ}
    (hlocal : result.localStep = last.manager.localStep)
    (hcount : result.replayedSteps = last.replayedSteps) :
    Lands fromStep toStep last.manager
        { result, replaced := some (last.runtime, last.events) } ↔
      last.runtime.currentStep = toStep ∧ last.manager.localStep = toStep ∧
        (last.replayedSteps : ℚ) = toStep - fromStep := by
  constructor
  · exact fun h => ⟨Option.some.inj h.runtime, h.localStep.1, hcount.symm.trans h.replayedSteps⟩
  · rintro ⟨hstep, hmanager, hreplayed⟩
    exact ⟨congrArg some hstep, ⟨hmanager, hlocal.trans hmanager⟩, hcount.trans hreplayed⟩

/-- The programs of `replayedConfig` credit no time. -/
theorem quiet_replayedConfig : replayedConfig.Quiet := by
  rintro program (⟨hhandler, -⟩ | - | ⟨hsystem, -⟩)
  · cases hhandler
  · exact .pure _
  · cases hsystem

/-- The server's state of the first step, with one step of backlog. -/
def backloggedSnapshot : GameStateSnapshot String :=
  { wordSnapshot 1 .undefined "confirmed" with
    backlog := record [("hostFrameBacklogMs", number (.fin 100))] }

end PredictionManager

end IdleEngine
