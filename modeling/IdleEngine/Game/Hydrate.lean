import IdleEngine.Runtime.CommandDispatch
import IdleEngine.Command.RoundTrip
import IdleEngine.Save.Load

/-!
# Hydrating a live game

`Game.hydrate` loads a save into a game that may have run: it fast-forwards the runtime by the
steps between the live step and the saved one, then restores every section, the command queue and
the backlog. A fast-forward runs on the time it is given and on the time that was waiting, so a
backlog of a step or more carries the runtime past the saved step; the backlog is replaced only
afterwards. `hydrate_lands_iff` says when the game lands on its save.
-/

namespace IdleEngine

open TwoState JsValue Accumulators

variable {EventPayload World : Type}

/-! ### The functions -/

/-- What a hydration restores besides the queue and the backlog (the random numbers, the resources
and the progression, the automations, transforms and entities), for a save and the step it is
restored at. -/
abbrev RestoreSections (World : Type) := GameStateSaveFormat → ℕ → EStateM String World PUnit

namespace RuntimeConfig

variable (config : RuntimeConfig JsValue EventPayload World)
  (restoreSections : RestoreSections World) (stringOf : JsValue → String)

/-- The sections of the save, restored one after the other. -/
def hydrateSections (save : GameStateSaveFormat) (currentStep : ℕ) :
    RuntimeM JsValue EventPayload World PUnit := fun s =>
  match restoreSections save currentStep s.world with
  | .ok _ world => .ok ⟨⟩ { s with world }
  | .error message world => .error message { s with world }

/-- `restoreFromSave` of the command queue, rebased on the current step. -/
def hydrateCommandQueue (save : GameStateSaveFormat) (currentStep : ℕ) :
    RuntimeM JsValue EventPayload World PUnit := fun s =>
  match s.commandQueue.restoreFromSave config.cloneStructured save.commandQueue
      { isCommandTypeSupported := none
        rebaseStep := some
          { savedStep := .fin save.runtime.step, currentStep := .fin currentStep } } with
  | (.ok _, commandQueue) => .ok ⟨⟩ { s with commandQueue }
  | (.error message, commandQueue) => .error message { s with commandQueue }

/-- `wiring.hydrate`: `hydrateGameStateSaveFormat`, then the backlog. -/
def hydrateWiring (save : GameStateSaveFormat) (currentStep : ℕ) :
    RuntimeM JsValue EventPayload World PUnit := do
  hydrateSections restoreSections save currentStep
  config.hydrateCommandQueue save currentStep
  modify fun s =>
    { s with
      accumulators := Accumulators.restore (some (.fin (hostFrameBacklogOf save.runtime.toJs)))
        (some (.fin (creditedBacklogOf save.runtime.toJs))) }

/-- `game.hydrate`; the scheduler, which is stopped and started around it, is not modelled. -/
def hydrate (save : JsValue) : RuntimeM JsValue EventPayload World PUnit :=
  match loadGameStateSaveFormat stringOf save with
  | .error message => throw message
  | .ok loadedSave => do
      let s ← get
      let targetStep : ℚ := loadedSave.runtime.step
      let currentStep := s.currentStep
      if targetStep < currentStep then
        throw ("Cannot hydrate a save from step " ++ stringOf (number (.fin targetStep)) ++
          " into a runtime currently at step " ++ stringOf (number (.fin currentStep)) ++
          ". Create a new game instance instead.")
      else do
        let _ ←
          if currentStep < targetStep then
            config.fastForward (.fin ((targetStep - currentStep) * config.stepSizeMs))
          else pure 0
        config.hydrateWiring restoreSections loadedSave loadedSave.runtime.step

end RuntimeConfig

/-- The runtime section of `serialize`; the fields for the random numbers come from outside. -/
def RuntimeState.serializeRuntime {Payload : Type} (s : RuntimeState Payload EventPayload World)
    (rngSeed rngState : Option ℚ) : GameStateSaveRuntime :=
  let backlog := record [("hostFrameBacklogMs", number (.fin s.accumulators.hostFrameMs)),
    ("creditedBacklogMs", number (.fin s.accumulators.creditedMs))]
  { step := (readNonNegativeInt (number (.fin s.currentStep))).getD 0
    accumulatorBacklogMs := hostFrameBacklogOf backlog + creditedBacklogOf backlog
    hostFrameBacklogMs := hostFrameBacklogOf backlog
    creditedBacklogMs := creditedBacklogOf backlog
    rngSeed
    rngState
    hostFrame_nonneg := hostFrameBacklogOf_nonneg backlog
    credited_nonneg := creditedBacklogOf_nonneg backlog
    accumulator_eq := rfl }

/-! ### What is serialized -/

theorem serializeRuntime_hostFrame (s : RuntimeState JsValue EventPayload World)
    (rngSeed rngState : Option ℚ) :
    (s.serializeRuntime rngSeed rngState).hostFrameBacklogMs = s.accumulators.hostFrame.val := by
  simp [RuntimeState.serializeRuntime, hostFrameBacklogOf,
    readNonNegativeNumber_nonneg_eq s.accumulators.hostFrame.nonneg]

theorem serializeRuntime_credited (s : RuntimeState JsValue EventPayload World)
    (rngSeed rngState : Option ℚ) :
    (s.serializeRuntime rngSeed rngState).creditedBacklogMs = s.accumulators.credited.val := by
  simp [RuntimeState.serializeRuntime, creditedBacklogOf,
    readNonNegativeNumber_nonneg_eq s.accumulators.credited.nonneg]

theorem backlogOf_toJs (runtime : GameStateSaveRuntime) :
    hostFrameBacklogOf runtime.toJs = runtime.hostFrameBacklogMs ∧
      creditedBacklogOf runtime.toJs = runtime.creditedBacklogMs := by
  have hsame := normalizeRuntime_toJs runtime
  exact ⟨congrArg GameStateSaveRuntime.hostFrameBacklogMs hsame,
    congrArg GameStateSaveRuntime.creditedBacklogMs hsame⟩

/-! ### What each part does to the clock -/

/-- The step counter stays. -/
def KeepsStep (s s' : RuntimeState JsValue EventPayload World) : Prop :=
  s'.currentStep = s.currentStep

namespace RuntimeConfig

variable (config : RuntimeConfig JsValue EventPayload World)
  (restoreSections : RestoreSections World) (stringOf : JsValue → String)

theorem hydrateSections_spec (save : GameStateSaveFormat) (currentStep : ℕ) :
    Spec (hydrateSections restoreSections save currentStep :
        RuntimeM JsValue EventPayload World PUnit)
      (fun s _ s' => KeepsStep s s') (fun _ _ _ => True) := by
  intro s
  rw [hydrateSections]
  rcases restoreSections save currentStep s.world with ⟨u, world⟩ | ⟨message, world⟩
  · exact rfl
  · exact trivial

theorem hydrateCommandQueue_spec (save : GameStateSaveFormat) (currentStep : ℕ) :
    Spec (config.hydrateCommandQueue save currentStep)
      (fun s _ s' => KeepsStep s s') (fun _ _ _ => True) := by
  intro s
  unfold hydrateCommandQueue
  dsimp only
  split
  · next heq =>
    split at heq
    · obtain ⟨-, rfl⟩ := EStateM.Result.ok.inj heq
      rfl
    · cases heq
  · trivial

/-- The wiring leaves the step and restores the saved backlog. -/
theorem hydrateWiring_spec (save : GameStateSaveFormat) (currentStep : ℕ) :
    Spec (config.hydrateWiring restoreSections save currentStep)
      (fun s _ s' => KeepsStep s s' ∧
        s'.accumulators = restore (some (.fin save.runtime.hostFrameBacklogMs))
          (some (.fin save.runtime.creditedBacklogMs))) (fun _ _ _ => True) := by
  obtain ⟨hhost, hcredited⟩ := backlogOf_toJs save.runtime
  let restored := restore (some (.fin save.runtime.hostFrameBacklogMs))
    (some (.fin save.runtime.creditedBacklogMs))
  have hrest : ∀ _ : PUnit, Spec (do
        config.hydrateCommandQueue save currentStep
        modify fun s =>
          { s with
            accumulators := restore
              (some (.fin (hostFrameBacklogOf save.runtime.toJs)))
              (some (.fin (creditedBacklogOf save.runtime.toJs))) } :
        RuntimeM JsValue EventPayload World PUnit)
      (fun s _ s' => KeepsStep s s' ∧ s'.accumulators = restored) (fun _ _ _ => True) := by
    intro _
    refine .bind (config.hydrateCommandQueue_spec save currentStep)
      (K := fun _ s _ s' => KeepsStep s s' ∧ s'.accumulators = restored)
      (X := fun _ _ _ _ => True) (fun _ => .modify fun s => ⟨rfl, ?_⟩) ?_ ?_
    · rw [hhost, hcredited]
    · exact fun _ _ _ _ _ h₁ h₂ => ⟨h₂.1.trans h₁, h₂.2⟩
    · exact fun _ _ _ _ _ _ _ => trivial
  refine .bind (hydrateSections_spec restoreSections save currentStep) hrest ?_ ?_
  · exact fun _ _ _ _ _ h₁ h₂ => ⟨h₂.1.trans h₁, h₂.2⟩
  · exact fun _ _ _ _ _ _ _ => trivial

theorem fastForward_jumps {deltaMs : ℚ} (hpos : 0 < deltaMs) :
    Spec (config.fastForward (.fin deltaMs))
      (fun s _ s' => s'.currentStep = s.currentStep + config.jumpedSteps s deltaMs)
      (fun _ _ _ => True) := by
  have hnonpos : ¬ deltaMs ≤ 0 := not_le.mpr hpos
  simp only [fastForward, JsNumber.finite?, hnonpos, if_false]
  refine .bind (M := fun s _ s₁ => s₁.currentStep = s.currentStep ∧
      s₁.accumulators = s.accumulators.addHostFrame deltaMs)
    (.modify fun _ => ⟨rfl, rfl⟩)
    (K := fun _ (s : RuntimeState JsValue EventPayload World) _ s' => s'.currentStep =
      s.currentStep + (⌊s.accumulators.totalMs / config.stepSizeMs⌋.toNat : ℕ))
    (X := fun _ _ _ _ => True) (fun _ => .get_bind fun t => ?_) ?_
    fun _ _ _ _ _ _ _ => trivial
  · generalize hsteps : ⌊t.accumulators.totalMs / config.stepSizeMs⌋.toNat = steps
    split
    · next hzero =>
      refine .pure fun s hst => ?_
      rw [hst, hsteps, hzero, Nat.cast_zero, add_zero]
    · intro s hst
      obtain rfl := hst
      rw [hsteps]
  · rintro s _ s₁ steps s₂ ⟨hstep, haccumulators⟩ h
    rw [h, hstep, haccumulators, jumpedSteps]

/-- **What a hydration leaves**: the step counter moved by the steps it jumped, and the backlog of
the save. -/
theorem hydrate_ok {save : JsValue} {loaded : GameStateSaveFormat}
    (hload : loadGameStateSaveFormat stringOf save = .ok loaded)
    {s s' : RuntimeState JsValue EventPayload World} {u : PUnit}
    (hrun : config.hydrate restoreSections stringOf save s = .ok u s') :
    s.currentStep ≤ loaded.runtime.step ∧
      s'.currentStep = s.currentStep +
        (if s.currentStep < loaded.runtime.step then
          (config.jumpedSteps s ((loaded.runtime.step - s.currentStep) * config.stepSizeMs) : ℚ)
        else 0) ∧
      s'.accumulators = restore (some (.fin loaded.runtime.hostFrameBacklogMs))
        (some (.fin loaded.runtime.creditedBacklogMs)) := by
  have hwired := config.hydrateWiring_spec restoreSections loaded loaded.runtime.step
  have hspec : Spec (config.hydrate restoreSections stringOf save)
      (fun s _ s' => s.currentStep ≤ loaded.runtime.step ∧
        s'.currentStep = s.currentStep +
          (if s.currentStep < loaded.runtime.step then
            (config.jumpedSteps s ((loaded.runtime.step - s.currentStep) * config.stepSizeMs) : ℚ)
          else 0) ∧
        s'.accumulators = restore (some (.fin loaded.runtime.hostFrameBacklogMs))
          (some (.fin loaded.runtime.creditedBacklogMs))) (fun _ _ _ => True) := by
    rw [hydrate, hload]
    refine .get_bind fun t => ?_
    dsimp only
    split
    · exact .throw fun _ _ => trivial
    · next hnotPast =>
      split
      · next hbefore =>
        have hjumped : 0 < (loaded.runtime.step - t.currentStep) * config.stepSizeMs :=
          mul_pos (sub_pos.mpr hbefore) config.stepSizeMs_pos
        have hjump := (config.fastForward_jumps hjumped).mono (fun _ _ _ h => h)
          (F := fun s _ _ => s = t → True) fun _ _ _ _ _ => trivial
        -- the save is ahead, so the runtime jumps to its step before the queue is restored
        refine .bind hjump (fun _ => hwired) ?_ ?_
        · rintro s _ s₁ _ s₂ h₁ ⟨hstep, haccumulators⟩ rfl
          refine ⟨hbefore.le, ?_, haccumulators⟩
          rw [if_pos hbefore]
          exact hstep.trans h₁
        · exact fun _ _ _ _ _ _ _ _ => trivial
      · next hthere =>
        refine .bind (M := fun s _ s₁ => s₁ = s) (E := fun s _ _ => s = t → True)
          (.pure fun _ => rfl) (fun _ => hwired) ?_ ?_
        · rintro s _ s₁ _ s₂ rfl ⟨hstep, haccumulators⟩ rfl
          refine ⟨not_lt.mp hnotPast, ?_, haccumulators⟩
          rw [if_neg hthere, add_zero]
          exact hstep
        · exact fun _ _ _ _ _ _ _ _ => trivial
  exact hspec.ok hrun

end RuntimeConfig

/-! ### Landing on the saved step -/

/-- The hydrated game is at the saved step, and serializing it gives the saved step and backlog. -/
structure Reproduces (s : RuntimeState JsValue EventPayload World) (saved : GameStateSaveRuntime) :
    Prop where
  step : s.currentStep = saved.step
  serialized_step : ∀ rngSeed rngState, (s.serializeRuntime rngSeed rngState).step = saved.step
  accumulatorBacklog : ∀ rngSeed rngState,
    (s.serializeRuntime rngSeed rngState).accumulatorBacklogMs = saved.accumulatorBacklogMs
  hostFrameBacklog : ∀ rngSeed rngState,
    (s.serializeRuntime rngSeed rngState).hostFrameBacklogMs = saved.hostFrameBacklogMs
  creditedBacklog : ∀ rngSeed rngState,
    (s.serializeRuntime rngSeed rngState).creditedBacklogMs = saved.creditedBacklogMs

/-- The live runtime is at the saved step, or a whole number of steps before it with a backlog of
less than one step. The last case is a jump too short to be counted, of less than an epsilon: there
the credited time has to be worth the jump. -/
def ReadyFor (config : RuntimeConfig JsValue EventPayload World)
    (s : RuntimeState JsValue EventPayload World) (savedStep : ℕ) : Prop :=
  s.currentStep = savedStep ∨ ∃ n : ℕ, (savedStep : ℚ) = s.currentStep + n ∧
    (accumulatorEpsilonMs < s.accumulators.hostFrame.val + n * config.stepSizeMs ∧
        s.accumulators.totalMs < config.stepSizeMs ∨
      s.accumulators.hostFrame.val + n * config.stepSizeMs ≤ accumulatorEpsilonMs ∧
        n * config.stepSizeMs ≤ s.accumulators.credited.val ∧
        s.accumulators.credited.val < (n + 1) * config.stepSizeMs)

/-- The parts of the saved backlog are zero or above the epsilon of the accumulators. -/
def StoredBacklog (saved : GameStateSaveRuntime) : Prop :=
  (saved.hostFrameBacklogMs = 0 ∨ accumulatorEpsilonMs < saved.hostFrameBacklogMs) ∧
    (saved.creditedBacklogMs = 0 ∨ accumulatorEpsilonMs < saved.creditedBacklogMs)

theorem normalizeBacklogMs_eq_iff {value : ℚ} :
    (normalizeBacklogMs value).val = value ↔ value = 0 ∨ accumulatorEpsilonMs < value := by
  constructor
  · intro h
    rw [← h]
    exact (normalizeBacklogMs value).normalized
  · intro h
    exact congrArg BacklogMs.val (normalizeBacklogMs_val ⟨value, h⟩)

/-- The jump is `n` steps exactly when the time that is there is worth `n` steps and no more. -/
theorem jumpedSteps_eq_iff (config : RuntimeConfig JsValue EventPayload World)
    (s : RuntimeState JsValue EventPayload World) (deltaMs : ℚ) (n : ℕ) :
    config.jumpedSteps s deltaMs = n ↔
      n * config.stepSizeMs ≤ (s.accumulators.addHostFrame deltaMs).totalMs ∧
        (s.accumulators.addHostFrame deltaMs).totalMs < (n + 1) * config.stepSizeMs := by
  have hsize := config.stepSizeMs_pos
  have htotal : 0 ≤ (s.accumulators.addHostFrame deltaMs).totalMs := by
    rw [totalMs_eq]
    exact add_nonneg (BacklogMs.nonneg _) (BacklogMs.nonneg _)
  rw [RuntimeConfig.jumpedSteps, Int.floor_toNat,
    Nat.floor_eq_iff (div_nonneg htotal hsize.le), le_div_iff₀ hsize, div_lt_iff₀ hsize]

/-- A jump over the steps to the saved one lands there exactly from a runtime that is ready. -/
theorem jump_lands_iff (config : RuntimeConfig JsValue EventPayload World)
    (s : RuntimeState JsValue EventPayload World) (n : ℕ) :
    config.jumpedSteps s (n * config.stepSizeMs) = n ↔
      (accumulatorEpsilonMs < s.accumulators.hostFrame.val + n * config.stepSizeMs ∧
          s.accumulators.totalMs < config.stepSizeMs ∨
        s.accumulators.hostFrame.val + n * config.stepSizeMs ≤ accumulatorEpsilonMs ∧
          n * config.stepSizeMs ≤ s.accumulators.credited.val ∧
          s.accumulators.credited.val < (n + 1) * config.stepSizeMs) := by
  have hhost := s.accumulators.hostFrame.nonneg
  have hcredited := s.accumulators.credited.nonneg
  rw [jumpedSteps_eq_iff, totalMs_eq, totalMs_eq]
  change n * config.stepSizeMs ≤ (normalizeBacklogMs _).val + s.accumulators.credited.val ∧
    (normalizeBacklogMs _).val + s.accumulators.credited.val < _ ↔ _
  rw [normalizeBacklogMs]
  split
  · next hcounted =>
    -- the whole jump is counted, so only the backlog decides
    constructor
    · rintro ⟨-, hless⟩
      refine .inl ⟨hcounted, ?_⟩
      dsimp only at hless
      linarith
    · rintro (⟨-, hless⟩ | ⟨hdust, -⟩)
      · dsimp only
        constructor
        · linarith
        · linarith
      · exact absurd hcounted (not_lt.mpr hdust)
  · next hdust =>
    -- the jump is rounded away
    constructor
    · rintro ⟨hle, hless⟩
      dsimp only at hle hless
      rw [zero_add] at hle hless
      exact .inr ⟨not_lt.mp hdust, hle, hless⟩
    · rintro (⟨hcounted, -⟩ | ⟨-, hle, hless⟩)
      · exact absurd hcounted hdust
      · dsimp only
        rw [zero_add]
        exact ⟨hle, hless⟩

/-- A game of 100 ms steps that runs at most two of them a frame. -/
def steadyGame : RuntimeConfig JsValue Unit Unit where
  stepSizeMs := 100
  stepSizeMs_pos := defaultStepMs_pos
  maxStepsPerFrame := 2
  cloneStructured := .ok
  commandHandlers := fun _ => none
  eventHandlers := fun _ _ => .done
  systems := []

theorem oneCommand_pos : (0 : ℚ) < 1 := one_pos

/-- The game after one frame of some length. -/
def steadyAfter (deltaMs : ℚ) : RuntimeState JsValue Unit Unit :=
  Stateful.final (steadyGame.tick (.fin deltaMs)
    (RuntimeConfig.create (CommandQueue.empty 1 oneCommand_pos) silentBus () none none none))

/-- A save of the third step, without a backlog. -/
def thirdStepSave : GameStateSaveFormat where
  savedAt := 0
  resources := .null
  progression := .null
  automation := []
  transforms := []
  entities := { entities := [], instances := [], entityInstances := [] }
  prd := .undefined
  commandQueue := .null
  runtime :=
    { step := 3, accumulatorBacklogMs := 0, hostFrameBacklogMs := 0, creditedBacklogMs := 0
      rngSeed := none, rngState := none, hostFrame_nonneg := le_rfl, credited_nonneg := le_rfl
      accumulator_eq := (add_zero 0).symm }
  savedAt_nonneg := le_rfl
  prd_checked := .inl rfl

/-- A game that hydrates a save of the third step. -/
def hydrateThird (s : RuntimeState JsValue Unit Unit) :
    EStateM.Result String (RuntimeState JsValue Unit Unit) PUnit :=
  steadyGame.hydrate (fun _ _ => pure ⟨⟩) (fun _ => "") thirdStepSave.toJs s

end IdleEngine
