import Mathlib.Data.Fintype.Card
import IdleEngine.Progression.Steps

/-!
# The completions of an update

An update evaluates the achievements again and again. `logUpdateForStep` is the update with a log
beside it: every completion is entered with its step and with the reset window that is evaluated
then. Nothing reads the log, and without it the update is the one of the facade
(`logUpdateForStep_final`).

An achievement that completes is closed for the step: a single one has completed for good, a
repeatable one has reached its limit or waits for a later step. So an update enters an achievement
at most once, the passes that complete one are at most as many as there are achievements, and the
loop ends because a pass completes none (`updateForStep_settles`).
-/

namespace IdleEngine

open Relation Stateful List

variable {sh : ContentShape}

/-! ### What leaves achievements alone -/

/-- What changes no achievement. -/
abbrev SpareAchievements {α : Type} (m : ProgressionM sh α) : Prop :=
  Performs (fun c c' : Coordinator sh => c'.achievements = c.achievements) m

theorem spare_modify {f : Coordinator sh → Coordinator sh}
    (h : ∀ c, (f c).achievements = c.achievements) : SpareAchievements (modify f) :=
  .modify fun c => .single (h c)

variable (options : ProgressionOptions sh)

namespace Coordinator

/-- Other achievements, in a coordinator that is otherwise the same. -/
def withAchievements (c : Coordinator sh) (achievements : Fin sh.achievements → AchievementState) :
    Coordinator sh :=
  { c with achievements }

@[simp]
theorem withAchievements_self (c : Coordinator sh) : c.withAchievements c.achievements = c := rfl

theorem applyUnlockedGenerators_withAchievements (c : Coordinator sh)
    (achievements : Fin sh.achievements → AchievementState)
    (generators : List (Fin sh.generators)) (step : ℕ) :
    (c.withAchievements achievements).applyUnlockedGenerators generators step =
      (c.applyUnlockedGenerators generators step).withAchievements achievements := by
  induction generators generalizing c with
  | nil => rfl
  | cons i generators ih => exact ih (applyUnlockedGenerator step c i)

theorem applyUpgradeEffects_withAchievements (c : Coordinator sh)
    (achievements : Fin sh.achievements → AchievementState) (step : ℕ)
    (effects : UpgradeEffects sh) :
    (c.withAchievements achievements).applyUpgradeEffects options step effects =
      (c.applyUpgradeEffects options step effects).withAchievements achievements := by
  rw [applyUpgradeEffects, applyUpgradeEffects]
  have hgenerators := applyUnlockedGenerators_withAchievements
    ((({ c with upgradeEffectsCache := some (step, effects) }
      ).applyDerivedStateFromEffects effects).rebuildCombinedAutomationIds.applyUnlockedResources
        effects.unlockedResources) achievements effects.unlockedGenerators step
  exact congrArg (fun t : Coordinator sh =>
    (t.applyCapacityOverrides options effects.resourceCapacityOverrides
      ).applyDirtyToleranceOverrides options effects.dirtyToleranceOverrides) hgenerators

theorem getUpgradeEffects_withAchievements (c : Coordinator sh)
    (achievements : Fin sh.achievements → AchievementState) (step : ℕ) :
    ((c.withAchievements achievements).getUpgradeEffects options step).2 =
      ((c.getUpgradeEffects options step).2).withAchievements achievements :=
  applyUpgradeEffects_withAchievements options c achievements step _

@[simp]
theorem getUpgradeEffects_achievements (c : Coordinator sh) (step : ℕ) :
    (c.getUpgradeEffects options step).2.achievements = c.achievements := by
  have h := getUpgradeEffects_withAchievements options c c.achievements step
  rw [withAchievements_self] at h
  rw [h, withAchievements]

theorem writePurchases_withAchievements (c : Coordinator sh)
    (achievements : Fin sh.achievements → AchievementState) (i : Fin sh.upgrades)
    (purchases : ℕ) :
    (c.withAchievements achievements).writePurchases options i purchases =
      (c.writePurchases options i purchases).withAchievements achievements :=
  getUpgradeEffects_withAchievements options
    { c.setUpgrade i { c.upgrades i with purchases } with upgradeEffectsCache := none }
    achievements c.lastUpdatedStep

/-- Rewards do not depend on achievements. -/
theorem applyAchievementReward_withAchievements (c : Coordinator sh)
    (achievements : Fin sh.achievements → AchievementState)
    (achievement : AchievementContent sh) (context : FormulaContext) :
    (c.withAchievements achievements).applyAchievementReward options achievement context =
      (c.applyAchievementReward options achievement context).withAchievements achievements := by
  rw [applyAchievementReward, applyAchievementReward]
  split
  · rw [grantAchievementResource, grantAchievementResource]
    split <;> rfl
  · exact writePurchases_withAchievements options c achievements _ _
  all_goals rfl

@[simp]
theorem applyAchievementReward_achievements (c : Coordinator sh)
    (achievement : AchievementContent sh) (context : FormulaContext) :
    (c.applyAchievementReward options achievement context).achievements = c.achievements := by
  have h := applyAchievementReward_withAchievements options c c.achievements achievement context
  rw [withAchievements_self] at h
  rw [h, withAchievements]

theorem applyDerivedReward_achievements (c : Coordinator sh) (i : Fin sh.achievements) :
    (c.applyDerivedReward options i).achievements = c.achievements := by
  rw [applyDerivedReward]
  split <;> rfl

theorem rebuildDerivedRewards_achievements (c : Coordinator sh) :
    (c.rebuildDerivedRewards options).achievements = c.achievements := by
  have hfold := foldlRecOn (motive := fun t : Coordinator sh =>
      t.achievements = c.achievements) (collectDerivedRewardEntries c.achievements)
    (fun t i => t.applyDerivedReward options i) (b :=
      { c with
        achievementFlagState := fun _ => none, achievementAutomationIds := fun _ => false }) rfl
    fun t ht i _ => (applyDerivedReward_achievements options t i).trans ht
  exact hfold

end Coordinator

/-! ### A pass before its achievements -/

theorem spare_updateUnlockVisibility : SpareAchievements (updateUnlockVisibility options) := by
  have hresources : ∀ f, SpareAchievements (modifyResources f : ProgressionM sh Unit) :=
    fun f => spare_modify fun _ => rfl
  refine .forM fun i _ => .bind ?_ fun _ => ?_
  · rw [unlockWhenMet]
    split
    · exact .pure ()
    · refine .bind .get fun c => ?_
      split
      · exact .pure ()
      · refine .bind (reads_conditionHolds options _).performs fun met => ?_
        split
        · exact hresources _
        · exact .pure ()
  · refine .bind .get fun c => ?_
    split
    · exact .pure ()
    · split
      · refine .bind (reads_conditionHolds options _).performs fun met => ?_
        split
        · exact hresources _
        · exact .pure ()
      · split
        · exact hresources _
        · exact .pure ()

theorem spare_updateGenerators (step : ℕ) (effects : UpgradeEffects sh) :
    SpareAchievements (updateGenerators options step effects) := by
  refine .bind (.forM fun i _ => ?_) fun _ => .forM fun i _ => ?_
  · refine .bind (reads_conditionHolds options _).performs fun baseUnlock => ?_
    refine .bind .get fun c => ?_
    refine .bind (spare_modify fun _ => rfl) fun _ => ?_
    exact .bind (reads_computeGeneratorVisibility options i _).performs fun _ =>
      spare_modify fun _ => rfl
  · refine .bind (reads_readState _).performs fun produces => ?_
    exact .bind (reads_readState _).performs fun consumes => spare_modify fun _ => rfl

theorem spare_updateUpgrade (i : Fin sh.upgrades) : SpareAchievements (updateUpgrade options i) := by
  refine .bind (reads_resolveUpgradeStatus options i).performs fun status => ?_
  refine .bind (spare_modify fun _ => rfl) fun _ => ?_
  exact .bind (reads_upgradeVisible options i status).performs fun _ =>
    spare_modify fun _ => rfl

/-- A pass up to its achievements. -/
def updateBeforeAchievements (step : ℕ) : ProgressionM sh Unit := do
  modify (·.rebuildDerivedRewards options)
  let upgradeEffects ← getUpgradeEffects options step
  updateUnlockVisibility options
  updateGenerators options step upgradeEffects
  (List.finRange sh.upgrades).forM (updateUpgrade options)
  (List.finRange sh.prestigeLayers).forM (updatePrestigeLayer options)

theorem updatePass_eq (step : ℕ) : updatePass options step = (do
    updateBeforeAchievements options step
    updateAchievements options step) := by
  simp only [updatePass, updateBeforeAchievements, bind_assoc]

theorem spare_updateBeforeAchievements (step : ℕ) :
    SpareAchievements (updateBeforeAchievements options step) := by
  refine .bind (spare_modify fun c => c.rebuildDerivedRewards_achievements options)
    fun _ => ?_
  refine .bind (fun c => .single (c.getUpgradeEffects_achievements options step))
    fun effects => ?_
  refine .bind (spare_updateUnlockVisibility options) fun _ => ?_
  refine .bind (spare_updateGenerators options step effects) fun _ => ?_
  refine .bind (.forM fun i _ => spare_updateUpgrade options i) fun _ => ?_
  refine .forM fun i _ => ?_
  exact .bind (reads_conditionHolds options _).performs fun _ => spare_modify fun _ => rfl

/-! ### The update with a log -/

/-- A completion of an achievement: when, and how many ticks its reset window is then. -/
structure Completion (sh : ContentShape) where
  achievement : Fin sh.achievements
  step : ℕ
  window : ℕ

/-- A coordinator with the completions so far. -/
abbrev LoggedCoordinator (sh : ContentShape) := Coordinator sh × List (Completion sh)

/-- Operations on the coordinator and the log. -/
abbrev LoggedM (sh : ContentShape) := EStateM String (LoggedCoordinator sh)

/-- What completes no achievement. -/
def unlogged {α : Type} (m : ProgressionM sh α) : LoggedM sh α :=
  zoom Prod.fst (fun c s => (c, s.2)) m

/-- The completion of an achievement in a state, with its window at the level and the step at
which its formulas are evaluated. -/
def Coordinator.completion (c : Coordinator sh) (step : ℕ) (i : Fin sh.achievements) :
    Completion sh :=
  { achievement := i
    step
    window := resetWindow (options.content.achievements i)
      (c.formulaContext options (c.nextCompletionIndex options i) step) }

/-- `updateAchievement`, which enters the achievement when it completes. -/
def logAchievement (step : ℕ) (i : Fin sh.achievements) : LoggedM sh Bool := do
  let s ← get
  let completed ← unlogged (updateAchievement options step i)
  modify fun t => (t.1, if completed then t.2 ++ [s.1.completion options step i] else t.2)
  pure completed

/-- `updateAchievements`, with the log. -/
def logAchievements (step : ℕ) : LoggedM sh Bool :=
  (List.finRange sh.achievements).foldlM (fun completedAny i => do
    let completed ← logAchievement options step i
    pure (completedAny || completed)) false

/-- `updatePass`, with the log. -/
def logPass (step : ℕ) : LoggedM sh Bool := do
  unlogged (updateBeforeAchievements options step)
  logAchievements options step

/-- `updatePasses`, with the log. -/
def logPasses (step : ℕ) : ℕ → LoggedM sh Unit
  | 0 => pure ()
  | passes + 1 => do
      let achievementsUnlocked ← logPass options step
      if achievementsUnlocked then logPasses step passes else pure ()

/-- `updateForStep`, with the log. -/
def logUpdateForStep (step : ℕ) : LoggedM sh Unit := do
  unlogged (modify fun c => { c with lastUpdatedStep := step })
  logPasses options step (sh.achievements + 1)

/-- The logged computation is the one without the log. -/
abbrev Erases {α : Type} (m : LoggedM sh α) (m' : ProgressionM sh α) : Prop :=
  Lockstep (fun s c => s.1 = c) m m'

variable {α : Type}

theorem erases_unlogged (m : ProgressionM sh α) : Erases (unlogged m) m := by
  rintro s _ rfl
  rw [unlogged, zoom]
  split
  · next a c h =>
    rw [h]
    exact .ok a rfl
  · next message c h =>
    rw [h]
    exact .error message rfl

theorem erases_logAchievement (step : ℕ) (i : Fin sh.achievements) :
    Erases (logAchievement options step i) (updateAchievement options step i) := by
  rintro s _ rfl
  have hrun := erases_unlogged (updateAchievement options step i) s s.1 rfl
  change Alike _ (EStateM.bind (unlogged (updateAchievement options step i)) _ s) _
  rw [EStateM.bind]
  generalize unlogged (updateAchievement options step i) s = r at hrun
  generalize updateAchievement options step i s.1 = r' at hrun
  rcases hrun with ⟨completed, h⟩ | ⟨message, h⟩
  · exact .ok completed h
  · exact .error message h

theorem erases_logAchievements (step : ℕ) :
    Erases (logAchievements options step) (updateAchievements options step) :=
  Lockstep.foldlM (fun _ i _ => Lockstep.bind (erases_logAchievement options step i)
    fun _ => Lockstep.pure _) false

theorem erases_logPass (step : ℕ) : Erases (logPass options step) (updatePass options step) := by
  rw [updatePass_eq]
  exact .bind (erases_unlogged _) fun _ => erases_logAchievements options step

theorem erases_logPasses (step passes : ℕ) :
    Erases (logPasses options step passes) (updatePasses options step passes) := by
  induction passes with
  | zero => exact .pure ()
  | succ passes ih =>
    refine .bind (erases_logPass options step) fun achievementsUnlocked => ?_
    split
    · exact ih
    · exact .pure ()

theorem erases_logUpdateForStep (step : ℕ) :
    Erases (logUpdateForStep options step) (updateForStep options step) :=
  Lockstep.bind (erases_unlogged _) fun _ => erases_logPasses options step _

/-- **The log changes nothing.** -/
theorem logUpdateForStep_final (step : ℕ) (c : Coordinator sh) (log : List (Completion sh)) :
    (final (logUpdateForStep options step (c, log))).1 = final (updateForStep options step c) := by
  have hrun := erases_logUpdateForStep options step (c, log) c rfl
  generalize logUpdateForStep options step (c, log) = r at hrun
  generalize updateForStep options step c = r' at hrun
  rcases hrun with ⟨_, h⟩ | ⟨_, h⟩
  · exact h
  · exact h

/-! ### One evaluation of an achievement -/

/-- An achievement that can complete at a step, for all that its own state says. -/
structure AchievementState.Open (achievement : AchievementContent sh) (step : ℕ)
    (state : AchievementState) : Prop where
  single : achievement.mode ≠ .repeatable → state.completions = 0
  limit : achievement.mode = .repeatable →
    reachedMaximum state.completions (achievement.repeatable.bind (·.maxRepeats)) = false
  waits : achievement.mode = .repeatable → waitsUntil state.nextRepeatableAtStep step = false

/-- A repeatable achievement that has completed as often as it may. -/
def AchievementState.Exhausted (achievement : AchievementContent sh) (state : AchievementState) :
    Prop :=
  achievement.mode = .repeatable ∧
    reachedMaximum state.completions (achievement.repeatable.bind (·.maxRepeats)) = true

/-- As many completions, and the same guard unless the limit makes it void. -/
structure AchievementState.SameGuard (achievement : AchievementContent sh)
    (state state' : AchievementState) : Prop where
  completions : state'.completions = state.completions
  guard : state'.nextRepeatableAtStep = state.nextRepeatableAtStep ∨ state.Exhausted achievement

/-- A completion at a step, with a window. -/
structure AchievementState.Completes (achievement : AchievementContent sh) (step window : ℕ)
    (state state' : AchievementState) : Prop where
  isOpen : state.Open achievement step
  completions : state'.completions = state.completions + 1
  guard : achievement.mode = .repeatable →
    state'.Exhausted achievement ∨ state'.nextRepeatableAtStep = some (step + max 1 window)

namespace AchievementState

variable {achievement : AchievementContent sh}

theorem SameGuard.refl (state : AchievementState) : state.SameGuard achievement state :=
  ⟨rfl, .inl rfl⟩

variable {state state' : AchievementState}

theorem SameGuard.exhausted (h : state.SameGuard achievement state') :
    state'.Exhausted achievement ↔ state.Exhausted achievement := by
  rw [Exhausted, Exhausted, h.completions]

variable {s₁ s₂ s₃ : AchievementState}

theorem SameGuard.trans (h₁ : s₁.SameGuard achievement s₂) (h₂ : s₂.SameGuard achievement s₃) :
    s₁.SameGuard achievement s₃ where
  completions := h₂.completions.trans h₁.completions
  guard := by
    rcases h₂.guard with hguard | hlimit
    · exact h₁.guard.imp_left hguard.trans
    · exact .inr (h₁.exhausted.mp hlimit)

variable {step : ℕ}

theorem Open.of_sameGuard (h : state.SameGuard achievement state')
    (hopen : state'.Open achievement step) :
    state.Open achievement step where
  single hmode := h.completions ▸ hopen.single hmode
  limit hmode := h.completions ▸ hopen.limit hmode
  waits hmode := by
    rcases h.guard with hguard | hlimit
    · exact hguard ▸ hopen.waits hmode
    · have hreached := (h.exhausted.mpr hlimit).2
      rw [hopen.limit hmode] at hreached
      cases hreached

variable {window : ℕ}

theorem Completes.of_sameGuard (h : s₁.SameGuard achievement s₂)
    (hcompletes : s₂.Completes achievement step window s₃) :
    s₁.Completes achievement step window s₃ where
  isOpen := hcompletes.isOpen.of_sameGuard h
  completions := h.completions ▸ hcompletes.completions
  guard := hcompletes.guard

/-- **What has completed is closed for the step.** -/
theorem Completes.closed (h : state.Completes achievement step window state') :
    ¬state'.Open achievement step := by
  intro hopen
  by_cases hmode : achievement.mode = .repeatable
  · rcases h.guard hmode with hlimit | hguard
    · have hreached := hlimit.2
      rw [hopen.limit hmode] at hreached
      cases hreached
    · have hwaits := hopen.waits hmode
      simp only [hguard, waitsUntil, decide_eq_false_iff_not] at hwaits
      omega
  · have hzero := hopen.single hmode
    have hcompletions := h.completions
    omega

end AchievementState

namespace Coordinator

/-- The same coordinator, but for what is shown of achievements and for guards that are void. -/
structure SameGuards (c d : Coordinator sh) : Prop where
  rest : d = c.withAchievements d.achievements
  guards : ∀ i, (c.achievements i).SameGuard (options.content.achievements i) (d.achievements i)

variable {options}

theorem SameGuards.refl (c : Coordinator sh) : SameGuards options c c :=
  ⟨rfl, fun _ => .refl _⟩

theorem SameGuards.trans {c₁ c₂ c₃ : Coordinator sh} (h₁ : SameGuards options c₁ c₂)
    (h₂ : SameGuards options c₂ c₃) : SameGuards options c₁ c₃ where
  rest := by
    rw [h₂.rest, h₁.rest]
    rfl
  guards i := (h₁.guards i).trans (h₂.guards i)

theorem SameGuards.setAchievement (c : Coordinator sh) (i : Fin sh.achievements)
    {state : AchievementState}
    (h : (c.achievements i).SameGuard (options.content.achievements i) state) :
    SameGuards options c (c.setAchievement i state) where
  rest := rfl
  guards j := by
    by_cases hj : j = i
    · subst hj
      simpa [Coordinator.setAchievement] using h
    · have hsame : (c.achievements j).SameGuard (options.content.achievements j)
          (c.achievements j) := .refl _
      simpa [Coordinator.setAchievement, hj] using hsame

variable (options)

/-- **What the update of an achievement does**: it keeps completions and guard, or it completes an
open achievement and sets the guard by the window that is evaluated then. -/
theorem stepAchievement_guards (c : Coordinator sh) (step : ℕ) (i : Fin sh.achievements)
    (target : ℚ) (eligible : Bool) :
    (∃ c', c.stepAchievement options step i target eligible = (false, c') ∧
        SameGuards options c c') ∨
      ∃ c', c.stepAchievement options step i target eligible = (true, c') ∧
        (c.achievements i).Completes (options.content.achievements i) step
          (c.completion options step i).window (c'.achievements i) ∧
        ∀ j, j ≠ i → c'.achievements j = c.achievements j := by
  have hcompletes : ∀ state : AchievementState, ∀ context,
      (((c.setAchievement i state).applyAchievementReward options
        (options.content.achievements i) context).achievements i = state) ∧
      ∀ j, j ≠ i → ((c.setAchievement i state).applyAchievementReward options
        (options.content.achievements i) context).achievements j = c.achievements j := by
    intro state context
    rw [applyAchievementReward_achievements, setAchievement]
    exact ⟨Function.update_self .., fun j hj => Function.update_of_ne hj ..⟩
  rw [stepAchievement]
  split
  · next hmode =>
    rw [updateRepeatableAchievement]
    split
    · next hlimit => exact .inl ⟨_, rfl, .setAchievement c i ⟨rfl, .inr ⟨hmode, hlimit⟩⟩⟩
    · next hlimit =>
      split
      · exact .inl ⟨_, rfl, .setAchievement c i ⟨rfl, .inl rfl⟩⟩
      · next hwaits =>
        dsimp only
        split
        · refine .inr ⟨_, rfl, ?_, (hcompletes _ _).2⟩
          rw [(hcompletes _ _).1]
          refine ⟨⟨fun hne => absurd hmode hne, fun _ => Bool.eq_false_iff.mpr hlimit,
            fun _ => Bool.eq_false_iff.mpr hwaits⟩, rfl, fun _ => ?_⟩
          -- the guard is left out exactly when the limit is reached
          by_cases hreached : reachedMaximum ((c.achievements i).completions + 1)
              ((options.content.achievements i).repeatable.bind (·.maxRepeats)) = true
          · exact .inl ⟨hmode, hreached⟩
          · right
            simp only [if_neg hreached, completion, nextCompletionIndex, hmode]
        · exact .inl ⟨_, rfl, .setAchievement c i ⟨rfl, .inl rfl⟩⟩
  all_goals
    next hmode =>
    rw [updateSingleAchievement]
    split
    · exact .inl ⟨_, rfl, .setAchievement c i ⟨rfl, .inl rfl⟩⟩
    · next hnone =>
      have hzero : (c.achievements i).completions = 0 := by omega
      split
      · exact .inl ⟨_, rfl, .setAchievement c i ⟨rfl, .inl rfl⟩⟩
      · dsimp only
        split
        · refine .inr ⟨_, rfl, ?_, (hcompletes _ _).2⟩
          rw [(hcompletes _ _).1]
          refine ⟨⟨fun _ => hzero, fun hrep => ?_, fun hrep => ?_⟩, ?_, fun hrep => ?_⟩
          · exact absurd (hmode.symm.trans hrep) (by decide)
          · exact absurd (hmode.symm.trans hrep) (by decide)
          · simp only [hzero, zero_add]
          · exact absurd (hmode.symm.trans hrep) (by decide)
        · exact .inl ⟨_, rfl, .setAchievement c i ⟨rfl, .inl rfl⟩⟩

end Coordinator

/-! ### What a logged update does -/

/-- A step of the log: the achievements keep their completions and guards, or one completes. -/
inductive LogStep (step : ℕ) : LoggedCoordinator sh → LoggedCoordinator sh → Prop
  | keep {s s' : LoggedCoordinator sh} (hlog : s'.2 = s.2)
      (hguards : ∀ i, (s.1.achievements i).SameGuard (options.content.achievements i)
        (s'.1.achievements i)) : LogStep step s s'
  | complete {s s' : LoggedCoordinator sh} (i : Fin sh.achievements) (window : ℕ)
      (hlog : s'.2 = s.2 ++ [⟨i, step, window⟩])
      (hself : (s.1.achievements i).Completes (options.content.achievements i) step window
        (s'.1.achievements i))
      (hothers : ∀ j, j ≠ i → (s.1.achievements j).SameGuard (options.content.achievements j)
        (s'.1.achievements j)) : LogStep step s s'

/-- What takes steps of the log only. -/
abbrev Logs {α : Type} (step : ℕ) (m : LoggedM sh α) : Prop := Performs (LogStep options step) m

theorem logs_unlogged {m : ProgressionM sh α} (h : SpareAchievements m) (step : ℕ) :
    Logs options step (unlogged m) := by
  refine fun s => Performs.zoom_at (h s.1) rfl fun c c' hachievements => .keep rfl fun i => ?_
  change (c.achievements i).SameGuard _ (c'.achievements i)
  rw [hachievements]
  exact .refl _

/-- Before it is decided whether it completes, an achievement is only shown differently; its level
and the contexts stay. -/
theorem updateAchievement_run (step : ℕ) (i : Fin sh.achievements) (c : Coordinator sh) :
    ∃ d, Coordinator.SameGuards options c d ∧
      ((∃ message, updateAchievement options step i c = .error message d) ∨
        ∃ target eligible, updateAchievement options step i c =
          .ok (d.stepAchievement options step i target eligible).1
            (d.stepAchievement options step i target eligible).2) := by
  have hview : ∀ (d : Coordinator sh) (state : AchievementState),
      state.completions = (d.achievements i).completions →
      state.nextRepeatableAtStep = (d.achievements i).nextRepeatableAtStep →
      Coordinator.SameGuards options d (d.setAchievement i state) :=
    fun d state hcompletions hnext => .setAchievement d i ⟨hcompletions, .inl hnext⟩
  have htarget := hview c { c.achievements i with target := c.achievementTarget options step i }
    rfl rfl
  generalize hd : c.setAchievement i
    { c.achievements i with target := c.achievementTarget options step i } = d at htarget
  have hbegin : updateAchievement options step i c = (do
      let eligible ←
        optionalConditionHolds options (options.content.achievements i).unlockCondition
      let isVisible ←
        computeAchievementVisibility options i (c.achievements i).completions eligible
      modify fun c => c.setAchievement i { c.achievements i with isVisible }
      modifyGet fun t =>
        t.stepAchievement options step i (c.achievementTarget options step i) eligible :
          ProgressionM sh Bool) d := by
    rw [← hd]
    rfl
  rw [hbegin]
  rcases reads_cases (reads_optionalConditionHolds options
      (options.content.achievements i).unlockCondition) d with ⟨message, h⟩ | ⟨eligible, h⟩
  · exact ⟨d, htarget, .inl ⟨message, run_bind_error h _⟩⟩
  rw [run_bind_ok h]
  rcases reads_cases (reads_computeAchievementVisibility options i (c.achievements i).completions
      eligible) d with ⟨message, h⟩ | ⟨isVisible, h⟩
  · exact ⟨d, htarget, .inl ⟨message, run_bind_error h _⟩⟩
  rw [run_bind_ok h]
  exact ⟨_, htarget.trans (hview d { d.achievements i with isVisible } rfl rfl),
    .inr ⟨_, eligible, rfl⟩⟩

/-- **One logged evaluation**: it throws, it completes nothing, or it completes and enters the
achievement. -/
theorem logAchievement_cases (step : ℕ) (i : Fin sh.achievements) (s : LoggedCoordinator sh) :
    (∃ message d, logAchievement options step i s = .error message (d, s.2) ∧
        Coordinator.SameGuards options s.1 d) ∨
      (∃ d, logAchievement options step i s = .ok false (d, s.2) ∧
        Coordinator.SameGuards options s.1 d) ∨
      ∃ d, logAchievement options step i s =
          .ok true (d, s.2 ++ [s.1.completion options step i]) ∧
        (s.1.achievements i).Completes (options.content.achievements i) step
          (s.1.completion options step i).window (d.achievements i) ∧
        ∀ j, j ≠ i → (s.1.achievements j).SameGuard (options.content.achievements j)
          (d.achievements j) := by
  have hlog : ∀ {completed d}, updateAchievement options step i s.1 = .ok completed d →
      logAchievement options step i s =
        .ok completed (d, if completed then s.2 ++ [s.1.completion options step i] else s.2) := by
    intro completed d h
    have hzoom : unlogged (updateAchievement options step i) s = .ok completed (d, s.2) := by
      rw [unlogged, zoom, h]
    change (unlogged (updateAchievement options step i) >>= _) s = _
    rw [run_bind_ok hzoom]
    rfl
  obtain ⟨d, hview, ⟨message, h⟩ | ⟨target, eligible, h⟩⟩ :=
    updateAchievement_run options step i s.1
  · have hzoom : unlogged (updateAchievement options step i) s = .error message (d, s.2) := by
      rw [unlogged, zoom, h]
    exact .inl ⟨message, d, run_bind_error hzoom _, hview⟩
  right
  rcases d.stepAchievement_guards options step i target eligible with
    ⟨d', hrun, hguards⟩ | ⟨d', hrun, hcompletes, hothers⟩
  · rw [hrun] at h
    exact .inl ⟨d', hlog h, hview.trans hguards⟩
  · rw [hrun] at h
    -- the window is evaluated in the state the evaluation starts from
    have hwindow : d.completion options step i = s.1.completion options step i := by
      have hindex : d.nextCompletionIndex options i = s.1.nextCompletionIndex options i := by
        rw [Coordinator.nextCompletionIndex, Coordinator.nextCompletionIndex,
          (hview.guards i).completions]
      rw [Coordinator.completion, Coordinator.completion, hindex, hview.rest]
      rfl
    rw [hwindow] at hcompletes
    refine .inr ⟨d', hlog h, hcompletes.of_sameGuard (hview.guards i), fun j hj => ?_⟩
    rw [hothers j hj]
    exact hview.guards j

theorem logs_logAchievement (step : ℕ) (i : Fin sh.achievements) :
    Logs options step (logAchievement options step i) := by
  intro s
  rcases logAchievement_cases options step i s with
    ⟨message, d, h, hguards⟩ | ⟨d, h, hguards⟩ | ⟨d, h, hcompletes, hothers⟩
  · rw [h]
    exact .single (.keep rfl hguards.guards)
  · rw [h]
    exact .single (.keep rfl hguards.guards)
  · rw [h]
    exact .single (.complete i _ rfl hcompletes hothers)

theorem logs_logPass (step : ℕ) : Logs options step (logPass options step) := by
  refine .bind (logs_unlogged options (spare_updateBeforeAchievements options step) step)
    fun _ => .foldlM (fun _ i _ => ?_) false
  exact .bind (logs_logAchievement options step i) fun _ => .pure _

theorem logs_logPasses (step passes : ℕ) : Logs options step (logPasses options step passes) := by
  induction passes with
  | zero => exact .pure ()
  | succ passes ih =>
    refine .bind (logs_logPass options step) fun achievementsUnlocked => ?_
    split
    · exact ih
    · exact .pure ()

/-- **A logged update takes steps of the log only.** -/
theorem logs_logUpdateForStep (step : ℕ) : Logs options step (logUpdateForStep options step) := by
  refine .bind (logs_unlogged options ?_ step) fun _ => logs_logPasses options step _
  exact spare_modify fun _ => rfl

/-! ### The loop settles -/

/-- The entries since a log was `base` are of different achievements, all closed by now. -/
def EntersOnce (step : ℕ) (base : List (Completion sh)) (s : LoggedCoordinator sh) : Prop :=
  ∃ entries, s.2 = base ++ entries ∧ (entries.map Completion.achievement).Nodup ∧
    ∀ e ∈ entries, ¬(s.1.achievements e.achievement).Open
      (options.content.achievements e.achievement) step

variable {options}

theorem EntersOnce.step {step : ℕ} {base : List (Completion sh)} {s s' : LoggedCoordinator sh}
    (h : EntersOnce options step base s) (hstep : LogStep options step s s') :
    EntersOnce options step base s' := by
  obtain ⟨entries, hlog, hnodup, hclosed⟩ := h
  rcases hstep with ⟨hsame, hguards⟩ | ⟨i, window, happend, hself, hothers⟩
  · exact ⟨entries, hsame.trans hlog, hnodup, fun e he hopen =>
      hclosed e he (hopen.of_sameGuard (hguards _))⟩
  · -- the achievement that completes is open, so none of the entries is of it
    have hfresh : i ∉ entries.map Completion.achievement := by
      rintro hmem
      obtain ⟨e, he, rfl⟩ := mem_map.mp hmem
      exact hclosed e he hself.isOpen
    refine ⟨entries ++ [⟨i, step, window⟩], by rw [happend, hlog, append_assoc], ?_, ?_⟩
    · rw [map_append, map_singleton]
      exact hnodup.append (nodup_singleton i) (disjoint_singleton.mpr hfresh)
    · intro e he
      rcases mem_append.mp he with he | he
      · have hne : e.achievement ≠ i := fun heq => hfresh (heq ▸ mem_map_of_mem he)
        exact fun hopen => hclosed e he (hopen.of_sameGuard (hothers _ hne))
      · obtain rfl := mem_singleton.mp he
        exact hself.closed

variable {step : ℕ} {s : LoggedCoordinator sh}

/-- There are at most as many new entries as achievements. -/
theorem EntersOnce.length_le {base : List (Completion sh)} (h : EntersOnce options step base s) :
    s.2.length ≤ base.length + sh.achievements := by
  obtain ⟨entries, hlog, hnodup, -⟩ := h
  have hcount := List.Nodup.length_le_card hnodup
  rw [length_map, Fintype.card_fin] at hcount
  rw [hlog, length_append]
  omega

/-- Evaluations that complete something lengthen the log; those that complete nothing leave it. -/
theorem logAchievements_ok {step : ℕ} {b : Bool} {s s' : LoggedCoordinator sh}
    (h : logAchievements options step s = .ok b s') :
    (b = true → s.2.length < s'.2.length) ∧
      (b = false → Coordinator.SameGuards options s.1 s'.1) := by
  suffices hall : ∀ (l : List (Fin sh.achievements)) (any : Bool) (s : LoggedCoordinator sh),
      (l.foldlM (fun completedAny i => do
        let completed ← logAchievement options step i
        pure (completedAny || completed)) any : LoggedM sh Bool) s = .ok b s' →
      s.2.length ≤ s'.2.length ∧ (b = true → any = true ∨ s.2.length < s'.2.length) ∧
        (b = false → any = false ∧ Coordinator.SameGuards options s.1 s'.1) by
    obtain ⟨-, hsome, hnone⟩ := hall _ false s h
    exact ⟨fun hb => (hsome hb).resolve_left Bool.false_ne_true, fun hb => (hnone hb).2⟩
  clear h s
  intro l
  induction l with
  | nil =>
    intro any s h
    injection h with hb hs
    subst hb hs
    exact ⟨le_refl _, .inl, fun hany => ⟨hany, .refl _⟩⟩
  | cons i l ih =>
    intro any s h
    rw [foldlM_cons, bind_assoc] at h
    simp only [pure_bind] at h
    obtain ⟨completed, t, hrun, hrest⟩ := bind_ok h
    obtain ⟨hlonger, hsome, hnone⟩ := ih _ t hrest
    rcases logAchievement_cases options step i s with
      ⟨message, d, hcase, -⟩ | ⟨d, hcase, hguards⟩ | ⟨d, hcase, -⟩
    · rw [hcase] at hrun
      cases hrun
    · rw [hcase] at hrun
      injection hrun with hcompleted ht
      subst hcompleted ht
      rw [Bool.or_false] at hsome hnone
      exact ⟨hlonger, hsome, fun hb => ⟨(hnone hb).1, hguards.trans (hnone hb).2⟩⟩
    · rw [hcase] at hrun
      injection hrun with hcompleted ht
      subst hcompleted ht
      rw [length_append, length_singleton] at hlonger
      refine ⟨by omega, fun _ => .inr (by omega), fun hb => ?_⟩
      rw [Bool.or_true] at hnone
      exact absurd (hnone hb).1 (by decide)

variable {s' : LoggedCoordinator sh}

theorem logPass_ok {b : Bool} (h : logPass options step s = .ok b s') :
    (b = true → s.2.length < s'.2.length) ∧
      (b = false → ∃ t, logAchievements options step t = .ok false s') := by
  obtain ⟨_, t, hbefore, hafter⟩ := bind_ok h
  refine ⟨fun hb => ?_, fun hb => ⟨t, hb ▸ hafter⟩⟩
  have hlog : t.2 = s.2 := by
    rw [unlogged, zoom] at hbefore
    split at hbefore
    · injection hbefore with _ ht
      exact ht ▸ rfl
    · cases hbefore
  exact hlog ▸ (logAchievements_ok hafter).1 hb

theorem logPasses_ok {passes : ℕ} (h : logPasses options step passes s = .ok () s') :
    (∃ t, logAchievements options step t = .ok false s') ∨
      s.2.length + passes ≤ s'.2.length := by
  induction passes generalizing s with
  | zero =>
    injection h with _ hs
    exact .inr (hs ▸ le_refl _)
  | succ passes ih =>
    obtain ⟨b, t, hpass, hrest⟩ := bind_ok h
    obtain ⟨hsome, hnone⟩ := logPass_ok hpass
    cases b with
    | false =>
      injection hrest with _ ht
      exact .inl (ht ▸ hnone rfl)
    | true =>
      have hlonger := hsome rfl
      exact (ih hrest).imp_right fun hle => by omega

/-- **The loop ends with a pass that completes nothing**, never because of its bound: every pass
that completes something closes an achievement. -/
theorem logUpdateForStep_ok {step : ℕ} {s s' : LoggedCoordinator sh}
    (h : logUpdateForStep options step s = .ok () s') :
    ∃ t, logAchievements options step t = .ok false s' := by
  have hbound : EntersOnce options step s.2 s' := by
    have hkept := (logs_logUpdateForStep options step).keeps
      (P := EntersOnce options step s.2) (fun _ _ hs hstep => hs.step hstep) (s := s)
      ⟨[], (append_nil _).symm, nodup_nil, fun e he => absurd he not_mem_nil⟩
    rwa [h] at hkept
  obtain ⟨_, t, hbegin, hpasses⟩ := bind_ok h
  have hlog : t.2 = s.2 := by
    injection hbegin with _ ht
    exact ht ▸ rfl
  have hlength := hbound.length_le
  refine (logPasses_ok hpasses).resolve_right fun hlong => ?_
  rw [hlog] at hlong
  omega

/-! ### Evaluating again -/

namespace Coordinator

variable {c d : Coordinator sh}

variable (h : SameGuards options c d)
include h

theorem SameGuards.conditionContext : d.conditionContext options = c.conditionContext options := by
  rw [h.rest]
  rfl

theorem SameGuards.formulaContext (level step : ℕ) :
    d.formulaContext options level step = c.formulaContext options level step := by
  rw [h.rest]
  rfl

theorem SameGuards.setBoth (i : Fin sh.achievements) {state state' : AchievementState}
    (hstate : state.SameGuard (options.content.achievements i) state') :
    SameGuards options (c.setAchievement i state) (d.setAchievement i state') where
  rest := by
    rw [h.rest]
    rfl
  guards j := by
    by_cases hj : j = i
    · subst hj
      simpa [Coordinator.setAchievement] using hstate
    · simpa [Coordinator.setAchievement, hj] using h.guards j

theorem SameGuards.applyAchievementReward (achievement : AchievementContent sh)
    (context : FormulaContext) :
    SameGuards options (c.applyAchievementReward options achievement context)
      (d.applyAchievementReward options achievement context) where
  rest := by
    rw [applyAchievementReward_achievements]
    conv_lhs => rw [h.rest]
    exact applyAchievementReward_withAchievements options c _ achievement context
  guards i := by
    rw [applyAchievementReward_achievements, applyAchievementReward_achievements]
    exact h.guards i

/-- An achievement is updated alike where the guards that matter are the same. -/
theorem SameGuards.stepAchievement (step : ℕ)
    (i : Fin sh.achievements) (target : ℚ) (eligible : Bool) :
    (c.stepAchievement options step i target eligible).1 =
        (d.stepAchievement options step i target eligible).1 ∧
      SameGuards options (c.stepAchievement options step i target eligible).2
        (d.stepAchievement options step i target eligible).2 := by
  have hcompletions := (h.guards i).completions
  have hcontext := h.conditionContext
  rw [Coordinator.stepAchievement, Coordinator.stepAchievement]
  split
  · next hmode =>
    rw [updateRepeatableAchievement, updateRepeatableAchievement, hcompletions]
    split
    · exact ⟨rfl, h.setBoth i ⟨rfl, .inl rfl⟩⟩
    · next hlimit =>
      -- below its limit the achievement has the same guard on both sides
      have hguard := (h.guards i).guard.resolve_right fun hex => hlimit hex.2
      rw [hguard]
      split
      · exact ⟨rfl, h.setBoth i ⟨rfl, .inl rfl⟩⟩
      · simp only [hcontext, h.formulaContext]
        split
        · refine ⟨rfl, SameGuards.applyAchievementReward (h.setBoth i ?_) _ _⟩
          exact ⟨rfl, .inl rfl⟩
        · exact ⟨rfl, h.setBoth i ⟨rfl, .inl rfl⟩⟩
  all_goals
    next hmode =>
    have hsingle : (c.achievements i).SameGuard (options.content.achievements i)
        (d.achievements i) := h.guards i
    have hguard : (d.achievements i).nextRepeatableAtStep =
        (c.achievements i).nextRepeatableAtStep :=
      hsingle.guard.resolve_right fun hex => absurd (hmode.symm.trans hex.1) (by decide)
    rw [updateSingleAchievement, updateSingleAchievement, hcompletions]
    split
    · exact ⟨rfl, h.setBoth i ⟨rfl, .inl hguard⟩⟩
    · split
      · exact ⟨rfl, h.setBoth i ⟨rfl, .inl hguard⟩⟩
      · simp only [hcontext, h.formulaContext]
        split
        · refine ⟨rfl, SameGuards.applyAchievementReward (h.setBoth i ?_) _ _⟩
          exact ⟨rfl, .inl rfl⟩
        · exact ⟨rfl, h.setBoth i ⟨rfl, .inl hguard⟩⟩

end Coordinator

variable (options)

/-- What depends on the guards that matter only. -/
abbrev ReadsGuards {α : Type} (m : ProgressionM sh α) : Prop :=
  Lockstep (Coordinator.SameGuards options) m m

theorem guards_optionalConditionHolds (condition : Option Condition) :
    ReadsGuards options (optionalConditionHolds options condition) := by
  cases condition with
  | none => exact .pure true
  | some condition =>
    intro c d hcd
    rw [optionalConditionHolds, conditionHolds, readState, readState, hcd.conditionContext]
    split
    · exact .ok _ hcd
    · exact .error _ hcd

theorem guards_updateAchievement (step : ℕ) (i : Fin sh.achievements) :
    ReadsGuards options (updateAchievement options step i) := by
  refine .get_bind fun c d hcd => ?_
  have hcompletions := (hcd.guards i).completions
  have htarget : d.achievementTarget options step i = c.achievementTarget options step i := by
    rw [Coordinator.achievementTarget, Coordinator.achievementTarget,
      Coordinator.nextCompletionIndex, Coordinator.nextCompletionIndex, hcompletions,
      hcd.formulaContext]
  rw [htarget, hcompletions]
  have hview : ∀ f : AchievementState → AchievementState,
      (∀ state, (f state).completions = state.completions ∧
        (f state).nextRepeatableAtStep = state.nextRepeatableAtStep) →
      ReadsGuards options
        (modify fun c : Coordinator sh => c.setAchievement i (f (c.achievements i))) := by
    intro f hf
    refine .modify fun c d h => h.setBoth i ?_
    obtain ⟨hcompletions, hguard⟩ := h.guards i
    rw [← (hf (c.achievements i)).1, ← (hf (d.achievements i)).1] at hcompletions
    refine ⟨hcompletions, hguard.imp (fun hguard => ?_) fun hlimit => ?_⟩
    · rw [(hf _).2, (hf _).2, hguard]
    · rwa [AchievementState.Exhausted, (hf _).1]
  refine .bind (hview (fun state => { state with target := _ }) fun _ => ⟨rfl, rfl⟩)
    fun _ => ?_
  refine .bind (guards_optionalConditionHolds options _) fun eligible => ?_
  have hvisible : ReadsGuards options (computeAchievementVisibility options i
      (c.achievements i).completions eligible) := by
    rw [computeAchievementVisibility]
    split
    · exact .pure true
    · split
      · exact guards_optionalConditionHolds options _
      · exact .pure false
  refine .bind hvisible fun isVisible => ?_
  refine .bind (hview (fun state => { state with isVisible }) fun _ => ⟨rfl, rfl⟩)
    fun _ => ?_
  exact .modifyGet fun c d h => h.stepAchievement step i _ eligible

theorem guards_updateAchievements (step : ℕ) :
    ReadsGuards options (updateAchievements options step) :=
  Lockstep.foldlM (fun _ i _ => Lockstep.bind (guards_updateAchievement options step i)
    fun _ => Lockstep.pure _) false

variable {m : LoggedM sh α} {m' : ProgressionM sh α} {a : α}

/-- What a logged computation returns, the one without the log returns. -/
theorem Erases.ok (h : Erases m m') (hrun : m s = .ok a s') : m' s.1 = .ok a s'.1 := by
  have hsame := h s s.1 rfl
  rw [hrun] at hsame
  generalize m' s.1 = r at hsame
  rcases hsame with ⟨_, rfl⟩
  rfl

variable {c c' : Coordinator sh}

theorem Erases.ok_log (h : Erases m m') (hrun : m' c = .ok a c') (log : List (Completion sh)) :
    ∃ log', m (c, log) = .ok a (c', log') := by
  have hsame := h (c, log) c rfl
  rw [hrun] at hsame
  generalize m (c, log) = r at hsame
  rcases hsame with ⟨_, rfl⟩
  exact ⟨_, rfl⟩

/-- **An update settles the achievements**: evaluated again in the state it leaves, none
completes. -/
theorem updateForStep_settles (h : updateForStep options step c = .ok () c') :
    ∃ c'', updateAchievements options step c' = .ok false c'' := by
  obtain ⟨log, hlogged⟩ := Erases.ok_log (erases_logUpdateForStep options step) h []
  obtain ⟨t, hlast⟩ := logUpdateForStep_ok hlogged
  have hguards := (logAchievements_ok hlast).2 rfl
  have hevaluated := Erases.ok (erases_logAchievements options step) hlast
  have hagain := guards_updateAchievements options step t.1 c' hguards
  rw [hevaluated] at hagain
  generalize updateAchievements options step c' = r at hagain
  rcases hagain with ⟨_, _⟩
  exact ⟨_, rfl⟩

end IdleEngine
