import IdleEngine.Progression.Core

/-!
# Updates in lockstep

The steps of an update read the core and write it alike, so from coordinators of the same core they
return or throw alike and leave coordinators of the same core.
-/

namespace IdleEngine

open Stateful ResourceState Lockstep Coordinator

variable {sh : ContentShape}

/-! ### Achievements -/

theorem collectDerivedRewardEntries_congr
    {a b : Fin sh.achievements → AchievementState} (h : ∀ i, (a i).saved = (b i).saved) :
    collectDerivedRewardEntries a = collectDerivedRewardEntries b := by
  have hcompletions : ∀ i, (a i).completions = (b i).completions :=
    fun i => congrArg SavedAchievement.completions (h i)
  have hlast : ∀ i, (a i).lastCompletedStep = (b i).lastCompletedStep :=
    fun i => congrArg SavedAchievement.lastCompletedStep (h i)
  have hbefore : completedBefore a = completedBefore b := by
    funext i j
    rw [completedBefore, completedBefore, hlast, hlast]
  simp only [collectDerivedRewardEntries, hcompletions, hbefore]

namespace SameCore

variable {options : ProgressionOptions sh} {c d : Coordinator sh}

theorem setAchievementRewards (h : SameCore c d) {flags : String → Option Bool}
    {automations : String → Bool} :
    SameCore { c with achievementFlagState := flags, achievementAutomationIds := automations }
      { d with achievementFlagState := flags, achievementAutomationIds := automations } :=
  { h with achievementFlagState := rfl, achievementAutomationIds := rfl }

theorem applyDerivedReward (h : SameCore c d) (i : Fin sh.achievements) :
    SameCore (c.applyDerivedReward options i) (d.applyDerivedReward options i) := by
  rw [Coordinator.applyDerivedReward, Coordinator.applyDerivedReward]
  split
  · exact { h with achievementFlagState := by rw [h.achievementFlagState] }
  · exact { h with achievementAutomationIds := by rw [h.achievementAutomationIds] }
  · exact h

theorem foldl {α : Type} {f : Coordinator sh → α → Coordinator sh}
    (hf : ∀ {c d}, SameCore c d → ∀ a, SameCore (f c a) (f d a)) (h : SameCore c d) (l : List α) :
    SameCore (l.foldl f c) (l.foldl f d) := by
  induction l generalizing c d with
  | nil => exact h
  | cons a l ih => exact ih (hf h a)

variable (h : SameCore c d)
include h

theorem rebuildDerivedRewards :
    SameCore (c.rebuildDerivedRewards options) (d.rebuildDerivedRewards options) := by
  have hcleared : SameCore
      { c with achievementFlagState := fun _ => none, achievementAutomationIds := fun _ => false }
      { d with achievementFlagState := fun _ => none, achievementAutomationIds := fun _ => false } :=
    h.setAchievementRewards
  rw [Coordinator.rebuildDerivedRewards, Coordinator.rebuildDerivedRewards,
    collectDerivedRewardEntries_congr h.achievements]
  exact (SameCore.foldl (fun h i => h.applyDerivedReward i) hcleared _).rebuildCombinedAutomationIds

theorem grantAchievementResource (i : Fin sh.resources) (amount : ℚ) :
    SameCore (c.grantAchievementResource i amount) (d.grantAchievementResource i amount) := by
  rw [Coordinator.grantAchievementResource, Coordinator.grantAchievementResource]
  split
  · exact h
  · refine h.setResources ?_
    rw [addPositive_stored, addPositive_stored,
      unlockAndShow_stored, unlockAndShow_stored, h.stored]

theorem applyAchievementReward (achievement : AchievementContent sh) (context : FormulaContext) :
    SameCore (c.applyAchievementReward options achievement context)
      (d.applyAchievementReward options achievement context) := by
  rw [Coordinator.applyAchievementReward, Coordinator.applyAchievementReward]
  split
  · exact h.grantAchievementResource _ _
  · exact h.incrementUpgradePurchases _
  · refine SameCore.rebuildCombinedAutomationIds ?_
    exact { h with achievementAutomationIds := by rw [h.achievementAutomationIds] }
  · exact { h with achievementFlagState := by rw [h.achievementFlagState] }
  · exact h

theorem achievementTarget (step : ℕ) (i : Fin sh.achievements) :
    c.achievementTarget options step i = d.achievementTarget options step i := by
  have hindex : c.nextCompletionIndex options i = d.nextCompletionIndex options i := by
    rw [nextCompletionIndex, nextCompletionIndex, h.completions]
  rw [Coordinator.achievementTarget, Coordinator.achievementTarget, hindex, h.formulaContext]

/-- An achievement is updated alike. -/
theorem stepAchievement (step : ℕ) (i : Fin sh.achievements) (target : ℚ) (eligible : Bool) :
    (c.stepAchievement options step i target eligible).1 =
        (d.stepAchievement options step i target eligible).1 ∧
      SameCore (c.stepAchievement options step i target eligible).2
        (d.stepAchievement options step i target eligible).2 := by
  obtain ⟨hcompletions, hprogress, hnext, hlast⟩ := SavedAchievement.mk.inj (h.achievements i)
  have hset : ∀ {s t : AchievementState}, s.saved = t.saved →
      SameCore (c.setAchievement i s) (d.setAchievement i t) := fun hst => h.setAchievement hst i
  rw [Coordinator.stepAchievement, Coordinator.stepAchievement]
  split
  · simp only [updateRepeatableAchievement, h.conditionContext, h.formulaContext,
      hcompletions, hprogress, hnext]
    split
    · exact ⟨rfl, hset (by simp only [AchievementState.saved, hlast])⟩
    · split
      · exact ⟨rfl, hset (by simp only [AchievementState.saved, hlast])⟩
      · split
        · refine ⟨rfl, SameCore.applyAchievementReward (hset ?_) _ _⟩
          rfl
        · exact ⟨rfl, hset (by simp only [AchievementState.saved, hlast])⟩
  all_goals
    simp only [updateSingleAchievement, h.conditionContext, h.formulaContext,
      hcompletions, hprogress]
    split
    · exact ⟨rfl, hset (by simp only [AchievementState.saved, hnext, hlast])⟩
    · split
      · exact ⟨rfl, hset (by simp only [AchievementState.saved, hnext, hlast])⟩
      · split
        · refine ⟨rfl, SameCore.applyAchievementReward (hset ?_) _ _⟩
          rfl
        · exact ⟨rfl, hset (by simp only [AchievementState.saved, hnext, hlast])⟩

end SameCore

/-! ### Updates -/

variable (options : ProgressionOptions sh)

/-- What depends on the core only. -/
abbrev ReadsCore {α : Type} (m : ProgressionM sh α) : Prop := Lockstep SameCore m m

theorem lockstep_readState {α : Type} {evaluate : Coordinator sh → Except String α}
    (h : ∀ c d, SameCore c d → evaluate c = evaluate d) : ReadsCore (readState evaluate) := by
  intro c d hcd
  rw [readState, readState, h c d hcd]
  cases evaluate d with
  | ok a => exact .ok a hcd
  | error message => exact .error message hcd

theorem lockstep_conditionHolds (condition : Condition) :
    ReadsCore (conditionHolds options condition) :=
  lockstep_readState fun _ _ h => by rw [h.conditionContext]

theorem lockstep_optionalConditionHolds (condition : Option Condition) :
    ReadsCore (optionalConditionHolds options condition) := by
  cases condition with
  | none => exact .pure true
  | some condition => exact lockstep_conditionHolds options condition

theorem lockstep_allConditionsHold (conditions : List Condition) :
    ReadsCore (allConditionsHold options conditions) := by
  induction conditions with
  | nil => exact .pure true
  | cons condition conditions ih =>
    refine .bind (lockstep_conditionHolds options condition) fun holds => ?_
    cases holds with
    | true => exact ih
    | false => exact .pure false

theorem lockstep_getUpgradeEffects (step : ℕ) : ReadsCore (getUpgradeEffects options step) := by
  intro c d hcd
  obtain ⟨heffects, hcore⟩ := hcd.getUpgradeEffects options step
  rw [getUpgradeEffects, getUpgradeEffects, heffects]
  exact .ok _ hcore

theorem lockstep_modifyResources {f : ResourceState sh.resources → ResourceState sh.resources}
    (h : ∀ s t, s.stored = t.stored → (f s).stored = (f t).stored) :
    ReadsCore (modifyResources f) :=
  .modify fun _ _ hcd => hcd.setResources (h _ _ hcd.stored)

theorem lockstep_unlock (i : Fin sh.resources) :
    ReadsCore (modifyResources fun s : ResourceState sh.resources => s.unlock i) :=
  lockstep_modifyResources fun s t h => by
    rw [ResourceState.unlock, ResourceState.unlock, setUnlockedFlag_stored,
      setUnlockedFlag_stored, h]

theorem lockstep_show (i : Fin sh.resources) :
    ReadsCore (modifyResources fun s : ResourceState sh.resources => s.grantVisibility i) :=
  lockstep_modifyResources fun s t h => by
    rw [ResourceState.grantVisibility, ResourceState.grantVisibility,
      setVisibleFlag_stored, setVisibleFlag_stored, h]

theorem lockstep_unlockWhenMet (i : Fin sh.resources) : ReadsCore (unlockWhenMet options i) := by
  rw [unlockWhenMet]
  split
  · exact .pure ()
  · refine get_bind fun c d hcd => ?_
    have hflag : (c.resources.live i).flags.unlocked = (d.resources.live i).flags.unlocked :=
      congrArg StoredResource.unlocked (congrFun hcd.stored i)
    rw [hflag]
    split
    · exact .pure ()
    · refine .bind (lockstep_conditionHolds options _) fun met => ?_
      cases met with
      | true => exact lockstep_unlock i
      | false => exact .pure ()

theorem lockstep_showWhenMet (i : Fin sh.resources) : ReadsCore (showWhenMet options i) := by
  refine get_bind fun c d hcd => ?_
  have hvisible : (c.resources.live i).flags.visible = (d.resources.live i).flags.visible :=
    congrArg StoredResource.visible (congrFun hcd.stored i)
  have hunlocked : (c.resources.live i).flags.unlocked = (d.resources.live i).flags.unlocked :=
    congrArg StoredResource.unlocked (congrFun hcd.stored i)
  rw [hvisible, hunlocked]
  split
  · exact .pure ()
  · split
    · refine .bind (lockstep_conditionHolds options _) fun met => ?_
      cases met with
      | true => exact lockstep_show i
      | false => exact .pure ()
    · split
      · exact lockstep_show i
      · exact .pure ()

theorem lockstep_updateUnlockVisibility : ReadsCore (updateUnlockVisibility options) :=
  .forM fun i _ => .bind (lockstep_unlockWhenMet options i) fun _ =>
    lockstep_showWhenMet options i

theorem lockstep_computeGeneratorVisibility (i : Fin sh.generators) (unlockedByUpgrade : Bool) :
    ReadsCore (computeGeneratorVisibility options i unlockedByUpgrade) := by
  rw [computeGeneratorVisibility]
  split
  · exact .pure true
  · split
    · exact lockstep_conditionHolds options _
    · refine get_bind fun c d hcd => ?_
      rw [hcd.isUnlocked]
      exact .pure _

theorem lockstep_updateGeneratorStatus (step : ℕ) (effects : UpgradeEffects sh)
    (i : Fin sh.generators) : ReadsCore (updateGeneratorStatus options step effects i) := by
  refine .bind (lockstep_conditionHolds options _) fun baseUnlock => ?_
  refine get_bind fun c d hcd => ?_
  rw [hcd.isUnlocked]
  refine .bind (.modify fun c d h => ?_) fun _ => ?_
  · obtain ⟨howned, henabled, hunlocked, hready⟩ := SavedGenerator.mk.inj (h.generators i)
    refine h.setGenerator ?_ i
    simp only [GeneratorState.saved, howned, henabled, hunlocked, hready]
  refine .bind (lockstep_computeGeneratorVisibility options i _) fun isVisible => ?_
  refine .modify fun c d h => ?_
  obtain ⟨howned, henabled, hunlocked, hready⟩ := SavedGenerator.mk.inj (h.generators i)
  refine h.setGenerator ?_ i
  simp only [GeneratorState.saved, howned, henabled, hunlocked, hready]

theorem lockstep_resolveUpgradeStatus (i : Fin sh.upgrades) :
    ReadsCore (resolveUpgradeStatus options i) := by
  refine get_bind fun c d hcd => ?_
  rw [hcd.purchases]
  split
  · exact .pure _
  · refine .bind (lockstep_allConditionsHold options _) fun prerequisitesMet => ?_
    cases prerequisitesMet with
    | true =>
      exact .bind (lockstep_optionalConditionHolds options _) fun _ => .pure _
    | false => exact .pure _

theorem lockstep_updateUpgrade (i : Fin sh.upgrades) : ReadsCore (updateUpgrade options i) := by
  refine .bind (lockstep_resolveUpgradeStatus options i) fun status => ?_
  refine .bind (.modify fun c d h => h.setUpgrade ?_ i) fun _ => ?_
  · exact h.purchases i
  have hvisible : ReadsCore (upgradeVisible options i status) := by
    rw [upgradeVisible]
    split
    · exact lockstep_conditionHolds options _
    · exact .pure _
  refine .bind hvisible fun _ => .modify fun c d h => h.setUpgrade ?_ i
  exact h.purchases i

theorem lockstep_updatePrestigeLayer (i : Fin sh.prestigeLayers) :
    ReadsCore (updatePrestigeLayer options i) := by
  refine .bind (lockstep_conditionHolds options _) fun isUnlocked => ?_
  refine .modify fun c d h => ?_
  exact { h with prestigeLayers := update_alike h.prestigeLayers rfl i }

theorem lockstep_updateAchievement (step : ℕ) (i : Fin sh.achievements) :
    ReadsCore (updateAchievement options step i) := by
  refine get_bind fun c d hcd => ?_
  rw [hcd.achievementTarget, hcd.completions]
  have hview : ∀ (f : AchievementState → AchievementState), (∀ s, (f s).saved = s.saved) →
      ReadsCore (modify fun c : Coordinator sh => c.setAchievement i (f (c.achievements i))) := by
    intro f hf
    refine .modify fun c d h => h.setAchievement ?_ i
    rw [hf, hf, h.achievements]
  refine .bind (hview (fun s => { s with target := _ }) fun _ => rfl) fun _ => ?_
  refine .bind (lockstep_optionalConditionHolds options _) fun eligible => ?_
  have hvisible : ReadsCore (computeAchievementVisibility options i
      (d.achievements i).completions eligible) := by
    rw [computeAchievementVisibility]
    split
    · exact .pure true
    · split
      · exact lockstep_optionalConditionHolds options _
      · exact .pure false
  refine .bind hvisible fun isVisible => ?_
  refine .bind (hview (fun s => { s with isVisible }) fun _ => rfl) fun _ => ?_
  exact .modifyGet fun c d h => h.stepAchievement step i _ eligible

end IdleEngine
