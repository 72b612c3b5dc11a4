import IdleEngine.Progression.Records
import IdleEngine.Progression.Update

/-!
# What an update depends on

Two coordinators have the same core when they agree on the records of the store, on the saved
fields of generators, upgrades and achievements, and on what is derived from them. Views, dirty
tracking and tolerances may differ. Everything an update does but the rates
depends on the core alone.
-/

namespace IdleEngine

open Stateful

variable {sh : ContentShape}

/-- The fields of a generator that a save keeps. -/
structure SavedGenerator where
  owned : ℕ
  enabled : Bool
  isUnlocked : Bool
  nextPurchaseReadyAtStep : ℕ

def GeneratorState.saved (state : GeneratorState sh) : SavedGenerator :=
  { owned := state.owned
    enabled := state.enabled
    isUnlocked := state.isUnlocked
    nextPurchaseReadyAtStep := state.nextPurchaseReadyAtStep }

/-- The fields of an achievement that a save keeps. -/
structure SavedAchievement where
  completions : ℕ
  progress : ℚ
  nextRepeatableAtStep : Option ℕ
  lastCompletedStep : Option ℕ

def AchievementState.saved (state : AchievementState) : SavedAchievement :=
  { completions := state.completions
    progress := state.progress
    nextRepeatableAtStep := state.nextRepeatableAtStep
    lastCompletedStep := state.lastCompletedStep }

/-- Two coordinators agree on everything that an update reads. -/
structure SameCore (c d : Coordinator sh) : Prop where
  stored : c.resources.stored = d.resources.stored
  capacityOverrideIds : c.capacityOverrideIds = d.capacityOverrideIds
  generators : ∀ i, (c.generators i).saved = (d.generators i).saved
  purchases : ∀ i, (c.upgrades i).purchases = (d.upgrades i).purchases
  upgradeEffectsCache : c.upgradeEffectsCache = d.upgradeEffectsCache
  flagState : c.flagState = d.flagState
  upgradeAutomationIds : c.upgradeAutomationIds = d.upgradeAutomationIds
  prestigeLayers : ∀ i, (c.prestigeLayers i).isUnlocked = (d.prestigeLayers i).isUnlocked
  achievements : ∀ i, (c.achievements i).saved = (d.achievements i).saved
  achievementFlagState : c.achievementFlagState = d.achievementFlagState
  achievementAutomationIds : c.achievementAutomationIds = d.achievementAutomationIds
  grantedAutomationIds : c.grantedAutomationIds = d.grantedAutomationIds
  lastUpdatedStep : c.lastUpdatedStep = d.lastUpdatedStep

/-- Two tables that look alike still do after the same entry is changed alike. -/
theorem update_alike {ι α β : Type} [DecidableEq ι] {f : α → β} {a b : ι → α} {x y : α}
    (h : ∀ j, f (a j) = f (b j)) (hxy : f x = f y) (i : ι) :
    ∀ j, f (Function.update a i x j) = f (Function.update b i y j) := by
  intro j
  by_cases hj : j = i
  · subst hj
    rwa [Function.update_self, Function.update_self]
  · rw [Function.update_of_ne hj, Function.update_of_ne hj]
    exact h j

namespace SameCore

variable {options : ProgressionOptions sh} {c d : Coordinator sh}

/-! ### Reading -/

variable (h : SameCore c d)
include h

theorem owned (i : Fin sh.generators) : (c.generators i).owned = (d.generators i).owned :=
  congrArg SavedGenerator.owned (h.generators i)

theorem isUnlocked (i : Fin sh.generators) :
    (c.generators i).isUnlocked = (d.generators i).isUnlocked :=
  congrArg SavedGenerator.isUnlocked (h.generators i)

theorem completions (i : Fin sh.achievements) :
    (c.achievements i).completions = (d.achievements i).completions :=
  congrArg SavedAchievement.completions (h.achievements i)

theorem inputs : c.inputs = d.inputs := by
  have hamount : (fun i => (c.resources.live i).amount) = fun i => (d.resources.live i).amount :=
    funext fun i => congrArg StoredResource.amount (congrFun h.stored i)
  rw [Coordinator.inputs, Coordinator.inputs, hamount, funext h.owned, funext h.purchases]

theorem conditionContext : c.conditionContext options = d.conditionContext options := by
  rw [Coordinator.conditionContext, Coordinator.conditionContext, h.inputs,
    h.achievementFlagState, h.flagState]
  simp only [h.prestigeLayers]

theorem formulaContext (level step : ℕ) :
    c.formulaContext options level step = d.formulaContext options level step := by
  rw [Coordinator.formulaContext, Coordinator.formulaContext, h.inputs]

/-! ### Writing -/

theorem setGenerator {s t : GeneratorState sh} (hst : s.saved = t.saved)
    (i : Fin sh.generators) : SameCore (c.setGenerator i s) (d.setGenerator i t) :=
  { h with generators := update_alike h.generators hst i }

theorem setUpgrade {s t : UpgradeState} (hst : s.purchases = t.purchases)
    (i : Fin sh.upgrades) : SameCore (c.setUpgrade i s) (d.setUpgrade i t) :=
  { h with purchases := update_alike h.purchases hst i }

theorem setAchievement {s t : AchievementState} (hst : s.saved = t.saved)
    (i : Fin sh.achievements) : SameCore (c.setAchievement i s) (d.setAchievement i t) :=
  { h with achievements := update_alike h.achievements hst i }

theorem setResources {s t : ResourceState sh.resources} (hst : s.stored = t.stored) :
    SameCore { c with resources := s } { d with resources := t } :=
  { h with stored := hst }

theorem rebuildCombinedAutomationIds :
    SameCore c.rebuildCombinedAutomationIds d.rebuildCombinedAutomationIds :=
  { h with
    grantedAutomationIds := by
      simp only [Coordinator.rebuildCombinedAutomationIds, h.upgradeAutomationIds,
        h.achievementAutomationIds] }

end SameCore

/-! ### Applying effects -/

namespace Coordinator

variable (options : ProgressionOptions sh) (c : Coordinator sh)

theorem applyUnlockedGenerators_eq (generators : List (Fin sh.generators)) (step : ℕ) :
    c.applyUnlockedGenerators generators step =
      { c with generators := (c.applyUnlockedGenerators generators step).generators } := by
  rw [applyUnlockedGenerators]
  induction generators generalizing c with
  | nil => rfl
  | cons i l ih => exact ih (applyUnlockedGenerator step c i)

/-- The generator, unlocked and shown. -/
def unlockedGenerator (step : ℕ) (state : GeneratorState sh) : GeneratorState sh :=
  { state with
    isUnlocked := true
    isVisible := true
    nextPurchaseReadyAtStep :=
      if state.isUnlocked then state.nextPurchaseReadyAtStep else step + 1 }

theorem applyUnlockedGenerators_generators (generators : List (Fin sh.generators)) (step : ℕ)
    (i : Fin sh.generators) :
    (c.applyUnlockedGenerators generators step).generators i =
      if i ∈ generators then unlockedGenerator step (c.generators i) else c.generators i := by
  have hloop : (c.applyUnlockedGenerators generators step).generators =
      Overwrite.overwrite (fun _ state => unlockedGenerator step state) generators
        c.generators := by
    rw [applyUnlockedGenerators]
    induction generators generalizing c with
    | nil => rfl
    | cons j l ih => exact ih (applyUnlockedGenerator step c j)
  rw [hloop]
  exact Overwrite.overwrite_apply (g := fun _ state => unlockedGenerator step state)
    (fun _ _ => rfl) generators c.generators i

variable (step : ℕ) (effects : UpgradeEffects sh)

/-- What the application of effects writes, part by part. -/
theorem applyUpgradeEffects_eq :
    c.applyUpgradeEffects options step effects =
      { c with
        resources :=
          ((effects.unlockedResources.foldl ResourceState.unlockAndShow c.resources
            ).applyCapacityOverrides options.baseCapacity c.capacityOverrideIds
              effects.resourceCapacityOverrides).applyDirtyToleranceOverrides
                options.baseDirtyTolerance c.dirtyToleranceOverrideIds
                effects.dirtyToleranceOverrides
        generators := (c.applyUnlockedGenerators effects.unlockedGenerators step).generators
        upgradeEffectsCache := some (step, effects)
        flagState := effects.grantedFlags
        upgradeAutomationIds := effects.grantedAutomations
        grantedAutomationIds := fun id =>
          effects.grantedAutomations id || c.achievementAutomationIds id
        capacityOverrideIds := effects.resourceCapacityOverrides.entries.map Prod.fst
        dirtyToleranceOverrideIds := effects.dirtyToleranceOverrides.entries.map Prod.fst } := by
  have hsame : ∀ b : Coordinator sh, b.generators = c.generators →
      (b.applyUnlockedGenerators effects.unlockedGenerators step).generators =
        (c.applyUnlockedGenerators effects.unlockedGenerators step).generators := by
    intro b hb
    funext i
    rw [applyUnlockedGenerators_generators, applyUnlockedGenerators_generators, hb]
  rw [applyUpgradeEffects, applyUnlockedGenerators_eq]
  conv_lhs => rw [hsame]
  rfl

/-- The records after effects are applied. -/
theorem applyUpgradeEffects_stored (i : Fin sh.resources) :
    (c.applyUpgradeEffects options step effects).resources.stored i =
      (if i ∈ effects.unlockedResources then (c.resources.stored i).unlockAndShow
        else c.resources.stored i).withSomeCapacity
          (overriddenCapacity options.baseCapacity c.capacityOverrideIds
            effects.resourceCapacityOverrides i) := by
  rw [applyUpgradeEffects_eq, ResourceState.applyDirtyToleranceOverrides_stored,
    ResourceState.applyCapacityOverrides_stored, ResourceState.foldl_unlockAndShow_stored]

end Coordinator

/-- Two coordinators agree on what a save holds of generators, upgrades and achievements, on the
unlocked layers and on the step. -/
structure SameBase (c d : Coordinator sh) : Prop where
  generators : ∀ i, (c.generators i).saved = (d.generators i).saved
  purchases : ∀ i, (c.upgrades i).purchases = (d.upgrades i).purchases
  prestigeLayers : ∀ i, (c.prestigeLayers i).isUnlocked = (d.prestigeLayers i).isUnlocked
  achievements : ∀ i, (c.achievements i).saved = (d.achievements i).saved
  lastUpdatedStep : c.lastUpdatedStep = d.lastUpdatedStep

theorem SameCore.base {c d : Coordinator sh} (h : SameCore c d) : SameBase c d :=
  { generators := h.generators, purchases := h.purchases, prestigeLayers := h.prestigeLayers
    achievements := h.achievements, lastUpdatedStep := h.lastUpdatedStep }

theorem unlockedGenerator_saved {s t : GeneratorState sh} (h : s.saved = t.saved) (step : ℕ) :
    (Coordinator.unlockedGenerator step s).saved = (Coordinator.unlockedGenerator step t).saved := by
  obtain ⟨howned, henabled, hunlocked, hready⟩ := SavedGenerator.mk.inj h
  simp only [Coordinator.unlockedGenerator, GeneratorState.saved, howned, henabled, hunlocked,
    hready]

/-- **Effects applied alike.** Where the same effects give the same records, the coordinators have
the same core afterwards. -/
theorem SameBase.applyUpgradeEffects {c d : Coordinator sh} (h : SameBase c d)
    (options : ProgressionOptions sh) (step : ℕ) (effects : UpgradeEffects sh)
    (hflags : c.achievementFlagState = d.achievementFlagState)
    (hautomations : c.achievementAutomationIds = d.achievementAutomationIds)
    (hstored : (c.applyUpgradeEffects options step effects).resources.stored =
      (d.applyUpgradeEffects options step effects).resources.stored) :
    SameCore (c.applyUpgradeEffects options step effects)
      (d.applyUpgradeEffects options step effects) := by
  have hgenerators : ∀ i,
      ((c.applyUnlockedGenerators effects.unlockedGenerators step).generators i).saved =
        ((d.applyUnlockedGenerators effects.unlockedGenerators step).generators i).saved := by
    intro i
    rw [Coordinator.applyUnlockedGenerators_generators,
      Coordinator.applyUnlockedGenerators_generators]
    split
    · exact unlockedGenerator_saved (h.generators i) step
    · exact h.generators i
  rw [c.applyUpgradeEffects_eq, d.applyUpgradeEffects_eq] at hstored ⊢
  exact
    { stored := hstored, capacityOverrideIds := rfl, generators := hgenerators
      purchases := h.purchases, upgradeEffectsCache := rfl, flagState := rfl
      upgradeAutomationIds := rfl, prestigeLayers := h.prestigeLayers
      achievements := h.achievements, achievementFlagState := hflags
      achievementAutomationIds := hautomations
      grantedAutomationIds := by simp only [hautomations]
      lastUpdatedStep := h.lastUpdatedStep }

namespace SameCore

variable {options : ProgressionOptions sh} {c d : Coordinator sh}

theorem cachedUpgradeEffects (options : ProgressionOptions sh) (h : SameCore c d) (step : ℕ) :
    c.cachedUpgradeEffects options step = d.cachedUpgradeEffects options step := by
  rw [Coordinator.cachedUpgradeEffects, Coordinator.cachedUpgradeEffects, h.upgradeEffectsCache,
    h.inputs]

theorem applyUpgradeEffects (h : SameCore c d) (step : ℕ) (effects : UpgradeEffects sh) :
    SameCore (c.applyUpgradeEffects options step effects)
      (d.applyUpgradeEffects options step effects) := by
  refine h.base.applyUpgradeEffects options step effects h.achievementFlagState
    h.achievementAutomationIds ?_
  funext i
  rw [c.applyUpgradeEffects_stored, d.applyUpgradeEffects_stored, h.stored,
    h.capacityOverrideIds]

theorem getUpgradeEffects (options : ProgressionOptions sh) (h : SameCore c d) (step : ℕ) :
    (c.getUpgradeEffects options step).1 = (d.getUpgradeEffects options step).1 ∧
      SameCore (c.getUpgradeEffects options step).2 (d.getUpgradeEffects options step).2 := by
  have heffects := h.cachedUpgradeEffects options step
  refine ⟨heffects, ?_⟩
  rw [Coordinator.getUpgradeEffects, Coordinator.getUpgradeEffects, heffects]
  exact h.applyUpgradeEffects step _

theorem writePurchases (h : SameCore c d) (i : Fin sh.upgrades) (purchases : ℕ) :
    SameCore (c.writePurchases options i purchases) (d.writePurchases options i purchases) := by
  have hwritten : SameCore
      { c.setUpgrade i { c.upgrades i with purchases } with upgradeEffectsCache := none }
      { d.setUpgrade i { d.upgrades i with purchases } with upgradeEffectsCache := none } :=
    { h.setUpgrade (s := { c.upgrades i with purchases }) (t := { d.upgrades i with purchases })
        rfl i with upgradeEffectsCache := rfl }
  rw [Coordinator.writePurchases, Coordinator.writePurchases]
  have hstep := h.lastUpdatedStep
  dsimp only
  change SameCore (Coordinator.getUpgradeEffects options _ c.lastUpdatedStep).2
    (Coordinator.getUpgradeEffects options _ d.lastUpdatedStep).2
  rw [hstep]
  exact (hwritten.getUpgradeEffects options d.lastUpdatedStep).2

theorem incrementUpgradePurchases (h : SameCore c d) (i : Fin sh.upgrades) :
    SameCore (c.incrementUpgradePurchases options i) (d.incrementUpgradePurchases options i) := by
  rw [Coordinator.incrementUpgradePurchases, Coordinator.incrementUpgradePurchases, h.purchases]
  exact h.writePurchases i _

end SameCore

end IdleEngine
