import IdleEngine.Progression.Coordinator

/-!
# What the purchases say

The effects of upgrades are evaluated in one pass that threads twelve maps. Read one map at a time,
the pass is a fold: over the effects of the purchased upgrades for what they unlock and grant
(`evaluateUpgradeEffects_granted`), and over their applications, one for each purchase where an
upgrade is repeatable, for the capacities and tolerances (`evaluateUpgradeEffects_applied`).
-/

namespace IdleEngine

open List

variable {sh : ContentShape} (options : ProgressionOptions sh)

/-- The upgrades that are purchased, in content order. -/
def purchasedUpgrades (purchases : Fin sh.upgrades → ℕ) : List (Fin sh.upgrades) :=
  (List.finRange sh.upgrades).filter fun u => purchases u ≠ 0

theorem mem_purchasedUpgrades {purchases : Fin sh.upgrades → ℕ} {u : Fin sh.upgrades} :
    u ∈ purchasedUpgrades purchases ↔ purchases u ≠ 0 := by
  simp [purchasedUpgrades]

/-- The effects of the purchased upgrades, in content order. -/
def purchasedEffects (purchases : Fin sh.upgrades → ℕ) : List (UpgradeEffect sh) :=
  (purchasedUpgrades purchases).flatMap fun u => (options.content.upgrades u).effects

/-- The applications of the purchased upgrades, in content order, each with its level. -/
def upgradeApplications (purchases : Fin sh.upgrades → ℕ) : List (Fin sh.upgrades × ℕ) :=
  (purchasedUpgrades purchases).flatMap fun u =>
    (applicationLevels (options.content.upgrades u) (purchases u)).map fun level => (u, level)

/-- One application of an upgrade, on one of the maps. -/
def applyApplication {α : Type} (contextAt : ℕ → FormulaContext)
    (apply : FormulaContext → ℚ → α → UpgradeEffect sh → α) (a : α)
    (application : Fin sh.upgrades × ℕ) : α :=
  let upgrade := options.content.upgrades application.1
  let context := contextAt application.2
  match resolveEffectCurveMultiplier (upgrade.repeatable.bind (·.effectCurve)) context with
  | none => a
  | some multiplier => upgrade.effects.foldl (apply context multiplier) a

/-! ### One map at a time -/

/-- The pass, over the purchased upgrades only. -/
theorem evaluateUpgradeEffects_eq (inputs : FormulaInputs sh) (step : ℕ) :
    evaluateUpgradeEffects options inputs step =
      (purchasedUpgrades inputs.purchases).foldl
        (fun output u =>
          applyUpgradeRecordEffects options inputs step
            ((options.content.upgrades u).effects.foldl collectUnlockedEffect output) u) .none := by
  rw [purchasedUpgrades, foldl_filter, evaluateUpgradeEffects]
  refine congrArg (fun f => foldl f UpgradeEffects.none _) ?_
  funext output u
  by_cases hu : inputs.purchases u = 0 <;> simp [hu]

variable {α : Type}

variable (part : UpgradeEffects sh → α)

/-- A map that no effect with a value touches is what the unlocking effects make of it. -/
theorem evaluateUpgradeEffects_granted (grant : α → UpgradeEffect sh → α)
    (hgrant : ∀ output effect, part (collectUnlockedEffect output effect) =
      grant (part output) effect) (hvalue : ∀ context multiplier output effect,
      part (applyUpgradeEffectValue options context multiplier output effect) = part output)
    (inputs : FormulaInputs sh) (step : ℕ) :
    part (evaluateUpgradeEffects options inputs step) =
      (purchasedEffects options inputs.purchases).foldl grant (part .none) := by
  have happlied : ∀ u output, part (applyUpgradeRecordEffects options inputs step output u) =
      part output := by
    intro u output
    refine foldlRecOn (motive := fun out => part out = part output) _ _ rfl ?_
    intro out hout level _
    rw [applyUpgradeApplication]
    split
    · exact hout
    · refine foldlRecOn (motive := fun out => part out = part output) _ _ hout ?_
      intro out hout effect _
      exact (hvalue _ _ out effect).trans hout
  have hcollect : ∀ (effects : List (UpgradeEffect sh)) output,
      part (effects.foldl collectUnlockedEffect output) = effects.foldl grant (part output) := by
    intro effects output
    exact (foldl_hom part fun out effect => (hgrant out effect).symm).symm
  rw [evaluateUpgradeEffects_eq, purchasedEffects, foldl_flatMap]
  refine (foldl_hom part fun output u => ?_).symm
  rw [happlied, hcollect]

/-- A map that no unlocking effect touches is what the applications make of it. -/
theorem evaluateUpgradeEffects_applied (apply : FormulaContext → ℚ → α → UpgradeEffect sh → α)
    (hgrant : ∀ output effect, part (collectUnlockedEffect output effect) = part output)
    (hvalue : ∀ context multiplier output effect,
      part (applyUpgradeEffectValue options context multiplier output effect) =
        apply context multiplier (part output) effect) (inputs : FormulaInputs sh) (step : ℕ) :
    part (evaluateUpgradeEffects options inputs step) =
      (upgradeApplications options inputs.purchases).foldl
        (applyApplication options
          (fun level => createFormulaEvaluationContext options inputs level step) apply)
        (part .none) := by
  have hcollect : ∀ (effects : List (UpgradeEffect sh)) output,
      part (effects.foldl collectUnlockedEffect output) = part output := by
    intro effects output
    refine foldlRecOn (motive := fun out => part out = part output) _ _ rfl ?_
    intro out hout effect _
    exact (hgrant out effect).trans hout
  rw [evaluateUpgradeEffects_eq, upgradeApplications, foldl_flatMap]
  refine (foldl_hom part fun output u => ?_).symm
  rw [applyUpgradeRecordEffects, foldl_map, ← hcollect _ output]
  refine foldl_hom part fun out level => ?_
  rw [applyUpgradeApplication, applyApplication]
  dsimp only
  cases resolveEffectCurveMultiplier
      ((options.content.upgrades u).repeatable.bind (·.effectCurve))
      (createFormulaEvaluationContext options inputs level step) with
  | none => rfl
  | some multiplier =>
    exact foldl_hom part fun out effect => (hvalue _ multiplier out effect).symm

/-! ### What is unlocked and granted -/

theorem applyUpgradeEffectValue_granted
    (hpart : ∀ output rates costs consumption resourceConsumption resourceRates capacities
      tolerances, part
        { output with
          generatorRateMultipliers := rates
          generatorCostMultipliers := costs
          generatorConsumptionMultipliers := consumption
          generatorResourceConsumptionMultipliers := resourceConsumption
          resourceRateMultipliers := resourceRates
          resourceCapacityOverrides := capacities
          dirtyToleranceOverrides := tolerances } = part output) (context : FormulaContext)
    (multiplier : ℚ) (output : UpgradeEffects sh) (effect : UpgradeEffect sh) :
    part (applyUpgradeEffectValue options context multiplier output effect) = part output := by
  have hwith : ∀ value (use : ℚ → UpgradeEffects sh), (∀ v, part (use v) = part output) →
      part (withEffectiveValue value context multiplier output use) = part output := by
    intro value use huse
    rw [withEffectiveValue]
    split
    · exact huse _
    · rfl
  unfold applyUpgradeEffectValue
  split
  case h_8 | h_9 | h_10 | h_11 => rfl
  all_goals
    refine hwith _ _ fun v => ?_
    exact hpart output _ _ _ _ _ _ _

variable {inputs : FormulaInputs sh} {step : ℕ}

/-- A set that only unlocking effects add to holds what the purchased upgrades add. -/
theorem mem_granted {K : Type} [DecidableEq K] (part : UpgradeEffects sh → List K)
    (adds : UpgradeEffect sh → Option K)
    (hgrant : ∀ output effect, part (collectUnlockedEffect output effect) =
      (adds effect).elim (part output) (addToSet (part output)))
    (hvalue : ∀ context multiplier output effect,
      part (applyUpgradeEffectValue options context multiplier output effect) = part output)
    (hnone : part .none = []) {k : K} :
    k ∈ part (evaluateUpgradeEffects options inputs step) ↔
      ∃ effect ∈ purchasedEffects options inputs.purchases, adds effect = some k := by
  have hfold : ∀ (effects : List (UpgradeEffect sh)) (l : List K),
      k ∈ effects.foldl (fun l effect => (adds effect).elim l (addToSet l)) l ↔
        k ∈ l ∨ ∃ effect ∈ effects, adds effect = some k := by
    intro effects
    induction effects with
    | nil => simp
    | cons effect effects ih =>
      intro l
      rw [foldl_cons, ih, exists_mem_cons_iff, ← or_assoc]
      refine or_congr_left ?_
      cases adds effect with
      | none => simp
      | some j =>
        rw [Option.elim_some, mem_addToSet, Option.some_inj, eq_comm (a := k)]
  rw [evaluateUpgradeEffects_granted options part
    (fun l effect => (adds effect).elim l (addToSet l)) hgrant hvalue, hfold, hnone]
  simp

/-- The resource that an effect unlocks. -/
def UpgradeEffect.unlockedResource : UpgradeEffect sh → Option (Fin sh.resources)
  | .unlockResource i => some i
  | _ => none

/-- The generator that an effect unlocks. -/
def UpgradeEffect.unlockedGenerator : UpgradeEffect sh → Option (Fin sh.generators)
  | .unlockGenerator i => some i
  | _ => none

theorem mem_unlockedResources {i : Fin sh.resources} :
    i ∈ (evaluateUpgradeEffects options inputs step).unlockedResources ↔
      .unlockResource i ∈ purchasedEffects options inputs.purchases := by
  rw [mem_granted options (·.unlockedResources) UpgradeEffect.unlockedResource
    (fun output effect => by cases effect <;> rfl)
    (applyUpgradeEffectValue_granted options _ fun _ _ _ _ _ _ _ _ => rfl) rfl]
  constructor
  · rintro ⟨effect, heffect, hadds⟩
    cases effect <;> simp_all [UpgradeEffect.unlockedResource]
  · exact fun h => ⟨_, h, rfl⟩

theorem mem_unlockedGenerators {i : Fin sh.generators} :
    i ∈ (evaluateUpgradeEffects options inputs step).unlockedGenerators ↔
      .unlockGenerator i ∈ purchasedEffects options inputs.purchases := by
  rw [mem_granted options (·.unlockedGenerators) UpgradeEffect.unlockedGenerator
    (fun output effect => by cases effect <;> rfl)
    (applyUpgradeEffectValue_granted options _ fun _ _ _ _ _ _ _ _ => rfl) rfl]
  constructor
  · rintro ⟨effect, heffect, hadds⟩
    cases effect <;> simp_all [UpgradeEffect.unlockedGenerator]
  · exact fun h => ⟨_, h, rfl⟩

/-! ### Capacities -/

/-- The effect of an upgrade on the overrides of capacities. -/
def applyCapacityEffect (context : FormulaContext) (multiplier : ℚ)
    (overrides : OrderedMap (Fin sh.resources) Capacity) :
    UpgradeEffect sh → OrderedMap (Fin sh.resources) Capacity
  | .modifyResourceCapacity resource operation value =>
      (resolveEffectiveUpgradeEffectValue value context multiplier).elim overrides
        (applyCapacityOverride options.baseCapacity overrides resource operation)
  | _ => overrides

/-- The overrides of capacities are what the effects on capacities make of none. -/
theorem evaluateUpgradeEffects_capacities (inputs : FormulaInputs sh) (step : ℕ) :
    (evaluateUpgradeEffects options inputs step).resourceCapacityOverrides =
      (upgradeApplications options inputs.purchases).foldl
        (applyApplication options
          (fun level => createFormulaEvaluationContext options inputs level step)
          (applyCapacityEffect options)) OrderedMap.empty := by
  refine evaluateUpgradeEffects_applied options (·.resourceCapacityOverrides)
    (applyCapacityEffect options) (fun output effect => by cases effect <;> rfl) ?_ inputs step
  intro context multiplier output effect
  cases effect with
  | modifyResourceCapacity resource operation value =>
    rw [applyUpgradeEffectValue, withEffectiveValue, applyCapacityEffect]
    cases resolveEffectiveUpgradeEffectValue value context multiplier <;> rfl
  | modifyGeneratorConsumption generator resource operation value =>
    cases resource <;> rw [applyUpgradeEffectValue, withEffectiveValue] <;> split <;> rfl
  | modifyGeneratorRate generator operation value
  | modifyGeneratorCost generator operation value
  | modifyResourceRate resource operation value
  | alterDirtyTolerance resource operation value =>
    rw [applyUpgradeEffectValue, withEffectiveValue]
    split <;> rfl
  | unlockResource resource | unlockGenerator generator | grantAutomation automationId
  | grantFlag flagId value => rfl

/-- What one map becomes along applications, whatever each effect keeps. -/
theorem applyApplication_keeps {contextAt : ℕ → FormulaContext}
    {apply : FormulaContext → ℚ → α → UpgradeEffect sh → α} {P : α → Prop} (a : α)
    (applications : List (Fin sh.upgrades × ℕ)) (ha : P a)
    (happly : ∀ u, ∀ effect ∈ (options.content.upgrades u).effects, ∀ context multiplier b, P b →
      P (apply context multiplier b effect)) :
    P (applications.foldl (applyApplication options contextAt apply) a) := by
  refine foldlRecOn (motive := P) _ _ ha fun b hb application _ => ?_
  rw [applyApplication]
  split
  · exact hb
  · exact foldlRecOn (motive := P) _ _ hb fun b hb effect heffect =>
      happly _ effect heffect _ _ b hb

end IdleEngine
