import IdleEngine.Progression.Content

/-!
# Upgrade effects

The purchased upgrades are folded, in content order and once per purchase where they are
repeatable, into multipliers, capacity and tolerance overrides, unlocks, automations and flags.
An effect whose value has no finite result, or whose capacity would be negative, is left out.

The maps that are only looked up are functions; the two override maps are also iterated and keep
their insertion order.
-/

namespace IdleEngine

variable {sh : ContentShape}

/-- A capacity that a resource can have. -/
abbrev Capacity := { capacity : WithTop ℚ // 0 ≤ capacity }

/-- What formulas read of the game: amounts, generator levels and upgrade purchases. -/
structure FormulaInputs (sh : ContentShape) where
  amount : Fin sh.resources → ℚ
  owned : Fin sh.generators → ℕ
  purchases : Fin sh.upgrades → ℕ

/-- A value looked up by id, zero for an id that names nothing. -/
def valueOfId {n : ℕ} (ids : Fin n → String) (value : Fin n → ℚ) (id : String) : ℚ :=
  match indexOfId ids id with
  | some i => value i
  | none => 0

namespace FormulaInputs

variable (options : ProgressionOptions sh) (inputs : FormulaInputs sh)

def getResourceAmount (id : String) : ℚ :=
  valueOfId (fun i => (options.content.resources i).id) inputs.amount id

def getGeneratorLevel (id : String) : ℚ :=
  valueOfId (fun i => (options.content.generators i).id) (fun i => inputs.owned i) id

def getUpgradePurchases (id : String) : ℚ :=
  valueOfId (fun i => (options.content.upgrades i).id) (fun i => inputs.purchases i) id

end FormulaInputs

/-- The length of a step in seconds. -/
def ProgressionOptions.deltaTime (options : ProgressionOptions sh) : ℚ :=
  max 0 options.stepDurationMs / 1000

/-- `createFormulaEvaluationContext`. -/
def createFormulaEvaluationContext (options : ProgressionOptions sh) (inputs : FormulaInputs sh)
    (level step : ℕ) : FormulaContext :=
  { variableValue := formulaVariables level (step * options.deltaTime) options.deltaTime
    resource := fun id => some (inputs.getResourceAmount options id)
    generator := fun id => some (inputs.getGeneratorLevel options id)
    upgrade := fun id => some (inputs.getUpgradePurchases options id)
    automation := fun _ => some 0
    prestigeLayer := fun _ => some 0 }

/-- `EvaluatedUpgradeEffects`. -/
structure UpgradeEffects (sh : ContentShape) where
  generatorRateMultipliers : Fin sh.generators → ℚ
  generatorCostMultipliers : Fin sh.generators → ℚ
  generatorConsumptionMultipliers : Fin sh.generators → ℚ
  generatorResourceConsumptionMultipliers : Fin sh.generators → Fin sh.resources → ℚ
  resourceRateMultipliers : Fin sh.resources → ℚ
  resourceCapacityOverrides : OrderedMap (Fin sh.resources) Capacity
  dirtyToleranceOverrides : OrderedMap (Fin sh.resources) ℚ
  unlockedResources : List (Fin sh.resources)
  unlockedGenerators : List (Fin sh.generators)
  grantedAutomations : String → Bool
  grantedFlags : String → Option Bool

/-- The effects of no upgrade. -/
def UpgradeEffects.none : UpgradeEffects sh :=
  { generatorRateMultipliers := fun _ => 1
    generatorCostMultipliers := fun _ => 1
    generatorConsumptionMultipliers := fun _ => 1
    generatorResourceConsumptionMultipliers := fun _ _ => 1
    resourceRateMultipliers := fun _ => 1
    resourceCapacityOverrides := OrderedMap.empty
    dirtyToleranceOverrides := OrderedMap.empty
    unlockedResources := []
    unlockedGenerators := []
    grantedAutomations := fun _ => false
    grantedFlags := fun _ => .none }

/-- `applyOperation`. -/
def applyOperation (current : ℚ) (operation : AdjustmentOperation) (effectiveValue : ℚ) : ℚ :=
  match operation with
  | .add => current + effectiveValue
  | .multiply => current * effectiveValue
  | .set => effectiveValue

/-- `applyModifier`. -/
def applyModifier {K : Type} [DecidableEq K] (modifiers : K → ℚ) (target : K)
    (operation : AdjustmentOperation) (effectiveValue : ℚ) : K → ℚ :=
  Function.update modifiers target (applyOperation (modifiers target) operation effectiveValue)

/-- `applyCapacityOperation`: only `set` brings an infinite capacity down. -/
def applyCapacityOperation (current : WithTop ℚ) (operation : AdjustmentOperation)
    (effectiveValue : ℚ) : WithTop ℚ :=
  match current, operation with
  | ⊤, .set => (effectiveValue : ℚ)
  | ⊤, _ => ⊤
  | (current : ℚ), operation => (applyOperation current operation effectiveValue : ℚ)

/-- `applyCapacityOverride`. -/
def applyCapacityOverride (base : Fin sh.resources → WithTop ℚ)
    (overrides : OrderedMap (Fin sh.resources) Capacity) (resource : Fin sh.resources)
    (operation : AdjustmentOperation) (effectiveValue : ℚ) :
    OrderedMap (Fin sh.resources) Capacity :=
  if operation = .multiply ∧ effectiveValue < 0 then overrides
  else
    let current : WithTop ℚ := ((overrides.get? resource).map Subtype.val).getD (base resource)
    let next := applyCapacityOperation current operation effectiveValue
    if hnext : 0 ≤ next then overrides.set resource ⟨next, hnext⟩ else overrides

/-- `applyDirtyToleranceOverride`. -/
def applyDirtyToleranceOverride (base : Fin sh.resources → ℚ)
    (overrides : OrderedMap (Fin sh.resources) ℚ) (resource : Fin sh.resources)
    (operation : AdjustmentOperation) (effectiveValue : ℚ) : OrderedMap (Fin sh.resources) ℚ :=
  overrides.set resource
    (applyOperation ((overrides.get? resource).getD (base resource)) operation effectiveValue)

namespace ProgressionOptions

variable (options : ProgressionOptions sh)

/-- `getBaseCapacity`. -/
def baseCapacity (resource : Fin sh.resources) : WithTop ℚ :=
  (options.content.resources resource).baseCapacity

/-- `getBaseDirtyTolerance`: the tolerance the resource is created with. -/
def baseDirtyTolerance (resource : Fin sh.resources) : ℚ :=
  options.precision.clampDirtyTolerance
    ((options.content.resources resource).dirtyTolerance.getD
      (.fin options.precision.dirtyEpsilonCeiling))

end ProgressionOptions

/-- `resolveEffectiveUpgradeEffectValue`. -/
def resolveEffectiveUpgradeEffectValue (value : NumericFormula) (context : FormulaContext)
    (effectCurveMultiplier : ℚ) : Option ℚ :=
  (evaluateFiniteNumericFormula value context).map (· * effectCurveMultiplier)

/-- Put the effective value of an effect to use, when it has one. -/
def withEffectiveValue (value : NumericFormula) (context : FormulaContext)
    (effectCurveMultiplier : ℚ) (output : UpgradeEffects sh) (use : ℚ → UpgradeEffects sh) :
    UpgradeEffects sh :=
  match resolveEffectiveUpgradeEffectValue value context effectCurveMultiplier with
  | some effective => use effective
  | .none => output

/-- `applyUpgradeEffectValue`. -/
def applyUpgradeEffectValue (options : ProgressionOptions sh) (context : FormulaContext)
    (effectCurveMultiplier : ℚ) (output : UpgradeEffects sh) (effect : UpgradeEffect sh) :
    UpgradeEffects sh :=
  match effect with
  | .modifyGeneratorRate generator operation value =>
      withEffectiveValue value context effectCurveMultiplier output fun effective =>
        { output with
          generatorRateMultipliers :=
            applyModifier output.generatorRateMultipliers generator operation effective }
  | .modifyGeneratorCost generator operation value =>
      withEffectiveValue value context effectCurveMultiplier output fun effective =>
        { output with
          generatorCostMultipliers :=
            applyModifier output.generatorCostMultipliers generator operation effective }
  | .modifyGeneratorConsumption generator (some resource) operation value =>
      withEffectiveValue value context effectCurveMultiplier output fun effective =>
        { output with
          generatorResourceConsumptionMultipliers :=
            Function.update output.generatorResourceConsumptionMultipliers generator
              (applyModifier (output.generatorResourceConsumptionMultipliers generator) resource
                operation effective) }
  | .modifyGeneratorConsumption generator .none operation value =>
      withEffectiveValue value context effectCurveMultiplier output fun effective =>
        { output with
          generatorConsumptionMultipliers :=
            applyModifier output.generatorConsumptionMultipliers generator operation effective }
  | .modifyResourceRate resource operation value =>
      withEffectiveValue value context effectCurveMultiplier output fun effective =>
        { output with
          resourceRateMultipliers :=
            applyModifier output.resourceRateMultipliers resource operation effective }
  | .modifyResourceCapacity resource operation value =>
      withEffectiveValue value context effectCurveMultiplier output fun effective =>
        { output with
          resourceCapacityOverrides :=
            applyCapacityOverride options.baseCapacity output.resourceCapacityOverrides resource
              operation effective }
  | .alterDirtyTolerance resource operation value =>
      withEffectiveValue value context effectCurveMultiplier output fun effective =>
        { output with
          dirtyToleranceOverrides :=
            applyDirtyToleranceOverride options.baseDirtyTolerance output.dirtyToleranceOverrides
              resource operation effective }
  | .unlockResource _ | .unlockGenerator _ | .grantAutomation _ | .grantFlag _ _ => output

/-- Add to a set in insertion order. -/
def addToSet {K : Type} [DecidableEq K] (set : List K) (k : K) : List K :=
  if k ∈ set then set else set ++ [k]

theorem mem_addToSet {K : Type} [DecidableEq K] {set : List K} {k j : K} :
    j ∈ addToSet set k ↔ j ∈ set ∨ j = k := by
  rw [addToSet]
  split
  · next hk => exact ⟨.inl, fun h => h.elim id fun hj => hj ▸ hk⟩
  · simp

/-- `collectUnlockedEffects`, for one effect. -/
def collectUnlockedEffect (output : UpgradeEffects sh) (effect : UpgradeEffect sh) :
    UpgradeEffects sh :=
  match effect with
  | .unlockResource resource =>
      { output with unlockedResources := addToSet output.unlockedResources resource }
  | .unlockGenerator generator =>
      { output with unlockedGenerators := addToSet output.unlockedGenerators generator }
  | .grantAutomation automationId =>
      { output with
        grantedAutomations := Function.update output.grantedAutomations automationId true }
  | .grantFlag flagId value =>
      { output with grantedFlags := Function.update output.grantedFlags flagId (some value) }
  | _ => output

/-- `resolveEffectCurveMultiplier`. -/
def resolveEffectCurveMultiplier (effectCurve : Option NumericFormula)
    (context : FormulaContext) : Option ℚ :=
  match effectCurve with
  | .none => some 1
  | some effectCurve => evaluateFiniteNumericFormula effectCurve context

/-- One application of an upgrade's effects, at a level. -/
def applyUpgradeApplication (options : ProgressionOptions sh) (inputs : FormulaInputs sh)
    (step : ℕ) (upgrade : UpgradeContent sh) (output : UpgradeEffects sh) (level : ℕ) :
    UpgradeEffects sh :=
  let context := createFormulaEvaluationContext options inputs level step
  match resolveEffectCurveMultiplier (upgrade.repeatable.bind (·.effectCurve)) context with
  | .none => output
  | some effectCurveMultiplier =>
      upgrade.effects.foldl (applyUpgradeEffectValue options context effectCurveMultiplier) output

/-- The levels at which an upgrade's effects are applied; `resolveUpgradeApplicationCount`. -/
def applicationLevels (upgrade : UpgradeContent sh) (purchases : ℕ) : List ℕ :=
  match upgrade.repeatable with
  | some _ => (List.range purchases).map (· + 1)
  | .none => [purchases]

/-- `applyUpgradeRecordEffects`. -/
def applyUpgradeRecordEffects (options : ProgressionOptions sh) (inputs : FormulaInputs sh)
    (step : ℕ) (output : UpgradeEffects sh) (upgrade : Fin sh.upgrades) : UpgradeEffects sh :=
  let definition := options.content.upgrades upgrade
  (applicationLevels definition (inputs.purchases upgrade)).foldl
    (applyUpgradeApplication options inputs step definition) output

/-- `evaluateUpgradeEffects`. -/
def evaluateUpgradeEffects (options : ProgressionOptions sh) (inputs : FormulaInputs sh)
    (step : ℕ) : UpgradeEffects sh :=
  (List.finRange sh.upgrades).foldl
    (fun output upgrade =>
      if inputs.purchases upgrade = 0 then output
      else
        let output := (options.content.upgrades upgrade).effects.foldl collectUnlockedEffect output
        applyUpgradeRecordEffects options inputs step output upgrade) .none

end IdleEngine
