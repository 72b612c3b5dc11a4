import IdleEngine.Number

/-!
# Formulas and conditions

A formula is what it evaluates to: a number for each context, or the error of a reference that
the context has no value for. Conditions are trees; evaluating one may throw where a threshold is
a formula that throws, and a branch beyond the maximum depth counts as false.
-/

namespace IdleEngine

/-- `FormulaEvaluationContext`: the value of each variable and of each entity that the context
can resolve. -/
structure FormulaContext where
  variableValue : String → Option ℚ
  resource : String → Option ℚ
  generator : String → Option ℚ
  upgrade : String → Option ℚ
  automation : String → Option ℚ
  prestigeLayer : String → Option ℚ

/-- A numeric formula, by its value in each context: `evaluateNumericFormula`. -/
abbrev NumericFormula := FormulaContext → Except String JsNumber

/-- A formula of kind `constant`. -/
def NumericFormula.constant (value : JsNumber) : NumericFormula := fun _ => .ok value

/-- `evaluateFiniteNumericFormula`: a formula that throws or is not finite has no value. -/
def evaluateFiniteNumericFormula (formula : NumericFormula) (context : FormulaContext) :
    Option ℚ :=
  match formula context with
  | .ok value => value.finite?
  | .error _ => none

/-- The variables of a formula context. -/
def formulaVariables (level time deltaTime : ℚ) : String → Option ℚ
  | "level" => some level
  | "time" => some time
  | "deltaTime" => some deltaTime
  | _ => none

/-- `ConditionContext`; the last three hooks may be missing. -/
structure ConditionContext where
  getResourceAmount : String → ℚ
  getGeneratorLevel : String → ℚ
  getUpgradePurchases : String → ℚ
  maxConditionDepth : Option JsNumber
  hasPrestigeLayerUnlocked : Option (String → Bool)
  isFlagSet : Option (String → Bool)
  evaluateScriptCondition : Option (String → Bool)

inductive Comparator
  | gte
  | gt
  | lte
  | lt
  deriving DecidableEq, Repr

/-- `compareWithComparator`: every comparison with the not-a-number value is false. -/
def compareWithComparator (left right : JsNumber) : Comparator → Bool
  | .gt => right.lt left
  | .gte => right.le left
  | .lt => left.lt right
  | .lte => left.le right

/-- `Condition`. The last constructor is a condition whose kind has no evaluator. -/
inductive Condition
  | always
  | never
  | resourceThreshold (resourceId : String) (comparator : Comparator) (amount : NumericFormula)
  | generatorLevel (generatorId : String) (comparator : Comparator) (level : NumericFormula)
  | upgradeOwned (upgradeId : String) (requiredPurchases : ℚ)
  | prestigeCountThreshold (prestigeLayerId : String) (comparator : Comparator) (count : ℚ)
  | prestigeCompleted (prestigeLayerId : String)
  | prestigeUnlocked (prestigeLayerId : String)
  | flag (flagId : String)
  | script (scriptId : String)
  | allOf (conditions : List Condition)
  | anyOf (conditions : List Condition)
  | not (condition : Condition)
  | unknown (kind : String)

/-- The id of the resource that counts how often a layer was reset. -/
def prestigeCountId (prestigeLayerId : String) : String := prestigeLayerId ++ "-prestige-count"

/-- `createStaticFormulaEvaluationContext`: thresholds are evaluated at level zero. -/
def createStaticFormulaEvaluationContext (context : ConditionContext) : FormulaContext :=
  { variableValue := formulaVariables 0 0 0
    resource := fun id => some (context.getResourceAmount id)
    generator := fun id => some (context.getGeneratorLevel id)
    upgrade := fun id => some (context.getUpgradePurchases id)
    automation := fun _ => none
    prestigeLayer := fun _ => none }

/-- The depth beyond which a condition is not followed. -/
def ConditionContext.maxDepth (context : ConditionContext) : ℕ :=
  match context.maxConditionDepth.bind JsNumber.finite? with
  | some depth => if 0 < depth then ⌊depth⌋.toNat else 100
  | none => 100

/-- A measured value against a threshold formula. -/
def meetsThreshold (context : ConditionContext) (left : ℚ) (comparator : Comparator)
    (threshold : NumericFormula) : Except String Bool := do
  let target ← threshold (createStaticFormulaEvaluationContext context)
  return compareWithComparator (.fin left) target comparator

/-- The depth check of `evaluateCondition`. -/
def unlessTooDeep (context : ConditionContext) (depth : ℕ) (holds : Except String Bool) :
    Except String Bool :=
  if context.maxDepth < depth then .ok false else holds

/-- A hook that may be missing; without it the condition does not hold. -/
def askHook (hook : Option (String → Bool)) (id : String) : Bool :=
  match hook with
  | some ask => ask id
  | none => false

mutual

/-- `evaluateCondition`, of a condition that is there. -/
def evaluateCondition (context : ConditionContext) (depth : ℕ) : Condition → Except String Bool
  | .always => unlessTooDeep context depth (.ok true)
  | .never => unlessTooDeep context depth (.ok false)
  | .resourceThreshold resourceId comparator amount =>
      unlessTooDeep context depth
        (meetsThreshold context (context.getResourceAmount resourceId) comparator amount)
  | .generatorLevel generatorId comparator level =>
      unlessTooDeep context depth
        (meetsThreshold context (context.getGeneratorLevel generatorId) comparator level)
  | .upgradeOwned upgradeId requiredPurchases =>
      unlessTooDeep context depth
        (.ok (decide (requiredPurchases ≤ context.getUpgradePurchases upgradeId)))
  | .prestigeCountThreshold prestigeLayerId comparator count =>
      unlessTooDeep context depth
        (.ok (compareWithComparator
          (.fin (context.getResourceAmount (prestigeCountId prestigeLayerId))) (.fin count)
          comparator))
  | .prestigeCompleted prestigeLayerId =>
      unlessTooDeep context depth
        (.ok (decide (1 ≤ context.getResourceAmount (prestigeCountId prestigeLayerId))))
  | .prestigeUnlocked prestigeLayerId =>
      unlessTooDeep context depth (.ok (askHook context.hasPrestigeLayerUnlocked prestigeLayerId))
  | .flag flagId => unlessTooDeep context depth (.ok (askHook context.isFlagSet flagId))
  | .script scriptId =>
      unlessTooDeep context depth (.ok (askHook context.evaluateScriptCondition scriptId))
  | .allOf conditions =>
      unlessTooDeep context depth (evaluateEvery context (depth + 1) conditions)
  | .anyOf conditions =>
      unlessTooDeep context depth (evaluateSome context (depth + 1) conditions)
  | .not condition =>
      unlessTooDeep context depth
        ((evaluateCondition context (depth + 1) condition).map fun holds => !holds)
  | .unknown _ => unlessTooDeep context depth (.ok false)

/-- `conditions.every(…)`. -/
def evaluateEvery (context : ConditionContext) (depth : ℕ) :
    List Condition → Except String Bool
  | [] => .ok true
  | condition :: conditions => do
      let holds ← evaluateCondition context depth condition
      if holds then evaluateEvery context depth conditions else .ok false

/-- `conditions.some(…)`. -/
def evaluateSome (context : ConditionContext) (depth : ℕ) :
    List Condition → Except String Bool
  | [] => .ok false
  | condition :: conditions => do
      let holds ← evaluateCondition context depth condition
      if holds then .ok true else evaluateSome context depth conditions

end

end IdleEngine
