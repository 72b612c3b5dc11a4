import IdleEngine.Content.Formulas
import IdleEngine.Progression.ConditionMeaning

/-!
# Conditions of the content schema

A condition of the schema (`ConditionNode`) is evaluated as the condition that its formulas give
(`ConditionNode.toCondition`). Thresholds are evaluated in a context that has lookups for resources,
generators and upgrades only, while the schema also accepts references to automations and prestige
layers. So evaluating an accepted condition returns, in whatever context, if and only if no
threshold that the evaluation comes to has such a reference in what level 0 leaves of its formula
(`evaluateCondition_returns_iff`).
-/

namespace IdleEngine

open Condition

/-- A condition of the schema. -/
inductive ConditionNode
  | always
  | never
  | resourceThreshold (resourceId : String) (comparator : Comparator) (amount : FormulaNode)
  | generatorLevel (generatorId : String) (comparator : Comparator) (level : FormulaNode)
  | upgradeOwned (upgradeId : String) (requiredPurchases : ℕ)
  | prestigeCountThreshold (prestigeLayerId : String) (comparator : Comparator) (count : ℕ)
  | prestigeCompleted (prestigeLayerId : String)
  | prestigeUnlocked (prestigeLayerId : String)
  | flag (flagId : String)
  | script (scriptId : String)
  | allOf (conditions : List ConditionNode)
  | anyOf (conditions : List ConditionNode)
  | not (condition : ConditionNode)

namespace ConditionNode

/-! ### What the schema accepts -/

mutual

/-- `maxConditionDepth`. -/
def depth : ConditionNode → ℕ
  | .allOf conditions => 1 + depthEach conditions
  | .anyOf conditions => 1 + depthEach conditions
  | .not condition => 1 + depth condition
  | _ => 1

def depthEach : List ConditionNode → ℕ
  | [] => 0
  | condition :: conditions => max (depth condition) (depthEach conditions)

end

mutual

/-- `countConditionNodes`. -/
def count : ConditionNode → ℕ
  | .allOf conditions => 1 + countEach conditions
  | .anyOf conditions => 1 + countEach conditions
  | .not condition => 1 + count condition
  | _ => 1

def countEach : List ConditionNode → ℕ
  | [] => 0
  | condition :: conditions => count condition + countEach conditions

end

mutual

/-- The checks of the parts of a condition. -/
def WellFormed : ConditionNode → Prop
  | .resourceThreshold _ _ amount => amount.Accepted
  | .generatorLevel _ _ level => level.Accepted
  | .upgradeOwned _ requiredPurchases => 0 < requiredPurchases
  | .prestigeCountThreshold _ _ count => 0 < count
  | .allOf conditions => conditions ≠ [] ∧ WellFormedEach conditions
  | .anyOf conditions => conditions ≠ [] ∧ WellFormedEach conditions
  | .not condition => WellFormed condition
  | _ => True

def WellFormedEach : List ConditionNode → Prop
  | [] => True
  | condition :: conditions => WellFormed condition ∧ WellFormedEach conditions

end

/-- `conditionSchema`. -/
structure Accepted (condition : ConditionNode) : Prop where
  wellFormed : condition.WellFormed
  depth : condition.depth ≤ 16
  count : condition.count ≤ 256

/-! ### Evaluation -/

variable (math : FormulaMath)

mutual

/-- The condition with its formulas evaluated by `evaluateNumericFormula`. -/
def toCondition : ConditionNode → Condition
  | .always => .always
  | .never => .never
  | .resourceThreshold resourceId comparator amount =>
      .resourceThreshold resourceId comparator fun context => amount.evaluate math context
  | .generatorLevel generatorId comparator level =>
      .generatorLevel generatorId comparator fun context => level.evaluate math context
  | .upgradeOwned upgradeId requiredPurchases => .upgradeOwned upgradeId requiredPurchases
  | .prestigeCountThreshold prestigeLayerId comparator count =>
      .prestigeCountThreshold prestigeLayerId comparator count
  | .prestigeCompleted prestigeLayerId => .prestigeCompleted prestigeLayerId
  | .prestigeUnlocked prestigeLayerId => .prestigeUnlocked prestigeLayerId
  | .flag flagId => .flag flagId
  | .script scriptId => .script scriptId
  | .allOf conditions => .allOf (toConditions conditions)
  | .anyOf conditions => .anyOf (toConditions conditions)
  | .not condition => .not (toCondition condition)

def toConditions : List ConditionNode → List Condition
  | [] => []
  | condition :: conditions => toCondition condition :: toConditions conditions

end

/-- The references that the context of thresholds has lookups for. -/
def hasStaticLookup : ReferenceTarget → Bool
  | .entity .automation _ => false
  | .entity .prestigeLayer _ => false
  | _ => true

variable (context : ConditionContext)

/-- The condition holds in the context, with what is too deep counted as false. -/
def holdsHere (depth : ℕ) (condition : ConditionNode) : Prop :=
  (condition.toCondition math).HoldsCounting context (fun _ => False) depth false

mutual

/-- No threshold that the evaluation comes to refers to an automation or a prestige layer at level
0. The evaluation comes to a member of `allOf` if those before it hold, and to a member of `anyOf`
if none of those before it does. -/
def Evaluable : ℕ → ConditionNode → Prop
  | depth, .resourceThreshold _ _ amount =>
      context.maxDepth < depth ∨ amount.allRefs hasStaticLookup 0 = true
  | depth, .generatorLevel _ _ level =>
      context.maxDepth < depth ∨ level.allRefs hasStaticLookup 0 = true
  | depth, .allOf conditions => context.maxDepth < depth ∨ EvaluableEvery (depth + 1) conditions
  | depth, .anyOf conditions => context.maxDepth < depth ∨ EvaluableSome (depth + 1) conditions
  | depth, .not condition => context.maxDepth < depth ∨ Evaluable (depth + 1) condition
  | _, _ => True

def EvaluableEvery : ℕ → List ConditionNode → Prop
  | _, [] => True
  | depth, condition :: conditions => Evaluable depth condition ∧
      (condition.holdsHere math context depth → EvaluableEvery depth conditions)

def EvaluableSome : ℕ → List ConditionNode → Prop
  | _, [] => True
  | depth, condition :: conditions => Evaluable depth condition ∧
      (¬condition.holdsHere math context depth → EvaluableSome depth conditions)

end

variable {math} {context}

/-! ### When evaluation returns -/

theorem resolves_static (context : ConditionContext) :
    (createStaticFormulaEvaluationContext context).resolves = hasStaticLookup := by
  funext target
  rcases target with ⟨_ | _ | _⟩ | ⟨_ | _ | _ | _ | _, id⟩
  all_goals rfl

theorem exists_unlessTooDeep_iff {depth : ℕ} {holds : Except String Bool} :
    (∃ value, unlessTooDeep context depth holds = .ok value) ↔
      context.maxDepth < depth ∨ ∃ value, holds = .ok value := by
  rw [unlessTooDeep]
  split
  · next hdeep => exact iff_of_true ⟨false, rfl⟩ (.inl hdeep)
  · next hdeep => exact (or_iff_right hdeep).symm

/-- A threshold returns if its formula does at level 0. -/
theorem exists_meetsThreshold_iff {left : ℚ} {comparator : Comparator} {formula : FormulaNode}
    (hformula : formula.WellFormed) :
    (∃ value, meetsThreshold context left comparator
        (fun context => formula.evaluate math context) = .ok value) ↔
      formula.allRefs hasStaticLookup 0 = true := by
  rw [meetsThreshold, Outcome.exists_bind_ok, ← resolves_static context,
    ← @FormulaNode.exists_evaluate_iff math _ 0 rfl formula hformula]
  exact exists_congr fun target => and_iff_left ⟨_, rfl⟩

mutual

/-- **A condition returns** if and only if no threshold that the evaluation comes to lacks a
lookup. -/
theorem exists_evaluateCondition_iff : ∀ {depth : ℕ} {condition : ConditionNode},
    condition.WellFormed →
      ((∃ value, evaluateCondition context depth (condition.toCondition math) = .ok value) ↔
        condition.Evaluable math context depth)
  | _, .resourceThreshold _ _ amount, hformed => by
    rw [toCondition, evaluateCondition, exists_unlessTooDeep_iff,
      exists_meetsThreshold_iff hformed.wellFormed, Evaluable]
  | _, .generatorLevel _ _ level, hformed => by
    rw [toCondition, evaluateCondition, exists_unlessTooDeep_iff,
      exists_meetsThreshold_iff hformed.wellFormed, Evaluable]
  | _, .allOf conditions, hformed => by
    rw [toCondition, evaluateCondition, exists_unlessTooDeep_iff,
      exists_evaluateEvery_iff hformed.2, Evaluable]
  | _, .anyOf conditions, hformed => by
    rw [toCondition, evaluateCondition, exists_unlessTooDeep_iff,
      exists_evaluateSome_iff hformed.2, Evaluable]
  | _, .not condition, hformed => by
    have hinner : condition.WellFormed := hformed
    rw [toCondition, evaluateCondition, exists_unlessTooDeep_iff, Outcome.exists_map_ok,
      exists_evaluateCondition_iff hinner, Evaluable]
  | _, .always, _ => iff_of_true (exists_unlessTooDeep_iff.mpr (.inr ⟨_, rfl⟩)) trivial
  | _, .never, _ => iff_of_true (exists_unlessTooDeep_iff.mpr (.inr ⟨_, rfl⟩)) trivial
  | _, .upgradeOwned _ _, _ =>
      iff_of_true (exists_unlessTooDeep_iff.mpr (.inr ⟨_, rfl⟩)) trivial
  | _, .prestigeCountThreshold _ _ _, _ =>
      iff_of_true (exists_unlessTooDeep_iff.mpr (.inr ⟨_, rfl⟩)) trivial
  | _, .prestigeCompleted _, _ =>
      iff_of_true (exists_unlessTooDeep_iff.mpr (.inr ⟨_, rfl⟩)) trivial
  | _, .prestigeUnlocked _, _ =>
      iff_of_true (exists_unlessTooDeep_iff.mpr (.inr ⟨_, rfl⟩)) trivial
  | _, .flag _, _ => iff_of_true (exists_unlessTooDeep_iff.mpr (.inr ⟨_, rfl⟩)) trivial
  | _, .script _, _ => iff_of_true (exists_unlessTooDeep_iff.mpr (.inr ⟨_, rfl⟩)) trivial

theorem exists_evaluateEvery_iff : ∀ {depth : ℕ} {conditions : List ConditionNode},
    WellFormedEach conditions →
      ((∃ value, evaluateEvery context depth (toConditions math conditions) = .ok value) ↔
        EvaluableEvery math context depth conditions)
  | _, [], _ => iff_of_true ⟨true, rfl⟩ trivial
  | depth, condition :: conditions, hformed => by
    rw [toConditions, evaluateEvery, Outcome.exists_bind_ok, EvaluableEvery,
      ← exists_evaluateCondition_iff hformed.1, ← exists_evaluateEvery_iff hformed.2, holdsHere]
    constructor
    · rintro ⟨holds, hholds, hrest⟩
      refine ⟨⟨holds, hholds⟩, fun hhere => ?_⟩
      rw [← evaluateCondition_eq_ok _ false hholds] at hhere
      rwa [if_pos hhere] at hrest
    · rintro ⟨⟨holds, hholds⟩, hrest⟩
      refine ⟨holds, hholds, ?_⟩
      rw [← evaluateCondition_eq_ok _ false hholds] at hrest
      split
      · next hhere => exact hrest hhere
      · exact ⟨false, rfl⟩

theorem exists_evaluateSome_iff : ∀ {depth : ℕ} {conditions : List ConditionNode},
    WellFormedEach conditions →
      ((∃ value, evaluateSome context depth (toConditions math conditions) = .ok value) ↔
        EvaluableSome math context depth conditions)
  | _, [], _ => iff_of_true ⟨false, rfl⟩ trivial
  | depth, condition :: conditions, hformed => by
    rw [toConditions, evaluateSome, Outcome.exists_bind_ok, EvaluableSome,
      ← exists_evaluateCondition_iff hformed.1, ← exists_evaluateSome_iff hformed.2, holdsHere]
    constructor
    · rintro ⟨holds, hholds, hrest⟩
      refine ⟨⟨holds, hholds⟩, fun hhere => ?_⟩
      rw [← evaluateCondition_eq_ok _ false hholds] at hhere
      rwa [if_neg hhere] at hrest
    · rintro ⟨⟨holds, hholds⟩, hrest⟩
      refine ⟨holds, hholds, ?_⟩
      rw [← evaluateCondition_eq_ok _ false hholds] at hrest
      split
      · exact ⟨true, rfl⟩
      · next hhere => exact hrest hhere

end

end ConditionNode

open ConditionNode

/-- **When evaluation is total.** Evaluating a condition that the schema accepts returns, in any
context, if and only if no threshold that the evaluation comes to refers to an automation or a
prestige layer in what level 0 leaves of its formula. -/
theorem evaluateCondition_returns_iff (math : FormulaMath) (context : ConditionContext)
    {condition : ConditionNode} (h : condition.Accepted) :
    (∃ value, evaluateCondition context 0 (condition.toCondition math) = .ok value) ↔
      condition.Evaluable math context 0 :=
  exists_evaluateCondition_iff h.wellFormed

/-- The formula whose value is the level of an automation. -/
def automationLevel : FormulaNode := .expression (.ref (.entity .automation "auto-miner"))

theorem automationLevel_accepted : automationLevel.Accepted :=
  ⟨⟨trivial, by decide, by decide⟩, by decide, by decide⟩

/-- Two thresholds, of which the second has a reference to an automation. -/
def eitherThreshold : ConditionNode :=
  .anyOf [.resourceThreshold "ore" .gte (.exponential 0 2 none),
    .resourceThreshold "ore" .gte automationLevel]

theorem eitherThreshold_accepted : eitherThreshold.Accepted :=
  ⟨⟨List.cons_ne_nil _ _, ⟨trivial, by decide, by decide⟩, automationLevel_accepted,
    trivial⟩, by decide, by decide⟩

/-- The second threshold is not come to where the first one is met. -/
theorem evaluateCondition_returns_iff_either :
    ∃ value, evaluateCondition (emptyContext 16) 0 (eitherThreshold.toCondition naturalPowers) =
      .ok value := by
  refine (evaluateCondition_returns_iff naturalPowers _ eitherThreshold_accepted).mpr
    (.inr ⟨.inr rfl, fun hnot => absurd ?_ hnot⟩)
  have hmet : evaluateCondition (emptyContext 16) 1 ((ConditionNode.resourceThreshold "ore" .gte
      (.exponential 0 2 none)).toCondition naturalPowers) = .ok true := by decide +kernel
  exact (evaluateCondition_eq_ok _ false hmet).mp rfl

/-- **A threshold that throws.** The schema accepts the level of an automation as a threshold; the
context of thresholds has no lookup for automations. -/
theorem automation_threshold_throws :
    (ConditionNode.resourceThreshold "ore" .gte automationLevel).Accepted ∧
      evaluateCondition (emptyContext 16) 0
        ((ConditionNode.resourceThreshold "ore" .gte automationLevel).toCondition naturalPowers) =
      .error "Missing entity lookup for type \"automation\" while resolving \"auto-miner\"." :=
  ⟨⟨automationLevel_accepted, by decide, by decide⟩, by rfl⟩

end IdleEngine
