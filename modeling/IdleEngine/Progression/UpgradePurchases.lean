import IdleEngine.Progression.BulkPurchase
import IdleEngine.Progression.Changes

/-!
# Purchases with a host that may throw

What `ContentUpgradeEvaluator` asks for an upgrade, and the command handlers of purchases, with
the host's error handler in the model: whatever the evaluation of upgrade effects reports to the
handler may make it throw. An error of a cost is reported too, but it ends the quote at once either
way and leaves no trace, so these reports are left out; so are events and telemetry.

An upgrade's purchase is counted first and its effects are evaluated then; when that throws, the
command handler gives the costs back.
-/

namespace IdleEngine

open Stateful

variable {sh : ContentShape} {n : ℕ}

/-- What an upgrade costs: its costs, and the curve of a repeatable one. -/
structure UpgradeCost where
  costs : PurchaseCosts
  costCurve : Option NumericFormula

/-- The options of a coordinator, with what purchases cost and with the host's error handler, which
may throw on a message. -/
structure UpgradePurchaseOptions (sh : ContentShape) extends PurchaseOptions sh where
  upgradeCost : Fin sh.upgrades → UpgradeCost
  onError : String → Except String Unit

/-! ### The effects of upgrades, reported -/

/-- A number that is not finite, in a message. -/
def nonFiniteText : JsNumber → String
  | .nan => "NaN"
  | .negInf => "-Infinity"
  | _ => "Infinity"

/-- `evaluateFiniteNumericFormula` with the host's handler. A report of an invalid value lies
within the `try`, so that a handler that throws on it is asked again. -/
def evaluateFormulaOrThrow (onError : String → Except String Unit) (what : String)
    (formula : NumericFormula) (context : FormulaContext) : Except String (Option ℚ) :=
  let failed (message : String) : Except String (Option ℚ) :=
    (onError (what ++ " failed: " ++ message)).map fun _ => none
  match formula context with
  | .error message => failed message
  | .ok value =>
      match value.finite? with
      | some value => .ok (some value)
      | none =>
          match onError (what ++ " returned invalid value: " ++ nonFiniteText value) with
          | .ok _ => .ok none
          | .error message => failed message

/-- The kind of an effect. -/
def UpgradeEffect.kind : UpgradeEffect sh → String
  | .modifyGeneratorRate .. => "modifyGeneratorRate"
  | .modifyGeneratorCost .. => "modifyGeneratorCost"
  | .modifyGeneratorConsumption .. => "modifyGeneratorConsumption"
  | .modifyResourceRate .. => "modifyResourceRate"
  | .modifyResourceCapacity .. => "modifyResourceCapacity"
  | .alterDirtyTolerance .. => "alterDirtyTolerance"
  | .unlockResource _ => "unlockResource"
  | .unlockGenerator _ => "unlockGenerator"
  | .grantAutomation _ => "grantAutomation"
  | .grantFlag .. => "grantFlag"

/-- The formula of an effect that has a value. -/
def UpgradeEffect.value? : UpgradeEffect sh → Option NumericFormula
  | .modifyGeneratorRate _ _ value | .modifyGeneratorCost _ _ value
  | .modifyGeneratorConsumption _ _ _ value | .modifyResourceRate _ _ value
  | .modifyResourceCapacity _ _ value | .alterDirtyTolerance _ _ value => some value
  | .unlockResource _ | .unlockGenerator _ | .grantAutomation _ | .grantFlag _ _ => none

section Reported

variable (onError : String → Except String Unit) (options : ProgressionOptions sh)

/-- What `applyCapacityOverride` reports of an effective value that it does not use. -/
def reportCapacity (upgradeId : String) (output : UpgradeEffects sh) (effect : UpgradeEffect sh)
    (effective : ℚ) : Except String Unit :=
  match effect with
  | .modifyResourceCapacity resource operation _ =>
      let what := "Resource capacity modifier for \"" ++ upgradeId ++ "\""
      let current : WithTop ℚ :=
        ((output.resourceCapacityOverrides.get? resource).map Subtype.val).getD
          (options.baseCapacity resource)
      if operation = .multiply ∧ effective < 0 then
        onError (what ++ " cannot use a negative multiplier.")
      else if applyCapacityOperation current operation effective < 0 then
        onError (what ++ " cannot resolve to a negative capacity.")
      else .ok ()
  | _ => .ok ()

/-- `applyUpgradeEffectValue` with the host's handler. -/
def applyEffectOrThrow (upgradeId : String) (context : FormulaContext) (effectCurveMultiplier : ℚ)
    (output : UpgradeEffects sh) (effect : UpgradeEffect sh) :
    Except String (UpgradeEffects sh) :=
  match effect.value? with
  | none => .ok output
  | some value => do
      let raw ← evaluateFormulaOrThrow onError
        ("Upgrade effect evaluation for \"" ++ upgradeId ++ "\" (" ++ effect.kind ++ ")") value
        context
      match raw with
      | none => .ok output
      | some raw => do
          reportCapacity onError options upgradeId output effect (raw * effectCurveMultiplier)
          .ok (applyUpgradeEffectValue options context effectCurveMultiplier output effect)

/-- `resolveEffectCurveMultiplier` with the host's handler. -/
def resolveEffectCurveOrThrow (upgradeId : String) (effectCurve : Option NumericFormula)
    (context : FormulaContext) : Except String (Option ℚ) :=
  match effectCurve with
  | none => .ok (some 1)
  | some effectCurve =>
      evaluateFormulaOrThrow onError ("Upgrade effect curve evaluation for \"" ++ upgradeId ++ "\"")
        effectCurve context

/-- `applyUpgradeApplication` with the host's handler. -/
def applyApplicationOrThrow (inputs : FormulaInputs sh) (step : ℕ) (upgrade : UpgradeContent sh)
    (output : UpgradeEffects sh) (level : ℕ) : Except String (UpgradeEffects sh) := do
  let context := createFormulaEvaluationContext options inputs level step
  let effectCurveMultiplier ←
    resolveEffectCurveOrThrow onError upgrade.id (upgrade.repeatable.bind (·.effectCurve)) context
  match effectCurveMultiplier with
  | none => .ok output
  | some effectCurveMultiplier =>
      upgrade.effects.foldlM
        (applyEffectOrThrow onError options upgrade.id context effectCurveMultiplier) output

/-- The effects of one upgrade, with the host's handler: the body of the loop of
`evaluateUpgradeEffects`. -/
def applyRecordOrThrow (inputs : FormulaInputs sh) (step : ℕ) (output : UpgradeEffects sh)
    (upgrade : Fin sh.upgrades) : Except String (UpgradeEffects sh) :=
  if inputs.purchases upgrade = 0 then .ok output
  else
    let definition := options.content.upgrades upgrade
    (applicationLevels definition (inputs.purchases upgrade)).foldlM
      (applyApplicationOrThrow onError options inputs step definition)
      (definition.effects.foldl collectUnlockedEffect output)

/-- `evaluateUpgradeEffects` with the host's handler. -/
def evaluateEffectsOrThrow (inputs : FormulaInputs sh) (step : ℕ) :
    Except String (UpgradeEffects sh) :=
  (List.finRange sh.upgrades).foldlM (applyRecordOrThrow onError options inputs step) .none

end Reported

/-! ### The coordinator -/

variable (options : UpgradePurchaseOptions sh)

/-- `getUpgradeEffects` of the facade: cached effects are applied again, others are evaluated
first. -/
def getEffectsOrThrow (step : ℕ) : ProgressionM sh (UpgradeEffects sh) := fun c =>
  if c.upgradeEffectsCache.any fun cache => cache.1 = step then
    .ok (c.getUpgradeEffects options.toProgressionOptions step).1
      (c.getUpgradeEffects options.toProgressionOptions step).2
  else
    match evaluateEffectsOrThrow options.onError options.toProgressionOptions c.inputs step with
    | .error message => .error message c
    | .ok effects => .ok effects (c.applyUpgradeEffects options.toProgressionOptions step effects)

/-- `incrementUpgradePurchases`: the purchase is counted, then the effects are evaluated. -/
def incrementPurchasesOrThrow (i : Fin sh.upgrades) : ProgressionM sh Unit := do
  modify fun c => c.purchased i
    (Coordinator.capPurchases options.toProgressionOptions i ((c.upgrades i).purchases + 1))
  let c ← get
  let _ ← getEffectsOrThrow options c.lastUpdatedStep
  pure ()

/-! ### Quotes of generators -/

/-- `computeGeneratorCosts`. -/
def computeGeneratorCostsOrThrow (i : Fin sh.generators) (purchaseIndex : ℕ) :
    ProgressionM sh (Option (List GeneratorResourceCost)) := do
  let c ← get
  match (options.purchase i).costs with
  | .currency cost =>
      match cost.multiplier?,
          c.evaluateCostFormula options.toPurchaseOptions i purchaseIndex cost.costCurve with
      | some costMultiplier, some evaluatedCost => do
          let effects ← getEffectsOrThrow options c.lastUpdatedStep
          pure ((finalCost evaluatedCost costMultiplier (effects.generatorCostMultipliers i)).map
            fun amount => [{ resourceId := cost.resourceId, amount }])
      | _, _ => pure none
  | .costs costs => do
      let effects ← getEffectsOrThrow options c.lastUpdatedStep
      let c ← get
      pure (costs.mapM (c.computeListedCost options.toPurchaseOptions i purchaseIndex
        (effects.generatorCostMultipliers i)))

/-- The totals with the costs of one level more, which must have some. -/
def addLevelCosts (totals : OrderedMap String ℚ) (costs : Option (List GeneratorResourceCost)) :
    Option (OrderedMap String ℚ) :=
  (costs.filter fun costs => !costs.isEmpty).bind fun costs => costs.foldlM addCost totals

/-- The loop of `computeBulkPurchaseCosts`. -/
def computeBulkCostsOrThrow (i : Fin sh.generators) :
    ℕ → ℕ → OrderedMap String ℚ → ProgressionM sh (Option (OrderedMap String ℚ))
  | 0, _, totals => pure (some totals)
  | count + 1, purchaseLevel, totals =>
      if (options.content.generators i).maxLevel.any fun maxLevel => maxLevel ≤ purchaseLevel then
        pure none
      else do
        let costs ← computeGeneratorCostsOrThrow options i purchaseLevel
        match addLevelCosts totals costs with
        | none => pure none
        | some totals => computeBulkCostsOrThrow i count (purchaseLevel + 1) totals

/-- `getPurchaseQuote` of a generator. -/
def quoteGenerator (generatorId : String) (count : JsNumber) :
    ProgressionM sh (Option (List GeneratorResourceCost)) := do
  let c ← get
  match c.getPurchasableRecord options.toPurchaseOptions generatorId count with
  | none => pure none
  | some (i, count) => do
      let totals ←
        computeBulkCostsOrThrow options i count (c.generators i).owned OrderedMap.empty
      pure (totals.map fun totals =>
        totals.entries.map fun entry => { resourceId := entry.1, amount := entry.2 })

/-! ### Quotes of upgrades -/

/-- `UpgradePurchaseQuote`. -/
structure UpgradePurchaseQuote where
  status : UpgradeStatus
  costs : List GeneratorResourceCost

namespace Coordinator

variable (c : Coordinator sh) (i : Fin sh.upgrades)

/-- A cost curve of an upgrade, at the level of its purchases. -/
def evaluateUpgradeCost (costCurve : NumericFormula) : Option ℚ :=
  (evaluateFiniteNumericFormula costCurve (c.formulaContext options.toProgressionOptions
    (c.upgrades i).purchases c.lastUpdatedStep)).filter fun evaluated => decide (0 ≤ evaluated)

/-- `evaluateCostEntry`. -/
def evaluateCostEntry (repeatableAdjustment : ℚ) (cost : GeneratorCost) :
    Option GeneratorResourceCost := do
  let costMultiplier ← cost.multiplier?
  let evaluatedCost ← c.evaluateUpgradeCost options i cost.costCurve
  let amount ← finalCost evaluatedCost costMultiplier repeatableAdjustment
  return { resourceId := cost.resourceId, amount }

/-- The `repeatableAdjustment` of the costs. -/
def repeatableAdjustment? : Option ℚ :=
  match (options.upgradeCost i).costCurve with
  | some repeatableCostCurve => c.evaluateUpgradeCost options i repeatableCostCurve
  | none => some 1

/-- `computeUpgradeCostsAtStep`. -/
def computeUpgradeCosts : Option (List GeneratorResourceCost) := do
  let repeatableAdjustment ← c.repeatableAdjustment? options i
  (options.upgradeCost i).costs.toList.mapM (c.evaluateCostEntry options i repeatableAdjustment)

end Coordinator

/-- `getPurchaseQuote` of an upgrade. -/
def quoteUpgrade (upgradeId : String) : ProgressionM sh (Option UpgradePurchaseQuote) :=
  match indexOfId (fun i => (options.content.upgrades i).id) upgradeId with
  | none => pure none
  | some i => do
      let status ← resolveUpgradeStatus options.toProgressionOptions i
      let c ← get
      let costs := c.computeUpgradeCosts options i
      if status = .locked then pure (some { status, costs := costs.getD [] })
      else if reachedMaximum (c.upgrades i).purchases
          (options.content.upgrades i).maxPurchases then
        pure (some { status := .purchased, costs := [] })
      else pure (costs.map fun costs => { status, costs })

/-! ### Paying -/

/-- The failures of paying a cost, which the handlers of generators and upgrades word differently. -/
structure PaymentFailures where
  invalid : GeneratorResourceCost → PurchaseFailure
  insufficient : GeneratorResourceCost → PurchaseFailure

/-- The loop over the costs of a purchase: the costs that are left, after some are paid. The handler
of upgrades passes over a cost of nothing before it looks for its resource. -/
def spendPurchaseCosts (failures : PaymentFailures) (zeroFirst : Bool) :
    List GeneratorResourceCost → List (ResourceSpend n) → ResourceState n →
      PurchaseResult n × ResourceState n
  | [], spends, s => (.success spends, s)
  | cost :: costs, spends, s =>
      if cost.amount < 0 then (.failure (failures.invalid cost), s.refund spends)
      else if zeroFirst ∧ cost.amount = 0 then
        spendPurchaseCosts failures zeroFirst costs spends s
      else
        match s.requireIndex cost.resourceId with
        | .error message => (.threw message, s.refund spends)
        | .ok index =>
            if cost.amount = 0 then spendPurchaseCosts failures zeroFirst costs spends s
            else
              match s.spendAmount index (.fin cost.amount) with
              | .error message => (.threw message, s)
              | .ok (false, s) => (.failure (failures.insufficient cost), s.refund spends)
              | .ok (true, s) =>
                  spendPurchaseCosts failures zeroFirst costs
                    (spends ++ [{ index, amount := cost.amount }]) s

/-- The failures of the handler of generators. -/
def PurchaseGeneratorPayload.failures (payload : PurchaseGeneratorPayload) : PaymentFailures :=
  { invalid := fun cost => payload.invalidQuote "cost-invalid"
      [("resourceId", .string cost.resourceId), ("amount", .number (.fin cost.amount))]
    insufficient := payload.insufficientResources }

/-- `spendGeneratorPurchaseCostsOrFail` is the loop with the failures of generators. -/
theorem spendGeneratorPurchaseCostsOrFail_eq (payload : PurchaseGeneratorPayload)
    (costs : List GeneratorResourceCost) (spends : List (ResourceSpend n)) (s : ResourceState n) :
    spendGeneratorPurchaseCostsOrFail payload costs spends s =
      spendPurchaseCosts payload.failures false costs spends s := by
  induction costs generalizing spends s with
  | nil => rfl
  | cons cost costs ih =>
    rw [spendGeneratorPurchaseCostsOrFail, spendPurchaseCosts]
    simp only [Bool.false_eq_true, false_and, if_false, ih]
    rfl

/-- The details of an error of the handler of upgrades. -/
def upgradeDetails (upgradeId : String) (more : List (String × JsValue)) : JsValue :=
  .object .plain (("upgradeId", .string upgradeId) :: more)

/-- The failures of `spendUpgradePurchaseCostsOrFail`. -/
def upgradeFailures (upgradeId : String) : PaymentFailures :=
  { invalid := fun cost =>
      { code := "INVALID_PURCHASE_QUOTE", message := "Upgrade purchase quote is invalid."
        details := upgradeDetails upgradeId
          [("reason", .string "cost-invalid"), ("resourceId", .string cost.resourceId),
            ("amount", .number (.fin cost.amount))] }
    insufficient := fun cost =>
      { code := "INSUFFICIENT_RESOURCES", message := "Insufficient resources."
        details := upgradeDetails upgradeId
          [("resourceId", .string cost.resourceId), ("required", .number (.fin cost.amount))] } }

/-- `spendUpgradePurchaseCostsOrFail`. -/
def spendUpgradePurchaseCostsOrFail (upgradeId : String) (costs : List GeneratorResourceCost)
    (s : ResourceState n) : PurchaseResult n × ResourceState n :=
  spendPurchaseCosts (upgradeFailures upgradeId) true costs [] s

/-! ### The handlers -/

/-- The end of both handlers: the purchase is applied to what is left when the costs are paid, and
when that throws, the costs are given back. -/
def applyPaid (paid : PurchaseResult sh.resources × ResourceState sh.resources)
    (apply : ProgressionM sh Unit) (c : Coordinator sh) :
    PurchaseResult sh.resources × Coordinator sh :=
  let c := { c with resources := paid.2 }
  match paid.1 with
  | .success spends =>
      match apply c with
      | .ok _ c => (.success spends, c)
      | .error message c => (.threw message, { c with resources := c.resources.refund spends })
  | result => (result, c)

namespace Coordinator

variable (c : Coordinator sh)

/-- The handler of `PURCHASE_GENERATOR`. -/
def handlePurchaseGenerator (payload : PurchaseGeneratorPayload) :
    PurchaseResult sh.resources × Coordinator sh :=
  if (purchaseCount? payload.count).isNone then (.failure payload.invalidCount, c)
  else
    match quoteGenerator options payload.generatorId payload.count c with
    | .error message c => (.threw message, c)
    | .ok none c => (.failure payload.unknownGenerator, c)
    | .ok (some []) c => (.failure (payload.invalidQuote "costs-empty" []), c)
    | .ok (some (cost :: costs)) c =>
        applyPaid (spendGeneratorPurchaseCostsOrFail payload (cost :: costs) [] c.resources)
          (modify (·.applyPurchase options.toPurchaseOptions payload.generatorId payload.count)) c

/-- `applyPurchase` of an upgrade, without the events of its effects. -/
def applyUpgradePurchase (upgradeId : String) : ProgressionM sh Unit :=
  match indexOfId (fun i => (options.content.upgrades i).id) upgradeId with
  | some i => incrementPurchasesOrThrow options i
  | none => pure ()

/-- The handler of `PURCHASE_UPGRADE`: `createPurchaseUpgradeHandler`. -/
def handlePurchaseUpgrade (payload : String) : PurchaseResult sh.resources × Coordinator sh :=
  if isNonBlankString payload then
    let upgradeId := trim payload
    match quoteUpgrade options upgradeId c with
    | .error message c => (.threw message, c)
    | .ok none c =>
        (.failure { code := "UNKNOWN_UPGRADE", message := "Upgrade not found."
                    details := upgradeDetails upgradeId [] }, c)
    | .ok (some quote) c =>
        match quote.status with
        | .purchased =>
            (.failure { code := "UPGRADE_ALREADY_OWNED", message := "Upgrade already owned."
                        details := upgradeDetails upgradeId [] }, c)
        | .locked =>
            (.failure { code := "UPGRADE_LOCKED", message := "Upgrade is locked."
                        details := upgradeDetails upgradeId [] }, c)
        | .available =>
            applyPaid (spendUpgradePurchaseCostsOrFail upgradeId quote.costs c.resources)
              (applyUpgradePurchase options upgradeId) c
  else
    (.failure { code := "INVALID_UPGRADE_ID", message := "Upgrade id must be a non-empty string."
                details := .undefined }, c)

end Coordinator

end IdleEngine
