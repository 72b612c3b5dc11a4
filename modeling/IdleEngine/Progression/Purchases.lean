import IdleEngine.Progression.Coordinator

/-!
# Purchases of generators

What `ContentGeneratorEvaluator` asks for a purchase and what the command handler of
`PURCHASE_GENERATOR` does with the quote. A quote adds the costs of the levels one after another,
per resource; the handler then spends them in the order in which the quote lists them, and gives
back what it has spent when one of them cannot be paid.

Quoting applies the effects of upgrades to the store, so it returns the coordinator beside the
quote. Telemetry, and the context under which spending is recorded, are left out.
-/

namespace IdleEngine

variable {sh : ContentShape} {n : ℕ}

/-- One cost of a purchase. -/
structure GeneratorCost where
  resourceId : String
  costMultiplier : JsNumber
  costCurve : NumericFormula

/-- The costs of a purchase: one in a currency, or a list. -/
inductive PurchaseCosts
  | currency (cost : GeneratorCost)
  | costs (costs : List GeneratorCost)

/-- The `purchase` of a generator. -/
structure GeneratorPurchase where
  costs : PurchaseCosts
  maxBulk : Option ℕ

/-- The options of a coordinator, with what the purchases of generators cost. -/
structure PurchaseOptions (sh : ContentShape) extends ProgressionOptions sh where
  purchase : Fin sh.generators → GeneratorPurchase

/-- `GeneratorResourceCost`. -/
structure GeneratorResourceCost where
  resourceId : String
  amount : ℚ

/-- The cost multiplier, when it is finite and not negative. -/
def GeneratorCost.multiplier? (cost : GeneratorCost) : Option ℚ :=
  cost.costMultiplier.finite?.filter fun costMultiplier => decide (0 ≤ costMultiplier)

/-- The count of a purchase, when it is a positive integer: `isPositiveInteger`. -/
def purchaseCount? : JsNumber → Option ℕ
  | .fin count => if count.den = 1 ∧ 0 < count then some count.num.toNat else none
  | _ => none

/-- The final cost of a level, which must not be negative. -/
def finalCost (evaluatedCost costMultiplier multiplier : ℚ) : Option ℚ :=
  let cost := evaluatedCost * costMultiplier * multiplier
  if cost < 0 then none else some cost

/-! ### Quotes -/

namespace Coordinator

variable (options : PurchaseOptions sh) (c : Coordinator sh) (i : Fin sh.generators)

/-- The context of a cost curve: the index of the purchase is the level, also as the level of the
generator itself. -/
def costContext (purchaseIndex : ℕ) : FormulaContext :=
  let context := c.formulaContext options.toProgressionOptions purchaseIndex c.lastUpdatedStep
  { context with
    generator := fun id =>
      if id = (options.content.generators i).id then some (purchaseIndex : ℚ)
      else context.generator id }

/-- `evaluateCostFormula`, of a curve whose value is not negative. -/
def evaluateCostFormula (purchaseIndex : ℕ) (costCurve : NumericFormula) : Option ℚ :=
  (evaluateFiniteNumericFormula costCurve (c.costContext options i purchaseIndex)).filter
    fun evaluatedCost => decide (0 ≤ evaluatedCost)

/-- `computeGeneratorCost`: upgrades are asked for only after the curve has a value. -/
def computeGeneratorCost (purchaseIndex : ℕ) (cost : GeneratorCost) :
    Option ℚ × Coordinator sh :=
  match cost.multiplier?, c.evaluateCostFormula options i purchaseIndex cost.costCurve with
  | some costMultiplier, some evaluatedCost =>
      let effects := c.getUpgradeEffects options.toProgressionOptions c.lastUpdatedStep
      (finalCost evaluatedCost costMultiplier (effects.1.generatorCostMultipliers i), effects.2)
  | _, _ => (none, c)

/-- One cost of a list, under the multiplier of the upgrades. -/
def computeListedCost (purchaseIndex : ℕ) (multiplier : ℚ) (cost : GeneratorCost) :
    Option GeneratorResourceCost := do
  let costMultiplier ← cost.multiplier?
  let evaluatedCost ← c.evaluateCostFormula options i purchaseIndex cost.costCurve
  let amount ← finalCost evaluatedCost costMultiplier multiplier
  return { resourceId := cost.resourceId, amount }

/-- `computeGeneratorCosts`. -/
def computeGeneratorCosts (purchaseIndex : ℕ) :
    Option (List GeneratorResourceCost) × Coordinator sh :=
  match (options.purchase i).costs with
  | .currency cost =>
      let priced := c.computeGeneratorCost options i purchaseIndex cost
      (priced.1.map fun amount => [{ resourceId := cost.resourceId, amount }], priced.2)
  | .costs costs =>
      let effects := c.getUpgradeEffects options.toProgressionOptions c.lastUpdatedStep
      (costs.mapM (effects.2.computeListedCost options i purchaseIndex
        (effects.1.generatorCostMultipliers i)), effects.2)

end Coordinator

/-- Add a cost to the totals of the resources. -/
def addCost (totals : OrderedMap String ℚ) (cost : GeneratorResourceCost) :
    Option (OrderedMap String ℚ) :=
  let updated := (totals.get? cost.resourceId).getD 0 + cost.amount
  if updated < 0 then none else some (totals.set cost.resourceId updated)

namespace Coordinator

variable (options : PurchaseOptions sh) (i : Fin sh.generators)

/-- The loop of `computeBulkPurchaseCosts`: so many levels more, from a level on. -/
def computeBulkPurchaseCosts : ℕ → ℕ → OrderedMap String ℚ → Coordinator sh →
    Option (OrderedMap String ℚ) × Coordinator sh
  | 0, _, totals, c => (some totals, c)
  | count + 1, purchaseLevel, totals, c =>
      if (options.content.generators i).maxLevel.any fun maxLevel => maxLevel ≤ purchaseLevel then
        (none, c)
      else
        let costs := c.computeGeneratorCosts options i purchaseLevel
        match costs.1 with
        | none | some [] => (none, costs.2)
        | some (cost :: rest) =>
            match (cost :: rest).foldlM addCost totals with
            | none => (none, costs.2)
            | some totals => computeBulkPurchaseCosts count (purchaseLevel + 1) totals costs.2

variable (c : Coordinator sh)

/-- The checks of `getPurchasableRecord` on a generator. -/
def isPurchasable (count : ℕ) : Bool :=
  (c.generators i).isUnlocked && (c.generators i).isVisible &&
    ((options.purchase i).maxBulk.all fun maxBulk => count ≤ maxBulk) &&
    ((options.content.generators i).maxLevel.all fun maxLevel => (c.generators i).owned < maxLevel)

/-- `getPurchasableRecord`, with the count. -/
def getPurchasableRecord (generatorId : String) (count : JsNumber) :
    Option (Fin sh.generators × ℕ) := do
  let count ← purchaseCount? count
  let i ← indexOfId (fun i => (options.content.generators i).id) generatorId
  if c.isPurchasable options i count then return (i, count) else none

/-- `getPurchaseQuote`: the costs, and the coordinator after they were computed. -/
def getPurchaseQuote (generatorId : String) (count : JsNumber) :
    Option (List GeneratorResourceCost) × Coordinator sh :=
  match c.getPurchasableRecord options generatorId count with
  | none => (none, c)
  | some (i, count) =>
      let totals :=
        computeBulkPurchaseCosts options i count (c.generators i).owned OrderedMap.empty c
      (totals.1.map fun totals =>
        totals.entries.map fun entry => { resourceId := entry.1, amount := entry.2 }, totals.2)

/-- `applyPurchase`. -/
def applyPurchase (generatorId : String) (count : JsNumber) : Coordinator sh :=
  match purchaseCount? count, indexOfId (fun i => (options.content.generators i).id) generatorId with
  | some count, some i => c.incrementGeneratorOwned options.toProgressionOptions i count
  | _, _ => c

end Coordinator

/-! ### The handler -/

/-- `PurchaseGeneratorPayload`. -/
structure PurchaseGeneratorPayload where
  generatorId : String
  count : JsNumber

/-- The error of a `CommandResultFailure`. -/
structure PurchaseFailure where
  code : String
  message : String
  details : JsValue

namespace PurchaseGeneratorPayload

variable (payload : PurchaseGeneratorPayload)

/-- The details of an error: the purchase, then what else is known. -/
def details (more : List (String × JsValue)) : JsValue :=
  .object .plain
    ([("generatorId", .string payload.generatorId), ("count", .number payload.count)] ++ more)

def invalidCount : PurchaseFailure :=
  { code := "INVALID_PURCHASE_COUNT", message := "Purchase count must be a positive integer."
    details := payload.details [] }

def unknownGenerator : PurchaseFailure :=
  { code := "UNKNOWN_GENERATOR", message := "Generator not found.", details := payload.details [] }

def invalidQuote (reason : String) (more : List (String × JsValue)) : PurchaseFailure :=
  { code := "INVALID_PURCHASE_QUOTE", message := "Generator purchase quote is invalid."
    details := payload.details (("reason", .string reason) :: more) }

def insufficientResources (cost : GeneratorResourceCost) : PurchaseFailure :=
  { code := "INSUFFICIENT_RESOURCES", message := "Insufficient resources."
    details := .object .plain
      [("generatorId", .string payload.generatorId), ("resourceId", .string cost.resourceId),
        ("required", .number (.fin cost.amount)), ("count", .number payload.count)] }

end PurchaseGeneratorPayload

/-- An entry of `successfulSpends`. -/
structure ResourceSpend (n : ℕ) where
  index : Fin n
  amount : ℚ

/-- How a purchase ends. A success says what was spent. -/
inductive PurchaseResult (n : ℕ)
  | success (spends : List (ResourceSpend n))
  | failure (error : PurchaseFailure)
  | threw (message : String)

namespace ResourceState

variable (s : ResourceState n)

/-- `requireIndex`. -/
def requireIndex (id : String) : Except String (Fin n) :=
  match indexOfId s.ids id with
  | some i => .ok i
  | none => .error ("Resource with id \"" ++ id ++ "\" does not exist.")

/-- `refund`: the last amount spent is given back first. -/
def refund (spends : List (ResourceSpend n)) : ResourceState n :=
  spends.reverse.foldl (fun s spend => s.after (s.addAmount spend.index (.fin spend.amount))) s

end ResourceState

/-- `spendGeneratorPurchaseCostsOrFail`: the costs that are left, after some are paid. -/
def spendGeneratorPurchaseCostsOrFail (payload : PurchaseGeneratorPayload) :
    List GeneratorResourceCost → List (ResourceSpend n) → ResourceState n →
      PurchaseResult n × ResourceState n
  | [], spends, s => (.success spends, s)
  | cost :: costs, spends, s =>
      if cost.amount < 0 then
        (.failure (payload.invalidQuote "cost-invalid"
          [("resourceId", .string cost.resourceId), ("amount", .number (.fin cost.amount))]),
          s.refund spends)
      else
        match s.requireIndex cost.resourceId with
        | .error message => (.threw message, s.refund spends)
        | .ok index =>
            if cost.amount = 0 then spendGeneratorPurchaseCostsOrFail payload costs spends s
            else
              match s.spendAmount index (.fin cost.amount) with
              | .error message => (.threw message, s)
              | .ok (false, s) => (.failure (payload.insufficientResources cost), s.refund spends)
              | .ok (true, s) =>
                  spendGeneratorPurchaseCostsOrFail payload costs
                    (spends ++ [{ index, amount := cost.amount }]) s

namespace Coordinator

variable (options : PurchaseOptions sh) (c : Coordinator sh)

/-- The handler from the quote on. -/
def payGeneratorPurchase (payload : PurchaseGeneratorPayload) (costs : List GeneratorResourceCost) :
    PurchaseResult sh.resources × Coordinator sh :=
  let paid := spendGeneratorPurchaseCostsOrFail payload costs [] c.resources
  let c := { c with resources := paid.2 }
  match paid.1 with
  | .success spends =>
      (.success spends, c.applyPurchase options payload.generatorId payload.count)
  | result => (result, c)

/-- The handler of `PURCHASE_GENERATOR`: `createPurchaseGeneratorHandler`. -/
def purchaseGenerator (payload : PurchaseGeneratorPayload) :
    PurchaseResult sh.resources × Coordinator sh :=
  if (purchaseCount? payload.count).isNone then (.failure payload.invalidCount, c)
  else
    let quote := c.getPurchaseQuote options payload.generatorId payload.count
    match quote.1 with
    | none => (.failure payload.unknownGenerator, quote.2)
    | some [] => (.failure (payload.invalidQuote "costs-empty" []), quote.2)
    | some (cost :: costs) => quote.2.payGeneratorPurchase options payload (cost :: costs)

/-- Purchases of one unit each, one after another as long as they succeed: what was spent. -/
def purchaseRepeatedly (generatorId : String) :
    ℕ → Coordinator sh → Option (List (ResourceSpend sh.resources)) × Coordinator sh
  | 0, c => (some [], c)
  | count + 1, c =>
      let first := c.purchaseGenerator options { generatorId, count := .fin 1 }
      match first.1 with
      | .success spends =>
          let rest := purchaseRepeatedly generatorId count first.2
          (rest.1.map (spends ++ ·), rest.2)
      | _ => (none, first.2)

end Coordinator

end IdleEngine
