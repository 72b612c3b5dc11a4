import IdleEngine.Lib.Threshold
import IdleEngine.Production.Accumulators
import IdleEngine.Resource.Publish

/-!
# The production system

In every tick each enabled generator goes through three phases: it looks at what its consumption
accumulators would release and how much of that is there, it releases production scaled by that
ratio, and it releases consumption scaled by the same ratio. The phases work through a context,
which is the resource store itself or a shadow of it. With the shadow, the totals are turned into
per-second rates that `finalizeTick` settles later.

`calls` is a history variable: the amounts passed to `addProduction` and to `spendConsumption`,
in order. Nothing reads it. The statistics for the `onTick` callback are left out.
-/

namespace IdleEngine

variable {sh : ContentShape} {n : ℕ}

/-! ### Generators and their rates -/

/-- A `GeneratorProductionRate`. -/
structure GeneratorProductionRate where
  resourceId : String
  rate : JsNumber
  deriving DecidableEq

/-- A `GeneratorProductionState`. -/
structure GeneratorProductionState where
  id : String
  owned : ℚ
  enabled : Option Bool
  produces : List GeneratorProductionRate
  consumes : List GeneratorProductionRate

/-- A `ValidatedRate`: a positive rate of a resource that the store knows. -/
structure ValidatedRate (n : ℕ) where
  resourceId : String
  index : Fin n
  rate : ℚ
  rate_pos : 0 < rate

/-- One rate of `validateRates`. -/
def validateRate (ids : Fin n → String) (entry : GeneratorProductionRate) :
    Option (ValidatedRate n) :=
  match entry.rate.finite? with
  | none => none
  | some rate =>
      if rate_pos : 0 < rate then
        (indexOfId ids entry.resourceId).map fun index =>
          { resourceId := entry.resourceId, index, rate, rate_pos }
      else none

/-- `validateRates`. -/
def validateRates (ids : Fin n → String) (rates : List GeneratorProductionRate) :
    List (ValidatedRate n) :=
  rates.filterMap (validateRate ids)

/-- The options of a production system over a store with `finalizeTick` and rate tracking. -/
structure ProductionSystem where
  applyThreshold : ℚ
  applyThreshold_pos : 0 < applyThreshold
  trackRates : Bool
  applyViaFinalizeTick : Bool

/-- The tolerance of the threshold test. -/
def ProductionSystem.epsilon (system : ProductionSystem) : ℚ :=
  system.applyThreshold * (1 / 1000000000)

/-- What a tick is given: the generators, their multipliers and the length of time. -/
structure ProductionTick where
  generators : List GeneratorProductionState
  getMultiplier : String → ℚ
  deltaMs : ℚ

/-! ### Accumulating -/

/-- The text of an accumulator in an old save. -/
def AccumulatorKey.legacyText (key : AccumulatorKey) : String :=
  key.generatorId ++ ":" ++ key.operation.name ++ ":" ++ key.resourceId

/-- An `AccumulatorResult`. -/
structure AccumulatorResult where
  key : AccumulatorKey
  toApply : ℚ
  newTotal : ℚ

namespace ProductionAccumulators

variable {options : ProgressionOptions sh}

/-- The value kept under the old text of a key becomes the accumulator's. -/
def takeLegacy (a : ProductionAccumulators options) (key : AccumulatorKey) :
    ProductionAccumulators options :=
  match a.legacyAccumulators.get? key.legacyText with
  | none => a
  | some value =>
      { accumulators := a.accumulators.set key value
        legacyAccumulators := a.legacyAccumulators.erase key.legacyText
        legacy_unread := by
          intro text htext
          rw [OrderedMap.get?_erase] at htext
          split at htext
          · cases htext
          · exact a.legacy_unread text htext }

/-- `accumulate`: what would be applied, before anything is committed. -/
def accumulate (system : ProductionSystem) (a : ProductionAccumulators options)
    (key : AccumulatorKey) (delta : ℚ) : AccumulatorResult × ProductionAccumulators options :=
  let a := a.takeLegacy key
  let total := a.value key + delta
  ({ key
     toApply := Threshold.release system.applyThreshold system.epsilon total
     newTotal := total }, a)

/-- `commit`: keep the remainder, and what the scale leaves unapplied. -/
def commit (a : ProductionAccumulators options) (result : AccumulatorResult) (scale : ℚ) :
    ProductionAccumulators options :=
  a.setValue result.key (result.newTotal - result.toApply * scale)

end ProductionAccumulators

/-! ### The phases of one generator -/

/-- `clampRatio01`. -/
def clampRatio01 (value : ℚ) : ℚ := min 1 (max 0 value)

theorem clampRatio01_nonneg (value : ℚ) : 0 ≤ clampRatio01 value :=
  le_min zero_le_one (le_max_left 0 value)

theorem clampRatio01_le_one (value : ℚ) : clampRatio01 value ≤ 1 := min_le_left 1 _

/-- A `PhaseContext` over a state of type `σ`. -/
structure PhaseContext (σ : Type) (n : ℕ) where
  getAmount : σ → Fin n → ℚ
  addProduction : Fin n → ℚ → σ → σ
  spendConsumption : Fin n → ℚ → σ → σ

/-- What the phases work on. -/
structure PhaseState (options : ProgressionOptions sh) (σ : Type) where
  accumulators : ProductionAccumulators options
  resources : σ
  calls : List (AccumulatorKey × ℚ)

/-- A `GeneratorPhaseInput`. -/
structure GeneratorPhaseInput (n : ℕ) where
  generatorId : String
  validProductions : List (ValidatedRate n)
  validConsumptions : List (ValidatedRate n)
  effectiveOwned : ℚ
  deltaSeconds : ℚ

namespace GeneratorPhaseInput

/-- What a rate amounts to over the tick. -/
def delta (input : GeneratorPhaseInput n) (rate : ValidatedRate n) : ℚ :=
  rate.rate * input.effectiveOwned * input.deltaSeconds

/-- The accumulator of a rate. -/
def key (input : GeneratorPhaseInput n) (operation : AccumulatorOperation)
    (rate : ValidatedRate n) : AccumulatorKey :=
  { generatorId := input.generatorId, operation, resourceId := rate.resourceId }

end GeneratorPhaseInput

/-- What `prepareConsumptionPhase` returns; the ratio is clamped at the end. -/
structure ConsumptionPlan (n : ℕ) where
  consumptionAccumulators : List (Fin n × AccumulatorResult)
  consumptionRatio : ℚ
  willApplyProduction : Bool

section Phases

variable {options : ProgressionOptions sh} {σ : Type} (system : ProductionSystem)
  (context : PhaseContext σ n) (input : GeneratorPhaseInput n)

/-- One consumed resource of `prepareConsumptionPhase`. -/
def prepareConsumption (now : ConsumptionPlan n × PhaseState options σ) (rate : ValidatedRate n) :
    ConsumptionPlan n × PhaseState options σ :=
  let (plan, state) := now
  let (result, accumulators) :=
    state.accumulators.accumulate system (input.key .consume rate) (input.delta rate)
  let consumptionAccumulators := plan.consumptionAccumulators ++ [(rate.index, result)]
  let state := { state with accumulators }
  if result.toApply ≤ 0 then ({ plan with consumptionAccumulators }, state)
  else
    let available := context.getAmount state.resources rate.index
    ({ consumptionAccumulators
       consumptionRatio := min (min plan.consumptionRatio (available / result.newTotal))
         (available / result.toApply)
       willApplyProduction := true }, state)

/-- `prepareConsumptionPhase`. -/
def prepareConsumptionPhase (state : PhaseState options σ) :
    ConsumptionPlan n × PhaseState options σ :=
  let (plan, state) := input.validConsumptions.foldl (prepareConsumption system context input)
    ({ consumptionAccumulators := []
       consumptionRatio := 1
       willApplyProduction := input.validConsumptions.isEmpty }, state)
  ({ plan with consumptionRatio := clampRatio01 plan.consumptionRatio }, state)

/-- One produced resource of `executeProductionPhase`. -/
def executeProduction (scale : ℚ) (state : PhaseState options σ) (rate : ValidatedRate n) :
    PhaseState options σ :=
  let (result, accumulators) :=
    state.accumulators.accumulate system (input.key .produce rate) (input.delta rate)
  let state := { state with accumulators := accumulators.commit result scale }
  let actualToApply := result.toApply * scale
  if actualToApply ≤ 0 then state
  else
    { state with
      resources := context.addProduction rate.index actualToApply state.resources
      calls := state.calls ++ [(result.key, actualToApply)] }

/-- `executeProductionPhase`. -/
def executeProductionPhase (consumptionRatio : ℚ) (willApplyProduction : Bool)
    (state : PhaseState options σ) : PhaseState options σ :=
  let scale := if willApplyProduction then consumptionRatio else 0
  input.validProductions.foldl (executeProduction system context input scale) state

/-- One consumed resource of `executeConsumptionPhase`. -/
def executeConsumption (consumptionRatio : ℚ) (state : PhaseState options σ)
    (entry : Fin n × AccumulatorResult) : PhaseState options σ :=
  let (index, result) := entry
  let state := { state with accumulators := state.accumulators.commit result consumptionRatio }
  let actualToApply := result.toApply * consumptionRatio
  if actualToApply ≤ 0 then state
  else
    { state with
      resources := context.spendConsumption index actualToApply state.resources
      calls := state.calls ++ [(result.key, actualToApply)] }

/-- `executeConsumptionPhase`. -/
def executeConsumptionPhase (plan : ConsumptionPlan n) (state : PhaseState options σ) :
    PhaseState options σ :=
  plan.consumptionAccumulators.foldl (executeConsumption context plan.consumptionRatio) state

/-- `executeProductionPhases`. -/
def executeProductionPhases (state : PhaseState options σ) : PhaseState options σ :=
  let (plan, state) := prepareConsumptionPhase system context input state
  let state := executeProductionPhase system context input plan.consumptionRatio
    plan.willApplyProduction state
  executeConsumptionPhase context plan state

end Phases

/-- The phases of one generator of the list; without owned units or disabled it does nothing. -/
def runGenerator {options : ProgressionOptions sh} {σ : Type} (system : ProductionSystem)
    (context : PhaseContext σ n) (ids : Fin n → String) (tick : ProductionTick)
    (state : PhaseState options σ) (generator : GeneratorProductionState) :
    PhaseState options σ :=
  if generator.owned ≤ 0 then state
  else if generator.enabled = some false then state
  else
    executeProductionPhases system context
      { generatorId := generator.id
        validProductions := validateRates ids generator.produces
        validConsumptions := validateRates ids generator.consumes
        effectiveOwned := generator.owned * tick.getMultiplier generator.id
        deltaSeconds := tick.deltaMs / 1000 }
      state

/-- The loop over the generators, in list order. -/
def runGenerators {options : ProgressionOptions sh} {σ : Type} (system : ProductionSystem)
    (context : PhaseContext σ n) (ids : Fin n → String) (tick : ProductionTick)
    (state : PhaseState options σ) : PhaseState options σ :=
  tick.generators.foldl (runGenerator system context ids tick) state

/-! ### The two contexts -/

/-- `createDirectPhaseContext`. The amounts are positive, so neither operation throws. -/
def directPhaseContext : PhaseContext (ResourceState n) n where
  getAmount s index := (s.live index).amount
  addProduction index amount s := s.after (s.addAmount index (.fin amount))
  spendConsumption index amount s := s.after (s.spendAmount index (.fin amount))

/-- `ShadowState`: pending amounts over a store, and the totals that led to them. -/
structure ShadowState (n : ℕ) where
  resourceState : ResourceState n
  amounts : OrderedMap (Fin n) ℚ
  income : OrderedMap (Fin n) ℚ
  expense : OrderedMap (Fin n) ℚ

namespace ShadowState

/-- A shadow without pending changes. -/
def create (s : ResourceState n) : ShadowState n :=
  { resourceState := s, amounts := OrderedMap.empty, income := OrderedMap.empty
    expense := OrderedMap.empty }

/-- `getAmount`. -/
def getAmount (shadow : ShadowState n) (index : Fin n) : ℚ :=
  (shadow.amounts.get? index).getD (shadow.resourceState.live index).amount

/-- `getCapacity`: a capacity that is no number from zero up counts as infinite. -/
def getCapacity (shadow : ShadowState n) (index : Fin n) : WithTop ℚ :=
  match (shadow.resourceState.live index).capacity with
  | none => ⊤
  | some capacity => if capacity < 0 then ⊤ else (capacity : ℚ)

/-- `recordIncome`. -/
def recordIncome (shadow : ShadowState n) (index : Fin n) (amount : ℚ) : ShadowState n :=
  if amount ≤ 0 then shadow
  else
    { shadow with
      income := shadow.income.set index ((shadow.income.get? index).getD 0 + amount) }

/-- `recordExpense`. -/
def recordExpense (shadow : ShadowState n) (index : Fin n) (amount : ℚ) : ShadowState n :=
  if amount ≤ 0 then shadow
  else
    { shadow with
      expense := shadow.expense.set index ((shadow.expense.get? index).getD 0 + amount) }

/-- `addAmount`. -/
def addAmount (shadow : ShadowState n) (index : Fin n) (amount : ℚ) : ShadowState n :=
  let current := shadow.getAmount index
  let next := ResourceState.clampAmount (current + amount) (shadow.getCapacity index)
  let shadow := { shadow with amounts := shadow.amounts.set index next }
  if 0 < next - current then shadow.recordIncome index (next - current) else shadow

/-- `spendAmount`. -/
def spendAmount (shadow : ShadowState n) (index : Fin n) (amount : ℚ) : ShadowState n :=
  let current := shadow.getAmount index
  if current < amount then shadow
  else
    { shadow with amounts := shadow.amounts.set index (current - amount) }.recordExpense index
      amount

end ShadowState

/-- `createShadowPhaseContext`. -/
def shadowPhaseContext : PhaseContext (ShadowState n) n where
  getAmount := ShadowState.getAmount
  addProduction index amount shadow := shadow.addAmount index amount
  spendConsumption index amount shadow := shadow.spendAmount index amount

/-! ### Ticks -/

/-- The totals of a shadow as per-second rates; a total that is not positive is left out. -/
def applyRates (apply : ResourceState n → Fin n → JsNumber → Except String (ResourceState n))
    (deltaSeconds : ℚ) (totals : OrderedMap (Fin n) ℚ) (s : ResourceState n) : ResourceState n :=
  totals.entries.foldl (fun s entry =>
    let amountPerSecond := entry.2 / deltaSeconds
    if 0 < amountPerSecond then s.afterUnit (apply s entry.1 (.fin amountPerSecond)) else s) s

namespace ProductionSystem

variable {options : ProgressionOptions sh} (system : ProductionSystem)

/-- `runStandardFlow`. A store with `finalizeTick` is not given rates here. -/
def runStandardFlow (tick : ProductionTick) (state : PhaseState options (ResourceState n)) :
    PhaseState options (ResourceState n) :=
  runGenerators system directPhaseContext state.resources.ids tick state

/-- `runFinalizeTickRatesFlow`. -/
def runFinalizeTickRatesFlow (tick : ProductionTick)
    (state : PhaseState options (ResourceState n)) : PhaseState options (ResourceState n) :=
  let deltaSeconds := tick.deltaMs / 1000
  let shadowed := runGenerators system shadowPhaseContext state.resources.ids tick
    { state with resources := ShadowState.create state.resources }
  let s := applyRates ResourceState.applyIncome deltaSeconds shadowed.resources.income
    state.resources
  let s := applyRates ResourceState.applyExpense deltaSeconds shadowed.resources.expense s
  { shadowed with resources := s }

/-- `runTick`. -/
def runTick (tick : ProductionTick) (state : PhaseState options (ResourceState n)) :
    PhaseState options (ResourceState n) :=
  if system.applyViaFinalizeTick then
    if tick.deltaMs / 1000 ≤ 0 then state else system.runFinalizeTickRatesFlow tick state
  else system.runStandardFlow tick state

/-- `applyOfflineDelta`: one tick of that length, settled and published as a tick of the loop
would be. -/
def applyOfflineDelta (tick : ProductionTick) (state : PhaseState options (ResourceState n)) :
    PhaseState options (ResourceState n) :=
  if tick.deltaMs ≤ 0 then state
  else
    let state := system.runTick tick state
    let s := if system.applyViaFinalizeTick then
        state.resources.afterUnit (state.resources.finalizeTick (.fin tick.deltaMs))
      else state.resources
    let s := if system.trackRates || system.applyViaFinalizeTick then
        let s := s.createPublishSnapshot
        s.afterUnit s.resetPerTickAccumulators
      else s
    { state with resources := s }

end ProductionSystem

end IdleEngine
