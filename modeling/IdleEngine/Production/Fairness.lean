import IdleEngine.Lib.Outcome
import IdleEngine.Production.Views
import Mathlib.Tactic.LinearCombination

/-!
# What a generator converts

A generator that consumes one resource at rate `c` and produces another at rate `p` for each unit
owned keeps an accumulator for each. What they hold and what they have released add up to the two
rates times the same work (`Accrued`), they are released by the same ratio, and so the one is
never ahead of the other by more than one unit of the heavier rate (`InProportion`).

What scaling leaves unapplied stays in the accumulators: it is released when the input is there.
-/

namespace IdleEngine

open List ProductionTick

variable {sh : ContentShape} {n : ℕ} {options : ProgressionOptions sh} {σ : Type}

theorem ProductionSystem.epsilon_nonneg (system : ProductionSystem) : 0 ≤ system.epsilon :=
  mul_nonneg system.applyThreshold_pos.le (by norm_num)

theorem ProductionSystem.epsilon_le (system : ProductionSystem) :
    system.epsilon ≤ system.applyThreshold :=
  mul_le_of_le_one_right system.applyThreshold_pos.le (by norm_num)

/-! ### One accumulator -/

/-- An accumulator that has grown by `rate * x` in all: what it does not hold it has released. -/
structure Accrued (system : ProductionSystem) (rate x : ℚ) (view : AccumulatorView) : Prop where
  held : -system.epsilon ≤ view.held
  total : view.held + view.released = rate * x

variable {system : ProductionSystem} {scale : ℚ} {view : AccumulatorView}

theorem AccumulatorView.move_eq {delta : ℚ} (hscale : 0 ≤ scale)
    (h : 0 ≤ view.held + delta + system.epsilon) :
    view.move system delta scale =
      { held := view.held + delta -
          Threshold.release system.applyThreshold system.epsilon (view.held + delta) * scale
        released := view.released +
          Threshold.release system.applyThreshold system.epsilon (view.held + delta) * scale } := by
  have hamount := mul_nonneg (Threshold.release_nonneg system.applyThreshold_pos h) hscale
  rw [AccumulatorView.move, max_eq_left hamount]

variable {rate x y : ℚ}

theorem Accrued.total_nonneg (h : Accrued system rate x view) (hrate : 0 ≤ rate) (hy : 0 ≤ y) :
    0 ≤ view.held + rate * y + system.epsilon := by
  linarith [h.held, mul_nonneg hrate hy]

/-- **Step lemma.** -/
theorem Accrued.move (h : Accrued system rate x view) (hrate : 0 ≤ rate) (hy : 0 ≤ y)
    (h0 : 0 ≤ scale) (h1 : scale ≤ 1) :
    Accrued system rate (x + y) (view.move system (rate * y) scale) := by
  have htotal := h.total_nonneg hrate hy
  rw [AccumulatorView.move_eq h0 htotal]
  refine ⟨Threshold.neg_slack_le_kept system.applyThreshold_pos h1 htotal, ?_⟩
  linarith [h.total, mul_add rate x y]

/-! ### Two accumulators -/

/-- The accumulators of a conversion at the rates `p` and `c` after the work `x`. -/
structure InProportion (system : ProductionSystem) (p c x : ℚ)
    (produced consumed : AccumulatorView) : Prop where
  accruedProduced : Accrued system p x produced
  accruedConsumed : Accrued system c x consumed
  balanced : |p * consumed.held - c * produced.held| ≤ system.applyThreshold * max p c

variable {p c : ℚ}

theorem inProportion_empty (system : ProductionSystem) (hp : 0 ≤ p) :
    InProportion system p c 0 { held := 0, released := 0 } { held := 0, released := 0 } where
  accruedProduced := ⟨neg_nonpos.mpr system.epsilon_nonneg, by simp⟩
  accruedConsumed := ⟨neg_nonpos.mpr system.epsilon_nonneg, by simp⟩
  balanced := by
    simpa using mul_nonneg system.applyThreshold_pos.le (hp.trans (le_max_left p c))

variable {produced consumed : AccumulatorView}

section

variable (h : InProportion system p c x produced consumed)
include h

/-- The balance before a release. -/
theorem InProportion.accumulated (y : ℚ) :
    |p * (consumed.held + c * y) - c * (produced.held + p * y)| ≤
      system.applyThreshold * max p c := by
  have heq : p * (consumed.held + c * y) - c * (produced.held + p * y) =
      p * consumed.held - c * produced.held := by ring
  rw [heq]
  exact h.balanced

/-- **Step lemma.** Both accumulators are released by the same ratio, or production is held back
while there is nothing to consume. -/
theorem InProportion.move {ratio : ℚ} (hp : 0 ≤ p)
    (hc : 0 ≤ c) (hy : 0 ≤ y) (h0 : 0 ≤ ratio) (h1 : ratio ≤ 1)
    (hscale : scale = ratio ∨ scale = 0 ∧
      Threshold.release system.applyThreshold system.epsilon (consumed.held + c * y) ≤ 0) :
    InProportion system p c (x + y) (produced.move system (p * y) scale)
      (consumed.move system (c * y) ratio) := by
  have hproduced := h.accruedProduced.total_nonneg hp hy
  have hconsumed := h.accruedConsumed.total_nonneg hc hy
  have hscale0 : 0 ≤ scale ∧ scale ≤ 1 := by
    rcases hscale with rfl | ⟨rfl, -⟩
    · exact ⟨h0, h1⟩
    · exact ⟨le_rfl, zero_le_one⟩
  refine ⟨h.accruedProduced.move hp hy hscale0.1 hscale0.2, h.accruedConsumed.move hc hy h0 h1, ?_⟩
  rw [AccumulatorView.move_eq hscale0.1 hproduced, AccumulatorView.move_eq h0 hconsumed]
  rcases hscale with rfl | ⟨rfl, hnone⟩
  · exact Threshold.abs_imbalance_release_le system.applyThreshold_pos system.epsilon_nonneg
      system.epsilon_le hp hc h0 h1 (h.accumulated y)
  · have hzero : Threshold.release system.applyThreshold system.epsilon
        (consumed.held + c * y) = 0 :=
      le_antisymm hnone (Threshold.release_nonneg system.applyThreshold_pos hconsumed)
    simpa [hzero] using h.accumulated y

/-- **Conversion fairness**, for the totals that were released. -/
theorem InProportion.abs_released_le :
    |c * produced.released - p * consumed.released| ≤ system.applyThreshold * max p c := by
  have hreleased : c * produced.released - p * consumed.released =
      p * consumed.held - c * produced.held := by
    linear_combination c * h.accruedProduced.total - p * h.accruedConsumed.total
  rw [hreleased]
  exact h.balanced

end

/-! ### The generator -/

/-- What one entry of the generator list works in a tick for the generator `id`. -/
def ProductionTick.workOf (tick : ProductionTick) (id : String)
    (generator : GeneratorProductionState) : ℚ :=
  if generator.id = id ∧ 0 < generator.owned ∧ generator.enabled ≠ some false then
    generator.owned * tick.getMultiplier id * (tick.deltaMs / 1000)
  else 0

/-- Owned units times multiplier times seconds of a tick. -/
def ProductionTick.work (tick : ProductionTick) (id : String) : ℚ :=
  (tick.generators.map (tick.workOf id)).sum

/-- In a tick the generator `id` converts `consumed` into `produced` at the rates `c` and `p`,
among other resources. -/
structure ProductionTick.Converts (tick : ProductionTick) (id produced consumed : String)
    (p c : ℚ) : Prop where
  produces : ∀ generator ∈ tick.generators, generator.id = id →
    generator.produces.filter (fun entry => entry.resourceId = produced) = [⟨produced, .fin p⟩]
  consumes : ∀ generator ∈ tick.generators, generator.id = id →
    generator.consumes.filter (fun entry => entry.resourceId = consumed) = [⟨consumed, .fin c⟩]

/-- A tick of some length, in which the generator `id` has a multiplier, neither negative. -/
structure ProductionTick.Forward (tick : ProductionTick) (id : String) : Prop where
  multiplier_nonneg : 0 ≤ tick.getMultiplier id
  deltaMs_nonneg : 0 ≤ tick.deltaMs

theorem ProductionTick.Forward.workOf_nonneg {tick : ProductionTick} {id : String}
    (h : tick.Forward id) (generator : GeneratorProductionState) :
    0 ≤ tick.workOf id generator := by
  rw [workOf]
  split
  · next hactive =>
    exact mul_nonneg (mul_nonneg hactive.2.1.le h.multiplier_nonneg)
      (div_nonneg h.deltaMs_nonneg (by norm_num))
  · exact le_rfl

theorem validateRate_resourceId {ids : Fin n → String} {entry : GeneratorProductionRate}
    {rate : ValidatedRate n} (h : validateRate ids entry = some rate) :
    rate.resourceId = entry.resourceId := by
  rw [validateRate] at h
  split at h
  · cases h
  · split at h
    · obtain ⟨i, -, rfl⟩ := Option.map_eq_some_iff.mp h
      rfl
    · cases h

/-- One positive rate of a known resource is one valid rate. -/
theorem filter_validateRates {ids : Fin n → String} {rates : List GeneratorProductionRate}
    {resourceId : String} {index : Fin n} (rate_pos : 0 < rate)
    (hindex : indexOfId ids resourceId = some index)
    (h : rates.filter (fun entry => entry.resourceId = resourceId) = [⟨resourceId, .fin rate⟩]) :
    (validateRates ids rates).filter (fun valid => valid.resourceId = resourceId) =
      [{ resourceId, index, rate, rate_pos }] := by
  have hswap : (validateRates ids rates).filter (fun valid => valid.resourceId = resourceId) =
      validateRates ids (rates.filter fun entry => entry.resourceId = resourceId) := by
    rw [validateRates, validateRates, filter_filterMap, filterMap_filter]
    refine filterMap_congr fun entry _ => ?_
    cases hvalid : validateRate ids entry with
    | none => simp
    | some rate =>
      rw [Option.filter_some, validateRate_resourceId hvalid]
  rw [hswap, h, validateRates, filterMap_cons, validateRate]
  simp [JsNumber.finite?, rate_pos, hindex]

/-! ### Ticks -/

/-- A state after the work `x` of the generator `id`. -/
structure Converted (system : ProductionSystem) (id produced consumed : String) (p c x : ℚ)
    (state : PhaseState options σ) : Prop where
  current : state.accumulators.Current
  inProportion : InProportion system p c x
    (state.view { generatorId := id, operation := .produce, resourceId := produced })
    (state.view { generatorId := id, operation := .consume, resourceId := consumed })

section Ticks

variable {system : ProductionSystem} {id produced consumed : String} {p c x : ℚ}

theorem converted_start (hp : 0 ≤ p) (resources : σ) :
    Converted system id produced consumed p c 0
      { accumulators := (.empty : ProductionAccumulators options), resources, calls := [] } where
  current := ProductionAccumulators.current_empty
  inProportion := inProportion_empty system hp

variable {tick : ProductionTick}

theorem Converted.runGenerator {context : PhaseContext σ n} {ids : Fin n → String}
    {state : PhaseState options σ} (h : Converted system id produced consumed p c x state)
    (hp : 0 < p) (hc : 0 < c) (hconverts : tick.Converts id produced consumed p c)
    (hforward : tick.Forward id) (hproduced : (indexOfId ids produced).isSome)
    (hconsumed : (indexOfId ids consumed).isSome) {generator : GeneratorProductionState}
    (hmem : generator ∈ tick.generators) :
    Converted system id produced consumed p c (x + tick.workOf id generator)
      (runGenerator system context ids tick state generator) := by
  have hwork := hforward.workOf_nonneg generator
  obtain ⟨i, hi⟩ := Option.isSome_iff_exists.mp hproduced
  obtain ⟨j, hj⟩ := Option.isSome_iff_exists.mp hconsumed
  rw [IdleEngine.runGenerator]
  by_cases howned : generator.owned ≤ 0
  · rw [if_pos howned, workOf, if_neg fun hactive => not_le.mpr hactive.2.1 howned,
      add_zero]
    exact h
  rw [if_neg howned]
  by_cases henabled : generator.enabled = some false
  · rw [if_pos henabled, workOf, if_neg fun hactive => hactive.2.2 henabled,
      add_zero]
    exact h
  rw [if_neg henabled]
  refine ⟨executeProductionPhases_current _ _ _ h.current, ?_⟩
  -- another generator works under other keys and leaves both views alone
  by_cases hid : generator.id = id
  · have hworkOf : tick.workOf id generator =
        generator.owned * tick.getMultiplier generator.id * (tick.deltaMs / 1000) := by
      rw [workOf, if_pos ⟨hid, not_le.mp howned, henabled⟩, hid]
    obtain ⟨ratio, scale, h0, h1, hscale, hviewp, hviewc⟩ :=
      executeProductionPhases_views system context
        { generatorId := generator.id
          validProductions := validateRates ids generator.produces
          validConsumptions := validateRates ids generator.consumes
          effectiveOwned := generator.owned * tick.getMultiplier generator.id
          deltaSeconds := tick.deltaMs / 1000 } h.current
        (filter_validateRates hp hi (hconverts.produces generator hmem hid))
        (filter_validateRates hc hj (hconverts.consumes generator hmem hid))
    simp only [GeneratorPhaseInput.key, GeneratorPhaseInput.delta, hid] at hscale hviewp hviewc
    rw [hid] at hworkOf
    simp only [hid]
    rw [mul_assoc p, ← hworkOf] at hviewp
    rw [mul_assoc c, ← hworkOf] at hscale hviewc
    rw [hviewp, hviewc]
    exact h.inProportion.move hp.le hc.le hwork h0 h1 hscale
  · rw [workOf, if_neg fun hactive => hid hactive.1, add_zero,
      executeProductionPhases_view_off system context _ h.current (Ne.symm hid),
      executeProductionPhases_view_off system context _ h.current (Ne.symm hid)]
    exact h.inProportion

theorem Converted.runGenerators (context : PhaseContext σ n) {ids : Fin n → String}
    {state : PhaseState options σ} (h : Converted system id produced consumed p c x state)
    (hp : 0 < p) (hc : 0 < c) (hconverts : tick.Converts id produced consumed p c)
    (hforward : tick.Forward id) (hproduced : (indexOfId ids produced).isSome)
    (hconsumed : (indexOfId ids consumed).isSome) :
    Converted system id produced consumed p c (x + tick.work id)
      (runGenerators system context ids tick state) := by
  have hloop : ∀ (l : List GeneratorProductionState), l ⊆ tick.generators →
      ∀ (x : ℚ) (state : PhaseState options σ),
      Converted system id produced consumed p c x state →
      Converted system id produced consumed p c (x + (l.map (tick.workOf id)).sum)
        (l.foldl (IdleEngine.runGenerator system context ids tick) state) := by
    intro l
    induction l with
    | nil =>
      intro _ x state h
      simpa using h
    | cons generator l ih =>
      intro hsub x state h
      obtain ⟨hmem, hrest⟩ := cons_subset.mp hsub
      rw [map_cons, sum_cons, ← add_assoc, foldl_cons]
      exact ih hrest _ _ (h.runGenerator hp hc hconverts hforward hproduced hconsumed hmem)
  exact hloop tick.generators (List.Subset.refl _) x state h

/-- **Tick lemma.** Whatever stock the tick finds and in either mode. -/
theorem Converted.runTick {state : PhaseState options (ResourceState n)}
    (h : Converted system id produced consumed p c x state) (hp : 0 < p) (hc : 0 < c)
    (hconverts : tick.Converts id produced consumed p c) (hforward : tick.Forward id)
    (hproduced : (indexOfId state.resources.ids produced).isSome)
    (hconsumed : (indexOfId state.resources.ids consumed).isSome) :
    Converted system id produced consumed p c (x + tick.work id) (system.runTick tick state) := by
  rw [ProductionSystem.runTick]
  split
  · split
    · next hlength =>
      have hzero : tick.deltaMs = 0 := by linarith [hforward.deltaMs_nonneg]
      have hwork : tick.work id = 0 := by
        refine sum_eq_zero fun y hy => ?_
        obtain ⟨generator, -, rfl⟩ := mem_map.mp hy
        simp [workOf, hzero]
      rw [hwork, add_zero]
      exact h
    · have hshadow : Converted system id produced consumed p c x
          { state with resources := ShadowState.create state.resources } :=
        ⟨h.current, h.inProportion⟩
      have hrun := hshadow.runGenerators shadowPhaseContext hp hc hconverts hforward
        hproduced hconsumed
      exact ⟨hrun.current, hrun.inProportion⟩
  · exact h.runGenerators directPhaseContext hp hc hconverts hforward hproduced hconsumed

end Ticks

/-! ### Runs -/

/-- Ticks one after the other. Each finds a store of its own: between two ticks anything may
happen to the resources, the generators and their multipliers. -/
def ProductionSystem.runTicks (system : ProductionSystem)
    (ticks : List (ResourceState n × ProductionTick))
    (state : PhaseState options (ResourceState n)) : PhaseState options (ResourceState n) :=
  ticks.foldl (fun state entry => system.runTick entry.2 { state with resources := entry.1 }) state

/-- The state of a production system that has not run. -/
def PhaseState.start (options : ProgressionOptions sh) (resources : σ) : PhaseState options σ :=
  { accumulators := .empty, resources, calls := [] }

/-- In all ticks of a run the generator `id` converts `consumed` into `produced`. -/
def Conversion (ticks : List (ResourceState n × ProductionTick)) (id produced consumed : String)
    (p c : ℚ) : Prop :=
  ∀ entry ∈ ticks, (indexOfId entry.1.ids produced).isSome ∧
    (indexOfId entry.1.ids consumed).isSome ∧ entry.2.Converts id produced consumed p c

section Runs

variable {system : ProductionSystem} {id produced consumed : String} {p c x : ℚ}

/-- **Run lemma.** -/
theorem Converted.runTicks {ticks : List (ResourceState n × ProductionTick)}
    {state : PhaseState options (ResourceState n)}
    (h : Converted system id produced consumed p c x state) (hp : 0 < p) (hc : 0 < c)
    (hconverts : Conversion ticks id produced consumed p c)
    (hforward : ∀ entry ∈ ticks, entry.2.Forward id) :
    Converted system id produced consumed p c
      (x + (ticks.map fun entry => entry.2.work id).sum) (system.runTicks ticks state) := by
  induction ticks generalizing x state with
  | nil => simpa [ProductionSystem.runTicks] using h
  | cons entry ticks ih =>
    obtain ⟨hproduced, hconsumed, htick⟩ := hconverts entry mem_cons_self
    rw [map_cons, sum_cons, ← add_assoc]
    refine ih ?_ (fun entry hmem => hconverts entry (mem_cons_of_mem _ hmem))
      fun entry hmem => hforward entry (mem_cons_of_mem _ hmem)
    have hfound : Converted system id produced consumed p c x
        { state with resources := entry.1 } := ⟨h.current, h.inProportion⟩
    exact hfound.runTick hp hc htick (hforward entry mem_cons_self) hproduced hconsumed

end Runs

/-- **Conversion is fair.** Over a run from empty accumulators in which the generator's multipliers
and the lengths of the ticks are not negative, what it produced and what it consumed differ from
the proportion of its rates by at most one threshold of the heavier rate, whatever the owned
counts, the stocks and the other resources are and whenever it is disabled. -/
theorem conversion_is_fair (options : ProgressionOptions sh) (system : ProductionSystem)
    {id produced consumed : String} {p c : ℚ} (hp : 0 < p) (hc : 0 < c)
    {ticks : List (ResourceState n × ProductionTick)}
    (hconverts : Conversion ticks id produced consumed p c)
    (hforward : ∀ entry ∈ ticks, entry.2.Forward id) (resources : ResourceState n) :
    let state := system.runTicks ticks (PhaseState.start options resources)
    |c * callTotal ⟨id, .produce, produced⟩ state.calls -
        p * callTotal ⟨id, .consume, consumed⟩ state.calls| ≤
      system.applyThreshold * max p c :=
  ((converted_start hp.le resources).runTicks hp hc hconverts hforward).inProportion.abs_released_le

/-- The shape of a game with two resources. -/
def smithyShape : ContentShape :=
  { resources := 2, generators := 0, upgrades := 0, prestigeLayers := 0, achievements := 0 }

/-- A game with ore and bars. -/
def smithyContent (ore : ℚ) : ContentPack smithyShape :=
  { resources := fun i =>
      { id := if i.val = 0 then "ore" else "bar"
        startAmount := if i.val = 0 then some (.fin ore) else none
        capacity := none, unlocked := some true, visible := none, dirtyTolerance := none
        unlockCondition := none, visibilityCondition := none }
    generators := fun i => i.elim0
    upgrades := fun i => i.elim0
    prestigeLayers := fun i => i.elim0
    achievements := fun i => i.elim0
    generator_ids := fun i => i.elim0
    upgrade_ids := fun i => i.elim0
    achievement_ids := fun i => i.elim0
    generator_nonblank := fun i => i.elim0
    upgrade_nonblank := fun i => i.elim0
    achievement_nonblank := fun i => i.elim0 }

/-- The options of the smithy. -/
def smithyOptions (ore : ℚ) : ProgressionOptions smithyShape :=
  { content := smithyContent ore, stepDurationMs := 1000, precision := .default
    maxConditionDepth := none, evaluateScriptCondition := none, getCustomMetricValue := none }

/-- A store with some ore. -/
def smithyStore (ore : ℚ) : Except String (ResourceState smithyShape.resources) :=
  createResourceState (fun i => ((smithyOptions ore).content.resources i).definition) .default

/-- One ore a second becomes one bar, for each smith. -/
def smith : GeneratorProductionState :=
  { id := "smith", owned := 10, enabled := some true
    produces := [{ resourceId := "bar", rate := .fin 1 }]
    consumes := [{ resourceId := "ore", rate := .fin 1 }] }

/-- A second of ten smiths. -/
def smithyTick (multiplier : ℚ) : ProductionTick :=
  { generators := [smith], getMultiplier := fun _ => multiplier, deltaMs := 1000 }

theorem smithyTick_converts (multiplier : ℚ) :
    (smithyTick multiplier).Converts "smith" "bar" "ore" 1 1 where
  produces := by simp [smithyTick, smith]
  consumes := by simp [smithyTick, smith]

theorem smithyTick_forward {multiplier : ℚ} (h : 0 ≤ multiplier) :
    (smithyTick multiplier).Forward "smith" where
  multiplier_nonneg := h
  deltaMs_nonneg := by norm_num [smithyTick]

theorem smithyThreshold_pos : (0 : ℚ) < 1 := one_pos

/-- A system that applies whole units at once. -/
def smithySystem : ProductionSystem :=
  { applyThreshold := 1, applyThreshold_pos := smithyThreshold_pos, trackRates := true
    applyViaFinalizeTick := false }

/-- A store with ore and one without. -/
def smithyStores : Except String (ResourceState 2 × ResourceState 2) := do
  return (← smithyStore 1000, ← smithyStore 0)

/-- Ticks of the smithy: whether there is ore, and the multiplier. -/
def smithyTicks (stores : ResourceState 2 × ResourceState 2) (ticks : List (Bool × ℚ)) :
    List (ResourceState 2 × ProductionTick) :=
  ticks.map fun tick => (if tick.1 then stores.1 else stores.2, smithyTick tick.2)

/-- The smithy after some ticks. -/
def smithyAfter (stores : ResourceState 2 × ResourceState 2) (ticks : List (Bool × ℚ)) :
    PhaseState (smithyOptions 1000) (ResourceState 2) :=
  smithySystem.runTicks (smithyTicks stores ticks) (PhaseState.start (smithyOptions 1000) stores.1)

/-- The bars and the ore of the smiths after some ticks. -/
def smithyTotals (stores : ResourceState 2 × ResourceState 2) (ticks : List (Bool × ℚ)) : ℚ × ℚ :=
  (callTotal ⟨"smith", .produce, "bar"⟩ (smithyAfter stores ticks).calls,
    callTotal ⟨"smith", .consume, "ore"⟩ (smithyAfter stores ticks).calls)

/-- Both stores know ore and bars. -/
def smithyKnows (stores : ResourceState 2 × ResourceState 2) : Bool :=
  [stores.1, stores.2].all fun s =>
    (indexOfId s.ids "bar").isSome && (indexOfId s.ids "ore").isSome

theorem smithyTicks_conversion {stores : ResourceState 2 × ResourceState 2}
    (h : smithyKnows stores = true) (ticks : List (Bool × ℚ)) :
    Conversion (smithyTicks stores ticks) "smith" "bar" "ore" 1 1 := by
  simp only [smithyKnows, all_cons, all_nil, Bool.and_eq_true, Bool.and_true] at h
  intro entry hmem
  obtain ⟨⟨rich, multiplier⟩, -, rfl⟩ := mem_map.mp hmem
  cases rich with
  | true => exact ⟨h.1.1, h.1.2, smithyTick_converts multiplier⟩
  | false => exact ⟨h.2.1, h.2.2, smithyTick_converts multiplier⟩

theorem smithyTicks_forward (stores : ResourceState 2 × ResourceState 2)
    (ticks : List (Bool × ℚ)) (h : ∀ tick ∈ ticks, 0 ≤ tick.2) :
    ∀ entry ∈ smithyTicks stores ticks, entry.2.Forward "smith" := by
  intro entry hmem
  obtain ⟨tick, htick, rfl⟩ := mem_map.mp hmem
  exact smithyTick_forward (h tick htick)

/-- Three seconds of the smithy, one of them without ore. -/
theorem conversion_is_fair_smithy :
    ∃ stores, smithyStores = .ok stores ∧
      |1 * (smithyTotals stores [(true, 1), (false, 2), (true, 1 / 3)]).1 -
        1 * (smithyTotals stores [(true, 1), (false, 2), (true, 1 / 3)]).2| ≤
      1 * max (1 : ℚ) 1 := by
  obtain ⟨stores, hstores, hknows⟩ :=
    Outcome.exists_ok (x := smithyStores) (p := smithyKnows) (by decide +kernel)
  refine ⟨stores, hstores, ?_⟩
  exact conversion_is_fair (smithyOptions 1000) smithySystem one_pos one_pos (smithyTicks_conversion hknows _)
    (smithyTicks_forward stores _ (by norm_num)) stores.1

/-- With a multiplier that turns from minus one to one, ten ore are consumed for no bar. -/
theorem negative_multiplier_unfair :
    ∃ stores, smithyStores = .ok stores ∧
      Conversion (smithyTicks stores [(true, -1), (true, 1)]) "smith" "bar" "ore" 1 1 ∧
      smithyTotals stores [(true, -1), (true, 1)] = (0, 10) ∧
      smithySystem.applyThreshold * max (1 : ℚ) 1 + smithySystem.epsilon <
        |(1 : ℚ) * 0 - 1 * 10| := by
  obtain ⟨stores, hstores, hcheck⟩ := Outcome.exists_ok (x := smithyStores)
    (p := fun stores => smithyKnows stores &&
      decide (smithyTotals stores [(true, -1), (true, 1)] = (0, 10)))
    (by decide +kernel)
  obtain ⟨hknows, htotals⟩ := (Bool.and_eq_true _ _).mp hcheck
  refine ⟨stores, hstores, smithyTicks_conversion hknows _, of_decide_eq_true htotals, ?_⟩
  norm_num [smithySystem, ProductionSystem.epsilon]

end IdleEngine
