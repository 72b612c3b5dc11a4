import IdleEngine.Production.System

/-!
# One accumulator through a tick

A tick moves each accumulator in one way: the generator that owns it adds what its rate amounts
to, and some scale between zero and one of the whole units is released. `AccumulatorView` is what
one accumulator holds together with the total released from it, and `released` is the move. All
other generators leave it alone.
-/

namespace IdleEngine

open ProductionAccumulators List

variable {sh : ContentShape} {n : ℕ} {options : ProgressionOptions sh} {σ : Type}

/-! ### Accumulators without old keys -/

namespace ProductionAccumulators

/-- No value waits under an old key. -/
def Current (a : ProductionAccumulators options) : Prop :=
  ∀ text, a.legacyAccumulators.get? text = none

theorem current_empty : (empty : ProductionAccumulators options).Current := fun _ => rfl

theorem value_setValue (a : ProductionAccumulators options) (key other : AccumulatorKey)
    (value : ℚ) : (a.setValue key value).value other = if key = other then value else a.value other := by
  rw [ProductionAccumulators.value, setValue, OrderedMap.get?_set]
  split <;> rfl

theorem Current.setValue {a : ProductionAccumulators options} (h : a.Current)
    (key : AccumulatorKey) (value : ℚ) : (a.setValue key value).Current := h

theorem Current.accumulate {a : ProductionAccumulators options} (h : a.Current)
    (system : ProductionSystem) (key : AccumulatorKey) (delta : ℚ) :
    a.accumulate system key delta =
      ({ key
         toApply := Threshold.release system.applyThreshold system.epsilon (a.value key + delta)
         newTotal := a.value key + delta }, a) := by
  have htake : a.takeLegacy key = a := by rw [takeLegacy, h]
  rw [ProductionAccumulators.accumulate, htake]

end ProductionAccumulators

/-! ### Views -/

/-- What an accumulator holds, and the total released from it. -/
structure AccumulatorView where
  held : ℚ
  released : ℚ

/-- The amounts of the calls for one accumulator. -/
def callTotal (key : AccumulatorKey) (calls : List (AccumulatorKey × ℚ)) : ℚ :=
  ((calls.filter fun call => call.1 = key).map Prod.snd).sum

theorem callTotal_append (key : AccumulatorKey) (calls calls' : List (AccumulatorKey × ℚ)) :
    callTotal key (calls ++ calls') = callTotal key calls + callTotal key calls' := by
  simp [callTotal]

theorem callTotal_singleton (key other : AccumulatorKey) (amount : ℚ) :
    callTotal key [(other, amount)] = if other = key then amount else 0 := by
  by_cases h : other = key <;> simp [callTotal, h]

/-- An accumulator in a state. -/
def PhaseState.view (state : PhaseState options σ) (key : AccumulatorKey) : AccumulatorView :=
  { held := state.accumulators.value key, released := callTotal key state.calls }

/-- The move of an accumulator: `delta` is added and `scale` of the whole units is released. -/
def AccumulatorView.move (system : ProductionSystem) (delta scale : ℚ) (view : AccumulatorView) :
    AccumulatorView :=
  let total := view.held + delta
  let amount := Threshold.release system.applyThreshold system.epsilon total * scale
  { held := total - amount, released := view.released + max amount 0 }

/-! ### The phases -/

variable (system : ProductionSystem) (context : PhaseContext σ n) (input : GeneratorPhaseInput n)

variable {scale : ℚ} {state : PhaseState options σ}

theorem executeProduction_current (h : state.accumulators.Current) (rate : ValidatedRate n) :
    (executeProduction system context input scale state rate).accumulators.Current := by
  rw [executeProduction, h.accumulate]
  simp only
  split
  · exact h.setValue _ _
  · exact h.setValue _ _

theorem executeProduction_view (h : state.accumulators.Current) (rate : ValidatedRate n)
    (key : AccumulatorKey) :
    (executeProduction system context input scale state rate).view key =
      if input.key .produce rate = key then
        (state.view key).move system (input.delta rate) scale
      else state.view key := by
  rw [executeProduction, h.accumulate]
  simp only
  split
  · next hnonpos =>
    simp only [PhaseState.view, ProductionAccumulators.commit,
      value_setValue, AccumulatorView.move]
    split
    · next hkey =>
      subst hkey
      rw [max_eq_right hnonpos, add_zero]
    · rfl
  · next hpos =>
    simp only [PhaseState.view, ProductionAccumulators.commit,
      value_setValue, AccumulatorView.move, callTotal_append,
      callTotal_singleton]
    split
    · next hkey =>
      subst hkey
      rw [max_eq_left (not_le.mp hpos).le]
    · rw [add_zero]

variable {ratio : ℚ}

theorem executeConsumption_view (state : PhaseState options σ) (entry : Fin n × AccumulatorResult)
    (key : AccumulatorKey) :
    (executeConsumption context ratio state entry).view key =
      if entry.2.key = key then
        { held := entry.2.newTotal - entry.2.toApply * ratio
          released := (state.view key).released + max (entry.2.toApply * ratio) 0 }
      else state.view key := by
  rw [executeConsumption]
  simp only
  split
  · next hnonpos =>
    simp only [PhaseState.view, ProductionAccumulators.commit,
      value_setValue]
    split
    · rw [max_eq_right hnonpos, add_zero]
    · rfl
  · next hpos =>
    simp only [PhaseState.view, ProductionAccumulators.commit,
      value_setValue, callTotal_append, callTotal_singleton]
    split
    · rw [max_eq_left (not_le.mp hpos).le]
    · rw [add_zero]

/-! ### Looking at the consumed resources -/

/-- What a consumption accumulator would release. -/
def peek (state : PhaseState options σ) (rate : ValidatedRate n) : Fin n × AccumulatorResult :=
  let total := state.accumulators.value (input.key .consume rate) + input.delta rate
  (rate.index,
    { key := input.key .consume rate
      toApply := Threshold.release system.applyThreshold system.epsilon total
      newTotal := total })

section

variable (h : state.accumulators.Current)
include h

/-- Looking changes nothing. The plan lists what each accumulator would release, and production
runs when one of them would release something. -/
theorem foldl_prepareConsumption (l : List (ValidatedRate n)) (plan : ConsumptionPlan n) :
    ∃ ratio, l.foldl (prepareConsumption system context input) (plan, state) =
      ({ consumptionAccumulators :=
           plan.consumptionAccumulators ++ l.map (peek system input state)
         consumptionRatio := ratio
         willApplyProduction := plan.willApplyProduction ||
           l.any fun rate => decide (0 < (peek system input state rate).2.toApply) }, state) := by
  induction l generalizing plan with
  | nil => exact ⟨plan.consumptionRatio, by simp⟩
  | cons rate l ih =>
    rw [foldl_cons, prepareConsumption, h.accumulate]
    simp only
    by_cases hnonpos : Threshold.release system.applyThreshold system.epsilon
        (state.accumulators.value (input.key .consume rate) + input.delta rate) ≤ 0
    · rw [if_pos hnonpos]
      obtain ⟨ratio, hrest⟩ := ih { plan with
        consumptionAccumulators := plan.consumptionAccumulators ++ [peek system input state rate] }
      refine ⟨ratio, hrest.trans ?_⟩
      simp [peek, not_lt.mpr hnonpos]
    · rw [if_neg hnonpos]
      obtain ⟨ratio, hrest⟩ := ih _
      refine ⟨ratio, hrest.trans ?_⟩
      simp [peek, not_le.mp hnonpos]

theorem prepareConsumptionPhase_eq :
    ∃ ratio, 0 ≤ ratio ∧ ratio ≤ 1 ∧ prepareConsumptionPhase system context input state =
      ({ consumptionAccumulators := input.validConsumptions.map (peek system input state)
         consumptionRatio := ratio
         willApplyProduction := input.validConsumptions.isEmpty ||
           input.validConsumptions.any fun rate =>
             decide (0 < (peek system input state rate).2.toApply) }, state) := by
  obtain ⟨ratio, hfold⟩ := foldl_prepareConsumption system context input h
    input.validConsumptions
    { consumptionAccumulators := []
      consumptionRatio := 1
      willApplyProduction := input.validConsumptions.isEmpty }
  refine ⟨clampRatio01 ratio, clampRatio01_nonneg ratio, clampRatio01_le_one ratio, ?_⟩
  rw [prepareConsumptionPhase, hfold]
  rfl

/-! ### All phases -/

/-- The phases as two loops. The scale of the production is the ratio, or zero when there is
consumption but no accumulator of it has anything to release. -/
theorem executeProductionPhases_eq : ∃ ratio scale, 0 ≤ ratio ∧ ratio ≤ 1 ∧
      (scale = ratio ∨ scale = 0 ∧ ∀ rate ∈ input.validConsumptions,
        (peek system input state rate).2.toApply ≤ 0) ∧
      executeProductionPhases system context input state =
        (input.validConsumptions.map (peek system input state)).foldl
          (executeConsumption context ratio)
          (input.validProductions.foldl (executeProduction system context input scale) state) := by
  obtain ⟨ratio, h0, h1, hplan⟩ := prepareConsumptionPhase_eq system context input h
  rw [executeProductionPhases, hplan]
  cases hwill : (input.validConsumptions.isEmpty ||
      input.validConsumptions.any fun rate =>
        decide (0 < (peek system input state rate).2.toApply)) with
  | true => exact ⟨ratio, ratio, h0, h1, .inl rfl, rfl⟩
  | false =>
    refine ⟨ratio, 0, h0, h1, .inr ⟨rfl, fun rate hrate => ?_⟩, rfl⟩
    rw [Bool.or_eq_false_iff] at hwill
    have hnone := any_eq_false.mp hwill.2 rate hrate
    simpa using hnone

theorem executeConsumption_current (entry : Fin n × AccumulatorResult) :
    (executeConsumption context ratio state entry).accumulators.Current := by
  rw [executeConsumption]
  simp only
  split
  · exact h.setValue _ _
  · exact h.setValue _ _

theorem executeProductionPhases_current :
    (executeProductionPhases system context input state).accumulators.Current := by
  obtain ⟨ratio, scale, -, -, -, hphases⟩ := executeProductionPhases_eq system context input h
  rw [hphases]
  refine foldlRecOn
    (motive := fun s : PhaseState options σ => s.accumulators.Current) _ _ ?_
    fun _ hs entry _ => executeConsumption_current context hs entry
  exact foldlRecOn (motive := fun s : PhaseState options σ => s.accumulators.Current) _ _ h
    fun _ hs rate _ => executeProduction_current system context input hs rate

end

variable {key : AccumulatorKey}

/-- The production loop leaves an accumulator of another generator or operation alone. -/
theorem foldl_executeProduction_view_off (h : state.accumulators.Current)
    (hkey : ∀ rate, input.key .produce rate ≠ key) :
    (input.validProductions.foldl (executeProduction system context input scale) state).view key =
      state.view key := by
  refine Overwrite.foldl_view_off (I := fun s : PhaseState options σ => s.accumulators.Current)
    (v := fun s : PhaseState options σ => s.view key)
    (fun s hs rate _ => executeProduction_current system context input hs rate)
    (fun s hs rate _ => ?_) h
  rw [executeProduction_view system context input hs, if_neg (hkey rate)]

/-- The consumption loop leaves an accumulator of another generator or operation alone. -/
theorem foldl_executeConsumption_view_off {start : PhaseState options σ}
    (hkey : ∀ rate, input.key .consume rate ≠ key) :
    ((input.validConsumptions.map (peek system input start)).foldl
      (executeConsumption context ratio) state).view key = state.view key := by
  refine Overwrite.foldl_view_off (I := fun _ => True)
    (v := fun s : PhaseState options σ => s.view key) (fun _ _ _ _ => trivial)
    (fun s _ entry hentry => ?_) trivial
  obtain ⟨rate, -, rfl⟩ := mem_map.mp hentry
  rw [executeConsumption_view]
  exact if_neg (hkey rate)

/-- **Frame.** A generator leaves the accumulators of the others alone. -/
theorem executeProductionPhases_view_off (h : state.accumulators.Current)
    (hkey : key.generatorId ≠ input.generatorId) :
    (executeProductionPhases system context input state).view key = state.view key := by
  have hother : ∀ operation rate, input.key operation rate ≠ key := by
    rintro operation rate rfl
    exact hkey rfl
  obtain ⟨ratio, scale, -, -, -, hphases⟩ := executeProductionPhases_eq system context input h
  rw [hphases, foldl_executeConsumption_view_off system context input (hother .consume),
    foldl_executeProduction_view_off system context input h (hother .produce)]

variable {rate : ValidatedRate n}

/-- The move of an accumulator of production, for a resource with one rate. -/
theorem foldl_executeProduction_view (h : state.accumulators.Current) {resourceId : String}
    (hrate : input.validProductions.filter (fun r => r.resourceId = resourceId) = [rate]) :
    (input.validProductions.foldl (executeProduction system context input scale) state).view
        (input.key .produce rate) =
      (state.view (input.key .produce rate)).move system (input.delta rate) scale := by
  have hresource : rate.resourceId = resourceId := by
    have hmem : rate ∈ input.validProductions.filter fun r => r.resourceId = resourceId := by
      rw [hrate]
      exact mem_singleton_self rate
    simpa using (mem_filter.mp hmem).2
  refine Overwrite.foldl_view_once (I := fun s : PhaseState options σ => s.accumulators.Current)
    (v := fun s : PhaseState options σ => s.view (input.key .produce rate)) hrate
    (fun s hs rate _ => executeProduction_current system context input hs rate)
    (fun s hs r _ hr => ?_) (fun s hs => ?_) h
  · rw [executeProduction_view system context input hs, if_neg]
    intro hkey
    have hsame : r.resourceId = rate.resourceId := congrArg AccumulatorKey.resourceId hkey
    rw [hresource] at hsame
    simp [hsame] at hr
  · rw [executeProduction_view system context input hs, if_pos rfl]

/-- The move of an accumulator of consumption, for a resource with one rate. -/
theorem foldl_executeConsumption_view {start : PhaseState options σ} {resourceId : String}
    (hrate : input.validConsumptions.filter (fun r => r.resourceId = resourceId) = [rate])
    (hstart : state.view (input.key .consume rate) = start.view (input.key .consume rate)) :
    ((input.validConsumptions.map (peek system input start)).foldl
        (executeConsumption context ratio) state).view (input.key .consume rate) =
      (start.view (input.key .consume rate)).move system (input.delta rate) ratio := by
  have hresource : rate.resourceId = resourceId := by
    have hmem : rate ∈ input.validConsumptions.filter fun r => r.resourceId = resourceId := by
      rw [hrate]
      exact mem_singleton_self rate
    simpa using (mem_filter.mp hmem).2
  have hentry : (input.validConsumptions.map (peek system input start)).filter
      (fun entry => entry.2.key.resourceId = resourceId) = [peek system input start rate] := by
    rw [filter_map, ← map_singleton, ← hrate]
    rfl
  have honce := Overwrite.foldl_view_once (I := fun _ => True)
    (v := fun s : PhaseState options σ => s.view (input.key .consume rate))
    (f := executeConsumption context ratio)
    (g := fun view =>
      { held := (peek system input start rate).2.newTotal -
          (peek system input start rate).2.toApply * ratio
        released := view.released + max ((peek system input start rate).2.toApply * ratio) 0 })
    hentry (fun _ _ _ _ => trivial) (fun s _ entry hmem hr => ?_) (fun s _ => ?_)
    (s := state) trivial
  · rw [honce, hstart]
    rfl
  · obtain ⟨r, -, rfl⟩ := mem_map.mp hmem
    rw [executeConsumption_view, if_neg]
    intro hkey
    have hsame : r.resourceId = rate.resourceId := congrArg AccumulatorKey.resourceId hkey
    rw [hresource] at hsame
    simp [peek, GeneratorPhaseInput.key, hsame] at hr
  · rw [executeConsumption_view]
    exact if_pos rfl

/-- **Moves.** A generator with one rate for a produced and one for a consumed resource moves both
accumulators, by the same ratio when production runs at all; when it does not, the consumption
accumulator has nothing to release. -/
theorem executeProductionPhases_views (h : state.accumulators.Current) {produced consumed : String}
    {produceRate consumeRate : ValidatedRate n}
    (hproduce : input.validProductions.filter (fun rate => rate.resourceId = produced) =
      [produceRate])
    (hconsume : input.validConsumptions.filter (fun rate => rate.resourceId = consumed) =
      [consumeRate]) :
    ∃ ratio scale, 0 ≤ ratio ∧ ratio ≤ 1 ∧
      (scale = ratio ∨ scale = 0 ∧
        Threshold.release system.applyThreshold system.epsilon
          ((state.view (input.key .consume consumeRate)).held + input.delta consumeRate) ≤ 0) ∧
      (executeProductionPhases system context input state).view (input.key .produce produceRate) =
        (state.view (input.key .produce produceRate)).move system (input.delta produceRate)
          scale ∧
      (executeProductionPhases system context input state).view (input.key .consume consumeRate) =
        (state.view (input.key .consume consumeRate)).move system (input.delta consumeRate)
          ratio := by
  have hoperation : ∀ r r', input.key .produce r ≠ input.key .consume r' := fun r r' hkey => by
    cases congrArg AccumulatorKey.operation hkey
  obtain ⟨ratio, scale, h0, h1, hscale, hphases⟩ :=
    executeProductionPhases_eq system context input h
  have hmem : consumeRate ∈ input.validConsumptions := by
    have hfilter : consumeRate ∈
        input.validConsumptions.filter fun rate => rate.resourceId = consumed := by
      rw [hconsume]
      exact mem_singleton_self consumeRate
    exact (mem_filter.mp hfilter).1
  refine ⟨ratio, scale, h0, h1, hscale.imp id fun h => ⟨h.1, h.2 consumeRate hmem⟩, ?_, ?_⟩
  · rw [hphases, foldl_executeConsumption_view_off system context input
      fun r => (hoperation produceRate r).symm]
    exact foldl_executeProduction_view system context input h hproduce
  · rw [hphases]
    refine foldl_executeConsumption_view system context input hconsume ?_
    exact foldl_executeProduction_view_off system context input h
      fun r => hoperation r consumeRate

/-! ### Phases that nothing limits -/

/-- Production runs: there is no consumption, or an accumulator of it has something to release. -/
def GeneratorPhaseInput.releases (state : PhaseState options σ) : Bool :=
  input.validConsumptions.isEmpty || input.validConsumptions.any fun rate =>
    decide (0 < Threshold.release system.applyThreshold system.epsilon
      ((state.view (input.key .consume rate)).held + input.delta rate))

/-- No resource is produced under two rates, or consumed under two. -/
structure GeneratorPhaseInput.Distinct (input : GeneratorPhaseInput n) : Prop where
  productions : (input.validProductions.map ValidatedRate.resourceId).Nodup
  consumptions : (input.validConsumptions.map ValidatedRate.resourceId).Nodup

theorem filter_resource_of_nodup {rates : List (ValidatedRate n)}
    (h : (rates.map ValidatedRate.resourceId).Nodup) (hmem : rate ∈ rates) :
    rates.filter (fun r => decide (r.resourceId = rate.resourceId)) = [rate] := by
  induction rates with
  | nil => cases hmem
  | cons r rates ih =>
    obtain ⟨hnew, hnodup⟩ := nodup_cons.mp h
    rcases mem_cons.mp hmem with rfl | hmem
    · rw [filter_cons_of_pos (by simp), filter_eq_nil_iff.mpr]
      intro r hr hsame
      exact hnew (mem_map.mpr ⟨r, hr, of_decide_eq_true hsame⟩)
    · have hne : r.resourceId ≠ rate.resourceId := fun hsame =>
        hnew (mem_map.mpr ⟨rate, hmem, hsame.symm⟩)
      rw [filter_cons_of_neg (by simpa using hne), ih hnodup hmem]

theorem executeProductionPhases_of_ratio (h : state.accumulators.Current)
    (hratio : (prepareConsumptionPhase system context input state).1.consumptionRatio = 1) :
    executeProductionPhases system context input state =
      (input.validConsumptions.map (peek system input state)).foldl
        (executeConsumption context 1)
        (input.validProductions.foldl
          (executeProduction system context input (if input.releases system state then 1 else 0))
          state) := by
  obtain ⟨ratio, -, -, hplan⟩ := prepareConsumptionPhase_eq system context input h
  rw [hplan] at hratio
  obtain rfl : ratio = 1 := hratio
  rw [executeProductionPhases, hplan]
  rfl

/-- **Moves in full.** When the ratio is one, consumption moves in full, and so does production
when it runs. -/
theorem executeProductionPhases_views_of_ratio (h : state.accumulators.Current)
    (hdistinct : input.Distinct)
    (hratio : (prepareConsumptionPhase system context input state).1.consumptionRatio = 1) :
    (∀ rate ∈ input.validProductions,
        (executeProductionPhases system context input state).view (input.key .produce rate) =
          (state.view (input.key .produce rate)).move system (input.delta rate)
            (if input.releases system state then 1 else 0)) ∧
      ∀ rate ∈ input.validConsumptions,
        (executeProductionPhases system context input state).view (input.key .consume rate) =
          (state.view (input.key .consume rate)).move system (input.delta rate) 1 := by
  have hoperation : ∀ r r', input.key .produce r ≠ input.key .consume r' := fun r r' hkey => by
    cases congrArg AccumulatorKey.operation hkey
  rw [executeProductionPhases_of_ratio system context input h hratio]
  constructor
  · intro rate hrate
    rw [foldl_executeConsumption_view_off system context input fun r => (hoperation rate r).symm]
    exact foldl_executeProduction_view system context input h
      (filter_resource_of_nodup hdistinct.productions hrate)
  · intro rate hrate
    refine foldl_executeConsumption_view system context input
      (filter_resource_of_nodup hdistinct.consumptions hrate) ?_
    exact foldl_executeProduction_view_off system context input h fun r => hoperation r rate

end IdleEngine
