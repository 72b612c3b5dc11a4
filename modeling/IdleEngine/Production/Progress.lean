import IdleEngine.Production.Deferred

/-!
# Ticks that nothing limits

When no consumption is limited, a tick moves each consumption accumulator in full, and each
production accumulator in full or not at all: production waits until consumption releases
something. So after `k` ticks an accumulator is where one tick of `k` times the length leaves it,
and only production may lag behind (`Progress.lag`).
-/

namespace IdleEngine

open AccumulatorView Threshold List

variable {sh : ContentShape} {n : ℕ} {options : ProgressionOptions sh} {σ : Type}

/-! ### The generators of a tick -/

namespace GeneratorProductionState

/-- A generator that a tick runs: some are owned, and it is not disabled. -/
def Active (generator : GeneratorProductionState) : Prop :=
  0 < generator.owned ∧ generator.enabled ≠ some false

instance (generator : GeneratorProductionState) : Decidable generator.Active :=
  inferInstanceAs (Decidable (_ ∧ _))

/-- What the phases are given for a generator. -/
def input (generator : GeneratorProductionState) (ids : Fin n → String) (tick : ProductionTick) :
    GeneratorPhaseInput n :=
  { generatorId := generator.id
    validProductions := validateRates ids generator.produces
    validConsumptions := validateRates ids generator.consumes
    effectiveOwned := generator.owned * tick.getMultiplier generator.id
    deltaSeconds := tick.deltaMs / 1000 }

end GeneratorProductionState

variable {generator : GeneratorProductionState}

theorem runGenerator_of_active (system : ProductionSystem) (context : PhaseContext σ n)
    (ids : Fin n → String) (tick : ProductionTick) (state : PhaseState options σ)
    (h : generator.Active) :
    runGenerator system context ids tick state generator =
      executeProductionPhases system context (generator.input ids tick) state := by
  rw [runGenerator, if_neg (not_le.mpr h.1), if_neg h.2]
  rfl

theorem runGenerator_of_not_active (system : ProductionSystem) (context : PhaseContext σ n)
    (ids : Fin n → String) (tick : ProductionTick) (state : PhaseState options σ)
    (h : ¬ generator.Active) :
    runGenerator system context ids tick state generator = state := by
  rw [runGenerator]
  split
  · rfl
  · next howned =>
    have hdisabled : generator.enabled = some false := by
      by_contra henabled
      exact h ⟨not_le.mp howned, henabled⟩
    rw [if_pos hdisabled]

/-- Generators with names of their own, each with at most one rate for a resource it produces or
consumes, and with multipliers that are not negative. Content is checked for the names and for
the rates. -/
structure ProductionTick.Regular (tick : ProductionTick) : Prop where
  generators : (tick.generators.map GeneratorProductionState.id).Nodup
  produces : ∀ generator ∈ tick.generators,
    (generator.produces.map GeneratorProductionRate.resourceId).Nodup
  consumes : ∀ generator ∈ tick.generators,
    (generator.consumes.map GeneratorProductionRate.resourceId).Nodup
  multiplier_nonneg : ∀ generator ∈ tick.generators, 0 ≤ tick.getMultiplier generator.id

theorem validateRates_sublist (ids : Fin n → String) (rates : List GeneratorProductionRate) :
    ((validateRates ids rates).map ValidatedRate.resourceId).Sublist
      (rates.map GeneratorProductionRate.resourceId) := by
  induction rates with
  | nil => exact List.Sublist.slnil
  | cons entry rates ih =>
    rw [validateRates, filterMap_cons]
    cases hvalid : validateRate ids entry with
    | none => exact ih.cons _
    | some rate =>
      have hsame : rate.resourceId = entry.resourceId := validateRate_resourceId hvalid
      rw [map_cons, map_cons, hsame]
      exact ih.cons_cons _

theorem ProductionTick.Regular.distinct {tick : ProductionTick} (h : tick.Regular)
    (ids : Fin n → String) (hmem : generator ∈ tick.generators) :
    (generator.input ids tick).Distinct where
  productions := (h.produces generator hmem).sublist (validateRates_sublist ids _)
  consumptions := (h.consumes generator hmem).sublist (validateRates_sublist ids _)

theorem validateRates_index {ids : Fin n → String} {rates : List GeneratorProductionRate}
    {rate : ValidatedRate n} (h : rate ∈ validateRates ids rates) :
    indexOfId ids rate.resourceId = some rate.index := by
  obtain ⟨entry, -, hvalid⟩ := mem_filterMap.mp h
  rw [validateRate] at hvalid
  split at hvalid
  · cases hvalid
  · split at hvalid
    · obtain ⟨i, hi, rfl⟩ := Option.map_eq_some_iff.mp hvalid
      exact hi
    · cases hvalid

/-! ### Ticks that nothing limits -/

/-- No generator of a list, from a state on, finds less of a resource than it would consume. -/
def UnlimitedFrom (system : ProductionSystem) (context : PhaseContext σ n) (ids : Fin n → String)
    (tick : ProductionTick) : List GeneratorProductionState → PhaseState options σ → Prop
  | [], _ => True
  | generator :: later, state =>
      (generator.Active → (prepareConsumptionPhase system context (generator.input ids tick)
        state).1.consumptionRatio = 1) ∧
      UnlimitedFrom system context ids tick later
        (runGenerator system context ids tick state generator)

instance UnlimitedFrom.decide (system : ProductionSystem) (context : PhaseContext σ n)
    (ids : Fin n → String) (tick : ProductionTick) :
    (l : List GeneratorProductionState) → (state : PhaseState options σ) →
      Decidable (UnlimitedFrom system context ids tick l state)
  | [], _ => instDecidableTrue
  | generator :: later, state =>
      have := UnlimitedFrom.decide system context ids tick later
        (runGenerator system context ids tick state generator)
      inferInstanceAs (Decidable (_ ∧ _))

section Loop

variable (system : ProductionSystem) (context : PhaseContext σ n) (ids : Fin n → String)
  (tick : ProductionTick)

variable {state : PhaseState options σ}

theorem runGenerator_current (h : state.accumulators.Current)
    (generator : GeneratorProductionState) :
    (runGenerator system context ids tick state generator).accumulators.Current := by
  by_cases hactive : generator.Active
  · rw [runGenerator_of_active system context ids tick state hactive]
    exact executeProductionPhases_current system context _ h
  · rw [runGenerator_of_not_active system context ids tick state hactive]
    exact h

theorem foldl_runGenerator_current (h : state.accumulators.Current)
    (l : List GeneratorProductionState) :
    (l.foldl (runGenerator system context ids tick) state).accumulators.Current :=
  foldlRecOn (motive := fun s : PhaseState options σ => s.accumulators.Current) l _ h
    fun _ hs generator _ => runGenerator_current system context ids tick hs generator

/-- **Frame.** Other generators leave an accumulator alone. -/
theorem foldl_runGenerator_view_off (h : state.accumulators.Current)
    {l : List GeneratorProductionState} {key : AccumulatorKey}
    (hkey : key.generatorId ∉ l.map GeneratorProductionState.id) :
    (l.foldl (runGenerator system context ids tick) state).view key = state.view key := by
  refine Overwrite.foldl_view_off (I := fun s : PhaseState options σ => s.accumulators.Current)
    (v := fun s : PhaseState options σ => s.view key)
    (fun s hs generator _ => runGenerator_current system context ids tick hs generator)
    (fun s hs generator hmem => ?_) h
  have hother : key.generatorId ≠ generator.id := by
    intro hsame
    exact hkey (mem_map.mpr ⟨generator, hmem, hsame.symm⟩)
  by_cases hactive : generator.Active
  · rw [runGenerator_of_active system context ids tick s hactive]
    exact executeProductionPhases_view_off system context _ hs hother
  · rw [runGenerator_of_not_active system context ids tick s hactive]

/-- The turn of one generator of the list. -/
theorem UnlimitedFrom.turn {before after : List GeneratorProductionState}
    {generator : GeneratorProductionState}
    (h : UnlimitedFrom system context ids tick (before ++ generator :: after) state)
    (hactive : generator.Active) :
    (prepareConsumptionPhase system context (generator.input ids tick)
      (before.foldl (runGenerator system context ids tick) state)).1.consumptionRatio = 1 := by
  induction before generalizing state with
  | nil => exact h.1 hactive
  | cons other before ih => exact ih h.2

/-- Whether production runs depends on the consumption accumulators only. -/
theorem GeneratorPhaseInput.releases_congr (input : GeneratorPhaseInput n)
    {state' : PhaseState options σ}
    (h : ∀ rate, state.view (input.key .consume rate) = state'.view (input.key .consume rate)) :
    input.releases system state = input.releases system state' := by
  unfold GeneratorPhaseInput.releases
  simp only [h]

/-- **Moves in a tick.** When nothing is limited, each generator moves its consumption
accumulators in full, and its production accumulators in full when it releases something. -/
theorem runGenerators_views (h : state.accumulators.Current) (hregular : tick.Regular)
    (hunlimited : UnlimitedFrom system context ids tick tick.generators state)
    {generator : GeneratorProductionState} (hmem : generator ∈ tick.generators)
    (hactive : generator.Active) :
    let input := generator.input ids tick
    let after := runGenerators system context ids tick state
    (∀ rate ∈ input.validProductions, after.view (input.key .produce rate) =
        (state.view (input.key .produce rate)).move system (input.delta rate)
          (if input.releases system state then 1 else 0)) ∧
      ∀ rate ∈ input.validConsumptions, after.view (input.key .consume rate) =
        (state.view (input.key .consume rate)).move system (input.delta rate) 1 := by
  intro input after
  obtain ⟨l, l', hsplit⟩ := append_of_mem hmem
  have hnodup := hregular.generators
  rw [hsplit, map_append, map_cons, nodup_append] at hnodup
  obtain ⟨-, hright, hdisjoint⟩ := hnodup
  have hbefore : generator.id ∉ l.map GeneratorProductionState.id := fun hin =>
    hdisjoint _ hin _ mem_cons_self rfl
  have hafter : generator.id ∉ l'.map GeneratorProductionState.id := (nodup_cons.mp hright).1
  -- the state in which the generator has its turn
  have hturn := foldl_runGenerator_current system context ids tick h l
  have hviews : ∀ operation rate,
      (l.foldl (runGenerator system context ids tick) state).view (input.key operation rate) =
        state.view (input.key operation rate) := fun operation rate =>
    foldl_runGenerator_view_off system context ids tick h hbefore
  have hrun : after = l'.foldl (runGenerator system context ids tick)
      (executeProductionPhases system context input
        (l.foldl (runGenerator system context ids tick) state)) := by
    change tick.generators.foldl _ state = _
    rw [hsplit, foldl_append, foldl_cons,
      runGenerator_of_active system context ids tick _ hactive]
  obtain ⟨hproduce, hconsume⟩ := executeProductionPhases_views_of_ratio system context input hturn
    (hregular.distinct ids hmem) ((hsplit ▸ hunlimited).turn system context ids tick hactive)
  have hlater : ∀ operation rate, after.view (input.key operation rate) =
      (executeProductionPhases system context input
        (l.foldl (runGenerator system context ids tick) state)).view (input.key operation rate) := by
    intro operation rate
    rw [hrun]
    exact foldl_runGenerator_view_off system context ids tick
      (executeProductionPhases_current system context input hturn) hafter
  constructor
  · intro rate hrate
    rw [hlater, hproduce rate hrate, hviews,
      GeneratorPhaseInput.releases_congr system input fun rate => hviews .consume rate]
  · intro rate hrate
    rw [hlater, hconsume rate hrate, hviews]

end Loop

/-! ### One accumulator after many ticks -/

/-- An accumulator that has grown in `k` ticks and been released in the first `j` of them. -/
def AccumulatorView.advance (system : ProductionSystem) (delta : ℚ) (k j : ℕ)
    (view : AccumulatorView) : AccumulatorView :=
  let released := Threshold.releasedAfter system.applyThreshold system.epsilon view.held delta j
  { held := view.held + k * delta - released, released := view.released + released }

section Advance

variable {system : ProductionSystem} {delta : ℚ} {view : AccumulatorView} {j k : ℕ}

theorem AccumulatorView.advance_zero : view.advance system delta 0 0 = view := by
  simp [advance, Threshold.releasedAfter]

/-- What the next tick would release. -/
theorem AccumulatorView.release_advance :
    Threshold.release system.applyThreshold system.epsilon
        ((view.advance system delta k j).held + delta) =
      Threshold.releasedAfter system.applyThreshold system.epsilon view.held delta (k + 1) -
        Threshold.releasedAfter system.applyThreshold system.epsilon view.held delta j := by
  have htotal : (view.advance system delta k j).held + delta = view.held + (k + 1) * delta -
      Threshold.releasedAfter system.applyThreshold system.epsilon view.held delta j := by
    simp only [advance]
    ring
  rw [htotal, release_sub_releasedAfter system.applyThreshold_pos,
    Threshold.releasedAfter]

theorem AccumulatorView.advance_move (hheld : -system.epsilon ≤ view.held) (hdelta : 0 ≤ delta)
    (hjk : j ≤ k) : (view.advance system delta k j).move system delta 1 =
      view.advance system delta (k + 1) (k + 1) := by
  have hmono := releasedAfter_mono system.applyThreshold_pos hheld hdelta
    (hjk.trans (Nat.le_succ k))
  simp only [move, release_advance, mul_one, max_eq_left (sub_nonneg.mpr hmono)]
  simp only [advance, AccumulatorView.mk.injEq]
  push_cast
  constructor
  · ring
  · ring

/-- A tick that does not release it. -/
theorem AccumulatorView.advance_wait : (view.advance system delta k j).move system delta 0 =
    view.advance system delta (k + 1) j := by
  simp only [move, mul_zero, max_self]
  simp only [advance, AccumulatorView.mk.injEq]
  push_cast
  constructor
  · ring
  · ring

end Advance

/-! ### One generator after many ticks -/

/-- The accumulators of a generator after `k` ticks that nothing limits, of which the one before
`j` was the last to run production. -/
structure Progress (system : ProductionSystem) (input : GeneratorPhaseInput n)
    (start now : AccumulatorKey → AccumulatorView) (k j : ℕ) : Prop where
  le : j ≤ k
  consumed : ∀ rate ∈ input.validConsumptions, now (input.key .consume rate) =
    (start (input.key .consume rate)).advance system (input.delta rate) k k
  produced : ∀ rate ∈ input.validProductions, now (input.key .produce rate) =
    (start (input.key .produce rate)).advance system (input.delta rate) k j
  /-- Since then nothing was consumed. -/
  idle : ∀ rate ∈ input.validConsumptions,
    Threshold.releasedAfter system.applyThreshold system.epsilon
        (start (input.key .consume rate)).held (input.delta rate) k =
      Threshold.releasedAfter system.applyThreshold system.epsilon
        (start (input.key .consume rate)).held (input.delta rate) j
  free : input.validConsumptions = [] → j = k
  /-- In that tick something was consumed, if anything is. -/
  opened : j = 0 ∨ input.validConsumptions = [] ∨ ∃ rate ∈ input.validConsumptions,
    0 < Threshold.releasedAfter system.applyThreshold system.epsilon
      (start (input.key .consume rate)).held (input.delta rate) j

section Progress

variable {system : ProductionSystem} {input : GeneratorPhaseInput n}
  {start now next : AccumulatorKey → AccumulatorView} {k j : ℕ}

theorem progress_start : Progress system input start start 0 0 where
  le := le_rfl
  consumed _ _ := advance_zero.symm
  produced _ _ := advance_zero.symm
  idle _ _ := rfl
  free _ := rfl
  opened := .inl rfl

/-- **Step lemma.** A tick moves consumption in full, and production too if it runs. -/
theorem Progress.tick (h : Progress system input start now k j)
    (hheld : ∀ key, -system.epsilon ≤ (start key).held) (hdelta : ∀ rate, 0 ≤ input.delta rate)
    {runs : Bool}
    (hruns : runs = (input.validConsumptions.isEmpty || input.validConsumptions.any fun rate =>
      decide (0 < Threshold.release system.applyThreshold system.epsilon
        ((now (input.key .consume rate)).held + input.delta rate))))
    (hconsume : ∀ rate ∈ input.validConsumptions, next (input.key .consume rate) =
      (now (input.key .consume rate)).move system (input.delta rate) 1)
    (hproduce : ∀ rate ∈ input.validProductions, next (input.key .produce rate) =
      (now (input.key .produce rate)).move system (input.delta rate) (if runs then 1 else 0)) :
    ∃ j', Progress system input start next (k + 1) j' := by
  have hconsumed : ∀ rate ∈ input.validConsumptions, next (input.key .consume rate) =
      (start (input.key .consume rate)).advance system (input.delta rate) (k + 1) (k + 1) := by
    intro rate hrate
    rw [hconsume rate hrate, h.consumed rate hrate]
    exact advance_move (hheld _) (hdelta rate) le_rfl
  -- what each consumption accumulator releases in this tick
  have hrelease : ∀ rate ∈ input.validConsumptions,
      Threshold.release system.applyThreshold system.epsilon
          ((now (input.key .consume rate)).held + input.delta rate) =
        Threshold.releasedAfter system.applyThreshold system.epsilon
            (start (input.key .consume rate)).held (input.delta rate) (k + 1) -
          Threshold.releasedAfter system.applyThreshold system.epsilon
            (start (input.key .consume rate)).held (input.delta rate) k := by
    intro rate hrate
    rw [h.consumed rate hrate, release_advance]
  cases hrun : runs with
  | true =>
    refine ⟨k + 1, le_rfl, hconsumed, fun rate hrate => ?_, fun _ _ => rfl, fun _ => rfl, .inr ?_⟩
    · rw [hproduce rate hrate, h.produced rate hrate, hrun]
      exact advance_move (hheld _) (hdelta rate) h.le
    · rw [hrun] at hruns
      rcases Bool.or_eq_true_iff.mp hruns.symm with hempty | hany
      · exact .inl (isEmpty_iff.mp hempty)
      · obtain ⟨rate, hrate, hpos⟩ := any_eq_true.mp hany
        have hpositive := of_decide_eq_true hpos
        rw [hrelease rate hrate] at hpositive
        have hnonneg := releasedAfter_mono system.applyThreshold_pos
          (hheld (input.key .consume rate)) (hdelta rate) (Nat.zero_le k)
        rw [Threshold.releasedAfter] at hnonneg
        exact .inr ⟨rate, hrate, by linarith⟩
  | false =>
    rw [hrun] at hruns
    obtain ⟨hsome, hnone⟩ := Bool.or_eq_false_iff.mp hruns.symm
    refine ⟨j, h.le.trans (Nat.le_succ k), hconsumed, fun rate hrate => ?_, fun rate hrate => ?_,
      fun hempty => ?_, h.opened⟩
    · rw [hproduce rate hrate, h.produced rate hrate, hrun]
      exact advance_wait
    · have hwaits := any_eq_false.mp hnone rate hrate
      rw [hrelease rate hrate, decide_eq_true_eq, not_lt] at hwaits
      have hmono := releasedAfter_mono system.applyThreshold_pos
        (hheld (input.key .consume rate)) (hdelta rate) (Nat.le_succ k)
      have hsame := le_antisymm (sub_nonpos.mp hwaits) hmono
      exact hsame.trans (h.idle rate hrate)
    · rw [hempty] at hsome
      cases hsome

end Progress

/-! ### Many ticks and a long one -/

/-- The input of a tick of `k` times the length. -/
def GeneratorPhaseInput.times (input : GeneratorPhaseInput n) (k : ℕ) : GeneratorPhaseInput n :=
  { input with deltaSeconds := k * input.deltaSeconds }

theorem GeneratorPhaseInput.times_delta (input : GeneratorPhaseInput n) (k : ℕ)
    (rate : ValidatedRate n) : (input.times k).delta rate = k * input.delta rate := by
  simp only [delta, times]
  ring

/-- How far production at the rate `p` may lag behind for the consumption it waits for. -/
def ProductionSystem.lag (system : ProductionSystem) (consumptions : List (ValidatedRate n))
    (p : ℚ) : ℚ :=
  match (consumptions.map ValidatedRate.rate).max? with
  | none => 0
  | some c => system.applyThreshold * (1 + p / c)

theorem ProductionSystem.lag_cases (system : ProductionSystem)
    (consumptions : List (ValidatedRate n)) (p : ℚ) :
    (consumptions = [] ∧ system.lag consumptions p = 0) ∨ ∃ rate ∈ consumptions,
      system.lag consumptions p = system.applyThreshold * (1 + p / rate.rate) := by
  rw [lag]
  cases hmax : (consumptions.map ValidatedRate.rate).max? with
  | none =>
    have hempty := max?_eq_none_iff.mp hmax
    exact .inl ⟨map_eq_nil_iff.mp hempty, rfl⟩
  | some c =>
    obtain ⟨rate, hrate, rfl⟩ := mem_map.mp (max?_mem hmax)
    exact .inr ⟨rate, hrate, rfl⟩

theorem ProductionSystem.lag_nonneg (system : ProductionSystem)
    (consumptions : List (ValidatedRate n)) {p : ℚ} (hp : 0 ≤ p) :
    0 ≤ system.lag consumptions p := by
  rcases system.lag_cases consumptions p with ⟨-, hlag⟩ | ⟨rate, -, hlag⟩
  · rw [hlag]
  · rw [hlag]
    have hweight : 0 ≤ p / rate.rate := div_nonneg hp rate.rate_pos.le
    exact mul_nonneg system.applyThreshold_pos.le (by linarith)

section Compare

variable {system : ProductionSystem} {input : GeneratorPhaseInput n}
  {start now long : AccumulatorKey → AccumulatorView} {k j j' : ℕ}

/-- The long tick releases of an accumulator what the many release of it. -/
theorem releasedAfter_times (system : ProductionSystem) (input : GeneratorPhaseInput n)
    (held : ℚ) (rate : ValidatedRate n) (hk : 0 < k) :
    Threshold.releasedAfter system.applyThreshold system.epsilon held ((input.times k).delta rate)
        1 =
      Threshold.releasedAfter system.applyThreshold system.epsilon held (input.delta rate) k := by
  rw [input.times_delta]
  exact releasedAfter_one_step _ _ hk

variable {rate : ValidatedRate n}

variable (h : Progress system input start now k j)
include h

theorem Progress.consumed_compare (hlong : Progress system (input.times k) start long 1 j')
    (hk : 0 < k) (hrate : rate ∈ input.validConsumptions) :
    (long (input.key .consume rate)).released = (now (input.key .consume rate)).released := by
  have hafter : long (input.key .consume rate) =
      (start (input.key .consume rate)).advance system ((input.times k).delta rate) 1 1 :=
    hlong.consumed rate hrate
  rw [hafter, h.consumed rate hrate]
  simp only [AccumulatorView.advance]
  rw [releasedAfter_times system input _ rate hk]

/-- Production has released less by what it would release now, if the long tick runs it. -/
theorem Progress.produced_compare (hlong : Progress system (input.times k) start long 1 1)
    (hk : 0 < k) (hrate : rate ∈ input.validProductions) :
    (long (input.key .produce rate)).released - (now (input.key .produce rate)).released =
      Threshold.releasedAfter system.applyThreshold system.epsilon
          (start (input.key .produce rate)).held (input.delta rate) k -
        Threshold.releasedAfter system.applyThreshold system.epsilon
          (start (input.key .produce rate)).held (input.delta rate) j := by
  have hafter : long (input.key .produce rate) =
      (start (input.key .produce rate)).advance system ((input.times k).delta rate) 1 1 :=
    hlong.produced rate hrate
  rw [hafter, h.produced rate hrate]
  simp only [AccumulatorView.advance]
  rw [releasedAfter_times system input _ rate hk, add_sub_add_left_eq_sub]

/-- When the long tick runs no production, the many have not run it either. -/
theorem Progress.never_ran (hlong : Progress system (input.times k) start long 1 0) (hk : 0 < k) :
    j = 0 := by
  rcases h.opened with hzero | hempty | ⟨rate, hrate, hpos⟩
  · exact hzero
  · exact absurd (hlong.free hempty) zero_ne_one
  · have hidle : Threshold.releasedAfter system.applyThreshold system.epsilon
        (start (input.key .consume rate)).held ((input.times k).delta rate) 1 = 0 :=
      hlong.idle rate hrate
    rw [releasedAfter_times system input _ rate hk, h.idle rate hrate] at hidle
    rw [hidle] at hpos
    exact absurd hpos (lt_irrefl 0)

/-- When the long tick runs production, so has one of the many. -/
theorem Progress.ran (hlong : Progress system (input.times k) start long 1 1) (hk : 0 < k) :
    0 < j := by
  rcases hlong.opened with hzero | hempty | ⟨rate, hrate, hpos⟩
  · exact absurd hzero one_ne_zero
  · rw [h.free hempty]
    exact hk
  · have hpos' : 0 < Threshold.releasedAfter system.applyThreshold system.epsilon
        (start (input.key .consume rate)).held ((input.times k).delta rate) 1 := hpos
    rw [releasedAfter_times system input _ rate hk, h.idle rate hrate] at hpos'
    refine Nat.pos_of_ne_zero fun hzero => ?_
    rw [hzero] at hpos'
    exact absurd hpos' (lt_irrefl 0)

/-- **Many ticks and a long one.** Production in the many ticks lags behind by what it may. -/
theorem Progress.lag (hlong : Progress system (input.times k) start long 1 j') (hk : 0 < k)
    (hheld : ∀ key, -system.epsilon ≤ (start key).held) (hdelta : ∀ rate, 0 ≤ input.delta rate)
    (hrate : rate ∈ input.validProductions) :
    0 ≤ (long (input.key .produce rate)).released - (now (input.key .produce rate)).released ∧
      (long (input.key .produce rate)).released - (now (input.key .produce rate)).released ≤
        system.lag input.validConsumptions rate.rate := by
  have hlag := system.lag_nonneg input.validConsumptions rate.rate_pos.le
  rcases Nat.le_one_iff_eq_zero_or_eq_one.mp hlong.le with rfl | rfl
  · have hafter : long (input.key .produce rate) =
        (start (input.key .produce rate)).advance system ((input.times k).delta rate) 1 0 :=
      hlong.produced rate hrate
    obtain rfl := h.never_ran hlong hk
    rw [hafter, h.produced rate hrate]
    simp only [AccumulatorView.advance, Threshold.releasedAfter, sub_self]
    exact ⟨le_rfl, hlag⟩
  · have hmono := releasedAfter_mono system.applyThreshold_pos
      (hheld (input.key .produce rate)) (hdelta rate) h.le
    rw [h.produced_compare hlong hk hrate]
    refine ⟨sub_nonneg.mpr hmono, ?_⟩
    rcases system.lag_cases input.validConsumptions rate.rate with ⟨hnone, -⟩ | ⟨c, hc, hbound⟩
    · -- without consumption production has run in every tick
      obtain rfl := h.free hnone
      rw [sub_self]
      exact hlag
    · have hidle := h.idle c hc
      rw [hbound]
      simp only [GeneratorPhaseInput.delta, mul_assoc] at hidle ⊢
      exact releasedAfter_lag system.applyThreshold_pos rate.rate_pos c.rate_pos _
        (h.ran hlong hk) h.le hidle

end Compare

end IdleEngine
