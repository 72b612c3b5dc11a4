import IdleEngine.Production.Progress

/-!
# Consumption against what is there

A production tick asks for its inputs with `spendConsumption`, which says whether it has spent. The
scale of a generator leaves every input at most what is available at that moment, and the
production in between takes nothing away, unless it adds to a resource that is above its capacity:
then the addition lowers the amount to the capacity. So every spending succeeds exactly as long as
the amounts are within capacity (`consumption_succeeds_iff`).
-/

namespace IdleEngine

open ResourceState List Function ShadowState GeneratorProductionRate

variable {sh : ContentShape} {n : ℕ} {options : ProgressionOptions sh} {σ : Type}

/-! ### What the spendings return -/

/-- A context that also remembers what each `spendConsumption` has returned. -/
def PhaseContext.logged (context : PhaseContext σ n) (succeeds : Fin n → ℚ → σ → Bool) :
    PhaseContext (σ × List Bool) n where
  getAmount s index := context.getAmount s.1 index
  addProduction index amount s := (context.addProduction index amount s.1, s.2)
  spendConsumption index amount s :=
    (context.spendConsumption index amount s.1, s.2 ++ [succeeds index amount s.1])

/-- What `spendConsumption` of the direct context returns. -/
def directSpends (index : Fin n) (amount : ℚ) (s : ResourceState n) : Bool :=
  (s.spendAmount index (.fin amount)).toOption.any Prod.fst

/-- What `spendConsumption` of the shadow context returns. -/
def shadowSpends (index : Fin n) (amount : ℚ) (shadow : ShadowState n) : Bool :=
  !decide (shadow.getAmount index < amount)

/-- What the calls of `spendConsumption` in `runTick` return, in order. -/
def ProductionSystem.spendResults (system : ProductionSystem) (tick : ProductionTick)
    (state : PhaseState options (ResourceState n)) : List Bool :=
  if system.applyViaFinalizeTick then
    if tick.deltaMs / 1000 ≤ 0 then []
    else
      (runGenerators system (shadowPhaseContext.logged shadowSpends) state.resources.ids tick
        { state with resources := (ShadowState.create state.resources, []) }).resources.2
  else
    (runGenerators system (directPhaseContext.logged directSpends) state.resources.ids tick
      { state with resources := (state.resources, []) }).resources.2

/-! ### Contexts that spend what is there -/

/-- A context whose spendings succeed when the amount is there. Adding to a resource that is
within its capacity does not lower it, and adding to one above it does. -/
structure PhaseContext.Lawful (context : PhaseContext σ n) (succeeds : Fin n → ℚ → σ → Bool)
    (valid : σ → Prop) (within : σ → Fin n → Prop) : Prop where
  getAmount_nonneg : ∀ {s}, valid s → ∀ i, 0 ≤ context.getAmount s i
  add_valid : ∀ {s}, valid s → ∀ i {x : ℚ}, 0 < x → valid (context.addProduction i x s)
  add_within : ∀ {s}, valid s → ∀ i {x : ℚ}, 0 < x → ∀ {j}, within s j →
    within (context.addProduction i x s) j
  add_of_ne : ∀ {s}, valid s → ∀ {i j} {x : ℚ}, 0 < x → j ≠ i →
    context.getAmount (context.addProduction i x s) j = context.getAmount s j
  le_add : ∀ {s}, valid s → ∀ {i} {x : ℚ}, 0 < x → within s i →
    context.getAmount s i ≤ context.getAmount (context.addProduction i x s) i
  add_lt : ∀ {s}, valid s → ∀ {i} {x : ℚ}, 0 < x → ¬ within s i →
    context.getAmount (context.addProduction i x s) i < context.getAmount s i
  spend_valid : ∀ {s}, valid s → ∀ i {x : ℚ}, 0 < x → valid (context.spendConsumption i x s)
  spend_within : ∀ {s}, valid s → ∀ i {x : ℚ}, 0 < x → ∀ {j}, within s j →
    within (context.spendConsumption i x s) j
  spend_of_ne : ∀ {s}, valid s → ∀ {i j} {x : ℚ}, 0 < x → j ≠ i →
    context.getAmount (context.spendConsumption i x s) j = context.getAmount s j
  succeeds_iff : ∀ {s}, valid s → ∀ i {x : ℚ}, 0 < x →
    (succeeds i x s = true ↔ x ≤ context.getAmount s i)

/-! ### The plan of a generator -/

theorem mul_clampRatio01_le {toApply ratio available : ℚ} (havailable : 0 ≤ available)
    (h : 0 < toApply → toApply * ratio ≤ available) : toApply * clampRatio01 ratio ≤ available := by
  rcases le_or_gt toApply 0 with hzero | hpos
  · exact (mul_nonpos_of_nonpos_of_nonneg hzero (clampRatio01_nonneg ratio)).trans havailable
  · rcases le_or_gt ratio 0 with hratio | hratio
    · have hclamp : clampRatio01 ratio = 0 := by
        rw [clampRatio01, max_eq_left hratio, min_eq_right zero_le_one]
      rw [hclamp, mul_zero]
      exact havailable
    · have hclamp : clampRatio01 ratio ≤ ratio := by
        rw [clampRatio01, max_eq_right hratio.le]
        exact min_le_right 1 ratio
      exact (mul_le_mul_of_nonneg_left hclamp hpos.le).trans (h hpos)

section Plan

variable (system : ProductionSystem) (context : PhaseContext σ n) (input : GeneratorPhaseInput n)

/-- The plan lists the consumed resources in order, and the ratio leaves of each at most what is
available. Looking does not touch the resources. -/
theorem foldl_prepareConsumption_bound (rates : List (ValidatedRate n)) (plan : ConsumptionPlan n)
    (state : PhaseState options σ)
    (hplan : ∀ entry ∈ plan.consumptionAccumulators, 0 < entry.2.toApply →
      entry.2.toApply * plan.consumptionRatio ≤ context.getAmount state.resources entry.1) :
    let prepared := rates.foldl (prepareConsumption system context input) (plan, state)
    prepared.2.resources = state.resources ∧
      prepared.1.consumptionAccumulators.map Prod.fst =
        plan.consumptionAccumulators.map Prod.fst ++ rates.map ValidatedRate.index ∧
      ∀ entry ∈ prepared.1.consumptionAccumulators, 0 < entry.2.toApply →
        entry.2.toApply * prepared.1.consumptionRatio ≤
          context.getAmount state.resources entry.1 := by
  induction rates generalizing plan state with
  | nil => exact ⟨rfl, (append_nil _).symm, hplan⟩
  | cons rate rates ih =>
    obtain ⟨hresources, hlist, hstep⟩ :
        (prepareConsumption system context input (plan, state) rate).2.resources =
            state.resources ∧
          (prepareConsumption system context input (plan, state) rate).1.consumptionAccumulators.map
            Prod.fst = plan.consumptionAccumulators.map Prod.fst ++ [rate.index] ∧
          ∀ entry ∈ (prepareConsumption system context input (plan,
            state) rate).1.consumptionAccumulators, 0 < entry.2.toApply →
            entry.2.toApply *
              (prepareConsumption system context input (plan, state) rate).1.consumptionRatio ≤
              context.getAmount state.resources entry.1 := by
      rw [prepareConsumption]
      simp only
      split
      · next hnone =>
        refine ⟨rfl, by simp, fun entry hentry hpos => ?_⟩
        rcases mem_append.mp hentry with hold | hnew
        · exact hplan entry hold hpos
        · rw [mem_singleton.mp hnew] at hpos
          exact absurd hpos (not_lt.mpr hnone)
      · next hsome =>
        have hpos := not_le.mp hsome
        refine ⟨rfl, by simp, fun entry hentry hentryPos => ?_⟩
        rcases mem_append.mp hentry with hold | hnew
        · -- the ratio has only gone down since the entry was made
          refine le_trans (mul_le_mul_of_nonneg_left ?_ hentryPos.le) (hplan entry hold hentryPos)
          exact (min_le_left _ _).trans (min_le_left _ _)
        · rw [mem_singleton.mp hnew]
          refine le_trans (mul_le_mul_of_nonneg_left (min_le_right _ _) hpos.le) ?_
          rw [mul_div_cancel₀ _ hpos.ne']
    obtain ⟨hresources', hlist', hbound⟩ := ih
      (prepareConsumption system context input (plan, state) rate).1
      (prepareConsumption system context input (plan, state) rate).2 (by rwa [hresources])
    rw [hresources] at hresources' hbound
    refine ⟨hresources', ?_, hbound⟩
    rw [foldl_cons, map_cons, hlist', hlist, append_assoc, singleton_append]

/-- What the plan of a generator asks for is there. -/
theorem prepareConsumptionPhase_bound (state : PhaseState options σ)
    (hamount : ∀ i, 0 ≤ context.getAmount state.resources i) :
    let prepared := prepareConsumptionPhase system context input state
    prepared.2.resources = state.resources ∧
      prepared.1.consumptionAccumulators.map Prod.fst =
        input.validConsumptions.map ValidatedRate.index ∧
      ∀ entry ∈ prepared.1.consumptionAccumulators,
        entry.2.toApply * prepared.1.consumptionRatio ≤
          context.getAmount state.resources entry.1 := by
  obtain ⟨hresources, hlist, hbound⟩ := foldl_prepareConsumption_bound system context input
    input.validConsumptions
    { consumptionAccumulators := []
      consumptionRatio := 1
      willApplyProduction := input.validConsumptions.isEmpty } state
    (fun _ h => (not_mem_nil h).elim)
  exact ⟨hresources, hlist, fun entry hentry =>
    mul_clampRatio01_le (hamount entry.1) (hbound entry hentry)⟩

end Plan

/-! ### Consumed resources -/

/-- A resource that a generator both produces and consumes. -/
def GeneratorProductionState.OwnInput (generator : GeneratorProductionState) (ids : Fin n → String)
    (i : Fin n) : Prop :=
  (∃ p ∈ validateRates ids generator.produces, p.index = i) ∧
    ∃ c ∈ validateRates ids generator.consumes, c.index = i

theorem validateRates_index_nodup (ids : Fin n → String) {rates : List GeneratorProductionRate}
    (h : (rates.map resourceId).Nodup) :
    ((validateRates ids rates).map ValidatedRate.index).Nodup := by
  have hids : (validateRates ids rates).map ValidatedRate.resourceId =
      ((validateRates ids rates).map ValidatedRate.index).map ids := by
    rw [map_map]
    refine map_congr_left fun rate hrate => ?_
    have hfound : ids rate.index = rate.resourceId := by
      simpa using find?_some (validateRates_index hrate)
    exact hfound.symm
  have hnodup := h.sublist (validateRates_sublist ids rates)
  rw [hids] at hnodup
  exact hnodup.of_map

/-! ### The turn of a generator -/

section Turn

variable {context : PhaseContext σ n} {succeeds : Fin n → ℚ → σ → Bool} {valid : σ → Prop}
  {within : σ → Fin n → Prop} (h : context.Lawful succeeds valid within)
  (system : ProductionSystem) (input : GeneratorPhaseInput n)

include h

/-- Production keeps what is within capacity there, logs nothing, and takes nothing of a resource
that it does not produce or that is within its capacity. -/
theorem foldl_executeProduction_le (scale : ℚ) (rates : List (ValidatedRate n))
    (state : PhaseState options (σ × List Bool)) (hvalid : valid state.resources.1) :
    let produced := rates.foldl (executeProduction system (context.logged succeeds) input scale)
      state
    valid produced.resources.1 ∧ produced.resources.2 = state.resources.2 ∧
      (∀ j, within state.resources.1 j → within produced.resources.1 j) ∧
      ∀ j, (∀ rate ∈ rates, rate.index = j → within state.resources.1 j) →
        context.getAmount state.resources.1 j ≤ context.getAmount produced.resources.1 j := by
  induction rates generalizing state with
  | nil => exact ⟨hvalid, rfl, fun _ hj => hj, fun _ _ => le_refl _⟩
  | cons rate rates ih =>
    obtain ⟨hvalid', hlog, hwithin, hamount⟩ :
        valid (executeProduction system (context.logged succeeds) input scale state
            rate).resources.1 ∧
          (executeProduction system (context.logged succeeds) input scale state
            rate).resources.2 = state.resources.2 ∧
          (∀ j, within state.resources.1 j →
            within (executeProduction system (context.logged succeeds) input scale state
              rate).resources.1 j) ∧
          ∀ j, (rate.index = j → within state.resources.1 j) →
            context.getAmount state.resources.1 j ≤
              context.getAmount (executeProduction system (context.logged succeeds) input scale
                state rate).resources.1 j := by
      rw [executeProduction]
      simp only
      split
      · exact ⟨hvalid, rfl, fun _ hj => hj, fun _ _ => le_refl _⟩
      · next hsome =>
        have hpos := not_le.mp hsome
        refine ⟨h.add_valid hvalid _ hpos, rfl, fun j => h.add_within hvalid _ hpos,
          fun j hj => ?_⟩
        by_cases hij : rate.index = j
        · subst hij
          exact h.le_add hvalid hpos (hj rfl)
        · exact (h.add_of_ne hvalid hpos (Ne.symm hij)).ge
    obtain ⟨hvalid'', hlog', hwithin', hamount'⟩ := ih _ hvalid'
    refine ⟨hvalid'', hlog'.trans hlog, fun j hj => hwithin' j (hwithin j hj), fun j hj => ?_⟩
    refine (hamount j fun hij => hj rate mem_cons_self hij).trans (hamount' j ?_)
    exact fun other hother hij => hwithin j (hj other (mem_cons_of_mem _ hother) hij)

/-- Consumption of distinct resources that are all there succeeds. -/
theorem foldl_executeConsumption_succeeds (ratio : ℚ) (entries : List (Fin n × AccumulatorResult))
    (hdistinct : (entries.map Prod.fst).Nodup) (state : PhaseState options (σ × List Bool))
    (hvalid : valid state.resources.1)
    (hthere : ∀ entry ∈ entries, entry.2.toApply * ratio ≤
      context.getAmount state.resources.1 entry.1)
    (hlog : ∀ done ∈ state.resources.2, done = true) :
    let consumed := entries.foldl (executeConsumption (context.logged succeeds) ratio) state
    valid consumed.resources.1 ∧
      (∀ j, within state.resources.1 j → within consumed.resources.1 j) ∧
      ∀ done ∈ consumed.resources.2, done = true := by
  induction entries generalizing state with
  | nil => exact ⟨hvalid, fun _ hj => hj, hlog⟩
  | cons entry entries ih =>
    obtain ⟨hnew, hdistinct'⟩ := nodup_cons.mp hdistinct
    obtain ⟨hvalid', hwithin, hlog', hamount⟩ :
        valid (executeConsumption (context.logged succeeds) ratio state entry).resources.1 ∧
          (∀ j, within state.resources.1 j →
            within (executeConsumption (context.logged succeeds) ratio state entry).resources.1
              j) ∧
          (∀ done ∈ (executeConsumption (context.logged succeeds) ratio state entry).resources.2,
            done = true) ∧
          ∀ j, j ≠ entry.1 →
            context.getAmount (executeConsumption (context.logged succeeds) ratio state
              entry).resources.1 j = context.getAmount state.resources.1 j := by
      rw [executeConsumption]
      simp only
      split
      · exact ⟨hvalid, fun _ hj => hj, hlog, fun _ _ => rfl⟩
      · next hsome =>
        have hpos := not_le.mp hsome
        refine ⟨h.spend_valid hvalid _ hpos, fun j => h.spend_within hvalid _ hpos, ?_,
          fun j => h.spend_of_ne hvalid hpos⟩
        intro done hdone
        rcases mem_append.mp hdone with hold | hlast
        · exact hlog done hold
        · rw [mem_singleton.mp hlast]
          exact (h.succeeds_iff hvalid _ hpos).mpr (hthere entry mem_cons_self)
    -- the other entries are of other resources
    have hthere' : ∀ other ∈ entries, other.2.toApply * ratio ≤
        context.getAmount (executeConsumption (context.logged succeeds) ratio state
          entry).resources.1 other.1 := by
      intro other hother
      rw [hamount other.1 fun heq => hnew (heq ▸ mem_map_of_mem hother)]
      exact hthere other (mem_cons_of_mem _ hother)
    obtain ⟨hvalid'', hwithin', hlog''⟩ := ih hdistinct' _ hvalid' hthere' hlog'
    exact ⟨hvalid'', fun j hj => hwithin' j (hwithin j hj), hlog''⟩

/-- **The turn of a generator.** Its spendings succeed when every resource that it both consumes and
produces is within capacity. -/
theorem executeProductionPhases_succeeds
    (hdistinct : (input.validConsumptions.map ValidatedRate.index).Nodup)
    (state : PhaseState options (σ × List Bool)) (hvalid : valid state.resources.1)
    (hown : ∀ c ∈ input.validConsumptions, ∀ p ∈ input.validProductions, p.index = c.index →
      within state.resources.1 c.index)
    (hlog : ∀ done ∈ state.resources.2, done = true) :
    let turn := executeProductionPhases system (context.logged succeeds) input state
    valid turn.resources.1 ∧
      (∀ j, within state.resources.1 j → within turn.resources.1 j) ∧
      ∀ done ∈ turn.resources.2, done = true := by
  obtain ⟨hresources, hlist, hbound⟩ := prepareConsumptionPhase_bound system
    (context.logged succeeds) input state fun i => h.getAmount_nonneg hvalid i
  rw [executeProductionPhases]
  simp only
  generalize prepareConsumptionPhase system (context.logged succeeds) input state = prepared at *
  obtain ⟨plan, looked⟩ := prepared
  dsimp only at hresources hlist hbound ⊢
  rw [← hresources] at hvalid hown hlog hbound ⊢
  rw [executeProductionPhase, executeConsumptionPhase]
  obtain ⟨hvalid', hlog', hwithin, hamount⟩ := foldl_executeProduction_le h system input
    (if plan.willApplyProduction then plan.consumptionRatio else 0) input.validProductions looked
    hvalid
  have hthere : ∀ entry ∈ plan.consumptionAccumulators,
      entry.2.toApply * plan.consumptionRatio ≤
        context.getAmount (input.validProductions.foldl (executeProduction system
          (context.logged succeeds) input
          (if plan.willApplyProduction then plan.consumptionRatio else 0)) looked).resources.1
          entry.1 := by
    intro entry hentry
    have hmem : entry.1 ∈ input.validConsumptions.map ValidatedRate.index :=
      hlist ▸ mem_map_of_mem hentry
    obtain ⟨c, hc, hindex⟩ := mem_map.mp hmem
    refine (hbound entry hentry).trans (hamount entry.1 fun p hp hpi => ?_)
    rw [← hindex]
    exact hown c hc p hp (hpi.trans hindex.symm)
  obtain ⟨hvalid'', hwithin', hlog''⟩ := foldl_executeConsumption_succeeds h
    plan.consumptionRatio plan.consumptionAccumulators (hlist ▸ hdistinct) _ hvalid' hthere
    (hlog' ▸ hlog)
  exact ⟨hvalid'', fun j hj => hwithin' j (hwithin j hj), hlog''⟩

/-- **A run of generators.** Every spending succeeds when each resource that an active generator
both consumes and produces is within capacity at the start. -/
theorem runGenerators_succeeds (ids : Fin n → String) (tick : ProductionTick)
    (hconsumes : ∀ generator ∈ tick.generators,
      (generator.consumes.map resourceId).Nodup)
    (state : PhaseState options (σ × List Bool)) (hvalid : valid state.resources.1)
    (hown : ∀ generator ∈ tick.generators, generator.Active → ∀ i, generator.OwnInput ids i →
      within state.resources.1 i)
    (hlog : ∀ done ∈ state.resources.2, done = true) :
    let run := runGenerators system (context.logged succeeds) ids tick state
    valid run.resources.1 ∧ ∀ done ∈ run.resources.2, done = true := by
  rw [runGenerators]
  -- the turns keep what is within capacity there, so the condition holds at every turn
  suffices hloop : ∀ generators : List GeneratorProductionState,
      (∀ generator ∈ generators, generator ∈ tick.generators) →
      ∀ state : PhaseState options (σ × List Bool), valid state.resources.1 →
      (∀ generator ∈ generators, generator.Active → ∀ i, generator.OwnInput ids i →
        within state.resources.1 i) →
      (∀ done ∈ state.resources.2, done = true) →
      valid (generators.foldl (runGenerator system (context.logged succeeds) ids tick)
        state).resources.1 ∧
      ∀ done ∈ (generators.foldl (runGenerator system (context.logged succeeds) ids tick)
        state).resources.2, done = true from
    hloop tick.generators (fun _ hg => hg) state hvalid hown hlog
  intro generators hsub
  induction generators with
  | nil => exact fun state hvalid _ hlog => ⟨hvalid, hlog⟩
  | cons generator generators ih =>
    intro state hvalid hown hlog
    have hmem := hsub generator mem_cons_self
    rw [foldl_cons]
    by_cases hactive : generator.Active
    · rw [runGenerator_of_active system _ ids tick state hactive]
      obtain ⟨hvalid', hwithin, hlog'⟩ := executeProductionPhases_succeeds h system
        (generator.input ids tick) (validateRates_index_nodup ids (hconsumes generator hmem)) state
        hvalid (fun c hc p hp heq => hown generator mem_cons_self hactive c.index
          ⟨⟨p, hp, heq⟩, c, hc, rfl⟩) hlog
      exact ih (fun g hg => hsub g (mem_cons_of_mem _ hg)) _ hvalid'
        (fun g hg ha i hi => hwithin i (hown g (mem_cons_of_mem _ hg) ha i hi)) hlog'
    · rw [runGenerator_of_not_active system _ ids tick state hactive]
      exact ih (fun g hg => hsub g (mem_cons_of_mem _ hg)) state hvalid
        (fun g hg => hown g (mem_cons_of_mem _ hg)) hlog

end Turn

/-! ### The two contexts -/

/-- A context whose states are read as a table of amounts and capacities. -/
structure PhaseContext.Reads (context : PhaseContext σ n) (succeeds : Fin n → ℚ → σ → Bool)
    (capacity : σ → Fin n → WithTop ℚ) : Prop where
  add_amount : ∀ s i {x : ℚ}, 0 < x → 0 ≤ context.getAmount s i →
    context.getAmount (context.addProduction i x s) =
      Function.update (context.getAmount s) i
        (clampToCapacity (context.getAmount s i + x) (capacity s i))
  add_capacity : ∀ s i {x : ℚ}, 0 < x → capacity (context.addProduction i x s) = capacity s
  spend_amount : ∀ s i {x : ℚ}, 0 < x →
    (x ≤ context.getAmount s i ∧ succeeds i x s = true ∧
        context.getAmount (context.spendConsumption i x s) =
          Function.update (context.getAmount s) i (context.getAmount s i - x)) ∨
      (¬ x ≤ context.getAmount s i ∧ succeeds i x s = false ∧
        context.getAmount (context.spendConsumption i x s) = context.getAmount s)
  spend_capacity : ∀ s i {x : ℚ}, 0 < x → capacity (context.spendConsumption i x s) = capacity s

namespace PhaseContext

/-- Amounts and capacities from zero up. -/
def Nonneg (context : PhaseContext σ n) (capacity : σ → Fin n → WithTop ℚ) (s : σ) : Prop :=
  ∀ i, 0 ≤ context.getAmount s i ∧ 0 ≤ capacity s i

/-- An amount within its capacity. -/
def Within (context : PhaseContext σ n) (capacity : σ → Fin n → WithTop ℚ) (s : σ) (i : Fin n) :
    Prop :=
  (context.getAmount s i : WithTop ℚ) ≤ capacity s i

theorem Reads.lawful {context : PhaseContext σ n} {succeeds : Fin n → ℚ → σ → Bool}
    {capacity : σ → Fin n → WithTop ℚ} (h : context.Reads succeeds capacity) :
    context.Lawful succeeds (context.Nonneg capacity) (context.Within capacity) where
  getAmount_nonneg hs i := (hs i).1
  add_valid {s} hs i x hx j := by
    rw [h.add_amount s i hx (hs i).1, h.add_capacity s i hx]
    by_cases hij : j = i
    · subst hij
      rw [update_self]
      exact ⟨clampToCapacity_nonneg (add_nonneg (hs j).1 hx.le) (hs j).2, (hs j).2⟩
    · rw [update_of_ne hij]
      exact hs j
  add_within {s} hs i x hx j hj := by
    rw [Within, h.add_amount s i hx (hs i).1, h.add_capacity s i hx]
    by_cases hij : j = i
    · subst hij
      rw [update_self]
      exact clampToCapacity_le_capacity _ _
    · rw [update_of_ne hij]
      exact hj
  add_of_ne {s} hs i j x hx hij := by
    rw [h.add_amount s i hx (hs i).1, update_of_ne hij]
  le_add {s} hs i x hx hi := by
    rw [h.add_amount s i hx (hs i).1, update_self]
    exact le_clampToCapacity (le_add_of_nonneg_right hx.le) hi
  -- an amount above its capacity is cut back by any addition
  add_lt {s} hs i x hx hi := by
    rw [h.add_amount s i hx (hs i).1, update_self]
    exact WithTop.coe_lt_coe.mp
      (lt_of_le_of_lt (clampToCapacity_le_capacity _ _) (not_le.mp hi))
  spend_valid {s} hs i x hx j := by
    rw [h.spend_capacity s i hx]
    obtain ⟨hle, -, hamount⟩ | ⟨-, -, hamount⟩ := h.spend_amount s i hx
    · rw [hamount]
      by_cases hij : j = i
      · subst hij
        rw [update_self]
        exact ⟨sub_nonneg.mpr hle, (hs j).2⟩
      · rw [update_of_ne hij]
        exact hs j
    · rw [hamount]
      exact hs j
  spend_within {s} _ i x hx j hj := by
    rw [Within, h.spend_capacity s i hx]
    obtain ⟨-, -, hamount⟩ | ⟨-, -, hamount⟩ := h.spend_amount s i hx
    · rw [hamount]
      by_cases hij : j = i
      · subst hij
        rw [update_self]
        refine le_trans ?_ hj
        exact_mod_cast sub_le_self _ hx.le
      · rw [update_of_ne hij]
        exact hj
    · rw [hamount]
      exact hj
  spend_of_ne {s} _ i j x hx hij := by
    obtain ⟨-, -, hamount⟩ | ⟨-, -, hamount⟩ := h.spend_amount s i hx
    · rw [hamount, update_of_ne hij]
    · rw [hamount]
  succeeds_iff {s} _ i x hx := by
    obtain ⟨hle, hdone, -⟩ | ⟨hle, hdone, -⟩ := h.spend_amount s i hx
    · exact ⟨fun _ => hle, fun _ => hdone⟩
    · exact ⟨fun hs => absurd (hs.symm.trans hdone) (by decide), fun hs => absurd hs hle⟩

end PhaseContext

theorem directPhaseContext_spend (s : ResourceState n) (i : Fin n) {x : ℚ} (hx : 0 < x) :
    (x ≤ (s.stored i).amount ∧ directSpends i x s = true ∧
        (directPhaseContext.spendConsumption i x s).stored =
          update s.stored i { s.stored i with amount := (s.stored i).amount - x }) ∨
      (¬ x ≤ (s.stored i).amount ∧ directSpends i x s = false ∧
        (directPhaseContext.spendConsumption i x s).stored = s.stored) := by
  have hamount : (s.live i).amount = (s.stored i).amount := rfl
  simp only [directPhaseContext, directSpends, ResourceState.spendAmount, JsNumber.finite?,
    if_neg (not_lt.mpr hx.le), if_neg hx.ne', hamount]
  split
  · next hshort => exact .inr ⟨not_le.mpr hshort, rfl, rfl⟩
  · next henough =>
    refine .inl ⟨not_lt.mp henough, rfl, ?_⟩
    change ((s.writeField RowField.amount i _).accumulateTickDelta i _).stored = _
    rw [accumulateTickDelta_stored, writeAmount_stored]

theorem directPhaseContext_reads : (directPhaseContext (n := n)).Reads directSpends
    fun s i => (s.stored i).capacity where
  add_amount s i x hx _ := by
    change (fun j => ((s.after (s.addAmount i (.fin x))).stored j).amount) = _
    rw [after_addAmount s i hx, addPositive_stored]
    exact comp_update StoredResource.amount s.stored i _
  add_capacity s i x hx := by
    change (fun j => ((s.after (s.addAmount i (.fin x))).stored j).capacity) = _
    rw [after_addAmount s i hx, addPositive_stored]
    exact (comp_update StoredResource.capacity s.stored i _).trans
      (update_eq_self i _)
  spend_amount s i x hx := by
    obtain ⟨hle, hdone, hstored⟩ | ⟨hle, hdone, hstored⟩ := directPhaseContext_spend s i hx
    · refine .inl ⟨hle, hdone, ?_⟩
      change (fun j => ((directPhaseContext.spendConsumption i x s).stored j).amount) = _
      rw [hstored]
      exact comp_update StoredResource.amount s.stored i _
    · refine .inr ⟨hle, hdone, ?_⟩
      change (fun j => ((directPhaseContext.spendConsumption i x s).stored j).amount) = _
      rw [hstored]
      rfl
  spend_capacity s i x hx := by
    obtain ⟨-, -, hstored⟩ | ⟨-, -, hstored⟩ := directPhaseContext_spend s i hx
    · rw [hstored]
      exact (comp_update StoredResource.capacity s.stored i _).trans
        (update_eq_self i _)
    · rw [hstored]

namespace ShadowState

variable (shadow : ShadowState n) (i : Fin n)

theorem recordIncome_reads (amount : ℚ) :
    (shadow.recordIncome i amount).getAmount = shadow.getAmount ∧
      (shadow.recordIncome i amount).getCapacity = shadow.getCapacity := by
  rw [recordIncome]
  split <;> exact ⟨rfl, rfl⟩

theorem recordExpense_reads (amount : ℚ) :
    (shadow.recordExpense i amount).getAmount = shadow.getAmount ∧
      (shadow.recordExpense i amount).getCapacity = shadow.getCapacity := by
  rw [recordExpense]
  split <;> exact ⟨rfl, rfl⟩

theorem addAmount_reads (amount : ℚ) :
    (shadow.addAmount i amount).getAmount = update shadow.getAmount i
        (ResourceState.clampAmount (shadow.getAmount i + amount) (shadow.getCapacity i)) ∧
      (shadow.addAmount i amount).getCapacity = shadow.getCapacity := by
  rw [addAmount]
  split
  · rw [(recordIncome_reads _ i _).1, (recordIncome_reads _ i _).2]
    exact ⟨shadow.put_getAmount i _, rfl⟩
  · exact ⟨shadow.put_getAmount i _, rfl⟩

theorem spendAmount_reads {amount : ℚ} (h : amount ≤ shadow.getAmount i) :
    (shadow.spendAmount i amount).getAmount =
        update shadow.getAmount i (shadow.getAmount i - amount) ∧
      (shadow.spendAmount i amount).getCapacity = shadow.getCapacity := by
  have hspend : shadow.spendAmount i amount =
      (shadow.put i (shadow.getAmount i - amount)).recordExpense i amount := if_neg (not_lt.mpr h)
  rw [hspend, (recordExpense_reads _ i _).1, (recordExpense_reads _ i _).2]
  exact ⟨shadow.put_getAmount i _, rfl⟩

end ShadowState

theorem shadowPhaseContext_reads : (shadowPhaseContext (n := n)).Reads shadowSpends
    getCapacity where
  add_amount shadow i x hx hamount := by
    have hnonneg : ¬ shadow.getAmount i + x < 0 := not_lt.mpr (add_nonneg hamount hx.le)
    refine (shadow.addAmount_reads i x).1.trans ?_
    rw [ResourceState.clampAmount, if_neg hnonneg]
    rfl
  add_capacity shadow i x _ := (shadow.addAmount_reads i x).2
  spend_amount shadow i x _ := by
    by_cases hle : x ≤ shadow.getAmount i
    · exact .inl ⟨hle, by simp [shadowSpends, hle], (shadow.spendAmount_reads i hle).1⟩
    · have hshort := not_le.mp hle
      refine .inr ⟨hle, by simp [shadowSpends, hshort], ?_⟩
      change (shadow.spendAmount i x).getAmount = _
      rw [ShadowState.spendAmount]
      simp only [if_pos hshort]
      rfl
  spend_capacity shadow i x _ := by
    change (shadow.spendAmount i x).getCapacity = _
    by_cases hle : x ≤ shadow.getAmount i
    · exact (shadow.spendAmount_reads i hle).2
    · rw [ShadowState.spendAmount]
      simp only [if_pos (not_le.mp hle)]

variable {s : ResourceState n}

theorem create_reads (hcapacity : ∀ i, 0 ≤ (s.stored i).capacity) :
    (create s).getAmount = (fun i => (s.stored i).amount) ∧
      (create s).getCapacity = fun i => (s.stored i).capacity := by
  have horigin : (create s).resourceState = s := rfl
  refine ⟨rfl, funext fun i => ?_⟩
  have hnonneg : 0 ≤ (s.live i).capacity := hcapacity i
  have hsame : (s.stored i).capacity = (s.live i).capacity := rfl
  rw [getCapacity, horigin, hsame]
  cases hc : (s.live i).capacity with
  | top => rfl
  | coe c =>
    rw [hc] at hnonneg
    have hc0 : ¬ c < 0 := not_lt.mpr (by exact_mod_cast hnonneg)
    exact if_neg hc0

/-! ### A resource above its capacity -/

theorem release_unit {unit slack : ℚ} (hunit : 0 < unit) (hslack : 0 ≤ slack)
    (hsmall : slack < unit) : Threshold.release unit slack unit = unit := by
  have hfloor : ⌊(unit + slack) / unit⌋ = 1 := by
    rw [Int.floor_eq_iff]
    constructor
    · rw [le_div_iff₀ hunit]
      push_cast
      linarith
    · rw [div_lt_iff₀ hunit]
      push_cast
      linarith
  rw [Threshold.release, hfloor]
  push_cast
  ring

/-- A system that applies whole multiples of an amount. -/
def wholeAmounts (amount : ℚ) (hamount : 0 < amount) (applyViaFinalizeTick : Bool) :
    ProductionSystem where
  applyThreshold := amount
  applyThreshold_pos := hamount
  trackRates := false
  applyViaFinalizeTick := applyViaFinalizeTick

/-- A second of one generator that turns an amount of a resource over. -/
def turnover (resourceId : String) (amount : ℚ) : ProductionTick where
  generators :=
    [{ id := "mill"
       owned := 1
       enabled := none
       produces := [{ resourceId, rate := .fin amount }]
       consumes := [{ resourceId, rate := .fin amount }] }]
  getMultiplier := fun _ => 1
  deltaMs := 1000

variable {context : PhaseContext σ n} {succeeds : Fin n → ℚ → σ → Bool} {valid : σ → Prop}
  {within : σ → Fin n → Prop} {i : Fin n}

/-- Turning over all there is of a resource above its capacity fails. -/
theorem turnover_fails (h : context.Lawful succeeds valid within) {s : σ} (hvalid : valid s)
    (hover : ¬ within s i) (hpos : 0 < context.getAmount s i) (mode : Bool) {ids : Fin n → String}
    {resourceId : String} (hindex : indexOfId ids resourceId = some i) :
    (runGenerators (wholeAmounts (context.getAmount s i) hpos mode) (context.logged succeeds) ids
      (turnover resourceId (context.getAmount s i))
      { accumulators := (.empty : ProductionAccumulators options), resources := (s, [])
        calls := [] }).resources.2 = [false] := by
  have hlower := h.add_lt hvalid hpos hover
  have hfails : succeeds i (context.getAmount s i)
      (context.addProduction i (context.getAmount s i) s) = false := by
    rw [Bool.eq_false_iff, Ne, h.succeeds_iff (h.add_valid hvalid i hpos) i hpos]
    exact not_le.mpr hlower
  have hrelease : Threshold.release (context.getAmount s i)
      (context.getAmount s i * 1000000000⁻¹) (context.getAmount s i) = context.getAmount s i :=
    release_unit hpos (by positivity) (by linarith)
  have hfull : clampRatio01 1 = 1 := by decide +kernel
  have hone : ¬ (1 : ℚ) ≤ 0 := by norm_num
  simp [runGenerators, turnover, runGenerator, executeProductionPhases, validateRates, validateRate,
    JsNumber.finite?, hpos, hindex, prepareConsumptionPhase, prepareConsumption,
    ProductionAccumulators.accumulate, ProductionAccumulators.takeLegacy,
    ProductionAccumulators.empty, ProductionAccumulators.value, GeneratorPhaseInput.delta,
    wholeAmounts, ProductionSystem.epsilon, hrelease, hone, hpos.not_ge, hpos.ne', hfull,
    executeProductionPhase, executeProduction, executeConsumptionPhase, executeConsumption,
    PhaseContext.logged, hfails]

/-! ### Amounts from zero up -/

theorem recordRates_stored (deltaSeconds : ℚ) (shadow : ShadowState n) (s : ResourceState n) :
    (recordRates deltaSeconds shadow s).stored = s.stored := by
  have hrates : ∀ (field : RowField ℚ) (fieldName : String),
      (∀ row, field.set (field.get row) row = row) →
      (∀ v row, (field.set v row).stored = row.stored) →
      ∀ (totals : OrderedMap (Fin n) ℚ) (t : ResourceState n),
        (applyRates (fun s => s.applyRate field fieldName) deltaSeconds totals t).stored =
          t.stored := by
    intro field fieldName hfield hother totals t
    refine foldlRecOn (motive := fun u : ResourceState n => u.stored = t.stored)
      totals.entries _ rfl fun u hu entry _ => ?_
    dsimp only
    split
    · cases hrun : u.applyRate field fieldName entry.1 (.fin (entry.2 / deltaSeconds)) with
      | error message => exact hu
      | ok u' => exact (applyRate_stored field hfield hother hrun).trans hu
    · exact hu
  exact (hrates RowField.expensePerSecond "expense" (fun _ => rfl) (fun _ _ => rfl) _ _).trans
    (hrates RowField.incomePerSecond "income" (fun _ => rfl) (fun _ _ => rfl) _ _)

theorem clampAmount_nonneg {capacity : WithTop ℚ} (hcapacity : 0 ≤ capacity) (amount : ℚ) :
    0 ≤ ResourceState.clampAmount amount capacity := by
  rw [ResourceState.clampAmount]
  split
  · exact le_refl 0
  · next hneg => exact clampToCapacity_nonneg (not_lt.mp hneg) hcapacity

/-- Amounts and capacities of a store are not negative. -/
def ResourceState.Nonneg (s : ResourceState n) : Prop :=
  ∀ i, 0 ≤ (s.stored i).amount ∧ 0 ≤ (s.stored i).capacity

/-- Settling leaves no amount negative. -/
theorem ResourceState.Nonneg.finalizeAll (h : s.Nonneg) (deltaMs : ℚ) :
    (s.finalizeAll deltaMs).Nonneg := by
  have hloop : ((finRange n).foldl
      (fun s i => s.finalizeIndex (deltaMs / 1000) i) s).Nonneg := by
    refine foldlRecOn (motive := ResourceState.Nonneg) _ _ h fun t ht i _ => ?_
    obtain ⟨amount, hsettle⟩ := t.settleIndex_stored (deltaMs / 1000) i
    intro j
    rw [finalizeIndex_stored, hsettle]
    by_cases hij : j = i
    · subst hij
      rw [update_self]
      exact ⟨clampAmount_nonneg (ht j).2 amount, (ht j).2⟩
    · rw [update_of_ne hij]
      exact ht j
  exact hloop

variable {state : PhaseState options (ResourceState n)}

/-- **A tick leaves no amount negative**, in either mode. -/
theorem ResourceState.Nonneg.runTick (h : state.resources.Nonneg) (system : ProductionSystem)
    (tick : ProductionTick) :
    (system.runTick tick state).resources.Nonneg := by
  rw [ProductionSystem.runTick]
  split
  · split
    · exact h
    · intro i
      have hsame := recordRates_stored (tick.deltaMs / 1000)
        (runGenerators system shadowPhaseContext state.resources.ids tick
          { state with resources := create state.resources }).resources state.resources
      change 0 ≤ ((recordRates _ _ state.resources).stored i).amount ∧
        0 ≤ ((recordRates _ _ state.resources).stored i).capacity
      rw [hsame]
      exact h i
  · have hlawful := (directPhaseContext_reads (n := n)).lawful
    exact runGenerators_keeps (P := ResourceState.Nonneg)
      (fun _ i _ hs hamount => hlawful.add_valid hs i hamount)
      (fun _ i _ hs hamount => hlawful.spend_valid hs i hamount) system _ tick h

/-! ### Consumption never overdraws -/

/-- **Spendings succeed.** From amounts and capacities that are not negative every spending of a
tick succeeds, in either mode, when each resource that an active generator both consumes and
produces is within capacity before the tick. -/
theorem spendResults_succeed (h : state.resources.Nonneg) (system : ProductionSystem)
    (tick : ProductionTick) (hconsumes : ∀ generator ∈ tick.generators,
      (generator.consumes.map resourceId).Nodup)
    (hown : ∀ generator ∈ tick.generators, generator.Active → ∀ i,
      generator.OwnInput state.resources.ids i →
        ((state.resources.stored i).amount : WithTop ℚ) ≤ (state.resources.stored i).capacity) :
    ∀ done ∈ system.spendResults tick state, done = true := by
  rw [ProductionSystem.spendResults]
  split
  · split
    · exact fun done hdone => (not_mem_nil hdone).elim
    · obtain ⟨hamount, hcapacity⟩ := create_reads fun i => (h i).2
      have hvalid : shadowPhaseContext.Nonneg getCapacity
          (create state.resources) := by
        intro i
        rw [hcapacity]
        exact h i
      refine (runGenerators_succeeds shadowPhaseContext_reads.lawful system _ tick hconsumes
        { state with resources := (create state.resources, []) } hvalid ?_
        fun done hdone => (not_mem_nil hdone).elim).2
      intro generator hg ha i hi
      change ((create state.resources).getAmount i : WithTop ℚ) ≤
        (create state.resources).getCapacity i
      rw [hcapacity]
      exact hown generator hg ha i hi
  · exact (runGenerators_succeeds directPhaseContext_reads.lawful system _ tick hconsumes
      { state with resources := (state.resources, []) } h hown
      fun done hdone => (not_mem_nil hdone).elim).2

/-- The spending of a turnover of a resource above its capacity fails, in either mode. -/
theorem spendResults_turnover (hids : Function.Injective s.ids) (h : s.Nonneg)
    (hover : ¬ ((s.stored i).amount : WithTop ℚ) ≤ (s.stored i).capacity)
    (hpos : 0 < (s.stored i).amount) (mode : Bool) :
    (wholeAmounts (s.stored i).amount hpos mode).spendResults
      (turnover (s.ids i) (s.stored i).amount)
      { accumulators := (.empty : ProductionAccumulators options), resources := s, calls := [] } =
      [false] := by
  have hindex : indexOfId s.ids (s.ids i) = some i := (indexOfId_eq_some_iff hids).mpr rfl
  obtain ⟨-, hcapacity⟩ := create_reads fun i => (h i).2
  have hseconds : ¬ (1000 : ℚ) / 1000 ≤ 0 := by norm_num
  cases mode with
  | false => exact turnover_fails directPhaseContext_reads.lawful h hover hpos false hindex
  | true =>
    have hvalid : shadowPhaseContext.Nonneg getCapacity (create s) := by
      intro j
      rw [hcapacity]
      exact h j
    have hover' : ¬ shadowPhaseContext.Within getCapacity (create s) i := by
      rw [PhaseContext.Within, hcapacity]
      exact hover
    refine (if_pos rfl).trans ((if_neg hseconds).trans ?_)
    exact turnover_fails shadowPhaseContext_reads.lawful hvalid hover' hpos true hindex

/-- **Consumption never overdraws**, as long as the amounts are within capacity. For a store with
amounts and capacities from zero up, and in either mode: every spending of every tick succeeds
exactly when the amounts are within capacity; for the spendings of one tick it is enough that the
resources are which an active generator both consumes and produces. No amount becomes negative in
any case. -/
theorem consumption_succeeds_iff {s : ResourceState n} (hids : Function.Injective s.ids)
    (hamount : ∀ i, 0 ≤ (s.live i).amount) (hcapacity : ∀ i, 0 ≤ (s.live i).capacity)
    (mode : Bool) :
    ((∀ (system : ProductionSystem) (tick : ProductionTick)
        (accumulators : ProductionAccumulators options) (calls : List (AccumulatorKey × ℚ)),
        system.applyViaFinalizeTick = mode →
        (∀ generator ∈ tick.generators,
          (generator.consumes.map GeneratorProductionRate.resourceId).Nodup) →
        ∀ done ∈ system.spendResults tick { accumulators, resources := s, calls }, done = true) ↔
      ∀ i, ((s.live i).amount : WithTop ℚ) ≤ (s.live i).capacity) ∧
    ∀ (system : ProductionSystem) (tick : ProductionTick)
      (accumulators : ProductionAccumulators options) (calls : List (AccumulatorKey × ℚ)),
      ((∀ generator ∈ tick.generators,
          (generator.consumes.map GeneratorProductionRate.resourceId).Nodup) →
        (∀ generator ∈ tick.generators, generator.Active → ∀ i, generator.OwnInput s.ids i →
          ((s.live i).amount : WithTop ℚ) ≤ (s.live i).capacity) →
        ∀ done ∈ system.spendResults tick { accumulators, resources := s, calls }, done = true) ∧
      ∀ i, 0 ≤ ((system.runTick tick { accumulators, resources := s, calls }).resources.live
          i).amount ∧
        ∀ deltaMs, 0 ≤ (((system.runTick tick { accumulators, resources := s
                                                calls }).resources.finalizeAll deltaMs).live
          i).amount := by
  have h : s.Nonneg := fun i => ⟨hamount i, hcapacity i⟩
  have hstate : ∀ (accumulators : ProductionAccumulators options)
      (calls : List (AccumulatorKey × ℚ)), ResourceState.Nonneg
        (PhaseState.resources { accumulators, resources := s, calls }) := fun _ _ => h
  refine ⟨⟨fun hall i => ?_, fun hwithin system tick accumulators calls _ hconsumes => ?_⟩,
    fun system tick accumulators calls => ⟨fun hconsumes hown => ?_, fun i => ?_⟩⟩
  · -- a resource above its capacity is turned over, and its spending fails
    by_contra hover
    have hpos : 0 < (s.stored i).amount := by
      have hlt := lt_of_le_of_lt (hcapacity i) (not_le.mp hover)
      exact_mod_cast hlt
    have hresult := hall (wholeAmounts (s.stored i).amount hpos mode)
      (turnover (s.ids i) (s.stored i).amount) .empty [] rfl (by simp [turnover]) false
      (by rw [spendResults_turnover hids h hover hpos mode]; exact List.mem_singleton.mpr rfl)
    cases hresult
  · exact spendResults_succeed (hstate accumulators calls) system tick hconsumes
      fun _ _ _ i _ => hwithin i
  · exact spendResults_succeed (hstate accumulators calls) system tick hconsumes hown
  · have htick := (hstate accumulators calls).runTick system tick
    exact ⟨(htick i).1, fun deltaMs => (htick.finalizeAll deltaMs i).1⟩

/-- A store of gold with room for ten. -/
def goldStore (amount : ℚ) : ResourceState 1 :=
  ResourceState.initial (fun _ => "gold") Precision.default fun _ =>
    { blankRow with amount, capacity := (10 : ℚ) }

/-- Twenty gold, with room for ten, are turned over: the addition leaves ten, and the spending of
twenty fails. -/
theorem goldStore_spending_fails :
    (∀ i, 0 ≤ ((goldStore 20).live i).amount) ∧
      (∀ generator ∈ (turnover "gold" 20).generators,
        (generator.consumes.map GeneratorProductionRate.resourceId).Nodup) ∧
      ∀ mode, (wholeAmounts 20 (by decide) mode).spendResults (turnover "gold" 20)
        { accumulators := (.empty : ProductionAccumulators (smithyOptions 1))
          resources := goldStore 20, calls := [] } = [false] := by
  have hids : Function.Injective (goldStore 20).ids := fun i j _ => Subsingleton.elim i j
  have hnonneg : (goldStore 20).Nonneg := fun i => ⟨by decide +revert, by decide +kernel +revert⟩
  refine ⟨by decide, by simp [turnover], fun mode => ?_⟩
  have hover : ¬ (((goldStore 20).stored ⟨0, Nat.one_pos⟩).amount : WithTop ℚ) ≤
      ((goldStore 20).stored ⟨0, Nat.one_pos⟩).capacity := by decide +kernel
  exact spendResults_turnover hids hnonneg hover (by decide) mode

/-- Five gold with room for ten are spent whenever production asks for them. -/
theorem consumption_succeeds_iff_goldStore :
    ((wholeAmounts 5 (by decide) false).spendResults (turnover "gold" 5)
      { accumulators := (.empty : ProductionAccumulators (smithyOptions 1))
        resources := goldStore 5, calls := [] }).all id = true := by
  have hids : Function.Injective (goldStore 5).ids := fun i j _ => Subsingleton.elim i j
  have hamount : ∀ i, 0 ≤ ((goldStore 5).live i).amount := by decide
  have hcapacity : ∀ i, 0 ≤ ((goldStore 5).live i).capacity := by decide +kernel
  have hwithin : ∀ i, (((goldStore 5).live i).amount : WithTop ℚ) ≤
      ((goldStore 5).live i).capacity := by decide +kernel
  exact List.all_eq_true.mpr ((consumption_succeeds_iff hids hamount hcapacity false).1.mpr hwithin
    (wholeAmounts 5 (by decide) false) (turnover "gold" 5) .empty [] rfl (by simp [turnover]))

end IdleEngine
