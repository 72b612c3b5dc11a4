import Mathlib.Algebra.BigOperators.Ring.List
import Mathlib.Algebra.Order.BigOperators.Group.List
import IdleEngine.Production.Progress

/-!
# One long tick in place of many

`applyOfflineDelta` runs one tick of the length of many. What accumulators release is the same
after the many and after the long one, but for the production that lags behind; and so the amounts
are, as far as every call takes effect in full.

That no consumption is limited and that no amount is cut off has to be assumed of the long tick as
well as of the many: the long tick asks at once for what the many ask for bit by bit. Without
consumption the long tick cannot do worse than the many, and the amounts are the same.
-/

namespace IdleEngine

open List GeneratorPhaseInput

variable {sh : ContentShape} {n : ℕ} {options : ProgressionOptions sh} {σ : Type}

/-! ### What the calls come to -/

/-- The accumulators of a generator. -/
def GeneratorPhaseInput.keys (input : GeneratorPhaseInput n) : List AccumulatorKey :=
  input.validProductions.map (input.key .produce) ++
    input.validConsumptions.map (input.key .consume)

/-- The accumulators of the generators that a tick runs. -/
def ProductionTick.keys (tick : ProductionTick) (ids : Fin n → String) : List AccumulatorKey :=
  (tick.generators.filter fun generator => generator.Active).flatMap fun generator =>
    (generator.input ids tick).keys

/-- The later calls are the earlier ones and some for the listed accumulators. -/
def CallsFor (keys : List AccumulatorKey) (earlier later : List (AccumulatorKey × ℚ)) : Prop :=
  ∃ new, later = earlier ++ new ∧ ∀ call ∈ new, call.1 ∈ keys

section Calls

variable {keys : List AccumulatorKey} {earlier later : List (AccumulatorKey × ℚ)}

theorem CallsFor.refl (keys : List AccumulatorKey) (calls : List (AccumulatorKey × ℚ)) :
    CallsFor keys calls calls := ⟨[], (append_nil _).symm, fun _ h => by cases h⟩

theorem CallsFor.trans {last : List (AccumulatorKey × ℚ)} (h : CallsFor keys earlier later)
    (h' : CallsFor keys later last) : CallsFor keys earlier last := by
  obtain ⟨new, rfl, hnew⟩ := h
  obtain ⟨new', rfl, hnew'⟩ := h'
  refine ⟨new ++ new', append_assoc _ _ _, fun call hcall => ?_⟩
  rcases mem_append.mp hcall with hcall | hcall
  · exact hnew call hcall
  · exact hnew' call hcall

theorem CallsFor.mono {keys' : List AccumulatorKey} (h : CallsFor keys earlier later)
    (hsub : ∀ key ∈ keys, key ∈ keys') : CallsFor keys' earlier later := by
  obtain ⟨new, hlater, hnew⟩ := h
  exact ⟨new, hlater, fun call hcall => hsub _ (hnew call hcall)⟩

theorem CallsFor.single {key : AccumulatorKey} (hkey : key ∈ keys) (amount : ℚ) :
    CallsFor keys earlier (earlier ++ [(key, amount)]) := by
  refine ⟨[(key, amount)], rfl, fun call hcall => ?_⟩
  rw [mem_singleton.mp hcall]
  exact hkey

variable (system : ProductionSystem) (context : PhaseContext σ n)

theorem executeProduction_calls (input : GeneratorPhaseInput n) (scale : ℚ)
    (state : PhaseState options σ) {rate : ValidatedRate n} (hrate : rate ∈ input.validProductions) :
    CallsFor input.keys state.calls
      (executeProduction system context input scale state rate).calls := by
  have hkey : input.key .produce rate ∈ input.keys :=
    mem_append_left _ (mem_map.mpr ⟨rate, hrate, rfl⟩)
  rw [executeProduction]
  simp only
  split
  · exact CallsFor.refl _ _
  · exact CallsFor.single hkey _

theorem executeConsumption_calls {ratio : ℚ} (state : PhaseState options σ)
    {entry : Fin n × AccumulatorResult} (hentry : entry.2.key ∈ keys) :
    CallsFor keys state.calls (executeConsumption context ratio state entry).calls := by
  rw [executeConsumption]
  simp only
  split
  · exact CallsFor.refl _ _
  · exact CallsFor.single hentry _

theorem executeProductionPhases_calls (input : GeneratorPhaseInput n)
    {state : PhaseState options σ} (h : state.accumulators.Current) :
    CallsFor input.keys state.calls (executeProductionPhases system context input state).calls := by
  obtain ⟨ratio, scale, -, -, -, hphases⟩ := executeProductionPhases_eq system context input h
  rw [hphases]
  refine foldlRecOn
    (motive := fun s : PhaseState options σ => CallsFor input.keys state.calls s.calls) _ _ ?_
    fun s hs entry hentry => ?_
  · exact foldlRecOn
      (motive := fun s : PhaseState options σ => CallsFor input.keys state.calls s.calls) _ _
      (CallsFor.refl _ _)
      fun s hs rate hrate => hs.trans (executeProduction_calls system context input scale s hrate)
  · obtain ⟨rate, hrate, rfl⟩ := mem_map.mp hentry
    have hkey : input.key .consume rate ∈ input.keys :=
      mem_append_right _ (mem_map.mpr ⟨rate, hrate, rfl⟩)
    exact hs.trans (executeConsumption_calls context s hkey)

theorem runGenerators_calls (ids : Fin n → String) (tick : ProductionTick)
    {state : PhaseState options σ} (h : state.accumulators.Current) :
    CallsFor (tick.keys ids) state.calls
      (runGenerators system context ids tick state).calls := by
  have hloop : (runGenerators system context ids tick state).accumulators.Current ∧
      CallsFor (tick.keys ids) state.calls
        (runGenerators system context ids tick state).calls := by
    refine foldlRecOn (motive := fun s : PhaseState options σ =>
      s.accumulators.Current ∧ CallsFor (tick.keys ids) state.calls s.calls) _ _
      ⟨h, CallsFor.refl _ _⟩ fun s hs generator hmem => ?_
    refine ⟨runGenerator_current system context ids tick hs.1 generator, hs.2.trans ?_⟩
    by_cases hactive : generator.Active
    · rw [runGenerator_of_active system context ids tick s hactive]
      refine (executeProductionPhases_calls system context _ hs.1).mono fun key hkey => ?_
      exact mem_flatMap.mpr
        ⟨generator, mem_filter.mpr ⟨hmem, decide_eq_true hactive⟩, hkey⟩
    · rw [runGenerator_of_not_active system context ids tick s hactive]
      exact CallsFor.refl _ _
  exact hloop.2

end Calls

/-- What a unit of an accumulator adds to a resource. -/
def AccumulatorKey.effectOn (ids : Fin n → String) (i : Fin n) (key : AccumulatorKey) : ℚ :=
  if indexOfId ids key.resourceId = some i then
    match key.operation with
    | .produce => 1
    | .consume => -1
  else 0

/-- What calls come to for a resource: production less consumption. -/
def netCalls (ids : Fin n → String) (i : Fin n) (calls : List (AccumulatorKey × ℚ)) : ℚ :=
  (calls.map fun call => call.1.effectOn ids i * call.2).sum

theorem netCalls_append (ids : Fin n → String) (i : Fin n)
    (calls calls' : List (AccumulatorKey × ℚ)) :
    netCalls ids i (calls ++ calls') = netCalls ids i calls + netCalls ids i calls' := by
  simp [netCalls]

/-- The calls, summed accumulator by accumulator. -/
theorem netCalls_eq_sum (ids : Fin n → String) (i : Fin n) {keys : List AccumulatorKey}
    (hnodup : keys.Nodup) {calls : List (AccumulatorKey × ℚ)}
    (hcalls : ∀ call ∈ calls, call.1 ∈ keys) : netCalls ids i calls =
      (keys.map fun key => key.effectOn ids i * callTotal key calls).sum := by
  induction calls with
  | nil => simp [netCalls, callTotal]
  | cons call calls ih =>
    have hrest := ih fun call' hcall' => hcalls call' (mem_cons_of_mem _ hcall')
    -- the new call counts for the one key that is its own
    have honce : (keys.map fun key =>
        if key = call.1 then call.1.effectOn ids i * call.2 else 0).sum =
          call.1.effectOn ids i * call.2 := by
      rw [sum_map_ite_eq, count_eq_one_of_mem hnodup (hcalls call mem_cons_self)]
      simp
    have hsplit : ∀ key : AccumulatorKey,
        key.effectOn ids i * callTotal key (call :: calls) =
          (if key = call.1 then call.1.effectOn ids i * call.2 else 0) +
            key.effectOn ids i * callTotal key calls := by
      intro key
      have happend := callTotal_append key [call] calls
      rw [callTotal_singleton] at happend
      rw [← singleton_append, happend, mul_add]
      by_cases hkey : call.1 = key
      · rw [if_pos hkey, if_pos hkey.symm, hkey]
      · rw [if_neg hkey, if_neg (Ne.symm hkey), mul_zero]
    rw [← singleton_append, netCalls_append, hrest]
    simp only [singleton_append, hsplit, sum_map_add, honce]
    simp [netCalls]

/-! ### The accumulators of a tick -/

theorem GeneratorPhaseInput.Distinct.keys_nodup {input : GeneratorPhaseInput n}
    (h : input.Distinct) : input.keys.Nodup := by
  have hnames : ∀ operation (rates : List (ValidatedRate n)),
      (rates.map (input.key operation)).map AccumulatorKey.resourceId =
        rates.map ValidatedRate.resourceId := by
    intro operation rates
    rw [map_map]
    rfl
  refine nodup_append.mpr ⟨?_, ?_, ?_⟩
  · refine List.Nodup.of_map AccumulatorKey.resourceId ?_
    rw [hnames]
    exact h.productions
  · refine List.Nodup.of_map AccumulatorKey.resourceId ?_
    rw [hnames]
    exact h.consumptions
  · intro key hkey key' hkey' hsame
    obtain ⟨rate, -, rfl⟩ := mem_map.mp hkey
    obtain ⟨rate', -, rfl⟩ := mem_map.mp hkey'
    cases congrArg AccumulatorKey.operation hsame

theorem GeneratorPhaseInput.generatorId_of_mem {input : GeneratorPhaseInput n}
    {key : AccumulatorKey} (h : key ∈ input.keys) : key.generatorId = input.generatorId := by
  rcases mem_append.mp h with h | h
  · obtain ⟨rate, -, rfl⟩ := mem_map.mp h
    rfl
  · obtain ⟨rate, -, rfl⟩ := mem_map.mp h
    rfl

variable {tick : ProductionTick}

theorem ProductionTick.Regular.keys_nodup (h : tick.Regular) (ids : Fin n → String) :
    (tick.keys ids).Nodup := by
  refine nodup_flatMap.mpr ⟨fun generator hgenerator => ?_, ?_⟩
  · exact (h.distinct ids (mem_filter.mp hgenerator).1).keys_nodup
  · have hnames : tick.generators.Pairwise fun a b => a.id ≠ b.id :=
      pairwise_map.mp h.generators
    refine (hnames.filter _).imp fun hne key hkey hkey' => hne ?_
    exact (generatorId_of_mem hkey).symm.trans
      (generatorId_of_mem hkey')

/-- A sum over the accumulators of a tick, generator by generator. -/
theorem ProductionTick.sum_keys (tick : ProductionTick) (ids : Fin n → String)
    (f : AccumulatorKey → ℚ) : ((tick.keys ids).map f).sum =
      ((tick.generators.filter fun generator => generator.Active).map fun generator =>
        ((generator.input ids tick).validProductions.map fun rate =>
            f ((generator.input ids tick).key .produce rate)).sum +
          ((generator.input ids tick).validConsumptions.map fun rate =>
            f ((generator.input ids tick).key .consume rate)).sum).sum := by
  rw [ProductionTick.keys, map_flatMap, flatMap_def, sum_flatten, map_map]
  congr 1
  refine map_congr_left fun generator _ => ?_
  simp [GeneratorPhaseInput.keys, map_map, Function.comp_def]

/-- How far a resource may be behind for production that waits for consumption. -/
def ProductionTick.lag (tick : ProductionTick) (system : ProductionSystem) (ids : Fin n → String)
    (i : Fin n) : ℚ :=
  ((tick.generators.filter fun generator => generator.Active).map fun generator =>
    ((generator.input ids tick).validProductions.map fun rate =>
      if rate.index = i then system.lag (generator.input ids tick).validConsumptions rate.rate
      else 0).sum).sum

theorem ProductionTick.lag_nonneg (tick : ProductionTick) (system : ProductionSystem)
    (ids : Fin n → String) (i : Fin n) : 0 ≤ tick.lag system ids i := by
  refine sum_nonneg fun x hx => ?_
  obtain ⟨generator, -, rfl⟩ := mem_map.mp hx
  refine sum_nonneg fun x hx => ?_
  obtain ⟨rate, -, rfl⟩ := mem_map.mp hx
  split
  · exact system.lag_nonneg _ rate.rate_pos.le
  · exact le_rfl

theorem ProductionTick.lag_eq_zero (tick : ProductionTick) (system : ProductionSystem)
    (ids : Fin n → String) (i : Fin n)
    (h : ∀ generator ∈ tick.generators, generator.Active →
      (generator.input ids tick).validConsumptions = []) : tick.lag system ids i = 0 := by
  refine sum_eq_zero fun x hx => ?_
  obtain ⟨generator, hgenerator, rfl⟩ := mem_map.mp hx
  obtain ⟨hmem, hactive⟩ := mem_filter.mp hgenerator
  rw [h generator hmem (of_decide_eq_true hactive)]
  refine sum_eq_zero fun x hx => ?_
  obtain ⟨rate, -, rfl⟩ := mem_map.mp hx
  exact ite_self 0

/-! ### The accumulators along a run -/

/-- A tick of `k` times the length. -/
def ProductionTick.times (tick : ProductionTick) (k : ℕ) : ProductionTick :=
  { tick with deltaMs := k * tick.deltaMs }

theorem GeneratorProductionState.input_times (generator : GeneratorProductionState)
    (ids : Fin n → String) (tick : ProductionTick) (k : ℕ) :
    generator.input ids (tick.times k) = (generator.input ids tick).times k := by
  simp only [input, times, ProductionTick.times, mul_div_assoc]

theorem ProductionTick.Regular.times (h : tick.Regular) (k : ℕ) :
    (tick.times k).Regular := ⟨h.generators, h.produces, h.consumes, h.multiplier_nonneg⟩

theorem ProductionTick.Regular.delta_nonneg (h : tick.Regular) (hlength : 0 ≤ tick.deltaMs)
    (ids : Fin n → String) {generator : GeneratorProductionState}
    (hmem : generator ∈ tick.generators) (hactive : generator.Active) (rate : ValidatedRate n) :
    0 ≤ (generator.input ids tick).delta rate := by
  have howned : 0 ≤ generator.owned * tick.getMultiplier generator.id :=
    mul_nonneg hactive.1.le (h.multiplier_nonneg generator hmem)
  have hseconds : 0 ≤ tick.deltaMs / 1000 := div_nonneg hlength (by norm_num)
  exact mul_nonneg (mul_nonneg rate.rate_pos.le howned) hseconds

/-- Where the accumulators stand after `k` ticks that nothing limits. -/
structure Caught {τ : Type} (system : ProductionSystem) (ids : Fin n → String)
    (tick : ProductionTick) (start : PhaseState options τ) (k : ℕ) (state : PhaseState options σ) :
    Prop where
  current : state.accumulators.Current
  progress : ∀ generator ∈ tick.generators, generator.Active →
    ∃ j, Progress system (generator.input ids tick) start.view state.view k j
  calls : CallsFor (tick.keys ids) start.calls state.calls

section Caught

variable {τ : Type} {system : ProductionSystem} {ids : Fin n → String} {tick : ProductionTick}
  {start : PhaseState options τ} {state : PhaseState options σ} {k : ℕ}

theorem caught_start (h : start.accumulators.Current) : Caught system ids tick start 0 start where
  current := h
  progress _ _ _ := ⟨0, progress_start⟩
  calls := CallsFor.refl _ _

/-- **Step lemma**, for the loop over the generators in either context. -/
theorem Caught.runGenerators (h : Caught system ids tick start k state)
    (context : PhaseContext σ n) (hregular : tick.Regular) (hlength : 0 ≤ tick.deltaMs)
    (hheld : ∀ key, -system.epsilon ≤ (start.view key).held)
    (hunlimited : UnlimitedFrom system context ids tick tick.generators state) :
    Caught system ids tick start (k + 1) (runGenerators system context ids tick state) where
  current := foldl_runGenerator_current system context ids tick h.current tick.generators
  progress generator hmem hactive := by
    obtain ⟨j, hprogress⟩ := h.progress generator hmem hactive
    obtain ⟨hproduce, hconsume⟩ := runGenerators_views system context ids tick h.current hregular
      hunlimited hmem hactive
    exact hprogress.tick hheld (hregular.delta_nonneg hlength ids hmem hactive) rfl hconsume
      hproduce
  calls := h.calls.trans (runGenerators_calls system context ids tick h.current)

/-- A unit of production adds a unit to its resource. -/
theorem effectOn_produce (ids : Fin n → String) {rates : List GeneratorProductionRate}
    {input : GeneratorPhaseInput n} {rate : ValidatedRate n} (h : rate ∈ validateRates ids rates) (i : Fin n) :
    (input.key .produce rate).effectOn ids i = if rate.index = i then 1 else 0 := by
  have hindex := validateRates_index h
  simp [AccumulatorKey.effectOn, key, hindex]

/-- What one generator adds to a resource in the long tick beyond what it adds in the many. -/
theorem Progress.net_compare {generator : GeneratorProductionState}
    {start now long : AccumulatorKey → AccumulatorView} {j j' : ℕ}
    (h : Progress system (generator.input ids tick) start now k j)
    (hlong : Progress system ((generator.input ids tick).times k) start long 1 j') (hk : 0 < k)
    (hheld : ∀ key, -system.epsilon ≤ (start key).held)
    (hdelta : ∀ rate, 0 ≤ (generator.input ids tick).delta rate) (i : Fin n) :
    let input := generator.input ids tick
    let extra := fun key => key.effectOn ids i * ((long key).released - (now key).released)
    let sum := (input.validProductions.map fun rate => extra (input.key .produce rate)).sum +
      (input.validConsumptions.map fun rate => extra (input.key .consume rate)).sum
    0 ≤ sum ∧ sum ≤ (input.validProductions.map fun rate =>
      if rate.index = i then system.lag input.validConsumptions rate.rate else 0).sum := by
  intro input extra sum
  have hconsume : (input.validConsumptions.map fun rate => extra (input.key .consume rate)).sum =
      0 := by
    refine sum_eq_zero fun x hx => ?_
    obtain ⟨rate, hrate, rfl⟩ := mem_map.mp hx
    have hsame := h.consumed_compare hlong hk hrate
    simp only [extra]
    rw [hsame, sub_self, mul_zero]
  have hproduce : ∀ rate ∈ input.validProductions, 0 ≤ extra (input.key .produce rate) ∧
      extra (input.key .produce rate) ≤
        if rate.index = i then system.lag input.validConsumptions rate.rate else 0 := by
    intro rate hrate
    have hbounds := h.lag hlong hk hheld hdelta hrate
    simp only [extra]
    rw [effectOn_produce ids hrate]
    split
    · rw [one_mul]
      exact hbounds
    · rw [zero_mul]
      exact ⟨le_rfl, le_rfl⟩
  have hsum : sum = (input.validProductions.map fun rate =>
      extra (input.key .produce rate)).sum := by
    simp only [sum, hconsume, add_zero]
  rw [hsum]
  constructor
  · refine sum_nonneg fun x hx => ?_
    obtain ⟨rate, hrate, rfl⟩ := mem_map.mp hx
    exact (hproduce rate hrate).1
  · exact sum_le_sum fun rate hrate => (hproduce rate hrate).2

/-- **Many ticks and a long one**, for what the calls come to. -/
theorem Caught.compare {long : PhaseState options σ} (h : Caught system ids tick start k state)
    (hlong : Caught system ids (tick.times k) start 1 long) (hk : 0 < k)
    (hregular : tick.Regular) (hlength : 0 ≤ tick.deltaMs)
    (hheld : ∀ key, -system.epsilon ≤ (start.view key).held) (i : Fin n) :
    0 ≤ netCalls ids i long.calls - netCalls ids i state.calls ∧
      netCalls ids i long.calls - netCalls ids i state.calls ≤ tick.lag system ids i := by
  have hnodup := hregular.keys_nodup ids
  obtain ⟨new, hnew, hmem⟩ := h.calls
  obtain ⟨newLong, hnewLong, hmemLong⟩ := hlong.calls
  have hkeys : (tick.times k).keys ids = tick.keys ids := by
    simp only [ProductionTick.keys, ProductionTick.times]
    rfl
  rw [hkeys] at hmemLong
  -- by how much more the long tick releases of each accumulator
  have hreleased : ∀ key, callTotal key newLong - callTotal key new =
      (long.view key).released - (state.view key).released := by
    intro key
    simp only [PhaseState.view, hnew, hnewLong, callTotal_append]
    ring
  have hterms : ∀ key : AccumulatorKey, key.effectOn ids i *
      ((long.view key).released - (state.view key).released) =
      key.effectOn ids i * callTotal key newLong +
        -1 * (key.effectOn ids i * callTotal key new) := by
    intro key
    rw [← hreleased]
    ring
  have hdiff : netCalls ids i long.calls - netCalls ids i state.calls =
      ((tick.keys ids).map fun key => key.effectOn ids i *
        ((long.view key).released - (state.view key).released)).sum := by
    simp only [hterms, sum_map_add]
    rw [hnew, hnewLong, netCalls_append, netCalls_append, netCalls_eq_sum ids i hnodup hmem,
      netCalls_eq_sum ids i hnodup hmemLong, sum_map_mul_left]
    ring
  have hprogress : ∀ generator ∈ tick.generators.filter fun generator => generator.Active,
      ∃ j j', Progress system (generator.input ids tick) start.view state.view k j ∧
        Progress system ((generator.input ids tick).times k) start.view long.view 1 j' ∧
        ∀ rate, 0 ≤ (generator.input ids tick).delta rate := by
    intro generator hgenerator
    obtain ⟨hmem, hactive⟩ := mem_filter.mp hgenerator
    obtain ⟨j, hmany⟩ := h.progress generator hmem (of_decide_eq_true hactive)
    obtain ⟨j', hone⟩ := hlong.progress generator hmem (of_decide_eq_true hactive)
    rw [generator.input_times] at hone
    exact ⟨j, j', hmany, hone,
      hregular.delta_nonneg hlength ids hmem (of_decide_eq_true hactive)⟩
  rw [hdiff, tick.sum_keys, ProductionTick.lag]
  constructor
  · refine sum_nonneg fun x hx => ?_
    obtain ⟨generator, hmem, rfl⟩ := mem_map.mp hx
    obtain ⟨j, j', hmany, hone, hdelta⟩ := hprogress generator hmem
    exact (hmany.net_compare hone hk hheld hdelta i).1
  · refine sum_le_sum fun generator hmem => ?_
    obtain ⟨j, j', hmany, hone, hdelta⟩ := hprogress generator hmem
    exact (hmany.net_compare hone hk hheld hdelta i).2

end Caught

/-! ### Ticks of the loop -/

namespace ProductionSystem

variable (system : ProductionSystem)

/-- A production tick of the loop. Amounts that go through `finalizeTick` are settled, and the
rates published and reset, before the next one. -/
def loopTick (tick : ProductionTick) (state : PhaseState options (ResourceState n)) :
    PhaseState options (ResourceState n) :=
  if system.applyViaFinalizeTick then system.applyOfflineDelta tick state
  else system.runTick tick state

/-- `k` production ticks. -/
def loopTicks (tick : ProductionTick) (state : PhaseState options (ResourceState n)) :
    ℕ → PhaseState options (ResourceState n)
  | 0 => state
  | k + 1 => system.loopTick tick (loopTicks tick state k)

/-- No generator of a tick finds less of a resource than it would consume. -/
def Unlimited (tick : ProductionTick) (state : PhaseState options (ResourceState n)) : Prop :=
  if system.applyViaFinalizeTick then
    UnlimitedFrom system shadowPhaseContext state.resources.ids tick tick.generators
      { state with resources := ShadowState.create state.resources }
  else UnlimitedFrom system directPhaseContext state.resources.ids tick tick.generators state

instance (tick : ProductionTick) (state : PhaseState options (ResourceState n)) :
    Decidable (system.Unlimited tick state) :=
  inferInstanceAs (Decidable (if system.applyViaFinalizeTick = true then UnlimitedFrom _ _ _ _ _ _
    else UnlimitedFrom _ _ _ _ _ _))


/-- A tick in which no consumption is limited and no amount is cut off at a capacity: each
resource holds what it held, and what was produced of it, less what was consumed. -/
structure Unhindered (tick : ProductionTick) (state after : PhaseState options (ResourceState n)) :
    Prop where
  unlimited : system.Unlimited tick state
  inFull : ∀ i, (after.resources.live i).amount - (state.resources.live i).amount =
    netCalls state.resources.ids i after.calls - netCalls state.resources.ids i state.calls

instance (tick : ProductionTick) (state after : PhaseState options (ResourceState n)) :
    Decidable (system.Unhindered tick state after) :=
  decidable_of_iff (system.Unlimited tick state ∧
    ∀ i, (after.resources.live i).amount - (state.resources.live i).amount =
      netCalls state.resources.ids i after.calls - netCalls state.resources.ids i state.calls)
    ⟨fun h => ⟨h.1, h.2⟩, fun h => ⟨h.1, h.2⟩⟩

/-- What settlement makes of a tick. -/
structure Settles (tick : ProductionTick) (state after : PhaseState options (ResourceState n)) :
    Prop where
  accumulators : after.accumulators = (system.runTick tick state).accumulators
  calls : after.calls = (system.runTick tick state).calls
  ids : after.resources.ids = (system.runTick tick state).resources.ids
  stored : after.resources.stored =
    if system.applyViaFinalizeTick then
      ((system.runTick tick state).resources.finalizeAll tick.deltaMs).stored
    else (system.runTick tick state).resources.stored
  rates : system.applyViaFinalizeTick = true → ∀ i, (after.resources.live i).incomePerSecond = 0 ∧
    (after.resources.live i).expensePerSecond = 0

theorem applyOfflineDelta_settles {tick : ProductionTick} (hlength : 0 < tick.deltaMs)
    (state : PhaseState options (ResourceState n)) :
    system.Settles tick state (system.applyOfflineDelta tick state) := by
  rw [applyOfflineDelta, if_neg (not_le.mpr hlength)]
  simp only [finalizeTick_eq _ hlength]
  cases hmode : system.applyViaFinalizeTick with
  | true =>
    simp only [Bool.or_true, if_true]
    refine ⟨rfl, rfl, ?_, ?_, fun _ i => ⟨rfl, rfl⟩⟩
    · exact (system.runTick tick state).resources.finalizeAll_ids tick.deltaMs
    · rw [hmode]
      exact afterPublish_stored _
  | false =>
    cases htrack : system.trackRates with
    | true =>
      refine ⟨rfl, rfl, rfl, ?_, fun h => ?_⟩
      · rw [hmode]
        exact afterPublish_stored _
      · rw [hmode] at h
        cases h
    | false =>
      refine ⟨rfl, rfl, rfl, ?_, fun h => ?_⟩
      · rw [hmode]
        rfl
      · rw [hmode] at h
        cases h

theorem loopTick_settles {tick : ProductionTick} (hlength : 0 < tick.deltaMs)
    (state : PhaseState options (ResourceState n)) :
    system.Settles tick state (system.loopTick tick state) := by
  rw [loopTick]
  split
  · exact system.applyOfflineDelta_settles hlength state
  · next hmode =>
    refine ⟨rfl, rfl, rfl, ?_, fun h => absurd h hmode⟩
    rw [if_neg hmode]

end ProductionSystem

/-! ### Runs of the loop -/

namespace ProductionSystem

variable {system : ProductionSystem} {tick : ProductionTick}
  {state after : PhaseState options (ResourceState n)}

theorem runStandardFlow_ids (system : ProductionSystem) (tick : ProductionTick)
    (state : PhaseState options (ResourceState n)) :
    (system.runStandardFlow tick state).resources.ids = state.resources.ids :=
  runGenerators_keeps (P := fun s : ResourceState n => s.ids = state.resources.ids)
    (fun s i amount hs _ => (s.addAmount_writes (A := fun _ _ _ => True) i (.fin amount)).ids.trans hs)
    (fun s i amount hs _ => (s.spendAmount_writes (A := fun _ _ _ => True) i (.fin amount)).ids.trans hs)
    system state.resources.ids tick rfl

theorem runTick_ids (system : ProductionSystem) (tick : ProductionTick)
    (state : PhaseState options (ResourceState n)) :
    (system.runTick tick state).resources.ids = state.resources.ids := by
  rw [runTick]
  split
  · split
    · rfl
    · exact recordRates_ids _ _ _
  · exact system.runStandardFlow_ids tick state

variable {k : ℕ}

/-- **Step lemma.** The accumulators after a tick of either mode that nothing limits. -/
theorem Settles.caught {τ : Type} {start : PhaseState options τ} {ids : Fin n → String}
    (h : system.Settles tick state after) (hids : state.resources.ids = ids)
    (hcaught : Caught system ids tick start k state) (hregular : tick.Regular)
    (hlength : 0 < tick.deltaMs) (hheld : ∀ key, -system.epsilon ≤ (start.view key).held)
    (hunlimited : system.Unlimited tick state) : Caught system ids tick start (k + 1) after := by
  have hrun : Caught system ids tick start (k + 1) (system.runTick tick state) := by
    rw [Unlimited, hids] at hunlimited
    have hseconds : ¬ tick.deltaMs / 1000 ≤ 0 := by
      rw [not_le]
      linarith
    rw [runTick, if_neg hseconds]
    split
    · next hmode =>
      rw [if_pos hmode] at hunlimited
      have hshadow : Caught system ids tick start k
          { state with resources := ShadowState.create state.resources } :=
        ⟨hcaught.current, hcaught.progress, hcaught.calls⟩
      have hloop := hshadow.runGenerators shadowPhaseContext hregular hlength.le hheld hunlimited
      rw [runFinalizeTickRatesFlow, hids]
      exact ⟨hloop.current, hloop.progress, hloop.calls⟩
    · next hmode =>
      rw [if_neg hmode] at hunlimited
      rw [runStandardFlow, hids]
      exact hcaught.runGenerators directPhaseContext hregular hlength.le hheld hunlimited
  have hview : after.view = (system.runTick tick state).view := by
    funext key
    rw [PhaseState.view, PhaseState.view, h.accumulators, h.calls]
  refine ⟨?_, ?_, ?_⟩
  · rw [h.accumulators]
    exact hrun.current
  · rw [hview]
    exact hrun.progress
  · rw [h.calls]
    exact hrun.calls

/-- **Run lemma.** -/
theorem loopTicks_caught (hregular : tick.Regular) (hlength : 0 < tick.deltaMs)
    (hcurrent : state.accumulators.Current) (hheld : ∀ key, -system.epsilon ≤ (state.view key).held)
    (hrun : ∀ j < k, system.Unlimited tick (system.loopTicks tick state j)) :
    (system.loopTicks tick state k).resources.ids = state.resources.ids ∧
      Caught system state.resources.ids tick state k (system.loopTicks tick state k) := by
  induction k with
  | zero => exact ⟨rfl, caught_start hcurrent⟩
  | succ k ih =>
    obtain ⟨hids, hcaught⟩ := ih fun j hj => hrun j (hj.trans (Nat.lt_succ_self k))
    have hsettles := system.loopTick_settles hlength (system.loopTicks tick state k)
    refine ⟨?_, ?_⟩
    · rw [loopTicks, hsettles.ids, runTick_ids, hids]
    · exact hsettles.caught hids hcaught hregular hlength hheld (hrun k (Nat.lt_succ_self k))

/-- The amounts after a run that nothing hinders. -/
theorem loopTicks_inFull (hrun : ∀ j < k, system.Unhindered tick (system.loopTicks tick state j)
      (system.loopTicks tick state (j + 1)))
    (hids : ∀ j < k, (system.loopTicks tick state j).resources.ids = state.resources.ids)
    (i : Fin n) : ((system.loopTicks tick state k).resources.live i).amount -
        (state.resources.live i).amount =
      netCalls state.resources.ids i (system.loopTicks tick state k).calls -
        netCalls state.resources.ids i state.calls := by
  induction k with
  | zero => rw [loopTicks, sub_self, sub_self]
  | succ k ih =>
    have hbefore := ih (fun j hj => hrun j (hj.trans (Nat.lt_succ_self k)))
      fun j hj => hids j (hj.trans (Nat.lt_succ_self k))
    have hfull := (hrun k (Nat.lt_succ_self k)).inFull i
    rw [hids k (Nat.lt_succ_self k)] at hfull
    linarith

end ProductionSystem

/-! ### Production alone -/

/-- Each resource holds what it held and what has been produced of it, as far as its capacity
allows. -/
def Filled (ids : Fin n → String) (start state : PhaseState options (ResourceState n)) : Prop :=
  ∀ i, state.resources.stored i =
    { start.resources.stored i with
      amount := clampToCapacity ((start.resources.stored i).amount +
        (netCalls ids i state.calls - netCalls ids i start.calls)) (start.resources.stored i).capacity }

/-- An amount may be cut off at once or at the end. -/
theorem clampToCapacity_add (value : ℚ) (capacity : WithTop ℚ) {amount : ℚ} (h : 0 ≤ amount) :
    clampToCapacity (clampToCapacity value capacity + amount) capacity =
      clampToCapacity (value + amount) capacity := by
  cases capacity with
  | top => rfl
  | coe c =>
    change min (min value c + amount) c = min (value + amount) c
    rcases le_total value c with hle | hle
    · rw [min_eq_left hle]
    · rw [min_eq_right hle, min_eq_right (le_add_of_nonneg_right h),
        min_eq_right (hle.trans (le_add_of_nonneg_right h))]

section Filled

variable {system : ProductionSystem} {ids : Fin n → String} {tick : ProductionTick}
  {start state : PhaseState options (ResourceState n)}

theorem filled_start (h : Bounded start.resources.stored) : Filled ids start start := by
  intro i
  rw [sub_self, add_zero, clampToCapacity_of_le (h i).le_capacity]

/-- A call for production. -/
theorem Filled.call {next : PhaseState options (ResourceState n)} (h : Filled ids start state)
    {key : AccumulatorKey} {index : Fin n} {amount : ℚ} (hpos : 0 < amount)
    (heffect : ∀ i, key.effectOn ids i = if index = i then 1 else 0)
    (hcalls : next.calls = state.calls ++ [(key, amount)])
    (hstored : next.resources.stored = Function.update state.resources.stored index
      ((state.resources.stored index).add amount)) : Filled ids start next := by
  intro i
  have hnet : netCalls ids i next.calls = netCalls ids i state.calls +
      if index = i then amount else 0 := by
    rw [hcalls, netCalls_append]
    simp [netCalls, heffect]
  rw [hstored, hnet]
  by_cases hi : index = i
  · subst hi
    rw [Function.update_self, if_pos rfl, h index, StoredResource.add]
    simp only
    rw [clampToCapacity_add _ _ hpos.le]
    ring_nf
  · rw [Function.update_of_ne (Ne.symm hi), if_neg hi, add_zero]
    exact h i

theorem Filled.executeProduction (h : Filled ids start state)
    {rates : List GeneratorProductionRate} (input : GeneratorPhaseInput n) (scale : ℚ)
    {rate : ValidatedRate n} (hrate : rate ∈ validateRates ids rates) :
    Filled ids start
      (executeProduction system directPhaseContext input scale state rate) := by
  rw [IdleEngine.executeProduction]
  simp only
  split
  · exact h
  · next hpos =>
    rw [not_le] at hpos
    refine h.call hpos (effectOn_produce ids hrate) rfl ?_
    have hrun := state.resources.after_addAmount rate.index hpos
    simp only [directPhaseContext]
    rw [hrun, ResourceState.addPositive_stored]

/-- **Tick lemma**, when nothing is consumed. -/
theorem Filled.runGenerators (h : Filled ids start state) (system : ProductionSystem)
    (hcurrent : state.accumulators.Current)
    (hfree : ∀ generator ∈ tick.generators, generator.Active →
      (generator.input ids tick).validConsumptions = []) :
    Filled ids start
      (IdleEngine.runGenerators system directPhaseContext ids tick state) := by
  have hloop : (IdleEngine.runGenerators system directPhaseContext ids tick
      state).accumulators.Current ∧
      Filled ids start
      (IdleEngine.runGenerators system directPhaseContext ids tick state) := by
    refine foldlRecOn (motive := fun s : PhaseState options (ResourceState n) =>
      s.accumulators.Current ∧ Filled ids start s) _ _ ⟨hcurrent, h⟩ fun s hs generator hmem => ?_
    refine ⟨runGenerator_current system _ ids tick hs.1 generator, ?_⟩
    by_cases hactive : generator.Active
    · rw [runGenerator_of_active system _ ids tick s hactive]
      obtain ⟨ratio, scale, -, -, -, hphases⟩ :=
        executeProductionPhases_eq system directPhaseContext (generator.input ids tick) hs.1
      rw [hphases, hfree generator hmem hactive, map_nil, foldl_nil]
      exact foldlRecOn (motive := fun s : PhaseState options (ResourceState n) =>
        Filled ids start s) _ _ hs.2 fun s hs rate hrate => hs.executeProduction _ scale hrate
    · rw [runGenerator_of_not_active system _ ids tick s hactive]
      exact hs.2
  exact hloop.2

end Filled

/-- Without consumption there is nothing to limit. -/
theorem unlimitedFrom_of_free (system : ProductionSystem) (context : PhaseContext σ n)
    {ids : Fin n → String} {l : List GeneratorProductionState}
    (hfree : ∀ generator ∈ l, generator.Active →
      (generator.input ids tick).validConsumptions = []) (state : PhaseState options σ) :
    UnlimitedFrom system context ids tick l state := by
  induction l generalizing state with
  | nil => trivial
  | cons generator l ih =>
    refine ⟨fun hactive => ?_,
      ih (fun other hother => hfree other (mem_cons_of_mem _ hother)) _⟩
    rw [prepareConsumptionPhase, hfree generator mem_cons_self hactive]
    rfl

namespace ProductionSystem

variable {system : ProductionSystem} {tick : ProductionTick}
  {start state after : PhaseState options (ResourceState n)}

theorem unlimited_of_free (system : ProductionSystem)
    (state : PhaseState options (ResourceState n))
    (hfree : ∀ generator ∈ tick.generators, generator.Active →
      (generator.input state.resources.ids tick).validConsumptions = []) :
    system.Unlimited tick state := by
  rw [Unlimited]
  split
  · exact unlimitedFrom_of_free system _ hfree _
  · exact unlimitedFrom_of_free system _ hfree _

/-- A store that a tick may start from: its amounts are within capacity, and no rates are left
over that settlement would apply. -/
structure Settled (system : ProductionSystem) (s : ResourceState n) : Prop where
  bounded : Bounded s.stored
  rates : system.applyViaFinalizeTick = true → ∀ i, (s.live i).incomePerSecond = 0 ∧
    (s.live i).expensePerSecond = 0

/-- A settled tick is a direct one. -/
theorem Settles.direct (h : system.Settles tick state after) (hlength : 0 < tick.deltaMs)
    (hsettled : system.Settled state.resources) :
    after.resources.stored = (system.runStandardFlow tick state).resources.stored ∧
      after.calls = (system.runStandardFlow tick state).calls ∧
      system.Settled after.resources := by
  obtain ⟨-, hcalls, -, hbounded, hstored⟩ := runFinalizeTickRatesFlow_agrees system tick hlength
    state.accumulators state.calls rfl rfl hsettled.bounded
  have hsame : after.resources.stored = (system.runStandardFlow tick state).resources.stored ∧
      after.calls = (system.runStandardFlow tick state).calls := by
    have hafter := h.stored
    rw [h.calls]
    cases hmode : system.applyViaFinalizeTick with
    | false =>
      have hrun : system.runTick tick state = system.runStandardFlow tick state := by
        rw [runTick, hmode]
        rfl
      rw [hmode] at hafter
      rw [hafter, hrun]
      exact ⟨rfl, rfl⟩
    | true =>
      have hseconds : ¬ tick.deltaMs / 1000 ≤ 0 := by
        rw [not_le]
        linarith
      have hrun : system.runTick tick state = system.runFinalizeTickRatesFlow tick state := by
        rw [runTick, if_pos hmode, if_neg hseconds]
      rw [if_pos hmode, hrun] at hafter
      rw [hafter, hrun]
      refine ⟨funext fun i => (hstored i).trans ?_, hcalls⟩
      -- no rates were left over to be settled
      have hnet : (state.resources.rated i).net (tick.deltaMs / 1000) = 0 := by
        obtain ⟨hincome, hexpense⟩ := hsettled.rates hmode i
        change (state.resources.live i).incomePerSecond * _ -
          (state.resources.live i).expensePerSecond * _ = 0
        rw [hincome, hexpense]
        ring
      rw [hnet, add_zero, ResourceState.clampAmount_of_bounded (hbounded i)]
  refine ⟨hsame.1, hsame.2, ?_, h.rates⟩
  rw [hsame.1]
  exact hbounded

/-- **Run lemma**, when nothing is consumed: whether or not a capacity is reached. -/
theorem loopTicks_filled (hlength : 0 < tick.deltaMs) (hregular : tick.Regular)
    (hcurrent : state.accumulators.Current)
    (hheld : ∀ key, -system.epsilon ≤ (state.view key).held)
    (hsettled : system.Settled state.resources)
    (hfree : ∀ generator ∈ tick.generators, generator.Active →
      (generator.input state.resources.ids tick).validConsumptions = []) (k : ℕ) :
    (system.loopTicks tick state k).resources.ids = state.resources.ids ∧
      Caught system state.resources.ids tick state k (system.loopTicks tick state k) ∧
      system.Settled (system.loopTicks tick state k).resources ∧
      Filled state.resources.ids state (system.loopTicks tick state k) := by
  induction k with
  | zero => exact ⟨rfl, caught_start hcurrent, hsettled, filled_start hsettled.bounded⟩
  | succ k ih =>
    obtain ⟨hids, hcaught, hbefore, hfilled⟩ := ih
    have hsettles := system.loopTick_settles hlength (system.loopTicks tick state k)
    have hunlimited : system.Unlimited tick (system.loopTicks tick state k) := by
      refine system.unlimited_of_free _ ?_
      rw [hids]
      exact hfree
    obtain ⟨hstored, hcalls, hafter⟩ := hsettles.direct hlength hbefore
    refine ⟨?_, hsettles.caught hids hcaught hregular hlength hheld hunlimited, hafter, ?_⟩
    · rw [loopTicks, hsettles.ids, runTick_ids, hids]
    · have htick := hfilled.runGenerators system hcaught.current hfree
      intro i
      rw [loopTicks, hstored, hcalls, runStandardFlow, hids]
      exact htick i

/-- **The long tick agrees with the many.** When nothing hinders the many ticks nor the long one,
each resource holds after the long tick what it holds after the many and at most what production
may lag behind. When nothing is consumed, both leave the same amounts, whether or not a capacity
is reached. -/
theorem long_tick_agrees (system : ProductionSystem) (tick : ProductionTick)
    (hregular : tick.Regular) (hlength : 0 < tick.deltaMs)
    (state : PhaseState options (ResourceState n)) (hcurrent : state.accumulators.Current)
    (hheld : ∀ key, -system.epsilon ≤ state.accumulators.value key) (k : ℕ) :
    let run := system.loopTicks tick state
    let long := system.applyOfflineDelta (tick.times k) state
    ((∀ j < k, system.Unhindered tick (run j) (run (j + 1))) →
      system.Unhindered (tick.times k) state long →
      ∀ i, 0 ≤ (long.resources.live i).amount - ((run k).resources.live i).amount ∧
        (long.resources.live i).amount - ((run k).resources.live i).amount ≤
          tick.lag system state.resources.ids i) ∧
    (system.Settled state.resources →
      (∀ generator ∈ tick.generators, generator.Active →
        (generator.input state.resources.ids tick).validConsumptions = []) →
      ∀ i, (long.resources.live i).amount = ((run k).resources.live i).amount) := by
  intro run long
  rcases Nat.eq_zero_or_pos k with rfl | hk
  · -- no tick, and a tick of no length
    have hnone : long = state := by
      have hzero : (tick.times 0).deltaMs ≤ 0 := by simp [ProductionTick.times]
      exact if_pos hzero
    rw [hnone]
    refine ⟨fun _ _ i => ?_, fun _ _ i => rfl⟩
    have hsame : (state.resources.live i).amount - ((run 0).resources.live i).amount = 0 :=
      sub_self _
    rw [hsame]
    exact ⟨le_rfl, tick.lag_nonneg system state.resources.ids i⟩
  have hlong : 0 < (tick.times k).deltaMs := by
    have hk' : (0 : ℚ) < k := by exact_mod_cast hk
    exact mul_pos hk' hlength
  have hsettles := system.applyOfflineDelta_settles hlong state
  -- the accumulators after the long tick
  have hcaught : system.Unlimited (tick.times k) state →
      Caught system state.resources.ids (tick.times k) state 1 long := fun hunlimited =>
    hsettles.caught rfl (caught_start hcurrent) (hregular.times k) hlong hheld hunlimited
  constructor
  · intro hrun hfull i
    have hids : ∀ j ≤ k, (run j).resources.ids = state.resources.ids := fun j hj =>
      (loopTicks_caught hregular hlength hcurrent hheld fun j' hj' =>
        (hrun j' (hj'.trans_le hj)).unlimited).1
    have hmany := (loopTicks_caught hregular hlength hcurrent hheld fun j hj =>
      (hrun j hj).unlimited).2
    have hcompare := hmany.compare (hcaught hfull.unlimited) hk hregular hlength.le hheld i
    have hamount := loopTicks_inFull hrun (fun j hj => hids j hj.le) i
    have hamount' := hfull.inFull i
    have hdiff : (long.resources.live i).amount - ((run k).resources.live i).amount =
        netCalls state.resources.ids i long.calls -
          netCalls state.resources.ids i (run k).calls := by
      linarith
    rw [hdiff]
    exact hcompare
  · intro hsettled hfree i
    obtain ⟨-, hmany, -, hfilled⟩ :=
      loopTicks_filled hlength hregular hcurrent hheld hsettled hfree k
    have hfree' : ∀ generator ∈ (tick.times k).generators, generator.Active →
        (generator.input state.resources.ids (tick.times k)).validConsumptions = [] := hfree
    have hcompare := hmany.compare (hcaught (system.unlimited_of_free state hfree')) hk hregular
      hlength.le hheld i
    rw [tick.lag_eq_zero system state.resources.ids i hfree] at hcompare
    have hnet := le_antisymm hcompare.2 hcompare.1
    obtain ⟨hstored, hcalls, -⟩ := hsettles.direct hlong hsettled
    have hfilled' : Filled state.resources.ids state
        (system.runStandardFlow (tick.times k) state) :=
      (filled_start hsettled.bounded).runGenerators system hcurrent hfree'
    have hlongStored := hfilled' i
    rw [← hstored, ← hcalls] at hlongStored
    have hamount := congrArg StoredResource.amount hlongStored
    have hamount' := congrArg StoredResource.amount (hfilled i)
    rw [sub_eq_zero.mp hnet] at hamount
    exact hamount.trans hamount'.symm

end ProductionSystem

/-! ### A smith and a miner -/

/-- One smith, at some bars a second for one ore. -/
def oneSmith (bars : ℚ) : GeneratorProductionState :=
  { smith with owned := 1, produces := [{ resourceId := "bar", rate := .fin bars }] }

/-- One miner: an ore a second. -/
def miner : GeneratorProductionState :=
  { id := "miner", owned := 1, enabled := some true
    produces := [{ resourceId := "ore", rate := .fin 1 }], consumes := [] }

/-- A tick of some generators. -/
def mineTick (generators : List GeneratorProductionState) (deltaMs : ℚ) : ProductionTick :=
  { generators, getMultiplier := fun _ => 1, deltaMs }

/-- The smithy before its first tick. -/
def smithyStart (s : ResourceState 2) : PhaseState (smithyOptions 1) (ResourceState 2) :=
  PhaseState.start (smithyOptions 1) s

/-- Nothing hinders `k` ticks of the smithy. -/
def Smooth (tick : ProductionTick) (k : ℕ) (s : ResourceState 2) : Prop :=
  ∀ j < k, smithySystem.Unhindered tick (smithySystem.loopTicks tick (smithyStart s) j)
    (smithySystem.loopTicks tick (smithyStart s) (j + 1))

instance (tick : ProductionTick) (k : ℕ) (s : ResourceState 2) : Decidable (Smooth tick k s) :=
  inferInstanceAs (Decidable (∀ j < k, smithySystem.Unhindered tick
    (smithySystem.loopTicks tick (smithyStart s) j)
    (smithySystem.loopTicks tick (smithyStart s) (j + 1))))

/-- What there is of a resource after `k` ticks, and after one of `k` times the length. -/
def amountsAfter (system : ProductionSystem) (tick : ProductionTick) (k : ℕ) (i : Fin 2)
    (start : PhaseState (smithyOptions 1) (ResourceState 2)) : ℚ × ℚ :=
  (((system.loopTicks tick start k).resources.live i).amount,
    ((system.applyOfflineDelta (tick.times k) start).resources.live i).amount)

/-- The bars of the smithy. -/
def barsAfter (tick : ProductionTick) (k : ℕ) (s : ResourceState 2) : ℚ × ℚ :=
  amountsAfter smithySystem tick k (Fin.last 1) (smithyStart s)

/-- The smithy with a save in which the accumulator of the miner is negative. -/
def smithyOverdrawn (s : ResourceState 2) : PhaseState (smithyOptions 1) (ResourceState 2) :=
  { smithyStart s with
    accumulators := .restoreAccumulators
      [(.v2 { generatorId := "miner", operation := .produce, resourceId := "ore" }, .fin (-100))] }

/-- The smithy with an income of ore that has not been settled. -/
def smithyRated (s : ResourceState 2) : PhaseState (smithyOptions 1) (ResourceState 2) :=
  smithyStart (s.afterUnit (s.applyIncome (Fin.castSucc (Fin.last 0)) (.fin 1)))

/-- The check of `Smooth` and of the bars. -/
def smoothBars (tick : ProductionTick) (k : ℕ) (bars : ℚ × ℚ) (s : ResourceState 2) : Bool :=
  decide (Smooth tick k s) && decide (barsAfter tick k s = bars)

theorem smoothBars_eq_true {k : ℕ} {bars : ℚ × ℚ} {s : ResourceState 2}
    (h : smoothBars tick k bars s = true) : Smooth tick k s ∧ barsAfter tick k s = bars := by
  obtain ⟨hsmooth, hbars⟩ := (Bool.and_eq_true _ _).mp h
  exact ⟨of_decide_eq_true hsmooth, of_decide_eq_true hbars⟩

theorem mineTick_regular {generators : List GeneratorProductionState} (deltaMs : ℚ)
    (hids : (generators.map GeneratorProductionState.id).Nodup)
    (hproduces : ∀ generator ∈ generators,
      (generator.produces.map GeneratorProductionRate.resourceId).Nodup)
    (hconsumes : ∀ generator ∈ generators,
      (generator.consumes.map GeneratorProductionRate.resourceId).Nodup) :
    (mineTick generators deltaMs).Regular :=
  ⟨hids, hproduces, hconsumes, fun _ _ => zero_le_one⟩

/-- **A long tick falls short.** One ore, a smith and a miner, each at one a second. In ten ticks
of a second nothing is limited and ten bars are made. In one tick of ten seconds the smith, who
comes first, has one ore for all of them.

Where nothing is limited, the bars may still differ by two thresholds: at 29 bars for 20 ore,
production of the last ticks waits for the next ore. And without any consumption the ore differs
from a negative accumulator, or with rates left over in the store. -/
theorem long_tick_falls_short :
    (∃ s : ResourceState 2, smithyStore 1 = .ok s ∧
      (mineTick [oneSmith 1, miner] 1000).Regular ∧
      Smooth (mineTick [oneSmith 1, miner] 1000) 10 s ∧
      barsAfter (mineTick [oneSmith 1, miner] 1000) 10 s = (10, 1) ∧
      smithySystem.applyThreshold * max 1 (1 / 1) < |(1 : ℚ) - 10|) ∧
    (∃ s : ResourceState 2, smithyStore 100 = .ok s ∧
      (mineTick [oneSmith (29 / 20)] 200).Regular ∧
      Smooth (mineTick [oneSmith (29 / 20)] 200) 14 s ∧
      barsAfter (mineTick [oneSmith (29 / 20)] 200) 14 s = (2, 4) ∧
      smithySystem.applyThreshold * max 1 (29 / 20 / 1) < |(4 : ℚ) - 2|) ∧
    ∃ s : ResourceState 2, smithyStore 1 = .ok s ∧
      amountsAfter smithySystem (mineTick [miner] 1000) 10 0 (smithyOverdrawn s) = (10, 1) ∧
      amountsAfter (smithySystem.inMode true) (mineTick [] 1000) 10 0 (smithyRated s) =
        (2, 11) := by
  refine ⟨?_, ?_, ?_⟩
  · obtain ⟨s, hs, hcheck⟩ := Outcome.exists_ok (x := smithyStore 1)
      (p := smoothBars (mineTick [oneSmith 1, miner] 1000) 10 (10, 1)) (by decide +kernel)
    obtain ⟨hsmooth, hbars⟩ := smoothBars_eq_true hcheck
    refine ⟨s, hs, ?_, hsmooth, hbars, ?_⟩
    · exact mineTick_regular 1000 (by decide) (by decide) (by decide)
    · norm_num [smithySystem, abs_of_neg]
  · obtain ⟨s, hs, hcheck⟩ := Outcome.exists_ok (x := smithyStore 100)
      (p := smoothBars (mineTick [oneSmith (29 / 20)] 200) 14 (2, 4)) (by decide +kernel)
    obtain ⟨hsmooth, hbars⟩ := smoothBars_eq_true hcheck
    refine ⟨s, hs, ?_, hsmooth, hbars, ?_⟩
    · exact mineTick_regular 200 (by decide) (by decide) (by decide)
    · norm_num [smithySystem]
  · obtain ⟨s, hs, hcheck⟩ := Outcome.exists_ok (x := smithyStore 1)
      (p := fun s : ResourceState 2 =>
        decide (amountsAfter smithySystem (mineTick [miner] 1000) 10 0 (smithyOverdrawn s) =
          (10, 1)) &&
        decide (amountsAfter (smithySystem.inMode true) (mineTick [] 1000) 10 0 (smithyRated s) =
          (2, 11))) (by decide +kernel)
    obtain ⟨hoverdrawn, hrated⟩ := (Bool.and_eq_true _ _).mp hcheck
    exact ⟨s, hs, of_decide_eq_true hoverdrawn, of_decide_eq_true hrated⟩

theorem smithyStart_held (s : ResourceState 2) (key : AccumulatorKey) :
    -smithySystem.epsilon ≤ (smithyStart s).accumulators.value key :=
  neg_nonpos.mpr smithySystem.epsilon_nonneg

/-- Fourteen ticks of the smith with enough ore, and ten of the miner. -/
theorem long_tick_agrees_smithy :
    ∃ s : ResourceState 2, smithyStore 100 = .ok s ∧
      (((smithySystem.applyOfflineDelta ((mineTick [oneSmith (29 / 20)] 200).times 14)
              (smithyStart s)).resources.live 1).amount -
          ((smithySystem.loopTicks (mineTick [oneSmith (29 / 20)] 200)
            (smithyStart s) 14).resources.live 1).amount ≤
        (mineTick [oneSmith (29 / 20)] 200).lag smithySystem (smithyStart s).resources.ids 1) ∧
      ((smithySystem.applyOfflineDelta ((mineTick [miner] 1000).times 10)
          (smithyStart s)).resources.live 0).amount =
        ((smithySystem.loopTicks (mineTick [miner] 1000) (smithyStart s) 10).resources.live
          0).amount := by
  obtain ⟨s, hs, hcheck⟩ := Outcome.exists_ok (x := smithyStore 100)
    (p := fun s : ResourceState 2 =>
      smoothBars (mineTick [oneSmith (29 / 20)] 200) 14 (2, 4) s &&
      decide (smithySystem.Unhindered ((mineTick [oneSmith (29 / 20)] 200).times 14)
        (smithyStart s) (smithySystem.applyOfflineDelta
          ((mineTick [oneSmith (29 / 20)] 200).times 14) (smithyStart s)))) (by decide +kernel)
  obtain ⟨hsmooth, hlong⟩ := (Bool.and_eq_true _ _).mp hcheck
  have hheld := smithyStart_held s
  refine ⟨s, hs, ?_, ?_⟩
  · have hagree := (ProductionSystem.long_tick_agrees smithySystem
      (mineTick [oneSmith (29 / 20)] 200)
      (mineTick_regular 200 (by decide) (by decide) (by decide)) (by norm_num [mineTick])
      (smithyStart s) ProductionAccumulators.current_empty hheld 14).1
      (smoothBars_eq_true hsmooth).1 (of_decide_eq_true hlong)
    exact (hagree 1).2
  · have hsettled : smithySystem.Settled (smithyStart s).resources :=
      ⟨bounded_createResourceState hs, fun hmode => by cases hmode⟩
    have hfree : ∀ generator ∈ (mineTick [miner] 1000).generators, generator.Active →
        (generator.input (smithyStart s).resources.ids (mineTick [miner] 1000)).validConsumptions =
          [] := by
      intro generator hmem _
      rw [List.mem_singleton.mp hmem]
      rfl
    exact (ProductionSystem.long_tick_agrees smithySystem (mineTick [miner] 1000)
      (mineTick_regular 1000 (by decide) (by decide) (by decide)) (by norm_num [mineTick])
      (smithyStart s) ProductionAccumulators.current_empty hheld 10).2 hsettled hfree 0

end IdleEngine
