import IdleEngine.Content.Formulas
import IdleEngine.Entity.Operations
import IdleEngine.Lib.Staircase

/-!
# Experience

The levels of an instance are a staircase: the level formula prices the step to the next level, and
a price that is not positive is none. So `addExperience` ends where there is a last level or where
positive prices are bounded away from zero, neither lowers the level nor climbs beyond the last one,
loses no experience, and makes of two gains what it makes of their sum (`addExperience_additive`).
The formulas are those that the content schema accepts; in the context of an entity they all return.
-/

namespace IdleEngine

open Stateful Staircase Outcome

variable {config : EntityConfig} {conditionContext : Option ConditionContext}

/-! ### Formulas of an entity -/

/-- The formulas that `addExperience` reads are formulas of the schema. -/
structure EntityDefinition.Accepted (math : FormulaMath) (definition : EntityDefinition) :
    Prop where
  levelFormula : ∀ progression, definition.progression = some progression →
    AcceptedFormula math progression.levelFormula
  statGrowth : ∀ progression, definition.progression = some progression →
    ∀ id formula, progression.statGrowth id = some formula → AcceptedFormula math formula
  baseValue : ∀ stat ∈ definition.stats, AcceptedFormula math stat.baseValue
  minValue : ∀ stat ∈ definition.stats, ∀ formula, stat.minValue = some formula →
    AcceptedFormula math formula
  maxValue : ∀ stat ∈ definition.stats, ∀ formula, stat.maxValue = some formula →
    AcceptedFormula math formula

theorem resolves_buildFormulaContext (level step : ℕ) (target : ReferenceTarget) :
    (buildFormulaContext config conditionContext level step).resolves target = true := by
  rcases target with ⟨_ | _ | _⟩ | ⟨_ | _ | _ | _ | _, id⟩
  all_goals rfl

variable {math : FormulaMath}

theorem AcceptedFormula.returns {formula : NumericFormula} (h : AcceptedFormula math formula)
    (level step : ℕ) :
    ∃ value, evaluateFormula formula (buildFormulaContext config conditionContext level step) =
      .ok value := by
  obtain ⟨value, hvalue⟩ := @AcceptedFormula.returns_of_resolves _ _ h _ level rfl
    (@resolves_buildFormulaContext config conditionContext level step)
  exact ⟨normalizeFiniteNumber value, by rw [evaluateFormula, hvalue]; rfl⟩

theorem returns_optional {formula : Option NumericFormula}
    (h : ∀ f, formula = some f → AcceptedFormula math f) (level step : ℕ) :
    ∃ value, evaluateOptionalFormula formula
      (buildFormulaContext config conditionContext level step) = .ok value := by
  cases formula with
  | none => exact ⟨none, rfl⟩
  | some f =>
    obtain ⟨value, hvalue⟩ := (h f rfl).returns level step
    exact ⟨some value, by rw [evaluateOptionalFormula, hvalue]; rfl⟩

theorem computeStat_returns {definition : EntityDefinition} (h : definition.Accepted math)
    {stat : EntityStat} (hstat : stat ∈ definition.stats) (level step : ℕ) :
    ∃ value, computeStat definition level
      (buildFormulaContext config conditionContext level step) stat = .ok value := by
  obtain ⟨base, hbase⟩ := @AcceptedFormula.returns config conditionContext _ _
    (h.baseValue stat hstat) level step
  have haccepted : ∀ formula, definition.progression.bind (·.statGrowth stat.id) = some formula →
      AcceptedFormula math formula := by
    intro formula hformula
    obtain ⟨progression, hprogression, hgrows⟩ := Option.bind_eq_some_iff.mp hformula
    exact h.statGrowth progression hprogression _ _ hgrows
  obtain ⟨growth, hgrowth⟩ := @returns_optional config conditionContext _ _ haccepted level step
  obtain ⟨lower, hlower⟩ := @returns_optional config conditionContext _ _
    (h.minValue stat hstat) level step
  obtain ⟨upper, hupper⟩ := @returns_optional config conditionContext _ _
    (h.maxValue stat hstat) level step
  exact exists_bind_ok.mpr ⟨base, hbase, exists_bind_ok.mpr ⟨growth, hgrowth,
    exists_bind_ok.mpr ⟨lower, hlower, exists_bind_ok.mpr ⟨upper, hupper, _, rfl⟩⟩⟩⟩

theorem computeStats_returns {definition : EntityDefinition} (h : definition.Accepted math)
    (level step : ℕ) :
    ∃ stats, computeStats definition level
      (buildFormulaContext config conditionContext level step) = .ok stats := by
  rw [computeStats]
  exact foldlM_returns (fun _ stat hstat =>
    exists_map_ok.mpr (computeStat_returns h hstat level step)) _

/-! ### The staircase of an instance -/

variable (config conditionContext) in
/-- The price of the step to the next level; none at the last level, and none where the formula
throws or where its value is not positive. -/
def levelPrice (progression : EntityProgression) (step level : ℕ) : Option ℚ :=
  if progression.maxLevel.any (fun maxLevel => maxLevel ⊔ 1 ≤ level) then none
  else
    match evaluateFormula progression.levelFormula
      (buildFormulaContext config conditionContext level step) with
    | .ok required => if required ≤ 0 then none else some required
    | .error _ => none

variable {progression : EntityProgression} {step : ℕ}

/-- The loop of `addExperience` is a climb, where the level formula returns. -/
theorem levelUp_eq (hreturns : ∀ level, ∃ value, evaluateFormula progression.levelFormula
      (buildFormulaContext config conditionContext level step) = .ok value) (fuel level : ℕ)
    (experience : ℚ) :
    levelUp config conditionContext progression step fuel level experience =
      .ok (climb (levelPrice config conditionContext progression step) fuel level experience) := by
  induction fuel generalizing level experience with
  | zero => rfl
  | succ fuel ih =>
    rw [levelUp, climb, levelPrice]
    by_cases hlast : progression.maxLevel.any (fun maxLevel => maxLevel ⊔ 1 ≤ level) = true
    · rw [if_pos hlast, if_pos hlast]
    · obtain ⟨required, hrequired⟩ := hreturns level
      rw [if_neg hlast, if_neg hlast, hrequired]
      change (if required ≤ 0 ∨ experience < required then _ else _) = _
      by_cases hfree : required ≤ 0
      · rw [if_pos (.inl hfree)]
        simp only [if_pos hfree]
        rfl
      · simp only [hfree, false_or, if_false]
        split
        · rfl
        · exact ih (level + 1) (experience - required)

theorem levelPrice_last {maxLevel : ℕ} (hmax : progression.maxLevel = some maxLevel) (step : ℕ) :
    ∀ level, maxLevel ⊔ 1 ≤ level →
      levelPrice config conditionContext progression step level = none := by
  intro level hlevel
  rw [levelPrice, hmax, if_pos]
  simpa using hlevel

theorem levelPrice_eq_some {level : ℕ} {required : ℚ}
    (h : levelPrice config conditionContext progression step level = some required) :
    evaluateFormula progression.levelFormula
      (buildFormulaContext config conditionContext level step) = .ok required ∧ 0 < required := by
  rw [levelPrice] at h
  split at h
  · cases h
  · split at h
    · next value hvalue =>
      split at h
      · cases h
      · next hpositive =>
        obtain rfl := Option.some.inj h
        exact ⟨hvalue, not_le.mp hpositive⟩
    · cases h

/-- Levels come to an end: there is a last one, or the positive values of the level formula are
bounded away from zero. -/
def LevelsEnd (config : EntityConfig) (conditionContext : Option ConditionContext)
    (progression : EntityProgression) (step : ℕ) : Prop :=
  progression.maxLevel.isSome ∨ ∃ ε > 0, ∀ level value, evaluateFormula progression.levelFormula
    (buildFormulaContext config conditionContext level step) = .ok value → 0 < value → ε ≤ value

theorem LevelsEnd.exists_climbs (h : LevelsEnd config conditionContext progression step) (level : ℕ)
    (experience : ℚ) :
    ∃ last left, Climbs (levelPrice config conditionContext progression step) level experience last
      left := by
  rcases h with hmax | ⟨ε, hε, hbound⟩
  · obtain ⟨maxLevel, hmax⟩ := Option.isSome_iff_exists.mp hmax
    exact exists_climbs_of_cap (levelPrice_last hmax step) level experience
  · refine exists_climbs_of_bound hε (fun level required hrequired => ?_) level experience
    obtain ⟨hvalue, hpositive⟩ := levelPrice_eq_some hrequired
    exact hbound level required hvalue hpositive

/-! ### What a gain makes of an instance -/

section Gains

variable (config conditionContext) (definition : EntityDefinition) (step : ℕ)

/-- What an instance is after a gain: without levels only its experience grows, else it climbs, and
its stats are those of the new level where that is one. -/
inductive TrainsTo (state : EntityInstanceState) (gain : ℚ) : EntityInstanceState → Prop
  | plain (h : definition.progression = none) :
      TrainsTo state gain { state with experience := state.experience + gain }
  | climbed {progression : EntityProgression} {last : ℕ} {left : ℚ} {stats : OrderedMap String ℚ}
      (h : definition.progression = some progression)
      (hclimb : Climbs (levelPrice config conditionContext progression step) (state.level ⊔ 1)
        (state.experience + gain) last left)
      (hstats : computeStats definition last
        (buildFormulaContext config conditionContext last step) = .ok stats) :
      TrainsTo state gain
        { state with
          experience := left
          level := last
          stats := if last = state.level then state.stats else stats }

/-- The prices of the levels of a definition. -/
def priceOf (level : ℕ) : Option ℚ :=
  definition.progression.bind fun progression =>
    levelPrice config conditionContext progression step level

/-- What holds after a gain: the level is not lowered, nor raised beyond the last one; what was paid
for levels and the experience that is left make up the old experience and the gain; and the next
level cannot be paid for. -/
structure Gains (state : EntityInstanceState) (gain : ℚ) (trained : EntityInstanceState) :
    Prop where
  level_le : state.level ≤ trained.level
  le_maxLevel : ∀ progression maxLevel, definition.progression = some progression →
    progression.maxLevel = some maxLevel → trained.level ≤ state.level ⊔ (maxLevel ⊔ 1)
  conserved : cost (priceOf config conditionContext definition step) (state.level ⊔ 1)
    (trained.level ⊔ 1) + trained.experience = state.experience + gain
  settled : ∀ required, priceOf config conditionContext definition step trained.level =
    some required → trained.experience < required

/-- The loop of `addExperience` ends within the fuel. -/
def Completes (state : EntityInstanceState) (gain : ℚ) (fuel : ℕ) : Prop :=
  ∀ progression, definition.progression = some progression →
    ∃ result, levelUp config conditionContext progression step fuel (state.level ⊔ 1)
      (state.experience + gain) = .ok (some result)

end Gains

variable {definition : EntityDefinition} {step : ℕ} {state first both trained : EntityInstanceState}
  {gain x y : ℚ}

theorem TrainsTo.gains (h : TrainsTo config conditionContext definition step state gain trained) :
    Gains config conditionContext definition step state gain trained := by
  cases h with
  | plain h =>
    refine ⟨le_rfl, fun progression _ hprogression => ?_, ?_, fun required hrequired => ?_⟩
    · rw [h] at hprogression
      cases hprogression
    · rw [cost, Finset.Ico_self, Finset.sum_empty, zero_add]
    · rw [priceOf, h] at hrequired
      cases hrequired
  | @climbed progression last left stats h hclimb hstats =>
    have hle := hclimb.le
    have hprice : priceOf config conditionContext definition step =
        levelPrice config conditionContext progression step := by
      funext level
      rw [priceOf, h, Option.bind_some]
    refine ⟨by dsimp only; omega, fun other maxLevel hother hmax => ?_, ?_,
      fun required hrequired => ?_⟩
    · obtain rfl := Option.some.inj (h.symm.trans hother)
      have hcap := hclimb.le_cap (levelPrice_last hmax step)
      dsimp only
      omega
    · rw [hprice]
      dsimp only
      rw [max_eq_left (show 1 ≤ last by omega)]
      exact hclimb.conserved
    · rw [hprice] at hrequired
      exact hclimb.ends required hrequired

/-- Two gains make of an instance what their sum makes of it. -/
theorem TrainsTo.add (hy : 0 ≤ y)
    (h : TrainsTo config conditionContext definition step state x first)
    (h' : TrainsTo config conditionContext definition step first y both) :
    TrainsTo config conditionContext definition step state (x + y) both := by
  cases h with
  | plain h =>
    cases h' with
    | plain =>
      rw [add_assoc]
      exact .plain h
    | climbed hsome => cases h.symm.trans hsome
  | @climbed progression last left stats h hclimb hstats =>
    have hle := hclimb.le
    cases h' with
    | plain hnone => cases h.symm.trans hnone
    | @climbed progression' last' left' stats' h' hclimb' hstats' =>
      obtain rfl := Option.some.inj (h.symm.trans h')
      dsimp only at hclimb' ⊢
      rw [max_eq_left (show 1 ≤ last by omega)] at hclimb'
      have hle' := hclimb'.le
      have hboth := hclimb.add hy hclimb'
      rw [add_assoc] at hboth
      have htrained : TrainsTo config conditionContext definition step state (x + y) _ :=
        .climbed h hboth hstats'
      -- the stats are those of the level in the end, however it was reached
      have hstats : (if last' = last then (if last = state.level then state.stats else stats) else
          stats') = if last' = state.level then state.stats else stats' := by
        by_cases hsame : last' = last
        · subst hsame
          obtain rfl := Except.ok.inj (hstats.symm.trans hstats')
          rw [if_pos rfl]
        · rw [if_neg hsame, if_neg (by omega)]
      rwa [hstats]

theorem exists_trainsTo (haccepted : definition.Accepted math)
    (hend : ∀ progression, definition.progression = some progression →
      LevelsEnd config conditionContext progression step) (state : EntityInstanceState) (gain : ℚ) :
    ∃ trained, TrainsTo config conditionContext definition step state gain trained := by
  cases hprogression : definition.progression with
  | none => exact ⟨_, .plain hprogression⟩
  | some progression =>
    obtain ⟨last, left, hclimb⟩ := (hend progression hprogression).exists_climbs (state.level ⊔ 1)
      (state.experience + gain)
    obtain ⟨stats, hstats⟩ := @computeStats_returns config conditionContext _ _ haccepted last step
    exact ⟨_, .climbed hprogression hclimb hstats⟩

/-! ### The operation -/

theorem findInstance_run {s : EntitySystem} {instanceId : String}
    (hstate : s.instances.get? instanceId = some state) :
    findInstance instanceId s = .ok state s := by
  rw [findInstance, run_get_bind, hstate]
  rfl

theorem run_modify_bind {β : Type} (f : EntitySystem → EntitySystem) (g : PUnit → EntityM β)
    (s : EntitySystem) : ((modify f : EntityM PUnit) >>= g) s = g ⟨⟩ (f s) := rfl

/-- The end of `addExperience` leaves the instance that has climbed. -/
theorem settleLevel_run {s : EntitySystem} {instanceId : String} {last : ℕ} {left : ℚ}
    {stats : OrderedMap String ℚ}
    (hstats : computeStats definition last
      (buildFormulaContext config conditionContext last step) = .ok stats) :
    ∃ t, settleLevel config conditionContext definition instanceId state step last left s =
      .ok ⟨⟩ t ∧ t.instances.get? instanceId = some { state with
        experience := left
        level := last
        stats := if last = state.level then state.stats else stats } := by
  rw [settleLevel, run_modify_bind]
  by_cases hlevel : last = state.level
  · rw [if_pos hlevel, if_pos hlevel]
    refine ⟨_, rfl, ?_⟩
    rw [get?_setInstance_self, hlevel]
  · rw [if_neg hlevel, if_neg hlevel, run_modify_bind, hstats]
    exact ⟨_, rfl, get?_setInstance_self _ _ _⟩

/-- **A gain comes to an end** and makes of the instance what it should. -/
theorem TrainsTo.run (haccepted : definition.Accepted math)
    (hdefinition : config.definitionById state.entityId = some definition) (hgain : 0 < gain)
    (h : TrainsTo config conditionContext definition step state gain trained) :
    ∃ bound, ∀ fuel ≥ bound, Completes config conditionContext definition step state gain fuel ∧
      ∀ (s : EntitySystem) (instanceId : String), s.instances.get? instanceId = some state →
        ∃ t, addExperience config conditionContext fuel instanceId (.fin gain) step s = .ok ⟨⟩ t ∧
          t.instances.get? instanceId = some trained := by
  have hpositive : ¬ normalizeFiniteNumber (.fin gain) ≤ 0 := not_le.mpr hgain
  cases h with
  | plain h =>
    refine ⟨0, fun fuel _ => ⟨fun progression hprogression => ?_, fun s instanceId hstate => ?_⟩⟩
    · rw [h] at hprogression
      cases hprogression
    · rw [addExperience, run_bind_ok (findInstance_run hstate), hdefinition]
      simp only [if_neg hpositive, h]
      rw [run_modify_bind]
      exact ⟨_, rfl, get?_setInstance_self _ _ _⟩
  | @climbed progression last left stats h hclimb hstats =>
    have hreturns := fun level => @AcceptedFormula.returns config conditionContext _ _
      (haccepted.levelFormula progression h) level step
    refine ⟨last + 1, fun fuel hfuel => ?_⟩
    have hlevel := levelUp_eq hreturns fuel (state.level ⊔ 1) (state.experience + gain)
    rw [hclimb.climb_eq (by omega)] at hlevel
    constructor
    · intro other hother
      obtain rfl := Option.some.inj (h.symm.trans hother)
      exact ⟨_, hlevel⟩
    · intro s instanceId hstate
      rw [addExperience, run_bind_ok (findInstance_run hstate), hdefinition]
      simp only [if_neg hpositive, h]
      rw [run_modify_bind]
      change ∃ t, (EntityM.ofExcept (levelUp config conditionContext progression step fuel
        (state.level ⊔ 1) (state.experience + gain)) >>= _) _ = _ ∧ _
      rw [hlevel]
      exact @settleLevel_run config conditionContext definition step
        { state with experience := state.experience + gain } _ _ _ _ _ hstats

theorem TrainsTo.entityId
    (h : TrainsTo config conditionContext definition step state gain trained) :
    trained.entityId = state.entityId := by
  cases h with
  | plain => rfl
  | climbed => rfl

/-- **Experience is conserved and additive.** For an instance of an entity of the schema whose
levels come to an end, two gains at one step, and their sum: every run comes to an end; the gain is
accounted for without lowering the level or going beyond the last one; and the two gains make of the
instance what their sum makes of it. -/
theorem addExperience_additive (config : EntityConfig) (conditionContext : Option ConditionContext)
    (math : FormulaMath) (definition : EntityDefinition) (haccepted : definition.Accepted math)
    (step : ℕ) (hend : ∀ progression, definition.progression = some progression →
      LevelsEnd config conditionContext progression step)
    (s : EntitySystem) (instanceId : String) (state : EntityInstanceState)
    (hstate : s.instances.get? instanceId = some state)
    (hdefinition : config.definitionById state.entityId = some definition) {x y : ℚ} (hx : 0 < x)
    (hy : 0 < y) :
    ∃ first both bound, Gains config conditionContext definition step state x first ∧
      Gains config conditionContext definition step first y both ∧
      Gains config conditionContext definition step state (x + y) both ∧
      ∀ fuel ≥ bound,
        Completes config conditionContext definition step state x fuel ∧
        Completes config conditionContext definition step first y fuel ∧
        Completes config conditionContext definition step state (x + y) fuel ∧
        ∃ t u v, addExperience config conditionContext fuel instanceId (.fin x) step s = .ok ⟨⟩ t ∧
          t.instances.get? instanceId = some first ∧
          addExperience config conditionContext fuel instanceId (.fin y) step t = .ok ⟨⟩ u ∧
          u.instances.get? instanceId = some both ∧
          addExperience config conditionContext fuel instanceId (.fin (x + y)) step s = .ok ⟨⟩ v ∧
          v.instances.get? instanceId = some both := by
  obtain ⟨first, hfirst⟩ := exists_trainsTo haccepted hend state x
  obtain ⟨both, hboth⟩ := exists_trainsTo haccepted hend first y
  have hsum := hfirst.add hy.le hboth
  have hfirstDefinition : config.definitionById first.entityId = some definition := by
    rwa [hfirst.entityId]
  obtain ⟨n₁, hrun₁⟩ := hfirst.run haccepted hdefinition hx
  obtain ⟨n₂, hrun₂⟩ := hboth.run haccepted hfirstDefinition hy
  obtain ⟨n₃, hrun₃⟩ := hsum.run haccepted hdefinition (add_pos hx hy)
  refine ⟨first, both, n₁ ⊔ (n₂ ⊔ n₃), hfirst.gains, hboth.gains, hsum.gains, fun fuel hfuel => ?_⟩
  obtain ⟨hends₁, hadd₁⟩ := hrun₁ fuel (by omega)
  obtain ⟨hends₂, hadd₂⟩ := hrun₂ fuel (by omega)
  obtain ⟨hends₃, hadd₃⟩ := hrun₃ fuel (by omega)
  obtain ⟨t, ht, htfirst⟩ := hadd₁ s instanceId hstate
  obtain ⟨u, hu, huboth⟩ := hadd₂ t instanceId htfirst
  obtain ⟨v, hv, hvboth⟩ := hadd₃ s instanceId hstate
  exact ⟨hends₁, hends₂, hends₃, t, u, v, ht, htfirst, hu, huboth, hv, hvboth⟩

/-- A guard whose levels cost ten times the level, five levels at most. -/
def risingGuard : EntityDefinition :=
  { id := "guard", stats := [], maxCount := none, startCount := 0, trackInstances := true
    progression := some
      { levelFormula := fun context => (FormulaNode.linear 0 10).evaluate naturalPowers context
        maxLevel := some 5
        statGrowth := fun _ => none }
    unlockCondition := none, visibilityCondition := none, unlocked := true, visible := true }

theorem risingGuard_accepted : risingGuard.Accepted naturalPowers where
  levelFormula := by
    rintro progression ⟨⟩
    exact ⟨.linear 0 10, ⟨trivial, by decide, by decide⟩, rfl⟩
  statGrowth := by
    rintro progression ⟨⟩ id formula ⟨⟩
  baseValue := fun stat hstat => (by cases hstat)
  minValue := fun stat hstat => (by cases hstat)
  maxValue := fun stat hstat => (by cases hstat)

def risingGuards : EntityConfig :=
  { definitions := [risingGuard], nodup := by decide, stepDurationMs := .fin 100 }

/-- A guard that was just created. -/
def recruit : EntityInstanceState :=
  { instanceId := "guard_0_000001", entityId := "guard", level := 1, experience := 0
    stats := OrderedMap.empty, assignment := none }

/-- The recruit gets 15 and then 20. -/
theorem addExperience_additive_recruit :
    ∃ first both, Gains risingGuards none risingGuard 3 recruit 15 first ∧
      Gains risingGuards none risingGuard 3 first 20 both ∧
      Gains risingGuards none risingGuard 3 recruit (15 + 20) both := by
  obtain ⟨first, both, -, hfirst, hboth, hsum, -⟩ := addExperience_additive risingGuards none
    naturalPowers risingGuard risingGuard_accepted 3 (by rintro progression ⟨⟩; exact .inl rfl)
    ((EntitySystem.blank id).setInstance "guard_0_000001" recruit) "guard_0_000001" recruit rfl rfl
    (x := 15) (y := 20) (by decide) (by decide)
  exact ⟨first, both, hfirst, hboth, hsum⟩

end IdleEngine
