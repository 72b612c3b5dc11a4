import IdleEngine.Progression.Charges
import IdleEngine.Progression.Rates

/-!
# Buying many at once

A purchase of so many units is compared with as many purchases of one. Both ask for the costs of
the same levels (`runCosts`): the bulk quote adds them up per resource, the repeated purchases pay
them level by level. Applying the effects of upgrades a second time changes no amount (`EffectsSettled`),
so a quote between two purchases takes nothing away, and paying level by level is the same as
paying the sum.
-/

namespace IdleEngine

open Payment List Option

variable {sh : ContentShape} (options : PurchaseOptions sh)

/-- A formula that reads no amount of a resource. -/
def NumericFormula.IgnoresResources (formula : NumericFormula) : Prop :=
  ∀ (context : FormulaContext) (resource : String → Option ℚ),
    formula { context with resource } = formula context

/-- The costs of a purchase as a list. -/
def PurchaseCosts.toList : PurchaseCosts → List GeneratorCost
  | .currency cost => [cost]
  | .costs list => list

/-- No cost curve of a purchase reads the amount of a resource. -/
def GeneratorPurchase.IgnoresResources (purchase : GeneratorPurchase) : Prop :=
  ∀ cost ∈ purchase.costs.toList, cost.costCurve.IgnoresResources

namespace Coordinator

/-- The effects of upgrades at the last step. -/
def currentEffects (c : Coordinator sh) : UpgradeEffects sh :=
  c.cachedUpgradeEffects options.toProgressionOptions c.lastUpdatedStep

/-- The state with the effects at the last step applied, as a quote leaves it. -/
def quoted (c : Coordinator sh) : Coordinator sh :=
  (c.getUpgradeEffects options.toProgressionOptions c.lastUpdatedStep).2

theorem quoted_eq (c : Coordinator sh) :
    c.quoted options = c.applyUpgradeEffects options.toProgressionOptions c.lastUpdatedStep
      (c.currentEffects options) := rfl

/-- The costs of one level, as the state prices them. -/
def unitCosts (c : Coordinator sh) (i : Fin sh.generators) (level : ℕ) :
    Option (List GeneratorResourceCost) :=
  (options.purchase i).costs.toList.mapM (c.computeListedCost options i level
    ((c.currentEffects options).generatorCostMultipliers i))

/-- The costs of one level that can be bought: it is below the maximum and costs something. -/
def levelCosts (c : Coordinator sh) (i : Fin sh.generators) (level : ℕ) :
    Option (List GeneratorResourceCost) :=
  if (options.content.generators i).maxLevel.any fun maxLevel => maxLevel ≤ level then none
  else (c.unitCosts options i level).filter fun costs => !costs.isEmpty

/-- The costs of so many levels from a level on. -/
def runCosts (c : Coordinator sh) (i : Fin sh.generators) :
    ℕ → ℕ → Option (List GeneratorResourceCost)
  | _, 0 => some []
  | level, count + 1 => do
      let costs ← c.levelCosts options i level
      let rest ← runCosts c i (level + 1) count
      return costs ++ rest

end Coordinator

open Coordinator

/-! ### States with the same prices -/

/-- Two states in which the levels of a generator cost the same. -/
structure SamePrices (i : Fin sh.generators) (c c' : Coordinator sh) : Prop where
  lastUpdatedStep : c'.lastUpdatedStep = c.lastUpdatedStep
  purchases : c'.inputs.purchases = c.inputs.purchases
  owned : ∀ j, j ≠ i → (c'.generators j).owned = (c.generators j).owned
  effects : c'.currentEffects options = c.currentEffects options

variable {options} {i : Fin sh.generators} {c c' : Coordinator sh}

section

variable (h : SamePrices options i c c')
include h

theorem SamePrices.trans {c'' : Coordinator sh}
    (h' : SamePrices options i c' c'') : SamePrices options i c c'' where
  lastUpdatedStep := h'.lastUpdatedStep.trans h.lastUpdatedStep
  purchases := h'.purchases.trans h.purchases
  owned j hj := (h'.owned j hj).trans (h.owned j hj)
  effects := h'.effects.trans h.effects

theorem SamePrices.costContext (level : ℕ) : c'.costContext options i level =
      { c.costContext options i level with
        resource := (c'.costContext options i level).resource } := by
  have hgenerator : (c'.costContext options i level).generator =
      (c.costContext options i level).generator := by
    funext id
    change (if id = (options.content.generators i).id then some (level : ℚ)
        else some (c'.inputs.getGeneratorLevel options.toProgressionOptions id)) =
      if id = (options.content.generators i).id then some (level : ℚ)
        else some (c.inputs.getGeneratorLevel options.toProgressionOptions id)
    split
    · rfl
    · next hid =>
      rw [FormulaInputs.getGeneratorLevel, FormulaInputs.getGeneratorLevel, valueOfId, valueOfId]
      cases hj : indexOfId (fun j => (options.content.generators j).id) id with
      | none => rfl
      | some j =>
        -- another id names another generator
        have hne : j ≠ i := by
          rintro rfl
          exact hid ((indexOfId_eq_some_iff options.content.generator_ids).mp hj).symm
        dsimp only
        rw [show c'.inputs.owned j = c.inputs.owned j from h.owned j hne]
  have hupgrade : (c'.costContext options i level).upgrade =
      (c.costContext options i level).upgrade := by
    funext id
    change some (c'.inputs.getUpgradePurchases options.toProgressionOptions id) =
      some (c.inputs.getUpgradePurchases options.toProgressionOptions id)
    rw [FormulaInputs.getUpgradePurchases, FormulaInputs.getUpgradePurchases, h.purchases]
  have hvariables : (c'.costContext options i level).variableValue =
      (c.costContext options i level).variableValue := by
    change formulaVariables level (c'.lastUpdatedStep * _) _ =
      formulaVariables level (c.lastUpdatedStep * _) _
    rw [h.lastUpdatedStep]
  change FormulaContext.mk (c'.costContext options i level).variableValue _
    (c'.costContext options i level).generator (c'.costContext options i level).upgrade _ _ = _
  rw [hgenerator, hupgrade, hvariables]
  rfl

theorem SamePrices.computeListedCost {cost : GeneratorCost}
    (hcurve : cost.costCurve.IgnoresResources) (level : ℕ) (multiplier : ℚ) :
    c'.computeListedCost options i level multiplier cost =
      c.computeListedCost options i level multiplier cost := by
  rw [Coordinator.computeListedCost, Coordinator.computeListedCost, evaluateCostFormula,
    evaluateCostFormula, evaluateFiniteNumericFormula, evaluateFiniteNumericFormula,
    h.costContext level, hcurve]

theorem SamePrices.unitCosts (hcurves : (options.purchase i).IgnoresResources) (level : ℕ) :
    c'.unitCosts options i level = c.unitCosts options i level := by
  have hmap : ∀ l : List GeneratorCost, (∀ cost ∈ l, cost.costCurve.IgnoresResources) →
      ∀ multiplier, l.mapM (c'.computeListedCost options i level multiplier) =
        l.mapM (c.computeListedCost options i level multiplier) := by
    intro l hl multiplier
    induction l with
    | nil => rfl
    | cons cost l ih =>
      rw [mapM_cons, mapM_cons, h.computeListedCost (hl cost mem_cons_self),
        ih fun other hother => hl other (mem_cons_of_mem cost hother)]
  rw [Coordinator.unitCosts, Coordinator.unitCosts, h.effects]
  exact hmap _ hcurves _

theorem SamePrices.runCosts (hcurves : (options.purchase i).IgnoresResources) (level count : ℕ) :
    c'.runCosts options i level count = c.runCosts options i level count := by
  induction count generalizing level with
  | zero => rfl
  | succ count ih =>
    rw [Coordinator.runCosts, Coordinator.runCosts, Coordinator.levelCosts, Coordinator.levelCosts,
      h.unitCosts hcurves, ih]

end

/-! ### Costs -/

theorem finalCost_nonneg {evaluatedCost costMultiplier multiplier cost : ℚ}
    (h : finalCost evaluatedCost costMultiplier multiplier = some cost) : 0 ≤ cost := by
  rw [finalCost] at h
  split at h
  · cases h
  · next hnonneg =>
    obtain rfl := some.inj h
    exact not_lt.mp hnonneg

variable {costs : List GeneratorResourceCost}

theorem nonnegCosts_of_mapM {f : GeneratorCost → Option GeneratorResourceCost}
    (hf : ∀ cost priced, f cost = some priced → 0 ≤ priced.amount) {l : List GeneratorCost}
    (h : l.mapM f = some costs) : NonnegCosts costs := by
  induction l generalizing costs with
  | nil =>
    obtain rfl := some.inj h
    exact nonnegCosts_nil
  | cons cost l ih =>
    rw [mapM_cons] at h
    obtain ⟨priced, hpriced, h⟩ := bind_eq_some_iff.mp h
    obtain ⟨rest, hrest, h⟩ := bind_eq_some_iff.mp h
    obtain rfl := some.inj h
    exact forall_mem_cons.mpr ⟨hf cost priced hpriced, ih hrest⟩

variable {level : ℕ}

theorem computeListedCost_nonneg {multiplier : ℚ} {cost : GeneratorCost}
    {priced : GeneratorResourceCost}
    (h : c.computeListedCost options i level multiplier cost = some priced) :
    0 ≤ priced.amount := by
  rw [computeListedCost] at h
  obtain ⟨costMultiplier, -, h⟩ := bind_eq_some_iff.mp h
  obtain ⟨evaluatedCost, -, h⟩ := bind_eq_some_iff.mp h
  obtain ⟨amount, hamount, h⟩ := bind_eq_some_iff.mp h
  obtain rfl := some.inj h
  exact finalCost_nonneg hamount

theorem unitCosts_nonneg (h : c.unitCosts options i level = some costs) : NonnegCosts costs :=
  nonnegCosts_of_mapM (fun _ _ => computeListedCost_nonneg) h

theorem levelCosts_eq_some_iff :
    c.levelCosts options i level = some costs ↔
      (∀ maxLevel, (options.content.generators i).maxLevel = some maxLevel → level < maxLevel) ∧
        c.unitCosts options i level = some costs ∧ costs ≠ [] := by
  rw [levelCosts]
  cases (options.content.generators i).maxLevel with
  | none => simp [filter_eq_some_iff]
  | some maxLevel =>
    by_cases hlevel : maxLevel ≤ level
    · simp [hlevel]
    · simp [hlevel, not_le.mp hlevel, filter_eq_some_iff]

variable {count : ℕ}

theorem runCosts_succ :
    c.runCosts options i level (count + 1) = some costs ↔
      ∃ first rest, c.levelCosts options i level = some first ∧
        c.runCosts options i (level + 1) count = some rest ∧ first ++ rest = costs := by
  rw [runCosts]
  constructor
  · intro h
    obtain ⟨first, hfirst, h⟩ := bind_eq_some_iff.mp h
    obtain ⟨rest, hrest, h⟩ := bind_eq_some_iff.mp h
    exact ⟨first, rest, hfirst, hrest, some.inj h⟩
  · rintro ⟨first, rest, hfirst, hrest, rfl⟩
    rw [hfirst, hrest]
    rfl

theorem runCosts_one : c.runCosts options i level 1 = c.levelCosts options i level := by
  rw [runCosts, runCosts]
  cases c.levelCosts options i level with
  | none => rfl
  | some costs => exact congrArg some (append_nil costs)

theorem runCosts_nonneg (h : c.runCosts options i level count = some costs) :
    NonnegCosts costs := by
  induction count generalizing level costs with
  | zero =>
    obtain rfl := some.inj h
    exact nonnegCosts_nil
  | succ count ih =>
    obtain ⟨first, rest, hfirst, hrest, rfl⟩ := runCosts_succ.mp h
    exact forall_mem_append.mpr
      ⟨unitCosts_nonneg (levelCosts_eq_some_iff.mp hfirst).2.1, ih hrest⟩

theorem runCosts_ne_nil (hcount : 0 < count) (h : c.runCosts options i level count = some costs) :
    costs ≠ [] := by
  obtain ⟨k, rfl⟩ := Nat.exists_eq_succ_of_ne_zero hcount.ne'
  obtain ⟨first, rest, hfirst, -, rfl⟩ := runCosts_succ.mp h
  intro hempty
  exact (levelCosts_eq_some_iff.mp hfirst).2.2 (append_eq_nil_iff.mp hempty).1

/-- Levels that can be bought end below the maximum. -/
theorem runCosts_le (hcount : 0 < count) (h : c.runCosts options i level count = some costs)
    {maxLevel : ℕ} (hmax : (options.content.generators i).maxLevel = some maxLevel) :
    level + count ≤ maxLevel := by
  induction count generalizing level costs with
  | zero => exact absurd hcount (lt_irrefl 0)
  | succ count ih =>
    obtain ⟨first, rest, hfirst, hrest, -⟩ := runCosts_succ.mp h
    have hlevel := (levelCosts_eq_some_iff.mp hfirst).1 maxLevel hmax
    rcases Nat.eq_zero_or_pos count with rfl | hpos
    · omega
    · have hle := ih hpos hrest
      omega

/-! ### Quotes -/

variable (options) in
/-- The effects of upgrades are cached and applied: each override is the capacity of its resource,
and no other capacity is remembered as overridden. -/
structure EffectsSettled (c : Coordinator sh) : Prop where
  cached : c.upgradeEffectsCache = some (c.lastUpdatedStep, c.currentEffects options)
  capacityOverrideIds : c.capacityOverrideIds =
    (c.currentEffects options).resourceCapacityOverrides.entries.map Prod.fst
  capacities : ∀ r capacity,
    (c.currentEffects options).resourceCapacityOverrides.get? r = some capacity →
      (c.resources.stored r).capacity = capacity ∧ (c.resources.amounts r : WithTop ℚ) ≤ capacity

theorem currentEffects_quoted (c : Coordinator sh) :
    (c.quoted options).currentEffects options = c.currentEffects options := by
  rw [quoted_eq, applyUpgradeEffects_eq, currentEffects, cachedUpgradeEffects]
  exact if_pos rfl

theorem EffectsSettled.currentEffects_eq (h : EffectsSettled options c)
    (hcache : c'.upgradeEffectsCache = c.upgradeEffectsCache)
    (hstep : c'.lastUpdatedStep = c.lastUpdatedStep) :
    c'.currentEffects options = c.currentEffects options := by
  rw [currentEffects, cachedUpgradeEffects, hcache, hstep, h.cached]
  exact if_pos rfl

theorem settled_quoted (c : Coordinator sh) : EffectsSettled options (c.quoted options) where
  cached := by
    rw [currentEffects_quoted, quoted_eq, applyUpgradeEffects_eq]
  capacityOverrideIds := by
    rw [currentEffects_quoted, quoted_eq, applyUpgradeEffects_eq]
  capacities := by
    intro r capacity hget
    rw [currentEffects_quoted] at hget
    have hstored := c.applyUpgradeEffects_stored options.toProgressionOptions c.lastUpdatedStep
      (c.currentEffects options) r
    rw [overriddenCapacity, hget] at hstored
    change ((c.quoted options).resources.stored r).capacity = capacity ∧
      (((c.quoted options).resources.stored r).amount : WithTop ℚ) ≤ capacity
    rw [quoted_eq, hstored]
    exact ⟨rfl, clampToCapacity_le_capacity _ _⟩

/-- **Applying settled effects again changes no amount.** -/
theorem EffectsSettled.amounts (h : EffectsSettled options c) :
    (c.quoted options).resources.amounts = c.resources.amounts := by
  funext r
  have hstored := c.applyUpgradeEffects_stored options.toProgressionOptions c.lastUpdatedStep
    (c.currentEffects options) r
  have hamount : ∀ unlocks : Prop, ∀ _ : Decidable unlocks,
      (if unlocks then (c.resources.stored r).unlockAndShow else c.resources.stored r).amount =
        c.resources.amounts r := by
    intro unlocks _
    split <;> rfl
  change ((c.quoted options).resources.stored r).amount = _
  rw [quoted_eq, hstored, overriddenCapacity]
  cases hget : (c.currentEffects options).resourceCapacityOverrides.get? r with
  | some capacity =>
    obtain ⟨-, hle⟩ := h.capacities r capacity hget
    change clampToCapacity _ _ = _
    rw [hamount, clampToCapacity_of_le hle]
  | none =>
    have hkept : c.capacityOverrideIds.contains r = false := by
      rw [h.capacityOverrideIds, ← Bool.not_eq_true, contains_iff_mem,
        OrderedMap.mem_keys_iff, hget]
      exact Bool.false_ne_true
    simp only [hkept, Bool.false_eq_true, if_false]
    exact hamount _ _

variable (options) in
/-- What quotes leave of a state. -/
structure Requoted (c c' : Coordinator sh) : Prop where
  lastUpdatedStep : c'.lastUpdatedStep = c.lastUpdatedStep
  purchases : c'.inputs.purchases = c.inputs.purchases
  owned : ∀ j, (c'.generators j).owned = (c.generators j).owned
  isUnlocked : ∀ j, (c.generators j).isUnlocked = true → (c'.generators j).isUnlocked = true
  isVisible : ∀ j, (c.generators j).isVisible = true → (c'.generators j).isVisible = true
  ids : c'.resources.ids = c.resources.ids
  effects : c'.currentEffects options = c.currentEffects options
  amounts : c'.resources.amounts = (c.quoted options).resources.amounts
  settled : EffectsSettled options c'

variable (options) in
theorem requoted_quoted (c : Coordinator sh) : Requoted options c (c.quoted options) := by
  have hgenerators : (c.quoted options).generators = (c.applyUnlockedGenerators
      (c.currentEffects options).unlockedGenerators c.lastUpdatedStep).generators := by
    rw [quoted_eq, applyUpgradeEffects_eq]
  refine
    { lastUpdatedStep := by rw [quoted_eq, applyUpgradeEffects_eq]
      purchases := by rw [quoted_eq, applyUpgradeEffects_eq]; rfl
      owned := fun j => ?_
      isUnlocked := fun j h => ?_
      isVisible := fun j h => ?_
      ids := (c.getUpgradeEffects_steps options.toProgressionOptions c.lastUpdatedStep).ids
      effects := currentEffects_quoted c
      amounts := rfl
      settled := settled_quoted c }
  all_goals
    rw [hgenerators, applyUnlockedGenerators_generators]
    split
  · rfl
  · rfl
  · rfl
  · exact h
  · rfl
  · exact h

namespace Requoted

variable {c'' : Coordinator sh}

theorem trans (h : Requoted options c c') (h' : Requoted options c' c'') :
    Requoted options c c'' where
  lastUpdatedStep := h'.lastUpdatedStep.trans h.lastUpdatedStep
  purchases := h'.purchases.trans h.purchases
  owned j := (h'.owned j).trans (h.owned j)
  isUnlocked j hj := h'.isUnlocked j (h.isUnlocked j hj)
  isVisible j hj := h'.isVisible j (h.isVisible j hj)
  ids := h'.ids.trans h.ids
  effects := h'.effects.trans h.effects
  amounts := (h'.amounts.trans h.settled.amounts).trans h.amounts
  settled := h'.settled

theorem samePrices (h : Requoted options c c') : SamePrices options i c c' :=
  ⟨h.lastUpdatedStep, h.purchases, fun j _ => h.owned j, h.effects⟩

theorem payable (h : Requoted options c c') (costs : List GeneratorResourceCost) :
    Payable c'.resources costs ↔ Payable (c.quoted options).resources costs :=
  payable_congr (h.ids.trans (requoted_quoted options c).ids.symm) h.amounts costs

end Requoted

/-- A level's costs are computed as listed; when there are some, the effects are applied. -/
theorem computeGeneratorCosts_eq (hcurves : (options.purchase i).IgnoresResources) (level : ℕ) :
    (c.computeGeneratorCosts options i level).1 = c.unitCosts options i level ∧
      ∀ costs, c.unitCosts options i level = some costs →
        (c.computeGeneratorCosts options i level).2 = c.quoted options := by
  have hquoted := (requoted_quoted options c).samePrices (i := i)
  rw [computeGeneratorCosts, unitCosts]
  rw [GeneratorPurchase.IgnoresResources] at hcurves
  cases hpurchase : (options.purchase i).costs with
  | currency cost =>
    dsimp only [PurchaseCosts.toList]
    rw [mapM_cons, mapM_nil, computeGeneratorCost, computeListedCost]
    cases cost.multiplier? with
    | none => exact ⟨rfl, fun _ h => by cases h⟩
    | some costMultiplier =>
      cases c.evaluateCostFormula options i level cost.costCurve with
      | none => exact ⟨rfl, fun _ h => by cases h⟩
      | some evaluatedCost =>
        refine ⟨?_, fun _ _ => rfl⟩
        change Option.map _ (finalCost evaluatedCost costMultiplier
          ((c.currentEffects options).generatorCostMultipliers i)) = _
        dsimp only [bind_eq_bind, bind_some]
        cases finalCost evaluatedCost costMultiplier
          ((c.currentEffects options).generatorCostMultipliers i) <;> rfl
  | costs list =>
    rw [hpurchase] at hcurves
    refine ⟨?_, fun _ _ => rfl⟩
    have hunit := hquoted.unitCosts
      (by rw [GeneratorPurchase.IgnoresResources, hpurchase]; exact hcurves) level
    rw [unitCosts, unitCosts, hpurchase, hquoted.effects] at hunit
    exact hunit

theorem nonneg_noTotals : NonnegCosts (listedCosts (@OrderedMap.empty String ℚ).entries) :=
  nonnegCosts_nil

/-- **The bulk quote** adds up the costs of its levels, and leaves the state quoted. -/
theorem computeBulkPurchaseCosts_eq (hcurves : (options.purchase i).IgnoresResources)
    (count level : ℕ) {totals : OrderedMap String ℚ}
    (htotals : NonnegCosts (listedCosts totals.entries)) (c : Coordinator sh) :
    (c.runCosts options i level count = none →
        (computeBulkPurchaseCosts options i count level totals c).1 = none) ∧
      ∀ costs, c.runCosts options i level count = some costs →
        ∃ totals', (computeBulkPurchaseCosts options i count level totals c).1 = some totals' ∧
          Adds totals costs totals' ∧
          (0 < count →
            Requoted options c (computeBulkPurchaseCosts options i count level totals c).2) := by
  induction count generalizing level totals c with
  | zero =>
    refine ⟨fun h => absurd h (some_ne_none _), fun costs h => ?_⟩
    obtain rfl := some.inj h
    obtain ⟨totals', hadd, hadds⟩ := foldlM_addCost_adds nonnegCosts_nil htotals
    obtain rfl := some.inj hadd
    exact ⟨_, rfl, hadds, fun hpos => absurd hpos (lt_irrefl 0)⟩
  | succ count ih =>
    rw [computeBulkPurchaseCosts]
    obtain ⟨hcosts, hstate⟩ := computeGeneratorCosts_eq (c := c) hcurves level
    cases hmax : ((options.content.generators i).maxLevel.any fun m => decide (m ≤ level)) with
    | true =>
      have hnone : c.runCosts options i level (count + 1) = none := by
        rw [runCosts, levelCosts, hmax, if_pos rfl]
        rfl
      rw [hnone, if_pos rfl]
      exact ⟨fun _ => rfl, fun _ h => by cases h⟩
    | false =>
      rw [if_neg Bool.false_ne_true]
      dsimp only
      rw [hcosts]
      cases hunit : c.unitCosts options i level with
      | none =>
        have hnone : c.runCosts options i level (count + 1) = none := by
          rw [runCosts, levelCosts, hmax, if_neg Bool.false_ne_true, hunit]
          rfl
        rw [hnone]
        exact ⟨fun _ => rfl, fun _ h => by cases h⟩
      | some first =>
        have hlevel : c.levelCosts options i level =
            (some first).filter fun costs => !costs.isEmpty := by
          rw [levelCosts, hmax, if_neg Bool.false_ne_true, hunit]
        rw [hstate first hunit]
        cases first with
        | nil =>
          have hnone : c.runCosts options i level (count + 1) = none := by
            rw [runCosts, hlevel]
            rfl
          rw [hnone]
          exact ⟨fun _ => rfl, fun _ h => by cases h⟩
        | cons cost others =>
          obtain ⟨totals₁, hadd, hfirst⟩ := foldlM_addCost_adds (unitCosts_nonneg hunit) htotals
          dsimp only
          rw [hadd]
          dsimp only
          have hquoted := requoted_quoted options c
          -- the levels that are left cost the same once the effects are applied
          have hsame : (c.quoted options).runCosts options i (level + 1) count =
              c.runCosts options i (level + 1) count :=
            hquoted.samePrices.runCosts hcurves (level + 1) count
          have hrun : c.runCosts options i level (count + 1) =
              (c.runCosts options i (level + 1) count).map (cost :: others ++ ·) := by
            rw [runCosts, hlevel]
            cases c.runCosts options i (level + 1) count <;> rfl
          obtain ⟨hnone, hsome⟩ := ih (level + 1) hfirst.nonneg (c.quoted options)
          rw [hsame] at hnone hsome
          rw [hrun]
          refine ⟨fun h => hnone (map_eq_none_iff.mp h), fun costs h => ?_⟩
          obtain ⟨rest, hrest, rfl⟩ := map_eq_some_iff.mp h
          obtain ⟨totals', hloop, hadds, hleft⟩ := hsome rest hrest
          refine ⟨totals', hloop, hfirst.trans hadds, fun _ => ?_⟩
          rcases Nat.eq_zero_or_pos count with rfl | hpos
          · exact hquoted
          · exact hquoted.trans (hleft hpos)

/-! ### One purchase -/

variable (options) in
/-- The purchase of so many units of a generator, as a command asks for it. -/
def unitsOf (i : Fin sh.generators) (count : ℕ) : PurchaseGeneratorPayload :=
  { generatorId := (options.content.generators i).id, count := .fin count }

variable (options) in
/-- The generator is offered, and so many units can be asked for at once. -/
structure Offered (c : Coordinator sh) (i : Fin sh.generators) (count : ℕ) : Prop where
  isUnlocked : (c.generators i).isUnlocked = true
  isVisible : (c.generators i).isVisible = true
  maxBulk : ∀ maxBulk, (options.purchase i).maxBulk = some maxBulk → count ≤ maxBulk

theorem isPurchasable_iff :
    c.isPurchasable options i count = true ↔ Offered options c i count ∧
      ∀ maxLevel, (options.content.generators i).maxLevel = some maxLevel →
        (c.generators i).owned < maxLevel := by
  have hall : ∀ (limit : Option ℕ) (test : ℕ → Bool),
      limit.all test = true ↔ ∀ m, limit = some m → test m = true := by
    intro limit test
    cases limit with
    | none => simp
    | some m => simp
  rw [isPurchasable, Bool.and_eq_true, Bool.and_eq_true, Bool.and_eq_true, hall, hall]
  simp only [decide_eq_true_eq]
  exact ⟨fun ⟨⟨⟨hunlocked, hvisible⟩, hbulk⟩, hmax⟩ => ⟨⟨hunlocked, hvisible, hbulk⟩, hmax⟩,
    fun ⟨⟨hunlocked, hvisible, hbulk⟩, hmax⟩ => ⟨⟨⟨hunlocked, hvisible⟩, hbulk⟩, hmax⟩⟩

theorem purchaseCount_natCast (h : 0 < count) :
    purchaseCount? (.fin count) = some count := by
  rw [purchaseCount?, if_pos ⟨Rat.den_natCast count, Nat.cast_pos.mpr h⟩, Rat.num_natCast]
  rfl

theorem getPurchasableRecord_eq (h : 0 < count) :
    c.getPurchasableRecord options (unitsOf options i count).generatorId
        (unitsOf options i count).count =
      if c.isPurchasable options i count then some (i, count) else none := by
  have hindex : indexOfId (fun j => (options.content.generators j).id)
      (unitsOf options i count).generatorId = some i :=
    (indexOfId_eq_some_iff options.content.generator_ids).mpr rfl
  rw [getPurchasableRecord, unitsOf, purchaseCount_natCast h]
  rw [unitsOf] at hindex
  rw [hindex]
  rfl

theorem applyPurchase_eq (h : 0 < count) :
    c.applyPurchase options (unitsOf options i count).generatorId
        (unitsOf options i count).count =
      c.incrementGeneratorOwned options.toProgressionOptions i count := by
  have hindex : indexOfId (fun j => (options.content.generators j).id)
      (unitsOf options i count).generatorId = some i :=
    (indexOfId_eq_some_iff options.content.generator_ids).mpr rfl
  rw [unitsOf] at hindex
  rw [applyPurchase, unitsOf, purchaseCount_natCast h, hindex]

/-- The quote of a generator that can be bought is its bulk quote. -/
theorem getPurchaseQuote_eq (h : 0 < count)
    (hpurchasable : c.isPurchasable options i count = true) :
    c.getPurchaseQuote options (unitsOf options i count).generatorId
        (unitsOf options i count).count =
      ((computeBulkPurchaseCosts options i count (c.generators i).owned OrderedMap.empty c).1.map
          fun totals => listedCosts totals.entries,
        (computeBulkPurchaseCosts options i count (c.generators i).owned OrderedMap.empty c).2) := by
  rw [getPurchaseQuote, getPurchasableRecord_eq h, if_pos hpurchasable]
  rfl

/-- A quote that lists costs is paid. -/
theorem purchaseGenerator_eq (h : 0 < count) (hcosts : costs ≠ [])
    (hquote : (c.getPurchaseQuote options (unitsOf options i count).generatorId
      (unitsOf options i count).count).1 = some costs) :
    c.purchaseGenerator options (unitsOf options i count) =
      (c.getPurchaseQuote options (unitsOf options i count).generatorId
        (unitsOf options i count).count).2.payGeneratorPurchase options (unitsOf options i count)
          costs := by
  obtain ⟨cost, rest, rfl⟩ := exists_cons_of_ne_nil hcosts
  have hcount : (purchaseCount? (unitsOf options i count).count).isNone = false := by
    rw [unitsOf, purchaseCount_natCast h]
    rfl
  rw [purchaseGenerator, hcount, if_neg Bool.false_ne_true]
  dsimp only
  rw [hquote]

variable {spends : List (ResourceSpend sh.resources)}

theorem quote_of_success {payload : PurchaseGeneratorPayload}
    (h : (c.purchaseGenerator options payload).1 = .success spends) :
    ∃ costs, costs ≠ [] ∧
      (c.getPurchaseQuote options payload.generatorId payload.count).1 = some costs := by
  rw [purchaseGenerator] at h
  split at h
  · cases h
  · dsimp only at h
    cases hquote : (c.getPurchaseQuote options payload.generatorId payload.count).1 with
    | none =>
      rw [hquote] at h
      cases h
    | some costs =>
      rw [hquote] at h
      cases costs with
      | nil => cases h
      | cons cost rest => exact ⟨cost :: rest, cons_ne_nil cost rest, rfl⟩

variable (options) in
/-- What a purchase that succeeds leaves. -/
structure Bought (c : Coordinator sh) (i : Fin sh.generators) (count : ℕ)
    (costs : List GeneratorResourceCost) (spends : List (ResourceSpend sh.resources))
    (c' : Coordinator sh) : Prop where
  samePrices : SamePrices options i c c'
  owned : (c'.generators i).owned = (c.generators i).owned + count
  offered : ∀ k, Offered options c i k → Offered options c' i k
  ids : c'.resources.ids = c.resources.ids
  amounts : c'.resources.amounts =
    (c.quoted options).resources.amounts - charge c.resources.ids costs
  spent : spentOn spends = charge c.resources.ids costs
  settled : EffectsSettled options c'

/-- What a quoted state comes to when its costs are paid and the units are added. -/
theorem Requoted.bought {s : ResourceState sh.resources} (h : Requoted options c c')
    (hcosts : NonnegCosts costs) (hcharged : Charged (charge c'.resources.ids costs) c'.resources s)
    (hspent : spentOn spends = charge c'.resources.ids costs)
    (hlevel : ∀ maxLevel, (options.content.generators i).maxLevel = some maxLevel →
      (c.generators i).owned + count ≤ maxLevel) :
    Bought options c i count costs spends
      ({ c' with resources := s }.incrementGeneratorOwned options.toProgressionOptions i count) := by
  -- the quote kept to the highest level, so nothing is clamped
  have howned : clampOwned ((c'.generators i).owned + count)
      (options.content.generators i).maxLevel = (c.generators i).owned + count := by
    rw [h.owned]
    cases hmax : (options.content.generators i).maxLevel with
    | none => rfl
    | some maxLevel => exact min_eq_left (hlevel maxLevel hmax)
  have hcapacity : ∀ r, (s.stored r).capacity = (c'.resources.stored r).capacity := fun r => by
    rw [hcharged.stored]
  have hless : ∀ r, s.amounts r ≤ c'.resources.amounts r := fun r => by
    rw [hcharged.amounts]
    exact sub_le_self _ (charge_nonneg _ hcosts r)
  -- the effects are cached, and a generator purchase reads the cache
  have heffects : ({ c' with resources := s }.incrementGeneratorOwned options.toProgressionOptions i
      count).currentEffects options = c'.currentEffects options :=
    h.settled.currentEffects_eq rfl rfl
  rw [h.ids] at hspent
  refine
    { samePrices := ⟨h.lastUpdatedStep, h.purchases, fun j hj => ?_, heffects.trans h.effects⟩
      owned := ?_
      offered := fun k hk => ⟨?_, ?_, hk.maxBulk⟩
      ids := hcharged.ids.trans h.ids
      amounts := ?_
      spent := hspent
      settled := ⟨?_, ?_, fun r capacity hget => ?_⟩ }
  · rw [incrementGeneratorOwned, setGenerator]
    dsimp only
    rw [Function.update_of_ne hj]
    exact h.owned j
  · rw [incrementGeneratorOwned, setGenerator]
    dsimp only
    rw [Function.update_self]
    exact howned
  · rw [incrementGeneratorOwned, setGenerator]
    dsimp only
    rw [Function.update_self]
    exact h.isUnlocked i hk.isUnlocked
  · rw [incrementGeneratorOwned, setGenerator]
    dsimp only
    rw [Function.update_self]
    exact h.isVisible i hk.isVisible
  · exact hcharged.amounts.trans (by rw [h.amounts, h.ids])
  · rw [heffects]
    exact h.settled.cached
  · rw [heffects]
    exact h.settled.capacityOverrideIds
  · rw [heffects] at hget
    obtain ⟨hcap, hle⟩ := h.settled.capacities r capacity hget
    refine ⟨(hcapacity r).trans hcap, le_trans ?_ hle⟩
    exact_mod_cast hless r

/-- **A purchase succeeds** when the generator is offered, its next levels can be bought and what
they cost can be paid. -/
theorem purchaseGenerator_buys (hcurves : (options.purchase i).IgnoresResources)
    (hcount : 0 < count) (hoffered : Offered options c i count)
    (hcosts : c.runCosts options i (c.generators i).owned count = some costs)
    (hpayable : Payable (c.quoted options).resources costs) :
    ∃ spends, (c.purchaseGenerator options (unitsOf options i count)).1 = .success spends ∧
      Bought options c i count costs spends
        (c.purchaseGenerator options (unitsOf options i count)).2 := by
  have hlevel : ∀ maxLevel, (options.content.generators i).maxLevel = some maxLevel →
      (c.generators i).owned + count ≤ maxLevel := fun _ hmax => runCosts_le hcount hcosts hmax
  have hpurchasable : c.isPurchasable options i count = true :=
    isPurchasable_iff.mpr ⟨hoffered, fun maxLevel hmax => by
      have hle := hlevel maxLevel hmax
      omega⟩
  obtain ⟨totals, hloop, hadds, hquoted⟩ :=
    (computeBulkPurchaseCosts_eq hcurves count (c.generators i).owned nonneg_noTotals c).2 costs
      hcosts
  have hquoted := hquoted hcount
  have hpay := (hadds.payable_iff _).mpr ((hquoted.payable costs).mpr hpayable)
  obtain ⟨spends, s, hrun, hcharged, hspent⟩ := spendGeneratorPurchaseCosts_pays
    (unitsOf options i count) hadds.nonneg hpay []
  refine ⟨spends, ?_⟩
  rw [hadds.charge_eq] at hcharged hspent
  have hquote := getPurchaseQuote_eq hcount hpurchasable
  have hlisted : listedCosts totals.entries ≠ [] := fun hempty =>
    hadds.listed (.inr (runCosts_ne_nil hcount hcosts)) (map_eq_nil_iff.mp hempty)
  have hpurchase := purchaseGenerator_eq hcount hlisted (c := c) (by rw [hquote, hloop]; rfl)
  rw [hpurchase, hquote, payGeneratorPurchase, hrun]
  dsimp only
  rw [applyPurchase_eq hcount]
  exact ⟨rfl, hquoted.bought (runCosts_nonneg hcosts) hcharged (hspent.trans (zero_add _)) hlevel⟩

/-- **A purchase succeeds only** when the generator is offered, its next levels can be bought and
what they cost can be paid. -/
theorem offered_of_success (hcurves : (options.purchase i).IgnoresResources) (hcount : 0 < count)
    (h : (c.purchaseGenerator options (unitsOf options i count)).1 = .success spends) :
    Offered options c i count ∧
      ∃ costs, c.runCosts options i (c.generators i).owned count = some costs ∧
        Payable (c.quoted options).resources costs := by
  obtain ⟨listed, hlisted, hquote⟩ := quote_of_success h
  have hpurchasable : c.isPurchasable options i count = true := by
    by_contra hnot
    rw [getPurchaseQuote, getPurchasableRecord_eq hcount, if_neg hnot] at hquote
    cases hquote
  refine ⟨(isPurchasable_iff.mp hpurchasable).1, ?_⟩
  obtain ⟨hnone, hsome⟩ := computeBulkPurchaseCosts_eq hcurves count (c.generators i).owned
    nonneg_noTotals c
  have hpurchase := purchaseGenerator_eq hcount hlisted hquote
  rw [getPurchaseQuote_eq hcount hpurchasable] at hquote hpurchase
  cases hcosts : c.runCosts options i (c.generators i).owned count with
  | none =>
    rw [hnone hcosts] at hquote
    cases hquote
  | some costs =>
    obtain ⟨totals, hloop, hadds, hquoted⟩ := hsome costs hcosts
    rw [hloop] at hquote
    obtain rfl := some.inj hquote
    refine ⟨costs, rfl, ?_⟩
    rw [hpurchase, payGeneratorPurchase] at h
    dsimp only at h
    cases hpaid : (spendGeneratorPurchaseCostsOrFail (unitsOf options i count)
      (listedCosts totals.entries) [] (computeBulkPurchaseCosts options i count
        (c.generators i).owned OrderedMap.empty c).2.resources).1 with
    | failure error =>
      rw [hpaid] at h
      cases h
    | threw message =>
      rw [hpaid] at h
      cases h
    | success spends' =>
      have hpayable := payable_of_spendGeneratorPurchaseCosts _ hadds.nonneg hpaid
      exact ((hquoted hcount).payable costs).mp ((hadds.payable_iff _).mp hpayable)

/-! ### Repeated purchases -/

/-- A purchase after a purchase. -/
theorem Bought.trans {c₁ c₂ : Coordinator sh} {first rest : List GeneratorResourceCost}
    {spends' : List (ResourceSpend sh.resources)} {count' : ℕ}
    (h : Bought options c i count first spends c₁)
    (h' : Bought options c₁ i count' rest spends' c₂) :
    Bought options c i (count + count') (first ++ rest) (spends ++ spends') c₂ where
  samePrices := h.samePrices.trans h'.samePrices
  owned := by rw [h'.owned, h.owned, add_assoc]
  offered k hk := h'.offered k (h.offered k hk)
  ids := h'.ids.trans h.ids
  amounts := by
    -- nothing is lost between the purchases: the effects are settled
    rw [h'.amounts, h.settled.amounts, h.amounts, h.ids, charge_append, sub_add_eq_sub_sub]
  spent := by rw [spentOn_append, h.spent, h'.spent, h.ids, charge_append]
  settled := h'.settled

/-- The costs after a purchase are payable when all were. -/
theorem Bought.payable_append {first rest : List GeneratorResourceCost}
    (h : Bought options c i count first spends c') (hfirst : NonnegCosts first)
    (hrest : NonnegCosts rest) :
    Payable (c.quoted options).resources (first ++ rest) ↔
      Payable (c.quoted options).resources first ∧ Payable (c'.quoted options).resources rest := by
  have hids : (c.quoted options).resources.ids = c.resources.ids := (requoted_quoted options c).ids
  have hids' : (c'.quoted options).resources.ids = c'.resources.ids := (requoted_quoted options c').ids
  refine IdleEngine.payable_append hfirst hrest (hids'.trans (h.ids.trans hids.symm)) ?_
  rw [h.settled.amounts, h.amounts, hids]

variable (options) in
theorem unitsOf_one (i : Fin sh.generators) :
    unitsOf options i 1 =
      { generatorId := (options.content.generators i).id, count := .fin 1 } := by
  rw [unitsOf, Nat.cast_one]

variable (options) in
theorem purchaseRepeatedly_succ (c : Coordinator sh) (i : Fin sh.generators) (count : ℕ)
    (h : (c.purchaseGenerator options (unitsOf options i 1)).1 = .success spends) :
    purchaseRepeatedly options (options.content.generators i).id (count + 1) c =
      ((purchaseRepeatedly options (options.content.generators i).id count
          (c.purchaseGenerator options (unitsOf options i 1)).2).1.map (spends ++ ·),
        (purchaseRepeatedly options (options.content.generators i).id count
          (c.purchaseGenerator options (unitsOf options i 1)).2).2) := by
  rw [unitsOf_one] at h ⊢
  rw [purchaseRepeatedly]
  dsimp only
  rw [h]

theorem Offered.mono {count' : ℕ} (h : Offered options c i count) (hle : count' ≤ count) :
    Offered options c i count' :=
  ⟨h.isUnlocked, h.isVisible, fun maxBulk hmax => hle.trans (h.maxBulk maxBulk hmax)⟩

/-- **Purchases of one unit each succeed** when their levels can be bought and what they cost
together can be paid. -/
theorem purchaseRepeatedly_buys (hcurves : (options.purchase i).IgnoresResources)
    (hcount : 0 < count) {c : Coordinator sh} (hoffered : Offered options c i 1)
    (hcosts : c.runCosts options i (c.generators i).owned count = some costs)
    (hpayable : Payable (c.quoted options).resources costs) :
    ∃ spends, (purchaseRepeatedly options (options.content.generators i).id count c).1 =
        some spends ∧
      Bought options c i count costs spends
        (purchaseRepeatedly options (options.content.generators i).id count c).2 := by
  induction count generalizing c costs with
  | zero => exact absurd hcount (lt_irrefl 0)
  | succ count ih =>
    obtain ⟨first, rest, hfirst, hrest, rfl⟩ := runCosts_succ.mp hcosts
    rw [← runCosts_one] at hfirst
    have hnonneg := runCosts_nonneg hfirst
    obtain ⟨spends, hsuccess, hbought⟩ := purchaseGenerator_buys hcurves one_pos hoffered hfirst
      (hpayable.of_append hnonneg (runCosts_nonneg hrest))
    rw [purchaseRepeatedly_succ options c i count hsuccess]
    rcases Nat.eq_zero_or_pos count with rfl | hpos
    · obtain rfl := some.inj hrest
      refine ⟨spends ++ [], rfl, ?_⟩
      rw [append_nil, append_nil]
      exact hbought
    · have hleft := ((hbought.payable_append hnonneg (runCosts_nonneg hrest)).mp hpayable).2
      rw [← hbought.samePrices.runCosts hcurves, ← hbought.owned] at hrest
      obtain ⟨spends', hsuccess', hbought'⟩ := ih hpos (hbought.offered 1 hoffered) hrest hleft
      refine ⟨spends ++ spends', by rw [hsuccess']; rfl, ?_⟩
      rw [add_comm count 1]
      exact hbought.trans hbought'

/-- **Purchases of one unit each succeed only** when their levels can be bought and what they cost
together can be paid. -/
theorem offered_of_repeated (hcurves : (options.purchase i).IgnoresResources) (hcount : 0 < count)
    {c : Coordinator sh}
    (h : (purchaseRepeatedly options (options.content.generators i).id count c).1 = some spends) :
    Offered options c i 1 ∧
      ∃ costs, c.runCosts options i (c.generators i).owned count = some costs ∧
        Payable (c.quoted options).resources costs := by
  induction count generalizing c spends with
  | zero => exact absurd hcount (lt_irrefl 0)
  | succ count ih =>
    have hfirst : ∃ first, (c.purchaseGenerator options (unitsOf options i 1)).1 =
        .success first := by
      rw [purchaseRepeatedly] at h
      rw [unitsOf_one]
      dsimp only at h
      cases hresult : (c.purchaseGenerator options
        { generatorId := (options.content.generators i).id, count := .fin 1 }).1 with
      | success first => exact ⟨first, rfl⟩
      | failure error =>
        rw [hresult] at h
        cases h
      | threw message =>
        rw [hresult] at h
        cases h
    obtain ⟨firstSpends, hsuccess⟩ := hfirst
    obtain ⟨hoffered, first, hfirst, hpayable⟩ := offered_of_success hcurves one_pos hsuccess
    obtain ⟨_, -, hbought⟩ := purchaseGenerator_buys hcurves one_pos hoffered hfirst hpayable
    refine ⟨hoffered, ?_⟩
    rcases Nat.eq_zero_or_pos count with rfl | hpos
    · exact ⟨first, hfirst, hpayable⟩
    · rw [purchaseRepeatedly_succ options c i count hsuccess] at h
      obtain ⟨restSpends, hrestRun, -⟩ := map_eq_some_iff.mp h
      obtain ⟨-, rest, hrest, hleft⟩ := ih hpos hrestRun
      rw [hbought.owned, hbought.samePrices.runCosts hcurves] at hrest
      refine ⟨first ++ rest, runCosts_succ.mpr ⟨first, rest, ?_, hrest, rfl⟩, ?_⟩
      · rw [← runCosts_one]
        exact hfirst
      · exact (hbought.payable_append (runCosts_nonneg hfirst) (runCosts_nonneg hrest)).mpr
          ⟨hpayable, hleft⟩

variable (options) in
/-- **A bulk purchase is a repeated purchase.** Where no cost curve reads the amount of a resource,
a purchase of as many units as can be asked for at once succeeds exactly when as many purchases of
one unit do, one after another; both then spend the same of each resource and leave the same amounts
and the same units. -/
theorem purchaseGenerator_eq_repeated (c : Coordinator sh) (i : Fin sh.generators)
    (hcurves : (options.purchase i).IgnoresResources) (count : ℕ) (hcount : 0 < count)
    (hbulk : ∀ maxBulk, (options.purchase i).maxBulk = some maxBulk → count ≤ maxBulk) :
    ((∃ spends, (c.purchaseGenerator options (unitsOf options i count)).1 = .success spends) ↔
        ∃ spends, (purchaseRepeatedly options (options.content.generators i).id count c).1 =
          some spends) ∧
      ∀ spends spends',
        (c.purchaseGenerator options (unitsOf options i count)).1 = .success spends →
        (purchaseRepeatedly options (options.content.generators i).id count c).1 = some spends' →
          spentOn spends = spentOn spends' ∧
          (∀ j, ((c.purchaseGenerator options (unitsOf options i count)).2.generators j).owned =
            ((purchaseRepeatedly options (options.content.generators i).id count c).2.generators
              j).owned) ∧
          (c.purchaseGenerator options (unitsOf options i count)).2.resources.amounts =
            (purchaseRepeatedly options (options.content.generators i).id
              count c).2.resources.amounts := by
  refine ⟨⟨?_, ?_⟩, ?_⟩
  · rintro ⟨spends, hsuccess⟩
    obtain ⟨hoffered, costs, hcosts, hpayable⟩ := offered_of_success hcurves hcount hsuccess
    obtain ⟨spends', hrepeated, -⟩ :=
      purchaseRepeatedly_buys hcurves hcount (hoffered.mono hcount) hcosts hpayable
    exact ⟨spends', hrepeated⟩
  · rintro ⟨spends', hrepeated⟩
    obtain ⟨hoffered, costs, hcosts, hpayable⟩ := offered_of_repeated hcurves hcount hrepeated
    obtain ⟨spends, hsuccess, -⟩ := purchaseGenerator_buys hcurves hcount
      ⟨hoffered.isUnlocked, hoffered.isVisible, hbulk⟩ hcosts hpayable
    exact ⟨spends, hsuccess⟩
  · intro spends spends' hsuccess hrepeated
    obtain ⟨hoffered, costs, hcosts, hpayable⟩ := offered_of_success hcurves hcount hsuccess
    obtain ⟨bulkSpends, hbulkRun, hbought⟩ :=
      purchaseGenerator_buys hcurves hcount hoffered hcosts hpayable
    obtain ⟨unitSpends, hunitRun, hbought'⟩ :=
      purchaseRepeatedly_buys hcurves hcount (hoffered.mono hcount) hcosts hpayable
    rw [hsuccess] at hbulkRun
    rw [hrepeated] at hunitRun
    obtain rfl := PurchaseResult.success.inj hbulkRun
    obtain rfl := some.inj hunitRun
    refine ⟨hbought.spent.trans hbought'.spent.symm, fun j => ?_,
      hbought.amounts.trans hbought'.amounts.symm⟩
    by_cases hj : j = i
    · subst hj
      exact hbought.owned.trans hbought'.owned.symm
    · exact (hbought.samePrices.owned j hj).trans (hbought'.samePrices.owned j hj).symm

/-! ### A quarry -/

/-- The shape of a game with one resource and one generator. -/
def quarryShape : ContentShape :=
  { resources := 1, generators := 1, upgrades := 0, prestigeLayers := 0, achievements := 0 }

/-- A cost that grows by so much with each level. -/
def growingCost (perLevel : ℚ) : GeneratorCost :=
  { resourceId := "stone"
    costMultiplier := .fin perLevel
    costCurve := fun context => .ok (.fin ((context.variableValue "level").getD 0 + 1)) }

/-- A quarry that is paid in stone twice over, and of which there are at most three. -/
def quarryOptions : PurchaseOptions quarryShape where
  content :=
    { resources := fun _ =>
        { id := "stone", startAmount := none, capacity := none, unlocked := some true
          visible := none, dirtyTolerance := none, unlockCondition := none
          visibilityCondition := none }
      generators := fun _ =>
        { id := "quarry", initialLevel := 0, maxLevel := some 3, baseUnlock := .always
          visibilityCondition := none, produces := [], consumes := [] }
      upgrades := fun i => i.elim0
      prestigeLayers := fun i => i.elim0
      achievements := fun i => i.elim0
      generator_ids := fun i j _ => Subsingleton.elim (α := Fin 1) i j
      upgrade_ids := fun i => i.elim0
      achievement_ids := fun i => i.elim0
      generator_nonblank := fun _ => rfl
      upgrade_nonblank := fun i => i.elim0
      achievement_nonblank := fun i => i.elim0 }
  stepDurationMs := 1000
  precision := .default
  maxConditionDepth := none
  evaluateScriptCondition := none
  getCustomMetricValue := none
  purchase := fun _ => { costs := .costs [growingCost 10, growingCost 5], maxBulk := some 2 }

/-- No quarry is owned, and there are 50 stone. -/
def stonePile : Coordinator quarryShape where
  resources := ResourceState.initial (fun _ => "stone") .default fun _ =>
    { blankRow with amount := 50 }
  capacityOverrideIds := []
  dirtyToleranceOverrideIds := []
  generators := fun _ =>
    { owned := 0, enabled := true, isUnlocked := true, isVisible := true, produces := []
      consumes := [], nextPurchaseReadyAtStep := 0 }
  upgrades := fun i => i.elim0
  upgradeEffectsCache := none
  flagState := fun _ => none
  upgradeAutomationIds := fun _ => false
  prestigeLayers := fun i => i.elim0
  achievements := fun i => i.elim0
  achievementFlagState := fun _ => none
  achievementAutomationIds := fun _ => false
  grantedAutomationIds := fun _ => false
  usedTokens := fun _ => none
  lastUpdatedStep := 0

/-- The pile pays for two quarries at once, so it pays for one after the other. -/
theorem purchaseGenerator_eq_repeated_quarry :
    ∃ spends, (purchaseRepeatedly quarryOptions "quarry" 2 stonePile).1 = some spends := by
  have hcurves : (quarryOptions.purchase (Fin.last 0)).IgnoresResources := by
    intro cost hcost context resource
    obtain rfl | rfl : cost = growingCost 10 ∨ cost = growingCost 5 := by
      simpa [quarryOptions, PurchaseCosts.toList] using hcost
    · rfl
    · rfl
  refine (purchaseGenerator_eq_repeated quarryOptions stonePile (Fin.last 0) hcurves 2 two_pos ?_
    ).1.mp ?_
  · intro maxBulk hmax
    obtain rfl := Option.some.inj hmax
    exact le_refl 2
  · exact ⟨[⟨Fin.last 0, 45⟩], by with_unfolding_all rfl⟩

end IdleEngine
