import IdleEngine.Progression.UpgradePurchases

/-!
# Purchases as transactions

A purchase that fails or throws should leave amounts, owned counts and purchases as they were, and
one that succeeds should spend the quoted costs once. Paying keeps that up: what has been spent is
given back in full, because it came out of amounts within their capacities (`refund_amounts`,
`spendPurchaseCosts_cases`). Two steps around the payment do not:

* a quote of a generator applies the effects of upgrades again, which lowers every amount above the
  capacity they set;
* the purchase of an upgrade is counted before its effects are evaluated, and when the host's
  handler throws on what they report, only the costs are given back.

`purchases_atomic_iff` says that these are all the exceptions.
-/

namespace IdleEngine

open Stateful Payment Coordinator Outcome List Option Except

variable {sh : ContentShape} {n : ℕ}

/-! ### Effects under a handler that may throw -/

section Reported

variable {onError : String → Except String Unit}

/-- A host that throws on nothing. -/
def Lenient (onError : String → Except String Unit) : Prop := ∀ message, onError message = .ok ()

variable {context : FormulaContext}

theorem evaluateFormulaOrThrow_ok {what : String} {formula : NumericFormula} {value : Option ℚ}
    (h : evaluateFormulaOrThrow onError what formula context = .ok value) :
    value = evaluateFiniteNumericFormula formula context := by
  have hfailed : ∀ message : String, (onError (what ++ " failed: " ++ message)).map
      (fun _ => (none : Option ℚ)) = .ok value → value = none := by
    intro message hmap
    obtain ⟨_, -, hnone⟩ := map_ok hmap
    exact hnone.symm
  rw [evaluateFormulaOrThrow] at h
  rw [evaluateFiniteNumericFormula]
  split at h
  · next message hformula =>
    rw [hformula]
    exact hfailed message h
  · next number hformula =>
    rw [hformula]
    dsimp only at h ⊢
    split at h
    · next x hx => rw [← ok.inj h, hx]
    · next hx =>
      rw [hx]
      split at h
      · exact (ok.inj h).symm
      · next message _ => exact hfailed message h

variable {output : UpgradeEffects sh}

variable {effectCurveMultiplier : ℚ} {effect : UpgradeEffect sh}

theorem applyUpgradeEffectValue_none {options : ProgressionOptions sh}
    (h : ∀ value, effect.value? = some value → evaluateFiniteNumericFormula value context = none) :
    applyUpgradeEffectValue options context effectCurveMultiplier output effect = output := by
  have hnone : ∀ value, effect.value? = some value →
      resolveEffectiveUpgradeEffectValue value context effectCurveMultiplier = none := by
    intro value hvalue
    rw [resolveEffectiveUpgradeEffectValue, h value hvalue, map_none]
  rw [applyUpgradeEffectValue.eq_def]
  split
  all_goals first
    | rfl
    | (rw [withEffectiveValue, hnone _ rfl])

variable {options : ProgressionOptions sh}

variable {upgradeId : String} {output' : UpgradeEffects sh}

theorem applyEffectOrThrow_ok
    (h : applyEffectOrThrow onError options upgradeId context effectCurveMultiplier output effect =
      .ok output') :
    output' = applyUpgradeEffectValue options context effectCurveMultiplier output effect := by
  rw [applyEffectOrThrow] at h
  split at h
  · next hnone =>
    rw [applyUpgradeEffectValue_none fun value hvalue => by rw [hnone] at hvalue; cases hvalue]
    exact (ok.inj h).symm
  · next value hvalue =>
    obtain ⟨raw, hraw, h⟩ := bind_ok h
    have hvalue' := evaluateFormulaOrThrow_ok hraw
    cases raw with
    | none =>
      rw [applyUpgradeEffectValue_none fun value' hsame => by
        rw [hvalue] at hsame
        rw [← some.inj hsame]
        exact hvalue'.symm]
      exact (ok.inj h).symm
    | some raw =>
      obtain ⟨_, -, h⟩ := bind_ok h
      exact (ok.inj h).symm

theorem resolveEffectCurveOrThrow_ok {effectCurve : Option NumericFormula} {curve : Option ℚ}
    (h : resolveEffectCurveOrThrow onError upgradeId effectCurve context = .ok curve) :
    curve = resolveEffectCurveMultiplier effectCurve context := by
  cases effectCurve with
  | none => exact (ok.inj h).symm
  | some formula => exact evaluateFormulaOrThrow_ok h

variable {inputs : FormulaInputs sh} {step : ℕ}

theorem applyApplicationOrThrow_ok {level : ℕ} {upgrade : UpgradeContent sh}
    (h : applyApplicationOrThrow onError options inputs step upgrade output level = .ok output') :
    output' = applyUpgradeApplication options inputs step upgrade output level := by
  obtain ⟨curve, hcurve, h⟩ := bind_ok h
  rw [applyUpgradeApplication, ← resolveEffectCurveOrThrow_ok hcurve]
  cases curve with
  | none => exact (ok.inj h).symm
  | some effectCurveMultiplier => exact foldlM_eq_foldl (fun _ _ _ => applyEffectOrThrow_ok) h

/-- **Effects that are evaluated without a throw are the effects.** -/
theorem evaluateEffectsOrThrow_ok {effects : UpgradeEffects sh}
    (h : evaluateEffectsOrThrow onError options inputs step = .ok effects) :
    effects = evaluateUpgradeEffects options inputs step := by
  refine foldlM_eq_foldl (fun output upgrade output' hstep => ?_) h
  rw [applyRecordOrThrow] at hstep
  split at hstep
  · next hzero =>
    rw [if_pos hzero]
    exact (ok.inj hstep).symm
  · next hpos =>
    rw [if_neg hpos]
    exact foldlM_eq_foldl (fun _ _ _ => applyApplicationOrThrow_ok) hstep

theorem Lenient.evaluateFormula (h : Lenient onError) (what : String) (formula : NumericFormula)
    (context : FormulaContext) :
    ∃ value, evaluateFormulaOrThrow onError what formula context = .ok value := by
  rw [evaluateFormulaOrThrow]
  cases formula context with
  | error message =>
    dsimp only
    rw [h]
    exact ⟨none, rfl⟩
  | ok number =>
    dsimp only
    cases number.finite? with
    | some value => exact ⟨some value, rfl⟩
    | none =>
      dsimp only
      rw [h]
      exact ⟨none, rfl⟩

theorem Lenient.applyEffect (h : Lenient onError) (upgradeId : String) (context : FormulaContext)
    (effectCurveMultiplier : ℚ) (output : UpgradeEffects sh) (effect : UpgradeEffect sh) :
    ∃ output', applyEffectOrThrow onError options upgradeId context effectCurveMultiplier output
      effect = .ok output' := by
  rw [applyEffectOrThrow]
  cases effect.value? with
  | none => exact ⟨output, rfl⟩
  | some formula =>
    dsimp only
    obtain ⟨raw, hraw⟩ := h.evaluateFormula
      ("Upgrade effect evaluation for \"" ++ upgradeId ++ "\" (" ++ effect.kind ++ ")") formula
      context
    rw [hraw]
    cases raw with
    | none => exact ⟨output, rfl⟩
    | some raw =>
      have hreport : reportCapacity onError options upgradeId output effect
          (raw * effectCurveMultiplier) = .ok () := by
        rw [reportCapacity.eq_def]
        split
        · dsimp only
          split
          · exact h _
          · split
            · exact h _
            · rfl
        · rfl
      refine ⟨applyUpgradeEffectValue options context effectCurveMultiplier output effect, ?_⟩
      change (reportCapacity onError options upgradeId output effect
        (raw * effectCurveMultiplier) >>= fun _ => ok _) = _
      rw [hreport]
      rfl

theorem Lenient.applyApplication (h : Lenient onError) (inputs : FormulaInputs sh) (step : ℕ)
    (upgrade : UpgradeContent sh) (output : UpgradeEffects sh) (level : ℕ) :
    ∃ output', applyApplicationOrThrow onError options inputs step upgrade output level =
      .ok output' := by
  have hcurve : ∃ curve, resolveEffectCurveOrThrow onError upgrade.id
      (upgrade.repeatable.bind (·.effectCurve))
      (createFormulaEvaluationContext options inputs level step) = .ok curve := by
    cases upgrade.repeatable.bind (·.effectCurve) with
    | none => exact ⟨some 1, rfl⟩
    | some formula => exact h.evaluateFormula _ _ _
  obtain ⟨curve, hcurve⟩ := hcurve
  rw [applyApplicationOrThrow, hcurve]
  cases curve with
  | none => exact ⟨output, rfl⟩
  | some effectCurveMultiplier =>
    exact foldlM_returns (fun output effect _ => h.applyEffect _ _ _ output effect) _

/-- **A host that throws on nothing lets the effects be evaluated.** -/
theorem Lenient.evaluateEffects (h : Lenient onError) (inputs : FormulaInputs sh) (step : ℕ) :
    ∃ effects, evaluateEffectsOrThrow onError options inputs step = .ok effects := by
  refine foldlM_returns (fun output upgrade _ => ?_) _
  rw [applyRecordOrThrow]
  split
  · exact ⟨output, rfl⟩
  · exact foldlM_returns (fun output level _ => h.applyApplication _ _ _ output level) _

end Reported

/-! ### Giving back -/

/-- Every amount spent is positive. -/
def Positive (spends : List (ResourceSpend n)) : Prop := ∀ spend ∈ spends, 0 < spend.amount

namespace ResourceState

variable {s : ResourceState n}

/-- All amounts, and so much more of each, are within the capacities. -/
def Fits (s : ResourceState n) (more : Fin n → ℚ) : Prop :=
  ∀ i, ((s.amounts i + more i : ℚ) : WithTop ℚ) ≤ (s.stored i).capacity

/-- Giving back is charging less than nothing: one amount that fits. -/
theorem addAmount_charged {i : Fin n} {amount : ℚ} (hpos : 0 < amount)
    (hfits : ((s.amounts i + amount : ℚ) : WithTop ℚ) ≤ (s.stored i).capacity) :
    Charged (-Pi.single i amount) s (s.after (s.addAmount i (.fin amount))) := by
  have hrun : s.addAmount i (.fin amount) = .ok (s.addPositive i amount) := by
    rw [addAmount]
    simp only [JsNumber.finite?]
    rw [if_neg hpos.not_gt, if_neg hpos.ne']
  rw [hrun]
  refine ⟨(s.addPositive_writes (A := fun _ _ _ => True) i amount).ids, fun j => ?_⟩
  change (s.addPositive i amount).2.stored j = _
  rw [addPositive_stored]
  by_cases hj : j = i
  · subst hj
    have hsum : clampToCapacity ((s.stored j).amount + amount) (s.stored j).capacity =
        (s.stored j).amount + amount := clampToCapacity_of_le hfits
    rw [Function.update_self, StoredResource.add, hsum, Pi.neg_apply, Pi.single_eq_same,
      sub_neg_eq_add]
  · rw [Function.update_of_ne hj, Pi.neg_apply, Pi.single_eq_of_ne hj, neg_zero, sub_zero]

theorem spentOn_cons (spend : ResourceSpend n) (spends : List (ResourceSpend n)) :
    spentOn (spend :: spends) = Pi.single spend.index spend.amount + spentOn spends := by
  simp [spentOn]

variable {spends : List (ResourceSpend n)}

theorem spentOn_nonneg (h : Positive spends) (i : Fin n) :
    0 ≤ spentOn spends i := by
  induction spends with
  | nil => exact le_refl 0
  | cons spend spends ih =>
    rw [spentOn_cons, Pi.add_apply]
    refine add_nonneg ?_ (ih fun later hlater => h later (mem_cons_of_mem spend hlater))
    by_cases hi : i = spend.index
    · subst hi
      rw [Pi.single_eq_same]
      exact (h spend mem_cons_self).le
    · rw [Pi.single_eq_of_ne hi]

theorem spentOn_reverse (spends : List (ResourceSpend n)) :
    spentOn spends.reverse = spentOn spends := by
  rw [spentOn, spentOn, map_reverse, sum_reverse]

/-- **What was spent is given back in full**, as long as it fits. -/
theorem refund_charged (hpositive : Positive spends) (hfits : s.Fits (spentOn spends)) :
    Charged (-spentOn spends) s (s.refund spends) := by
  suffices hall : ∀ (l : List (ResourceSpend n)) (s : ResourceState n), Positive l →
      s.Fits (spentOn l) → Charged (-spentOn l) s
        (l.foldl (fun s spend => s.after (s.addAmount spend.index (.fin spend.amount))) s) by
    rw [← spentOn_reverse] at hfits ⊢
    exact hall spends.reverse s (fun spend h => hpositive spend (mem_reverse.mp h)) hfits
  intro l
  induction l with
  | nil =>
    intro s _ _
    have hnone : spentOn ([] : List (ResourceSpend n)) = 0 := rfl
    rw [hnone, neg_zero]
    exact Charged.refl s
  | cons spend l ih =>
    intro s hpositive hfits
    have hlater : Positive l := fun later h => hpositive later (mem_cons_of_mem spend h)
    have hpos := hpositive spend mem_cons_self
    -- the first amount fits, since all of them together do
    have hfirst : ((s.amounts spend.index + spend.amount : ℚ) : WithTop ℚ) ≤
        (s.stored spend.index).capacity := by
      refine le_trans ?_ (hfits spend.index)
      rw [spentOn_cons, Pi.add_apply, Pi.single_eq_same]
      have hrest := spentOn_nonneg hlater spend.index
      exact_mod_cast (by linarith : s.amounts spend.index + spend.amount ≤
        s.amounts spend.index + (spend.amount + spentOn l spend.index))
    have hcharged := addAmount_charged hpos hfirst
    rw [spentOn_cons, neg_add, foldl_cons]
    refine hcharged.trans (ih _ hlater fun i => ?_)
    have hcapacity : ((s.after (s.addAmount spend.index (.fin spend.amount))).stored i).capacity =
        (s.stored i).capacity := by rw [hcharged.stored]
    have hle := hfits i
    rw [spentOn_cons, Pi.add_apply] at hle
    rw [hcapacity, hcharged.amounts, Pi.sub_apply, Pi.neg_apply, sub_neg_eq_add, add_assoc]
    exact hle

end ResourceState

variable {s : ResourceState n}

variable {s₀ : ResourceState n} {spends : List (ResourceSpend n)}

/-- A payment that is given back leaves the records as they were. -/
theorem Charged.refund (h : Charged (spentOn spends) s₀ s) (hpositive : Positive spends)
    (hfits : s₀.Fits 0) :
    Charged 0 s₀ (s.refund spends) := by
  have hback := ResourceState.refund_charged (s := s) hpositive fun i => by
    rw [h.amounts, h.stored, Pi.sub_apply, sub_add_cancel]
    have hle := hfits i
    rwa [Pi.zero_apply, add_zero] at hle
  rw [← add_neg_cancel (spentOn spends)]
  exact h.trans hback

/-! ### Paying -/

/-- The costs that a handler looks up. -/
def dueCosts (zeroFirst : Bool) (costs : List GeneratorResourceCost) :
    List GeneratorResourceCost :=
  costs.filter fun cost => !(zeroFirst && cost.amount == 0)

theorem dueCosts_cons (zeroFirst : Bool) (cost : GeneratorResourceCost)
    (costs : List GeneratorResourceCost) : dueCosts zeroFirst (cost :: costs) =
      if zeroFirst ∧ cost.amount = 0 then dueCosts zeroFirst costs
      else cost :: dueCosts zeroFirst costs := by
  rw [dueCosts, filter_cons]
  by_cases hskip : zeroFirst ∧ cost.amount = 0
  · simp [hskip, dueCosts]
  · have hkept : (!(zeroFirst && cost.amount == 0)) = true := by
      cases zeroFirst
      · rfl
      · simpa using hskip
    rw [if_neg hskip, if_pos hkept]
    rfl

variable {costs : List GeneratorResourceCost}

theorem dueCosts_nonneg {zeroFirst : Bool} (h : NonnegCosts costs) :
    NonnegCosts (dueCosts zeroFirst costs) :=
  fun cost hcost => h cost (mem_of_mem_filter hcost)

/-- A cost of nothing asks for nothing. -/
theorem chargeOf_zero (ids : Fin n → String) {cost : GeneratorResourceCost}
    (h : cost.amount = 0) : chargeOf ids cost = 0 := by
  funext i
  rw [chargeOf, h]
  split <;> rfl

/-- A payment that succeeds. -/
structure Pays (s₀ : ResourceState n) (spends : List (ResourceSpend n))
    (costs : List GeneratorResourceCost) (run : PurchaseResult n × ResourceState n)
    (spends' : List (ResourceSpend n)) : Prop where
  result : run.1 = .success spends'
  charged : Charged (spentOn spends') s₀ run.2
  spent : spentOn spends' = spentOn spends + charge s₀.ids costs
  positive : Positive spends'

/-- A payment that fails or throws, and leaves the records as they were. -/
structure Refuses (s₀ : ResourceState n) (run : PurchaseResult n × ResourceState n) : Prop where
  result : ∀ spends, run.1 ≠ .success spends
  charged : Charged 0 s₀ run.2

/-- **Payments.** What is left of the costs is paid when it can be, and otherwise all that has been
paid is given back. -/
theorem spendPurchaseCosts_cases (failures : PaymentFailures) (zeroFirst : Bool)
    (hcosts : NonnegCosts costs) (hcharged : Charged (spentOn spends) s₀ s)
    (hpositive : Positive spends) (hfits : s₀.Fits 0) :
    (Payable s (dueCosts zeroFirst costs) ∧ ∃ spends', Pays s₀ spends costs
        (spendPurchaseCosts failures zeroFirst costs spends s) spends') ∨
      ¬Payable s (dueCosts zeroFirst costs) ∧
        Refuses s₀ (spendPurchaseCosts failures zeroFirst costs spends s) := by
  have hrefund : Charged 0 s₀ (s.refund spends) := hcharged.refund hpositive hfits
  induction costs generalizing s spends with
  | nil =>
    refine .inl ⟨⟨fun _ h => absurd h not_mem_nil, affordable_zero _⟩, spends, rfl, hcharged,
      ?_, hpositive⟩
    exact (add_zero _).symm
  | cons cost costs ih =>
    have hcost := hcosts cost mem_cons_self
    have hrest : NonnegCosts costs := fun c hc => hcosts c (mem_cons_of_mem cost hc)
    have hnonneg : ¬cost.amount < 0 := not_lt.mpr hcost
    rw [spendPurchaseCosts, if_neg hnonneg, dueCosts_cons, ResourceState.requireIndex]
    -- a payment of nothing more is a payment of the costs that follow
    have hpass : cost.amount = 0 → ∀ {run spends'}, Pays s₀ spends costs run spends' →
        Pays s₀ spends (cost :: costs) run spends' := by
      rintro hzero run spends' ⟨hresult, hpaid, hspent, hpositive'⟩
      refine ⟨hresult, hpaid, ?_, hpositive'⟩
      rw [charge_cons, chargeOf_zero _ hzero, zero_add, hspent]
    by_cases hskip : zeroFirst ∧ cost.amount = 0
    · rw [if_pos hskip, if_pos hskip]
      refine (ih hrest hcharged hpositive hrefund).imp_left fun hrun => ?_
      obtain ⟨hpayable, spends', hpays⟩ := hrun
      exact ⟨hpayable, spends', hpass hskip.2 hpays⟩
    rw [if_neg hskip, if_neg hskip]
    cases hi : indexOfId s.ids cost.resourceId with
    | none =>
      refine .inr ⟨fun hpayable => ?_, fun _ h => (by cases h), hrefund⟩
      have hknown := hpayable.1 cost mem_cons_self
      rw [hi] at hknown
      cases hknown
    | some i =>
      dsimp only
      have hdue : NonnegCosts (dueCosts zeroFirst costs) := dueCosts_nonneg hrest
      rcases hcost.eq_or_lt with hzero | hpos
      · rw [if_pos hzero.symm]
        have hnothing : Charged (chargeOf s.ids cost) s s := by
          rw [chargeOf_zero _ hzero.symm]
          exact Charged.refl s
        have hiff : Payable s (cost :: dueCosts zeroFirst costs) ↔
            Payable s (dueCosts zeroFirst costs) := by
          refine (payable_cons hcost hdue hi hnothing).trans (and_iff_right fun hpos => ?_)
          exact absurd hpos (by rw [← hzero]; exact lt_irrefl 0)
        rw [hiff]
        refine (ih hrest hcharged hpositive hrefund).imp_left fun hrun => ?_
        obtain ⟨hpayable, spends', hpays⟩ := hrun
        exact ⟨hpayable, spends', hpass hzero.symm hpays⟩
      · rw [if_neg hpos.ne']
        rcases lt_or_ge (s.amounts i) cost.amount with hshort | henough
        · rw [ResourceState.spendAmount_short hpos hshort]
          refine .inr ⟨fun hpayable => ?_, fun _ h => (by cases h), hrefund⟩
          have hfirst := hpayable.2 i
          rw [charge_cons, Pi.add_apply, chargeOf_eq hi, Pi.single_eq_same] at hfirst
          have hothers := charge_nonneg s.ids hdue i
          have hle := hfirst (by linarith)
          linarith
        · obtain ⟨s₁, hrun, hone⟩ := ResourceState.spendAmount_enough hpos henough
          rw [hrun]
          dsimp only
          have hspend : spentOn [({ index := i, amount := cost.amount } : ResourceSpend n)] =
              Pi.single i cost.amount := by simp [spentOn]
          have hcharged₁ : Charged (spentOn (spends ++ [{ index := i, amount := cost.amount }]))
              s₀ s₁ := by
            rw [spentOn_append, hspend]
            exact hcharged.trans hone
          have hpositive₁ : Positive (spends ++ [{ index := i, amount := cost.amount }]) := by
            intro spend hspend
            rcases mem_append.mp hspend with h | h
            · exact hpositive spend h
            · obtain rfl := mem_singleton.mp h
              exact hpos
          have hiff : Payable s (cost :: dueCosts zeroFirst costs) ↔
              Payable s₁ (dueCosts zeroFirst costs) := by
            rw [← chargeOf_eq hi] at hone
            exact (payable_cons hcost hdue hi hone).trans (and_iff_right fun _ => henough)
          rw [hiff]
          refine (ih hrest hcharged₁ hpositive₁ (hcharged₁.refund hpositive₁ hfits)).imp_left
            fun hpays => ?_
          obtain ⟨hpayable, spends', hresult, hpaid, hspent, hpositive'⟩ := hpays
          refine ⟨hpayable, spends', hresult, hpaid, ?_, hpositive'⟩
          rw [hcharged.ids] at hi
          rw [hspent, spentOn_append, hspend, charge_cons, chargeOf_eq hi, add_assoc]

/-! ### Quotes of generators -/

namespace Coordinator

variable (options : UpgradePurchaseOptions sh) (c : Coordinator sh)

/-- The effects at the last step are not cached, and evaluating them throws. -/
def EffectsThrow : Prop :=
  (c.upgradeEffectsCache.any fun cache => cache.1 = c.lastUpdatedStep) = false ∧
    ∃ message, evaluateEffectsOrThrow options.onError options.toProgressionOptions c.inputs
      c.lastUpdatedStep = .error message

/-- Amounts under the capacities that the effects of upgrades give. -/
def keptAmounts (amounts : Fin sh.resources → ℚ) (i : Fin sh.resources) : ℚ :=
  (overriddenCapacity options.baseCapacity c.capacityOverrideIds
    (c.currentEffects options.toPurchaseOptions).resourceCapacityOverrides i).elim
      (amounts i) (clampToCapacity (amounts i))

/-- No amount is above the capacity that the effects of upgrades give its resource. -/
def EffectsFit : Prop :=
  ∀ i capacity, overriddenCapacity options.baseCapacity c.capacityOverrideIds
    (c.currentEffects options.toPurchaseOptions).resourceCapacityOverrides i = some capacity →
      (c.resources.amounts i : WithTop ℚ) ≤ capacity

/-- The costs of a generator at a level ask for the effects of upgrades: listed costs do at once, a
single one after its curve. -/
def pricesWithEffects (i : Fin sh.generators) (purchaseIndex : ℕ) : Bool :=
  match (options.purchase i).costs with
  | .currency cost => cost.multiplier?.isSome &&
      (c.evaluateCostFormula options.toPurchaseOptions i purchaseIndex cost.costCurve).isSome
  | .costs _ => true

/-- A purchase whose quote asks for the effects of upgrades. -/
def AsksForEffects (payload : PurchaseGeneratorPayload) : Prop :=
  ∃ i count, c.getPurchasableRecord options.toPurchaseOptions payload.generatorId payload.count =
      some (i, count) ∧
    c.pricesWithEffects options i (c.generators i).owned = true

end Coordinator

variable {options : UpgradePurchaseOptions sh} {c : Coordinator sh}

/-- Asking for the effects throws and changes nothing, or applies them again. -/
theorem getEffectsOrThrow_cases (options : UpgradePurchaseOptions sh) (c : Coordinator sh) :
    (c.EffectsThrow options ∧
        ∃ message, getEffectsOrThrow options c.lastUpdatedStep c = .error message c) ∨
      ¬c.EffectsThrow options ∧ getEffectsOrThrow options c.lastUpdatedStep c =
        .ok (c.currentEffects options.toPurchaseOptions) (c.quoted options.toPurchaseOptions) := by
  rw [getEffectsOrThrow, Coordinator.EffectsThrow]
  by_cases hcached : (c.upgradeEffectsCache.any fun cache => cache.1 = c.lastUpdatedStep) = true
  · rw [if_pos hcached, hcached]
    exact .inr ⟨fun h => Bool.noConfusion h.1, rfl⟩
  · rw [if_neg hcached]
    have hmissing := Bool.eq_false_iff.mpr hcached
    cases hrun : evaluateEffectsOrThrow options.onError options.toProgressionOptions c.inputs
        c.lastUpdatedStep with
    | error message => exact .inl ⟨⟨hmissing, message, rfl⟩, message, rfl⟩
    | ok effects =>
      have heffects : effects = c.currentEffects options.toPurchaseOptions := by
        rw [evaluateEffectsOrThrow_ok hrun, Coordinator.currentEffects,
          Coordinator.cachedUpgradeEffects]
        split
        · next cachedStep cached hcache =>
          rw [hcache] at hmissing
          rw [if_neg (by simpa using hmissing)]
        · rfl
      refine .inr ⟨fun h => ?_, ?_⟩
      · obtain ⟨-, message, herror⟩ := h
        cases herror
      · rw [heffects]
        rfl

/-- A quote applies the effects: an amount is cut to a capacity that is overridden. -/
theorem Coordinator.quoted_stored (options : UpgradePurchaseOptions sh) (c : Coordinator sh)
    (i : Fin sh.resources) :
    (c.quoted options.toPurchaseOptions).resources.amounts i =
        c.keptAmounts options c.resources.amounts i ∧
      ((c.quoted options.toPurchaseOptions).resources.stored i).capacity =
        (overriddenCapacity options.baseCapacity c.capacityOverrideIds
          (c.currentEffects options.toPurchaseOptions).resourceCapacityOverrides i).getD
            (c.resources.stored i).capacity := by
  have hstored := c.applyUpgradeEffects_stored options.toProgressionOptions c.lastUpdatedStep
    (c.currentEffects options.toPurchaseOptions) i
  have hsame : ∀ unlocks : Prop, ∀ _ : Decidable unlocks,
      (if unlocks then (c.resources.stored i).unlockAndShow else c.resources.stored i).amount =
        c.resources.amounts i ∧
      (if unlocks then (c.resources.stored i).unlockAndShow else c.resources.stored i).capacity =
        (c.resources.stored i).capacity := by
    intro unlocks _
    split <;> exact ⟨rfl, rfl⟩
  change ((c.quoted options.toPurchaseOptions).resources.stored i).amount = _ ∧ _
  rw [quoted_eq, hstored, Coordinator.keptAmounts]
  cases overriddenCapacity options.baseCapacity c.capacityOverrideIds
      (c.currentEffects options.toPurchaseOptions).resourceCapacityOverrides i with
  | none => exact hsame _ _
  | some capacity =>
    refine ⟨?_, rfl⟩
    change clampToCapacity _ _ = clampToCapacity _ _
    rw [(hsame _ _).1]

/-- Applying the effects keeps what the capacities then allow. -/
theorem Coordinator.quoted_clamped (h : c.resources.Fits 0) (i : Fin sh.resources) :
    (c.quoted options.toPurchaseOptions).resources.amounts i = clampToCapacity
      (c.resources.amounts i) ((c.quoted options.toPurchaseOptions).resources.stored i).capacity := by
  obtain ⟨hamount, hcapacity⟩ := c.quoted_stored options i
  rw [hamount, hcapacity, Coordinator.keptAmounts]
  cases overriddenCapacity options.baseCapacity c.capacityOverrideIds
      (c.currentEffects options.toPurchaseOptions).resourceCapacityOverrides i with
  | none =>
    have hle := h i
    rw [Pi.zero_apply, add_zero] at hle
    exact (clampToCapacity_of_le hle).symm
  | some capacity => rfl

theorem Coordinator.quoted_fits (h : c.resources.Fits 0) :
    (c.quoted options.toPurchaseOptions).resources.Fits 0 := by
  intro i
  rw [Pi.zero_apply, add_zero, quoted_clamped h]
  exact clampToCapacity_le_capacity _ _

/-- **Applying the effects again changes an amount exactly when it is above its capacity.** -/
theorem Coordinator.quoted_amounts_iff :
    (c.quoted options.toPurchaseOptions).resources.amounts = c.resources.amounts ↔
      c.EffectsFit options := by
  rw [funext fun i => (c.quoted_stored options i).1]
  constructor
  · intro h i capacity hcapacity
    have hi := congrFun h i
    rw [Coordinator.keptAmounts, hcapacity] at hi
    rw [← hi]
    exact clampToCapacity_le_capacity _ _
  · intro h
    funext i
    rw [Coordinator.keptAmounts]
    cases hcapacity : overriddenCapacity options.baseCapacity c.capacityOverrideIds
        (c.currentEffects options.toPurchaseOptions).resourceCapacityOverrides i with
    | none => rfl
    | some capacity => exact clampToCapacity_of_le (h i capacity hcapacity)

/-- What quotes leave of a state in which all amounts are within the capacities. -/
structure QuotedFrom (options : UpgradePurchaseOptions sh) (c d : Coordinator sh) : Prop where
  requoted : Requoted options.toPurchaseOptions c d
  fits : d.resources.Fits 0

variable {d : Coordinator sh}

theorem QuotedFrom.quoted (h : QuotedFrom options c d) :
    QuotedFrom options c (d.quoted options.toPurchaseOptions) :=
  ⟨h.requoted.trans (requoted_quoted _ d), quoted_fits h.fits⟩

/-- **The costs of one level.** They ask for the effects or end the quote; the effects throw or are
applied. -/
theorem computeGeneratorCostsOrThrow_cases (i : Fin sh.generators) (purchaseIndex : ℕ)
    (c : Coordinator sh) :
    (c.pricesWithEffects options i purchaseIndex = false ∧
        computeGeneratorCostsOrThrow options i purchaseIndex c = .ok none c) ∨
      c.pricesWithEffects options i purchaseIndex = true ∧
        ((c.EffectsThrow options ∧ ∃ message,
            computeGeneratorCostsOrThrow options i purchaseIndex c = .error message c) ∨
          ¬c.EffectsThrow options ∧ ∃ costs, (∀ list, costs = some list → NonnegCosts list) ∧
            computeGeneratorCostsOrThrow options i purchaseIndex c =
              .ok costs (c.quoted options.toPurchaseOptions)) := by
  rw [computeGeneratorCostsOrThrow, Coordinator.pricesWithEffects, run_get_bind]
  have heffects := getEffectsOrThrow_cases options c
  cases (options.purchase i).costs with
  | currency cost =>
    dsimp only
    cases cost.multiplier? with
    | none => exact .inl ⟨rfl, rfl⟩
    | some costMultiplier =>
      cases c.evaluateCostFormula options.toPurchaseOptions i purchaseIndex cost.costCurve with
      | none => exact .inl ⟨rfl, rfl⟩
      | some evaluatedCost =>
        refine .inr ⟨rfl, heffects.imp ?_ ?_⟩
        · rintro ⟨hthrow, message, hrun⟩
          exact ⟨hthrow, message, run_bind_error hrun _⟩
        · rintro ⟨hthrow, hrun⟩
          refine ⟨hthrow, _, ?_, run_bind_ok hrun _⟩
          intro list hlist
          obtain ⟨amount, hamount, rfl⟩ := map_eq_some_iff.mp hlist
          intro priced hpriced
          obtain rfl := mem_singleton.mp hpriced
          exact finalCost_nonneg hamount
  | costs costs =>
    refine .inr ⟨rfl, heffects.imp ?_ ?_⟩
    · rintro ⟨hthrow, message, hrun⟩
      exact ⟨hthrow, message, run_bind_error hrun _⟩
    · rintro ⟨hthrow, hrun⟩
      refine ⟨hthrow, _, ?_, run_bind_ok hrun _⟩
      intro list hlist
      exact nonnegCosts_of_mapM (fun _ _ => computeListedCost_nonneg) hlist

variable {purchaseLevel : ℕ}

variable {totals : OrderedMap String ℚ}

theorem computeBulkCostsOrThrow_quoted (i : Fin sh.generators) (count : ℕ)
    (h : QuotedFrom options c d) :
    QuotedFrom options c
      (final (computeBulkCostsOrThrow options i count purchaseLevel totals d)) := by
  induction count generalizing purchaseLevel totals d with
  | zero => exact h
  | succ count ih =>
    rw [computeBulkCostsOrThrow]
    split
    · exact h
    · rcases computeGeneratorCostsOrThrow_cases i purchaseLevel d with
        ⟨-, hrun⟩ | ⟨-, ⟨-, message, hrun⟩ | ⟨-, costs, -, hrun⟩⟩
      · rw [run_bind_ok hrun]
        exact h
      · rw [run_bind_error hrun]
        exact h
      · rw [run_bind_ok hrun]
        rcases hnext : addLevelCosts totals costs with _ | totals'
        · exact h.quoted
        · exact ih h.quoted

/-- The totals of a quote are not negative. -/
theorem computeBulkCostsOrThrow_nonneg (i : Fin sh.generators) (count : ℕ)
    {totals' : OrderedMap String ℚ} {d' : Coordinator sh}
    (htotals : NonnegCosts (listedCosts totals.entries))
    (h : computeBulkCostsOrThrow options i count purchaseLevel totals d = .ok (some totals') d') :
    NonnegCosts (listedCosts totals'.entries) := by
  induction count generalizing purchaseLevel totals d with
  | zero =>
    injection h with hsame
    obtain rfl := some.inj hsame
    exact htotals
  | succ count ih =>
    rw [computeBulkCostsOrThrow] at h
    split at h
    · cases h
    · obtain ⟨costs, t, hrun, hrest⟩ := bind_ok h
      rcases hnext : addLevelCosts totals costs with _ | next
      · rw [hnext] at hrest
        cases hrest
      · rw [hnext] at hrest
        obtain ⟨list, hlist, hadded⟩ := bind_eq_some_iff.mp hnext
        have hlist' : costs = some list := (filter_eq_some_iff.mp hlist).1
        have hnonneg : NonnegCosts list := by
          rcases computeGeneratorCostsOrThrow_cases i purchaseLevel d with
            ⟨-, hcase⟩ | ⟨-, ⟨-, message, hcase⟩ | ⟨-, costs', hcosts', hcase⟩⟩
          · rw [hcase] at hrun
            injection hrun with hnone
            rw [← hnone] at hlist'
            cases hlist'
          · rw [hcase] at hrun
            cases hrun
          · rw [hcase] at hrun
            injection hrun with hsame
            exact hcosts' list (hsame.trans hlist')
        obtain ⟨totals'', hfold, hadds⟩ := foldlM_addCost_adds hnonneg htotals
        rw [hadded] at hfold
        obtain rfl := some.inj hfold
        exact ih hadds.nonneg hrest

variable {i : Fin sh.generators}

/-- The first level decides whether the effects are asked for. -/
theorem computeBulkCostsOrThrow_cases (hfits : c.resources.Fits 0) (count : ℕ)
    (totals : OrderedMap String ℚ)
    (hbelow : ((options.content.generators i).maxLevel.any fun maxLevel =>
      maxLevel ≤ purchaseLevel) = false) :
    (final (computeBulkCostsOrThrow options i (count + 1) purchaseLevel totals c) = c ∧
        (c.pricesWithEffects options i purchaseLevel = true → c.EffectsThrow options)) ∨
      (c.pricesWithEffects options i purchaseLevel = true ∧ ¬c.EffectsThrow options) ∧
        QuotedFrom options c
          (final (computeBulkCostsOrThrow options i (count + 1) purchaseLevel totals c)) := by
  rw [computeBulkCostsOrThrow, if_neg (by rw [hbelow]; exact Bool.false_ne_true)]
  have hquoted : QuotedFrom options c (c.quoted options.toPurchaseOptions) :=
    ⟨requoted_quoted _ c, quoted_fits hfits⟩
  rcases computeGeneratorCostsOrThrow_cases i purchaseLevel c with
    ⟨hprices, hrun⟩ | ⟨hprices, ⟨hthrow, message, hrun⟩ | ⟨hthrow, costs, -, hrun⟩⟩
  · rw [run_bind_ok hrun]
    exact .inl ⟨rfl, fun h => absurd (hprices.symm.trans h) Bool.false_ne_true⟩
  · rw [run_bind_error hrun]
    exact .inl ⟨rfl, fun _ => hthrow⟩
  · rw [run_bind_ok hrun]
    refine .inr ⟨⟨hprices, hthrow⟩, ?_⟩
    rcases hnext : addLevelCosts totals costs with _ | totals'
    · exact hquoted
    · exact computeBulkCostsOrThrow_quoted i count hquoted

variable {count : JsNumber}

theorem purchaseCount_pos {units : ℕ} (h : purchaseCount? count = some units) :
    0 < units := by
  rcases count with x | _ | _ | _
  · rw [purchaseCount?] at h
    split at h
    · next hvalid =>
      obtain rfl := some.inj h
      have hnum := Rat.num_pos.mpr hvalid.2
      omega
    · cases h
  all_goals cases h

/-- A generator that can be bought is below its highest level, and at least one unit is. -/
theorem purchasable_first {payload : PurchaseGeneratorPayload} {count : ℕ}
    (h : c.getPurchasableRecord options.toPurchaseOptions payload.generatorId payload.count =
      some (i, count)) :
    0 < count ∧ ((options.content.generators i).maxLevel.any fun maxLevel =>
      maxLevel ≤ (c.generators i).owned) = false := by
  rw [Coordinator.getPurchasableRecord] at h
  obtain ⟨count', hcount, h⟩ := bind_eq_some_iff.mp h
  obtain ⟨j, -, h⟩ := bind_eq_some_iff.mp h
  split at h
  · next hpurchasable =>
    obtain ⟨rfl, rfl⟩ := Prod.mk.inj (some.inj h)
    refine ⟨purchaseCount_pos hcount, ?_⟩
    have hmax := (isPurchasable_iff.mp hpurchasable).2
    cases hlimit : (options.content.generators j).maxLevel with
    | none => rfl
    | some maxLevel => simpa using hmax maxLevel hlimit
  · cases h

/-- **A quote of a generator** changes nothing, or it asks for the effects of upgrades and leaves
them applied. -/
theorem quoteGenerator_cases (hfits : c.resources.Fits 0) (payload : PurchaseGeneratorPayload) :
    (final (quoteGenerator options payload.generatorId payload.count c) = c ∧
        (c.AsksForEffects options payload → c.EffectsThrow options)) ∨
      (c.AsksForEffects options payload ∧ ¬c.EffectsThrow options) ∧ QuotedFrom options c
        (final (quoteGenerator options payload.generatorId payload.count c)) := by
  rw [quoteGenerator, run_get_bind]
  cases hrecord : c.getPurchasableRecord options.toPurchaseOptions payload.generatorId
      payload.count with
  | none =>
    refine .inl ⟨rfl, ?_⟩
    rintro ⟨i, count, hsome, -⟩
    rw [hrecord] at hsome
    cases hsome
  | some found =>
    obtain ⟨i, count⟩ := found
    dsimp only
    have hasks : c.AsksForEffects options payload ↔
        c.pricesWithEffects options i (c.generators i).owned = true := by
      constructor
      · rintro ⟨j, count', hsome, hprices⟩
        rw [hrecord] at hsome
        obtain ⟨rfl, rfl⟩ := Prod.mk.inj (some.inj hsome)
        exact hprices
      · exact fun hprices => ⟨i, count, hrecord, hprices⟩
    obtain ⟨hcount, hbelow⟩ := purchasable_first hrecord
    obtain ⟨count, rfl⟩ := Nat.exists_eq_add_one.mpr hcount
    rw [hasks, final_bind_pure]
    exact computeBulkCostsOrThrow_cases hfits count OrderedMap.empty hbelow

/-! ### Transactions -/

/-- Amounts, owned counts and purchases are what they were. -/
structure Coordinator.Untouched (c d : Coordinator sh) : Prop where
  amounts : d.resources.amounts = c.resources.amounts
  owned : ∀ i, (d.generators i).owned = (c.generators i).owned
  purchases : d.inputs.purchases = c.inputs.purchases

/-- A purchase as a transaction: one that is refused leaves everything untouched, and one that
succeeds has spent quoted costs, once, and kept the rest. -/
structure Transacts (c : Coordinator sh) (run : PurchaseResult sh.resources × Coordinator sh)
    (quoted : List GeneratorResourceCost → Prop)
    (kept : (Fin sh.resources → ℚ) → Fin sh.resources → ℚ) : Prop where
  refused : (∀ spends, run.1 ≠ .success spends) → c.Untouched run.2
  spent : ∀ spends, run.1 = .success spends → ∃ costs, quoted costs ∧
    spentOn spends = charge c.resources.ids costs ∧
    run.2.resources.amounts = kept (c.resources.amounts - charge c.resources.ids costs)

/-- A transaction from what a quote leaves is one from the start, if the quote moves no amount. -/
theorem Transacts.iff_amounts {run : PurchaseResult sh.resources × Coordinator sh}
    {quoted : List GeneratorResourceCost → Prop} (h : Transacts d run quoted id)
    (hunique : ∀ costs costs', quoted costs → quoted costs' → costs = costs')
    (hids : d.resources.ids = c.resources.ids)
    (howned : ∀ i, (d.generators i).owned = (c.generators i).owned)
    (hpurchases : d.inputs.purchases = c.inputs.purchases) :
    Transacts c run quoted id ↔ d.resources.amounts = c.resources.amounts := by
  constructor
  · intro hc
    by_cases hsuccess : ∃ spends, run.1 = .success spends
    · obtain ⟨spends, hsuccess⟩ := hsuccess
      obtain ⟨costs, hcosts, -, hd⟩ := h.spent spends hsuccess
      obtain ⟨costs', hcosts', -, hc⟩ := hc.spent spends hsuccess
      obtain rfl := hunique costs costs' hcosts hcosts'
      rw [hd, hids] at hc
      exact sub_left_injective hc
    · have hrefused : ∀ spends, run.1 ≠ .success spends := fun spends hs => hsuccess ⟨spends, hs⟩
      exact (h.refused hrefused).amounts.symm.trans (hc.refused hrefused).amounts
  · intro hamounts
    refine ⟨fun hrefused => ?_, fun spends hsuccess => ?_⟩
    · obtain ⟨hsame, hsameOwned, hsamePurchases⟩ := h.refused hrefused
      exact ⟨hsame.trans hamounts, fun i => (hsameOwned i).trans (howned i),
        hsamePurchases.trans hpurchases⟩
    · obtain ⟨costs, hcosts, hspent, hleft⟩ := h.spent spends hsuccess
      rw [hids] at hspent hleft
      rw [hamounts] at hleft
      exact ⟨costs, hcosts, hspent, hleft⟩

/-! ### Applying what is paid -/

section Paid

variable {paid : PurchaseResult sh.resources × ResourceState sh.resources}
  {apply : ProgressionM sh Unit}

theorem applyPaid_refused (h : ∀ spends, paid.1 ≠ .success spends) :
    applyPaid paid apply c = (paid.1, { c with resources := paid.2 }) := by
  rw [applyPaid]
  rcases hresult : paid.1 with spends | failure | message
  · exact absurd hresult (h spends)
  · rfl
  · rfl

variable {spends : List (ResourceSpend sh.resources)}

variable {d : Coordinator sh}

theorem applyPaid_ok (h : paid.1 = .success spends)
    (happly : apply { c with resources := paid.2 } = .ok () d) :
    applyPaid paid apply c = (.success spends, d) := by
  rw [applyPaid, h]
  dsimp only
  rw [happly]

theorem applyPaid_modify {f : Coordinator sh → Coordinator sh} (h : paid.1 = .success spends) :
    applyPaid paid (modify f) c = (.success spends, f { c with resources := paid.2 }) :=
  applyPaid_ok h rfl

theorem applyPaid_error {message : String} (h : paid.1 = .success spends)
    (happly : apply { c with resources := paid.2 } = .error message d) :
    applyPaid paid apply c =
      (.threw message, { d with resources := d.resources.refund spends }) := by
  rw [applyPaid, h]
  dsimp only
  rw [happly]

/-- A payment that is given back touches nothing. -/
theorem Charged.untouched {s : ResourceState sh.resources} (h : Charged 0 c.resources s) :
    c.Untouched { c with resources := s } :=
  ⟨by rw [h.amounts, sub_zero], fun _ => rfl, rfl⟩

end Paid

/-! ### Purchases of generators -/

theorem applyPurchase_resources (options : PurchaseOptions sh) (generatorId : String)
    (count : JsNumber) :
    (c.applyPurchase options generatorId count).resources = c.resources := by
  rw [Coordinator.applyPurchase]
  split <;> rfl

/-- The costs of a generator that are quoted. -/
def Coordinator.QuotesGenerator (options : UpgradePurchaseOptions sh) (c : Coordinator sh)
    (payload : PurchaseGeneratorPayload) (costs : List GeneratorResourceCost) : Prop :=
  ∃ d, quoteGenerator options payload.generatorId payload.count c = .ok (some costs) d

theorem quoteGenerator_nonneg {generatorId : String}
    (h : quoteGenerator options generatorId count c = .ok (some costs) d) : NonnegCosts costs := by
  rw [quoteGenerator, run_get_bind] at h
  rcases hrecord : c.getPurchasableRecord options.toPurchaseOptions generatorId count with
    _ | ⟨i, units⟩
  · rw [hrecord] at h
    cases h
  · rw [hrecord] at h
    obtain ⟨totals, t, hrun, hpure⟩ := bind_ok h
    injection hpure with hcosts
    obtain ⟨totals', rfl, rfl⟩ := map_eq_some_iff.mp hcosts
    exact computeBulkCostsOrThrow_nonneg i units nonneg_noTotals hrun

/-- A purchase of a generator is a transaction from what its quote leaves. -/
theorem handlePurchaseGenerator_transacts (payload : PurchaseGeneratorPayload)
    (hfits : (final (quoteGenerator options payload.generatorId payload.count c)).resources.Fits 0) :
    Transacts (final (quoteGenerator options payload.generatorId payload.count c))
      (c.handlePurchaseGenerator options payload) (c.QuotesGenerator options payload) id := by
  have hsame : ∀ d : Coordinator sh, d.Untouched d := fun d => ⟨rfl, fun _ => rfl, rfl⟩
  have hrefuse : ∀ {d : Coordinator sh} {result : PurchaseResult sh.resources},
      (∀ spends, result ≠ .success spends) →
        Transacts d (result, d) (c.QuotesGenerator options payload) id :=
    fun hresult => ⟨fun _ => hsame _, fun spends h => absurd h (hresult spends)⟩
  rw [Coordinator.handlePurchaseGenerator]
  by_cases hcount : (purchaseCount? payload.count).isNone = true
  · -- without a count there is no quote
    have hrecord : c.getPurchasableRecord options.toPurchaseOptions payload.generatorId
        payload.count = none := by
      rw [Coordinator.getPurchasableRecord, isNone_iff_eq_none.mp hcount]
      rfl
    rw [if_pos hcount, quoteGenerator, run_get_bind, hrecord]
    exact hrefuse fun _ h => (by cases h)
  rw [if_neg hcount]
  rcases hquote : quoteGenerator options payload.generatorId payload.count c with
    ⟨_ | _ | ⟨cost, costs⟩, d⟩ | ⟨message, d⟩
  · exact hrefuse fun _ h => (by cases h)
  · exact hrefuse fun _ h => (by cases h)
  · rw [hquote] at hfits
    have hcosts := quoteGenerator_nonneg hquote
    dsimp only
    rw [spendGeneratorPurchaseCostsOrFail_eq]
    rcases spendPurchaseCosts_cases payload.failures false hcosts (Charged.refl d.resources)
        (fun _ h => absurd h not_mem_nil) hfits with
      ⟨-, spends, hpays⟩ | ⟨-, hrefuses⟩
    · rw [applyPaid_modify hpays.result]
      refine ⟨fun hrefused => absurd rfl (hrefused spends), fun spends' hsame => ?_⟩
      obtain rfl := PurchaseResult.success.inj hsame
      have hspent : spentOn spends = charge d.resources.ids (cost :: costs) := by
        rw [hpays.spent]
        exact zero_add _
      refine ⟨cost :: costs, ⟨d, hquote⟩, hspent, ?_⟩
      change (Coordinator.applyPurchase _ _ _ _).resources.amounts =
        d.resources.amounts - charge d.resources.ids (cost :: costs)
      rw [← hspent, applyPurchase_resources]
      exact hpays.charged.amounts
    · rw [applyPaid_refused hrefuses.result]
      exact ⟨fun _ => hrefuses.charged.untouched,
        fun spends h => absurd h (hrefuses.result spends)⟩
  · exact hrefuse fun _ h => (by cases h)

variable (options) in
/-- **A purchase of a generator is a transaction exactly when** its quote, if it asks for the
effects of upgrades, makes their evaluation throw or finds no amount above the capacities they
give. -/
theorem handlePurchaseGenerator_iff (hfits : c.resources.Fits 0)
    (payload : PurchaseGeneratorPayload) :
    Transacts c (c.handlePurchaseGenerator options payload) (c.QuotesGenerator options payload) id ↔
      (c.AsksForEffects options payload → c.EffectsThrow options ∨ c.EffectsFit options) := by
  have hunique : ∀ costs costs', c.QuotesGenerator options payload costs →
      c.QuotesGenerator options payload costs' → costs = costs' := by
    rintro costs costs' ⟨d, hd⟩ ⟨d', hd'⟩
    rw [hd] at hd'
    injection hd' with hsame
    exact some.inj hsame
  rcases quoteGenerator_cases hfits payload with
    ⟨hsame, hthrow⟩ | ⟨⟨hasks, hthrow⟩, hquoted⟩
  · have htransacts := handlePurchaseGenerator_transacts (c := c) payload
      (by rw [hsame]; exact hfits)
    rw [hsame] at htransacts
    exact iff_of_true htransacts fun hasks => .inl (hthrow hasks)
  · have hrequoted := hquoted.requoted
    rw [(handlePurchaseGenerator_transacts payload hquoted.fits).iff_amounts hunique hrequoted.ids
      hrequoted.owned hrequoted.purchases, hrequoted.amounts, quoted_amounts_iff]
    exact ⟨fun hfit _ => .inr hfit, fun h => (h hasks).resolve_left hthrow⟩

/-! ### Purchases of upgrades -/

variable {i : Fin sh.upgrades}

theorem evaluateCostEntry_nonneg {repeatableAdjustment : ℚ} {cost : GeneratorCost}
    {priced : GeneratorResourceCost}
    (h : c.evaluateCostEntry options i repeatableAdjustment cost = some priced) :
    0 ≤ priced.amount := by
  obtain ⟨costMultiplier, -, h⟩ := bind_eq_some_iff.mp h
  obtain ⟨evaluatedCost, -, h⟩ := bind_eq_some_iff.mp h
  obtain ⟨amount, hamount, h⟩ := bind_eq_some_iff.mp h
  obtain rfl := some.inj h
  exact finalCost_nonneg hamount

theorem computeUpgradeCosts_nonneg (h : c.computeUpgradeCosts options i = some costs) :
    NonnegCosts costs := by
  obtain ⟨repeatableAdjustment, -, h⟩ := bind_eq_some_iff.mp h
  exact nonnegCosts_of_mapM (fun _ _ => evaluateCostEntry_nonneg) h

variable (options) in
theorem reads_quoteUpgrade (upgradeId : String) : Reads (quoteUpgrade options upgradeId) := by
  rw [quoteUpgrade]
  cases indexOfId (fun i => (options.content.upgrades i).id) upgradeId with
  | none => exact .pure none
  | some i =>
    refine .bind (reads_resolveUpgradeStatus _ i) fun status => ?_
    refine .bind .get fun c => ?_
    dsimp only
    split
    · exact .pure _
    · split
      · exact .pure _
      · exact .pure _

variable {upgradeId : String}

/-- An upgrade that is quoted as available has not reached its largest number of purchases. -/
theorem quoteUpgrade_available {quote : UpgradePurchaseQuote}
    (h : quoteUpgrade options upgradeId c = .ok (some quote) d)
    (havailable : quote.status = .available) :
    ∃ i, indexOfId (fun i => (options.content.upgrades i).id) upgradeId = some i ∧
      reachedMaximum (c.upgrades i).purchases (options.content.upgrades i).maxPurchases = false ∧
      c.computeUpgradeCosts options i = some quote.costs := by
  rw [quoteUpgrade] at h
  cases hi : indexOfId (fun i => (options.content.upgrades i).id) upgradeId with
  | none =>
    rw [hi] at h
    cases h
  | some i =>
    rw [hi] at h
    dsimp only at h
    rcases reads_cases (reads_resolveUpgradeStatus options.toProgressionOptions i) c with
      ⟨message, hstatus⟩ | ⟨status, hstatus⟩
    · rw [run_bind_error hstatus] at h
      cases h
    rw [run_bind_ok hstatus, run_get_bind] at h
    split at h
    · next hlocked =>
      injection h with hquote
      obtain rfl := some.inj hquote
      rw [hlocked] at havailable
      cases havailable
    · split at h
      · injection h with hquote
        obtain rfl := some.inj hquote
        cases havailable
      · next hbelow =>
        injection h with hquote
        obtain ⟨costs, hcosts, rfl⟩ := map_eq_some_iff.mp hquote
        exact ⟨i, rfl, Bool.eq_false_iff.mpr hbelow, hcosts⟩

/-- Below its largest number, one purchase more is counted in full. -/
theorem capPurchases_succ {purchases : ℕ}
    (h : reachedMaximum purchases (options.content.upgrades i).maxPurchases = false) :
    Coordinator.capPurchases options.toProgressionOptions i (purchases + 1) = purchases + 1 := by
  rw [Coordinator.capPurchases]
  cases hmax : (options.content.upgrades i).maxPurchases with
  | none => rfl
  | some maxPurchases =>
    rw [hmax, reachedMaximum, decide_eq_false_iff_not] at h
    exact min_eq_left (by omega)

/-- The costs of an upgrade that is quoted as available. -/
def Coordinator.QuotesUpgrade (options : UpgradePurchaseOptions sh) (c : Coordinator sh)
    (upgradeId : String) (costs : List GeneratorResourceCost) : Prop :=
  ∃ d, quoteUpgrade options upgradeId c = .ok (some { status := .available, costs }) d

/-- What formulas read once an upgrade is paid and counted. -/
def Coordinator.inputsAfter (c : Coordinator sh) (i : Fin sh.upgrades)
    (costs : List GeneratorResourceCost) : FormulaInputs sh :=
  { c.inputs with
    amount := c.resources.amounts - charge c.resources.ids costs
    purchases := Function.update c.inputs.purchases i ((c.upgrades i).purchases + 1) }

/-- A purchase of an upgrade comes to be paid: the upgrade is available and its costs are there. -/
structure Coordinator.PaysUpgrade (options : UpgradePurchaseOptions sh) (c : Coordinator sh)
    (payload : String) (i : Fin sh.upgrades) (costs : List GeneratorResourceCost) : Prop where
  isNonBlankString : isNonBlankString payload = true
  index : indexOfId (fun i => (options.content.upgrades i).id) (trim payload) = some i
  quoted : c.QuotesUpgrade options (trim payload) costs
  payable : Payable c.resources (dueCosts true costs)

variable (options) in
/-- The purchase is counted, and then the effects are applied or their evaluation throws. -/
theorem incrementPurchasesOrThrow_cases
    (h : reachedMaximum (c.upgrades i).purchases (options.content.upgrades i).maxPurchases =
      false) :
    ((c.purchased i ((c.upgrades i).purchases + 1)).EffectsThrow options ∧
        ∃ message, incrementPurchasesOrThrow options i c =
          .error message (c.purchased i ((c.upgrades i).purchases + 1))) ∨
      ¬(c.purchased i ((c.upgrades i).purchases + 1)).EffectsThrow options ∧
        incrementPurchasesOrThrow options i c = .ok ()
          ((c.purchased i ((c.upgrades i).purchases + 1)).quoted options.toPurchaseOptions) := by
  have hrun : incrementPurchasesOrThrow options i c =
      (getEffectsOrThrow options c.lastUpdatedStep >>= fun _ => pure ())
        (c.purchased i ((c.upgrades i).purchases + 1)) := by
    change (getEffectsOrThrow options c.lastUpdatedStep >>= fun _ => pure ())
        (c.purchased i (Coordinator.capPurchases options.toProgressionOptions i
          ((c.upgrades i).purchases + 1))) = _
    rw [capPurchases_succ h]
  rw [hrun]
  refine (getEffectsOrThrow_cases options (c.purchased i ((c.upgrades i).purchases + 1))).imp ?_ ?_
  · rintro ⟨hthrow, message, herror⟩
    exact ⟨hthrow, message, run_bind_error herror _⟩
  · rintro ⟨hthrow, hok⟩
    exact ⟨hthrow, run_bind_ok hok _⟩

/-- A payment within the capacities leaves the amounts within them. -/
theorem Charged.fits {s' : ResourceState n} {price : Fin n → ℚ} (h : Charged price s s')
    (hprice : ∀ i, 0 ≤ price i) (hfits : s.Fits 0) : s'.Fits 0 := by
  intro i
  have hle := hfits i
  rw [Pi.zero_apply, add_zero] at hle ⊢
  rw [h.stored, h.amounts, Pi.sub_apply]
  refine le_trans ?_ hle
  exact_mod_cast sub_le_self _ (hprice i)

variable (options) in
/-- Once an upgrade is paid and counted, formulas read what is left of the amounts and the purchase
more. -/
theorem effectsThrow_purchased (i : Fin sh.upgrades) {s : ResourceState sh.resources}
    (h : Charged (charge c.resources.ids costs) c.resources s) :
    Coordinator.EffectsThrow options
        (({ c with resources := s } : Coordinator sh).purchased i ((c.upgrades i).purchases + 1)) ↔
      ∃ message, evaluateEffectsOrThrow options.onError options.toProgressionOptions
        (c.inputsAfter i costs) c.lastUpdatedStep = .error message := by
  have hinputs : (({ c with resources := s } : Coordinator sh).purchased i
      ((c.upgrades i).purchases + 1)).inputs = c.inputsAfter i costs := by
    rw [Coordinator.inputsAfter, ← h.amounts, ← purchases_purchased]
    rfl
  rw [Coordinator.EffectsThrow, hinputs]
  exact and_iff_right rfl

/-- The amounts under the capacities that a store ends with. -/
def ResourceState.kept (s : ResourceState n) (amounts : Fin n → ℚ) (i : Fin n) : ℚ :=
  clampToCapacity (amounts i) (s.stored i).capacity

theorem Coordinator.QuotesUpgrade.run (h : c.QuotesUpgrade options upgradeId costs) :
    quoteUpgrade options upgradeId c = .ok (some { status := .available, costs }) c := by
  obtain ⟨d, hrun⟩ := h
  rcases reads_cases (reads_quoteUpgrade options upgradeId) c with ⟨message, hread⟩ | ⟨quote, hread⟩
  · rw [hread] at hrun
    cases hrun
  · rw [hread] at hrun
    injection hrun with hquote
    rw [hread, hquote]

variable {payload : String}

/-- An upgrade that is quoted as available is paid. -/
theorem handlePurchaseUpgrade_quoted (hblank : isNonBlankString payload = true)
    (h : c.QuotesUpgrade options (trim payload) costs) :
    c.handlePurchaseUpgrade options payload =
      applyPaid (spendUpgradePurchaseCostsOrFail (trim payload) costs c.resources)
        (Coordinator.applyUpgradePurchase options (trim payload)) c := by
  rw [Coordinator.handlePurchaseUpgrade, if_pos hblank]
  dsimp only
  rw [h.run]

/-- The costs of an upgrade that is quoted as available are paid or given back. -/
theorem Coordinator.QuotesUpgrade.paid (h : c.QuotesUpgrade options upgradeId costs)
    (hfits : c.resources.Fits 0) :
    (Payable c.resources (dueCosts true costs) ∧ ∃ spends, Pays c.resources [] costs
        (spendUpgradePurchaseCostsOrFail upgradeId costs c.resources) spends) ∨
      ¬Payable c.resources (dueCosts true costs) ∧
        Refuses c.resources (spendUpgradePurchaseCostsOrFail upgradeId costs c.resources) := by
  obtain ⟨i, -, -, hcosts⟩ := quoteUpgrade_available h.run rfl
  exact spendPurchaseCosts_cases (upgradeFailures upgradeId) true
    (computeUpgradeCosts_nonneg hcosts) (Charged.refl c.resources)
    (fun _ h => absurd h not_mem_nil) hfits

/-- **What the purchase of an upgrade does once it can be paid.** It succeeds, or the evaluation of
the effects throws and the purchase stays counted. -/
theorem handlePurchaseUpgrade_pays (h : c.PaysUpgrade options payload i costs)
    (hfits : c.resources.Fits 0) :
    (∃ message, evaluateEffectsOrThrow options.onError options.toProgressionOptions
          (c.inputsAfter i costs) c.lastUpdatedStep = .error message) ∧
        (∀ spends, (c.handlePurchaseUpgrade options payload).1 ≠ .success spends) ∧
        ¬c.Untouched (c.handlePurchaseUpgrade options payload).2 ∨
      (∀ message, evaluateEffectsOrThrow options.onError options.toProgressionOptions
          (c.inputsAfter i costs) c.lastUpdatedStep ≠ .error message) ∧
        ∃ spends, (c.handlePurchaseUpgrade options payload).1 = .success spends ∧
          spentOn spends = charge c.resources.ids costs ∧
          (c.handlePurchaseUpgrade options payload).2.resources.amounts =
            (c.handlePurchaseUpgrade options payload).2.resources.kept
              (c.resources.amounts - charge c.resources.ids costs) := by
  rw [handlePurchaseUpgrade_quoted h.isNonBlankString h.quoted]
  obtain ⟨i', hi', hbelow, hcosts⟩ := quoteUpgrade_available h.quoted.run rfl
  rw [h.index] at hi'
  obtain rfl := some.inj hi'
  have hnonneg := computeUpgradeCosts_nonneg hcosts
  rcases h.quoted.paid hfits with ⟨-, spends, hpays⟩ | ⟨hpayable, -⟩
  swap
  · exact absurd h.payable hpayable
  have hspent : spentOn spends = charge c.resources.ids costs := by
    rw [hpays.spent]
    exact zero_add _
  have hcharged := hpays.charged
  rw [hspent] at hcharged
  generalize hpaid : spendUpgradePurchaseCostsOrFail (trim payload) costs c.resources = paid
    at hpays hcharged
  have happly : Coordinator.applyUpgradePurchase options (trim payload) =
      incrementPurchasesOrThrow options i := by
    rw [Coordinator.applyUpgradePurchase, h.index]
  rw [happly]
  have heffects := effectsThrow_purchased options i hcharged
  rcases incrementPurchasesOrThrow_cases options
      (c := { c with resources := paid.2 }) hbelow with
    ⟨hthrow, message, hrun⟩ | ⟨hthrow, hrun⟩
  · rw [applyPaid_error hpays.result hrun]
    refine .inl ⟨heffects.mp hthrow, fun _ h => (by cases h), fun huntouched => ?_⟩
    -- the costs are given back, the count is not
    have hcount := congrFun huntouched.purchases i
    change ((({ c with resources := paid.2 } : Coordinator sh).purchased i
      ((c.upgrades i).purchases + 1)).inputs.purchases i) = (c.upgrades i).purchases at hcount
    rw [purchases_purchased, Function.update_self] at hcount
    omega
  · rw [applyPaid_ok hpays.result hrun]
    refine .inr ⟨fun message herror => hthrow (heffects.mpr ⟨message, herror⟩), spends, rfl, hspent,
      ?_⟩
    funext r
    have hfitsAfter : paid.2.Fits 0 := hcharged.fits (charge_nonneg _ hnonneg) hfits
    rw [← hcharged.amounts]
    exact quoted_clamped (c := ({ c with resources := paid.2 } : Coordinator sh).purchased
      i ((c.upgrades i).purchases + 1)) hfitsAfter r

/-- **A purchase of an upgrade that does not come to be paid** is refused and touches nothing. -/
theorem handlePurchaseUpgrade_refuses (hfits : c.resources.Fits 0)
    (h : ¬∃ i costs, c.PaysUpgrade options payload i costs) :
    (∀ spends, (c.handlePurchaseUpgrade options payload).1 ≠ .success spends) ∧
      c.Untouched (c.handlePurchaseUpgrade options payload).2 := by
  have hsame : c.Untouched c := ⟨rfl, fun _ => rfl, rfl⟩
  by_cases hblank : isNonBlankString payload = true
  swap
  · rw [Coordinator.handlePurchaseUpgrade, if_neg hblank]
    exact ⟨fun _ h => (by cases h), hsame⟩
  by_cases hquoted : ∃ costs, c.QuotesUpgrade options (trim payload) costs
  · obtain ⟨costs, hquoted⟩ := hquoted
    rw [handlePurchaseUpgrade_quoted hblank hquoted]
    rcases hquoted.paid hfits with ⟨hpayable, -⟩ | ⟨-, hrefuses⟩
    · obtain ⟨i, hindex, -, -⟩ := quoteUpgrade_available hquoted.run rfl
      exact absurd ⟨i, costs, hblank, hindex, hquoted, hpayable⟩ h
    · rw [applyPaid_refused hrefuses.result]
      exact ⟨hrefuses.result, hrefuses.charged.untouched⟩
  · rw [Coordinator.handlePurchaseUpgrade, if_pos hblank]
    dsimp only
    rcases reads_cases (reads_quoteUpgrade options (trim payload)) c with
      ⟨message, hrun⟩ | ⟨_ | ⟨status, costs⟩, hrun⟩
    · rw [hrun]
      exact ⟨fun _ h => (by cases h), hsame⟩
    · rw [hrun]
      exact ⟨fun _ h => (by cases h), hsame⟩
    · rw [hrun]
      cases status with
      | locked => exact ⟨fun _ h => (by cases h), hsame⟩
      | available => exact absurd ⟨costs, c, hrun⟩ hquoted
      | purchased => exact ⟨fun _ h => (by cases h), hsame⟩

variable (options) in
/-- **A purchase of an upgrade is a transaction exactly when** the effects can be evaluated, without
a throw, with the purchase counted and its costs paid. -/
theorem handlePurchaseUpgrade_iff (hfits : c.resources.Fits 0) (payload : String) :
    Transacts c (c.handlePurchaseUpgrade options payload)
        (c.QuotesUpgrade options (trim payload))
        (c.handlePurchaseUpgrade options payload).2.resources.kept ↔
      ∀ i costs, c.PaysUpgrade options payload i costs → ∀ message,
        evaluateEffectsOrThrow options.onError options.toProgressionOptions
          (c.inputsAfter i costs) c.lastUpdatedStep ≠ .error message := by
  constructor
  · intro htransacts i costs hpays
    rcases handlePurchaseUpgrade_pays hpays hfits with ⟨-, hrefused, htouched⟩ | ⟨hnone, -⟩
    · exact absurd (htransacts.refused hrefused) htouched
    · exact hnone
  · intro hnone
    by_cases hpays : ∃ i costs, c.PaysUpgrade options payload i costs
    · obtain ⟨i, costs, hpays⟩ := hpays
      rcases handlePurchaseUpgrade_pays hpays hfits with
        ⟨⟨message, herror⟩, -⟩ | ⟨-, spends, hsuccess, hspent, hleft⟩
      · exact absurd herror (hnone i costs hpays message)
      · refine ⟨fun hrefused => absurd hsuccess (hrefused spends), fun spends' hsame => ?_⟩
        obtain rfl := PurchaseResult.success.inj (hsuccess.symm.trans hsame)
        exact ⟨costs, hpays.quoted, hspent, hleft⟩
    · obtain ⟨hrefused, huntouched⟩ := handlePurchaseUpgrade_refuses hfits hpays
      exact ⟨fun _ => huntouched, fun spends hsuccess => absurd hsuccess (hrefused spends)⟩

/-- The shape of a game with one resource and one upgrade. -/
def forgeShape : ContentShape :=
  { resources := 1, generators := 0, upgrades := 1, prestigeLayers := 0, achievements := 0 }

/-- Bellows for 3 of 5 gold, whose effect is not a number. -/
def forgeOptions (onError : String → Except String Unit) : UpgradePurchaseOptions forgeShape where
  content :=
    { resources := fun _ =>
        { id := "gold", startAmount := some (.fin 5), capacity := none, unlocked := some true
          visible := none, dirtyTolerance := none, unlockCondition := none
          visibilityCondition := none }
      generators := fun i => i.elim0
      upgrades := fun _ =>
        { id := "bellows", repeatable := none, prerequisites := [], unlockCondition := none
          visibilityCondition := none
          effects := [.modifyResourceRate (Fin.last 0) .multiply fun _ => .ok .nan] }
      prestigeLayers := fun i => i.elim0
      achievements := fun i => i.elim0
      generator_ids := fun i => i.elim0
      upgrade_ids := fun i j _ => Subsingleton.elim (α := Fin 1) i j
      achievement_ids := fun i => i.elim0
      generator_nonblank := fun i => i.elim0
      upgrade_nonblank := fun _ => rfl
      achievement_nonblank := fun i => i.elim0 }
  stepDurationMs := 1000
  precision := .default
  maxConditionDepth := none
  evaluateScriptCondition := none
  getCustomMetricValue := none
  purchase := fun i => i.elim0
  upgradeCost := fun _ =>
    { costs := .currency
        { resourceId := "gold", costMultiplier := .fin 3, costCurve := fun _ => .ok (.fin 1) }
      costCurve := none }
  onError

/-- The forge as it is created. -/
def forge : Except String (Coordinator forgeShape) :=
  createProgressionCoordinator (forgeOptions fun _ => .ok ()).toProgressionOptions

theorem forge_fits {c : Coordinator forgeShape} (h : forge = .ok c) : c.resources.Fits 0 := by
  have hcapacity : forge.toOption.map (fun c => (c.resources.stored (Fin.last 0)).capacity) =
      some ⊤ := by with_unfolding_all rfl
  intro i
  have hi : (c.resources.stored i).capacity = ⊤ := by
    rw [h] at hcapacity
    have hlast : i = Fin.last 0 := Subsingleton.elim (α := Fin 1) i (Fin.last 0)
    rw [hlast]
    exact some.inj hcapacity
  rw [hi]
  exact le_top

/-- Whether a purchase was refused. -/
def PurchaseResult.refused {n : ℕ} : PurchaseResult n → Bool
  | .success _ => false
  | .failure _ | .threw _ => true

end IdleEngine
