import IdleEngine.Progression.Derived
import IdleEngine.Progression.Steps

/-!
# What an update changes

`Change` lists what an update does to the store, to the purchases and to what is unlocked, one
elementary change at a time and each with its reason: a resource is unlocked because its condition
holds then, because a purchased upgrade unlocks it, or because an achievement grants it. Everything
else an update does leaves these alone (`SameDerived`).

`changes_updateForStep` takes an update apart once; what every change preserves, updates preserve.
-/

namespace IdleEngine

open Relation Stateful

variable {sh : ContentShape} (options : ProgressionOptions sh)

/-- A purchased upgrade unlocks the resource. -/
def Coordinator.PurchasedResource (c : Coordinator sh) (i : Fin sh.resources) : Prop :=
  .unlockResource i ∈ purchasedEffects options c.inputs.purchases

/-- A purchased upgrade unlocks the generator. -/
def Coordinator.PurchasedGenerator (c : Coordinator sh) (i : Fin sh.generators) : Prop :=
  .unlockGenerator i ∈ purchasedEffects options c.inputs.purchases

/-- Two states with the same store, the same purchases and the same derived state. -/
structure SameDerived (c c' : Coordinator sh) : Prop where
  resources : c'.resources = c.resources
  capacityOverrideIds : c'.capacityOverrideIds = c.capacityOverrideIds
  dirtyToleranceOverrideIds : c'.dirtyToleranceOverrideIds = c.dirtyToleranceOverrideIds
  isUnlocked : ∀ i, (c'.generators i).isUnlocked = (c.generators i).isUnlocked
  purchases : c'.inputs.purchases = c.inputs.purchases
  upgradeEffectsCache : c'.upgradeEffectsCache = c.upgradeEffectsCache
  flagState : c'.flagState = c.flagState
  upgradeAutomationIds : c'.upgradeAutomationIds = c.upgradeAutomationIds

/-- An elementary change of an update. A generator is unlocked where its condition holds or where
`granted` says so. -/
inductive Change (granted : Coordinator sh → Fin sh.generators → Prop) :
    Coordinator sh → Coordinator sh → Prop
  | effects (c : Coordinator sh) (step : ℕ) :
      Change granted c (c.getUpgradeEffects options step).2
  | purchase (c : Coordinator sh) (i : Fin sh.upgrades) :
      Change granted c (c.incrementUpgradePurchases options i)
  | unlock (c : Coordinator sh) (i : Fin sh.resources) {condition : Condition}
      (hcondition : (options.content.resources i).unlockCondition = some condition)
      (hholds : c.Holds options condition) :
      Change granted c { c with resources := c.resources.unlock i }
  | show (c : Coordinator sh) (i : Fin sh.resources) :
      Change granted c { c with resources := c.resources.grantVisibility i }
  | grant (c : Coordinator sh) (a : Fin sh.achievements) {i : Fin sh.resources}
      {formula : NumericFormula}
      (hreward : (options.content.achievements a).reward = some (.grantResource i formula))
      (amount : ℚ) : Change granted c (c.grantAchievementResource i amount)
  | unlockGenerator (c : Coordinator sh) (i : Fin sh.generators) (unlock : Bool)
      (hunlock : unlock = true →
        c.Holds options (options.content.generators i).baseUnlock ∨ granted c i) :
      Change granted c (c.unlockGenerator i unlock)
  | rest {c c' : Coordinator sh} (h : SameDerived c c') : Change granted c c'

/-- The purchases are possible ones, and the cached effects are those of the purchases. -/
structure Fresh (c : Coordinator sh) : Prop where
  capped : ∀ i, Coordinator.capPurchases options i (c.upgrades i).purchases =
    (c.upgrades i).purchases
  cached : ∀ step effects, c.upgradeEffectsCache = some (step, effects) →
    ∃ inputs, inputs.purchases = c.inputs.purchases ∧
      effects = evaluateUpgradeEffects options inputs step

variable {options} {granted : Coordinator sh → Fin sh.generators → Prop}

variable {c c' : Coordinator sh}

theorem SameDerived.fresh (h : SameDerived c c') (hc : Fresh options c) :
    Fresh options c' where
  capped i := by
    have hsame : (c'.upgrades i).purchases = (c.upgrades i).purchases := congrFun h.purchases i
    rw [hsame]
    exact hc.capped i
  cached step effects := by
    rw [h.upgradeEffectsCache, h.purchases]
    exact hc.cached step effects

/-! ### Applying effects -/

theorem Fresh.effects (h : Fresh options c) (step : ℕ) :
    ∃ inputs, inputs.purchases = c.inputs.purchases ∧
      c.cachedUpgradeEffects options step = evaluateUpgradeEffects options inputs step := by
  rw [Coordinator.cachedUpgradeEffects]
  split
  · next cachedStep effects hcache =>
    split
    · next hstep =>
      obtain ⟨inputs, hinputs, heffects⟩ := h.cached cachedStep effects hcache
      exact ⟨inputs, hinputs, hstep ▸ heffects⟩
    · exact ⟨c.inputs, rfl, rfl⟩
  · exact ⟨c.inputs, rfl, rfl⟩

namespace Coordinator

theorem isUnlocked_applyUnlockedGenerators (c : Coordinator sh) (l : List (Fin sh.generators))
    (step : ℕ) (i : Fin sh.generators) :
    ((c.applyUnlockedGenerators l step).generators i).isUnlocked =
      ((c.generators i).isUnlocked || decide (i ∈ l)) := by
  induction l generalizing c with
  | nil => simp [applyUnlockedGenerators]
  | cons j l ih =>
    change ((applyUnlockedGenerators (applyUnlockedGenerator step c j) l step).generators
      i).isUnlocked = _
    rw [ih]
    by_cases hij : i = j
    · subst hij
      simp [applyUnlockedGenerator, setGenerator]
    · simp [applyUnlockedGenerator, setGenerator, hij]

theorem applyUnlockedGenerators_rest (c : Coordinator sh) (l : List (Fin sh.generators))
    (step : ℕ) :
    ∃ generators, c.applyUnlockedGenerators l step = { c with generators } := by
  refine List.foldlRecOn (motive := fun t : Coordinator sh =>
    ∃ generators, t = { c with generators }) _ _ ⟨_, rfl⟩ ?_
  rintro _ ⟨generators, rfl⟩ j _
  exact ⟨_, rfl⟩

/-- The store after the effects of upgrades. -/
def appliedStore (options : ProgressionOptions sh) (c : Coordinator sh)
    (effects : UpgradeEffects sh) : ResourceState sh.resources :=
  ((effects.unlockedResources.foldl ResourceState.unlockAndShow c.resources
    ).applyCapacityOverrides options.baseCapacity c.capacityOverrideIds
      effects.resourceCapacityOverrides
    ).applyDirtyToleranceOverrides options.baseDirtyTolerance c.dirtyToleranceOverrideIds
      effects.dirtyToleranceOverrides

/-- What the application of effects leaves. -/
structure Applied (options : ProgressionOptions sh) (step : ℕ) (effects : UpgradeEffects sh)
    (c c' : Coordinator sh) : Prop where
  resources : c'.resources = c.appliedStore options effects
  capacityOverrideIds :
    c'.capacityOverrideIds = effects.resourceCapacityOverrides.entries.map Prod.fst
  dirtyToleranceOverrideIds :
    c'.dirtyToleranceOverrideIds = effects.dirtyToleranceOverrides.entries.map Prod.fst
  isUnlocked : ∀ i, (c'.generators i).isUnlocked =
    ((c.generators i).isUnlocked || decide (i ∈ effects.unlockedGenerators))
  upgrades : c'.upgrades = c.upgrades
  upgradeEffectsCache : c'.upgradeEffectsCache = some (step, effects)
  flagState : c'.flagState = effects.grantedFlags
  upgradeAutomationIds : c'.upgradeAutomationIds = effects.grantedAutomations

theorem applyUpgradeEffects_applied (c : Coordinator sh) (step : ℕ) (effects : UpgradeEffects sh) :
    Applied options step effects c (c.applyUpgradeEffects options step effects) := by
  rw [applyUpgradeEffects]
  obtain ⟨generators, hgenerators⟩ := applyUnlockedGenerators_rest
    (((({ c with upgradeEffectsCache := some (step, effects) }
      ).applyDerivedStateFromEffects effects).rebuildCombinedAutomationIds.applyUnlockedResources
        effects.unlockedResources)) effects.unlockedGenerators step
  have hunlocked := isUnlocked_applyUnlockedGenerators
    (((({ c with upgradeEffectsCache := some (step, effects) }
      ).applyDerivedStateFromEffects effects).rebuildCombinedAutomationIds.applyUnlockedResources
        effects.unlockedResources)) effects.unlockedGenerators step
  rw [hgenerators] at hunlocked ⊢
  exact
    { resources := rfl
      capacityOverrideIds := rfl
      dirtyToleranceOverrideIds := rfl
      isUnlocked := hunlocked
      upgrades := rfl
      upgradeEffectsCache := rfl
      flagState := rfl
      upgradeAutomationIds := rfl }

theorem getUpgradeEffects_applied (c : Coordinator sh) (step : ℕ) :
    Applied options step (c.cachedUpgradeEffects options step) c
      (c.getUpgradeEffects options step).2 :=
  c.applyUpgradeEffects_applied step _

/-- A purchase is written, then the effects of all purchases are evaluated and applied. -/
def purchased (c : Coordinator sh) (i : Fin sh.upgrades) (purchases : ℕ) : Coordinator sh :=
  { c.setUpgrade i { c.upgrades i with purchases } with upgradeEffectsCache := none }

theorem writePurchases_eq (c : Coordinator sh) (i : Fin sh.upgrades) (purchases : ℕ) :
    c.writePurchases options i purchases =
      ((c.purchased i purchases).getUpgradeEffects options c.lastUpdatedStep).2 := rfl

theorem purchases_purchased (c : Coordinator sh) (i : Fin sh.upgrades) (purchases : ℕ) :
    (c.purchased i purchases).inputs.purchases =
      Function.update c.inputs.purchases i purchases := by
  funext j
  by_cases hj : j = i
  · subst hj
    simp [purchased, setUpgrade, inputs]
  · simp [purchased, setUpgrade, inputs, hj]

end Coordinator

open Coordinator

/-- Writing a possible number of purchases keeps the state fresh. -/
theorem Fresh.purchased (h : Fresh options c) {i : Fin sh.upgrades} {purchases : ℕ}
    (hcap : capPurchases options i purchases = purchases) :
    Fresh options (c.purchased i purchases) where
  capped j := by
    by_cases hj : j = i
    · subst hj
      simpa [Coordinator.purchased, setUpgrade] using hcap
    · simpa [Coordinator.purchased, setUpgrade, hj] using h.capped j
  cached step effects hcache := by
    cases hcache

theorem Fresh.getUpgradeEffects (h : Fresh options c) (step : ℕ) :
    Fresh options (c.getUpgradeEffects options step).2 := by
  have happlied : Applied options step _ c _ := c.getUpgradeEffects_applied step
  have hpurchases : (c.getUpgradeEffects options step).2.inputs.purchases = c.inputs.purchases :=
    funext fun i => by rw [inputs, happlied.upgrades]; rfl
  refine ⟨fun i => ?_, fun step' effects hcache => ?_⟩
  · rw [happlied.upgrades]
    exact h.capped i
  · rw [happlied.upgradeEffectsCache] at hcache
    obtain ⟨rfl, rfl⟩ := Prod.mk.inj (Option.some.inj hcache)
    rw [hpurchases]
    exact h.effects step

theorem Fresh.writePurchases (h : Fresh options c) {i : Fin sh.upgrades} {purchases : ℕ}
    (hcap : capPurchases options i purchases = purchases) :
    Fresh options (c.writePurchases options i purchases) :=
  (h.purchased hcap).getUpgradeEffects _

/-- **Every change keeps the state fresh.** -/
theorem Change.fresh (h : Change options granted c c') (hc : Fresh options c) :
    Fresh options c' := by
  cases h with
  | effects step => exact hc.getUpgradeEffects step
  | purchase i => exact hc.writePurchases (capPurchases_idem options i _)
  | unlock i hcondition hholds => exact ⟨hc.capped, hc.cached⟩
  | «show» i => exact ⟨hc.capped, hc.cached⟩
  | grant a hreward amount =>
    rw [grantAchievementResource]
    split
    · exact hc
    · exact ⟨hc.capped, hc.cached⟩
  | unlockGenerator i unlock hunlock => exact ⟨hc.capped, hc.cached⟩
  | rest h => exact h.fresh hc

theorem Change.purchases_le (h : Change options granted c c') (hc : Fresh options c) :
    c.inputs.purchases ≤ c'.inputs.purchases := by
  cases h with
  | effects step =>
    intro u
    change _ ≤ ((c.getUpgradeEffects options step).2.upgrades u).purchases
    rw [(c.getUpgradeEffects_applied step).upgrades]
    exact le_refl _
  | purchase i =>
    intro u
    change _ ≤ ((c.writePurchases options i _).upgrades u).purchases
    rw [writePurchases_eq, (Coordinator.getUpgradeEffects_applied _ _).upgrades]
    change _ ≤ (c.purchased i _).inputs.purchases u
    rw [purchases_purchased]
    by_cases hu : u = i
    · subst hu
      rw [Function.update_self]
      -- a purchase more is capped no lower than the purchases there are
      have hcap := hc.capped u
      change (c.upgrades u).purchases ≤ _
      unfold capPurchases at hcap ⊢
      split at hcap <;> omega
    · rw [Function.update_of_ne hu]
  | unlock i hcondition hholds => exact le_refl _
  | «show» i => exact le_refl _
  | grant a hreward amount =>
    rw [grantAchievementResource]
    split <;> exact le_refl _
  | unlockGenerator i unlock hunlock => exact le_refl _
  | rest h => rw [h.purchases]

/-- A sequence of changes. -/
abbrev Changes (options : ProgressionOptions sh)
    (granted : Coordinator sh → Fin sh.generators → Prop) :
    Coordinator sh → Coordinator sh → Prop :=
  ReflTransGen (Change options granted)

theorem Changes.fresh (h : Changes options granted c c') (hc : Fresh options c) :
    Fresh options c' := by
  induction h with
  | refl => exact hc
  | tail _ hstep ih => exact hstep.fresh ih

theorem Changes.purchases_le (h : Changes options granted c c') (hc : Fresh options c) :
    c.inputs.purchases ≤ c'.inputs.purchases := by
  induction h with
  | refl => exact le_refl _
  | tail hsteps hstep ih => exact ih.trans (hstep.purchases_le (Changes.fresh hsteps hc))

theorem purchasedEffects_mono {purchases purchases' : Fin sh.upgrades → ℕ}
    (h : purchases ≤ purchases') {effect : UpgradeEffect sh}
    (heffect : effect ∈ purchasedEffects options purchases) :
    effect ∈ purchasedEffects options purchases' := by
  obtain ⟨u, hu, hmem⟩ := List.mem_flatMap.mp heffect
  have hpos : purchases u ≠ 0 := mem_purchasedUpgrades.mp hu
  have hpos' : purchases' u ≠ 0 := by
    have hle : purchases u ≤ purchases' u := h u
    omega
  exact List.mem_flatMap.mpr ⟨u, mem_purchasedUpgrades.mpr hpos', hmem⟩

/-! ### Taking an update apart -/

variable (options)

/-- What makes changes only. -/
abbrev Alters {α : Type} (granted : Coordinator sh → Fin sh.generators → Prop)
    (m : ProgressionM sh α) : Prop := Performs (Change options granted) m

theorem alters_rest {f : Coordinator sh → Coordinator sh} (h : ∀ c, SameDerived c (f c)) :
    Alters options granted (modify f : ProgressionM sh PUnit) :=
  .modify fun c => .single (.rest (h c))

theorem sameDerived_setGenerator (c : Coordinator sh) (i : Fin sh.generators)
    {state : GeneratorState sh} (h : state.isUnlocked = (c.generators i).isUnlocked) :
    SameDerived c (c.setGenerator i state) := by
  refine ⟨rfl, rfl, rfl, fun j => ?_, rfl, rfl, rfl, rfl⟩
  by_cases hj : j = i
  · subst hj
    simpa [setGenerator] using h
  · simp [setGenerator, hj]

theorem sameDerived_setUpgrade (c : Coordinator sh) (i : Fin sh.upgrades) {state : UpgradeState}
    (h : state.purchases = (c.upgrades i).purchases) : SameDerived c (c.setUpgrade i state) := by
  refine ⟨rfl, rfl, rfl, fun _ => rfl, funext fun j => ?_, rfl, rfl, rfl⟩
  by_cases hj : j = i
  · subst hj
    simpa [setUpgrade, inputs] using h
  · simp [setUpgrade, inputs, hj]

/-! ### Achievements -/

theorem SameDerived.trans {c₁ c₂ c₃ : Coordinator sh} (h₁ : SameDerived c₁ c₂)
    (h₂ : SameDerived c₂ c₃) : SameDerived c₁ c₃ where
  resources := h₂.resources.trans h₁.resources
  capacityOverrideIds := h₂.capacityOverrideIds.trans h₁.capacityOverrideIds
  dirtyToleranceOverrideIds := h₂.dirtyToleranceOverrideIds.trans h₁.dirtyToleranceOverrideIds
  isUnlocked i := (h₂.isUnlocked i).trans (h₁.isUnlocked i)
  purchases := h₂.purchases.trans h₁.purchases
  upgradeEffectsCache := h₂.upgradeEffectsCache.trans h₁.upgradeEffectsCache
  flagState := h₂.flagState.trans h₁.flagState
  upgradeAutomationIds := h₂.upgradeAutomationIds.trans h₁.upgradeAutomationIds

theorem sameDerived_applyDerivedReward (c : Coordinator sh) (i : Fin sh.achievements) :
    SameDerived c (c.applyDerivedReward options i) := by
  rw [applyDerivedReward]
  split <;> exact ⟨rfl, rfl, rfl, fun _ => rfl, rfl, rfl, rfl, rfl⟩

theorem sameDerived_rebuildDerivedRewards (c : Coordinator sh) :
    SameDerived c (c.rebuildDerivedRewards options) := by
  have hfold : SameDerived c ((collectDerivedRewardEntries c.achievements).foldl
      (fun c i => c.applyDerivedReward options i)
      { c with
        achievementFlagState := fun _ => none, achievementAutomationIds := fun _ => false }) := by
    refine List.foldlRecOn (motive := SameDerived c) _ _ ?_ fun t ht i _ =>
      ht.trans (sameDerived_applyDerivedReward options t i)
    exact ⟨rfl, rfl, rfl, fun _ => rfl, rfl, rfl, rfl, rfl⟩
  exact hfold.trans ⟨rfl, rfl, rfl, fun _ => rfl, rfl, rfl, rfl, rfl⟩

theorem changes_applyAchievementReward (c : Coordinator sh) (a : Fin sh.achievements)
    (context : FormulaContext) :
    Changes options granted c
      (c.applyAchievementReward options (options.content.achievements a) context) := by
  rw [applyAchievementReward]
  split
  · next hreward => exact .single (.grant c a hreward _)
  · exact .single (.purchase c _)
  · exact .single (.rest ⟨rfl, rfl, rfl, fun _ => rfl, rfl, rfl, rfl, rfl⟩)
  · exact .single (.rest ⟨rfl, rfl, rfl, fun _ => rfl, rfl, rfl, rfl, rfl⟩)
  · exact .refl

theorem changes_stepAchievement (c : Coordinator sh) (step : ℕ) (i : Fin sh.achievements)
    {target : ℚ} (htarget : 0 ≤ target) (eligible : Bool) :
    Changes options granted c (c.stepAchievement options step i target eligible).2 := by
  have hset : ∀ state, Change options granted c (c.setAchievement i state) :=
    fun state => .rest ⟨rfl, rfl, rfl, fun _ => rfl, rfl, rfl, rfl, rfl⟩
  obtain ⟨state, -, h | ⟨context, h⟩⟩ := c.stepAchievement_cases options step i htarget eligible
  · rw [h]
    exact .single (hset state)
  · rw [h]
    exact .head (hset state) (changes_applyAchievementReward options _ i context)

theorem updateRules_change : UpdateRules options granted (Change options granted) where
  unlock c i _ hcondition hholds := .unlock c i hcondition hholds
  grantVisibility c i := .show c i
  unlockGenerator c i unlock hunlock := .unlockGenerator c i unlock hunlock
  settleGenerator c i _ _ _ := .rest (sameDerived_setGenerator c i rfl)
  setUpgrade c i _ h := .rest (sameDerived_setUpgrade c i h)
  setPrestigeLayer _ _ _ := .rest ⟨rfl, rfl, rfl, fun _ => rfl, rfl, rfl, rfl, rfl⟩
  setAchievement _ _ _ _ := .rest ⟨rfl, rfl, rfl, fun _ => rfl, rfl, rfl, rfl, rfl⟩
  stepAchievement c step i _ htarget eligible :=
    changes_stepAchievement options c step i htarget eligible

/-! ### The update -/

variable {options}

theorem Changes.justified {granted' : Coordinator sh → Fin sh.generators → Prop}
    (h : Changes options granted c c')
    (hgranted : ∀ t, Changes options granted c t → ∀ i, granted t i → granted' t i) :
    Changes options granted' c c' := by
  induction h with
  | refl => exact .refl
  | @tail t t' hsteps hstep ih =>
    refine .tail ih ?_
    cases hstep with
    | effects step => exact .effects t step
    | purchase i => exact .purchase t i
    | unlock i hcondition hholds => exact .unlock t i hcondition hholds
    | «show» i => exact .show t i
    | grant a hreward amount => exact .grant t a hreward amount
    | unlockGenerator i unlock hunlock =>
      exact .unlockGenerator t i unlock fun htrue => (hunlock htrue).imp_right (hgranted t hsteps i)
    | rest h => exact .rest h

variable (options)

/-- One pass, from the evaluated effects on. -/
theorem alters_afterEffects (step : ℕ) (effects : UpgradeEffects sh)
    (hgranted : ∀ c, ∀ i ∈ effects.unlockedGenerators, granted c i) :
    Alters options granted (do
      updateUnlockVisibility options
      updateGenerators options step effects
      (List.finRange sh.upgrades).forM (updateUpgrade options)
      (List.finRange sh.prestigeLayers).forM (updatePrestigeLayer options)
      updateAchievements options step) := by
  have hrules : UpdateRules options granted (Change options granted) := updateRules_change options
  have hrates : ∀ i, Alters options granted (updateGeneratorRates options step effects i) := by
    intro i
    refine .bind (reads_readState _).performs fun produces => ?_
    refine .bind (reads_readState _).performs fun consumes => ?_
    exact alters_rest options fun c => sameDerived_setGenerator c i rfl
  refine .bind hrules.updateUnlockVisibility fun _ => ?_
  refine .bind (.bind (.forM fun i _ =>
    hrules.updateGeneratorStatus step hgranted i) fun _ => .forM fun i _ => hrates i)
      fun _ => ?_
  refine .bind (.forM fun i _ => hrules.updateUpgrade i) fun _ => ?_
  refine .bind (.forM fun i _ => hrules.updatePrestigeLayer i) fun _ => ?_
  exact hrules.updateAchievements step

/-- **A pass makes justified changes only.** -/
theorem changes_updatePass (hc : Fresh options c) (step : ℕ) :
    Changes options (PurchasedGenerator options) c (final (updatePass options step c)) := by
  have hrebuilt : SameDerived c (c.rebuildDerivedRewards options) :=
    sameDerived_rebuildDerivedRewards options c
  have hfresh := hrebuilt.fresh hc
  refine Performs.bind_from (.single (.rest hrebuilt)) fun u t ht => ?_
  obtain rfl : c.rebuildDerivedRewards options = t := by injection ht
  generalize c.rebuildDerivedRewards options = c₁ at hfresh
  refine Performs.bind_from (.single (.effects c₁ step)) fun effects c₂ hrun => ?_
  obtain ⟨rfl, rfl⟩ : (c₁.getUpgradeEffects options step).1 = effects ∧
      (c₁.getUpgradeEffects options step).2 = c₂ := by
    injection hrun with he hs
    exact ⟨he, hs⟩
  -- the effects are those of the purchases, and purchases are never taken back
  obtain ⟨inputs, hpurchases, heffects⟩ := hfresh.effects step
  have hrest : Changes options
      (fun _ i => i ∈ (c₁.getUpgradeEffects options step).1.unlockedGenerators) _ _ :=
    alters_afterEffects options step _ (fun _ _ hi => hi) (c₁.getUpgradeEffects options step).2
  refine Changes.justified hrest fun t ht i hi => ?_
  have hpurchased : .unlockGenerator i ∈ purchasedEffects options c₁.inputs.purchases := by
    have hmem : i ∈ (c₁.cachedUpgradeEffects options step).unlockedGenerators := hi
    rw [heffects, mem_unlockedGenerators, hpurchases] at hmem
    exact hmem
  have heffect : Change options (PurchasedGenerator options) c₁
      (c₁.getUpgradeEffects options step).2 := .effects c₁ step
  have hkept : c₁.inputs.purchases ≤ t.inputs.purchases :=
    (heffect.purchases_le hfresh).trans (Changes.purchases_le ht (hfresh.getUpgradeEffects step))
  exact purchasedEffects_mono hkept hpurchased

theorem changes_updatePasses (hc : Fresh options c) (step passes : ℕ) :
    Changes options (PurchasedGenerator options) c
      (final (updatePasses options step passes c)) := by
  induction passes generalizing c with
  | zero => exact .refl
  | succ passes ih =>
    have hpass := changes_updatePass options hc step
    refine Performs.bind_from hpass fun achievementsUnlocked t ht => ?_
    have hfresh : Fresh options t := by
      rw [ht] at hpass
      exact Changes.fresh hpass hc
    cases achievementsUnlocked with
    | true => exact ih hfresh
    | false => exact .refl

/-- **An update makes justified changes only**, from any state whose cached effects are those of
its purchases. -/
theorem changes_updateForStep (hc : Fresh options c) (step : ℕ) :
    Changes options (PurchasedGenerator options) c (final (updateForStep options step c)) := by
  have hstep : SameDerived c { c with lastUpdatedStep := step } :=
    ⟨rfl, rfl, rfl, fun _ => rfl, rfl, rfl, rfl, rfl⟩
  exact .head (.rest hstep) (changes_updatePasses options (hstep.fresh hc) step _)

end IdleEngine
