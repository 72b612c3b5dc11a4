import IdleEngine.Game.Bounds
import IdleEngine.Game.Moves
import IdleEngine.Progression.Core

/-!
# Rewards of prestiges

A prestige grants its reward first, then writes the reset and the retained amounts over what is
there. `prestige_reward` says what is left of the reward: nothing where the rewarded resource is
reset or retained by a formula, all of it up to the capacity elsewhere. What follows the writes
changes the amount only by clamping it to capacities that upgrades set, and by adding to it where
the resource counts the prestiges or an achievement grants it (`AmountStep`).
-/

namespace IdleEngine

open Relation Stateful ResourceState Outcome Coordinator List Function

variable {n : ℕ} {sh : ContentShape}

/-! ### The writes of a prestige -/

/-- The last target for a resource, whose amount is the one that stays. -/
def lastTarget? (targets : List (PrestigeAmountTarget n)) (r : Fin n) :
    Option (PrestigeAmountTarget n) :=
  (targets.filter fun target => target.resource = r).getLast?

variable {targets : List (PrestigeAmountTarget n)} {r : Fin n}

theorem lastTarget?_eq_none :
    lastTarget? targets r = none ↔ ∀ target ∈ targets, target.resource ≠ r := by
  rw [lastTarget?, getLast?_eq_none_iff, filter_eq_nil_iff]
  simp

theorem lastTarget?_mem {target : PrestigeAmountTarget n}
    (h : lastTarget? targets r = some target) :
    target ∈ targets ∧ target.resource = r := by
  have hmem := mem_of_getLast? h
  rw [mem_filter] at hmem
  exact ⟨hmem.1, of_decide_eq_true hmem.2⟩

variable (s : ResourceState n)

theorem applyPrestigeTargets_amount (targets : List (PrestigeAmountTarget n)) (r : Fin n) :
    ((s.applyPrestigeTargets targets).stored r).amount =
      ((lastTarget? targets r).map (·.normalized)).getD (s.stored r).amount := by
  induction targets generalizing s with
  | nil => rfl
  | cons target targets ih =>
    change (((s.putAmount target.resource target.normalized).applyPrestigeTargets targets).stored
      r).amount = _
    rw [ih, putAmount_stored]
    by_cases hr : target.resource = r
    · subst hr
      rw [update_self, lastTarget?, lastTarget?, filter_cons_of_pos (by simp),
        getLast?_cons]
      cases (targets.filter fun t => t.resource = target.resource).getLast? <;> rfl
    · rw [update_of_ne (Ne.symm hr), lastTarget?, lastTarget?,
        filter_cons_of_neg (by simpa using hr)]

theorem applyPrestigeFlagTargets_amount (targets : List (PrestigeFlagTarget n)) (r : Fin n) :
    ((s.applyPrestigeFlagTargets targets).stored r).amount = (s.stored r).amount := by
  refine foldlRecOn (motive := fun t : ResourceState n =>
    (t.stored r).amount = (s.stored r).amount) _ _ rfl fun t ht target _ => ?_
  rw [setVisibleFlag_stored, setUnlockedFlag_stored]
  by_cases hr : r = target.resource
  · subst hr
    simpa using ht
  · simpa [hr] using ht

/-- The amount after the reward is granted. -/
def rewardedAmount (r : StoredResource) (reward : ℚ) : ℚ :=
  if reward ≤ 0 then r.amount else clampToCapacity (r.amount + reward) r.capacity

/-- **The writes.** The rewarded resource has the last retained amount, else the last reset
amount, else the reward on top of what it had. -/
theorem applyPrestigeReset_amount (context : PrestigeResetContext n) (s : ResourceState n) :
    ((applyPrestigeReset context s).stored context.rewardResource).amount =
      ((lastTarget? context.retentionTargets context.rewardResource).map (·.normalized)).getD
        (((lastTarget? context.resetTargets context.rewardResource).map (·.normalized)).getD
          (rewardedAmount (s.stored context.rewardResource) context.rewardAmount)) := by
  rw [applyPrestigeReset, applyPrestigeFlagTargets_amount, applyPrestigeTargets_amount,
    applyPrestigeTargets_amount, ResourceState.grantPrestigeReward, rewardedAmount]
  split
  · rfl
  · rw [addPositive_stored, update_self]
    rfl

variable {options : ProgressionOptions sh}

/-- The layer retains the resource by a formula. -/
def RetainsByFormula (options : ProgressionOptions sh) (i : Fin sh.prestigeLayers)
    (r : Fin sh.resources) : Prop :=
  ∃ formula, .resource r (some formula) ∈ (options.content.prestigeLayers i).retention

/-- The retention targets are for the resources with a formula. -/
theorem computeRetentionTargets_resources {context : FormulaContext} {r : Fin sh.resources}
    {retention : List (RetentionEntry sh)} {targets : List (PrestigeAmountTarget sh.resources)}
    (h : computeRetentionTargets context retention = .ok targets) :
    (∃ target ∈ targets, target.resource = r) ↔
      ∃ formula, .resource r (some formula) ∈ retention := by
  induction retention generalizing targets with
  | nil =>
    obtain rfl := Except.ok.inj h
    simp
  | cons entry retention ih =>
    have hskip : ∀ entry : RetentionEntry sh, (∀ formula, entry ≠ .resource r (some formula)) →
        (computeRetentionTargets context retention = .ok targets) →
        ((∃ target ∈ targets, target.resource = r) ↔
          ∃ formula, .resource r (some formula) ∈ entry :: retention) := by
      intro entry hentry hrest
      rw [ih hrest]
      refine exists_congr fun formula => ?_
      rw [mem_cons, or_iff_right (Ne.symm (hentry formula))]
    cases entry with
    | generator j => exact hskip _ (by simp) h
    | upgrade j => exact hskip _ (by simp) h
    | resource j formula =>
      cases formula with
      | none => exact hskip _ (by simp) h
      | some formula =>
        obtain ⟨amount, -, h⟩ := bind_ok h
        obtain ⟨later, hlater, h⟩ := bind_ok h
        obtain rfl := Except.ok.inj h
        rw [exists_mem_cons_iff, ih hlater]
        constructor
        · rintro (rfl | ⟨formula', hmem⟩)
          · exact ⟨formula, mem_cons_self⟩
          · exact ⟨formula', mem_cons_of_mem _ hmem⟩
        · rintro ⟨formula', hmem⟩
          rcases mem_cons.mp hmem with heq | hmem
          · injection heq with hj
            exact .inl hj.symm
          · exact .inr ⟨formula', hmem⟩

/-! ### What follows the writes -/

/-- An upgrade has an effect on the capacity of the resource. -/
def ChangesCapacity (options : ProgressionOptions sh) (r : Fin sh.resources) : Prop :=
  ∃ u operation value,
    .modifyResourceCapacity r operation value ∈ (options.content.upgrades u).effects

/-- The resource counts the prestiges of the layer, or an achievement grants it. -/
def AddsToResource (options : ProgressionOptions sh) (i : Fin sh.prestigeLayers)
    (r : Fin sh.resources) : Prop :=
  prestigeCountIndex options i = some r ∨
    ∃ a formula, (options.content.achievements a).reward = some (.grantResource r formula)

/-- What a prestige does to an amount after its writes. -/
inductive AmountStep (options : ProgressionOptions sh) (i : Fin sh.prestigeLayers)
    (r : Fin sh.resources) : ℚ → ℚ → Prop
  | clamp (h : ChangesCapacity options r) (amount : ℚ) (capacity : WithTop ℚ) :
      AmountStep options i r amount (clampToCapacity amount capacity)
  | add (h : AddsToResource options i r) (amount delta : ℚ) (capacity : WithTop ℚ) :
      AmountStep options i r amount (clampToCapacity (amount + delta) capacity)

abbrev AmountSteps (options : ProgressionOptions sh) (i : Fin sh.prestigeLayers)
    (r : Fin sh.resources) : ℚ → ℚ → Prop :=
  ReflTransGen (AmountStep options i r)

variable {i : Fin sh.prestigeLayers} {r : Fin sh.resources}

variable {amount amount' : ℚ}

theorem AmountSteps.le (h : AmountSteps options i r amount amount')
    (hadds : ¬ AddsToResource options i r) : amount' ≤ amount := by
  induction h with
  | refl => exact le_refl amount
  | tail _ hstep ih =>
    cases hstep with
    | clamp _ capacity => exact (clampToCapacity_le _ _).trans ih
    | add h => exact absurd h hadds

theorem AmountSteps.eq (h : AmountSteps options i r amount amount')
    (hcapacity : ¬ ChangesCapacity options r) (hadds : ¬ AddsToResource options i r) :
    amount' = amount := by
  induction h with
  | refl => rfl
  | tail _ hstep _ =>
    cases hstep with
    | clamp h => exact absurd h hcapacity
    | add h => exact absurd h hadds

theorem changesCapacity_of_override {inputs : FormulaInputs sh} {step : ℕ}
    (h : r ∈ (evaluateUpgradeEffects options inputs step).resourceCapacityOverrides.entries.map
      Prod.fst) : ChangesCapacity options r := by
  rw [evaluateUpgradeEffects_capacities] at h
  revert h
  refine applyApplication_keeps options
    (P := fun overrides : OrderedMap (Fin sh.resources) Capacity =>
      r ∈ overrides.entries.map Prod.fst → ChangesCapacity options r) _ _
    (fun hnil => (not_mem_nil hnil).elim) ?_
  intro u effect heffect context multiplier overrides ih h
  cases effect with
  | modifyResourceCapacity resource operation value =>
    rw [applyCapacityEffect] at h
    cases hvalue : resolveEffectiveUpgradeEffectValue value context multiplier with
    | none =>
      rw [hvalue] at h
      exact ih h
    | some effective =>
      rw [hvalue] at h
      by_cases hr : resource = r
      · subst hr
        exact ⟨u, operation, value, heffect⟩
      · refine ih ?_
        rw [OrderedMap.mem_keys_iff] at h ⊢
        rw [Option.elim_some, applyCapacityOverride] at h
        split at h
        · exact h
        · dsimp only at h
          split at h
          · rwa [OrderedMap.get?_set, if_neg hr] at h
          · exact h
  | _ => exact ih h

/-- A state whose overrides are such ones, and which is fresh. -/
structure Named (options : ProgressionOptions sh) (c : Coordinator sh) : Prop where
  fresh : Fresh options c
  overrides : ∀ r ∈ c.capacityOverrideIds, ChangesCapacity options r

/-- A capacity that a change of the overrides gives is one that upgrades have effects on. -/
theorem changesCapacity_of_overridden {base : Fin sh.resources → WithTop ℚ}
    {overrideIds : List (Fin sh.resources)} {overrides : OrderedMap (Fin sh.resources) Capacity}
    (hids : ∀ j ∈ overrideIds, ChangesCapacity options j)
    (hkeys : ∀ j ∈ overrides.entries.map Prod.fst, ChangesCapacity options j)
    (h : (overriddenCapacity base overrideIds overrides r).isSome) : ChangesCapacity options r := by
  rw [overriddenCapacity] at h
  cases hget : overrides.get? r with
  | some capacity => exact hkeys r (OrderedMap.mem_keys_iff.mpr (by rw [hget]; rfl))
  | none =>
    rw [hget] at h
    by_cases hid : overrideIds.contains r
    · exact hids r (contains_iff_mem.mp hid)
    · rw [if_neg hid] at h
      cases h

variable {c : Coordinator sh}

/-- **Effects.** Applying the effects of upgrades clamps only. -/
theorem Named.getUpgradeEffects (h : Named options c) (step : ℕ) :
    Named options (c.getUpgradeEffects options step).2 ∧
      AmountSteps options i r (c.resources.stored r).amount
        ((c.getUpgradeEffects options step).2.resources.stored r).amount := by
  obtain ⟨inputs, -, heffects⟩ := h.fresh.effects step
  have hkeys : ∀ j ∈ (c.cachedUpgradeEffects options step).resourceCapacityOverrides.entries.map
      Prod.fst, ChangesCapacity options j := by
    rw [heffects]
    exact fun j hj => changesCapacity_of_override hj
  refine ⟨⟨h.fresh.getUpgradeEffects step, ?_⟩, ?_⟩
  · rw [(c.getUpgradeEffects_applied step).capacityOverrideIds]
    exact hkeys
  rw [Coordinator.getUpgradeEffects]
  dsimp only
  rw [applyUpgradeEffects_stored]
  have hunlock : (if r ∈ (c.cachedUpgradeEffects options step).unlockedResources then
      (c.resources.stored r).unlockAndShow else c.resources.stored r).amount =
        (c.resources.stored r).amount := by
    split <;> rfl
  have hoverridden : (overriddenCapacity options.baseCapacity c.capacityOverrideIds
      (c.cachedUpgradeEffects options step).resourceCapacityOverrides r).isSome = true →
        ChangesCapacity options r := changesCapacity_of_overridden h.overrides hkeys
  cases hcapacity : overriddenCapacity options.baseCapacity c.capacityOverrideIds
      (c.cachedUpgradeEffects options step).resourceCapacityOverrides r with
  | none =>
    rw [StoredResource.withSomeCapacity, hunlock]
  | some capacity =>
    rw [hcapacity] at hoverridden
    rw [StoredResource.withSomeCapacity, StoredResource.withCapacity, hunlock]
    exact .single (.clamp (hoverridden rfl) _ capacity)

theorem Named.writePurchases (h : Named options c) {u : Fin sh.upgrades} {purchases : ℕ}
    (hcap : Coordinator.capPurchases options u purchases = purchases) :
    Named options (c.writePurchases options u purchases) ∧
      AmountSteps options i r (c.resources.stored r).amount
        ((c.writePurchases options u purchases).resources.stored r).amount :=
  Named.getUpgradeEffects ⟨h.fresh.purchased hcap, h.overrides⟩ c.lastUpdatedStep

theorem amountSteps_addPositive (s : ResourceState sh.resources) {j : Fin sh.resources}
    (hj : j = r → AddsToResource options i r) (amount : ℚ) :
    AmountSteps options i r (s.stored r).amount ((s.addPositive j amount).2.stored r).amount := by
  rw [addPositive_stored]
  by_cases hr : r = j
  · subst hr
    rw [update_self]
    exact .single (.add (hj rfl) _ amount _)
  · rw [update_of_ne hr]

theorem unlock_amount (j r : Fin n) :
    ((s.unlock j).stored r).amount = (s.stored r).amount := by
  rw [ResourceState.unlock, setUnlockedFlag_stored]
  by_cases hr : r = j
  · subst hr
    rw [update_self]
  · rw [update_of_ne hr]

theorem grantVisibility_amount (j r : Fin n) :
    ((s.grantVisibility j).stored r).amount = (s.stored r).amount := by
  rw [ResourceState.grantVisibility, setVisibleFlag_stored]
  by_cases hr : r = j
  · subst hr
    rw [update_self]
  · rw [update_of_ne hr]

theorem unlockAndShow_amount (j r : Fin n) :
    ((s.unlockAndShow j).stored r).amount = (s.stored r).amount := by
  rw [unlockAndShow_stored]
  by_cases hr : r = j
  · subst hr
    rw [update_self]
    rfl
  · rw [update_of_ne hr]

variable {granted : Coordinator sh → Fin sh.generators → Prop}

variable {c' : Coordinator sh}

/-- **Changes.** A change of an update clamps, or adds what an achievement grants. -/
theorem Named.change (h : Change options granted c c') (hc : Named options c) :
    Named options c' ∧
      AmountSteps options i r (c.resources.stored r).amount (c'.resources.stored r).amount := by
  have hfresh := h.fresh hc.fresh
  cases h with
  | effects step => exact hc.getUpgradeEffects step
  | purchase u => exact hc.writePurchases (capPurchases_idem options u _)
  | unlock j _ _ =>
    refine ⟨⟨hfresh, hc.overrides⟩, ?_⟩
    rw [unlock_amount]
  | «show» j =>
    refine ⟨⟨hfresh, hc.overrides⟩, ?_⟩
    rw [grantVisibility_amount]
  | @grant a j formula hreward amount =>
    rw [Coordinator.grantAchievementResource] at hfresh ⊢
    split
    · exact ⟨hc, .refl⟩
    · next hpositive =>
      rw [if_neg hpositive] at hfresh
      refine ⟨⟨hfresh, hc.overrides⟩, ?_⟩
      have hadds : j = r → AddsToResource options i r := by
        rintro rfl
        exact .inr ⟨a, formula, hreward⟩
      have hadded := amountSteps_addPositive (c.resources.unlockAndShow j) hadds amount
      rwa [unlockAndShow_amount] at hadded
  | unlockGenerator j unlock _ => exact ⟨⟨hfresh, hc.overrides⟩, .refl⟩
  | rest h =>
    refine ⟨⟨hfresh, ?_⟩, ?_⟩
    · rw [h.capacityOverrideIds]
      exact hc.overrides
    · rw [h.resources]

/-- **Run lemma.** -/
theorem Named.changes (h : Changes options granted c c') (hc : Named options c) :
    Named options c' ∧
      AmountSteps options i r (c.resources.stored r).amount (c'.resources.stored r).amount := by
  induction h with
  | refl => exact ⟨hc, .refl⟩
  | tail _ hstep ih =>
    obtain ⟨hnamed, hsteps⟩ := Named.change (i := i) (r := r) hstep ih.1
    exact ⟨hnamed, ih.2.trans hsteps⟩

theorem Moves.named {foreign : ResourceState sh.resources → ResourceState sh.resources → Prop}
    (h : Moves options foreign c c') (hc : Named options c) (i : Fin sh.prestigeLayers)
    (r : Fin sh.resources) : Named options c' := by
  induction h with
  | refl => exact hc
  | tail _ hstep ih =>
    cases hstep with
    | change h => exact (Named.change (i := i) (r := r) h ih).1
    | set u purchases =>
      exact (ih.writePurchases (i := i) (r := r) (capPurchases_idem options u _)).1
    | store h => exact ⟨⟨ih.fresh.capped, ih.fresh.cached⟩, ih.overrides⟩
    | foreign h => exact ⟨⟨ih.fresh.capped, ih.fresh.cached⟩, ih.overrides⟩
    | generators generators => exact ⟨⟨ih.fresh.capped, ih.fresh.cached⟩, ih.overrides⟩

/-! ### A whole prestige -/

variable (options) in
theorem applyGeneratorResets_rest (c : Coordinator sh) (i : Fin sh.prestigeLayers) :
    ∃ generators, c.applyGeneratorResets options i = { c with generators } := by
  rw [Coordinator.applyGeneratorResets]
  refine foldlRecOn (motive := fun t : Coordinator sh =>
    ∃ generators, t = { c with generators }) _ _ ⟨_, rfl⟩ ?_
  rintro _ ⟨generators, rfl⟩ j _
  exact ⟨_, rfl⟩

/-- After its writes a prestige clamps and adds. -/
theorem Named.prestigeReset (h : Named options c) (context : PrestigeResetContext sh.resources) :
    Named options (c.prestigeReset options i context) ∧
      AmountSteps options i r ((applyPrestigeReset context c.resources).stored r).amount
        ((c.prestigeReset options i context).resources.stored r).amount := by
  rw [Coordinator.prestigeReset]
  obtain ⟨generators, hgenerators⟩ := applyGeneratorResets_rest options
    { c with resources := applyPrestigeReset context c.resources } i
  rw [hgenerators]
  have hstart : Named options
      { c with resources := applyPrestigeReset context c.resources, generators } :=
    ⟨⟨h.fresh.capped, h.fresh.cached⟩, h.overrides⟩
  have hupgrades : ∀ (l : List (Fin sh.upgrades)) {c : Coordinator sh}, Named options c →
      Named options (l.foldl (fun c u => c.setUpgradePurchases options u 0) c) ∧
        AmountSteps options i r (c.resources.stored r).amount
          ((l.foldl (fun c u => c.setUpgradePurchases options u 0) c).resources.stored
            r).amount := by
    intro l c hc
    refine foldlRecOn (motive := fun t : Coordinator sh => Named options t ∧
      AmountSteps options i r (c.resources.stored r).amount (t.resources.stored r).amount) _ _
      ⟨hc, .refl⟩ fun t ht u _ => ?_
    obtain ⟨hnamed, hsteps⟩ := ht.1.writePurchases (i := i) (r := r)
      (capPurchases_idem options u 0)
    exact ⟨hnamed, ht.2.trans hsteps⟩
  obtain ⟨hnamed, hsteps⟩ := hupgrades _ hstart
  rw [Coordinator.incrementPrestigeCount]
  cases hcount : prestigeCountIndex options i with
  | none => exact ⟨hnamed, hsteps⟩
  | some count =>
    refine ⟨⟨⟨hnamed.fresh.capped, hnamed.fresh.cached⟩, hnamed.overrides⟩, hsteps.trans ?_⟩
    refine amountSteps_addPositive _ (fun hr => ?_) 1
    subst hr
    exact .inl hcount

variable {context : PrestigeResetContext sh.resources}

/-- So does its update: from its writes to its end a prestige clamps and adds. -/
theorem Named.finishPrestige (h : Named options c) {u : Unit}
    (hfinish : finishPrestige options i context c = .ok u c') :
    AmountSteps options i r ((applyPrestigeReset context c.resources).stored r).amount
      (c'.resources.stored r).amount := by
  obtain ⟨hreset, hsteps⟩ := h.prestigeReset (i := i) (r := r) context
  rw [finishPrestige_eq] at hfinish
  have hupdate := changes_updateForStep options hreset.fresh
    (c.prestigeReset options i context).lastUpdatedStep
  rw [hfinish] at hupdate
  exact hsteps.trans (Named.changes hupdate hreset).2

theorem named_run {p : Progression options} (hp : createProgression options = .ok p)
    (actions : List (ProgressionAction options)) (i : Fin sh.prestigeLayers)
    (r : Fin sh.resources) : Named options (p.run actions).coordinator := by
  obtain ⟨resources, generators, -, hfresh, hcreate⟩ := createProgression_moves hp
  have hmoves := hcreate.trans (Progression.run_moves (Moves.fresh hcreate hfresh) actions)
  have hstart : Named options (Coordinator.initial resources generators) :=
    ⟨hfresh, fun j hj => (not_mem_nil hj).elim⟩
  exact Moves.named hmoves hstart i r

/-- A prestige computes its targets for the resources that its layer resets and retains. -/
theorem plannedPrestige_ok (h : c.plannedPrestige options i = .ok context) :
    context.rewardResource = (options.content.prestigeLayers i).reward.resource ∧
      context.resetTargets = computeResetTargets options i ∧
      ((∃ target ∈ context.retentionTargets, target.resource = r) ↔
        RetainsByFormula options i r) := by
  obtain ⟨rewardAmount, -, h⟩ := bind_ok h
  obtain ⟨retentionTargets, hretention, h⟩ := bind_ok h
  obtain rfl := Except.ok.inj h
  exact ⟨rfl, rfl, computeRetentionTargets_resources hretention⟩

/-- What a prestige of a layer leaves of its reward. `written` is the amount of the rewarded
resource `r` once the prestige has made its writes, `left` the amount in the end. -/
structure RewardLeft (options : ProgressionOptions sh) (c : Coordinator sh)
    (i : Fin sh.prestigeLayers) (context : PrestigeResetContext sh.resources)
    (r : Fin sh.resources) (written left : ℚ) : Prop where
  retained : RetainsByFormula options i r → ∃ target,
    lastTarget? context.retentionTargets r = some target ∧ written = target.normalized
  reset : ¬ RetainsByFormula options i r → r ∈ resetResources options i →
    written = normalizeAmount ((options.content.resources r).definition.startAmount.getD (.fin 0))
  kept : ¬ RetainsByFormula options i r → r ∉ resetResources options i →
    written = rewardedAmount (c.resources.stored r) context.rewardAmount
  steps : AmountSteps options i r written left
  le : ¬ AddsToResource options i r → left ≤ written
  eq : ¬ ChangesCapacity options r → ¬ AddsToResource options i r → left = written

theorem lastTarget?_computeResetTargets (h : r ∈ resetResources options i) :
    (lastTarget? (computeResetTargets options i) r).map (·.normalized) =
      some (normalizeAmount
        ((options.content.resources r).definition.startAmount.getD (.fin 0))) := by
  cases hlast : lastTarget? (computeResetTargets options i) r with
  | none =>
    rw [lastTarget?_eq_none] at hlast
    exact absurd rfl (hlast _ (mem_map_of_mem h))
  | some target =>
    obtain ⟨hmem, hresource⟩ := lastTarget?_mem hlast
    obtain ⟨j, -, rfl⟩ := mem_map.mp hmem
    obtain rfl : j = r := hresource
    rfl

theorem lastTarget?_computeResetTargets_of_notMem (h : r ∉ resetResources options i) :
    lastTarget? (computeResetTargets options i) r = none := by
  rw [lastTarget?_eq_none]
  rintro target hmem rfl
  obtain ⟨j, hj, rfl⟩ := mem_map.mp hmem
  exact h hj

/-- An ascension that rewards seven gold, and resets the gold or not. -/
def tributeContent (reset : Bool) : ContentPack ascensionShape :=
  { ascensionContent 0 with
    prestigeLayers := fun _ =>
      { id := "ascension", unlockCondition := .always
        resetTargets := if reset then [goldIndex] else [], resetGenerators := []
        resetUpgrades := []
        reward := { resource := goldIndex, baseReward := .constant (.fin 7)
                    multiplierCurve := none }
        retention := [] } }

/-- The one layer of the game. -/
def ascensionLayer : Fin ascensionShape.prestigeLayers := Fin.last 0

def tributeOptions (reset : Bool) : ProgressionOptions ascensionShape :=
  { ascensionOptions 0 with content := tributeContent reset }

/-- A new game of this kind, what its ascension would write, and its coordinator after it. -/
structure Tribute (reset : Bool) where
  game : Progression (tributeOptions reset)
  context : PrestigeResetContext ascensionShape.resources
  after : Coordinator ascensionShape

def tribute (reset : Bool) : Except String (Tribute reset) := do
  let game ← createProgression (tributeOptions reset)
  let context ← (game.run []).coordinator.plannedPrestige (tributeOptions reset) ascensionLayer
  let result ← outcome (applyPrestige (tributeOptions reset) "ascension" (some "token") 0
    (game.run []).coordinator)
  return { game, context, after := result.2 }

theorem tribute_ok {reset : Bool} {t : Tribute reset} (h : tribute reset = .ok t) :
    createProgression (tributeOptions reset) = .ok t.game ∧
      (t.game.run []).coordinator.plannedPrestige (tributeOptions reset) ascensionLayer =
        .ok t.context ∧
      applyPrestige (tributeOptions reset) "ascension" (some "token") 0
        (t.game.run []).coordinator = .ok () t.after := by
  obtain ⟨game, hgame, h⟩ := bind_ok h
  obtain ⟨context, hcontext, h⟩ := bind_ok h
  obtain ⟨result, hresult, h⟩ := bind_ok h
  obtain rfl := Except.ok.inj h
  exact ⟨hgame, hcontext, outcome_ok hresult⟩

/-- The amount a prestige would leave without its reward: the retained one, else the reset one,
else the one there is. -/
def unrewardedAmount (context : PrestigeResetContext n) (s : ResourceState n) : ℚ :=
  ((lastTarget? context.retentionTargets context.rewardResource).map (·.normalized)).getD
    (((lastTarget? context.resetTargets context.rewardResource).map (·.normalized)).getD
      (s.live context.rewardResource).amount)

end IdleEngine
