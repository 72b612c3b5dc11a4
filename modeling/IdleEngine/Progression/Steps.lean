import IdleEngine.Progression.Prestige
import IdleEngine.Resource.Stored

/-!
# What the coordinator can do to the store

Whatever the coordinator does is a sequence of three kinds of steps: a change of the store that
keeps its capacities and its bounds, the application of capacity overrides, and a change that
leaves store and overrides alone. `CoordinatorStep` lists them, and every operation is shown once
to be made of them; the invariants below then need one case per kind.

Prestige resets are the exception: they write amounts that nothing bounds.
-/

namespace IdleEngine

open Relation Stateful

variable {n : ℕ} {sh : ContentShape}

/-! ### Steps of the store -/

/-- A change of the store that keeps ids, capacities and bounds. -/
structure RecordStep (s s' : ResourceState n) : Prop where
  ids : s'.ids = s.ids
  capacity : ∀ i, (s'.stored i).capacity = (s.stored i).capacity
  bounded : Bounded s.stored → Bounded s'.stored

theorem RecordStep.refl (s : ResourceState n) : RecordStep s s := ⟨rfl, fun _ => rfl, id⟩

theorem RecordStep.trans {s₁ s₂ s₃ : ResourceState n} (h₁ : RecordStep s₁ s₂)
    (h₂ : RecordStep s₂ s₃) : RecordStep s₁ s₃ :=
  ⟨h₂.ids.trans h₁.ids, fun i => (h₂.capacity i).trans (h₁.capacity i), h₂.bounded ∘ h₁.bounded⟩

theorem RecordStep.foldl {α : Type} {f : ResourceState n → α → ResourceState n}
    (h : ∀ s a, RecordStep s (f s a)) (l : List α) (s : ResourceState n) :
    RecordStep s (l.foldl f s) :=
  List.foldlRecOn (motive := RecordStep s) l f (RecordStep.refl s) fun t ht a _ => ht.trans (h t a)

theorem RecordStep.of_update {s s' : ResourceState n} {i : Fin n} {r : StoredResource}
    (hids : s'.ids = s.ids) (hstored : s'.stored = Function.update s.stored i r)
    (hcapacity : r.capacity = (s.stored i).capacity)
    (hbounded : (s.stored i).Bounded → r.Bounded) : RecordStep s s' where
  ids := hids
  capacity := by
    intro j
    rw [hstored]
    by_cases hj : j = i
    · subst hj
      rw [Function.update_self, hcapacity]
    · rw [Function.update_of_ne hj]
  bounded := by
    intro h
    rw [hstored]
    exact h.update (hbounded (h i))

namespace ResourceState

variable (s : ResourceState n)

theorem setUnlockedFlag_step (i : Fin n) (unlocked : Bool) :
    RecordStep s (s.setUnlockedFlag i unlocked) :=
  .of_update (s.writeField_ids _ i _) (s.setUnlockedFlag_stored i unlocked) rfl
    fun h => ⟨h.nonneg, h.le_capacity⟩

theorem setVisibleFlag_step (i : Fin n) (visible : Bool) :
    RecordStep s (s.setVisibleFlag i visible) :=
  .of_update (s.writeField_ids _ i _) (s.setVisibleFlag_stored i visible) rfl
    fun h => ⟨h.nonneg, h.le_capacity⟩

theorem unlockIfLocked_step (i : Fin n) :
    RecordStep s (s.unlockIfLocked i) := by
  rw [unlockIfLocked]
  split
  · exact RecordStep.refl s
  · exact s.setUnlockedFlag_step i true

theorem showIfHidden_step (i : Fin n) : RecordStep s (s.showIfHidden i) := by
  rw [showIfHidden]
  split
  · exact RecordStep.refl s
  · exact s.setVisibleFlag_step i true

theorem unlockAndShow_step (i : Fin n) :
    RecordStep s (s.unlockAndShow i) :=
  (s.unlockIfLocked_step i).trans (showIfHidden_step _ i)

theorem addPositive_step (i : Fin n) {amount : ℚ} (h : 0 ≤ amount) :
    RecordStep s (s.addPositive i amount).2 :=
  .of_update (s.addPositive_writes (A := fun _ _ _ => True) i amount).ids
    (s.addPositive_stored i amount) rfl fun hb => hb.add h

theorem setDirtyTolerance_step (i : Fin n) (dirtyTolerance : JsNumber) :
    RecordStep s (s.setDirtyTolerance i dirtyTolerance).2 :=
  ⟨(s.setDirtyTolerance_writes (A := fun _ _ _ => True) i dirtyTolerance).ids,
    fun j => by rw [setDirtyTolerance_stored], by rw [setDirtyTolerance_stored]; exact id⟩

theorem createPublishSnapshot_step :
    RecordStep s s.createPublishSnapshot :=
  ⟨rfl, fun j => by rw [createPublishSnapshot_stored],
    by rw [createPublishSnapshot_stored]; exact id⟩

theorem applyDirtyToleranceOverrides_step (base : Fin n → ℚ) (overrideIds : List (Fin n))
    (overrides : OrderedMap (Fin n) ℚ) :
    RecordStep s (s.applyDirtyToleranceOverrides base overrideIds overrides) :=
  (RecordStep.foldl (fun s _ => s.setDirtyTolerance_step _ _) overrideIds s).trans
    (RecordStep.foldl (fun s _ => s.setDirtyTolerance_step _ _) overrides.entries _)

end ResourceState

/-! ### Steps of the coordinator -/

/-- No upgrade is purchased more often than it can be, no achievement has negative progress, and
what the cache holds are effects of that step. -/
def Consistent (options : ProgressionOptions sh) (c : Coordinator sh) : Prop :=
  (∀ i, Coordinator.capPurchases options i (c.upgrades i).purchases = (c.upgrades i).purchases) ∧
    (∀ i, 0 ≤ (c.achievements i).progress) ∧
    ∀ step effects, c.upgradeEffectsCache = some (step, effects) →
      ∃ inputs, effects = evaluateUpgradeEffects options inputs step

inductive CoordinatorStep (options : ProgressionOptions sh) :
    Coordinator sh → Coordinator sh → Prop
  | resources (c : Coordinator sh) {s : ResourceState sh.resources}
      (h : RecordStep c.resources s) : CoordinatorStep options c { c with resources := s }
  | overrides (c : Coordinator sh) (overrides : OrderedMap (Fin sh.resources) Capacity) :
      CoordinatorStep options c (c.applyCapacityOverrides options overrides)
  | rest {c c' : Coordinator sh} (hresources : c'.resources = c.resources)
      (hids : c'.capacityOverrideIds = c.capacityOverrideIds)
      (hconsistent : Consistent options c → Consistent options c') :
      CoordinatorStep options c c'

/-- A sequence of steps. -/
abbrev CoordinatorSteps (options : ProgressionOptions sh) :
    Coordinator sh → Coordinator sh → Prop :=
  ReflTransGen (CoordinatorStep options)

variable (options : ProgressionOptions sh)

theorem CoordinatorSteps.foldl {α : Type} {f : Coordinator sh → α → Coordinator sh}
    (h : ∀ c a, CoordinatorSteps options c (f c a)) (l : List α) (c : Coordinator sh) :
    CoordinatorSteps options c (l.foldl f c) :=
  List.foldlRecOn (motive := CoordinatorSteps options c) l f .refl
    fun t ht a _ => ht.trans (h t a)

namespace Coordinator

variable (c : Coordinator sh)

theorem applyUnlockedResources_steps (resources : List (Fin sh.resources)) :
    CoordinatorSteps options c (c.applyUnlockedResources resources) :=
  .single (.resources c (RecordStep.foldl ResourceState.unlockAndShow_step resources _))

theorem applyUnlockedGenerators_steps (generators : List (Fin sh.generators)) (step : ℕ) :
    CoordinatorSteps options c (c.applyUnlockedGenerators generators step) := by
  have hone : ∀ (c : Coordinator sh) i,
      CoordinatorSteps options c (applyUnlockedGenerator step c i) :=
    fun _ _ => .single (.rest rfl rfl id)
  exact .foldl options hone generators c

theorem applyDirtyToleranceOverrides_steps (overrides : OrderedMap (Fin sh.resources) ℚ) :
    CoordinatorSteps options c (c.applyDirtyToleranceOverrides options overrides) := by
  refine .head (.resources c (c.resources.applyDirtyToleranceOverrides_step
    options.baseDirtyTolerance c.dirtyToleranceOverrideIds overrides)) (.single ?_)
  exact .rest rfl rfl id

theorem applyUpgradeEffects_steps (step : ℕ) {effects : UpgradeEffects sh}
    (heffects : Consistent options c → ∃ inputs,
      effects = evaluateUpgradeEffects options inputs step) :
    CoordinatorSteps options c (c.applyUpgradeEffects options step effects) := by
  have hderived : CoordinatorSteps options c
      (({ c with upgradeEffectsCache := some (step, effects) }).applyDerivedStateFromEffects
        effects).rebuildCombinedAutomationIds := by
    refine .single (.rest rfl rfl fun hc => ⟨hc.1, hc.2.1, fun step' effects' hcache => ?_⟩)
    obtain ⟨rfl, rfl⟩ := Prod.mk.inj (Option.some.inj hcache)
    exact heffects hc
  have hresources := hderived.trans
    (applyUnlockedResources_steps options _ effects.unlockedResources)
  have hgenerators := hresources.trans
    (applyUnlockedGenerators_steps options _ effects.unlockedGenerators step)
  have hcapacities := hgenerators.tail (.overrides _ effects.resourceCapacityOverrides)
  exact hcapacities.trans
    (applyDirtyToleranceOverrides_steps options _ effects.dirtyToleranceOverrides)

theorem cachedUpgradeEffects_eq {options : ProgressionOptions sh} {c : Coordinator sh}
    (h : Consistent options c) (step : ℕ) :
    ∃ inputs, c.cachedUpgradeEffects options step =
      evaluateUpgradeEffects options inputs step := by
  rw [cachedUpgradeEffects]
  split
  · next cachedStep effects hcache =>
    split
    · next hstep =>
      obtain ⟨inputs, heffects⟩ := h.2.2 cachedStep effects hcache
      exact ⟨inputs, hstep ▸ heffects⟩
    · exact ⟨c.inputs, rfl⟩
  · exact ⟨c.inputs, rfl⟩

theorem getUpgradeEffects_steps (step : ℕ) :
    CoordinatorSteps options c (c.getUpgradeEffects options step).2 :=
  c.applyUpgradeEffects_steps options step fun hc => cachedUpgradeEffects_eq hc step

theorem capPurchases_idem (i : Fin sh.upgrades) (purchases : ℕ) :
    capPurchases options i (capPurchases options i purchases) =
      capPurchases options i purchases := by
  unfold capPurchases
  split
  · exact min_eq_left (min_le_right _ _)
  · rfl

theorem writePurchases_steps (i : Fin sh.upgrades) {purchases : ℕ}
    (h : capPurchases options i purchases = purchases) :
    CoordinatorSteps options c (c.writePurchases options i purchases) := by
  have hwrite : CoordinatorStep options c
      { c.setUpgrade i { c.upgrades i with purchases } with upgradeEffectsCache := none } := by
    refine .rest rfl rfl fun hc => ⟨fun j => ?_, hc.2.1, fun _ _ hcache => by cases hcache⟩
    by_cases hj : j = i
    · subst hj
      simpa [setUpgrade] using h
    · simpa [setUpgrade, hj] using hc.1 j
  exact .head hwrite (getUpgradeEffects_steps options _ _)

theorem setUpgradePurchases_steps (i : Fin sh.upgrades) (purchases : ℕ) :
    CoordinatorSteps options c (c.setUpgradePurchases options i purchases) :=
  c.writePurchases_steps options i (capPurchases_idem options i purchases)

theorem incrementUpgradePurchases_steps (i : Fin sh.upgrades) :
    CoordinatorSteps options c (c.incrementUpgradePurchases options i) :=
  c.writePurchases_steps options i (capPurchases_idem options i _)

theorem grantAchievementResource_steps (i : Fin sh.resources) (amount : ℚ) :
    CoordinatorSteps options c (c.grantAchievementResource i amount) := by
  rw [grantAchievementResource]
  split
  · exact .refl
  · next hpos =>
    exact .single (.resources c ((c.resources.unlockAndShow_step i).trans
      (ResourceState.addPositive_step _ i (not_le.mp hpos).le)))

theorem applyDerivedReward_step (i : Fin sh.achievements) :
    CoordinatorSteps options c (c.applyDerivedReward options i) := by
  rw [applyDerivedReward]
  split
  · exact .single (.rest rfl rfl id)
  · exact .single (.rest rfl rfl id)
  · exact .refl

theorem rebuildDerivedRewards_steps :
    CoordinatorSteps options c (c.rebuildDerivedRewards options) := by
  have hcleared : CoordinatorStep options c
      { c with achievementFlagState := fun _ => none, achievementAutomationIds := fun _ => false } :=
    .rest rfl rfl id
  have hrewards := CoordinatorSteps.foldl options (applyDerivedReward_step options)
    (collectDerivedRewardEntries c.achievements)
    { c with achievementFlagState := fun _ => none, achievementAutomationIds := fun _ => false }
  exact (ReflTransGen.head hcleared hrewards).tail (.rest rfl rfl id)

theorem applyAchievementReward_steps (achievement : AchievementContent sh)
    (context : FormulaContext) :
    CoordinatorSteps options c (c.applyAchievementReward options achievement context) := by
  rw [applyAchievementReward]
  split
  · exact c.grantAchievementResource_steps options _ _
  · exact c.incrementUpgradePurchases_steps options _
  · exact .single (.rest rfl rfl id)
  · exact .single (.rest rfl rfl id)
  · exact .refl

theorem setAchievement_step (i : Fin sh.achievements) {state : AchievementState}
    (h : 0 ≤ (c.achievements i).progress → 0 ≤ state.progress) :
    CoordinatorStep options c (c.setAchievement i state) := by
  refine .rest rfl rfl fun hc => ⟨hc.1, fun j => ?_, hc.2.2⟩
  by_cases hj : j = i
  · subst hj
    simpa [setAchievement] using h (hc.2.1 j)
  · simpa [setAchievement, hj] using hc.2.1 j

theorem normalizeNonNegative_nonneg (value : ℚ) : 0 ≤ normalizeNonNegative value := by
  rw [normalizeNonNegative]
  split
  · exact le_refl 0
  · next h => exact not_lt.mp h

theorem achievementTarget_pos (step : ℕ) (i : Fin sh.achievements) :
    0 < c.achievementTarget options step i := by
  rw [achievementTarget, computeAchievementTarget]
  split
  · assumption
  · exact one_pos

/-- What an update of an achievement can do: rewrite its state, or complete it and apply its
reward. The progress is never negative. -/
theorem stepAchievement_cases (step : ℕ) (i : Fin sh.achievements) {target : ℚ}
    (htarget : 0 ≤ target) (eligible : Bool) :
    ∃ state : AchievementState, 0 ≤ state.progress ∧
      (c.stepAchievement options step i target eligible = (false, c.setAchievement i state) ∨
        ∃ context, c.stepAchievement options step i target eligible =
          (true, (c.setAchievement i state).applyAchievementReward options
            (options.content.achievements i) context)) := by
  have hmax : ∀ value, 0 ≤ max (normalizeNonNegative value) target :=
    fun value => le_max_of_le_right htarget
  rw [stepAchievement]
  split
  · rw [updateRepeatableAchievement]
    split
    · refine ⟨_, ?_, .inl rfl⟩
      exact hmax _
    · split
      · refine ⟨_, ?_, .inl rfl⟩
        exact hmax _
      · dsimp only
        split
        · refine ⟨_, ?_, .inr ⟨_, rfl⟩⟩
          exact htarget
        · refine ⟨_, ?_, .inl rfl⟩
          exact normalizeNonNegative_nonneg _
  all_goals
    rw [updateSingleAchievement]
    split
    · refine ⟨_, ?_, .inl rfl⟩
      exact hmax _
    · split
      · refine ⟨_, ?_, .inl rfl⟩
        exact le_refl 0
      · dsimp only
        split
        · refine ⟨_, ?_, .inr ⟨_, rfl⟩⟩
          exact htarget
        · refine ⟨_, ?_, .inl rfl⟩
          exact le_max_of_le_left (normalizeNonNegative_nonneg _)

theorem stepAchievement_steps (step : ℕ) (i : Fin sh.achievements) {target : ℚ}
    (htarget : 0 ≤ target) (eligible : Bool) :
    CoordinatorSteps options c (c.stepAchievement options step i target eligible).2 := by
  obtain ⟨state, hprogress, h | ⟨context, h⟩⟩ :=
    c.stepAchievement_cases options step i htarget eligible
  · rw [h]
    exact .single (c.setAchievement_step options i fun _ => hprogress)
  · rw [h]
    exact .head (c.setAchievement_step options i fun _ => hprogress)
      (applyAchievementReward_steps options _ _ context)

end Coordinator

/-! ### Reading -/

/-- What changes nothing. -/
abbrev Reads {α : Type} (m : ProgressionM sh α) : Prop :=
  Performs (fun _ _ : Coordinator sh => False) m

theorem Reads.performs {α : Type} {m : ProgressionM sh α} (h : Reads m)
    {step : Coordinator sh → Coordinator sh → Prop} : Performs step m :=
  h.mono fun _ _ => False.elim

/-- What only reads ends in the state where it starts. -/
theorem reads_cases {α : Type} {m : ProgressionM sh α} (h : Reads m) (c : Coordinator sh) :
    (∃ message, m c = .error message c) ∨ ∃ a, m c = .ok a c := by
  have hfinal : final (m c) = c :=
    h.keeps (P := fun t => t = c) (fun _ _ _ hstep => hstep.elim) rfl
  generalize m c = r at hfinal
  cases r with
  | ok a t => exact .inr ⟨a, congrArg _ hfinal⟩
  | error message t => exact .inl ⟨message, congrArg _ hfinal⟩

theorem reads_readState {α : Type} (evaluate : Coordinator sh → Except String α) :
    Reads (readState evaluate) := by
  intro c
  rw [readState]
  split <;> exact .refl

theorem readState_ok {α : Type} {evaluate : Coordinator sh → Except String α}
    {c t : Coordinator sh} {a : α} (h : readState evaluate c = .ok a t) :
    t = c ∧ evaluate c = .ok a := by
  rw [readState] at h
  cases hrun : evaluate c with
  | ok b =>
    rw [hrun] at h
    injection h with hb ht
    exact ⟨ht.symm, congrArg Except.ok hb⟩
  | error message =>
    rw [hrun] at h
    cases h

theorem reads_conditionHolds (condition : Condition) : Reads (conditionHolds options condition) :=
  reads_readState _

theorem reads_optionalConditionHolds (condition : Option Condition) :
    Reads (optionalConditionHolds options condition) := by
  cases condition with
  | none => exact .pure true
  | some condition => exact reads_conditionHolds options condition

theorem reads_allConditionsHold (conditions : List Condition) :
    Reads (allConditionsHold options conditions) := by
  induction conditions with
  | nil => exact .pure true
  | cons condition conditions ih =>
    refine .bind (reads_conditionHolds options condition) fun holds => ?_
    cases holds with
    | true => exact ih
    | false => exact .pure false

theorem reads_computeGeneratorVisibility (i : Fin sh.generators) (unlockedByUpgrade : Bool) :
    Reads (computeGeneratorVisibility options i unlockedByUpgrade) := by
  rw [computeGeneratorVisibility]
  split
  · exact .pure true
  · split
    · exact reads_conditionHolds options _
    · exact .bind .get fun c => .pure _

theorem reads_resolveUpgradeStatus (i : Fin sh.upgrades) :
    Reads (resolveUpgradeStatus options i) := by
  refine .bind .get fun c => ?_
  split
  · exact .pure _
  · refine .bind (reads_allConditionsHold options _) fun prerequisitesMet => ?_
    cases prerequisitesMet with
    | true =>
      exact .bind (reads_optionalConditionHolds options _) fun _ => .pure _
    | false => exact .pure _

theorem reads_upgradeVisible (i : Fin sh.upgrades) (status : UpgradeStatus) :
    Reads (upgradeVisible options i status) := by
  rw [upgradeVisible]
  split
  · exact reads_conditionHolds options _
  · exact .pure _

theorem reads_computeAchievementVisibility (i : Fin sh.achievements) (completions : ℕ)
    (eligible : Bool) : Reads (computeAchievementVisibility options i completions eligible) := by
  rw [computeAchievementVisibility]
  split
  · exact .pure true
  · split
    · exact reads_optionalConditionHolds options _
    · exact .pure false

/-! ### The rules of an update -/

/-- The condition holds in a state. -/
def Coordinator.Holds (c : Coordinator sh) (condition : Condition) : Prop :=
  evaluateCondition (c.conditionContext options) 0 condition = .ok true

/-- What an update writes apart from rates, effects and flags, each with its reason. A generator is
unlocked where its condition holds or where `granted` says so. -/
structure UpdateRules (granted : Coordinator sh → Fin sh.generators → Prop)
    (R : Coordinator sh → Coordinator sh → Prop) : Prop where
  unlock : ∀ (c : Coordinator sh) i {condition : Condition},
    (options.content.resources i).unlockCondition = some condition → c.Holds options condition →
      R c { c with resources := c.resources.unlock i }
  grantVisibility : ∀ (c : Coordinator sh) i,
    R c { c with resources := c.resources.grantVisibility i }
  unlockGenerator : ∀ (c : Coordinator sh) i (unlock : Bool),
    (unlock = true → c.Holds options (options.content.generators i).baseUnlock ∨ granted c i) →
      R c (c.unlockGenerator i unlock)
  settleGenerator : ∀ (c : Coordinator sh) i step wasUnlocked isVisible,
    R c (c.settleGenerator options i step wasUnlocked isVisible)
  setUpgrade : ∀ (c : Coordinator sh) i {state : UpgradeState},
    state.purchases = (c.upgrades i).purchases → R c (c.setUpgrade i state)
  setPrestigeLayer : ∀ (c : Coordinator sh) i state,
    R c { c with prestigeLayers := Function.update c.prestigeLayers i state }
  setAchievement : ∀ (c : Coordinator sh) i target isVisible,
    R c (c.setAchievement i { c.achievements i with target, isVisible })
  stepAchievement : ∀ (c : Coordinator sh) step i {target : ℚ}, 0 ≤ target → ∀ eligible,
    ReflTransGen R c (c.stepAchievement options step i target eligible).2

namespace UpdateRules

variable {options} {granted : Coordinator sh → Fin sh.generators → Prop}
  {R : Coordinator sh → Coordinator sh → Prop}

variable (h : UpdateRules options granted R)
include h

theorem unlockWhenMet (i : Fin sh.resources) : Performs R (unlockWhenMet options i) := by
  rw [IdleEngine.unlockWhenMet]
  split
  · exact Performs.pure ()
  · next condition hcondition =>
    refine Performs.bind Performs.get fun c => ?_
    split
    · exact Performs.pure ()
    · intro c
      refine Performs.bind_from ((reads_conditionHolds options _).performs c) fun met t hmet => ?_
      obtain ⟨rfl, hevaluated⟩ := readState_ok hmet
      cases met with
      | true => exact .single (h.unlock t i hcondition hevaluated)
      | false => exact .refl

theorem showWhenMet (i : Fin sh.resources) : Performs R (showWhenMet options i) := by
  have hshow : Performs R
      (modifyResources fun s : ResourceState sh.resources => s.grantVisibility i) :=
    .modify fun c => .single (h.grantVisibility c i)
  refine .bind .get fun c => ?_
  split
  · exact .pure ()
  · split
    · refine .bind (reads_conditionHolds options _).performs fun met => ?_
      cases met with
      | true => exact hshow
      | false => exact .pure ()
    · split
      · exact hshow
      · exact .pure ()

theorem updateUnlockVisibility : Performs R (updateUnlockVisibility options) :=
  .forM fun i _ => .bind (h.unlockWhenMet i) fun _ => h.showWhenMet i

theorem updateGeneratorStatus (step : ℕ)
    {effects : UpgradeEffects sh} (hgranted : ∀ c, ∀ i ∈ effects.unlockedGenerators, granted c i)
    (i : Fin sh.generators) : Performs R (updateGeneratorStatus options step effects i) := by
  intro c
  refine Performs.bind_from ((reads_conditionHolds options _).performs c)
    fun baseUnlock t hbase => ?_
  obtain ⟨rfl, hevaluated⟩ := readState_ok hbase
  refine Performs.bind_from .refl fun c' t' hget => ?_
  obtain ⟨rfl, rfl⟩ : t = c' ∧ t = t' := by
    injection hget with hc ht
    exact ⟨hc, ht⟩
  refine Performs.bind_from (.single (h.unlockGenerator t i _ fun hunlock => ?_)) fun _ t' _ => ?_
  · rcases Bool.or_eq_true_iff.mp hunlock with rfl | hlist
    · exact .inl hevaluated
    · exact .inr (hgranted t i (List.contains_iff_mem.mp hlist))
  · exact Performs.bind (reads_computeGeneratorVisibility options i _).performs
      (fun isVisible => Performs.modify fun c => .single (h.settleGenerator c i _ _ _)) t'

theorem updateUpgrade (i : Fin sh.upgrades) : Performs R (updateUpgrade options i) := by
  refine .bind (reads_resolveUpgradeStatus options i).performs fun status => ?_
  refine .bind (.modify fun c => .single (h.setUpgrade c i rfl)) fun _ => ?_
  exact .bind (reads_upgradeVisible options i status).performs fun _ =>
    .modify fun c => .single (h.setUpgrade c i rfl)

theorem updatePrestigeLayer (i : Fin sh.prestigeLayers) :
    Performs R (updatePrestigeLayer options i) :=
  .bind (reads_conditionHolds options _).performs fun _ =>
    .modify fun c => .single (h.setPrestigeLayer c i _)

theorem updateAchievements (step : ℕ) : Performs R (updateAchievements options step) := by
  refine .foldlM (fun completedAny i _ => ?_) false
  refine .bind (.bind .get fun c => ?_) fun _ => .pure _
  have hset : ∀ f : AchievementState → AchievementState,
      (∀ state, ∃ target isVisible, f state = { state with target, isVisible }) →
      Performs R (modify fun c : Coordinator sh => c.setAchievement i (f (c.achievements i)) :
        ProgressionM sh PUnit) := by
    intro f hf
    refine .modify fun c => .single ?_
    obtain ⟨target, isVisible, hview⟩ := hf (c.achievements i)
    rw [hview]
    exact h.setAchievement c i target isVisible
  refine .bind (hset (fun state => { state with target := _ }) fun _ => ⟨_, _, rfl⟩)
    fun _ => ?_
  refine .bind (reads_optionalConditionHolds options _).performs fun eligible => ?_
  refine .bind (reads_computeAchievementVisibility options i _ _).performs fun _ => ?_
  refine .bind (hset (fun state => { state with isVisible := _ }) fun _ => ⟨_, _, rfl⟩)
    fun _ => ?_
  exact .modifyGet fun c' =>
    h.stepAchievement c' step i (c.achievementTarget_pos options step i).le eligible

end UpdateRules

/-! ### Updates -/

/-- What takes steps of the coordinator only. -/
abbrev Updates {α : Type} (m : ProgressionM sh α) : Prop := Performs (CoordinatorStep options) m

theorem updates_modifyResources {f : ResourceState sh.resources → ResourceState sh.resources}
    (h : ∀ s, RecordStep s (f s)) : Updates options (modifyResources f) :=
  .modify fun c => .single (.resources c (h c.resources))

theorem updates_rest {f : Coordinator sh → Coordinator sh}
    (h : ∀ c, CoordinatorStep options c (f c)) : Updates options (modify f) :=
  .modify fun c => .single (h c)

theorem updates_getUpgradeEffects (step : ℕ) : Updates options (getUpgradeEffects options step) :=
  fun c => c.getUpgradeEffects_steps options step

theorem updates_updateGeneratorRates (step : ℕ) (effects : UpgradeEffects sh)
    (i : Fin sh.generators) : Updates options (updateGeneratorRates options step effects i) := by
  refine .bind (reads_readState _).performs fun produces => ?_
  refine .bind (reads_readState _).performs fun consumes => ?_
  exact updates_rest options fun _ => .rest rfl rfl id

theorem setUpgrade_step (c : Coordinator sh) (i : Fin sh.upgrades) {state : UpgradeState}
    (h : state.purchases = (c.upgrades i).purchases) :
    CoordinatorStep options c (c.setUpgrade i state) := by
  refine .rest rfl rfl fun hc => ⟨fun j => ?_, hc.2⟩
  by_cases hj : j = i
  · subst hj
    simpa [Coordinator.setUpgrade, h] using hc.1 j
  · simpa [Coordinator.setUpgrade, hj] using hc.1 j

theorem updateRules_coordinatorStep :
    UpdateRules options (fun _ _ => True) (CoordinatorStep options) where
  unlock c i _ _ _ := .resources c (c.resources.setUnlockedFlag_step i true)
  grantVisibility c i := .resources c (c.resources.setVisibleFlag_step i true)
  unlockGenerator _ _ _ _ := .rest rfl rfl id
  settleGenerator _ _ _ _ _ := .rest rfl rfl id
  setUpgrade c i _ h := setUpgrade_step options c i h
  setPrestigeLayer _ _ _ := .rest rfl rfl id
  setAchievement c i _ _ := c.setAchievement_step options i id
  stepAchievement c step i _ htarget eligible :=
    c.stepAchievement_steps options step i htarget eligible

theorem updates_updatePass (step : ℕ) : Updates options (updatePass options step) := by
  refine .bind (.modify fun c => c.rebuildDerivedRewards_steps options) fun _ => ?_
  refine .bind (updates_getUpgradeEffects options step) fun effects => ?_
  have hrules := updateRules_coordinatorStep options
  refine .bind hrules.updateUnlockVisibility fun _ => ?_
  refine .bind (.bind (.forM fun i _ =>
    hrules.updateGeneratorStatus step (fun _ _ _ => trivial) i) fun _ =>
      .forM fun i _ => updates_updateGeneratorRates options step effects i) fun _ => ?_
  refine .bind (.forM fun i _ => hrules.updateUpgrade i) fun _ => ?_
  refine .bind (.forM fun i _ => hrules.updatePrestigeLayer i) fun _ => ?_
  exact hrules.updateAchievements step

theorem updates_updatePasses (step passes : ℕ) :
    Updates options (updatePasses options step passes) := by
  induction passes with
  | zero => exact .pure ()
  | succ passes ih =>
    refine .bind (updates_updatePass options step) fun achievementsUnlocked => ?_
    cases achievementsUnlocked with
    | true => exact ih
    | false => exact .pure ()

/-- **Updating takes steps of the coordinator only.** -/
theorem updates_updateForStep (step : ℕ) : Updates options (updateForStep options step) :=
  .bind (updates_rest options fun _ => .rest rfl rfl id) fun _ =>
    updates_updatePasses options step _

end IdleEngine
