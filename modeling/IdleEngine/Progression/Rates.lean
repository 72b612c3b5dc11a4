import IdleEngine.Progression.Lockstep
import IdleEngine.Progression.Steps

/-!
# What production reads of an update

Production reads the rates of the generators, which an update writes in one place only. Everything
else in an update keeps them, and the new ones follow from the core; so from coordinators with the
same core and the same rates an update leaves such coordinators (`lockstep_game_updateForStep`).
-/

namespace IdleEngine

open Relation Stateful ResourceState Coordinator

variable {sh : ContentShape} {options : ProgressionOptions sh}

/-- The rates of the generators, and the ids of the resources. -/
def Coordinator.rates (c : Coordinator sh) :
    (Fin sh.generators → List (GeneratorRateView sh) × List (GeneratorRateView sh)) ×
      (Fin sh.resources → String) :=
  (fun i => ((c.generators i).produces, (c.generators i).consumes), c.resources.ids)

/-- A step that keeps the rates. -/
def SameRates (c c' : Coordinator sh) : Prop := c'.rates = c.rates

/-- What keeps the rates. -/
abbrev KeepsRates {α : Type} (m : ProgressionM sh α) : Prop := Performs SameRates m

/-! ### Ids -/

theorem ResourceState.setCapacityTo_ids {n : ℕ} (s : ResourceState n) (i : Fin n)
    (capacity : WithTop ℚ) : (s.setCapacityTo i capacity).ids = s.ids :=
  (s.setCapacityTo_writes (A := fun _ _ _ => True) i capacity).ids

theorem ResourceState.applyCapacityOverrides_ids {n : ℕ} (s : ResourceState n)
    (base : Fin n → WithTop ℚ) (overrideIds : List (Fin n))
    (overrides : OrderedMap (Fin n) Capacity) :
    (s.applyCapacityOverrides base overrideIds overrides).ids = s.ids := by
  refine List.foldlRecOn (motive := fun t : ResourceState n => t.ids = s.ids) _ _ ?_
    fun t ht entry _ => (t.setCapacityTo_ids entry.1 entry.2).trans ht
  refine List.foldlRecOn (motive := fun t : ResourceState n => t.ids = s.ids) _ _ rfl
    fun t ht i _ => ?_
  split
  · exact ht
  · exact (t.setCapacityTo_ids i (base i)).trans ht

theorem CoordinatorStep.ids {c c' : Coordinator sh} (h : CoordinatorStep options c c') :
    c'.resources.ids = c.resources.ids := by
  cases h with
  | resources h => exact h.ids
  | overrides overrides => exact applyCapacityOverrides_ids _ _ _ _
  | rest hresources _ _ => rw [hresources]

theorem CoordinatorSteps.ids {c c' : Coordinator sh} (h : CoordinatorSteps options c c') :
    c'.resources.ids = c.resources.ids := by
  induction h with
  | refl => rfl
  | tail _ hstep ih => exact hstep.ids.trans ih

/-! ### Keeping the rates -/

namespace SameRates

variable {c c' : Coordinator sh}

theorem of_generators (hgenerators : c'.generators = c.generators)
    (hids : c'.resources.ids = c.resources.ids) : SameRates c c' := by
  rw [SameRates, rates, rates, hgenerators, hids]

theorem setGenerator (c : Coordinator sh) (i : Fin sh.generators) {state : GeneratorState sh}
    (hproduces : state.produces = (c.generators i).produces)
    (hconsumes : state.consumes = (c.generators i).consumes) :
    SameRates c (c.setGenerator i state) := by
  refine Prod.ext (funext fun j => ?_) rfl
  by_cases hj : j = i
  · subst hj
    simp [Coordinator.rates, Coordinator.setGenerator, hproduces, hconsumes]
  · simp [Coordinator.rates, Coordinator.setGenerator, hj]

theorem applyUpgradeEffects (c : Coordinator sh) (step : ℕ) (effects : UpgradeEffects sh) :
    SameRates c (c.applyUpgradeEffects options step effects) := by
  have hids : (c.applyUpgradeEffects options step effects).resources.ids = c.resources.ids := by
    rw [c.applyUpgradeEffects_eq]
    refine (RecordStep.ids (applyDirtyToleranceOverrides_step _ _ _ _)).trans ?_
    rw [applyCapacityOverrides_ids]
    exact (RecordStep.foldl unlockAndShow_step _ _).ids
  refine Prod.ext (funext fun i => ?_) hids
  rw [c.applyUpgradeEffects_eq]
  simp only [rates, c.applyUnlockedGenerators_generators]
  split <;> rfl

theorem writePurchases (c : Coordinator sh) (i : Fin sh.upgrades) (purchases : ℕ) :
    SameRates c (c.writePurchases options i purchases) :=
  applyUpgradeEffects
    { c.setUpgrade i { c.upgrades i with purchases } with upgradeEffectsCache := none } _ _

theorem rebuildDerivedRewards (c : Coordinator sh) :
    SameRates c (c.rebuildDerivedRewards options) := by
  have hgenerators : (c.rebuildDerivedRewards options).generators = c.generators := by
    refine List.foldlRecOn (motive := fun d : Coordinator sh => d.generators = c.generators)
      (collectDerivedRewardEntries c.achievements) _ rfl fun d hd i _ => ?_
    rw [applyDerivedReward]
    split <;> exact hd
  exact of_generators hgenerators (c.rebuildDerivedRewards_steps options).ids

theorem applyAchievementReward (c : Coordinator sh) (achievement : AchievementContent sh)
    (context : FormulaContext) :
    SameRates c (c.applyAchievementReward options achievement context) := by
  have hids := (c.applyAchievementReward_steps options achievement context).ids
  rw [Coordinator.applyAchievementReward] at hids ⊢
  split
  · refine of_generators ?_ ?_
    · rw [grantAchievementResource]
      split <;> rfl
    · exact (grantAchievementResource_steps options c _ _).ids
  · exact writePurchases c _ _
  · rfl
  · rfl
  · rfl

theorem stepAchievement (c : Coordinator sh) (step : ℕ) (i : Fin sh.achievements) {target : ℚ}
    (htarget : 0 ≤ target) (eligible : Bool) :
    SameRates c (c.stepAchievement options step i target eligible).2 := by
  obtain ⟨state, -, h | ⟨context, h⟩⟩ := c.stepAchievement_cases options step i htarget eligible
  · rw [h]
    rfl
  · rw [h]
    exact applyAchievementReward (c.setAchievement i state) _ _

end SameRates

theorem keepsRates_modify {f : Coordinator sh → Coordinator sh} (h : ∀ c, SameRates c (f c)) :
    KeepsRates (modify f) :=
  Performs.modify fun c => .single (h c)

variable (options)

theorem updateRules_sameRates : UpdateRules options (fun _ _ => True) SameRates where
  unlock c i _ _ _ := SameRates.of_generators rfl (c.resources.setUnlockedFlag_step i true).ids
  grantVisibility c i := SameRates.of_generators rfl (c.resources.setVisibleFlag_step i true).ids
  unlockGenerator c i _ _ := SameRates.setGenerator c i rfl rfl
  settleGenerator c i _ _ _ := SameRates.setGenerator c i rfl rfl
  setUpgrade _ _ _ _ := rfl
  setPrestigeLayer _ _ _ := rfl
  setAchievement _ _ _ _ := rfl
  stepAchievement c step i _ htarget eligible :=
    .single (SameRates.stepAchievement c step i htarget eligible)

/-! ### Coordinators that production cannot tell apart -/

/-- Coordinators with the same core, the same rates and the same ids. -/
def SameGame (c d : Coordinator sh) : Prop := SameCore c d ∧ c.rates = d.rates

theorem sameGame_refl (c : Coordinator sh) : SameGame c c :=
  ⟨⟨rfl, rfl, fun _ => rfl, fun _ => rfl, rfl, rfl, rfl, fun _ => rfl, fun _ => rfl, rfl, rfl, rfl,
    rfl⟩, rfl⟩

theorem lockstep_game {α : Type} {m : ProgressionM sh α} (hcore : ReadsCore m)
    (hrates : KeepsRates m) : Lockstep SameGame m m :=
  hcore.with_kept hrates fun _ _ h => h

theorem SameGame.setRates {c d : Coordinator sh} (h : SameGame c d) (effects : UpgradeEffects sh)
    (i : Fin sh.generators) (produces consumes : List (GeneratorRateView sh)) :
    SameGame (c.setRates effects i produces consumes) (d.setRates effects i produces consumes) := by
  obtain ⟨hcore, hrates⟩ := h
  refine ⟨?_, Prod.ext (funext fun j => ?_) ?_⟩
  · rw [Coordinator.setRates, Coordinator.setRates]
    refine hcore.setGenerator ?_ i
    exact hcore.generators i
  · have hold := congrFun (congrArg Prod.fst hrates) j
    by_cases hj : j = i
    · subst hj
      simp [Coordinator.rates, Coordinator.setRates, Coordinator.setGenerator]
    · simpa [Coordinator.rates, Coordinator.setRates, Coordinator.setGenerator, hj] using hold
  · exact (congrArg Prod.snd hrates : c.resources.ids = d.resources.ids)

theorem lockstep_game_updateGeneratorRates (step : ℕ) (effects : UpgradeEffects sh)
    (i : Fin sh.generators) :
    Lockstep SameGame (updateGeneratorRates options step effects i)
      (updateGeneratorRates options step effects i) := by
  have hbuild : ∀ rates : List (RateEntry sh), Lockstep SameGame
      (readState fun c : Coordinator sh =>
        buildGeneratorRates (c.formulaContext options 1 step) rates)
      (readState fun c : Coordinator sh =>
        buildGeneratorRates (c.formulaContext options 1 step) rates) := fun rates =>
    lockstep_game (lockstep_readState fun _ _ h => by rw [h.formulaContext])
      (reads_readState _).performs
  refine .bind (hbuild _) fun produces => ?_
  refine .bind (hbuild _) fun consumes => ?_
  exact .modify fun c d h => h.setRates effects i produces consumes

theorem lockstep_game_updatePass (step : ℕ) :
    Lockstep SameGame (updatePass options step) (updatePass options step) := by
  have hrules := updateRules_sameRates options
  refine .bind (lockstep_game (.modify fun _ _ h => h.rebuildDerivedRewards)
    (keepsRates_modify SameRates.rebuildDerivedRewards)) fun _ => ?_
  refine .bind (lockstep_game (lockstep_getUpgradeEffects options step)
    fun c => .single (SameRates.applyUpgradeEffects c step _)) fun effects => ?_
  refine .bind (lockstep_game (lockstep_updateUnlockVisibility options)
    hrules.updateUnlockVisibility) fun _ => ?_
  refine .bind (.bind (.forM fun i _ =>
    lockstep_game (lockstep_updateGeneratorStatus options step effects i)
      (hrules.updateGeneratorStatus step (fun _ _ _ => trivial) i)) fun _ => .forM fun i _ =>
        lockstep_game_updateGeneratorRates options step effects i) fun _ => ?_
  refine .bind (.forM fun i _ => lockstep_game (lockstep_updateUpgrade options i)
    (hrules.updateUpgrade i)) fun _ => ?_
  refine .bind (.forM fun i _ =>
    lockstep_game (lockstep_updatePrestigeLayer options i)
      (hrules.updatePrestigeLayer i)) fun _ => ?_
  refine lockstep_game (.foldlM (fun completedAny i _ => ?_) false)
    (hrules.updateAchievements step)
  exact .bind (lockstep_updateAchievement options step i) fun _ => .pure _

/-- **Updating depends on the core and keeps rates alike.** -/
theorem lockstep_game_updateForStep (step : ℕ) :
    Lockstep SameGame (updateForStep options step) (updateForStep options step) := by
  have hpasses : ∀ passes, Lockstep SameGame (updatePasses options step passes)
      (updatePasses options step passes) := by
    intro passes
    induction passes with
    | zero => exact .pure ()
    | succ passes ih =>
      refine .bind (lockstep_game_updatePass options step) fun achievementsUnlocked => ?_
      cases achievementsUnlocked with
      | true => exact ih
      | false => exact .pure ()
  refine .bind (.modify fun c d h => ⟨?_, h.2⟩) fun _ => hpasses _
  exact { h.1 with lastUpdatedStep := rfl }

end IdleEngine
