import IdleEngine.Production.Deferred
import IdleEngine.Progression.Rates

/-!
# A wired runtime

In a step of a wired runtime the commands run, then production, then — when amounts are applied
through `finalizeTick` — the finalize system, and then the other systems, the last of which updates
the progression. The rates that production records are cleared by nothing in the step: a step that
finds the rates of an earlier one settles them again. When every step finds income and expense
equal, the runtime agrees with one that applies production at once (`deferred_runtime_agrees`).
-/

namespace IdleEngine

open Stateful

variable {sh : ContentShape} {options : ProgressionOptions sh} {E : Type}

/-- What a step does before production and after settlement: commands and systems with a state of
their own. From coordinators that production cannot tell apart they do the same. -/
structure GameSystems (sh : ContentShape) (E : Type) where
  before : ℕ → E × Coordinator sh → E × Coordinator sh
  after : ℕ → E × Coordinator sh → E × Coordinator sh
  before_alike : ∀ step extra {c d}, SameGame c d →
    (before step (extra, c)).1 = (before step (extra, d)).1 ∧
      SameGame (before step (extra, c)).2 (before step (extra, d)).2
  after_alike : ∀ step extra {c d}, SameGame c d →
    (after step (extra, c)).1 = (after step (extra, d)).1 ∧
      SameGame (after step (extra, c)).2 (after step (extra, d)).2

/-- The state of a wired runtime. -/
structure WiredState (options : ProgressionOptions sh) (E : Type) where
  extra : E
  coordinator : Coordinator sh
  accumulators : ProductionAccumulators options

/-- A rate as production reads it. -/
def GeneratorRateView.productionRate (options : ProgressionOptions sh)
    (view : GeneratorRateView sh) : GeneratorProductionRate :=
  { resourceId := (options.content.resources view.resource).id, rate := .fin view.rate }

/-- The generators that production reads from the coordinator. -/
def Coordinator.productionGenerators (options : ProgressionOptions sh) (c : Coordinator sh) :
    List GeneratorProductionState :=
  List.ofFn fun i =>
    { id := (options.content.generators i).id
      owned := (c.generators i).owned
      enabled := some (c.generators i).enabled
      produces := (c.generators i).produces.map (·.productionRate options)
      consumes := (c.generators i).consumes.map (·.productionRate options) }

/-- A tick of the wired production system, which has no multipliers. -/
def Coordinator.productionTick (options : ProgressionOptions sh) (deltaMs : ℚ)
    (c : Coordinator sh) : ProductionTick :=
  { generators := c.productionGenerators options, getMultiplier := fun _ => 1, deltaMs }

namespace WiredState

/-- What production and the finalize system leave. -/
def produce (system : ProductionSystem) (stepSizeMs : ℚ) (w : WiredState options E) :
    WiredState options E :=
  let produced := system.runTick (w.coordinator.productionTick options stepSizeMs)
    { accumulators := w.accumulators, resources := w.coordinator.resources, calls := [] }
  let resources :=
    if system.applyViaFinalizeTick then
      produced.resources.afterUnit (produced.resources.finalizeTick (.fin stepSizeMs))
    else produced.resources
  { w with
    coordinator := { w.coordinator with resources }
    accumulators := produced.accumulators }

/-- The state in which production runs. -/
def beforeProduction (systems : GameSystems sh E) (step : ℕ) (w : WiredState options E) :
    WiredState options E :=
  let (extra, coordinator) := systems.before step (w.extra, w.coordinator)
  { w with extra, coordinator }

/-- The state that the systems after settlement leave. -/
def afterSettlement (systems : GameSystems sh E) (step : ℕ) (w : WiredState options E) :
    WiredState options E :=
  let (extra, coordinator) := systems.after step (w.extra, w.coordinator)
  { w with extra, coordinator }

/-- One step. -/
def runStep (systems : GameSystems sh E) (system : ProductionSystem) (stepSizeMs : ℚ) (step : ℕ)
    (w : WiredState options E) : WiredState options E :=
  ((w.beforeProduction systems step).produce system stepSizeMs).afterSettlement systems step

/-- The runtime after a number of steps from a given one. -/
def runSteps (systems : GameSystems sh E) (system : ProductionSystem) (stepSizeMs : ℚ)
    (start : ℕ) : ℕ → WiredState options E → WiredState options E
  | 0, w => w
  | k + 1, w => (runSteps systems system stepSizeMs start k w).runStep systems system stepSizeMs
      (start + k)

/-- Two states with the same extra state and accumulators, whose coordinators production cannot
tell apart. -/
structure Agrees (w v : WiredState options E) : Prop where
  extra : w.extra = v.extra
  accumulators : w.accumulators = v.accumulators
  coordinator : SameGame w.coordinator v.coordinator

/-- Production would settle nothing but its own rates, into amounts within their bounds. -/
structure Quiet (w : WiredState options E) : Prop where
  bounded : Bounded w.coordinator.resources.stored
  balanced : ∀ i, (w.coordinator.resources.live i).incomePerSecond =
    (w.coordinator.resources.live i).expensePerSecond

end WiredState

theorem SameGame.productionGenerators {c d : Coordinator sh} (h : SameGame c d) :
    c.productionGenerators options = d.productionGenerators options := by
  rw [Coordinator.productionGenerators, Coordinator.productionGenerators]
  refine congrArg List.ofFn (funext fun i => ?_)
  obtain ⟨howned, henabled, -, -⟩ := SavedGenerator.mk.inj (h.1.generators i)
  have hrates := congrFun (congrArg Prod.fst h.2) i
  have hproduces : (c.generators i).produces = (d.generators i).produces :=
    congrArg Prod.fst hrates
  have hconsumes : (c.generators i).consumes = (d.generators i).consumes :=
    congrArg Prod.snd hrates
  rw [howned, henabled, hproduces, hconsumes]

theorem SameGame.setResources {c d : Coordinator sh} (h : SameGame c d)
    {s t : ResourceState sh.resources} (hstored : s.stored = t.stored) (hids : s.ids = t.ids) :
    SameGame { c with resources := s } { d with resources := t } := by
  have hrates : c.rates.1 = d.rates.1 := congrArg Prod.fst h.2
  exact ⟨h.1.setResources hstored, Prod.ext hrates hids⟩

namespace WiredState

variable {systems : GameSystems sh E} {w v : WiredState options E}

theorem Agrees.beforeProduction (h : w.Agrees v) (step : ℕ) :
    (w.beforeProduction systems step).Agrees (v.beforeProduction systems step) := by
  have halike := systems.before_alike step w.extra h.coordinator
  rw [WiredState.beforeProduction, WiredState.beforeProduction, ← h.extra]
  exact ⟨halike.1, h.accumulators, halike.2⟩

theorem Agrees.afterSettlement (h : w.Agrees v) (step : ℕ) :
    (w.afterSettlement systems step).Agrees (v.afterSettlement systems step) := by
  have halike := systems.after_alike step w.extra h.coordinator
  rw [WiredState.afterSettlement, WiredState.afterSettlement, ← h.extra]
  exact ⟨halike.1, h.accumulators, halike.2⟩

theorem produce_deferred (system : ProductionSystem) {stepSizeMs : ℚ} (hsize : 0 < stepSizeMs)
    (w : WiredState options E) :
    w.produce (system.inMode true) stepSizeMs =
      let produced := system.runFinalizeTickRatesFlow
        (w.coordinator.productionTick options stepSizeMs)
        { accumulators := w.accumulators, resources := w.coordinator.resources, calls := [] }
      { w with
        coordinator :=
          { w.coordinator with resources := produced.resources.finalizeAll stepSizeMs }
        accumulators := produced.accumulators } := by
  have htick : 0 < (w.coordinator.productionTick options stepSizeMs).deltaMs := hsize
  have hmode : (system.inMode true).applyViaFinalizeTick = true := rfl
  simp only [produce, hmode, if_true, runTick_deferred system htick, finalizeTick_eq _ hsize,
    ResourceState.afterUnit]

theorem produce_direct (system : ProductionSystem) (stepSizeMs : ℚ) (w : WiredState options E) :
    w.produce (system.inMode false) stepSizeMs =
      let produced := system.runStandardFlow (w.coordinator.productionTick options stepSizeMs)
        { accumulators := w.accumulators, resources := w.coordinator.resources, calls := [] }
      { w with
        coordinator := { w.coordinator with resources := produced.resources }
        accumulators := produced.accumulators } := by
  have hmode : (system.inMode false).applyViaFinalizeTick = false := rfl
  simp only [produce, hmode, Bool.false_eq_true, if_false, runTick_direct]

/-- **Production agrees** in the two modes, when nothing else is settled. -/
theorem Agrees.produce (h : w.Agrees v) (hquiet : w.Quiet) (system : ProductionSystem)
    {stepSizeMs : ℚ} (hsize : 0 < stepSizeMs) :
    (w.produce (system.inMode true) stepSizeMs).Agrees
      (v.produce (system.inMode false) stepSizeMs) := by
  have hids : v.coordinator.resources.ids = w.coordinator.resources.ids :=
    (congrArg Prod.snd h.coordinator.2).symm
  have htick : v.coordinator.productionTick options stepSizeMs =
      w.coordinator.productionTick options stepSizeMs := by
    rw [Coordinator.productionTick, Coordinator.productionTick,
      h.coordinator.productionGenerators]
  obtain ⟨haccumulators, -, hids', hbounded, hsettled⟩ :=
    runFinalizeTickRatesFlow_agrees system (w.coordinator.productionTick options stepSizeMs) hsize
      w.accumulators [] hids h.coordinator.1.stored.symm hquiet.bounded
  rw [produce_deferred system hsize, produce_direct, htick, ← h.accumulators]
  refine ⟨h.extra, haccumulators, h.coordinator.setResources (funext fun i => ?_) ?_⟩
  · have hnet : (w.coordinator.resources.rated i).net (stepSizeMs / 1000) = 0 := by
      change (w.coordinator.resources.live i).incomePerSecond * _ -
        (w.coordinator.resources.live i).expensePerSecond * _ = 0
      rw [hquiet.balanced i, sub_self]
    have hrecord := hsettled i
    rw [show (w.coordinator.productionTick options stepSizeMs).deltaMs = stepSizeMs from rfl, hnet,
      add_zero, ResourceState.clampAmount_of_bounded (hbounded i)] at hrecord
    exact hrecord
  · exact (ResourceState.finalizeAll_ids _ _).trans hids'.symm

/-- **Step lemma.** -/
theorem Agrees.runStep (h : w.Agrees v) {step : ℕ}
    (hquiet : (w.beforeProduction systems step).Quiet) (system : ProductionSystem)
    {stepSizeMs : ℚ} (hsize : 0 < stepSizeMs) :
    (w.runStep systems (system.inMode true) stepSizeMs step).Agrees
      (v.runStep systems (system.inMode false) stepSizeMs step) :=
  ((h.beforeProduction step).produce hquiet system hsize).afterSettlement step

end WiredState

/-- **Deferred and direct runtimes agree** over a run in which every step, when its production
starts, finds income and expense equal and the amounts within their bounds. -/
theorem deferred_runtime_agrees (systems : GameSystems sh E) (system : ProductionSystem)
    {stepSizeMs : ℚ} (hsize : 0 < stepSizeMs) (start : ℕ) (w : WiredState options E) {n : ℕ}
    (hquiet : ∀ k < n, ((w.runSteps systems (system.inMode true) stepSizeMs start k
      ).beforeProduction systems (start + k)).Quiet) :
    ∀ k ≤ n, ∀ i,
      ((w.runSteps systems (system.inMode true) stepSizeMs start k).coordinator.resources.live i
        ).amount =
      ((w.runSteps systems (system.inMode false) stepSizeMs start k).coordinator.resources.live i
        ).amount := by
  have hagrees : ∀ k ≤ n, (w.runSteps systems (system.inMode true) stepSizeMs start k).Agrees
      (w.runSteps systems (system.inMode false) stepSizeMs start k) := by
    intro k
    induction k with
    | zero => exact fun _ => ⟨rfl, rfl, sameGame_refl w.coordinator⟩
    | succ k ih =>
      intro hk
      exact (ih (Nat.le_of_succ_le hk)).runStep (hquiet k hk) system hsize
  intro k hk i
  exact congrArg StoredResource.amount (congrFun (hagrees k hk).coordinator.1.stored i)

/-! ### The progression coordinator -/

theorem SameGame.publish {c d : Coordinator sh} (h : SameGame c d) :
    SameGame { c with resources := afterPublish c.resources }
      { d with resources := afterPublish d.resources } := by
  refine h.setResources ?_ (congrArg Prod.snd h.2)
  rw [afterPublish_stored, afterPublish_stored, h.1.stored]

/-- A runtime whose only other system updates the progression. Between two steps the host
publishes and resets, or does not. -/
def coordinatorSystems (options : ProgressionOptions sh) (hostPublishes : Bool) :
    GameSystems sh Unit where
  before _ w :=
    if hostPublishes then (w.1, { w.2 with resources := afterPublish w.2.resources }) else w
  after step w := (w.1, final (updateForStep options (step + 1) w.2))
  before_alike step extra c d h := by
    cases hostPublishes with
    | true => exact ⟨rfl, h.publish⟩
    | false => exact ⟨rfl, h⟩
  after_alike step extra c d h := by
    refine ⟨rfl, ?_⟩
    have hrun := lockstep_game_updateForStep options (step + 1) c d h
    generalize updateForStep options (step + 1) c = r at hrun
    generalize updateForStep options (step + 1) d = r' at hrun
    cases hrun with
    | ok _ hR => exact hR
    | error _ hR => exact hR

/-! ### A gold mine -/

/-- The shape of a game with one resource and one generator. -/
def mineShape : ContentShape :=
  { resources := 1, generators := 1, upgrades := 0, prestigeLayers := 0, achievements := 0 }

/-- A mine that makes one gold a second. -/
def mineOptions : ProgressionOptions mineShape :=
  { content :=
      { resources := fun _ =>
          { id := "gold", startAmount := none, capacity := none, unlocked := some true
            visible := none, dirtyTolerance := none, unlockCondition := none
            visibilityCondition := none }
        generators := fun _ =>
          { id := "mine", initialLevel := 1, maxLevel := none, baseUnlock := .always
            visibilityCondition := none
            produces := [{ resource := Fin.last 0, rate := .constant (.fin 1) }]
            consumes := [] }
        upgrades := fun i => i.elim0
        prestigeLayers := fun i => i.elim0
        achievements := fun i => i.elim0
        generator_ids := fun i j _ => Subsingleton.elim (α := Fin 1) i j
        upgrade_ids := fun i => i.elim0
        achievement_ids := fun i => i.elim0
        generator_nonblank := fun _ => rfl
        upgrade_nonblank := fun i => i.elim0
        achievement_nonblank := fun i => i.elim0 }
    stepDurationMs := 1000, precision := .default, maxConditionDepth := none
    evaluateScriptCondition := none, getCustomMetricValue := none }

/-- A production system with the default threshold. -/
def defaultSystem : ProductionSystem :=
  { applyThreshold := 1 / 10000, applyThreshold_pos := by norm_num, trackRates := false
    applyViaFinalizeTick := true }

/-- A new mine. -/
def mine : Except String (WiredState mineOptions Unit) :=
  (createProgressionCoordinator mineOptions).map fun coordinator =>
    { extra := (), coordinator, accumulators := .empty }

/-- The mine after some steps of a second. -/
def WiredState.mineAfter (w : WiredState mineOptions Unit) (hostPublishes viaFinalizeTick : Bool)
    (k : ℕ) : WiredState mineOptions Unit :=
  w.runSteps (coordinatorSystems mineOptions hostPublishes) (defaultSystem.inMode viaFinalizeTick)
    1000 0 k

/-- The gold after some steps of a second. -/
def WiredState.goldAfter (w : WiredState mineOptions Unit) (hostPublishes viaFinalizeTick : Bool)
    (k : ℕ) : ℚ :=
  ((w.mineAfter hostPublishes viaFinalizeTick k).coordinator.resources.live (Fin.last 0)).amount

/-- The check of `Quiet`. -/
def WiredState.isQuiet (w : WiredState mineOptions Unit) : Bool :=
  decide (∀ i : Fin 1, 0 ≤ (w.coordinator.resources.live i).amount ∧
    ((w.coordinator.resources.live i).amount : WithTop ℚ) ≤
      (w.coordinator.resources.live i).capacity ∧
    (w.coordinator.resources.live i).incomePerSecond =
      (w.coordinator.resources.live i).expensePerSecond)

theorem WiredState.quiet_of_isQuiet {w : WiredState mineOptions Unit} (h : w.isQuiet = true) :
    w.Quiet := by
  have hall := of_decide_eq_true h
  exact ⟨fun i => ⟨(hall i).1, (hall i).2.1⟩, fun i => (hall i).2.2⟩

/-- A mine whose host publishes before each of three steps. -/
theorem deferred_runtime_agrees_mine :
    ∃ w, mine = .ok w ∧ w.goldAfter true true 3 = w.goldAfter true false 3 := by
  obtain ⟨w, hw, hquiet⟩ := Outcome.exists_ok (x := mine)
    (p := fun w => (List.range 3).all fun k =>
      ((w.mineAfter true true k).beforeProduction (coordinatorSystems mineOptions true)
        (0 + k)).isQuiet) (by decide +kernel)
  refine ⟨w, hw, ?_⟩
  have hquiet' : ∀ k < 3, ((w.mineAfter true true k).beforeProduction
      (coordinatorSystems mineOptions true) (0 + k)).Quiet := fun k hk =>
    WiredState.quiet_of_isQuiet (List.all_eq_true.mp hquiet k (List.mem_range.mpr hk))
  exact deferred_runtime_agrees (coordinatorSystems mineOptions true) defaultSystem
    (by norm_num) 0 w hquiet' 3 le_rfl (0 : Fin 1)

/-- Two steps without a publish between them: the second settles the rates of the first again. -/
theorem deferred_runtime_doubles :
    ∃ w, mine = .ok w ∧ w.goldAfter false true 2 = 3 ∧ w.goldAfter false false 2 = 2 := by
  obtain ⟨w, hw, hgold⟩ := Outcome.exists_ok (x := mine)
    (p := fun w => decide (w.goldAfter false true 2 = 3 ∧ w.goldAfter false false 2 = 2))
    (by decide +kernel)
  exact ⟨w, hw, of_decide_eq_true hgold⟩

end IdleEngine
