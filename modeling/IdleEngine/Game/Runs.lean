import IdleEngine.Progression.Steps
import IdleEngine.Save.Progression
import IdleEngine.Save.Reconcile

/-!
# Runs of a progression

What a game does with its progression, action by action: calls on the store, updates for a step,
purchases, quotes, prestiges, production, loading a save. An action that throws leaves what it
has done. `GameStep` lists the changes of the coordinator that actions are made of; direct writes
of amounts, which only a prestige makes, are restricted by a parameter.
-/

namespace IdleEngine

open Relation Stateful ResourceState Performs Coordinator

variable {sh : ContentShape}

inductive ProgressionAction (options : ProgressionOptions sh)
  | call (call : ResourceCall sh.resources) (h : ∀ m, call = .mutate m → m.Clamped)
  | publish
  | update (step : ℕ)
  | incrementGenerator (i : Fin sh.generators) (count : ℕ)
  | enableGenerator (i : Fin sh.generators) (enabled : Bool)
  | incrementUpgrade (i : Fin sh.upgrades)
  | setUpgrade (i : Fin sh.upgrades) (purchases : ℕ)
  | quoteUpgrades
  | quotePrestige (layerId : String)
  | prestige (layerId : String) (confirmationToken : Option String) (now : ℚ)
  | accumulate (accumulators : ProductionAccumulators options)
  | load (resources : SerializedResourceState) (progression : Option SerializedProgression)

variable {options : ProgressionOptions sh}

namespace ProgressionAction

def perform : ProgressionAction options → EStateM String (Progression options) Unit
  | .call c _ => inCoordinator (modifyResources (·.call c))
  | .publish => inCoordinator (modifyResources (·.createPublishSnapshot))
  | .update step => inCoordinator (updateForStep options step)
  | .incrementGenerator i count =>
      inCoordinator (modify (·.incrementGeneratorOwned options i count))
  | .enableGenerator i enabled => inCoordinator (modify (·.setGeneratorEnabled i enabled))
  | .incrementUpgrade i => inCoordinator (modify (·.incrementUpgradePurchases options i))
  | .setUpgrade i purchases =>
      inCoordinator (modify (·.setUpgradePurchases options i purchases))
  | .quoteUpgrades =>
      inCoordinator (modify fun c => (c.getUpgradeEffects options c.lastUpdatedStep).2)
  | .quotePrestige layerId => inCoordinator do
      let _ ← getPrestigeQuote options layerId
  | .prestige layerId confirmationToken now =>
      inCoordinator (applyPrestige options layerId confirmationToken now)
  | .accumulate a => modify fun p => { p with accumulators := a }
  | .load resources progression => loadProgression resources progression

end ProgressionAction

namespace Progression

/-- The progression after an action, whether it throws or not. -/
def after (p : Progression options) (action : ProgressionAction options) : Progression options :=
  final (action.perform p)

/-- The progression after a sequence of actions. -/
def run (p : Progression options) (actions : List (ProgressionAction options)) :
    Progression options :=
  actions.foldl after p

end Progression

variable (options) in
/-- A new progression. -/
def createProgression : Except String (Progression options) := do
  let coordinator ← createProgressionCoordinator options
  return { coordinator, accumulators := ProductionAccumulators.empty }

variable {p : Progression options}

/-- A new progression is a coordinator of new managers, updated. -/
theorem createProgression_eq (h : createProgression options = .ok p) :
    ∃ resources generators,
      createResourceState (fun i => (options.content.resources i).definition) options.precision =
        .ok resources ∧
      p.coordinator = final (updateForStep options 0 (initial resources generators)) := by
  obtain ⟨c, hc, hp⟩ := Outcome.bind_ok h
  obtain rfl := Except.ok.inj hp
  obtain ⟨resources, hresources, hc⟩ := Outcome.bind_ok hc
  obtain ⟨generators, -, hc⟩ := Outcome.bind_ok hc
  obtain ⟨_, -, hc⟩ := Outcome.bind_ok hc
  refine ⟨resources, fun i => generators.getD i blankGenerator, hresources, ?_⟩
  dsimp only at hc
  cases hrun : updateForStep options 0
      (initial resources fun i => generators.getD i blankGenerator) with
  | ok u t =>
    rw [hrun] at hc
    exact (Except.ok.inj hc).symm
  | error message t =>
    rw [hrun] at hc
    cases hc

/-! ### Steps -/

/-- A change of the coordinator. Where an amount is written directly, `allowed` relates the
capacity it has then and the amount. -/
inductive GameStep (options : ProgressionOptions sh) (allowed : WithTop ℚ → ℚ → Prop) :
    Coordinator sh → Coordinator sh → Prop
  | coordinator {c c' : Coordinator sh} (h : CoordinatorStep options c c') :
      GameStep options allowed c c'
  | call (c : Coordinator sh) (call : ResourceCall sh.resources)
      (h : ∀ m, call = .mutate m → m.Clamped) :
      GameStep options allowed c { c with resources := c.resources.call call }
  | load (c : Coordinator sh) (serialized : SerializedResourceState)
      {s : ResourceState sh.resources}
      (h : c.resources.hydrateResources (fun i => (options.content.resources i).id) serialized =
        .ok s) : GameStep options allowed c { c with resources := s }
  | write (c : Coordinator sh) (i : Fin sh.resources) {amount : ℚ} (hamount : 0 ≤ amount)
      (h : allowed (c.resources.stored i).capacity amount) :
      GameStep options allowed c { c with resources := c.resources.putAmount i amount }

variable {allowed : WithTop ℚ → ℚ → Prop}

/-- What takes game steps only. -/
abbrev Plays {α : Type} (allowed : WithTop ℚ → ℚ → Prop) (m : ProgressionM sh α) : Prop :=
  Performs (GameStep options allowed) m

variable {α : Type} {m : ProgressionM sh α}

theorem plays_of_updates (h : Updates options m) :
    Performs (GameStep options allowed) m :=
  h.mono fun _ _ => .coordinator

variable {f : Coordinator sh → Coordinator sh}

theorem plays_of_steps (h : ∀ c, CoordinatorSteps options c (f c)) :
    Performs (GameStep options allowed) (modify f : ProgressionM sh PUnit) :=
  plays_of_updates (.modify h)

/-! ### Prestiges -/

namespace Coordinator

/-- What a prestige of a layer would compute now, after its publish. -/
def plannedPrestige (options : ProgressionOptions sh) (c : Coordinator sh)
    (i : Fin sh.prestigeLayers) : Except String (PrestigeResetContext sh.resources) :=
  { c with resources := c.resources.createPublishSnapshot }.prestigeResetContext options i

/-- The amounts that a prestige of a layer would write now are all allowed. -/
def PrestigeWrites (options : ProgressionOptions sh) (allowed : WithTop ℚ → ℚ → Prop)
    (c : Coordinator sh) (layerId : String) : Prop :=
  ∀ i, indexOfId (fun i => (options.content.prestigeLayers i).id) layerId = some i →
    (c.prestigeLayers i).isUnlocked = true → ∀ context,
      c.plannedPrestige options i = .ok context →
      ∀ target ∈ context.resetTargets ++ context.retentionTargets,
        allowed (c.resources.stored target.resource).capacity target.normalized

end Coordinator

variable {n : ℕ}

theorem grantPrestigeReward_step (s : ResourceState n) (i : Fin n) (amount : ℚ) :
    RecordStep s (s.grantPrestigeReward i amount) := by
  rw [ResourceState.grantPrestigeReward]
  split
  · exact RecordStep.refl s
  · next h => exact s.addPositive_step i (not_le.mp h).le

theorem applyPrestigeFlagTargets_step (s : ResourceState n)
    (targets : List (PrestigeFlagTarget n)) : RecordStep s (s.applyPrestigeFlagTargets targets) :=
  RecordStep.foldl (fun s _ => (s.setUnlockedFlag_step _ _).trans
    (setVisibleFlag_step _ _ _)) targets s

/-- The writes of a prestige, one by one; none changes a capacity. -/
theorem applyPrestigeTargets_steps (options : ProgressionOptions sh) (c : Coordinator sh)
    (targets : List (PrestigeAmountTarget sh.resources)) {capacity : Fin sh.resources → WithTop ℚ}
    (hcapacity : ∀ i, (c.resources.stored i).capacity = capacity i)
    (h : ∀ target ∈ targets, allowed (capacity target.resource) target.normalized) :
    ReflTransGen (GameStep options allowed) c
        { c with resources := c.resources.applyPrestigeTargets targets } ∧
      ∀ i, ((c.resources.applyPrestigeTargets targets).stored i).capacity = capacity i := by
  induction targets generalizing c with
  | nil => exact ⟨.refl, hcapacity⟩
  | cons target targets ih =>
    have hfirst := h target List.mem_cons_self
    rw [← hcapacity] at hfirst
    have hkept : ∀ i, ((c.resources.putAmount target.resource target.normalized).stored i).capacity =
        capacity i := by
      intro i
      rw [putAmount_stored]
      by_cases hi : i = target.resource
      · subst hi
        rw [Function.update_self]
        exact hcapacity _
      · rw [Function.update_of_ne hi]
        exact hcapacity i
    obtain ⟨hsteps, hlast⟩ := ih
      { c with resources := c.resources.putAmount target.resource target.normalized } hkept
      fun t ht => h t (List.mem_cons_of_mem _ ht)
    exact ⟨.head (.write c target.resource (normalizeAmount_nonneg target.amount) hfirst) hsteps,
      hlast⟩

variable (c : Coordinator sh)

theorem applyPrestigeReset_steps (context : PrestigeResetContext sh.resources)
    (h : ∀ target ∈ context.resetTargets ++ context.retentionTargets,
      allowed (c.resources.stored target.resource).capacity target.normalized) :
    ReflTransGen (GameStep options allowed) c
      { c with resources := applyPrestigeReset context c.resources } := by
  have hreward := grantPrestigeReward_step c.resources context.rewardResource context.rewardAmount
  obtain ⟨hreset, hcapacity⟩ := applyPrestigeTargets_steps options
    { c with
      resources :=
        (c.resources.grantPrestigeReward context.rewardResource context.rewardAmount) }
    context.resetTargets (fun i => hreward.capacity i)
    fun target ht => h target (List.mem_append_left _ ht)
  obtain ⟨hretention, -⟩ := applyPrestigeTargets_steps options
    { c with
      resources := (c.resources.grantPrestigeReward context.rewardResource
        context.rewardAmount).applyPrestigeTargets context.resetTargets }
    context.retentionTargets hcapacity fun target ht => h target (List.mem_append_right _ ht)
  refine .head (.coordinator (.resources c hreward)) (hreset.trans (hretention.tail ?_))
  exact .coordinator (.resources _ (applyPrestigeFlagTargets_step _ _))

theorem finishPrestige_steps (i : Fin sh.prestigeLayers)
    (context : PrestigeResetContext sh.resources) (c : Coordinator sh)
    (h : ∀ target ∈ context.resetTargets ++ context.retentionTargets,
      allowed (c.resources.stored target.resource).capacity target.normalized) :
    ReflTransGen (GameStep options allowed) c (final (finishPrestige options i context c)) := by
  refine bind_from (applyPrestigeReset_steps c context h) fun _ t _ => ?_
  have hgenerators : ∀ c : Coordinator sh,
      CoordinatorSteps options c (c.applyGeneratorResets options i) := by
    intro c
    rw [applyGeneratorResets]
    refine .foldl options (fun c j => ?_) _ _
    exact .single (.rest rfl rfl id)
  have hupgrades : ∀ c : Coordinator sh,
      CoordinatorSteps options c (c.applyUpgradeResets options i) := by
    intro c
    exact .foldl options (fun c i => c.setUpgradePurchases_steps options i 0) _ c
  have hcount : ∀ c : Coordinator sh,
      CoordinatorSteps options c (c.incrementPrestigeCount options i) := by
    intro c
    rw [incrementPrestigeCount]
    split
    · exact .single (.resources c (c.resources.addPositive_step _ zero_le_one))
    · exact .refl
  have hrest : Updates options (do
      modify (·.applyGeneratorResets options i)
      modify (·.applyUpgradeResets options i)
      modify (·.incrementPrestigeCount options i)
      let c ← get
      updateForStep options c.lastUpdatedStep) :=
    .bind (.modify hgenerators) fun _ =>
      .bind (.modify hupgrades) fun _ =>
        .bind (.modify hcount) fun _ =>
          .bind .get fun c => updates_updateForStep options _
  exact plays_of_updates hrest t

theorem reserveConfirmationToken_final (token : String) (now : ℚ) (c : Coordinator sh) :
    ∃ tokens, final (reserveConfirmationToken token now c) = { c with usedTokens := tokens } := by
  change ∃ tokens, final ((if ((c.dropExpiredTokens now).usedTokens token).isSome then
    throw "Confirmation token has already been used"
    else modify fun c =>
      { c with usedTokens := Function.update c.usedTokens token (some now) } :
        ProgressionM sh Unit) (c.dropExpiredTokens now)) = _
  split
  · exact ⟨_, rfl⟩
  · exact ⟨_, rfl⟩

/-- The layer that is found is the one of that id, and unlocked. -/
theorem getUnlockedLayer_ok {layerId : String} {c t : Coordinator sh} {i : Fin sh.prestigeLayers}
    (h : getUnlockedLayer options layerId c = .ok i t) :
    t = c ∧ indexOfId (fun i => (options.content.prestigeLayers i).id) layerId = some i ∧
      (c.prestigeLayers i).isUnlocked = true := by
  rw [getUnlockedLayer] at h
  cases hindex : indexOfId (fun i => (options.content.prestigeLayers i).id) layerId with
  | none =>
    rw [hindex] at h
    cases h
  | some j =>
    rw [hindex] at h
    change (if (c.prestigeLayers j).isUnlocked then pure j
      else throw ("Prestige layer \"" ++ layerId ++ "\" is locked") :
        ProgressionM sh (Fin sh.prestigeLayers)) c = .ok i t at h
    split at h
    · next hunlocked =>
      obtain ⟨rfl, rfl⟩ : j = i ∧ c = t := by
        injection h with hi ht
        exact ⟨hi, ht⟩
      exact ⟨rfl, rfl, hunlocked⟩
    · cases h

theorem getUnlockedLayer_final (layerId : String) (c : Coordinator sh) :
    final (getUnlockedLayer options layerId c) = c := by
  rw [getUnlockedLayer]
  cases indexOfId (fun i => (options.content.prestigeLayers i).id) layerId with
  | none => rfl
  | some j =>
    change final ((if (c.prestigeLayers j).isUnlocked then pure j
      else throw ("Prestige layer \"" ++ layerId ++ "\" is locked") :
        ProgressionM sh (Fin sh.prestigeLayers)) c) = c
    split
    · rfl
    · rfl

/-- **Prestige.** Where the amounts that it would write are allowed, a prestige takes game steps. -/
theorem applyPrestige_steps (layerId : String) (confirmationToken : Option String) (now : ℚ)
    (h : c.PrestigeWrites options allowed layerId) :
    ReflTransGen (GameStep options allowed) c
      (final (applyPrestige options layerId confirmationToken now c)) := by
  rw [applyPrestige]
  cases confirmationToken.filter fun token => token != "" with
  | none => exact .refl
  | some token =>
    obtain ⟨tokens, htokens⟩ := reserveConfirmationToken_final token now c
    have hreserve : ∀ u t, reserveConfirmationToken token now c = .ok u t →
        t = { c with usedTokens := tokens } := by
      intro u t ht
      rw [ht] at htokens
      exact htokens
    refine bind_from ?_ fun u t ht => ?_
    · rw [htokens]
      exact .single (.coordinator (.rest rfl rfl id))
    obtain rfl := hreserve u t ht
    refine bind_from ?_ fun i t ht => ?_
    · rw [getUnlockedLayer_final]
    obtain ⟨rfl, hindex, hunlocked⟩ := getUnlockedLayer_ok ht
    refine bind_from (.single (.coordinator (.resources _
      (createPublishSnapshot_step _)))) fun u t ht => ?_
    obtain rfl : { c with usedTokens := tokens, resources := c.resources.createPublishSnapshot } = t :=
      by injection ht
    refine bind_from ((reads_readState _).performs _)
      fun context t ht => ?_
    obtain ⟨rfl, hcontext⟩ := readState_ok ht
    refine finishPrestige_steps i context _ fun target htarget => ?_
    have hwrites := h i hindex hunlocked context hcontext target htarget
    have hrecord : (c.resources.createPublishSnapshot.stored target.resource) =
        c.resources.stored target.resource := by rw [createPublishSnapshot_stored]
    exact hrecord ▸ hwrites

/-! ### Actions -/

/-- A game step of the coordinator, or a change of the accumulators. -/
def PlayStep (options : ProgressionOptions sh) (allowed : WithTop ℚ → ℚ → Prop)
    (p p' : Progression options) : Prop :=
  GameStep options allowed p.coordinator p'.coordinator ∨ p'.coordinator = p.coordinator

theorem plays_inCoordinator_from
    (h : ReflTransGen (GameStep options allowed) p.coordinator (final (m p.coordinator))) :
    ReflTransGen (PlayStep options allowed) p (final (inCoordinator m p)) :=
  zoom_at h rfl fun _ _ => .inl

theorem plays_inCoordinator (h : Performs (GameStep options allowed) m) :
    Performs (PlayStep options allowed) (inCoordinator m) :=
  fun p => plays_inCoordinator_from (h p.coordinator)

theorem plays_accumulators {f : Progression options → Progression options}
    (h : ∀ p, (f p).coordinator = p.coordinator) :
    Performs (PlayStep options allowed) (modify f : EStateM String (Progression options) PUnit) :=
  .modify fun p => .single (.inr (h p))

theorem plays_rest (h : ∀ c, CoordinatorStep options c (f c)) :
    Performs (GameStep options allowed) (modify f : ProgressionM sh PUnit) :=
  plays_of_updates (updates_rest options h)

theorem plays_hydrateCoordinatorResources (serialized : SerializedResourceState) :
    Performs (GameStep options allowed) (hydrateCoordinatorResources options serialized) := by
  intro c
  rw [hydrateCoordinatorResources]
  split
  · next hload => exact .single (.load c serialized hload)
  · exact .refl

theorem plays_restoreSection {name : String} {entries : Option (List α)}
    {restore : Coordinator sh → α → Coordinator sh}
    (h : ∀ c a, CoordinatorSteps options c (restore c a)) :
    Performs (GameStep options allowed) (restoreSection name entries restore) := by
  cases entries with
  | none => exact .throw _
  | some entries => exact plays_of_steps fun c => .foldl options h entries c

theorem restoreGenerator_step (entry : SerializedGenerator) :
    CoordinatorSteps options c (c.restoreGenerator options entry) := by
  rw [restoreGenerator]
  split
  · split
    · exact .single (.rest rfl rfl id)
    · exact .refl
  · exact .refl

theorem restoreUpgrade_steps (entry : SerializedUpgrade) :
    CoordinatorSteps options c (c.restoreUpgrade options entry) := by
  rw [restoreUpgrade]
  split
  · split
    · exact c.setUpgradePurchases_steps options _ _
    · exact .refl
  · exact .refl

theorem normalizeNonNegativeNumber_nonneg (value : JsNumber) :
    0 ≤ normalizeNonNegativeNumber value := by
  rw [normalizeNonNegativeNumber]
  split
  · split
    · exact le_refl 0
    · next h => exact not_lt.mp h
  · exact le_refl 0

theorem restoreAchievement_step (entry : SerializedAchievement) :
    CoordinatorSteps options c (c.restoreAchievement options entry) := by
  rw [restoreAchievement]
  split
  · split
    · refine .single (c.setAchievement_step options _ fun _ => ?_)
      exact normalizeNonNegativeNumber_nonneg entry.progress
    · exact .refl
  · exact .refl

theorem plays_restoreProgressionSections (serialized : SerializedProgression)
    (skipResources : Bool) :
    Performs (GameStep options allowed)
      (restoreProgressionSections options serialized skipResources) := by
  suffices hsections : Performs (GameStep options allowed) (do
      modify (·.resetGeneratorState)
      restoreSection "serialized.generators" serialized.generators
        (restoreGenerator options)
      modify (·.resetUpgradeState options)
      restoreSection "serialized.upgrades" serialized.upgrades (restoreUpgrade options)
      modify (·.resetAchievementState)
      if serialized.schemaVersion = 2 then
        restoreSection "serialized.achievements" serialized.achievements
          (restoreAchievement options)
      else pure ()) by
    refine .bind (reads_readState _).performs fun _ => ?_
    cases skipResources with
    | true => exact hsections
    | false =>
      exact .bind (plays_hydrateCoordinatorResources _) fun _ => hsections
  refine .bind (plays_rest fun _ => .rest rfl rfl id) fun _ => ?_
  refine .bind (plays_restoreSection restoreGenerator_step) fun _ => ?_
  refine .bind (plays_of_steps fun c => ?_) fun _ => ?_
  · exact .foldl options (fun c i => c.setUpgradePurchases_steps options i 0) _ c
  refine .bind (plays_restoreSection restoreUpgrade_steps) fun _ => ?_
  refine .bind (plays_rest fun _ => ?_) fun _ => ?_
  · exact .rest rfl rfl fun hc => ⟨hc.1, fun _ => le_refl 0, hc.2.2⟩
  split
  · exact plays_restoreSection restoreAchievement_step
  · exact .pure ()

theorem plays_loadProgression (resources : SerializedResourceState)
    (progression : Option SerializedProgression) :
    Performs (PlayStep options allowed) (loadProgression resources progression) := by
  refine .bind (plays_inCoordinator (plays_hydrateCoordinatorResources _)) fun _ => ?_
  cases progression with
  | none => exact .pure ()
  | some serialized =>
    refine .bind (plays_inCoordinator
      (plays_restoreProgressionSections serialized true)) fun _ => ?_
    refine .bind (plays_accumulators fun p => ?_) fun _ => ?_
    · cases serialized.productionAccumulators <;> rfl
    · exact plays_inCoordinator (plays_of_updates (updates_updateForStep options _))

theorem updates_getPrestigeQuote (layerId : String) :
    Updates options (getPrestigeQuote options layerId) := by
  rw [getPrestigeQuote]
  split
  · exact .pure _
  · refine .bind .get fun c => ?_
    refine .bind (updates_modifyResources options
      createPublishSnapshot_step) fun _ => ?_
    exact .bind (reads_readState _).performs fun _ => .pure _

/-- The amounts that an action writes directly are all allowed. -/
def ProgressionAction.Writes (allowed : WithTop ℚ → ℚ → Prop) (p : Progression options) :
    ProgressionAction options → Prop
  | .prestige layerId _ _ => p.coordinator.PrestigeWrites options allowed layerId
  | _ => True

/-- **Actions.** Whatever an action does is a sequence of game steps. -/
theorem Progression.after_steps (p : Progression options) (action : ProgressionAction options)
    (h : action.Writes allowed p) :
    ReflTransGen (PlayStep options allowed) p (p.after action) := by
  cases action with
  | call c hc =>
    exact plays_inCoordinator (.modify fun t => .single (.call t c hc)) p
  | publish =>
    exact plays_inCoordinator (plays_of_updates (updates_modifyResources options
      createPublishSnapshot_step)) p
  | update step =>
    exact plays_inCoordinator (plays_of_updates (updates_updateForStep options step)) p
  | incrementGenerator i count =>
    refine plays_inCoordinator (plays_rest fun c => ?_) p
    exact .rest rfl rfl id
  | enableGenerator i enabled =>
    refine plays_inCoordinator (plays_rest fun c => ?_) p
    exact .rest rfl rfl id
  | incrementUpgrade i =>
    exact plays_inCoordinator (plays_of_steps
      fun c => c.incrementUpgradePurchases_steps options i) p
  | setUpgrade i purchases =>
    exact plays_inCoordinator (plays_of_steps
      fun c => c.setUpgradePurchases_steps options i purchases) p
  | quoteUpgrades =>
    exact plays_inCoordinator (plays_of_steps
      fun c => c.getUpgradeEffects_steps options c.lastUpdatedStep) p
  | quotePrestige layerId =>
    exact plays_inCoordinator (plays_of_updates (.bind
      (updates_getPrestigeQuote layerId) fun _ => .pure _)) p
  | prestige layerId confirmationToken now =>
    exact plays_inCoordinator_from
      (applyPrestige_steps p.coordinator layerId confirmationToken now h)
  | accumulate a =>
    refine plays_accumulators (fun p => ?_) p
    rfl
  | load resources progression => exact plays_loadProgression resources progression p

end IdleEngine
