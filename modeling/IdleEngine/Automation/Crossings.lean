import IdleEngine.Automation.Thresholds

/-!
# Threshold automations fire on crossings

Between two evaluations of a threshold automation the player toggles it and the view is refreshed;
a run is any sequence of these. Along a run in which publishing and enqueueing do not throw, the
automation is an edge trigger, so it fires only where its comparison holds, fires twice only with an
evaluation in between at which it did not hold, never in its cooldown, and a crossing that could not
be paid for fires as soon as it can be.

A save keeps what the trigger keeps, but for one thing: what was never evaluated is left out of the
JSON text, and restoring then keeps what the system that is restored into remembers. Where that is
not a comparison that holds, a run goes on after a restore as it would have without one
(`threshold_fires_on_crossings`).
-/

namespace IdleEngine

open Stateful EdgeTrigger JsNumber Option

variable {n : ℕ}

/-! ### Runs -/

/-- What happens to an automation. -/
inductive AutomationMoment (n : ℕ)
  | evaluate (step : ℚ) (pendingEventTriggers : List String) (world : AutomationWorld n)
  /-- The event `automation:toggled`. -/
  | toggle (enabled : Bool)
  /-- `refreshViewState`. -/
  | refresh (resources : ResourceState n)

section Runs

variable (options : AutomationSystemOptions n) (automation : AutomationDefinition)
  (cloneStructured : JsValue → Except String JsValue)

/-- The state after a moment. -/
def momentAfter (state : AutomationState) : AutomationMoment n → AutomationState
  | .evaluate step pendingEventTriggers world =>
    ((evaluated options automation step cloneStructured pendingEventTriggers state
      world).automationStates.get? automation.id).getD state
  | .toggle enabled => { state with enabled }
  | .refresh resources =>
    { state with unlocked := (options.ensureAutomationUnlocked automation state
        resources).toOption.getD state.unlocked }

/-- Whether the automation fires at a moment. -/
def momentFires (state : AutomationState) : AutomationMoment n → Bool
  | .evaluate step pendingEventTriggers world =>
    firesAt options automation step pendingEventTriggers state world
  | _ => false

/-- What an evaluation sees; nothing where it does not come to the comparison. -/
def momentLook (state : AutomationState) : AutomationMoment n → Option (Look ℚ)
  | .evaluate step _ world => lookAt options automation step state world
  | _ => none

/-- Publishing and enqueueing do not throw. -/
def MomentUnhindered (state : AutomationState) : AutomationMoment n → Prop
  | .evaluate step pendingEventTriggers world =>
    Unhindered options automation step cloneStructured pendingEventTriggers state world
  | _ => True

/-- The state after a run. -/
def stateAfter (state : AutomationState) (moments : List (AutomationMoment n)) :
    AutomationState :=
  moments.foldl (momentAfter options automation cloneStructured) state

/-- Publishing and enqueueing never throw in a run. -/
def RunUnhindered : AutomationState → List (AutomationMoment n) → Prop
  | _, [] => True
  | state, moment :: moments =>
    MomentUnhindered options automation cloneStructured state moment ∧
      RunUnhindered (momentAfter options automation cloneStructured state moment) moments

/-- What is seen along a run. -/
def looksOf : AutomationState → List (AutomationMoment n) → List (Look ℚ)
  | _, [] => []
  | state, moment :: moments =>
    (momentLook options automation state moment).toList ++
      looksOf (momentAfter options automation cloneStructured state moment) moments

/-- The firings of a run, moment by moment. -/
def firings : AutomationState → List (AutomationMoment n) → List Bool
  | _, [] => []
  | state, moment :: moments =>
    momentFires options automation state moment ::
      firings (momentAfter options automation cloneStructured state moment) moments

end Runs

/-! ### Moments are looks -/

section Simulation

variable {options : AutomationSystemOptions n} {automation : AutomationDefinition}
  {cloneStructured : JsValue → Except String JsValue} {state : AutomationState}
  {resourceId : String} {comparator : Comparator} {threshold : NumericFormula} {math : FormulaMath}
  (htrigger : automation.trigger = .resourceThreshold resourceId comparator threshold)
  (haccepted : ∀ cooldown, automation.cooldown = some cooldown → AcceptedFormula math cooldown)

include htrigger haccepted

/-- A moment that sees something is a look of the trigger, and any other one leaves it as it is. -/
theorem moment_simulates {moment : AutomationMoment n}
    (hfree : MomentUnhindered options automation cloneStructured state moment) :
    (momentLook options automation state moment = none ∧
        momentFires options automation state moment = false ∧
        (momentAfter options automation cloneStructured state moment).edge = state.edge) ∨
      ∃ look, momentLook options automation state moment = some look ∧
        momentFires options automation state moment = state.edge.fires look ∧
        (momentAfter options automation cloneStructured state moment).edge =
          state.edge.next look := by
  cases moment with
  | toggle enabled => exact .inl ⟨rfl, rfl, rfl⟩
  | refresh resources => exact .inl ⟨rfl, rfl, rfl⟩
  | evaluate step pendingEventTriggers world =>
    cases hlook : lookAt options automation step state world with
    | none =>
      obtain ⟨hfires, state', hstate', hbecomes⟩ := @evaluate_unseen n options automation step world
        state pendingEventTriggers cloneStructured _ _ _ htrigger hlook
      refine .inl ⟨hlook, hfires, ?_⟩
      rw [momentAfter, hstate', getD_some, hbecomes.edge]
    | some look =>
      obtain ⟨hfires, state', hstate', hbecomes⟩ := evaluate_seen htrigger haccepted hlook hfree
      refine .inr ⟨look, hlook, hfires, ?_⟩
      rw [momentAfter, hstate', getD_some, hbecomes.edge]

/-- A run does to the trigger what its looks do. -/
theorem stateAfter_edge {moments : List (AutomationMoment n)}
    (hfree : RunUnhindered options automation cloneStructured state moments) :
    (stateAfter options automation cloneStructured state moments).edge =
      state.edge.after (looksOf options automation cloneStructured state moments) := by
  induction moments generalizing state with
  | nil => rfl
  | cons moment moments ih =>
    have hrest := ih hfree.2
    change (stateAfter options automation cloneStructured
      (momentAfter options automation cloneStructured state moment) moments).edge = _
    rcases moment_simulates htrigger haccepted hfree.1 with
      ⟨hlook, -, hedge⟩ | ⟨look, hlook, -, hedge⟩
    · rw [hrest, hedge, looksOf, hlook, toList_none, List.nil_append]
    · rw [hrest, hedge, looksOf, hlook, toList_some]
      rfl

end Simulation

variable {options : AutomationSystemOptions n} {automation : AutomationDefinition}
  {state : AutomationState}

/-- What is seen along a run is seen at one of its moments. -/
theorem exists_moment_of_mem {cloneStructured : JsValue → Except String JsValue}
    {moments : List (AutomationMoment n)} {look : Look ℚ}
    (h : look ∈ looksOf options automation cloneStructured state moments) :
    ∃ before moment later, moments = before ++ moment :: later ∧
      momentLook options automation (stateAfter options automation cloneStructured state before)
        moment = some look := by
  induction moments generalizing state with
  | nil => cases h
  | cons moment moments ih =>
    rcases List.mem_append.mp h with hhere | hlater
    · exact ⟨[], moment, moments, rfl, mem_toList.mp hhere⟩
    · obtain ⟨before, seen, later, rfl, hlook⟩ := ih hlater
      exact ⟨moment :: before, seen, later, rfl, hlook⟩

theorem momentLook_time {moment : AutomationMoment n} {look : Look ℚ}
    (h : momentLook options automation state moment = some look) :
    ∃ pendingEventTriggers world, moment = .evaluate look.time pendingEventTriggers world := by
  cases moment with
  | toggle enabled => cases h
  | refresh resources => cases h
  | evaluate step pendingEventTriggers world =>
    rw [momentLook, lookAt] at h
    split at h
    · obtain ⟨holds, -, rfl⟩ := map_eq_some_iff.mp h
      exact ⟨pendingEventTriggers, world, rfl⟩
    · cases h

theorem runUnhindered_append {cloneStructured : JsValue → Except String JsValue}
    {moments moments' : List (AutomationMoment n)} :
    RunUnhindered options automation cloneStructured state (moments ++ moments') ↔
      RunUnhindered options automation cloneStructured state moments ∧
        RunUnhindered options automation cloneStructured
          (stateAfter options automation cloneStructured state moments) moments' := by
  induction moments generalizing state with
  | nil => exact ⟨fun h => ⟨trivial, h⟩, And.right⟩
  | cons moment moments ih =>
    change _ ∧ RunUnhindered _ _ _ _ (moments ++ moments') ↔ (_ ∧ _) ∧ _
    rw [ih, and_assoc]
    rfl

theorem JsNumber.fin_lt_fin {a b : ℚ} : (fin a).lt (.fin b) = true ↔ a < b := by
  simp only [lt, le, Bool.and_eq_true, decide_eq_true_eq, Bool.not_eq_true',
    decide_eq_false_iff_not, not_le]
  exact ⟨And.right, fun h => ⟨h.le, h⟩⟩

theorem closed_isCooldownActive (state : AutomationState) :
    Closed (isCooldownActive state) := by
  intro t t' hle hactive
  rw [isCooldownActive] at hactive ⊢
  cases hexpires : state.cooldownExpiresStep with
  | fin expires =>
    rw [hexpires] at hactive
    exact fin_lt_fin.mpr (hle.trans_lt (fin_lt_fin.mp hactive))
  | posInf => rfl
  | negInf =>
    rw [hexpires] at hactive
    cases hactive
  | nan =>
    rw [hexpires] at hactive
    cases hactive

/-! ### Saves -/

/-- `SerializedAutomationState`, as it comes out of the text of a save: a number that is not finite
is null there, and a field that is undefined is missing. -/
structure SerializedAutomationState where
  enabled : Bool
  lastFiredStep : Option ℚ
  cooldownExpiresStep : Option ℚ
  unlocked : Bool
  lastThresholdSatisfied : Option Bool

/-- `serializeAutomationState`, of one automation. -/
def serializeAutomationState (state : AutomationState) : SerializedAutomationState :=
  { enabled := state.enabled
    lastFiredStep := state.lastFiredStep.finite?
    cooldownExpiresStep := state.cooldownExpiresStep.finite?
    unlocked := state.unlocked
    lastThresholdSatisfied := state.lastThresholdSatisfied }

/-- `rebaseDelta` of `createAutomationRestoreTimeline`. -/
def rebaseDelta (savedWorkerStep currentStep : Option ℚ) : ℚ :=
  savedWorkerStep.elim 0 fun savedWorkerStep => currentStep.getD 0 - savedWorkerStep

/-- `applyRestoredAutomationState`. -/
def applyRestoredAutomationState (existing : AutomationState)
    (restored : SerializedAutomationState) (rebaseDelta : ℚ) : AutomationState :=
  { enabled := restored.enabled
    unlocked := restored.unlocked
    lastFiredStep := restored.lastFiredStep.elim .negInf fun last => .fin (last + rebaseDelta)
    cooldownExpiresStep := restored.cooldownExpiresStep.elim existing.cooldownExpiresStep
      fun expires => .fin (expires + rebaseDelta)
    -- a field that is missing leaves what the system has
    lastThresholdSatisfied := restored.lastThresholdSatisfied.orElse fun _ =>
      existing.lastThresholdSatisfied }

/-- A moment of a run, or a save that is restored into a system with a state of its own. -/
inductive SavedMoment (n : ℕ)
  | moment (moment : AutomationMoment n)
  | restore (existing : AutomationState) (savedWorkerStep currentStep : Option ℚ)

section SavedRuns

variable (options : AutomationSystemOptions n) (automation : AutomationDefinition)
  (cloneStructured : JsValue → Except String JsValue)

/-- The state after a save was restored. -/
def restoredFrom (state existing : AutomationState) (savedWorkerStep currentStep : Option ℚ) :
    AutomationState :=
  applyRestoredAutomationState existing (serializeAutomationState state)
    (rebaseDelta savedWorkerStep currentStep)

/-- The firings of a run with saves; a restore is no moment. -/
def savedFirings : AutomationState → List (SavedMoment n) → List Bool
  | _, [] => []
  | state, .moment moment :: moments =>
    momentFires options automation state moment ::
      savedFirings (momentAfter options automation cloneStructured state moment) moments
  | state, .restore existing savedWorkerStep currentStep :: moments =>
    savedFirings (restoredFrom state existing savedWorkerStep currentStep) moments

/-- Publishing and enqueueing never throw in a run with saves. -/
def SavedRunUnhindered : AutomationState → List (SavedMoment n) → Prop
  | _, [] => True
  | state, .moment moment :: moments =>
    MomentUnhindered options automation cloneStructured state moment ∧
      SavedRunUnhindered (momentAfter options automation cloneStructured state moment) moments
  | state, .restore existing savedWorkerStep currentStep :: moments =>
    SavedRunUnhindered (restoredFrom state existing savedWorkerStep currentStep) moments

/-- What was never evaluated is not restored into a system that remembers a comparison as
holding. -/
def KeepsEdges : AutomationState → List (SavedMoment n) → Prop
  | _, [] => True
  | state, .moment moment :: moments =>
    KeepsEdges (momentAfter options automation cloneStructured state moment) moments
  | state, .restore existing savedWorkerStep currentStep :: moments =>
    (state.lastThresholdSatisfied = none → existing.lastThresholdSatisfied ≠ some true) ∧
      KeepsEdges (restoredFrom state existing savedWorkerStep currentStep) moments

/-- Two moments see the same, on clocks that differ by `δ`; the second time is that of the first
moment. -/
inductive SameMoment (now δ : ℚ) : AutomationMoment n → AutomationMoment n → ℚ → Prop
  | toggle (enabled : Bool) : SameMoment now δ (.toggle enabled) (.toggle enabled) now
  | refresh {resources resources' : ResourceState n}
      (hunlocks : ∀ state, options.ensureAutomationUnlocked automation state resources' =
        options.ensureAutomationUnlocked automation state resources) :
      SameMoment now δ (.refresh resources) (.refresh resources') now
  | evaluate {step : ℚ} {pendingEventTriggers pendingEventTriggers' : List String}
      {world world' : AutomationWorld n} (hnow : now ≤ step)
      (hunlocks : ∀ state, options.ensureAutomationUnlocked automation state world'.resources =
        options.ensureAutomationUnlocked automation state world.resources)
      (hcompares : thresholdComparison options automation (step + δ) world'.resources =
        thresholdComparison options automation step world.resources)
      (hpays : (paidFor options automation (step + δ) world'.resources).isSome =
        (paidFor options automation step world.resources).isSome)
      (hrests : ∀ t, step ≤ t →
        cooldownAfter options automation (step + δ) world'.resources (t + δ) =
          cooldownAfter options automation step world.resources t) :
      SameMoment now δ (.evaluate step pendingEventTriggers world)
        (.evaluate (step + δ) pendingEventTriggers' world') step

/-- A run with saves goes through the moments of a run without; every restore moves the clock. -/
inductive Replays : ℚ → ℚ → List (AutomationMoment n) → List (SavedMoment n) → Prop
  | nil (now δ : ℚ) : Replays now δ [] []
  | moment {now δ next : ℚ} {moment moment' : AutomationMoment n}
      {moments : List (AutomationMoment n)} {saved : List (SavedMoment n)}
      (h : SameMoment options automation now δ moment moment' next)
      (hrest : Replays next δ moments saved) :
      Replays now δ (moment :: moments) (.moment moment' :: saved)
  | restore {now δ : ℚ} (existing : AutomationState) (savedWorkerStep currentStep : Option ℚ)
      {moments : List (AutomationMoment n)} {saved : List (SavedMoment n)}
      (hrest : Replays now (δ + rebaseDelta savedWorkerStep currentStep) moments saved) :
      Replays now δ moments (.restore existing savedWorkerStep currentStep :: saved)

end SavedRuns

/-! ### A run goes on after a restore -/

/-- From now on the second clock is ahead by `δ`. -/
def Ahead (now δ t t' : ℚ) : Prop := now ≤ t ∧ t' = t + δ

/-- The automation of the second run is that of the first one. -/
structure Resumed (now δ : ℚ) (state state' : AutomationState) : Prop where
  enabled : state'.enabled = state.enabled
  unlocked : state'.unlocked = state.unlocked
  edge : Matches (Ahead now δ) state.edge state'.edge
  finite : ∃ expires, state'.cooldownExpiresStep = .fin expires

theorem ensureAutomationUnlocked_congr {state' : AutomationState}
    (h : state'.unlocked = state.unlocked) (resources : ResourceState n) :
    options.ensureAutomationUnlocked automation state' resources =
      options.ensureAutomationUnlocked automation state resources := by
  unfold AutomationSystemOptions.ensureAutomationUnlocked
  rw [h]

theorem cooldownExpires_finite (hduration : 0 < options.stepDurationMs) {step : ℚ}
    {resources : ResourceState n} {expires : JsNumber}
    (h : options.cooldownExpires automation step resources = .ok expires) :
    ∃ value, expires = .fin value := by
  unfold AutomationSystemOptions.cooldownExpires at h
  split at h
  · exact ⟨0, (Except.ok.inj h).symm⟩
  · obtain ⟨cooldownMs, -, rfl⟩ := Outcome.map_ok h
    cases cooldownMs with
    | fin ms =>
      dsimp only
      split
      · exact ⟨0, rfl⟩
      · unfold AutomationSystemOptions.stepsOf
        simp only [if_neg hduration.ne']
        exact ⟨_, rfl⟩
    | posInf => exact ⟨0, rfl⟩
    | negInf => exact ⟨0, rfl⟩
    | nan => exact ⟨0, rfl⟩

section Resume

variable {options : AutomationSystemOptions n} {automation : AutomationDefinition}
  {cloneStructured : JsValue → Except String JsValue} {state state' : AutomationState}
  {now δ next : ℚ}

/-- Matching automations see alike. -/
theorem lookAt_alike {step : ℚ} {world world' : AutomationWorld n}
    (h : Resumed now δ state state')
    (hunlocks : ∀ state, options.ensureAutomationUnlocked automation state world'.resources =
      options.ensureAutomationUnlocked automation state world.resources)
    (hcompares : thresholdComparison options automation (step + δ) world'.resources =
      thresholdComparison options automation step world.resources)
    (hpays : (paidFor options automation (step + δ) world'.resources).isSome =
      (paidFor options automation step world.resources).isSome)
    (hrests : ∀ t, step ≤ t →
      cooldownAfter options automation (step + δ) world'.resources (t + δ) =
        cooldownAfter options automation step world.resources t) :
    (lookAt options automation step state world = none ∧
        lookAt options automation (step + δ) state' world' = none) ∨
      ∃ look look', lookAt options automation step state world = some look ∧
        lookAt options automation (step + δ) state' world' = some look' ∧
        Alike (Ahead step δ) look look' := by
  have hunlock : options.ensureAutomationUnlocked automation state' world'.resources =
      options.ensureAutomationUnlocked automation state world.resources :=
    (hunlocks state').trans (ensureAutomationUnlocked_congr h.unlocked _)
  rw [lookAt, lookAt, hunlock, h.enabled, hcompares]
  split
  · cases thresholdComparison options automation step world.resources with
    | error e => exact .inl ⟨rfl, rfl⟩
    | ok holds =>
      refine .inr ⟨_, _, rfl, rfl, ⟨le_rfl, rfl⟩, rfl, hpays, ?_⟩
      rintro t _ ⟨hle, rfl⟩
      exact hrests t hle
  · exact .inl ⟨rfl, rfl⟩

/-- A restore keeps the trigger, if it does not bring in what the save has left out. -/
theorem Resumed.restore (h : Resumed now δ state state') {existing : AutomationState}
    (hkeeps : state'.lastThresholdSatisfied = none → existing.lastThresholdSatisfied ≠ some true)
    (savedWorkerStep currentStep : Option ℚ) :
    Resumed now (δ + rebaseDelta savedWorkerStep currentStep) state
      (restoredFrom state' existing savedWorkerStep currentStep) := by
  obtain ⟨expires, hexpires⟩ := h.finite
  have hcooldown : (restoredFrom state' existing savedWorkerStep currentStep).cooldownExpiresStep =
      .fin (expires + rebaseDelta savedWorkerStep currentStep) := by
    rw [restoredFrom, serializeAutomationState, applyRestoredAutomationState, hexpires]
    rfl
  refine ⟨h.enabled, h.unlocked, ⟨?_, ?_⟩, _, hcooldown⟩
  · rw [← h.edge.remembered]
    change ((state'.lastThresholdSatisfied.orElse fun _ =>
      existing.lastThresholdSatisfied).getD false) = state'.lastThresholdSatisfied.getD false
    cases hlast : state'.lastThresholdSatisfied with
    | some last => rfl
    | none =>
      have hforgot := hkeeps hlast
      cases hexisting : existing.lastThresholdSatisfied with
      | none => rfl
      | some remembered =>
        cases remembered with
        | false => rfl
        | true => exact absurd hexisting hforgot
  · rintro t _ ⟨hnow, rfl⟩
    rw [← h.edge.rests t (t + δ) ⟨hnow, rfl⟩]
    change (fin _).lt _ = (fin _).lt _
    rw [hcooldown, hexpires, Bool.eq_iff_iff, fin_lt_fin, fin_lt_fin, ← add_assoc]
    exact add_lt_add_iff_right _

/-- The cooldown of an automation that was evaluated is finite. -/
theorem Becomes.finite {unlocked : Bool} {edge : State ℚ}
    (h : Becomes options automation state unlocked edge state')
    (hduration : 0 < options.stepDurationMs)
    (hfinite : ∃ expires, state.cooldownExpiresStep = .fin expires) :
    ∃ expires, state'.cooldownExpiresStep = .fin expires := by
  rcases h.cooldown with hsame | ⟨step, paid, hcomputed⟩
  · rw [hsame]
    exact hfinite
  · exact cooldownExpires_finite hduration hcomputed

variable {resourceId : String} {comparator : Comparator} {threshold : NumericFormula}
  {math : FormulaMath}
  (htrigger : automation.trigger = .resourceThreshold resourceId comparator threshold)
  (haccepted : ∀ cooldown, automation.cooldown = some cooldown → AcceptedFormula math cooldown)
  (hduration : 0 < options.stepDurationMs)

include htrigger haccepted hduration

/-- Moments that see the same fire alike, and leave matching automations. -/
theorem Resumed.moment {moment moment' : AutomationMoment n} (h : Resumed now δ state state')
    (hsame : SameMoment options automation now δ moment moment' next)
    (hfree : MomentUnhindered options automation cloneStructured state moment)
    (hfree' : MomentUnhindered options automation cloneStructured state' moment') :
    momentFires options automation state' moment' = momentFires options automation state moment ∧
      Resumed next δ (momentAfter options automation cloneStructured state moment)
        (momentAfter options automation cloneStructured state' moment') := by
  cases hsame with
  | toggle enabled => exact ⟨rfl, rfl, h.unlocked, h.edge, h.finite⟩
  | refresh hunlocks =>
    refine ⟨rfl, h.enabled, ?_, h.edge, h.finite⟩
    change (options.ensureAutomationUnlocked automation state' _).toOption.getD state'.unlocked =
      (options.ensureAutomationUnlocked automation state _).toOption.getD state.unlocked
    rw [hunlocks, ensureAutomationUnlocked_congr h.unlocked, h.unlocked]
  | @evaluate _ pendingEventTriggers pendingEventTriggers' world world' hnow hunlocks hcompares
      hpays hrests =>
    have hlater : Matches (Ahead next δ) state.edge state'.edge :=
      h.edge.mono fun t t' ht => ⟨hnow.trans ht.1, ht.2⟩
    rcases lookAt_alike h hunlocks hcompares hpays hrests with
      ⟨hlook, hlook'⟩ | ⟨look, look', hlook, hlook', halike⟩
    · obtain ⟨hfires, after, hafter, hbecomes⟩ := @evaluate_unseen n options automation next world
        state pendingEventTriggers cloneStructured _ _ _ htrigger hlook
      obtain ⟨hfires', after', hafter', hbecomes'⟩ := @evaluate_unseen n options automation
        (next + δ) world' state' pendingEventTriggers' cloneStructured _ _ _ htrigger hlook'
      refine ⟨hfires'.trans hfires.symm, ?_⟩
      rw [momentAfter, momentAfter, hafter, hafter', getD_some, getD_some]
      refine ⟨?_, ?_, ?_, hbecomes'.finite hduration h.finite⟩
      · rw [hbecomes'.enabled, hbecomes.enabled, h.enabled]
      · rw [hbecomes'.unlocked, hbecomes.unlocked, hunlocks,
          ensureAutomationUnlocked_congr h.unlocked, h.unlocked]
      · rwa [hbecomes'.edge, hbecomes.edge]
    · obtain ⟨hfires, after, hafter, hbecomes⟩ := evaluate_seen htrigger haccepted hlook hfree
      obtain ⟨hfires', after', hafter', hbecomes'⟩ := evaluate_seen htrigger haccepted hlook'
        hfree'
      refine ⟨hfires'.trans ((hlater.fires halike).trans hfires.symm), ?_⟩
      rw [momentAfter, momentAfter, hafter, hafter', getD_some, getD_some]
      refine ⟨?_, ?_, ?_, hbecomes'.finite hduration h.finite⟩
      · rw [hbecomes'.enabled, hbecomes.enabled, h.enabled]
      · rw [hbecomes'.unlocked, hbecomes.unlocked]
      · rw [hbecomes'.edge, hbecomes.edge]
        exact hlater.next halike

/-- **A run with saves fires like the run without.** -/
theorem Replays.firings_eq {moments : List (AutomationMoment n)} {saved : List (SavedMoment n)}
    (hreplays : Replays options automation now δ moments saved)
    (h : Resumed now δ state state')
    (hfree : RunUnhindered options automation cloneStructured state moments)
    (hfree' : SavedRunUnhindered options automation cloneStructured state' saved)
    (hkeeps : KeepsEdges options automation cloneStructured state' saved) :
    savedFirings options automation cloneStructured state' saved =
      firings options automation cloneStructured state moments := by
  induction hreplays generalizing state state' with
  | nil => rfl
  | moment hsame _ ih =>
    obtain ⟨hfires, hnext⟩ := h.moment htrigger haccepted hduration hsame hfree.1 hfree'.1
    rw [savedFirings, firings, hfires, ih hnext hfree.2 hfree'.2 hkeeps]
  | restore existing savedWorkerStep currentStep _ ih =>
    exact ih (h.restore hkeeps.1 savedWorkerStep currentStep) hfree hfree' hkeeps.2

end Resume

/-! ### Crossings -/

section Crossings

variable (options : AutomationSystemOptions n) (automation : AutomationDefinition)
  (cloneStructured : JsValue → Except String JsValue)

/-- What a threshold automation does along every run in which publishing and enqueueing do not
throw. -/
structure FiresOnCrossings : Prop where
  /-- It fires only at an evaluation at which its comparison holds. -/
  holds : ∀ state moment, MomentUnhindered options automation cloneStructured state moment →
    momentFires options automation state moment = true →
      ∃ look, momentLook options automation state moment = some look ∧ look.holds = true
  /-- Between two firings there is an evaluation at which it did not hold. -/
  once : ∀ state first between second,
    RunUnhindered options automation cloneStructured state (first :: between ++ [second]) →
    momentFires options automation state first = true →
    momentFires options automation
      (stateAfter options automation cloneStructured state (first :: between)) second = true →
      ∃ before moment later look, between = before ++ moment :: later ∧
        momentLook options automation
          (stateAfter options automation cloneStructured state (first :: before)) moment =
            some look ∧
        look.holds = false
  /-- It does not fire in the cooldown that a firing has begun. -/
  cooldown : ∀ state first between step pendingEventTriggers world,
    RunUnhindered options automation cloneStructured state
      (first :: between ++ [.evaluate step pendingEventTriggers world]) →
    (∀ earlier pendingEventTriggers world,
      .evaluate earlier pendingEventTriggers world ∈ between → earlier ≤ step) →
    momentFires options automation state first = true →
    momentFires options automation
      (stateAfter options automation cloneStructured state (first :: between))
      (.evaluate step pendingEventTriggers world) = true →
      isCooldownActive (momentAfter options automation cloneStructured state first) step = false
  /-- A crossing that could not be paid for fires at the first evaluation at which it can be and the
  comparison holds. -/
  unpaid : ∀ state first between second look last,
    RunUnhindered options automation cloneStructured state (first :: between ++ [second]) →
    momentLook options automation state first = some look →
    look.holds = true → state.lastThresholdSatisfied.getD false = false →
    isCooldownActive state look.time = false → look.pays = false →
    (∀ before moment later seen, between = before ++ moment :: later →
      momentLook options automation
        (stateAfter options automation cloneStructured state (first :: before)) moment =
          some seen →
      ¬ (seen.holds = true ∧ seen.pays = true)) →
    momentLook options automation
      (stateAfter options automation cloneStructured state (first :: between)) second =
        some last →
    look.time ≤ last.time → last.holds = true → last.pays = true →
      momentFires options automation
        (stateAfter options automation cloneStructured state (first :: between)) second = true
  /-- Saves and restores add and remove no firing, where what was never evaluated is not restored
  into a system that remembers its comparison as holding. -/
  saved : ∀ state now moments saved, (∃ expires, state.cooldownExpiresStep = .fin expires) →
    Replays options automation now 0 moments saved →
    RunUnhindered options automation cloneStructured state moments →
    SavedRunUnhindered options automation cloneStructured state saved →
    KeepsEdges options automation cloneStructured state saved →
      savedFirings options automation cloneStructured state saved =
        firings options automation cloneStructured state moments

end Crossings

section Proofs

variable {options : AutomationSystemOptions n} {automation : AutomationDefinition}
  {cloneStructured : JsValue → Except String JsValue} {state : AutomationState}
  {first second : AutomationMoment n} {between : List (AutomationMoment n)}
  {resourceId : String} {comparator : Comparator} {threshold : NumericFormula} {math : FormulaMath}
  (htrigger : automation.trigger = .resourceThreshold resourceId comparator threshold)
  (haccepted : ∀ cooldown, automation.cooldown = some cooldown → AcceptedFormula math cooldown)

include htrigger haccepted

/-- A firing is one of the trigger, at a look. -/
theorem exists_look_of_fires
    (hfree : MomentUnhindered options automation cloneStructured state first)
    (hfires : momentFires options automation state first = true) :
    ∃ look, momentLook options automation state first = some look ∧
      state.edge.fires look = true ∧
      (momentAfter options automation cloneStructured state first).edge = state.edge.next look := by
  rcases moment_simulates htrigger haccepted hfree with
    ⟨-, hquiet, -⟩ | ⟨look, hlook, hsame, hedge⟩
  · rw [hquiet] at hfires
    cases hfires
  · exact ⟨look, hlook, hsame ▸ hfires, hedge⟩

/-- The trigger after a look and a run. -/
theorem edge_between {look : Look ℚ}
    (hfree : RunUnhindered options automation cloneStructured state (first :: between ++ [second]))
    (hedge : (momentAfter options automation cloneStructured state first).edge =
      state.edge.next look) :
    (stateAfter options automation cloneStructured state (first :: between)).edge =
      (state.edge.next look).after (looksOf options automation cloneStructured
        (momentAfter options automation cloneStructured state first) between) := by
  rw [← hedge]
  exact stateAfter_edge htrigger haccepted (runUnhindered_append.mp hfree.2).1

omit htrigger haccepted in
theorem second_unhindered
    (hfree : RunUnhindered options automation cloneStructured state
      (first :: between ++ [second])) :
    MomentUnhindered options automation cloneStructured
      (stateAfter options automation cloneStructured state (first :: between)) second :=
  (runUnhindered_append.mp hfree.2).2.1

/-- Between two firings there is a look at which the comparison did not hold. -/
theorem fires_once
    (hfree : RunUnhindered options automation cloneStructured state (first :: between ++ [second]))
    (hfirst : momentFires options automation state first = true)
    (hsecond : momentFires options automation
      (stateAfter options automation cloneStructured state (first :: between)) second = true) :
    ∃ before moment later look, between = before ++ moment :: later ∧
      momentLook options automation
        (stateAfter options automation cloneStructured state (first :: before)) moment =
          some look ∧
      look.holds = false := by
  obtain ⟨look, -, hfires, hedge⟩ := exists_look_of_fires htrigger haccepted hfree.1 hfirst
  obtain ⟨look', -, hfires', -⟩ := exists_look_of_fires htrigger haccepted
    (second_unhindered hfree) hsecond
  rw [edge_between htrigger haccepted hfree hedge] at hfires'
  obtain ⟨seen, hseen, hfalse⟩ := exists_not_holds hfires hfires'
  obtain ⟨before, moment, later, rfl, hlook⟩ := exists_moment_of_mem hseen
  exact ⟨before, moment, later, seen, rfl, hlook, hfalse⟩

/-- Nothing fires in the cooldown that a firing has begun. -/
theorem fires_after_cooldown {step : ℚ} {pendingEventTriggers : List String}
    {world : AutomationWorld n}
    (hfree : RunUnhindered options automation cloneStructured state
      (first :: between ++ [.evaluate step pendingEventTriggers world]))
    (horder : ∀ earlier pendingEventTriggers world,
      .evaluate earlier pendingEventTriggers world ∈ between → earlier ≤ step)
    (hfirst : momentFires options automation state first = true)
    (hsecond : momentFires options automation
      (stateAfter options automation cloneStructured state (first :: between))
      (.evaluate step pendingEventTriggers world) = true) :
    isCooldownActive (momentAfter options automation cloneStructured state first) step = false := by
  obtain ⟨look, -, hfires, hedge⟩ := exists_look_of_fires htrigger haccepted hfree.1 hfirst
  obtain ⟨look', hlook', hfires', -⟩ := exists_look_of_fires htrigger haccepted
    (second_unhindered hfree) hsecond
  rw [edge_between htrigger haccepted hfree hedge] at hfires'
  obtain ⟨_, _, hmoment⟩ := momentLook_time hlook'
  obtain ⟨rfl, -, -⟩ := AutomationMoment.evaluate.inj hmoment
  -- the rest of the firing is the cooldown in the state after it
  have hrest : isCooldownActive (momentAfter options automation cloneStructured state first) =
      look.rest := by
    rw [next_of_fires hfires] at hedge
    exact congrArg State.rests hedge
  have hclosed := closed_isCooldownActive
    (momentAfter options automation cloneStructured state first)
  rw [hrest] at hclosed ⊢
  refine rested hclosed (fun seen hseen => ?_) hfires hfires'
  obtain ⟨before, moment, later, rfl, hlook⟩ := exists_moment_of_mem hseen
  obtain ⟨pendingEventTriggers, world, rfl⟩ := momentLook_time hlook
  exact horder _ _ _ (List.mem_append_right _ List.mem_cons_self)

/-- A crossing that could not be paid for fires as soon as it can be. -/
theorem fires_when_payable {look last : Look ℚ}
    (hfree : RunUnhindered options automation cloneStructured state (first :: between ++ [second]))
    (hlook : momentLook options automation state first = some look)
    (hforgot : state.lastThresholdSatisfied.getD false = false)
    (hawake : isCooldownActive state look.time = false) (hunpaid : look.pays = false)
    (hbetween : ∀ before moment later seen, between = before ++ moment :: later →
      momentLook options automation
        (stateAfter options automation cloneStructured state (first :: before)) moment =
          some seen →
      ¬ (seen.holds = true ∧ seen.pays = true))
    (hlast : momentLook options automation
      (stateAfter options automation cloneStructured state (first :: between)) second = some last)
    (htime : look.time ≤ last.time) (hholds : last.holds = true) (hpays : last.pays = true) :
    momentFires options automation
      (stateAfter options automation cloneStructured state (first :: between)) second = true := by
  rcases moment_simulates htrigger haccepted hfree.1 with ⟨hnone, -⟩ | ⟨look', hlook', -, hedge⟩
  · rw [hlook] at hnone
    cases hnone
  obtain rfl := some.inj (hlook.symm.trans hlook')
  rcases moment_simulates htrigger haccepted (second_unhindered hfree) with
    ⟨hnone, -⟩ | ⟨last', hlast', hfires, -⟩
  · rw [hlast] at hnone
    cases hnone
  obtain rfl := some.inj (hlast.symm.trans hlast')
  rw [hfires, edge_between htrigger haccepted hfree hedge]
  refine fires_of_unpaid (closed_isCooldownActive state) hawake hforgot ?_ htime hholds hpays
  intro seen hseen
  rcases List.mem_cons.mp hseen with rfl | hseen
  · exact fun hboth => Bool.false_ne_true (hunpaid.symm.trans hboth.2)
  · obtain ⟨before, moment, later, rfl, hseenLook⟩ := exists_moment_of_mem hseen
    exact hbetween before moment later seen rfl hseenLook

end Proofs

/-- **Threshold automations fire on crossings only**, with the cooldown formulas of the schema and
steps of a positive duration; a restore keeps that where it does not bring in a comparison that the
save has left out. -/
theorem threshold_fires_on_crossings (options : AutomationSystemOptions n)
    (automation : AutomationDefinition) (cloneStructured : JsValue → Except String JsValue)
    (math : FormulaMath) {resourceId : String} {comparator : Comparator}
    {threshold : NumericFormula}
    (htrigger : automation.trigger = .resourceThreshold resourceId comparator threshold)
    (haccepted : ∀ cooldown, automation.cooldown = some cooldown → AcceptedFormula math cooldown)
    (hduration : 0 < options.stepDurationMs) :
    FiresOnCrossings options automation cloneStructured where
  holds state moment hfree hfires := by
    obtain ⟨look, hlook, htrue, -⟩ := exists_look_of_fires htrigger haccepted hfree hfires
    exact ⟨look, hlook, (fires_iff.mp htrue).2.1⟩
  once state first between second hfree hfirst hsecond :=
    fires_once htrigger haccepted hfree hfirst hsecond
  cooldown state first between step pendingEventTriggers world hfree horder hfirst hsecond :=
    fires_after_cooldown htrigger haccepted hfree horder hfirst hsecond
  unpaid state first between second look last hfree hlook _ hforgot hawake hunpaid hbetween hlast
      htime hholds hpays :=
    fires_when_payable htrigger haccepted hfree hlook hforgot hawake hunpaid hbetween hlast htime
      hholds hpays
  saved state now moments saved hfinite hreplays hfree hfree' hkeeps :=
    hreplays.firings_eq htrigger haccepted hduration
      ⟨rfl, rfl, ⟨rfl, by rintro t _ ⟨-, rfl⟩; rw [add_zero]⟩, hfinite⟩ hfree hfree' hkeeps

/-- An evaluation sees what it sees, on the same clock. -/
theorem SameMoment.self {now δ step : ℚ} (hδ : δ = 0) (hnow : now ≤ step)
    (pendingEventTriggers : List String) (world : AutomationWorld n) :
    SameMoment options automation now δ (.evaluate step pendingEventTriggers world)
      (.evaluate step pendingEventTriggers world) step := by
  subst hδ
  have hsame := @SameMoment.evaluate n options automation now 0 step pendingEventTriggers
    pendingEventTriggers world world hnow (fun _ => rfl) (by rw [add_zero]) (by rw [add_zero])
    (fun t _ => by rw [add_zero, add_zero])
  rwa [add_zero] at hsame

/-! ### A restore that silences an automation -/

/-- The state of an automation that was never evaluated. -/
def initialAutomationState (automation : AutomationDefinition) : AutomationState :=
  { enabled := automation.enabledByDefault, lastFiredStep := .negInf, cooldownExpiresStep := .fin 0
    unlocked := false, lastThresholdSatisfied := none }

/-- An automation that fires when there are 5 gold. -/
def goldAutomation : AutomationDefinition :=
  { minerAutomation with
    trigger := .resourceThreshold "gold" .gte (.constant (.fin 5))
    resourceCost := none }

/-- There are 10 gold, and the queue has room. -/
def goldWorld : AutomationWorld 1 :=
  { minerWorld with queue := CommandQueue.empty 1 smallQueue_pos }

/-- The gold automation, whose cooldown is none. -/
theorem threshold_fires_on_crossings_gold : FiresOnCrossings minerOptions goldAutomation .ok :=
  threshold_fires_on_crossings minerOptions goldAutomation .ok naturalPowers rfl
    (fun cooldown h => by cases h) (by decide)

/-- A game in which the automation has fired at once. -/
def liveGold : AutomationState :=
  momentAfter minerOptions goldAutomation .ok (initialAutomationState goldAutomation)
    (.evaluate 0 [] goldWorld)

/-- A game in which the automation was disabled before it was ever evaluated. -/
def savedGold : AutomationState :=
  momentAfter minerOptions goldAutomation .ok (initialAutomationState goldAutomation)
    (.toggle false : AutomationMoment 1)

/-- The automation is enabled, and there are 10 gold at step 3. -/
def enabledGold : List (AutomationMoment 1) := [.toggle true, .evaluate 3 [] goldWorld]

/-- The same, after the save was restored into the other game. -/
def restoredGold : List (SavedMoment 1) :=
  [.restore liveGold (some 3) (some 3), .moment (.toggle true),
    .moment (.evaluate 3 [] goldWorld)]

/-- The bus has room for the event, and the queue for the command. -/
theorem unhindered_enabledGold :
    RunUnhindered minerOptions goldAutomation .ok savedGold enabledGold := by
  refine ⟨trivial, fun crossing paid hgoes => ?_, trivial⟩
  have hrun : prepareFiring minerOptions goldAutomation 3 []
      (goldWorld.holding goldAutomation { savedGold with enabled := true }) =
        .ok (some true) ((goldWorld.holding goldAutomation
          { savedGold with enabled := true }).withState goldAutomation fun state =>
            { state with unlocked := true }) := rfl
  obtain ⟨-, rfl⟩ := EStateM.Result.ok.inj (hrun.symm.trans hgoes)
  exact ⟨_, _, rfl, rfl⟩

/-- After the restore nothing goes on to be published. -/
theorem unhindered_restoredGold :
    SavedRunUnhindered minerOptions goldAutomation .ok savedGold restoredGold := by
  refine ⟨trivial, fun crossing paid hgoes => ?_, trivial⟩
  have hsilent : firesAt minerOptions goldAutomation 3 [] { restoredFrom savedGold liveGold (some 3)
      (some 3) with enabled := true } goldWorld = false := by decide +kernel
  change prepareFiring minerOptions goldAutomation 3 [] (goldWorld.holding goldAutomation
    { restoredFrom savedGold liveGold (some 3) (some 3) with enabled := true }) =
      .ok (some crossing) paid at hgoes
  rw [firesAt, hgoes] at hsilent
  cases hsilent

/-- **A restore that silences an automation.** Enabled at step 3, the automation fires; after the
save was restored into a game in which it has fired before, it does not. -/
theorem restored_automation_silent :
    Replays minerOptions goldAutomation 3 0 enabledGold restoredGold ∧
      RunUnhindered minerOptions goldAutomation .ok savedGold enabledGold ∧
      SavedRunUnhindered minerOptions goldAutomation .ok savedGold restoredGold ∧
      firings minerOptions goldAutomation .ok savedGold enabledGold = [false, true] ∧
      savedFirings minerOptions goldAutomation .ok savedGold restoredGold = [false, false] :=
  ⟨.restore _ _ _ (.moment (.toggle true) (.moment
    (.self (by rw [rebaseDelta]; norm_num) le_rfl [] goldWorld) (.nil _ _))),
    unhindered_enabledGold, unhindered_restoredGold, rfl, by decide +kernel⟩

end IdleEngine
