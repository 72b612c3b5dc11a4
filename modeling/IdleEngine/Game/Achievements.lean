import IdleEngine.Progression.Achievements
import IdleEngine.Save.Progression

/-!
# Runs of updates with their completions

A run updates the progression for steps that never go back, and between two updates it does
anything that leaves achievements alone, or saves and restores into any coordinator of the same
content. `Account` says what the completions of an achievement have to do with its state: it is
kept by every event, and the discipline of a run is read off it (`achievementRun_spec`).

The loop of an update settles the achievements, not the layers: a layer that waits for a later one
is unlocked by the next update only, and an achievement that waits for that layer completes then
(`secondLayer_waits`).
-/

namespace IdleEngine

open Relation Stateful Outcome List Coordinator

variable {sh : ContentShape}

/-! ### The account of an achievement -/

/-- The completions of one achievement. -/
def completionsOf (log : List (Completion sh)) (i : Fin sh.achievements) : List (Completion sh) :=
  log.filter fun e => e.achievement = i

theorem completionsOf_append (log : List (Completion sh)) (e : Completion sh)
    (i : Fin sh.achievements) :
    completionsOf (log ++ [e]) i =
      if e.achievement = i then completionsOf log i ++ [e] else completionsOf log i := by
  rw [completionsOf, filter_append]
  split
  · next h => simp [completionsOf, h]
  · next h => simp [completionsOf, h]

/-- Two completions at least the window of the first apart, and at least one step. -/
def Completion.Spaced (a b : Completion sh) : Prop := a.step + max 1 a.window ≤ b.step

/-- What the completions of an achievement have to do with its state. -/
structure Account (achievement : AchievementContent sh) (state : AchievementState)
    (entries : List (Completion sh)) : Prop where
  counted : state.completions = entries.length
  single : achievement.mode ≠ .repeatable → entries.length ≤ 1
  limited : achievement.mode = .repeatable → ∀ maxRepeats,
    achievement.repeatable.bind (·.maxRepeats) = some maxRepeats → entries.length ≤ maxRepeats
  spaced : entries.Pairwise Completion.Spaced
  guarded : achievement.mode = .repeatable → state.Exhausted achievement ∨ entries = [] ∨
    ∃ next, state.nextRepeatableAtStep = some next ∧
      ∀ e ∈ entries, e.step + max 1 e.window ≤ next

namespace Account

variable {achievement : AchievementContent sh} {state state' : AchievementState}
  {entries : List (Completion sh)}

theorem start (h : state.completions = 0) : Account achievement state [] where
  counted := h
  single _ := Nat.zero_le 1
  limited _ _ _ := Nat.zero_le _
  spaced := .nil
  guarded _ := .inr (.inl rfl)

theorem sameGuard (h : Account achievement state entries) (hsame : state.SameGuard achievement state') :
    Account achievement state' entries where
  counted := hsame.completions.trans h.counted
  single := h.single
  limited := h.limited
  spaced := h.spaced
  guarded hmode := by
    rcases h.guarded hmode with hlimit | hrest
    · exact .inl (hsame.exhausted.mpr hlimit)
    rcases hsame.guard with hguard | hlimit
    · rw [hguard]
      exact .inr hrest
    · exact .inl (hsame.exhausted.mpr hlimit)

/-- **A completion keeps the account.** -/
theorem complete (h : Account achievement state entries) {i : Fin sh.achievements} {step window : ℕ}
    (hcompletes : state.Completes achievement step window state') :
    Account achievement state' (entries ++ [⟨i, step, window⟩]) := by
  have hlength : (entries ++ [(⟨i, step, window⟩ : Completion sh)]).length =
      entries.length + 1 := by simp
  by_cases hmode : achievement.mode = .repeatable
  · have hlimit := hcompletes.isOpen.limit hmode
    have hwaits := hcompletes.isOpen.waits hmode
    -- an open guard lies in the past, and so do the windows of all earlier completions
    have hearlier : ∀ e ∈ entries, e.step + max 1 e.window ≤ step := by
      intro e he
      rcases h.guarded hmode with hex | rfl | ⟨next, hnext, hentries⟩
      · have hreached := hex.2
        rw [hlimit] at hreached
        cases hreached
      · cases he
      · have hle := hentries e he
        rw [hnext] at hwaits
        simp only [waitsUntil, decide_eq_false_iff_not] at hwaits
        omega
    refine ⟨?_, fun hne => absurd hmode hne, fun _ maxRepeats hmax => ?_, ?_, fun _ => ?_⟩
    · rw [hcompletes.completions, h.counted, hlength]
    · rw [hmax, reachedMaximum, h.counted] at hlimit
      simp only [decide_eq_false_iff_not] at hlimit
      omega
    · refine pairwise_append.mpr ⟨h.spaced, pairwise_singleton _ _, ?_⟩
      intro a ha b hb
      obtain rfl := mem_singleton.mp hb
      exact hearlier a ha
    · rcases hcompletes.guard hmode with hex | hguard
      · exact .inl hex
      refine .inr (.inr ⟨_, hguard, fun e he => ?_⟩)
      rcases mem_append.mp he with he | he
      · have hle := hearlier e he
        omega
      · obtain rfl := mem_singleton.mp he
        exact le_refl _
  · have hnone : entries = [] := by
      rw [← length_eq_zero_iff, ← h.counted]
      exact hcompletes.isOpen.single hmode
    subst hnone
    refine ⟨?_, fun _ => le_refl 1, fun hrep => absurd hrep hmode, pairwise_singleton _ _,
      fun hrep => absurd hrep hmode⟩
    rw [hcompletes.completions, h.counted, hlength]

end Account

variable (options : ProgressionOptions sh)

/-- Every achievement has an account. -/
def Accounts (s : LoggedCoordinator sh) : Prop :=
  ∀ i, Account (options.content.achievements i) (s.1.achievements i) (completionsOf s.2 i)

variable {options}

variable {s s' : LoggedCoordinator sh}

theorem Accounts.keep (h : Accounts options s) (hlog : s'.2 = s.2)
    (hguards : ∀ i, (s.1.achievements i).SameGuard (options.content.achievements i)
      (s'.1.achievements i)) : Accounts options s' := by
  intro i
  rw [hlog]
  exact (h i).sameGuard (hguards i)

theorem Accounts.step {step : ℕ} (h : Accounts options s) (hstep : LogStep options step s s') :
    Accounts options s' := by
  rcases hstep with ⟨hlog, hguards⟩ | ⟨i, window, hlog, hself, hothers⟩
  · exact h.keep hlog hguards
  · intro j
    rw [hlog, completionsOf_append]
    split
    · next hij =>
      have heq : i = j := hij
      subst heq
      exact (h i).complete hself
    · next hij => exact (h j).sameGuard (hothers j fun heq => hij heq.symm)

theorem Accounts.logUpdateForStep (h : Accounts options s) (step : ℕ) :
    Accounts options (final (logUpdateForStep options step s)) :=
  (logs_logUpdateForStep options step).keeps (P := Accounts options)
    (fun _ _ hs hstep => hs.step hstep) h

theorem logUpdateForStep_grows (step : ℕ) (s : LoggedCoordinator sh) :
    List.IsPrefix s.2 (final (logUpdateForStep options step s)).2 := by
  refine (logs_logUpdateForStep options step).keeps
    (P := fun t : LoggedCoordinator sh => List.IsPrefix s.2 t.2) (fun t t' ht hstep => ?_)
    (prefix_refl _)
  rcases hstep with ⟨hlog, -⟩ | ⟨i, window, hlog, -, -⟩
  · exact hlog ▸ ht
  · rw [hlog]
    exact ht.trans (prefix_append _ _)

/-! ### Saving and restoring -/

theorem normalizeOptionalNonNegativeInt_map (next : Option ℕ) :
    normalizeOptionalNonNegativeInt (next.map fun n => .fin n) = next := by
  cases next with
  | none => rfl
  | some n =>
    have hnonneg : ¬((n : ℚ) < 0) := not_lt.mpr n.cast_nonneg
    simp [normalizeOptionalNonNegativeInt, JsNumber.finite?, hnonneg]

variable (options) in
/-- The entry of an achievement in a save. -/
def Coordinator.savedAchievement (c : Coordinator sh) (i : Fin sh.achievements) :
    SerializedAchievement :=
  { id := (options.content.achievements i).id
    completions := .fin (c.achievements i).completions
    progress := .fin (normalizeNonNegativeNumber (.fin (c.achievements i).progress))
    nextRepeatableAtStep := (c.achievements i).nextRepeatableAtStep.map fun s => .fin s
    lastCompletedStep := (c.achievements i).lastCompletedStep.map fun s => .fin s }

/-- The saved entry of an achievement, restored. -/
theorem restoreAchievement_saved (c : Coordinator sh) (i : Fin sh.achievements)
    {entry : SerializedAchievement} (hid : entry.id = (options.content.achievements i).id) :
    c.restoreAchievement options entry =
      c.setAchievement i
        { c.achievements i with
          completions := normalizeNonNegativeInt entry.completions
          progress := normalizeNonNegativeNumber entry.progress
          nextRepeatableAtStep := normalizeOptionalNonNegativeInt entry.nextRepeatableAtStep
          lastCompletedStep := normalizeOptionalNonNegativeInt entry.lastCompletedStep } := by
  have hindex : indexOfId (fun i => (options.content.achievements i).id) entry.id = some i := by
    rw [hid]
    exact (indexOfId_eq_some_iff options.content.achievement_ids).mpr rfl
  rw [restoreAchievement, hid, if_pos (options.content.achievement_nonblank i), ← hid,
    hindex]

/-- **A restored save has the completions and the guards it was made with.** -/
theorem restoreProgressionSections_guards {p : Progression options} {skipResources : Bool}
    {d c' : Coordinator sh}
    (h : restoreProgressionSections options (serializeProgressionCoordinatorState p) skipResources d
      = .ok () c') (i : Fin sh.achievements) :
    (c'.achievements i).completions = (p.coordinator.achievements i).completions ∧
      (c'.achievements i).nextRepeatableAtStep =
        (p.coordinator.achievements i).nextRepeatableAtStep := by
  -- whether or not the resources are restored, the achievements are restored last
  have hlast : ∃ t, (restoreSection "serialized.achievements"
      (serializeProgressionCoordinatorState p).achievements
      (restoreAchievement options)) t = .ok () c' := by
    rw [restoreProgressionSections] at h
    obtain ⟨_, t, -, h⟩ := bind_ok h
    have htail : ∀ t, (do
        modify (·.resetGeneratorState)
        restoreSection "serialized.generators" (serializeProgressionCoordinatorState p).generators
          (restoreGenerator options)
        modify (·.resetUpgradeState options)
        restoreSection "serialized.upgrades" (serializeProgressionCoordinatorState p).upgrades
          (restoreUpgrade options)
        modify (·.resetAchievementState)
        restoreSection "serialized.achievements"
          (serializeProgressionCoordinatorState p).achievements
          (restoreAchievement options) : ProgressionM sh Unit) t = .ok () c' →
        ∃ t, (restoreSection "serialized.achievements"
          (serializeProgressionCoordinatorState p).achievements
          (restoreAchievement options)) t = .ok () c' := by
      intro t h
      obtain ⟨_, _, -, h⟩ := bind_ok h
      obtain ⟨_, _, -, h⟩ := bind_ok h
      obtain ⟨_, _, -, h⟩ := bind_ok h
      obtain ⟨_, _, -, h⟩ := bind_ok h
      obtain ⟨_, t', -, h⟩ := bind_ok h
      exact ⟨t', h⟩
    cases skipResources with
    | true => exact htail t h
    | false =>
      obtain ⟨_, t', -, h⟩ := bind_ok h
      exact htail t' h
  obtain ⟨t₇, h⟩ := hlast
  have hfold : (ofFn fun i => p.coordinator.savedAchievement options i).foldl
      (restoreAchievement options) t₇ = c' := by
    injection h
  rw [← hfold, ofFn_eq_map, foldl_map]
  have hrow : (finRange sh.achievements).filter (fun j => decide (j = i)) = [i] := by
    rw [filter_eq, count_eq_one_of_mem (nodup_finRange _) (mem_finRange i)]
    rfl
  refine Prod.mk.inj (Overwrite.foldl_view_once (I := fun _ => True)
    (v := fun t : Coordinator sh =>
      ((t.achievements i).completions, (t.achievements i).nextRepeatableAtStep))
    (g := fun _ => ((p.coordinator.achievements i).completions,
      (p.coordinator.achievements i).nextRepeatableAtStep))
    hrow (fun _ _ _ _ => trivial) (fun t _ j _ hj => ?_) (fun t _ => ?_) trivial)
  · have hne : i ≠ j := fun heq => by simp [heq] at hj
    rw [restoreAchievement_saved t j rfl]
    simp [setAchievement, hne]
  · rw [restoreAchievement_saved t i rfl]
    simp only [setAchievement, Function.update_self, savedAchievement,
      normalizeNonNegativeInt_natCast, normalizeOptionalNonNegativeInt_map]

/-! ### Runs -/

variable (options) in
/-- An event, on the step of the last update and the coordinator with the completions so far: an
update for a step that is not before the last one, also one that throws; a save, restored into any
coordinator; or anything that leaves the achievements alone. -/
inductive AchievementEvent : ℕ × LoggedCoordinator sh → ℕ × LoggedCoordinator sh → Prop
  | update {t step : ℕ} (s : LoggedCoordinator sh) (h : t ≤ step) :
      AchievementEvent (t, s)
        (step, final (updateForStep options step s.1), (final (logUpdateForStep options step s)).2)
  | restore {t : ℕ} (s : LoggedCoordinator sh) (accumulators : ProductionAccumulators options)
      {skipResources : Bool} {d c' : Coordinator sh}
      (h : restoreProgressionSections options
        (serializeProgressionCoordinatorState ⟨s.1, accumulators⟩) skipResources d = .ok () c') :
      AchievementEvent (t, s) (t, c', s.2)
  | elsewhere {t : ℕ} (s : LoggedCoordinator sh) {c' : Coordinator sh}
      (h : c'.achievements = s.1.achievements) : AchievementEvent (t, s) (t, c', s.2)

variable (options) in
/-- A run from new managers. -/
def AchievementRun (t : ℕ) (s : LoggedCoordinator sh) : Prop :=
  ∃ resources generators,
    ReflTransGen (AchievementEvent options) (0, initial resources generators, []) (t, s)

variable {a b : ℕ × LoggedCoordinator sh}

theorem AchievementEvent.accounts (h : AchievementEvent options a b) (ha : Accounts options a.2) :
    Accounts options b.2 := by
  cases h with
  | @update t step s h =>
    have hkept := ha.logUpdateForStep step
    rw [Accounts, logUpdateForStep_final options step s.1 s.2] at hkept
    exact hkept
  | restore s accumulators h =>
    have hguards := restoreProgressionSections_guards h
    exact ha.keep rfl fun i => ⟨(hguards i).1, .inl (hguards i).2⟩
  | elsewhere s h =>
    refine ha.keep rfl fun i => ?_
    rw [h]
    exact .refl _

theorem AchievementEvent.grows (h : AchievementEvent options a b) : List.IsPrefix a.2.2 b.2.2 := by
  cases h with
  | @update t step s h => exact logUpdateForStep_grows step s
  | restore s accumulators h => exact prefix_refl _
  | elsewhere s h => exact prefix_refl _

theorem AchievementRun.accounts {t : ℕ} (h : AchievementRun options t s) : Accounts options s := by
  obtain ⟨resources, generators, hrun⟩ := h
  have hstart : Accounts options (initial resources generators, []) :=
    fun _ => Account.start rfl
  suffices hall : ∀ b, ReflTransGen (AchievementEvent options)
      (0, initial resources generators, []) b → Accounts options b.2 from hall _ hrun
  intro b hb
  induction hb with
  | refl => exact hstart
  | tail _ hlast ih => exact hlast.accounts ih

variable (options) in
/-- The discipline of a run: each achievement completes at most once a step, a single one at most
once, a repeatable one at most as often as its limit says, with at least its window and at least
one step between any two completions; the states count the completions and never fewer than
before; and an update that returns has settled the achievements. -/
structure Disciplined (t : ℕ) (s : LoggedCoordinator sh) : Prop where
  once_a_step : ∀ i step, ((completionsOf s.2 i).filter fun e => e.step = step).length ≤ 1
  single_once : ∀ i, (options.content.achievements i).mode ≠ .repeatable →
    (completionsOf s.2 i).length ≤ 1
  limited : ∀ i, (options.content.achievements i).mode = .repeatable → ∀ maxRepeats,
    (options.content.achievements i).repeatable.bind (·.maxRepeats) = some maxRepeats →
      (completionsOf s.2 i).length ≤ maxRepeats
  spaced : ∀ i, (completionsOf s.2 i).Pairwise Completion.Spaced
  counted : ∀ i, (s.1.achievements i).completions = (completionsOf s.2 i).length
  kept : ∀ t' s', ReflTransGen (AchievementEvent options) (t, s) (t', s') → ∀ i,
    (s.1.achievements i).completions ≤ (s'.1.achievements i).completions
  settles : ∀ step c', updateForStep options step s.1 = .ok () c' →
    ∃ c'', updateAchievements options step c' = .ok false c''

/-- **Every run is disciplined.** -/
theorem achievementRun_disciplined {t : ℕ} {s : LoggedCoordinator sh}
    (h : AchievementRun options t s) : Disciplined options t s := by
  have haccounts := h.accounts
  refine ⟨fun i step => ?_, fun i => (haccounts i).single, fun i => (haccounts i).limited,
    fun i => (haccounts i).spaced, fun i => (haccounts i).counted, fun t' s' hlater i => ?_,
    fun step c' => updateForStep_settles options⟩
  · -- two completions of one step would be less than one step apart
    have hspaced := (haccounts i).spaced.filter fun e => e.step = step
    have hstep : ∀ e ∈ (completionsOf s.2 i).filter fun e => e.step = step, e.step = step :=
      fun e he => of_decide_eq_true (List.mem_filter.mp he).2
    revert hspaced hstep
    generalize (completionsOf s.2 i).filter (fun e => e.step = step) = l
    intro hspaced hstep
    rcases l with _ | ⟨a, _ | ⟨b, l⟩⟩
    · exact Nat.zero_le 1
    · exact le_refl 1
    · have hapart : a.step + max 1 a.window ≤ b.step :=
        List.rel_of_pairwise_cons hspaced List.mem_cons_self
      have ha := hstep a List.mem_cons_self
      have hb := hstep b (List.mem_cons_of_mem a List.mem_cons_self)
      omega
  · have hend : AchievementRun options t' s' := by
      obtain ⟨resources, generators, hrun⟩ := h
      exact ⟨resources, generators, hrun.trans hlater⟩
    have hgrows : ∀ b, ReflTransGen (AchievementEvent options) (t, s) b →
        List.IsPrefix s.2 b.2.2 := by
      intro b hb
      induction hb with
      | refl => exact List.prefix_refl _
      | tail _ hlast ih => exact ih.trans hlast.grows
    rw [(haccounts i).counted, (hend.accounts i).counted]
    exact ((hgrows _ hlater).filter _).length_le

/-! ### A layer that waits for a later one -/

/-- A new coordinator is the end of the first update of new managers. -/
theorem createProgressionCoordinator_updated {c : Coordinator sh}
    (h : createProgressionCoordinator options = .ok c) :
    ∃ resources generators,
      updateForStep options 0 (initial resources generators) = .ok () c := by
  obtain ⟨resources, -, h⟩ := bind_ok h
  obtain ⟨generators, -, h⟩ := bind_ok h
  obtain ⟨_, -, h⟩ := bind_ok h
  refine ⟨resources, fun i => generators.getD i blankGenerator, ?_⟩
  dsimp only at h
  split at h
  · next c' hrun =>
    obtain rfl := Except.ok.inj h
    exact hrun
  · cases h

/-- The shape of a game with gold, two layers and one achievement. -/
def climbShape : ContentShape :=
  { resources := 3, generators := 0, upgrades := 0, prestigeLayers := 2, achievements := 1 }

def climbResource (i : Fin climbShape.resources) : ResourceContent :=
  { id := if i.val = 0 then "gold"
      else if i.val = 1 then prestigeCountId "summit" else prestigeCountId "camp"
    startAmount := if i.val = 0 then some (.fin 5) else none
    capacity := none, unlocked := none, visible := none, dirtyTolerance := none
    unlockCondition := none, visibilityCondition := none }

/-- The summit waits for the camp, which comes after it and is unlocked from the start. -/
def climbLayer (i : Fin climbShape.prestigeLayers) : PrestigeLayerContent climbShape :=
  { id := if i.val = 0 then "summit" else "camp"
    unlockCondition := if i.val = 0 then .prestigeUnlocked "camp" else .always
    resetTargets := [], resetGenerators := [], resetUpgrades := []
    reward := { resource := Fin.last 2, baseReward := .constant (.fin 0), multiplierCurve := none }
    retention := [] }

/-- An achievement that can be completed once the summit is unlocked. -/
def climbAchievement : AchievementContent climbShape :=
  { id := "climber", mode := .oneShot, track := .resource "gold" .gte
    target := .constant (.fin 1), repeatable := none
    unlockCondition := some (.prestigeUnlocked "summit"), visibilityCondition := none
    reward := none }

theorem climbAchievement_nonblank : isNonBlankString climbAchievement.id = true := by
  decide +kernel

theorem climbAchievement_injective (i j : Fin climbShape.achievements) : i = j :=
  Subsingleton.elim (α := Fin 1) i j

def climbOptions : ProgressionOptions climbShape :=
  { content :=
      { resources := climbResource
        generators := fun i => i.elim0
        upgrades := fun i => i.elim0
        prestigeLayers := climbLayer
        achievements := fun _ => climbAchievement
        generator_ids := fun i => i.elim0
        upgrade_ids := fun i => i.elim0
        achievement_ids := fun i j _ => climbAchievement_injective i j
        generator_nonblank := fun i => i.elim0
        upgrade_nonblank := fun i => i.elim0
        achievement_nonblank := fun _ => climbAchievement_nonblank }
    stepDurationMs := 100, precision := .default, maxConditionDepth := none
    evaluateScriptCondition := none, getCustomMetricValue := none }

/-- The climber. -/
def climber : Fin climbShape.achievements := Fin.last 0

/-- A game created, and updated once more for the same step. -/
structure Climbed where
  created : Coordinator climbShape
  updated : Coordinator climbShape

def climbed : Except String Climbed := do
  let created ← createProgressionCoordinator climbOptions
  let result ← outcome (updateForStep climbOptions 0 created)
  return { created, updated := result.2 }

theorem climbed_ok {a : Climbed} (h : climbed = .ok a) :
    createProgressionCoordinator climbOptions = .ok a.created ∧
      updateForStep climbOptions 0 a.created = .ok () a.updated := by
  obtain ⟨created, hcreated, h⟩ := bind_ok h
  obtain ⟨result, hresult, h⟩ := bind_ok h
  obtain rfl := Except.ok.inj h
  exact ⟨hcreated, outcome_ok hresult⟩

theorem achievementRun_disciplined_climb :
    ∃ c log, createProgressionCoordinator climbOptions = .ok c ∧
      (c.achievements climber).completions = 0 ∧ Disciplined climbOptions 0 (c, log) := by
  obtain ⟨a, hrun, hnone⟩ := exists_ok (x := climbed)
    (p := fun a => (a.created.achievements climber).completions == 0) (by decide +kernel)
  obtain ⟨resources, generators, hupdated⟩ :=
    createProgressionCoordinator_updated (climbed_ok hrun).1
  have hevent : AchievementEvent climbOptions (0, Coordinator.initial resources generators, []) _ :=
    .update (Coordinator.initial resources generators, []) (le_refl 0)
  rw [hupdated] at hevent
  exact ⟨a.created, _, (climbed_ok hrun).1, by simpa using hnone,
    achievementRun_disciplined ⟨resources, generators, .single hevent⟩⟩

/-- **The summit waits.** Updated again for the step it was created at, the game completes the
achievement: the first update has unlocked the summit's camp after it looked at the summit. -/
theorem secondLayer_waits :
    ¬ ∀ (sh : ContentShape) (options : ProgressionOptions sh) (t : ℕ) (s : LoggedCoordinator sh),
        AchievementRun options t s → ∀ c', updateForStep options t s.1 = .ok () c' →
          ∀ c'', updateForStep options t c' = .ok () c'' →
            ∀ i, (c''.achievements i).completions = (c'.achievements i).completions := by
  intro h
  obtain ⟨a, hrun, hcheck⟩ := exists_ok (x := climbed)
    (p := fun a => decide ((a.created.achievements climber).completions = 0 ∧
      (a.updated.achievements climber).completions = 1)) (by decide +kernel)
  obtain ⟨hcreated, hagain⟩ := climbed_ok hrun
  obtain ⟨hnone, hone⟩ := of_decide_eq_true hcheck
  obtain ⟨resources, generators, hupdated⟩ := createProgressionCoordinator_updated hcreated
  have hsame := h climbShape climbOptions 0 (Coordinator.initial resources generators, [])
    ⟨resources, generators, .refl⟩ _ hupdated _ hagain climber
  omega

end IdleEngine
