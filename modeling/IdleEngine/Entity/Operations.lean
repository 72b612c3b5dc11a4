import IdleEngine.Entity.Bookkeeping

/-!
# What the operations on entities do

Each operation, whether it returns or throws, has changed the system by a sequence of steps
(`EntityStep`). An operation looks up what it changes first and changes it in the state it found.
-/

namespace IdleEngine

open Relation Stateful

variable {config : EntityConfig} {conditionContext : Option ConditionContext}

/-! ### Reading -/

/-- A computation that changes nothing. -/
def EntityM.ReadsOnly {α : Type} (m : EntityM α) : Prop := ∀ s, final (m s) = s

variable {α : Type} {s : EntitySystem}

/-- After a computation that changes nothing the next one starts in the same state. -/
theorem EntityM.ReadsOnly.bind_from {β : Type} {m : EntityM α} {f : α → EntityM β}
    (hm : m.ReadsOnly)
    (hf : ∀ a, m s = .ok a s → ReflTransGen (EntityStep config) s (final (f a s))) :
    ReflTransGen (EntityStep config) s (final ((m >>= f) s)) := by
  have hs := hm s
  refine Performs.bind_from (by rw [hs]) fun a t hrun => ?_
  rw [hrun] at hs
  obtain rfl : t = s := hs
  exact hf a hrun

theorem readsOnly_ofExcept (value : Except String α) :
    (EntityM.ofExcept value).ReadsOnly := by
  intro s
  cases value <;> rfl

theorem readsOnly_require (message : String) (value : Option α) :
    (EntityM.require message value).ReadsOnly := by
  intro s
  cases value <;> rfl

variable {t : EntitySystem}

theorem require_ok {message : String} {value : Option α} {a : α}
    (h : EntityM.require message value s = .ok a t) : value = some a := by
  cases value with
  | none => cases h
  | some b =>
    injection h with hab
    rw [hab]

theorem readsOnly_findEntity (entityId : String) : (findEntity config entityId).ReadsOnly :=
  fun s => readsOnly_require _ _ s

variable {entityId : String}

theorem findEntity_ok {found : EntityDefinition × EntityState}
    (h : findEntity config entityId s = .ok found t) :
    config.definitionById entityId = some found.1 ∧ s.entities.get? entityId = some found.2 := by
  obtain ⟨definition, hdefinition, hfound⟩ := Option.bind_eq_some_iff.mp (require_ok h)
  obtain ⟨state, hstate, rfl⟩ := Option.map_eq_some_iff.mp hfound
  exact ⟨hdefinition, hstate⟩

theorem readsOnly_findInstance (instanceId : String) : (findInstance instanceId).ReadsOnly :=
  fun s => readsOnly_require _ _ s

variable {instanceId : String} {state : EntityInstanceState}

theorem findInstance_ok (h : findInstance instanceId s = .ok state t) :
    s.instances.get? instanceId = some state :=
  require_ok h

theorem EntityConfig.tracks_iff {definition : EntityDefinition}
    (h : config.definitionById entityId = some definition) :
    config.Tracks entityId ↔ definition.trackInstances = true := by
  constructor
  · rintro ⟨other, hother, htracks⟩
    rw [h] at hother
    exact Option.some.inj hother ▸ htracks
  · exact fun htracks => ⟨definition, h, htracks⟩

/-! ### Instance ids -/

/-- Different suffixes make different ids. -/
theorem instanceIdText_injective (entityId : String) (creationStep : ℕ) :
    Function.Injective (instanceIdText entityId creationStep) := by
  intro n m h
  have hsuffix := (String.append_right_inj _).mp h
  exact FreshName.paddedHex_injective 6 (String.ofList_injective hsuffix)

theorem drawInstanceId_run (entityId : String) (creationStep : ℕ) :
    ∀ (attempts : ℕ) (s : EntitySystem), ∃ draws drawn,
      drawInstanceId entityId creationStep attempts s = .ok drawn { s with draws } ∧
        ∀ id, drawn = some id → s.instances.get? id = none
  | 0, s => ⟨s.draws, none, rfl, by simp⟩
  | attempts + 1, s => by
    by_cases htaken :
        (s.instances.get? (instanceIdText entityId creationStep (s.draws 0))).isSome = true
    · obtain ⟨draws, drawn, hrun, hdrawn⟩ := drawInstanceId_run entityId creationStep attempts
        { s with draws := fun i => s.draws (i + 1) }
      refine ⟨draws, drawn, ?_, hdrawn⟩
      change (if (s.instances.get? (instanceIdText entityId creationStep (s.draws 0))).isSome = true
        then drawInstanceId entityId creationStep attempts else pure _) _ = _
      rw [if_pos htaken, hrun]
    · refine ⟨fun i => s.draws (i + 1),
        some (instanceIdText entityId creationStep (s.draws 0)), ?_, fun id hid => ?_⟩
      · change (if (s.instances.get? (instanceIdText entityId creationStep (s.draws 0))).isSome =
          true then drawInstanceId entityId creationStep attempts else pure _) _ = _
        rw [if_neg htaken]
        rfl
      · rw [← Option.some.inj hid]
        simpa using htaken

/-- An id that is generated is not taken: the loop behind the random attempts finds one. -/
theorem generateInstanceId_run (entityId : String) (creationStep : ℕ) (s : EntitySystem) :
    ∃ draws instanceId,
      generateInstanceId entityId creationStep s = .ok instanceId { s with draws } ∧
        s.instances.get? instanceId = none := by
  obtain ⟨draws, drawn, hrun, hdrawn⟩ := drawInstanceId_run entityId creationStep 5 s
  cases drawn with
  | some id =>
    refine ⟨draws, id, ?_, hdrawn id rfl⟩
    change EStateM.bind (drawInstanceId entityId creationStep 5) _ s = _
    rw [EStateM.bind, hrun]
    rfl
  | none =>
    refine ⟨draws, s.countedInstanceId entityId creationStep, ?_, ?_⟩
    · change EStateM.bind (drawInstanceId entityId creationStep 5) _ s = _
      rw [EStateM.bind, hrun]
      rfl
    · have hfresh := FreshName.firstFresh_notMem (instanceIdText_injective entityId creationStep)
        (s.instances.entries.map Prod.fst) (s.instances.entries.map Prod.fst).length
      rw [OrderedMap.mem_keys_iff] at hfresh
      simpa [EntitySystem.countedInstanceId] using hfresh

/-! ### The operations -/

/-- What is made of steps of entities. -/
abbrev EntityM.Steps {α : Type} (config : EntityConfig) (m : EntityM α) : Prop :=
  Performs (EntityStep config) m

theorem createInstance_steps (entityId : String) (creationStep : ℕ) :
    (createInstance config conditionContext entityId creationStep).Steps config := by
  intro s
  refine (readsOnly_findEntity entityId).bind_from fun found hfound => ?_
  obtain ⟨hdefinition, hstate⟩ := findEntity_ok hfound
  by_cases htracks : found.1.trackInstances = false
  · rw [if_pos htracks]
    exact .refl
  rw [if_neg htracks]
  refine (readsOnly_ofExcept _).bind_from fun maxCount _ => ?_
  by_cases hfull : maxCount.any (· ≤ found.2.count) = true
  · rw [if_pos hfull]
    exact .refl
  rw [if_neg hfull]
  obtain ⟨draws, instanceId, hid, hfresh⟩ := generateInstanceId_run entityId creationStep s
  refine Performs.bind_from ?_ fun id t hrun => ?_
  · rw [hid]
    exact .single (.host s s.currentStep draws)
  · rw [hid] at hrun
    injection hrun with hname hdrawn
    subst hname hdrawn
    refine (readsOnly_ofExcept _).bind_from fun stats _ => ?_
    refine .single (.create ?_ ((EntityConfig.tracks_iff hdefinition).mpr ?_) hfresh rfl)
    · change (s.entities.get? entityId).isSome = true
      rw [hstate]
      rfl
    · simpa using htracks

theorem destroyInstance_steps (instanceId : String) : (destroyInstance instanceId).Steps config := by
  intro s
  refine (readsOnly_findInstance instanceId).bind_from fun state hstate => ?_
  change ReflTransGen _ s (final ((if (s.entities.get? state.entityId).isNone = true then throw _
    else modify fun s => s.removeInstance instanceId state : EntityM Unit) s))
  split
  · exact .refl
  · exact .single (.destroy (findInstance_ok hstate))

theorem addEntity_steps (entityId : String) (count : JsNumber) (step : ℕ) :
    (addEntity config conditionContext entityId count step).Steps config := by
  intro s
  refine (readsOnly_findEntity entityId).bind_from fun found hfound => ?_
  obtain ⟨hdefinition, hstate⟩ := findEntity_ok hfound
  by_cases hzero : normalizeNonNegativeInt count = 0
  · rw [if_pos hzero]
    exact .refl
  rw [if_neg hzero]
  by_cases htracks : found.1.trackInstances = true
  · rw [if_pos htracks]
    exact Performs.forM (fun _ _ =>
      (createInstance_steps entityId step).bind fun _ => Performs.pure _) s
  rw [if_neg htracks]
  refine (readsOnly_ofExcept _).bind_from fun maxCount _ => ?_
  refine .single (.recount (fun h => htracks ((EntityConfig.tracks_iff hdefinition).mp h))
    (fun _ => rfl) fun entity _ heq => ?_)
  dsimp only
  omega

theorem removeEntityInstances_steps (entityId : String) (normalizedCount : ℕ) :
    (removeEntityInstances entityId normalizedCount).Steps config := by
  refine .bind .get fun s => ?_
  dsimp only
  split
  · exact .throw _
  · exact .forM fun id _ => destroyInstance_steps id

theorem removeEntity_steps (entityId : String) (count : JsNumber) :
    (removeEntity config entityId count).Steps config := by
  intro s
  refine (readsOnly_findEntity entityId).bind_from fun found hfound => ?_
  obtain ⟨hdefinition, hstate⟩ := findEntity_ok hfound
  by_cases hzero : normalizeNonNegativeInt count = 0
  · rw [if_pos hzero]
    exact .refl
  rw [if_neg hzero]
  by_cases htracks : found.1.trackInstances = true
  · rw [if_pos htracks]
    exact removeEntityInstances_steps entityId _ s
  rw [if_neg htracks]
  split
  · exact .refl
  · refine .single (.recount (fun h => htracks ((EntityConfig.tracks_iff hdefinition).mp h))
      (fun _ => rfl) fun entity _ heq => ?_)
    dsimp only
    omega

theorem assignToMission_steps (instanceId : String) (assignment : EntityAssignment) :
    (assignToMission instanceId assignment).Steps config := by
  intro s
  refine (readsOnly_findInstance instanceId).bind_from fun state hstate => ?_
  by_cases hassigned : state.assignment.isSome = true
  · rw [if_pos hassigned]
    exact .refl
  rw [if_neg hassigned]
  by_cases hstep : assignment.returnStep.lt assignment.deployedAtStep = true
  · rw [if_pos hstep]
    exact .refl
  rw [if_neg hstep]
  exact .single (.assign assignment (findInstance_ok hstate) (by simpa using hassigned))

theorem returnFromMission_steps (instanceId : String) :
    (returnFromMission instanceId).Steps config := by
  intro s
  refine (readsOnly_findInstance instanceId).bind_from fun state hstate => ?_
  by_cases hassigned : state.assignment.isNone = true
  · rw [if_pos hassigned]
    exact .refl
  rw [if_neg hassigned]
  exact .single (.unassign (findInstance_ok hstate) (by
    rw [Option.isNone_iff_eq_none] at hassigned
    exact Option.isSome_iff_ne_none.mpr hassigned))

theorem get?_setInstance_self (s : EntitySystem) (instanceId : String)
    (state : EntityInstanceState) :
    (s.setInstance instanceId state).instances.get? instanceId = some state := by
  rw [EntitySystem.setInstance, OrderedMap.get?_set, if_pos rfl]

/-- What is done after an instance was trained starts with the trained instance. -/
theorem train_bind {β : Type} {trained : EntityInstanceState} {f : PUnit → EntityM β}
    (hstate : s.instances.get? instanceId = some state)
    (hid : trained.instanceId = state.instanceId) (hentity : trained.entityId = state.entityId)
    (hassignment : trained.assignment = state.assignment)
    (hf : ∀ t : EntitySystem, t.instances.get? instanceId = some trained →
      ReflTransGen (EntityStep config) t (final (f ⟨⟩ t))) :
    ReflTransGen (EntityStep config) s
      (final (((modify fun s => s.setInstance instanceId trained : EntityM PUnit) >>= f) s)) := by
  refine Performs.bind_from (.single (.train hstate hid hentity hassignment)) fun _ t hrun => ?_
  injection hrun with _ ht
  subst ht
  exact hf _ (get?_setInstance_self s instanceId trained)

theorem settleLevel_steps (hstate : s.instances.get? instanceId = some state)
    (definition : EntityDefinition) (step level : ℕ) (experience : ℚ) :
    ReflTransGen (EntityStep config) s (final (settleLevel config conditionContext definition
      instanceId state step level experience s)) := by
  refine train_bind hstate rfl rfl rfl fun t ht => ?_
  by_cases hlevel : level = state.level
  · rw [if_pos hlevel]
    exact .refl
  rw [if_neg hlevel]
  refine train_bind ht rfl rfl rfl fun u hu => ?_
  refine (readsOnly_ofExcept _).bind_from fun stats _ => ?_
  exact .single (.train hu rfl rfl rfl)

theorem addExperience_steps (fuel : ℕ) (instanceId : String) (amount : JsNumber) (step : ℕ) :
    (addExperience config conditionContext fuel instanceId amount step).Steps config := by
  intro s
  refine (readsOnly_findInstance instanceId).bind_from fun state hfound => ?_
  have hstate := findInstance_ok hfound
  cases hdefinition : config.definitionById state.entityId with
  | none => exact .refl
  | some definition =>
    by_cases hamount : normalizeFiniteNumber amount ≤ 0
    · simp only [if_pos hamount]
      exact .refl
    simp only [if_neg hamount]
    refine train_bind hstate rfl rfl rfl fun t ht => ?_
    cases definition.progression with
    | none => exact .refl
    | some progression =>
      refine (readsOnly_ofExcept _).bind_from fun levelled _ => ?_
      cases levelled with
      | none => exact .refl
      | some result => exact settleLevel_steps ht definition step result.1 result.2

/-! ### Ticks -/

variable (context : ConditionContext)

theorem conditionHolds_readsOnly (condition : Condition) :
    (EntityM.conditionHolds context condition).ReadsOnly := readsOnly_ofExcept _

theorem EntityM.ReadsOnly.steps {m : EntityM α} (h : m.ReadsOnly) : m.Steps config :=
  fun s => by rw [h s]

theorem resolveVisibility_steps (definition : EntityDefinition) :
    (resolveVisibility context definition).Steps config := by
  rw [resolveVisibility]
  split
  · exact (conditionHolds_readsOnly context _).steps
  · exact .pure _

theorem resolveUnlocked_steps (definition : EntityDefinition) :
    (resolveUnlocked context definition).Steps config := by
  rw [resolveUnlocked]
  split
  · exact .pure _
  · split
    · exact (conditionHolds_readsOnly context _).steps
    · exact .pure _

/-- What changes how an entity is shown is one step. -/
theorem reveal_steps {f : EntityState → EntityState} (hid : ∀ entity, (f entity).id = entity.id)
    (hcount : ∀ entity, (f entity).count = entity.count)
    (havailable : ∀ entity, (f entity).availableCount = entity.availableCount) :
    EntityM.Steps config (modify fun s => s.modifyEntity entityId f : EntityM PUnit) :=
  .modify fun _ => .single (.reveal hid hcount havailable)

theorem refreshEntity_steps (definition : EntityDefinition) :
    (refreshEntity context definition).Steps config := by
  refine .bind .get fun s => ?_
  split
  · exact .pure _
  · refine (resolveVisibility_steps context definition).bind fun visible => ?_
    refine .bind (reveal_steps (fun _ => by rfl) (fun _ => by rfl) fun _ => by rfl) fun _ => ?_
    split
    · exact .pure _
    · exact (resolveUnlocked_steps context definition).bind fun unlocked =>
        reveal_steps (fun _ => rfl) (fun _ => rfl) fun _ => rfl

theorem processReturningMissions_steps (step : ℕ) :
    (processReturningMissions step).Steps config := by
  refine .bind .get fun s => .forM fun entry _ => ?_
  split
  · exact returnFromMission_steps _
  · exact .pure _

theorem tick_steps (step : ℕ) : (EntitySystem.tick config conditionContext step).Steps config := by
  refine (Performs.modify fun s => .single (.host s step s.draws)).bind fun _ => ?_
  cases conditionContext with
  | none => exact processReturningMissions_steps step
  | some context =>
    exact (Performs.forM fun definition _ => refreshEntity_steps context definition).bind fun _ =>
      processReturningMissions_steps step

end IdleEngine
