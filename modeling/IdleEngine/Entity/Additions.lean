import IdleEngine.Entity.Operations

/-!
# Adding entities

Instances are created one by one, each against the maximum for the count reached so far; an addition
that throws keeps the instances created before and the numbers drawn. The count of an entity without
instances is cut to a maximum which may have fallen below it. So an addition either throws and
changes nothing, or returns and lowers no count, if and only if it has no room at all or has room to
its end and the stats of a new instance can be computed, and if the maximum has not fallen below the
count (`addEntity_atomic_iff`).
-/

namespace IdleEngine

open Stateful

variable {config : EntityConfig} {conditionContext : Option ConditionContext}

/-! ### One instance -/

/-- The system after `k` numbers were drawn. -/
def EntitySystem.drawn (s : EntitySystem) (k : ℕ) : EntitySystem :=
  { s with draws := fun i => s.draws (i + k) }

theorem EntitySystem.drawn_drawn (s : EntitySystem) (k n : ℕ) :
    (s.drawn k).drawn n = s.drawn (n + k) := by
  simp only [drawn, Nat.add_assoc]

theorem drawInstanceId_drawn (entityId : String) (creationStep : ℕ) :
    ∀ (attempts : ℕ) (s : EntitySystem), ∃ k ≤ attempts, ∃ drawn, (attempts ≠ 0 → 0 < k) ∧
      drawInstanceId entityId creationStep attempts s = .ok drawn (s.drawn k)
  | 0, s => ⟨0, le_rfl, none, fun h => absurd rfl h, rfl⟩
  | attempts + 1, s => by
    have hunfold : drawInstanceId entityId creationStep (attempts + 1) s =
        (if (s.instances.get? (instanceIdText entityId creationStep (s.draws 0))).isSome = true
          then drawInstanceId entityId creationStep attempts
          else pure (some (instanceIdText entityId creationStep (s.draws 0)))) (s.drawn 1) := rfl
    rw [hunfold]
    split
    · obtain ⟨k, hk, drawn, -, hrun⟩ :=
        drawInstanceId_drawn entityId creationStep attempts (s.drawn 1)
      refine ⟨k + 1, by omega, drawn, fun _ => by omega, ?_⟩
      rw [hrun, EntitySystem.drawn_drawn]
    · exact ⟨1, by omega, _, fun _ => Nat.one_pos, rfl⟩

theorem generateInstanceId_drawn (entityId : String) (creationStep : ℕ) (s : EntitySystem) :
    ∃ k, 0 < k ∧ ∃ instanceId,
      generateInstanceId entityId creationStep s = .ok instanceId (s.drawn k) := by
  obtain ⟨k, -, drawn, hpos, hrun⟩ := drawInstanceId_drawn entityId creationStep 5 s
  refine ⟨k, hpos (by omega), ?_⟩
  rw [generateInstanceId, run_bind_ok hrun]
  cases drawn with
  | some id => exact ⟨id, rfl⟩
  | none => exact ⟨_, rfl⟩

variable {entityId : String} {s : EntitySystem}

theorem findEntity_run {definition : EntityDefinition} {state : EntityState}
    (hdefinition : config.definitionById entityId = some definition)
    (hstate : s.entities.get? entityId = some state) :
    findEntity config entityId s = .ok (definition, state) s := by
  rw [findEntity, run_get_bind, hdefinition, hstate]
  rfl

theorem findEntity_missing
    (h : ∀ definition state, config.definitionById entityId = some definition →
      s.entities.get? entityId ≠ some state) :
    ∃ message, findEntity config entityId s = .error message s := by
  rw [findEntity, run_get_bind]
  cases hdefinition : config.definitionById entityId with
  | none => exact ⟨_, rfl⟩
  | some definition =>
    cases hstate : s.entities.get? entityId with
    | none => exact ⟨_, rfl⟩
    | some state => exact absurd hstate (h definition state hdefinition)

/-- There is room for one more instance beside `count`. -/
def HasRoom (config : EntityConfig) (conditionContext : Option ConditionContext)
    (definition : EntityDefinition) (step count : ℕ) : Prop :=
  ∃ maxCount, getMaxCount config conditionContext definition (count + 1) step = .ok maxCount ∧
    ¬ maxCount.any (· ≤ count)

/-- The stats of a new instance. -/
def newStats (config : EntityConfig) (conditionContext : Option ConditionContext)
    (definition : EntityDefinition) (step : ℕ) : Except String (OrderedMap String ℚ) :=
  computeStats definition 1 (buildFormulaContext config conditionContext 1 step)

section Create

variable {entityId : String} {creationStep : ℕ} {s : EntitySystem} {definition : EntityDefinition}
  {state : EntityState}

section

variable (hdefinition : config.definitionById entityId = some definition)
  (hstate : s.entities.get? entityId = some state) (htracks : definition.trackInstances = true)
include hdefinition hstate htracks

theorem createInstance_full
    (hfull : ¬ HasRoom config conditionContext definition creationStep state.count) :
    ∃ message, createInstance config conditionContext entityId creationStep s =
      .error message s := by
  rw [createInstance, run_bind_ok (findEntity_run hdefinition hstate)]
  simp only [htracks, Bool.true_eq_false, if_false]
  cases hmax : getMaxCount config conditionContext definition (state.count + 1) creationStep with
  | error message => exact ⟨message, rfl⟩
  | ok maxCount =>
    have hany : maxCount.any (· ≤ state.count) = true := by
      by_contra hnot
      exact hfull ⟨maxCount, hmax, hnot⟩
    refine ⟨"Entity \"" ++ entityId ++ "\" reached max count.", ?_⟩
    rw [run_bind_ok (show EntityM.ofExcept (Except.ok maxCount) s = .ok maxCount s from rfl),
      if_pos hany]
    rfl

/-- Where there is room, creating comes to the stats, and has drawn a number by then. -/
theorem createInstance_room
    (hroom : HasRoom config conditionContext definition creationStep state.count) :
    ∃ k, 0 < k ∧ ∃ instanceId, createInstance config conditionContext entityId creationStep s =
      (EntityM.ofExcept (newStats config conditionContext definition creationStep) >>= fun stats =>
        modifyGet fun s =>
          let state : EntityInstanceState :=
            { instanceId, entityId, level := 1, experience := 0, stats, assignment := none }
          (state, s.insertInstance state)) (s.drawn k) := by
  obtain ⟨maxCount, hmax, hany⟩ := hroom
  obtain ⟨k, hk, instanceId, hid⟩ := generateInstanceId_drawn entityId creationStep s
  refine ⟨k, hk, instanceId, ?_⟩
  rw [createInstance, run_bind_ok (findEntity_run hdefinition hstate)]
  simp only [htracks, Bool.true_eq_false, if_false]
  rw [hmax, run_bind_ok (show EntityM.ofExcept (Except.ok maxCount) s = .ok maxCount s from rfl),
    if_neg hany, run_bind_ok hid]
  rfl

variable {stats : OrderedMap String ℚ}

/-- An instance that is created raises the count. -/
theorem createInstance_ok
    (hroom : HasRoom config conditionContext definition creationStep state.count)
    (hstats : newStats config conditionContext definition creationStep = .ok stats) :
    ∃ instance' t, createInstance config conditionContext entityId creationStep s =
      .ok instance' t ∧ ∃ state', t.entities.get? entityId = some state' ∧
        state'.count = state.count + 1 := by
  obtain ⟨k, -, instanceId, hrun⟩ := createInstance_room hdefinition hstate htracks hroom
  rw [hstats] at hrun
  refine ⟨_, _, hrun, ?_⟩
  rw [EntitySystem.insertInstance, EntitySystem.get?_modifyEntity, if_pos rfl]
  exact ⟨_, congrArg _ hstate, rfl⟩

variable {message : String}

/-- An instance whose stats cannot be computed has cost the numbers of its id. -/
theorem createInstance_error
    (hroom : HasRoom config conditionContext definition creationStep state.count)
    (hstats : newStats config conditionContext definition creationStep = .error message) :
    ∃ k, 0 < k ∧ createInstance config conditionContext entityId creationStep s =
      .error message (s.drawn k) := by
  obtain ⟨k, hk, instanceId, hrun⟩ := createInstance_room hdefinition hstate htracks hroom
  rw [hstats] at hrun
  exact ⟨k, hk, hrun⟩

end

/-! ### One after the other -/

/-- The loop of `addEntity` over the instances it creates. -/
def createEach (config : EntityConfig) (conditionContext : Option ConditionContext)
    (entityId : String) (step : ℕ) (rounds : List ℕ) : EntityM PUnit :=
  rounds.forM fun _ => do
    let _ ← createInstance config conditionContext entityId step
    pure ()

variable {round : ℕ} {rounds : List ℕ} {t : EntitySystem}

theorem createEach_cons {created : EntityInstanceState}
    (hrun : createInstance config conditionContext entityId creationStep s = .ok created t) :
    createEach config conditionContext entityId creationStep (round :: rounds) s =
      createEach config conditionContext entityId creationStep rounds t := by
  have hround : (do
      let _ ← createInstance config conditionContext entityId creationStep
      pure () : EntityM PUnit) s = .ok ⟨⟩ t := by
    rw [run_bind_ok hrun]
    rfl
  exact run_bind_ok hround _

theorem createEach_cons_error
    (hrun : createInstance config conditionContext entityId creationStep s = .error message t) :
    createEach config conditionContext entityId creationStep (round :: rounds) s =
      .error message t :=
  run_bind_error (run_bind_error hrun _) _

section

variable (hdefinition : config.definitionById entityId = some definition)
  (htracks : definition.trackInstances = true)
  (hstats : newStats config conditionContext definition creationStep = .ok stats)
include hdefinition htracks hstats

/-- With room to the end, every instance is created. -/
theorem createEach_ok (rounds : List ℕ) (hstate : s.entities.get? entityId = some state) (hroom : ∀ i < rounds.length,
      HasRoom config conditionContext definition creationStep (state.count + i)) :
    ∃ t, createEach config conditionContext entityId creationStep rounds s = .ok ⟨⟩ t ∧
      ∃ state', t.entities.get? entityId = some state' ∧
        state'.count = state.count + rounds.length := by
  induction rounds generalizing s state with
  | nil => exact ⟨s, rfl, state, hstate, rfl⟩
  | cons round rounds ih =>
    obtain ⟨created, t, hrun, state', hstate', hcount⟩ :=
      createInstance_ok hdefinition hstate htracks (hroom 0 (by simp)) hstats
    obtain ⟨u, hrest, state'', hstate'', hcount'⟩ := ih hstate' fun i hi => by
      rw [hcount, Nat.add_assoc, Nat.add_comm 1 i]
      exact hroom (i + 1) (by simpa using hi)
    refine ⟨u, (createEach_cons hrun).trans hrest, state'', hstate'', ?_⟩
    rw [hcount', hcount, List.length_cons]
    omega

/-- Without room to the end, the loop throws, and keeps what it has created. -/
theorem createEach_full (rounds : List ℕ) (hstate : s.entities.get? entityId = some state)
    {i : ℕ} (hi : i < rounds.length)
    (hfull : ¬ HasRoom config conditionContext definition creationStep (state.count + i)) :
    ∃ message t, createEach config conditionContext entityId creationStep rounds s =
      .error message t ∧ ∃ state', t.entities.get? entityId = some state' ∧
        state.count ≤ state'.count ∧
        (HasRoom config conditionContext definition creationStep state.count →
          state.count < state'.count) := by
  induction rounds generalizing s state i with
  | nil => exact absurd hi (Nat.not_lt_zero i)
  | cons round rounds ih =>
    by_cases hroom : HasRoom config conditionContext definition creationStep state.count
    · obtain ⟨created, t, hrun, state', hstate', hcount⟩ :=
        createInstance_ok hdefinition hstate htracks hroom hstats
      -- the round without room is a later one
      obtain ⟨j, rfl⟩ : ∃ j, i = j + 1 := Nat.exists_eq_succ_of_ne_zero fun h0 => by
        rw [h0] at hfull
        exact hfull hroom
      obtain ⟨message, u, hrest, state'', hstate'', hcount', -⟩ :=
        ih hstate' (by simpa using hi) (by rwa [hcount, Nat.add_assoc, Nat.add_comm 1 j])
      exact ⟨message, u, (createEach_cons hrun).trans hrest, state'', hstate'', by omega,
        fun _ => by omega⟩
    · obtain ⟨message, hrun⟩ := createInstance_full hdefinition hstate htracks hroom
      exact ⟨message, s, createEach_cons_error hrun, state, hstate, le_rfl,
        fun h => absurd h hroom⟩

end

end Create

/-! ### Additions -/

/-- The counts, the instances, their lists and the generator are the same. -/
structure SameEntities (s t : EntitySystem) : Prop where
  entities : t.entities = s.entities
  instances : t.instances = s.instances
  entityInstances : t.entityInstances = s.entityInstances
  draws : t.draws = s.draws

theorem SameEntities.refl (s : EntitySystem) : SameEntities s s := ⟨rfl, rfl, rfl, rfl⟩

/-- The count of an entity is not lowered. -/
def CountKept (entityId : String) (s t : EntitySystem) : Prop :=
  ∀ state, s.entities.get? entityId = some state →
    ∃ state', t.entities.get? entityId = some state' ∧ state.count ≤ state'.count

/-- An addition that throws changes nothing, and one that returns lowers no count. -/
def AddsAtomically (config : EntityConfig) (conditionContext : Option ConditionContext)
    (entityId : String) (count : JsNumber) (step : ℕ) (s : EntitySystem) : Prop :=
  match addEntity config conditionContext entityId count step s with
  | .error _ t => SameEntities s t
  | .ok _ t => CountKept entityId s t

/-- When an addition does, for an entity that is found: instances are tracked and there is no room,
or there is room for all of them and their stats can be computed; or none are tracked and the
maximum, if there is one, has not fallen below the count. -/
def AddsWhole (config : EntityConfig) (conditionContext : Option ConditionContext)
    (entityId : String) (count : JsNumber) (step : ℕ) (s : EntitySystem) : Prop :=
  ∀ definition state, config.definitionById entityId = some definition →
    s.entities.get? entityId = some state → normalizeNonNegativeInt count ≠ 0 →
      if definition.trackInstances then
        HasRoom config conditionContext definition step state.count →
          (∀ i < normalizeNonNegativeInt count,
            HasRoom config conditionContext definition step (state.count + i)) ∧
          ∃ stats, newStats config conditionContext definition step = .ok stats
      else
        ∀ maxCount, getMaxCount config conditionContext definition
          (state.count + normalizeNonNegativeInt count) step = .ok (some maxCount) →
            state.count ≤ maxCount

section Add

variable {entityId : String} {count : JsNumber} {step : ℕ} {s t : EntitySystem}
  {definition : EntityDefinition} {state : EntityState} {message : String}

theorem addsAtomically_of_error
    (hrun : addEntity config conditionContext entityId count step s = .error message t) :
    AddsAtomically config conditionContext entityId count step s ↔ SameEntities s t := by
  rw [AddsAtomically, hrun]

theorem addsAtomically_of_ok
    (hrun : addEntity config conditionContext entityId count step s = .ok ⟨⟩ t) :
    AddsAtomically config conditionContext entityId count step s ↔ CountKept entityId s t := by
  rw [AddsAtomically, hrun]

theorem addsAtomically_missing
    (h : ∀ definition state, config.definitionById entityId = some definition →
      s.entities.get? entityId ≠ some state) :
    AddsAtomically config conditionContext entityId count step s := by
  obtain ⟨message, hfound⟩ := findEntity_missing h
  exact (addsAtomically_of_error (run_bind_error hfound _)).mpr (.refl s)

/-- Nothing is added where less than one is asked for. -/
theorem addEntity_none (hdefinition : config.definitionById entityId = some definition)
    (hstate : s.entities.get? entityId = some state) (hcount : normalizeNonNegativeInt count = 0) :
    addEntity config conditionContext entityId count step s = .ok ⟨⟩ s := by
  rw [addEntity, run_bind_ok (findEntity_run hdefinition hstate)]
  simp only [if_pos hcount]
  rfl

theorem countKept_iff {state' : EntityState} (hstate : s.entities.get? entityId = some state)
    (hstate' : t.entities.get? entityId = some state') :
    CountKept entityId s t ↔ state.count ≤ state'.count := by
  constructor
  · intro h
    obtain ⟨other, hother, hle⟩ := h state hstate
    rw [hstate'] at hother
    exact Option.some.inj hother ▸ hle
  · intro hle other hother
    rw [hstate] at hother
    exact ⟨state', hstate', Option.some.inj hother ▸ hle⟩

section

variable (hdefinition : config.definitionById entityId = some definition)
  (hstate : s.entities.get? entityId = some state) (hcount : normalizeNonNegativeInt count ≠ 0)
include hdefinition hstate hcount

theorem addEntity_tracked (htracks : definition.trackInstances = true) :
    addEntity config conditionContext entityId count step s =
      createEach config conditionContext entityId step
        (List.range (normalizeNonNegativeInt count)) s := by
  rw [addEntity, run_bind_ok (findEntity_run hdefinition hstate)]
  simp only [if_neg hcount, htracks, if_true]
  rfl

/-- The count of an entity without instances, after an addition. -/
def cutCount (count added : ℕ) (maxCount : Option ℕ) : ℕ :=
  (maxCount.map ((count + added) ⊓ ·)).getD (count + added)

theorem addEntity_counted (htracks : definition.trackInstances = false) {maxCount : Option ℕ}
    (hmax : getMaxCount config conditionContext definition
      (state.count + normalizeNonNegativeInt count) step = .ok maxCount) :
    ∃ t, addEntity config conditionContext entityId count step s = .ok ⟨⟩ t ∧
      ∃ state', t.entities.get? entityId = some state' ∧
        state'.count = cutCount state.count (normalizeNonNegativeInt count) maxCount := by
  rw [addEntity, run_bind_ok (findEntity_run hdefinition hstate)]
  simp only [if_neg hcount, htracks, Bool.false_eq_true, if_false]
  rw [hmax, run_bind_ok (show EntityM.ofExcept (Except.ok maxCount) s = .ok maxCount s from rfl)]
  refine ⟨_, rfl, ?_⟩
  rw [EntitySystem.get?_modifyEntity, if_pos rfl]
  exact ⟨_, congrArg _ hstate, rfl⟩

/-- A maximum that cannot be computed changes nothing. -/
theorem addEntity_counted_error (htracks : definition.trackInstances = false)
    (hmax : getMaxCount config conditionContext definition
      (state.count + normalizeNonNegativeInt count) step = .error message) :
    addEntity config conditionContext entityId count step s = .error message s := by
  rw [addEntity, run_bind_ok (findEntity_run hdefinition hstate)]
  simp only [if_neg hcount, htracks, Bool.false_eq_true, if_false]
  rw [hmax]
  rfl

/-- An addition without instances lowers no count unless the maximum is below it. -/
theorem addsAtomically_counted_iff (htracks : definition.trackInstances = false) :
    AddsAtomically config conditionContext entityId count step s ↔
      ∀ maxCount, getMaxCount config conditionContext definition
        (state.count + normalizeNonNegativeInt count) step = .ok (some maxCount) →
          state.count ≤ maxCount := by
  cases hmax : getMaxCount config conditionContext definition
      (state.count + normalizeNonNegativeInt count) step with
  | error message =>
    have hrun := addEntity_counted_error hdefinition hstate hcount htracks hmax
    exact iff_of_true ((addsAtomically_of_error hrun).mpr (.refl s)) fun _ h => (by cases h)
  | ok maxCount =>
    obtain ⟨t, hrun, state', hstate', htarget⟩ :=
      addEntity_counted hdefinition hstate hcount htracks hmax
    rw [addsAtomically_of_ok hrun, countKept_iff hstate hstate', htarget]
    cases maxCount with
    | none => exact iff_of_true (Nat.le_add_right _ _) fun _ h => (by cases h)
    | some maxCount =>
      rw [cutCount, Option.map_some, Option.getD_some]
      constructor
      · intro h other hother
        obtain rfl : maxCount = other := by simpa using hother
        omega
      · intro h
        have hle := h maxCount rfl
        omega

/-- An addition of instances changes nothing if there is no room for the first one, and creates
them all if there is room to the end. -/
theorem addsAtomically_tracked (htracks : definition.trackInstances = true)
    (h : HasRoom config conditionContext definition step state.count →
      (∀ i < normalizeNonNegativeInt count,
        HasRoom config conditionContext definition step (state.count + i)) ∧
      ∃ stats, newStats config conditionContext definition step = .ok stats) :
    AddsAtomically config conditionContext entityId count step s := by
  have hadd := @addEntity_tracked config conditionContext _ _ step _ _ _ hdefinition hstate hcount
    htracks
  obtain ⟨n, hn⟩ := Nat.exists_eq_succ_of_ne_zero hcount
  by_cases hroom : HasRoom config conditionContext definition step state.count
  · obtain ⟨hrooms, stats, hstats⟩ := h hroom
    obtain ⟨t, hrun, state', hstate', hcount'⟩ := createEach_ok hdefinition htracks hstats
      (List.range (normalizeNonNegativeInt count)) hstate (by rwa [List.length_range])
    rw [addsAtomically_of_ok (hadd.trans hrun), countKept_iff hstate hstate', hcount']
    exact Nat.le_add_right _ _
  · obtain ⟨message, hrun⟩ := createInstance_full hdefinition hstate htracks hroom
    rw [hn, List.range_succ_eq_map, createEach_cons_error hrun] at hadd
    exact (addsAtomically_of_error hadd).mpr (.refl s)

/-- What has drawn numbers or raised a count has changed the system; here the generator counts, so
that the numbers drawn are missed. -/
theorem room_of_addsAtomically (htracks : definition.trackInstances = true) (hdraws : s.draws = id)
    (h : AddsAtomically config conditionContext entityId count step s)
    (hroom : HasRoom config conditionContext definition step state.count) :
    (∀ i < normalizeNonNegativeInt count,
      HasRoom config conditionContext definition step (state.count + i)) ∧
    ∃ stats, newStats config conditionContext definition step = .ok stats := by
  have hadd := @addEntity_tracked config conditionContext _ _ step _ _ _ hdefinition hstate hcount
    htracks
  obtain ⟨n, hn⟩ := Nat.exists_eq_succ_of_ne_zero hcount
  cases hstats : newStats config conditionContext definition step with
  | error message =>
    obtain ⟨k, hk, hrun⟩ := createInstance_error hdefinition hstate htracks hroom hstats
    rw [hn, List.range_succ_eq_map, createEach_cons_error hrun] at hadd
    have hsame := ((addsAtomically_of_error hadd).mp h).draws
    rw [EntitySystem.drawn, hdraws] at hsame
    have hzero : 0 + k = 0 := congrFun hsame 0
    omega
  | ok stats =>
    refine ⟨fun i hi => ?_, stats, rfl⟩
    by_contra hfull
    obtain ⟨message, t, hrun, state', hstate', -, hmore⟩ := createEach_full hdefinition htracks
      hstats (List.range (normalizeNonNegativeInt count)) hstate (by rwa [List.length_range]) hfull
    have hsame := ((addsAtomically_of_error (hadd.trans hrun)).mp h).entities
    rw [hsame, hstate] at hstate'
    obtain rfl := Option.some.inj hstate'
    exact lt_irrefl _ (hmore hroom)

end

end Add

/-- **When additions are atomic.** Whatever numbers the generator returns, adding entities either
throws and changes nothing, or returns and lowers no count, if and only if there is room for none or
for all of the instances and their stats can be computed, or, without instances, the maximum has not
fallen below the count. -/
theorem addEntity_atomic_iff (config : EntityConfig) (conditionContext : Option ConditionContext)
    (entityId : String) (count : JsNumber) (step : ℕ) (s : EntitySystem) :
    (∀ draws, AddsAtomically config conditionContext entityId count step { s with draws }) ↔
      AddsWhole config conditionContext entityId count step s := by
  constructor
  · intro h definition state hdefinition hstate hcount
    have hseeded : ({ s with draws := id } : EntitySystem).entities.get? entityId = some state :=
      hstate
    split
    · next htracks => exact room_of_addsAtomically hdefinition hseeded hcount htracks rfl (h id)
    · next htracks =>
      exact (addsAtomically_counted_iff hdefinition hseeded hcount (by simpa using htracks)).mp
        (h id)
  · intro h draws
    by_cases hfound : ∃ definition state, config.definitionById entityId = some definition ∧
        s.entities.get? entityId = some state
    · obtain ⟨definition, state, hdefinition, hstate⟩ := hfound
      have hseeded : ({ s with draws } : EntitySystem).entities.get? entityId = some state := hstate
      by_cases hcount : normalizeNonNegativeInt count = 0
      · rw [addsAtomically_of_ok (addEntity_none hdefinition hseeded hcount),
          countKept_iff hseeded hseeded]
      have hwhole := h definition state hdefinition hstate hcount
      by_cases htracks : definition.trackInstances = true
      · rw [if_pos htracks] at hwhole
        exact addsAtomically_tracked hdefinition hseeded hcount htracks hwhole
      · rw [if_neg htracks] at hwhole
        exact (addsAtomically_counted_iff hdefinition hseeded hcount (by simpa using htracks)).mpr
          hwhole
    · exact addsAtomically_missing fun definition state hdefinition hstate =>
        hfound ⟨definition, state, hdefinition, hstate⟩

/-- An entity of which there may be `maxCount` at most. -/
def cappedEntity (id : String) (maxCount : ℚ) (trackInstances : Bool) : EntityDefinition :=
  { id, stats := [], maxCount := some fun _ => .ok (.fin maxCount), startCount := 0, trackInstances
    progression := none, unlockCondition := none, visibilityCondition := none, unlocked := true
    visible := true }

/-- One guard at most, each with its instance, and three workers at most. -/
def cappedEntities : EntityConfig :=
  { definitions := [cappedEntity "guard" 1 true, cappedEntity "worker" 3 false]
    nodup := by decide
    stepDurationMs := .fin 100 }

/-- Five workers, hired while there could be more of them. -/
def manyWorkers : EntitySystem :=
  (((EntitySystem.blank id).declare (cappedEntity "guard" 1 true)).declare
    (cappedEntity "worker" 3 false)).modifyEntity "worker" fun worker =>
      { worker with count := 5, availableCount := 5 }

/-- **Additions that are not atomic.** Two guards are asked for: one is created, and the addition
throws. One worker is asked for: two of the five are taken away. -/
theorem addition_not_atomic :
    ¬ AddsAtomically cappedEntities none "guard" (.fin 2) 0 manyWorkers ∧
      ¬ AddsAtomically cappedEntities none "worker" (.fin 1) 0 manyWorkers := by
  constructor
  · intro h
    obtain ⟨hrooms, -⟩ := @room_of_addsAtomically _ _ _ _ _ _ (cappedEntity "guard" 1 true)
      (initialEntityState (cappedEntity "guard" 1 true)) rfl rfl (by decide) rfl rfl h
      ⟨some 1, rfl, by decide⟩
    obtain ⟨maxCount, hmax, hnot⟩ := hrooms 1 (by decide)
    obtain rfl : some 1 = maxCount := Except.ok.inj hmax
    exact hnot (by decide)
  · intro h
    have hle := (@addsAtomically_counted_iff _ _ _ _ _ _ (cappedEntity "worker" 3 false)
      ⟨"worker", 5, 5, true, true⟩ rfl rfl (by decide) rfl).mp h 3 rfl
    exact absurd hle (by decide)

end IdleEngine
