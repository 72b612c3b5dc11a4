import IdleEngine.Entity.Operations
import IdleEngine.Entity.Saves

/-!
# Runs of the entity system

A system is created from its definitions, then operated on, ticked and restored from saves in any
order. In every state that is reached the counts are those of the two indexes
(`reachable_bookkept`).
-/

namespace IdleEngine

open Relation Stateful OrderedMap List

/-! ### Reachable states -/

/-- An operation of the entity system, with its arguments; a step that is not given is the current
one. The numbers drawn may be any. -/
inductive EntityOperation
  | addEntity (entityId : String) (count : JsNumber) (step : Option ℕ)
  | removeEntity (entityId : String) (count : JsNumber)
  | createInstance (entityId : String) (creationStep : Option ℕ)
  | destroyInstance (instanceId : String)
  | assignToMission (instanceId : String) (assignment : EntityAssignment)
  | returnFromMission (instanceId : String)
  | addExperience (fuel : ℕ) (instanceId : String) (amount : JsNumber) (step : Option ℕ)
  | tick (step : ℕ)

/-- What an operation does, in the context that it reads. -/
def EntityOperation.run (config : EntityConfig) (conditionContext : Option ConditionContext)
    (operation : EntityOperation) : EntityM Unit := do
  let s ← get
  match operation with
  | .addEntity entityId count step =>
      IdleEngine.addEntity config conditionContext entityId count (step.getD s.currentStep)
  | .removeEntity entityId count => IdleEngine.removeEntity config entityId count
  | .createInstance entityId creationStep => do
      let _ ← IdleEngine.createInstance config conditionContext entityId
        (creationStep.getD s.currentStep)
      pure ()
  | .destroyInstance instanceId => IdleEngine.destroyInstance instanceId
  | .assignToMission instanceId assignment => IdleEngine.assignToMission instanceId assignment
  | .returnFromMission instanceId => IdleEngine.returnFromMission instanceId
  | .addExperience fuel instanceId amount step =>
      IdleEngine.addExperience config conditionContext fuel instanceId amount
        (step.getD s.currentStep)
  | .tick step => EntitySystem.tick config conditionContext step

namespace EntitySystem

/-- The states that an entity system can reach. An operation that throws leaves what it has
changed; a save is one of a reachable state, written out or captured. -/
inductive Reachable (config : EntityConfig) : EntitySystem → Prop
  | created {s : EntitySystem} {conditionContext : Option ConditionContext} {draws : ℕ → ℕ}
      (h : initializeState config conditionContext (blank draws) = .ok ⟨⟩ s) : Reachable config s
  | operated {s : EntitySystem} (conditionContext : Option ConditionContext)
      (operation : EntityOperation) (h : Reachable config s) :
      Reachable config (final (operation.run config conditionContext s))
  | reseeded {s : EntitySystem} (draws : ℕ → ℕ) (h : Reachable config s) :
      Reachable config { s with draws }
  | restored {s saved : EntitySystem} (savedWorkerStep currentStep : Option ℚ)
      (h : Reachable config s) (hsaved : Reachable config saved) :
      Reachable config (s.restoreState config
        (deserialize (serializeEntitySystemState saved.toEntitySystemState) savedWorkerStep
          currentStep))
  | recaptured {s captured : EntitySystem} (h : Reachable config s)
      (hcaptured : Reachable config captured) :
      Reachable config (s.restoreState config captured.toEntitySystemState)

/-- The instances of an entity. -/
def instancesOf (s : EntitySystem) (entityId : String) : List EntityInstanceState :=
  (s.instances.entries.map Prod.snd).filter fun state => state.entityId = entityId

/-- The counts of every entity are those of the indexes, which describe the same instances. -/
structure Bookkept (config : EntityConfig) (s : EntitySystem) : Prop where
  tracked : ∀ definition ∈ config.definitions, definition.trackInstances = true →
    ∃ entity, s.entities.get? definition.id = some entity ∧
      entity.count = (s.instanceIds definition.id).length ∧
      entity.count = (s.instancesOf definition.id).length ∧
      entity.availableCount =
        ((s.instancesOf definition.id).filter fun state => state.assignment.isNone).length
  untracked : ∀ definition ∈ config.definitions, definition.trackInstances = false →
    ∃ entity, s.entities.get? definition.id = some entity ∧ entity.availableCount = entity.count
  unique : (s.entityInstances.entries.flatMap Prod.snd).Nodup
  indexed : ∀ entityId instanceId, instanceId ∈ s.instanceIds entityId ↔
    ∃ state, s.instances.get? instanceId = some state ∧ state.instanceId = instanceId ∧
      state.entityId = entityId

variable {config : EntityConfig} {s : EntitySystem}

/-! ### Creation -/

theorem blank_coherent (draws : ℕ → ℕ) : (blank draws).Coherent config [] := by
  constructor <;> simp [blank, OrderedMap.get?_empty, instanceIds]

theorem instanceIds_declare (definition : EntityDefinition) (id : String) :
    (s.declare definition).instanceIds id =
      if definition.id = id then [] else s.instanceIds id := by
  rw [instanceIds, declare, OrderedMap.get?_set]
  split <;> rfl

variable {ids : List String}

/-- An entity that is not known yet starts with no instance. -/
theorem Coherent.declare (h : s.Coherent config ids) {definition : EntityDefinition}
    (hnew : definition.id ∉ ids) :
    (s.declare definition).Coherent config (ids ++ [definition.id]) := by
  have hget : ∀ id, (s.declare definition).entities.get? id =
      if definition.id = id then some (initialEntityState definition) else s.entities.get? id :=
    fun id => OrderedMap.get?_set _ _ _ _
  -- the new id is none of the known ones, so their lists stay
  have hother : ∀ id ∈ ids, definition.id ≠ id := fun id hid heq => hnew (heq ▸ hid)
  constructor
  case known =>
    intro id
    rw [hget, mem_append, mem_singleton]
    split
    · rename_i hid
      simp [hid]
    · rename_i hid
      rw [h.known]
      simp [Ne.symm hid]
  case entity_id =>
    intro id entity hentity
    rw [hget] at hentity
    split at hentity
    · rename_i hid
      rw [← Option.some.inj hentity, ← hid]
      rfl
    · exact h.entity_id id entity hentity
  case owned =>
    intro id state hstate
    obtain ⟨hid, hknown, htracks, hmem⟩ := h.owned id state hstate
    refine ⟨hid, mem_append_left _ hknown, htracks, ?_⟩
    rw [instanceIds_declare, if_neg (hother _ hknown)]
    exact hmem
  case listed =>
    intro id instanceId hmem
    rw [instanceIds_declare] at hmem
    split at hmem
    · cases hmem
    · exact h.listed id instanceId hmem
  case nodup =>
    intro id
    rw [instanceIds_declare]
    split
    · exact nodup_nil
    · exact h.nodup id
  case tracked =>
    intro id entity htracks hentity
    rw [hget] at hentity
    rw [instanceIds_declare]
    split at hentity
    · rename_i hid
      rw [if_pos hid, ← Option.some.inj hentity]
      exact ⟨rfl, rfl⟩
    · rename_i hid
      rw [if_neg hid]
      exact h.tracked id entity htracks hentity
  case untracked =>
    intro id entity htracks hentity
    rw [hget] at hentity
    split at hentity
    · rw [← Option.some.inj hentity]
      rfl
    · exact h.untracked id entity htracks hentity

theorem Coherent.run {α : Type} {m : EntityM α} (h : s.Coherent config ids) (hm : m.Steps config) :
    (final (m s)).Coherent config ids :=
  hm.keeps (P := fun t : EntitySystem => t.Coherent config ids) (fun _ _ ht hstep => ht.step hstep) h

/-- The instances or the count that an entity starts with. -/
theorem initializeEntity_ok {conditionContext : Option ConditionContext}
    {definition : EntityDefinition} {t : EntitySystem} (h : s.Coherent config ids)
    (hnew : definition.id ∉ ids)
    (hrun : initializeEntity config conditionContext definition s = .ok ⟨⟩ t) :
    t.Coherent config (ids ++ [definition.id]) := by
  obtain ⟨_, u, hdeclare, hrest⟩ := bind_ok hrun
  injection hdeclare with _ hdeclare
  subst hdeclare
  have hdeclared : (s.declare definition).Coherent config (ids ++ [definition.id]) :=
    h.declare hnew
  have hfinal : t = final (.ok ⟨⟩ t : EStateM.Result String EntitySystem PUnit) := rfl
  rw [hfinal, ← hrest]
  refine hdeclared.run ?_
  split
  · exact .pure _
  · split
    · refine .bind (readsOnly_ofExcept _).steps fun maxCount => ?_
      exact .forM fun _ _ =>
        (createInstance_steps definition.id 0).bind fun _ => .pure _
    · exact addEntity_steps definition.id _ 0

/-- Definitions that are initialized one after the other. -/
theorem initialize_coherent {conditionContext : Option ConditionContext} :
    ∀ {definitions : List EntityDefinition} {ids : List String} {s t : EntitySystem},
      s.Coherent config ids → (ids ++ definitions.map (·.id)).Nodup →
      definitions.forM (initializeEntity config conditionContext) s = .ok ⟨⟩ t →
      t.Coherent config (ids ++ definitions.map (·.id))
  | [], ids, s, t, h, _, hrun => by
    injection hrun with _ hst
    simpa [hst] using h
  | definition :: definitions, ids, s, t, h, hnodup, hrun => by
    obtain ⟨_, u, hfirst, hrest⟩ := bind_ok hrun
    have hnew : definition.id ∉ ids := by
      intro hmem
      exact (nodup_append.mp hnodup).2.2 _ hmem _ (by simp) rfl
    have hids : ids ++ (definition :: definitions).map (·.id) =
        (ids ++ [definition.id]) ++ definitions.map (·.id) := by simp
    rw [hids] at hnodup ⊢
    exact initialize_coherent (initializeEntity_ok h hnew hfirst) hnodup hrest

/-! ### Reachable states are coherent -/

theorem EntityOperation_run_steps (conditionContext : Option ConditionContext)
    (operation : EntityOperation) : (operation.run config conditionContext).Steps config := by
  refine .bind .get fun s => ?_
  cases operation with
  | addEntity entityId count step => exact addEntity_steps _ _ _
  | removeEntity entityId count => exact removeEntity_steps _ _
  | createInstance entityId creationStep =>
    exact (createInstance_steps _ _).bind fun _ => .pure _
  | destroyInstance instanceId => exact destroyInstance_steps _
  | assignToMission instanceId assignment => exact assignToMission_steps _ _
  | returnFromMission instanceId => exact returnFromMission_steps _
  | addExperience fuel instanceId amount step => exact addExperience_steps _ _ _ _
  | tick step => exact tick_steps _

theorem Reachable.coherent (h : Reachable config s) :
    s.Coherent config (config.definitions.map (·.id)) := by
  induction h with
  | created hrun =>
    have hcoherent := initialize_coherent (blank_coherent _) (by simpa using config.nodup) hrun
    simpa using hcoherent
  | operated conditionContext operation _ ih =>
    exact ih.run (EntityOperation_run_steps conditionContext operation)
  | reseeded draws _ ih => exact ih.step (.host _ _ draws)
  | restored savedWorkerStep currentStep _ _ _ ihsaved =>
    exact restoreState_coherent ihsaved (sameBooks_serialized ihsaved savedWorkerStep currentStep) _
  | recaptured _ _ _ ihcaptured => exact restoreState_coherent ihcaptured (sameBooks_self _) _

/-! ### The books -/

theorem mem_instancesOf {entityId : String} {state : EntityInstanceState} :
    state ∈ s.instancesOf entityId ↔
      (∃ id, s.instances.get? id = some state) ∧ state.entityId = entityId := by
  rw [instancesOf, mem_filter, mem_map, decide_eq_true_iff]
  refine and_congr_left fun _ => ⟨?_, ?_⟩
  · rintro ⟨entry, hentry, rfl⟩
    exact ⟨entry.1, get?_eq_some_iff.mpr hentry⟩
  · rintro ⟨id, hid⟩
    exact ⟨(id, state), get?_eq_some_iff.mp hid, rfl⟩

theorem Coherent.instancesOf_perm (h : s.Coherent config ids) (entityId : String) :
    List.Perm ((s.instancesOf entityId).map (·.instanceId)) (s.instanceIds entityId) := by
  have hkeys : (s.instances.entries.map Prod.snd).map (·.instanceId) =
      s.instances.entries.map Prod.fst := by
    rw [List.map_map]
    exact map_congr_left fun entry hentry =>
      (h.owned entry.1 entry.2 (get?_eq_some_iff.mpr hentry)).1
  have hnodup : ((s.instancesOf entityId).map (·.instanceId)).Nodup := by
    refine List.Nodup.sublist (filter_sublist.map _) ?_
    rw [hkeys]
    exact s.instances.nodup
  rw [perm_ext_iff_of_nodup hnodup (h.nodup entityId)]
  intro id
  rw [mem_map]
  constructor
  · rintro ⟨state, hstate, rfl⟩
    obtain ⟨⟨id, hid⟩, rfl⟩ := mem_instancesOf.mp hstate
    obtain ⟨hname, -, -, hmem⟩ := h.owned id state hid
    rwa [hname]
  · intro hid
    obtain ⟨state, hstate, hentity⟩ := h.listed entityId id hid
    exact ⟨state, mem_instancesOf.mpr ⟨⟨id, hstate⟩, hentity⟩, (h.owned id state hstate).1⟩

theorem Coherent.length_free (h : s.Coherent config ids) (entityId : String) :
    ((s.instancesOf entityId).filter fun state => state.assignment.isNone).length =
      (s.instanceIds entityId).countP s.isFree := by
  rw [← (h.instancesOf_perm entityId).countP_eq, countP_map, ← countP_eq_length_filter]
  refine countP_congr fun state hstate => ?_
  obtain ⟨⟨id, hid⟩, -⟩ := mem_instancesOf.mp hstate
  have hname := (h.owned id state hid).1
  simp [isFree, hname, hid]

/-- No id stands in two lists. -/
theorem Coherent.unique (h : s.Coherent config ids) :
    (s.entityInstances.entries.flatMap Prod.snd).Nodup := by
  have hlist : ∀ entry ∈ s.entityInstances.entries, s.instanceIds entry.1 = entry.2 := by
    intro entry hentry
    rw [instanceIds, get?_eq_some_iff.mpr hentry, Option.getD_some]
  rw [nodup_flatMap]
  refine ⟨fun entry hentry => hlist entry hentry ▸ h.nodup entry.1, ?_⟩
  have hkeys := pairwise_map.mp s.entityInstances.nodup
  refine List.Pairwise.imp_of_mem (fun {a b} ha hb hab => ?_) hkeys
  intro id hida hidb
  rw [← hlist a ha] at hida
  rw [← hlist b hb] at hidb
  obtain ⟨state, hstate, hentity⟩ := h.listed _ id hida
  obtain ⟨other, hother, hentity'⟩ := h.listed _ id hidb
  rw [hstate] at hother
  exact hab (hentity.symm.trans ((congrArg _ (Option.some.inj hother)).trans hentity'))

theorem Coherent.bookkept (h : s.Coherent config (config.definitions.map (·.id))) :
    s.Bookkept config where
  tracked definition hmem htracks := by
    have hknown := (h.known definition.id).mpr (mem_map.mpr ⟨definition, hmem, rfl⟩)
    obtain ⟨entity, hentity⟩ := Option.isSome_iff_exists.mp hknown
    obtain ⟨hcount, havailable⟩ := h.tracked definition.id entity
      ⟨definition, EntityConfig.definitionById_of_mem hmem, htracks⟩ hentity
    have hlength := (h.instancesOf_perm definition.id).length_eq
    rw [length_map] at hlength
    exact ⟨entity, hentity, hcount, hcount.trans hlength.symm,
      havailable.trans (h.length_free definition.id).symm⟩
  untracked definition hmem huntracked := by
    have hknown := (h.known definition.id).mpr (mem_map.mpr ⟨definition, hmem, rfl⟩)
    obtain ⟨entity, hentity⟩ := Option.isSome_iff_exists.mp hknown
    refine ⟨entity, hentity, h.untracked definition.id entity (fun htracks => ?_) hentity⟩
    rw [EntityConfig.tracks_iff (EntityConfig.definitionById_of_mem hmem), huntracked] at htracks
    cases htracks
  unique := h.unique
  indexed entityId instanceId := by
    constructor
    · intro hid
      obtain ⟨state, hstate, hentity⟩ := h.listed entityId instanceId hid
      exact ⟨state, hstate, (h.owned instanceId state hstate).1, hentity⟩
    · rintro ⟨state, hstate, -, rfl⟩
      exact (h.owned instanceId state hstate).2.2.2

end EntitySystem

/-- In every state that an entity system can reach the stored counts are those of its indexes. -/
theorem reachable_bookkept {config : EntityConfig} {s : EntitySystem}
    (h : EntitySystem.Reachable config s) : s.Bookkept config :=
  h.coherent.bookkept

/-- Scouts, each of them tracked. -/
def scoutDefinition : EntityDefinition where
  id := "scout"
  stats := [⟨"speed", .constant (.fin 3), none, none⟩]
  maxCount := none
  startCount := 0
  trackInstances := true
  progression := none
  unlockCondition := none
  visibilityCondition := none
  unlocked := true
  visible := true

def scoutConfig : EntityConfig where
  definitions := [scoutDefinition]
  nodup := List.nodup_singleton _
  stepDurationMs := .fin 100

/-- The system before there is any scout. -/
def scoutStart : EntitySystem := (EntitySystem.blank fun _ => 7).declare scoutDefinition

theorem scoutStart_created :
    initializeState scoutConfig none (EntitySystem.blank fun _ => 7) = .ok ⟨⟩ scoutStart := rfl

/-- A scout is created. -/
def scoutCreated : EntitySystem :=
  final ((EntityOperation.createInstance "scout" none).run scoutConfig none scoutStart)

/-- The scout is sent on a mission. -/
def scoutSent : EntitySystem :=
  final ((EntityOperation.assignToMission "scout_0_000007"
    ⟨"expedition", "1", .fin 0, .fin 5⟩).run scoutConfig none scoutCreated)

example : (scoutSent.entities.get? "scout").map (fun entity =>
    (entity.count, entity.availableCount)) = some (1, 0) := by decide +kernel

/-- The books of the game in which a scout was sent on a mission. -/
theorem reachable_bookkept_scout : scoutSent.Bookkept scoutConfig :=
  reachable_bookkept (.operated none _ (.operated none _ (.created scoutStart_created)))

end IdleEngine
