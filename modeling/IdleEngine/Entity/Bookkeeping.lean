import IdleEngine.Entity.System

/-!
# The bookkeeping of entities

Every operation of the entity system is made of a few kinds of steps (`EntityStep`): an instance is
added to both indexes, removed from both, assigned, unassigned or trained, the counts of an entity
without instances move together, and what is visible or unlocked changes. Each keeps the counts in
line with the indexes (`EntitySystem.Coherent`).
-/

namespace IdleEngine

open Relation Stateful OrderedMap List

/-- The instances of an entity are tracked. -/
def EntityConfig.Tracks (config : EntityConfig) (entityId : String) : Prop :=
  ∃ definition, config.definitionById entityId = some definition ∧
    definition.trackInstances = true

namespace EntitySystem

/-- An instance without an assignment. -/
def isFree (s : EntitySystem) (instanceId : String) : Bool :=
  (s.instances.get? instanceId).any fun state => state.assignment.isNone

/-- The indexes describe the same instances, the counts are those of the indexes; `ids` are the
entities that have a state. -/
structure Coherent (config : EntityConfig) (ids : List String) (s : EntitySystem) : Prop where
  known : ∀ entityId, (s.entities.get? entityId).isSome ↔ entityId ∈ ids
  entity_id : ∀ entityId entity, s.entities.get? entityId = some entity → entity.id = entityId
  owned : ∀ instanceId state, s.instances.get? instanceId = some state →
    state.instanceId = instanceId ∧ state.entityId ∈ ids ∧ config.Tracks state.entityId ∧
      instanceId ∈ s.instanceIds state.entityId
  listed : ∀ entityId, ∀ instanceId ∈ s.instanceIds entityId,
    ∃ state, s.instances.get? instanceId = some state ∧ state.entityId = entityId
  nodup : ∀ entityId, (s.instanceIds entityId).Nodup
  tracked : ∀ entityId entity, config.Tracks entityId → s.entities.get? entityId = some entity →
    entity.count = (s.instanceIds entityId).length ∧
      entity.availableCount = (s.instanceIds entityId).countP s.isFree
  untracked : ∀ entityId entity, ¬ config.Tracks entityId →
    s.entities.get? entityId = some entity → entity.availableCount = entity.count

end EntitySystem

/-- What one step of an operation does. -/
inductive EntityStep (config : EntityConfig) : EntitySystem → EntitySystem → Prop
  /-- Time goes on and numbers are drawn. -/
  | host (s : EntitySystem) (currentStep : ℕ) (draws : ℕ → ℕ) :
      EntityStep config s { s with currentStep, draws }
  | create {s : EntitySystem} {state : EntityInstanceState}
      (hentity : (s.entities.get? state.entityId).isSome) (htracks : config.Tracks state.entityId)
      (hfresh : s.instances.get? state.instanceId = none) (hfree : state.assignment = none) :
      EntityStep config s (s.insertInstance state)
  | destroy {s : EntitySystem} {instanceId : String} {state : EntityInstanceState}
      (h : s.instances.get? instanceId = some state) :
      EntityStep config s (s.removeInstance instanceId state)
  | assign {s : EntitySystem} {instanceId : String} {state : EntityInstanceState}
      (assignment : EntityAssignment) (h : s.instances.get? instanceId = some state)
      (hfree : state.assignment = none) :
      EntityStep config s (s.assign instanceId state assignment)
  | unassign {s : EntitySystem} {instanceId : String} {state : EntityInstanceState}
      (h : s.instances.get? instanceId = some state) (hassigned : state.assignment.isSome) :
      EntityStep config s (s.unassign instanceId state)
  /-- An instance gets experience, a level or stats. -/
  | train {s : EntitySystem} {instanceId : String} {state trained : EntityInstanceState}
      (h : s.instances.get? instanceId = some state) (hid : trained.instanceId = state.instanceId)
      (hentity : trained.entityId = state.entityId)
      (hassignment : trained.assignment = state.assignment) :
      EntityStep config s (s.setInstance instanceId trained)
  /-- The counts of an entity without instances move together. -/
  | recount {s : EntitySystem} {entityId : String} {f : EntityState → EntityState}
      (huntracked : ¬ config.Tracks entityId) (hid : ∀ entity, (f entity).id = entity.id)
      (hcounts : ∀ entity, s.entities.get? entityId = some entity →
        entity.availableCount = entity.count → (f entity).availableCount = (f entity).count) :
      EntityStep config s (s.modifyEntity entityId f)
  | reveal {s : EntitySystem} {entityId : String} {f : EntityState → EntityState}
      (hid : ∀ entity, (f entity).id = entity.id)
      (hcount : ∀ entity, (f entity).count = entity.count)
      (havailable : ∀ entity, (f entity).availableCount = entity.availableCount) :
      EntityStep config s (s.modifyEntity entityId f)

/-! ### What the updates leave as it is -/

namespace EntitySystem

variable {config : EntityConfig} {s : EntitySystem}

theorem get?_modifyEntity (s : EntitySystem) (entityId id : String)
    (f : EntityState → EntityState) :
    (s.modifyEntity entityId f).entities.get? id =
      if entityId = id then (s.entities.get? id).map f else s.entities.get? id := by
  rw [modifyEntity]
  cases h : s.entities.get? entityId with
  | none =>
    by_cases hid : entityId = id
    · rw [if_pos hid, ← hid]
      simp [h]
    · rw [if_neg hid]
  | some entity =>
    change (s.entities.set entityId (f entity)).get? id = _
    rw [get?_set]
    by_cases hid : entityId = id
    · rw [if_pos hid, if_pos hid, ← hid, h]
      rfl
    · rw [if_neg hid, if_neg hid]

@[simp]
theorem instances_modifyEntity (entityId : String) (f : EntityState → EntityState) :
    (s.modifyEntity entityId f).instances = s.instances := by
  rw [modifyEntity]
  split <;> rfl

@[simp]
theorem entityInstances_modifyEntity (entityId : String) (f : EntityState → EntityState) :
    (s.modifyEntity entityId f).entityInstances = s.entityInstances := by
  rw [modifyEntity]
  split <;> rfl

@[simp]
theorem instanceIds_modifyEntity (entityId : String) (f : EntityState → EntityState) :
    (s.modifyEntity entityId f).instanceIds = s.instanceIds := by
  funext id
  rw [instanceIds, instanceIds, entityInstances_modifyEntity]

@[simp]
theorem isFree_modifyEntity (entityId : String) (f : EntityState → EntityState) :
    (s.modifyEntity entityId f).isFree = s.isFree := by
  funext id
  rw [isFree, isFree, instances_modifyEntity]

@[simp]
theorem isSome_modifyEntity (entityId id : String) (f : EntityState → EntityState) :
    ((s.modifyEntity entityId f).entities.get? id).isSome = (s.entities.get? id).isSome := by
  rw [get?_modifyEntity]
  split <;> simp

theorem instances_insertInstance (state : EntityInstanceState) :
    (s.insertInstance state).instances = s.instances.set state.instanceId state := by
  rw [insertInstance, instances_modifyEntity]

theorem instanceIds_insertInstance (state : EntityInstanceState) (id : String) :
    (s.insertInstance state).instanceIds id =
      if state.entityId = id then s.instanceIds id ++ [state.instanceId] else s.instanceIds id := by
  rw [insertInstance, instanceIds_modifyEntity, instanceIds, get?_set]
  split
  · rename_i hid
    rw [hid, Option.getD_some]
  · rfl

theorem isFree_insertInstance (state : EntityInstanceState) (id : String) :
    (s.insertInstance state).isFree id =
      if state.instanceId = id then state.assignment.isNone else s.isFree id := by
  rw [isFree, instances_insertInstance, get?_set]
  split <;> rfl

theorem instances_removeInstance (instanceId : String) (state : EntityInstanceState) :
    (s.removeInstance instanceId state).instances = s.instances.erase instanceId := by
  rw [removeInstance, instances_modifyEntity]

theorem instanceIds_removeInstance (instanceId : String) (state : EntityInstanceState)
    (id : String) :
    (s.removeInstance instanceId state).instanceIds id =
      if state.entityId = id then (s.instanceIds id).erase instanceId else s.instanceIds id := by
  rw [removeInstance, instanceIds_modifyEntity, instanceIds, instanceIds]
  by_cases hid : state.entityId = id
  · rw [if_pos hid, ← hid]
    cases hlist : s.entityInstances.get? state.entityId with
    | none => simp [hlist]
    | some list => simp [get?_set]
  · rw [if_neg hid]
    cases hlist : s.entityInstances.get? state.entityId with
    | none => rfl
    | some list => simp [get?_set, hid]

theorem isFree_removeInstance (instanceId : String) (state : EntityInstanceState) (id : String) :
    (s.removeInstance instanceId state).isFree id =
      if instanceId = id then false else s.isFree id := by
  rw [isFree, instances_removeInstance, get?_erase]
  split <;> rfl

theorem countP_eq_erase {list : List String} {p q : String → Bool} {id : String}
    (hnodup : list.Nodup) (hmem : id ∈ list) (hagree : ∀ other, other ≠ id → q other = p other) :
    list.countP q = (list.erase id).countP p + if q id then 1 else 0 := by
  have hrest : (list.erase id).countP q = (list.erase id).countP p :=
    countP_congr fun other hother =>
      by rw [hagree other fun heq => hnodup.not_mem_erase (heq ▸ hother)]
  rw [(perm_cons_erase hmem).countP_eq q, countP_cons, hrest]

namespace Coherent

variable {ids : List String}

/-- A state of an entity that was changed comes from the state before. -/
theorem of_modifyEntity {entityId id : String} {f : EntityState → EntityState}
    {entity : EntityState} (h : (s.modifyEntity entityId f).entities.get? id = some entity) :
    (entityId = id ∧ ∃ before, s.entities.get? id = some before ∧ entity = f before) ∨
      entityId ≠ id ∧ s.entities.get? id = some entity := by
  rw [get?_modifyEntity] at h
  split at h
  · rename_i hid
    obtain ⟨before, hbefore, rfl⟩ := Option.map_eq_some_iff.mp h
    exact .inl ⟨hid, before, hbefore, rfl⟩
  · rename_i hid
    exact .inr ⟨hid, h⟩

variable {instanceId : String}

theorem notMem_of_fresh (h : s.Coherent config ids) (hfresh : s.instances.get? instanceId = none)
    (entityId : String) :
    instanceId ∉ s.instanceIds entityId := by
  intro hmem
  obtain ⟨state, hstate, -⟩ := h.listed entityId instanceId hmem
  rw [hfresh] at hstate
  cases hstate

/-- What only changes how an entity is shown, or counts that move together. -/
theorem modifyEntity (h : s.Coherent config ids) {entityId : String}
    {f : EntityState → EntityState} (hid : ∀ entity, (f entity).id = entity.id)
    (htracked : ∀ entity, config.Tracks entityId → s.entities.get? entityId = some entity →
      (f entity).count = entity.count ∧ (f entity).availableCount = entity.availableCount)
    (huntracked : ∀ entity, ¬ config.Tracks entityId → s.entities.get? entityId = some entity →
      (f entity).availableCount = (f entity).count) :
    (s.modifyEntity entityId f).Coherent config ids where
  known id := by rw [isSome_modifyEntity, h.known]
  entity_id id entity hentity := by
    rcases of_modifyEntity hentity with ⟨-, before, hbefore, rfl⟩ | ⟨-, hbefore⟩
    · rw [hid, h.entity_id id before hbefore]
    · exact h.entity_id id entity hbefore
  owned instanceId state hstate := by
    rw [instances_modifyEntity] at hstate
    rw [instanceIds_modifyEntity]
    exact h.owned instanceId state hstate
  listed id instanceId hmem := by
    rw [instanceIds_modifyEntity] at hmem
    rw [instances_modifyEntity]
    exact h.listed id instanceId hmem
  nodup id := by
    rw [instanceIds_modifyEntity]
    exact h.nodup id
  tracked id entity htracks hentity := by
    rw [instanceIds_modifyEntity, isFree_modifyEntity]
    rcases of_modifyEntity hentity with ⟨rfl, before, hbefore, rfl⟩ | ⟨-, hbefore⟩
    · rw [(htracked before htracks hbefore).1, (htracked before htracks hbefore).2]
      exact h.tracked _ before htracks hbefore
    · exact h.tracked id entity htracks hbefore
  untracked id entity htracks hentity := by
    rcases of_modifyEntity hentity with ⟨rfl, before, hbefore, rfl⟩ | ⟨-, hbefore⟩
    · exact huntracked before htracks hbefore
    · exact h.untracked id entity htracks hbefore

variable {state : EntityInstanceState}

variable (h : s.Coherent config ids)
include h

theorem insertInstance (hentity : (s.entities.get? state.entityId).isSome)
    (htracks : config.Tracks state.entityId) (hfresh : s.instances.get? state.instanceId = none)
    (hfree : state.assignment = none) :
    (s.insertInstance state).Coherent config ids where
  known id := by
    rw [EntitySystem.insertInstance, isSome_modifyEntity]
    exact h.known id
  entity_id id entity hget := by
    rcases of_modifyEntity hget with ⟨-, before, hbefore, rfl⟩ | ⟨-, hbefore⟩
    · exact h.entity_id id before hbefore
    · exact h.entity_id id entity hbefore
  owned instanceId other hother := by
    rw [instances_insertInstance, get?_set] at hother
    rw [instanceIds_insertInstance]
    split at hother
    · rename_i hid
      obtain rfl := Option.some.inj hother
      refine ⟨hid, (h.known _).mp hentity, htracks, ?_⟩
      rw [if_pos rfl, hid]
      simp
    · obtain ⟨hid, hknown, htracks', hmem⟩ := h.owned instanceId other hother
      refine ⟨hid, hknown, htracks', ?_⟩
      split
      · exact mem_append_left _ hmem
      · exact hmem
  listed id instanceId hmem := by
    rw [instanceIds_insertInstance] at hmem
    rw [instances_insertInstance, get?_set]
    by_cases hnew : state.instanceId = instanceId
    · refine ⟨state, if_pos hnew, ?_⟩
      -- a fresh id is on no list, so only its own entity can have listed it
      by_contra hne
      rw [if_neg hne] at hmem
      exact h.notMem_of_fresh (hnew ▸ hfresh) id hmem
    · rw [if_neg hnew]
      split at hmem
      · refine h.listed id instanceId ((mem_append.mp hmem).resolve_right fun hlast => ?_)
        exact hnew (mem_singleton.mp hlast).symm
      · exact h.listed id instanceId hmem
  nodup id := by
    rw [instanceIds_insertInstance]
    split
    · refine nodup_append.mpr ⟨h.nodup id, by simp, fun a ha b hb hab => ?_⟩
      obtain rfl := mem_singleton.mp hb
      exact h.notMem_of_fresh hfresh id (hab ▸ ha)
    · exact h.nodup id
  tracked id entity htracks' hget := by
    -- the entries that were there are as free as before
    have hcount : (s.instanceIds id).countP (s.insertInstance state).isFree =
        (s.instanceIds id).countP s.isFree := by
      refine countP_congr fun other hother => ?_
      rw [isFree_insertInstance, if_neg fun heq => ?_]
      exact h.notMem_of_fresh hfresh id (heq ▸ hother)
    rw [instanceIds_insertInstance]
    rcases of_modifyEntity hget with ⟨rfl, before, hbefore, rfl⟩ | ⟨hne, hbefore⟩
    · obtain ⟨hlength, havailable⟩ := h.tracked _ before htracks' hbefore
      rw [if_pos rfl, length_append, countP_append, hcount, ← hlength, ← havailable]
      simp [isFree_insertInstance, hfree]
    · rw [if_neg hne, hcount]
      exact h.tracked id entity htracks' hbefore
  untracked id entity htracks' hget := by
    rcases of_modifyEntity hget with ⟨rfl, -⟩ | ⟨-, hbefore⟩
    · exact absurd htracks htracks'
    · exact h.untracked id entity htracks' hbefore

theorem removeInstance (hstate : s.instances.get? instanceId = some state) :
    (s.removeInstance instanceId state).Coherent config ids where
  known id := by
    rw [EntitySystem.removeInstance, isSome_modifyEntity]
    exact h.known id
  entity_id id entity hget := by
    rcases of_modifyEntity hget with ⟨-, before, hbefore, rfl⟩ | ⟨-, hbefore⟩
    · exact h.entity_id id before hbefore
    · exact h.entity_id id entity hbefore
  owned otherId other hother := by
    rw [instances_removeInstance, get?_erase] at hother
    rw [instanceIds_removeInstance]
    split at hother
    · cases hother
    · rename_i hne
      obtain ⟨hid, hknown, htracks, hmem⟩ := h.owned otherId other hother
      refine ⟨hid, hknown, htracks, ?_⟩
      split
      · exact (mem_erase_of_ne (Ne.symm hne)).mpr hmem
      · exact hmem
  listed id otherId hmem := by
    rw [instanceIds_removeInstance] at hmem
    have hne : instanceId ≠ otherId := by
      rintro rfl
      -- the removed instance is in the list of its own entity only
      split at hmem
      · exact (h.nodup id).not_mem_erase hmem
      · rename_i hentity
        obtain ⟨other, hother, hid⟩ := h.listed id instanceId hmem
        rw [hstate] at hother
        obtain rfl := Option.some.inj hother
        exact hentity hid
    rw [instances_removeInstance, get?_erase, if_neg hne]
    split at hmem
    · exact h.listed id otherId (mem_of_mem_erase hmem)
    · exact h.listed id otherId hmem
  nodup id := by
    rw [instanceIds_removeInstance]
    split
    · exact (h.nodup id).erase instanceId
    · exact h.nodup id
  tracked id entity htracks hget := by
    have hfree : ∀ other, other ≠ instanceId →
        (s.removeInstance instanceId state).isFree other = s.isFree other := by
      intro other hne
      rw [isFree_removeInstance, if_neg (Ne.symm hne)]
    rw [instanceIds_removeInstance]
    rcases of_modifyEntity hget with ⟨rfl, before, hbefore, rfl⟩ | ⟨hne, hbefore⟩
    · obtain ⟨hlength, havailable⟩ := h.tracked _ before htracks hbefore
      have hmem := (h.owned instanceId state hstate).2.2.2
      have hpositive := length_pos_of_mem hmem
      have hbeforeCount := countP_eq_erase (h.nodup state.entityId) hmem fun other _ =>
        rfl (a := s.isFree other)
      have hrest : ((s.instanceIds state.entityId).erase instanceId).countP
          (s.removeInstance instanceId state).isFree =
          ((s.instanceIds state.entityId).erase instanceId).countP s.isFree :=
        countP_congr fun other hother => by
          rw [hfree other fun heq => (h.nodup state.entityId).not_mem_erase (heq ▸ hother)]
      have hself : s.isFree instanceId = state.assignment.isNone := by
        rw [isFree, hstate]
        rfl
      rw [if_pos rfl, length_erase_of_mem hmem, hrest]
      refine ⟨by rw [hlength], ?_⟩
      rw [hself] at hbeforeCount
      dsimp only
      split <;> simp_all
    · rw [if_neg hne]
      have hcount : (s.instanceIds id).countP (s.removeInstance instanceId state).isFree =
          (s.instanceIds id).countP s.isFree := by
        refine countP_congr fun other hother => ?_
        rw [hfree other]
        rintro rfl
        obtain ⟨otherState, hother, hid⟩ := h.listed id other hother
        rw [hstate] at hother
        obtain rfl := Option.some.inj hother
        exact hne hid
      rw [hcount]
      exact h.tracked id entity htracks hbefore
  untracked id entity htracks hget := by
    rcases of_modifyEntity hget with ⟨rfl, -⟩ | ⟨-, hbefore⟩
    · exact absurd (h.owned instanceId state hstate).2.2.1 htracks
    · exact h.untracked id entity htracks hbefore

/-- What replaces an instance by one of the same entity, and moves the available count of the entity
as the assignment of the instance moves. -/
theorem replaceInstance {t : EntitySystem}
    {replaced : EntityInstanceState} (hstate : s.instances.get? instanceId = some state)
    (hid : replaced.instanceId = state.instanceId) (hentity : replaced.entityId = state.entityId)
    (hinstances : t.instances = s.instances.set instanceId replaced)
    (hlists : t.instanceIds = s.instanceIds)
    (hknown : ∀ id, (t.entities.get? id).isSome = (s.entities.get? id).isSome)
    (hentities : ∀ id entity, t.entities.get? id = some entity →
      ∃ before, s.entities.get? id = some before ∧ entity.id = before.id ∧
        entity.count = before.count ∧
        (state.entityId ≠ id → entity.availableCount = before.availableCount) ∧
        (state.entityId = id → ∀ rest,
          before.availableCount = rest + (if state.assignment.isNone then 1 else 0) →
          entity.availableCount = rest + (if replaced.assignment.isNone then 1 else 0))) :
    t.Coherent config ids := by
  have hget : ∀ id, t.instances.get? id =
      if instanceId = id then some replaced else s.instances.get? id := by
    intro id
    rw [hinstances, get?_set]
  have hfree : ∀ id, t.isFree id =
      if instanceId = id then replaced.assignment.isNone else s.isFree id := by
    intro id
    rw [isFree, hget]
    split <;> rfl
  obtain ⟨hinstanceId, hstateKnown, hstateTracks, hmem⟩ := h.owned instanceId state hstate
  constructor
  case known => exact fun id => by rw [hknown, h.known]
  case entity_id =>
    intro id entity hget'
    obtain ⟨before, hbefore, hidEq, -⟩ := hentities id entity hget'
    rw [hidEq, h.entity_id id before hbefore]
  case owned =>
    intro otherId other hother
    rw [hget] at hother
    rw [hlists]
    split at hother
    · rename_i heq
      obtain rfl := Option.some.inj hother
      rw [hid, hentity, ← heq]
      exact ⟨hinstanceId, hstateKnown, hstateTracks, hmem⟩
    · exact h.owned otherId other hother
  case listed =>
    intro id otherId hother
    rw [hlists] at hother
    obtain ⟨other, hotherState, hotherEntity⟩ := h.listed id otherId hother
    rw [hget]
    split
    · rename_i heq
      rw [← heq, hstate] at hotherState
      obtain rfl := Option.some.inj hotherState
      exact ⟨replaced, rfl, hentity.trans hotherEntity⟩
    · exact ⟨other, hotherState, hotherEntity⟩
  case nodup => exact fun id => hlists ▸ h.nodup id
  case tracked =>
    intro id entity htracks hget'
    obtain ⟨before, hbefore, -, hcount, hother, hown⟩ := hentities id entity hget'
    obtain ⟨hlength, havailable⟩ := h.tracked id before htracks hbefore
    rw [hlists]
    refine ⟨hcount.trans hlength, ?_⟩
    by_cases hid : state.entityId = id
    · subst hid
      have hsplit := countP_eq_erase (h.nodup state.entityId) hmem fun other _ =>
        rfl (a := s.isFree other)
      have hrest : ∀ other, other ≠ instanceId → t.isFree other = s.isFree other :=
        fun other hne => by rw [hfree other, if_neg (Ne.symm hne)]
      have hsplit' := countP_eq_erase (h.nodup state.entityId) hmem hrest
      rw [hsplit', hfree instanceId, if_pos rfl]
      have hself : s.isFree instanceId = state.assignment.isNone := by
        rw [isFree, hstate]
        rfl
      rw [hself] at hsplit
      exact hown rfl _ (havailable.trans hsplit)
    · rw [hother hid, havailable]
      refine countP_congr fun otherId hotherMem => ?_
      rw [hfree, if_neg]
      -- the replaced instance is in the list of its own entity only
      rintro rfl
      obtain ⟨otherState, hotherState, hotherEntity⟩ := h.listed id instanceId hotherMem
      rw [hstate] at hotherState
      obtain rfl := Option.some.inj hotherState
      exact hid hotherEntity
  case untracked =>
    intro id entity htracks hget'
    obtain ⟨before, hbefore, -, hcount, hother, -⟩ := hentities id entity hget'
    have hne : state.entityId ≠ id := fun heq => htracks (heq ▸ hstateTracks)
    rw [hcount, hother hne]
    exact h.untracked id before htracks hbefore

theorem assign (assignment : EntityAssignment)
    (hstate : s.instances.get? instanceId = some state) (hfree : state.assignment = none) :
    (s.assign instanceId state assignment).Coherent config ids := by
  refine h.replaceInstance hstate (by rfl) (by rfl) (instances_modifyEntity _ _)
    (instanceIds_modifyEntity _ _)
    (fun id => isSome_modifyEntity _ _ _) fun id entity hget => ?_
  rcases of_modifyEntity hget with ⟨hid, before, hbefore, rfl⟩ | ⟨hne, hbefore⟩
  · refine ⟨before, hbefore, rfl, rfl, fun hne => absurd hid hne, fun _ rest hrest => ?_⟩
    simp [hfree] at hrest ⊢
    omega
  · exact ⟨entity, hbefore, rfl, rfl, fun _ => rfl, fun hid => absurd hid hne⟩

theorem unassign (hstate : s.instances.get? instanceId = some state)
    (hassigned : state.assignment.isSome) :
    (s.unassign instanceId state).Coherent config ids := by
  refine h.replaceInstance hstate (by rfl) (by rfl) (instances_modifyEntity _ _)
    (instanceIds_modifyEntity _ _)
    (fun id => isSome_modifyEntity _ _ _) fun id entity hget => ?_
  have hnot : state.assignment.isNone = false := by simpa using hassigned
  rcases of_modifyEntity hget with ⟨hid, before, hbefore, rfl⟩ | ⟨hne, hbefore⟩
  · refine ⟨before, hbefore, rfl, rfl, fun hne => absurd hid hne, fun _ rest hrest => ?_⟩
    simp [hnot] at hrest ⊢
    omega
  · exact ⟨entity, hbefore, rfl, rfl, fun _ => rfl, fun hid => absurd hid hne⟩

theorem train {trained : EntityInstanceState} (hstate : s.instances.get? instanceId = some state)
    (hid : trained.instanceId = state.instanceId) (hentity : trained.entityId = state.entityId)
    (hassignment : trained.assignment = state.assignment) :
    (s.setInstance instanceId trained).Coherent config ids :=
  h.replaceInstance hstate hid hentity rfl rfl (fun _ => rfl) fun id entity hget =>
    ⟨entity, hget, rfl, rfl, fun _ => rfl, fun _ _ hrest => by rw [hassignment]; exact hrest⟩

end Coherent

end EntitySystem

/-- Every step keeps the counts in line with the indexes. -/
theorem EntitySystem.Coherent.step {config : EntityConfig} {ids : List String}
    {s t : EntitySystem} (h : s.Coherent config ids) (hstep : EntityStep config s t) :
    t.Coherent config ids := by
  cases hstep with
  | host currentStep draws => exact { h with }
  | create hentity htracks hfresh hfree => exact h.insertInstance hentity htracks hfresh hfree
  | destroy hstate => exact h.removeInstance hstate
  | assign assignment hstate hfree => exact h.assign assignment hstate hfree
  | unassign hstate hassigned => exact h.unassign hstate hassigned
  | train hstate hid hentity hassignment => exact h.train hstate hid hentity hassignment
  | recount huntracked hid hcounts =>
    exact h.modifyEntity hid (fun _ htracks => absurd htracks huntracked) fun entity htracks hget =>
      hcounts entity hget (h.untracked _ entity htracks hget)
  | reveal hid hcount havailable =>
    refine h.modifyEntity hid (fun entity _ _ => ⟨hcount entity, havailable entity⟩)
      fun entity htracks hget => ?_
    rw [hcount, havailable]
    exact h.untracked _ entity htracks hget

end IdleEngine
