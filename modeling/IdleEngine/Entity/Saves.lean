import IdleEngine.Entity.Bookkeeping

/-!
# Saving and restoring entities

A save lists the entities, the instances and the instance ids of each entity, sorted by id. Restoring
puts them back over the initial states of the definitions, moves the steps of assignments to the
step at which the game goes on, and counts the instances of tracked entities anew. A system restored
from the save of a coherent one is coherent (`EntitySystem.restoreState_coherent`).
-/

namespace IdleEngine

open OrderedMap OrderedMap List Option Prod

/-- A `SerializedEntityInstanceState` with the stats of the model. -/
structure SavedEntityInstance where
  instanceId : String
  entityId : String
  level : JsNumber
  experience : JsNumber
  stats : OrderedMap String ℚ
  assignment : Option EntityAssignment

/-- `SerializedEntitySystemState`. -/
structure SavedEntities where
  entities : List SerializedEntity
  instances : List SavedEntityInstance
  entityInstances : List SerializedEntityInstanceList

/-- Sorted by an id, as `compareStableStrings` compares. -/
def sortById {α : Type} (id : α → String) (values : List α) : List α :=
  values.insertionSort fun left right => codeUnits (id left) ≤ codeUnits (id right)

/-- An assignment in a save. -/
def serializeAssignment (assignment : EntityAssignment) : EntityAssignment :=
  { assignment with
    deployedAtStep := .fin (normalizeNonNegativeInt assignment.deployedAtStep)
    returnStep := .fin (normalizeNonNegativeInt assignment.returnStep) }

/-- An instance in a save. -/
def serializeInstance (state : EntityInstanceState) : SavedEntityInstance :=
  { instanceId := state.instanceId
    entityId := state.entityId
    level := .fin (if state.level = 0 then (1 : ℕ) else state.level)
    experience := .fin state.experience
    stats := state.stats
    assignment := state.assignment.map serializeAssignment }

/-- An entity in a save. -/
def serializeEntity (entity : EntityState) : SerializedEntity :=
  { id := entity.id
    count := .fin entity.count
    availableCount := .fin entity.availableCount
    unlocked := entity.unlocked
    visible := entity.visible }

/-- `serializeEntitySystemState`. -/
def serializeEntitySystemState (state : EntitySystemState) : SavedEntities :=
  { entities := (sortById EntityState.id (state.entities.entries.map Prod.snd)).map serializeEntity
    instances := (sortById EntityInstanceState.instanceId
      (state.instances.entries.map Prod.snd)).map serializeInstance
    entityInstances := (sortById Prod.fst state.entityInstances.entries).map fun entry =>
      { entityId := entry.1, instanceIds := entry.2 } }

/-- A step of a save at the step at which the game goes on. -/
def shiftStep (stepOffset : ℚ) (step : JsNumber) : JsNumber :=
  .fin (normalizeNonNegativeInt ((step.finite?.map fun step => .fin (step + stepOffset)).getD step))

/-- An entity of a save. -/
def deserializeEntity (entry : SerializedEntity) : EntityState :=
  { id := entry.id
    count := normalizeNonNegativeInt entry.count
    availableCount := normalizeNonNegativeInt entry.availableCount
    unlocked := entry.unlocked
    visible := entry.visible }

/-- An instance of a save. -/
def deserializeInstance (stepOffset : ℚ) (entry : SavedEntityInstance) : EntityInstanceState :=
  { instanceId := entry.instanceId
    entityId := entry.entityId
    level := 1 ⊔ normalizeNonNegativeInt entry.level
    experience := normalizeFiniteNumber entry.experience
    stats := entry.stats
    assignment := entry.assignment.map fun assignment =>
      { assignment with
        deployedAtStep := shiftStep stepOffset assignment.deployedAtStep
        returnStep := shiftStep stepOffset assignment.returnStep } }

/-- The instance ids of each entity, of a save that does not list them. -/
def groupByEntity (instances : OrderedMap String EntityInstanceState) :
    OrderedMap String (List String) :=
  instances.entries.foldl
    (fun byEntity entry =>
      byEntity.set entry.2.entityId
        ((byEntity.get? entry.2.entityId).getD [] ++ [entry.2.instanceId]))
    OrderedMap.empty

/-- The steps from the save to the step at which the game goes on; none without both. -/
def saveOffset (savedWorkerStep currentStep : Option ℚ) : ℚ :=
  (currentStep.bind fun current => savedWorkerStep.map fun saved => current - saved).getD 0

/-- `deserialize`. -/
def deserialize (serialized : SavedEntities) (savedWorkerStep currentStep : Option ℚ) :
    EntitySystemState :=
  let stepOffset := saveOffset savedWorkerStep currentStep
  let instances := serialized.instances.foldl
    (fun instances entry =>
      instances.set entry.instanceId (deserializeInstance stepOffset entry)) OrderedMap.empty
  { entities := serialized.entities.foldl
      (fun entities entry => entities.set entry.id (deserializeEntity entry)) OrderedMap.empty
    instances
    entityInstances :=
      if serialized.entityInstances = [] then groupByEntity instances
      else
        serialized.entityInstances.foldl
          (fun lists entry => lists.set entry.entityId entry.instanceIds) OrderedMap.empty }

/-- An entity of a save over its initial state; one without a definition is taken as it is. -/
def mergeEntity (current : Option EntityState) (entry : EntityState) : EntityState :=
  { entry with id := (current.map EntityState.id).getD entry.id }

/-- The counts of a tracked entity, taken from its instance ids. -/
def EntitySystem.recount (s : EntitySystem) (definition : EntityDefinition) : EntitySystem :=
  if definition.trackInstances then
    let list := s.instanceIds definition.id
    let assignedCount := list.countP fun instanceId =>
      (s.instances.get? instanceId).any fun state => state.assignment.isSome
    s.modifyEntity definition.id fun entity =>
      { entity with count := list.length, availableCount := list.length - assignedCount }
  else s

/-- The maps of `restoreState` before the instances are counted. -/
def EntitySystem.restoredMaps (config : EntityConfig) (s : EntitySystem)
    (resolved : EntitySystemState) : EntitySystem :=
  let initial := config.definitions.foldl
    (fun entities definition => entities.set definition.id (initialEntityState definition))
    OrderedMap.empty
  let lists := config.definitions.foldl
    (fun lists definition => lists.set definition.id []) OrderedMap.empty
  { s with
    entities := resolved.entities.entries.foldl
      (fun entities entry => entities.set entry.1 (mergeEntity (entities.get? entry.1) entry.2))
      initial
    instances := resolved.instances.entries.foldl
      (fun instances entry => instances.set entry.1 entry.2) OrderedMap.empty
    entityInstances := resolved.entityInstances.entries.foldl
      (fun lists entry => lists.set entry.1 entry.2) lists }

/-- `restoreState`, from the maps of a state. -/
def EntitySystem.restoreState (config : EntityConfig) (s : EntitySystem)
    (resolved : EntitySystemState) : EntitySystem :=
  config.definitions.foldl EntitySystem.recount (s.restoredMaps config resolved)

/-! ### Maps that are written out and set again -/

variable {K V W : Type} {m : OrderedMap K V}

/-- Values that are set again under their keys, in any order, are found where they were. -/
theorem get?_rebuild [DecidableEq K] {key : V → K} (hkey : ∀ k v, m.get? k = some v → key v = k)
    {values : List V} (hvalues : List.Perm values (m.entries.map snd)) (g : V → W)
    (n : OrderedMap K W) (k : K) :
    (values.foldl (fun n v => n.set (key v) (g v)) n).get? k =
      ((m.get? k).map g).or (n.get? k) := by
  have hpair : ∀ entry ∈ m.entries, key entry.2 = entry.1 := fun entry hentry =>
    hkey entry.1 entry.2 (get?_eq_some_iff.mpr hentry)
  have hkeys : List.Perm (values.map key) (m.entries.map fst) := by
    refine (hvalues.map key).trans (.of_eq ?_)
    rw [List.map_map]
    exact map_congr_left hpair
  have hnodup : ((values.map fun v => (key v, g v)).map fst).Nodup := by
    rw [List.map_map]
    exact hkeys.nodup_iff.mpr m.nodup
  have hfold : values.foldl (fun n v => n.set (key v) (g v)) n =
      (values.map fun v => (key v, g v)).foldl (fun n entry => n.set entry.1 entry.2) n := by
    rw [foldl_map]
  rw [hfold, get?_foldl_set hnodup]
  congr 1
  ext w
  rw [SortedEntries.find_eq_some_iff hnodup, map_eq_some_iff, List.mem_map]
  constructor
  · rintro ⟨v, hv, heq⟩
    obtain ⟨rfl, rfl⟩ := mk.inj heq
    obtain ⟨entry, hentry, rfl⟩ := mem_map.mp (hvalues.mem_iff.mp hv)
    rw [hpair entry hentry]
    exact ⟨entry.2, get?_eq_some_iff.mpr hentry, rfl⟩
  · rintro ⟨v, hv, rfl⟩
    refine ⟨v, hvalues.mem_iff.mpr (mem_map.mpr ⟨(k, v), get?_eq_some_iff.mp hv, rfl⟩), ?_⟩
    rw [hkey k v hv]

theorem get?_foldl_entries [DecidableEq K] {l : List (K × V)} (hl : List.Perm l m.entries)
    (n : OrderedMap K V) (k : K) :
    (l.foldl (fun n entry => n.set entry.1 entry.2) n).get? k = (m.get? k).or (n.get? k) := by
  have hnodup : (l.map fst).Nodup := (hl.map fst).nodup_iff.mpr m.nodup
  rw [get?_foldl_set hnodup]
  congr 1
  ext v
  rw [SortedEntries.find_eq_some_iff hnodup, hl.mem_iff, get?_eq_some_iff]

/-- Entries of distinct keys that are merged into a map one after the other. -/
theorem get?_foldl_merge [DecidableEq K] (merge : Option W → V → W) :
    ∀ {l : List (K × V)} (_ : (l.map fst).Nodup) (n : OrderedMap K W) (k : K),
      (l.foldl (fun n entry => n.set entry.1 (merge (n.get? entry.1) entry.2)) n).get? k =
        ((find k l).map (merge (n.get? k))).or (n.get? k)
  | [], _, n, k => rfl
  | (k', v) :: l, hl, n, k => by
    obtain ⟨hnew, hnodup⟩ := nodup_cons.mp hl
    rw [foldl_cons, get?_foldl_merge merge hnodup, get?_set, find]
    by_cases hk : k' = k
    · subst hk
      rw [find_eq_none hnew]
      simp
    · simp [hk]

variable {config : EntityConfig} {definition : EntityDefinition}

theorem EntityConfig.id_of_definitionById {entityId : String}
    (h : config.definitionById entityId = some definition) :
    definition.id = entityId := by
  simpa using find?_some h

theorem EntityConfig.definitionById_of_mem (h : definition ∈ config.definitions) :
    config.definitionById definition.id = some definition := by
  rw [EntityConfig.definitionById]
  cases hfind : config.definitions.find? fun other => other.id = definition.id with
  | none =>
    have hnot := find?_eq_none.mp hfind definition h
    simp at hnot
  | some other =>
    have hid : other.id = definition.id := EntityConfig.id_of_definitionById hfind
    rw [inj_on_of_nodup_map config.nodup (mem_of_find?_eq_some hfind) h hid]

/-! ### What a save keeps -/

namespace EntitySystem

variable {config : EntityConfig} {s : EntitySystem}

/-- Maps that hold the same entities and the same lists, and instances of the same entities with and
without assignments. -/
structure SameBooks (s : EntitySystem) (resolved : EntitySystemState) : Prop where
  entities : ∀ id, resolved.entities.get? id = s.entities.get? id
  instances : ∃ image : EntityInstanceState → EntityInstanceState,
    (∀ state, (image state).instanceId = state.instanceId ∧
      (image state).entityId = state.entityId ∧
      (image state).assignment.isNone = state.assignment.isNone) ∧
    ∀ id, resolved.instances.get? id = (s.instances.get? id).map image
  lists : ∀ id, (resolved.entityInstances.get? id).getD [] = s.instanceIds id

theorem deserializeEntity_serializeEntity (entity : EntityState) :
    deserializeEntity (serializeEntity entity) = entity := by
  simp [deserializeEntity, serializeEntity, normalizeNonNegativeInt_natCast]

variable {α : Type}

theorem sortById_perm (id : α → String) (values : List α) :
    List.Perm (sortById id values) values := perm_insertionSort _ _

variable {ids : List String}

theorem sameBooks_serialized (h : s.Coherent config ids) (savedWorkerStep currentStep : Option ℚ) :
    s.SameBooks (deserialize (serializeEntitySystemState s.toEntitySystemState) savedWorkerStep
      currentStep) := by
  have hinstances : ∀ (stepOffset : ℚ) (id : String),
      (((sortById EntityInstanceState.instanceId (s.instances.entries.map snd)).map
        serializeInstance).foldl (fun instances entry =>
          instances.set entry.instanceId (deserializeInstance stepOffset entry))
          OrderedMap.empty).get? id =
        (s.instances.get? id).map fun state =>
          deserializeInstance stepOffset (serializeInstance state) := by
    intro stepOffset id
    rw [foldl_map]
    have hrebuild := get?_rebuild (fun id state hstate => (h.owned id state hstate).1)
      (sortById_perm EntityInstanceState.instanceId _)
      (fun state => deserializeInstance stepOffset (serializeInstance state)) OrderedMap.empty id
    exact hrebuild.trans (or_none ..)
  constructor
  case entities =>
    intro id
    have hrebuild := get?_rebuild (fun id entity hentity => h.entity_id id entity hentity)
      (sortById_perm EntityState.id _) (fun entity => entity) OrderedMap.empty id
    simp only [deserialize, serializeEntitySystemState, foldl_map,
      deserializeEntity_serializeEntity]
    refine hrebuild.trans ?_
    simp [get?_empty]
  case instances =>
    refine ⟨fun state => deserializeInstance (saveOffset savedWorkerStep currentStep)
      (serializeInstance state), fun state => ⟨rfl, rfl, ?_⟩, hinstances _⟩
    change ((state.assignment.map _).map _).isNone = _
    rw [isNone_map, isNone_map]
  case lists =>
    intro id
    by_cases hempty : s.entityInstances.entries = []
    · -- without a list there is no instance either
      have hids : ∀ id, s.instanceIds id = [] := by
        intro id
        rw [instanceIds, OrderedMap.get?, hempty]
        rfl
      have hnone : s.instances.entries = [] := by
        refine eq_nil_iff_forall_not_mem.mpr fun entry hentry => ?_
        have hmem := (h.owned entry.1 entry.2 (get?_eq_some_iff.mpr hentry)).2.2.2
        rw [hids] at hmem
        cases hmem
      rw [hids, deserialize, serializeEntitySystemState, hempty, hnone]
      rfl
    · have hlisted : (serializeEntitySystemState s.toEntitySystemState).entityInstances ≠ [] := by
        intro hnil
        have hsorted := map_eq_nil_iff.mp hnil
        have hperm := sortById_perm fst s.entityInstances.entries
        rw [hsorted] at hperm
        exact hempty (nil_perm.mp hperm)
      have hlists : (deserialize (serializeEntitySystemState s.toEntitySystemState)
          savedWorkerStep currentStep).entityInstances.get? id = s.entityInstances.get? id := by
        refine (congrArg (OrderedMap.get? · id) (if_neg hlisted)).trans ?_
        rw [serializeEntitySystemState, foldl_map,
          get?_foldl_entries (sortById_perm fst _), get?_empty, or_none]
      rw [hlists, instanceIds]

theorem sameBooks_self (s : EntitySystem) : s.SameBooks s.toEntitySystemState :=
  ⟨fun _ => rfl, ⟨id, fun _ => ⟨rfl, rfl, rfl⟩, fun _ => by simp⟩, fun _ => rfl⟩

/-! ### Restoring -/

/-- Counting the instances of a tracked entity anew gives the counts that it has. -/
theorem Coherent.recount (h : s.Coherent config ids) {definition : EntityDefinition}
    (hmem : definition ∈ config.definitions) :
    (s.recount definition).Coherent config ids := by
  rw [EntitySystem.recount]
  split
  · rename_i htracks
    have hdefinition : config.Tracks definition.id :=
      ⟨definition, config.definitionById_of_mem hmem, htracks⟩
    refine h.modifyEntity (fun _ => rfl) (fun entity _ hentity => ?_) fun _ huntracked =>
      absurd hdefinition huntracked
    obtain ⟨hcount, havailable⟩ := h.tracked _ entity hdefinition hentity
    have hassigned : (s.instanceIds definition.id).countP (fun instanceId =>
        (s.instances.get? instanceId).any fun state => state.assignment.isSome) =
        (s.instanceIds definition.id).countP fun instanceId => !s.isFree instanceId := by
      refine countP_congr fun instanceId hlisted => ?_
      obtain ⟨state, hstate, -⟩ := h.listed _ instanceId hlisted
      rw [isFree, hstate]
      simp
    have hsplit := length_eq_countP_add_countP s.isFree (l := s.instanceIds definition.id)
    dsimp only
    rw [hassigned, hcount, havailable]
    simp only [Bool.not_eq_true, Bool.decide_eq_false] at hsplit
    omega
  · exact h

/-- What holds the books of a coherent system is coherent. -/
theorem Coherent.of_books {t : EntitySystem} (h : s.Coherent config ids)
    (hknown : ∀ id, (t.entities.get? id).isSome = (s.entities.get? id).isSome)
    (hentities : ∀ id entity, t.entities.get? id = some entity →
      ∃ before, s.entities.get? id = some before ∧ entity.id = before.id ∧
        entity.count = before.count ∧ entity.availableCount = before.availableCount)
    (hinstances : ∃ image : EntityInstanceState → EntityInstanceState,
      (∀ state, (image state).instanceId = state.instanceId ∧
        (image state).entityId = state.entityId ∧
        (image state).assignment.isNone = state.assignment.isNone) ∧
      ∀ id, t.instances.get? id = (s.instances.get? id).map image)
    (hlists : t.instanceIds = s.instanceIds) : t.Coherent config ids := by
  obtain ⟨image, himage, hget⟩ := hinstances
  have hfree : t.isFree = s.isFree := by
    funext id
    rw [isFree, isFree, hget, Option.any_map]
    congr 1
    funext state
    exact (himage state).2.2
  constructor
  case known => exact fun id => by rw [hknown, h.known]
  case entity_id =>
    intro id entity hentity
    obtain ⟨before, hbefore, hid, -⟩ := hentities id entity hentity
    rw [hid, h.entity_id id before hbefore]
  case owned =>
    intro id state hstate
    rw [hget] at hstate
    obtain ⟨before, hbefore, rfl⟩ := map_eq_some_iff.mp hstate
    rw [(himage before).1, (himage before).2.1, hlists]
    exact h.owned id before hbefore
  case listed =>
    intro entityId id hid
    rw [hlists] at hid
    obtain ⟨state, hstate, hentity⟩ := h.listed entityId id hid
    exact ⟨image state, by rw [hget, hstate]; rfl, (himage state).2.1.trans hentity⟩
  case nodup => exact fun id => hlists ▸ h.nodup id
  case tracked =>
    intro id entity htracks hentity
    obtain ⟨before, hbefore, -, hcount, havailable⟩ := hentities id entity hentity
    rw [hlists, hfree, hcount, havailable]
    exact h.tracked id before htracks hbefore
  case untracked =>
    intro id entity htracks hentity
    obtain ⟨before, hbefore, -, hcount, havailable⟩ := hentities id entity hentity
    rw [hcount, havailable]
    exact h.untracked id before htracks hbefore

theorem get?_definitions (value : EntityDefinition → α) (id : String) :
    ((config.definitions.foldl (fun m definition => m.set definition.id (value definition))
      OrderedMap.empty).get? id) = (config.definitionById id).map value := by
  have hnodup : ((config.definitions.map fun definition =>
      (definition.id, value definition)).map fst).Nodup := by
    rw [List.map_map]
    exact config.nodup
  have hfold : config.definitions.foldl
      (fun m definition => m.set definition.id (value definition)) OrderedMap.empty =
      (config.definitions.map fun definition => (definition.id, value definition)).foldl
        (fun m entry => m.set entry.1 entry.2) OrderedMap.empty := by
    rw [foldl_map]
  rw [hfold, get?_foldl_set hnodup, get?_empty, or_none,
    EntityConfig.definitionById]
  induction config.definitions with
  | nil => rfl
  | cons definition definitions ih =>
    rw [map_cons, find, find?_cons]
    by_cases hid : definition.id = id
    · simp [hid]
    · simpa [hid] using ih

/-- A system that is restored from the books of a coherent one is coherent, whatever it held
before. -/
theorem restoreState_coherent {saved : EntitySystem} {resolved : EntitySystemState}
    (h : saved.Coherent config (config.definitions.map (·.id))) (hbooks : saved.SameBooks resolved)
    (s : EntitySystem) :
    (s.restoreState config resolved).Coherent config (config.definitions.map (·.id)) := by
  have hdefined : ∀ id, (config.definitionById id).isSome = (saved.entities.get? id).isSome := by
    intro id
    rw [Bool.eq_iff_iff, h.known, EntityConfig.definitionById, find?_isSome]
    simp
  -- the definitions are entered first, and what was saved is merged over them
  have hentity : ∀ id, (s.restoredMaps config resolved).entities.get? id =
      ((saved.entities.get? id).map (mergeEntity ((config.definitionById id).map
        initialEntityState))).or ((config.definitionById id).map initialEntityState) := by
    intro id
    rw [restoredMaps]
    have hmerge := get?_foldl_merge mergeEntity resolved.entities.nodup
      (config.definitions.foldl
        (fun entities definition => entities.set definition.id (initialEntityState definition))
        OrderedMap.empty) id
    rw [get?_definitions] at hmerge
    rw [← hbooks.entities id]
    exact hmerge
  have hrestored : (s.restoredMaps config resolved).Coherent config
      (config.definitions.map (·.id)) := by
    refine h.of_books ?_ ?_ ?_ ?_
    · intro id
      rw [hentity, ← hdefined]
      cases hdefinition : config.definitionById id with
      | none =>
        have hnone := hdefined id
        rw [hdefinition] at hnone
        have hsaved : saved.entities.get? id = none := by simpa using hnone.symm
        simp [hsaved]
      | some definition => cases saved.entities.get? id <;> simp
    · intro id entity hget
      rw [hentity] at hget
      cases hsaved : saved.entities.get? id with
      | none =>
        have hnone := hdefined id
        rw [hsaved] at hnone
        have hdefinition : config.definitionById id = none := by simpa using hnone
        rw [hsaved, hdefinition] at hget
        cases hget
      | some before =>
        rw [hsaved] at hget
        obtain rfl := some.inj hget
        refine ⟨before, rfl, ?_, rfl, rfl⟩
        rw [h.entity_id id before hsaved, mergeEntity]
        cases hdefinition : config.definitionById id with
        | none => exact h.entity_id id before hsaved
        | some definition => exact EntityConfig.id_of_definitionById hdefinition
    · obtain ⟨image, himage, hinstances⟩ := hbooks.instances
      refine ⟨image, himage, fun id => ?_⟩
      rw [← hinstances id]
      refine (get?_foldl_entries (.refl _) OrderedMap.empty id).trans ?_
      rw [get?_empty, or_none]
    · funext id
      rw [← hbooks.lists id, instanceIds]
      have hlist := get?_foldl_entries (.refl resolved.entityInstances.entries)
        (config.definitions.foldl (fun lists definition => lists.set definition.id [])
          OrderedMap.empty) id
      rw [get?_definitions] at hlist
      refine (congrArg (getD · []) hlist).trans ?_
      cases resolved.entityInstances.get? id with
      | none => cases config.definitionById id <;> rfl
      | some list => rfl
  -- one tracked definition after the other is counted again
  rw [restoreState]
  exact foldlRecOn (motive := fun t : EntitySystem =>
    t.Coherent config (config.definitions.map (·.id))) _ _ hrestored
    fun t ht definition hmem => ht.recount hmem

end EntitySystem

end IdleEngine
