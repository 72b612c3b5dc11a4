import IdleEngine.Content.DetectCycles
import IdleEngine.Lib.DependencyOrder
import IdleEngine.Progression.UpgradeEffects

/-!
# Circular unlocks of a content pack

`validateUnlockConditionCycles` collects, for each id, the entities whose unlock conditions name it,
and searches that graph for a cycle. Where only `allOf` and atomic conditions are used, the graph
holds the references between ids (`edge_unlockAdjacency`), with one exception: a condition on how
often a layer was reset is filed under the id of the resource that counts the resets, and that
resource is not connected to the layer. So a pack without an issue has its entities in an order
that puts dependencies first unless a counting condition closes a circle
(`accepted_dependenciesFirst_iff`).
-/

namespace IdleEngine

open OrderedMap Condition List

/-- The entity types of `EntityInfo`. -/
inductive EntityType
  | resource
  | generator
  | upgrade
  | achievement
  | transform
  | prestige
  deriving DecidableEq, Repr

/-- The text of an entity type. -/
def EntityType.text : EntityType → String
  | .resource => "resource"
  | .generator => "generator"
  | .upgrade => "upgrade"
  | .achievement => "achievement"
  | .transform => "transform"
  | .prestige => "prestige"

/-- `entityTypePaths`. -/
def EntityType.path : EntityType → String
  | .resource => "resources"
  | .generator => "generators"
  | .upgrade => "upgrades"
  | .achievement => "achievements"
  | .transform => "transforms"
  | .prestige => "prestigeLayers"

/-- `EntityInfo`. -/
structure EntityInfo where
  type : EntityType
  index : ℕ
  deriving DecidableEq, Repr

/-- An entity of a pack; also `ConditionReferenceContext`. -/
structure EntityRef where
  entityType : EntityType
  entityId : String
  deriving DecidableEq, Repr

/-- What the check reads of a resource, an achievement or a transform. -/
structure UnlockDefinition where
  id : String
  unlockCondition : Option Condition

/-- What the check reads of a generator. -/
structure BaseUnlockDefinition where
  id : String
  baseUnlock : Condition

/-- What the check reads of an upgrade. -/
structure PrerequisiteDefinition where
  id : String
  unlockCondition : Option Condition
  prerequisites : List Condition

/-- What the check reads of a prestige layer. -/
structure LayerUnlockDefinition where
  id : String
  unlockCondition : Condition

/-- `ParsedContentPack`, as far as unlock conditions go. -/
structure ParsedContentPack where
  resources : List UnlockDefinition
  generators : List BaseUnlockDefinition
  upgrades : List PrerequisiteDefinition
  achievements : List UnlockDefinition
  transforms : List UnlockDefinition
  prestigeLayers : List LayerUnlockDefinition

/-! ### The graph of references -/

mutual

/-- `visit` of `extractConditionReferences`. -/
def visitReferences (context : Option EntityRef) : Condition → List String → List String
  | .resourceThreshold resourceId _ _, refs =>
      if context = some ⟨.resource, resourceId⟩ then refs else addToSet refs resourceId
  | .generatorLevel generatorId _ _, refs => addToSet refs generatorId
  | .upgradeOwned upgradeId _, refs => addToSet refs upgradeId
  | .prestigeCountThreshold prestigeLayerId _ _, refs =>
      addToSet refs (prestigeCountId prestigeLayerId)
  | .prestigeCompleted prestigeLayerId, refs => addToSet refs (prestigeCountId prestigeLayerId)
  | .prestigeUnlocked prestigeLayerId, refs => addToSet refs prestigeLayerId
  | .allOf conditions, refs => visitAllReferences context conditions refs
  -- predicates that are not monotone are no dependencies
  | .anyOf _, refs => refs
  | .not _, refs => refs
  | .always, refs => refs
  | .never, refs => refs
  | .flag _, refs => refs
  | .script _, refs => refs
  | .unknown _, refs => refs

/-- `conditions.forEach(visit)`. -/
def visitAllReferences (context : Option EntityRef) : List Condition → List String → List String
  | [], refs => refs
  | condition :: conditions, refs =>
      visitAllReferences context conditions (visitReferences context condition refs)

end

/-- `extractConditionReferences`. -/
def extractConditionReferences (condition : Option Condition) (context : Option EntityRef) :
    List String :=
  match condition with
  | none => []
  | some condition => visitReferences context condition []

/-- An edge from a reference to the entity whose condition names it. -/
def addReference (id : String) (adjacency : AdjacencyGraph) (ref : String) : AdjacencyGraph :=
  adjacency.set ref (addToSet (adjacency.targets ref) id)

/-- The edges to an entity from all references of one of its conditions. -/
def addReferences (id : String) (adjacency : AdjacencyGraph) (refs : List String) :
    AdjacencyGraph :=
  refs.foldl (addReference id) adjacency

/-- The references of a resource; its own threshold is none. -/
def addResource (adjacency : AdjacencyGraph) (resource : UnlockDefinition) : AdjacencyGraph :=
  addReferences resource.id adjacency
    (extractConditionReferences resource.unlockCondition (some ⟨.resource, resource.id⟩))

def addGenerator (adjacency : AdjacencyGraph) (generator : BaseUnlockDefinition) :
    AdjacencyGraph :=
  addReferences generator.id adjacency
    (extractConditionReferences (some generator.baseUnlock) none)

/-- The references of an upgrade's unlock condition, then those of its prerequisites. -/
def addUpgrade (adjacency : AdjacencyGraph) (upgrade : PrerequisiteDefinition) : AdjacencyGraph :=
  upgrade.prerequisites.foldl
    (fun adjacency prereqCondition =>
      addReferences upgrade.id adjacency (extractConditionReferences (some prereqCondition) none))
    (addReferences upgrade.id adjacency
      (extractConditionReferences upgrade.unlockCondition none))

/-- The references of an achievement or a transform. -/
def addUnlockCondition (adjacency : AdjacencyGraph) (definition : UnlockDefinition) :
    AdjacencyGraph :=
  addReferences definition.id adjacency
    (extractConditionReferences definition.unlockCondition none)

def addLayer (adjacency : AdjacencyGraph) (layer : LayerUnlockDefinition) : AdjacencyGraph :=
  addReferences layer.id adjacency (extractConditionReferences (some layer.unlockCondition) none)

namespace ParsedContentPack

variable (pack : ParsedContentPack)

/-- The adjacency graph of `validateUnlockConditionCycles`. -/
def unlockAdjacency : AdjacencyGraph :=
  let resources := pack.resources.foldl addResource OrderedMap.empty
  let generators := pack.generators.foldl addGenerator resources
  let upgrades := pack.upgrades.foldl addUpgrade generators
  let achievements := pack.achievements.foldl addUnlockCondition upgrades
  let transforms := pack.transforms.foldl addUnlockCondition achievements
  pack.prestigeLayers.foldl addLayer transforms

/-- One of the loops that index all entities. -/
def indexEntities (type : EntityType) (ids : List String)
    (entityMap : OrderedMap String EntityInfo) : OrderedMap String EntityInfo :=
  ids.zipIdx.foldl (fun entityMap entry => entityMap.set entry.1 ⟨type, entry.2⟩) entityMap

/-- `entityMap`; of entities with one id the last one stays. -/
def entityMap : OrderedMap String EntityInfo :=
  let resources := indexEntities .resource (pack.resources.map (·.id)) OrderedMap.empty
  let generators := indexEntities .generator (pack.generators.map (·.id)) resources
  let upgrades := indexEntities .upgrade (pack.upgrades.map (·.id)) generators
  let achievements := indexEntities .achievement (pack.achievements.map (·.id)) upgrades
  let transforms := indexEntities .transform (pack.transforms.map (·.id)) achievements
  indexEntities .prestige (pack.prestigeLayers.map (·.id)) transforms

end ParsedContentPack

/-- An issue added to the refinement context. -/
structure UnlockCycleIssue where
  path : String × ℕ
  message : String
  deriving DecidableEq, Repr

/-- The entity types of a cycle, as the message names them. The texts are lowercase ASCII, which
`localeCompare` orders like the code units. -/
def describeTypes (involvedTypes : List String) : String :=
  if involvedTypes = [] then ""
  else
    let typeList := ", ".intercalate (involvedTypes.mergeSort fun left right => left ≤ right)
    let typeDescription :=
      if involvedTypes.length = 1 then typeList else "entity types: " ++ typeList
    " (involves " ++ typeDescription ++ ")"

/-- The issue of a cycle; a cycle that starts at no entity is not reported. -/
def unlockCycleIssue (entityMap : OrderedMap String EntityInfo) (cyclePath : List String) :
    Option UnlockCycleIssue :=
  let cycleDescription := " → ".intercalate cyclePath
  let involvedTypes := cyclePath.foldl
    (fun types entityId =>
      match entityMap.get? entityId with
      | some info => addToSet types info.type.text
      | none => types) []
  (cyclePath.head?.bind entityMap.get?).map fun entityInfo =>
    { path := (entityInfo.type.path, entityInfo.index)
      message := "Unlock condition cycle detected: " ++ cycleDescription ++
        describeTypes involvedTypes ++
        ". Consider fixing by: (1) introducing a base entity that both depend on, " ++
        "(2) removing one unlock condition to create a hierarchical progression, or " ++
        "(3) using a flag or other non-entity condition to break the cycle." }

/-- `validateUnlockConditionCycles`: the issues it adds. -/
def validateUnlockConditionCycles (pack : ParsedContentPack) : List UnlockCycleIssue :=
  (detectCycles pack.unlockAdjacency (pack.entityMap.entries.map Prod.fst) true).filterMap
    (unlockCycleIssue pack.entityMap)

example : (validateUnlockConditionCycles
    { resources := [⟨"gold", some (.generatorLevel "mine" .gte (.constant (.fin 1)))⟩]
      generators := [⟨"mine", .resourceThreshold "gold" .gte (.constant (.fin 5))⟩]
      upgrades := [], achievements := [], transforms := [], prestigeLayers := [] }).map (·.path) =
    [("resources", 0)] := by decide +kernel


/-! ### What unlock conditions refer to -/

mutual

/-- The atomic conditions of a condition, at any depth. -/
def Condition.atoms : Condition → List Condition
  | .allOf conditions => Condition.atomsOfAll conditions
  | .anyOf conditions => Condition.atomsOfAll conditions
  | .not condition => condition.atoms
  | condition => [condition]

def Condition.atomsOfAll : List Condition → List Condition
  | [] => []
  | condition :: conditions => condition.atoms ++ Condition.atomsOfAll conditions

end

mutual

/-- The condition consists of atomic conditions and `allOf` only. -/
def Condition.OnlyAllOf : Condition → Prop
  | .allOf conditions => Condition.AllOnlyAllOf conditions
  | .anyOf _ => False
  | .not _ => False
  | _ => True

def Condition.AllOnlyAllOf : List Condition → Prop
  | [] => True
  | condition :: conditions => condition.OnlyAllOf ∧ Condition.AllOnlyAllOf conditions

end

/-- The entity an atomic condition refers to; a condition on the resets of a prestige layer refers
to the layer. -/
def Condition.entity? : Condition → Option EntityRef
  | .resourceThreshold resourceId _ _ => some ⟨.resource, resourceId⟩
  | .generatorLevel generatorId _ _ => some ⟨.generator, generatorId⟩
  | .upgradeOwned upgradeId _ => some ⟨.upgrade, upgradeId⟩
  | .prestigeCountThreshold prestigeLayerId _ _ => some ⟨.prestige, prestigeLayerId⟩
  | .prestigeCompleted prestigeLayerId => some ⟨.prestige, prestigeLayerId⟩
  | .prestigeUnlocked prestigeLayerId => some ⟨.prestige, prestigeLayerId⟩
  | _ => none

/-- The atomic conditions on how often a prestige layer was reset. -/
def Condition.CountsResets : Condition → Prop
  | .prestigeCountThreshold _ _ _ => True
  | .prestigeCompleted _ => True
  | _ => False

/-- The id that an atomic condition names: for a condition on resets the id of the resource that
counts them. -/
def Condition.namedId? : Condition → Option String
  | .resourceThreshold resourceId _ _ => some resourceId
  | .generatorLevel generatorId _ _ => some generatorId
  | .upgradeOwned upgradeId _ => some upgradeId
  | .prestigeCountThreshold prestigeLayerId _ _ => some (prestigeCountId prestigeLayerId)
  | .prestigeCompleted prestigeLayerId => some (prestigeCountId prestigeLayerId)
  | .prestigeUnlocked prestigeLayerId => some prestigeLayerId
  | _ => none

namespace ParsedContentPack

variable (pack : ParsedContentPack)

/-- The entities of a pack. -/
def entities : List EntityRef :=
  pack.resources.map (fun resource => ⟨.resource, resource.id⟩) ++
    pack.generators.map (fun generator => ⟨.generator, generator.id⟩) ++
    pack.upgrades.map (fun upgrade => ⟨.upgrade, upgrade.id⟩) ++
    pack.achievements.map (fun achievement => ⟨.achievement, achievement.id⟩) ++
    pack.transforms.map (fun transform => ⟨.transform, transform.id⟩) ++
    pack.prestigeLayers.map (fun layer => ⟨.prestige, layer.id⟩)

/-- The conditions on which an entity depends: its unlock condition, and the prerequisites of an
upgrade. -/
def HasCondition (entity : EntityRef) (condition : Condition) : Prop :=
  match entity.entityType with
  | .resource =>
      ∃ resource ∈ pack.resources, resource.id = entity.entityId ∧
        resource.unlockCondition = some condition
  | .generator =>
      ∃ generator ∈ pack.generators, generator.id = entity.entityId ∧
        generator.baseUnlock = condition
  | .upgrade =>
      ∃ upgrade ∈ pack.upgrades, upgrade.id = entity.entityId ∧
        (upgrade.unlockCondition = some condition ∨ condition ∈ upgrade.prerequisites)
  | .achievement =>
      ∃ achievement ∈ pack.achievements, achievement.id = entity.entityId ∧
        achievement.unlockCondition = some condition
  | .transform =>
      ∃ transform ∈ pack.transforms, transform.id = entity.entityId ∧
        transform.unlockCondition = some condition
  | .prestige =>
      ∃ layer ∈ pack.prestigeLayers, layer.id = entity.entityId ∧
        layer.unlockCondition = condition

/-- The unlock conditions and prerequisites use only `allOf` and atomic conditions. -/
def OnlyAllOf : Prop :=
  ∀ entity condition, pack.HasCondition entity condition → condition.OnlyAllOf

/-- An atomic part of an entity's conditions, other than a resource's own threshold. -/
def HasAtom (entity : EntityRef) (atom : Condition) : Prop :=
  (∃ condition, pack.HasCondition entity condition ∧ atom ∈ condition.atoms) ∧
    ¬ (entity.entityType = .resource ∧ atom.entity? = some entity)

/-- An entity's conditions refer to another entity. -/
def RefersTo (entity other : EntityRef) : Prop :=
  ∃ atom, pack.HasAtom entity atom ∧ atom.entity? = some other

/-- An entity's conditions refer to the resets of a prestige layer. -/
def RefersToResets (entity layer : EntityRef) : Prop :=
  ∃ atom, pack.HasAtom entity atom ∧ atom.entity? = some layer ∧ atom.CountsResets

/-- An entity with one id has a condition that names another id. -/
def IdRefersTo (id named : String) : Prop :=
  ∃ entity atom, pack.HasAtom entity atom ∧ entity.entityId = id ∧ atom.namedId? = some named

/-- The entities can be put in an order in which everything that the conditions of one refer to
comes before it. -/
def Orderable : Prop :=
  ∃ order, List.Perm order pack.entities ∧
    DependencyOrder.DependenciesFirst pack.RefersTo order

end ParsedContentPack

/-! ### The graph holds the references between ids -/

/-- The references of an atom, read without or with the resource it belongs to. -/
def Condition.Names (context : Option EntityRef) (atom : Condition) (ref : String) : Prop :=
  atom.namedId? = some ref ∧
    ¬ ∃ entity, context = some entity ∧ atom.entity? = some entity ∧
      entity.entityType = .resource

variable {context : Option EntityRef} {refs : List String} {ref : String}

variable {atom : Condition}

theorem mem_addToSet_atom {named : String} (hatoms : atom.atoms = [atom])
    (hnames : atom.Names context ref ↔ ref = named) :
    ref ∈ addToSet refs named ↔ ref ∈ refs ∨ ∃ a ∈ atom.atoms, a.Names context ref := by
  rw [mem_addToSet, hatoms]
  simp [hnames]

theorem mem_refs_atom (hatoms : atom.atoms = [atom]) (hnames : ¬ atom.Names context ref) :
    ref ∈ refs ↔ ref ∈ refs ∨ ∃ a ∈ atom.atoms, a.Names context ref := by
  rw [hatoms]
  simp [hnames]

mutual

variable {context : Option EntityRef} {ref : String}

theorem mem_visitReferences :
    ∀ (condition : Condition) (refs : List String), condition.OnlyAllOf →
      (ref ∈ visitReferences context condition refs ↔
        ref ∈ refs ∨ ∃ atom ∈ condition.atoms, atom.Names context ref)
  | .resourceThreshold resourceId comparator amount, refs, _ => by
    rw [visitReferences]
    by_cases hown : context = some ⟨.resource, resourceId⟩
    · rw [if_pos hown]
      exact mem_refs_atom rfl fun h => h.2 ⟨_, hown, rfl, rfl⟩
    · rw [if_neg hown]
      refine mem_addToSet_atom rfl ⟨fun h => (Option.some.inj h.1).symm, fun h => ⟨by rw [h]; rfl, ?_⟩⟩
      rintro ⟨entity, hcontext, hentity, -⟩
      exact hown (hcontext.trans hentity.symm)
  | .generatorLevel generatorId comparator level, refs, _ =>
    mem_addToSet_atom rfl (by simp [Condition.Names, namedId?, entity?, eq_comm])
  | .upgradeOwned upgradeId _, refs, _ =>
    mem_addToSet_atom rfl (by simp [Condition.Names, namedId?, entity?, eq_comm])
  | .prestigeCountThreshold prestigeLayerId _ _, refs, _ =>
    mem_addToSet_atom rfl (by simp [Condition.Names, namedId?, entity?, eq_comm])
  | .prestigeCompleted prestigeLayerId, refs, _ =>
    mem_addToSet_atom rfl (by simp [Condition.Names, namedId?, entity?, eq_comm])
  | .prestigeUnlocked prestigeLayerId, refs, _ =>
    mem_addToSet_atom rfl (by simp [Condition.Names, namedId?, entity?, eq_comm])
  | .allOf conditions, refs, h => by
    rw [visitReferences, atoms]
    exact mem_visitAllReferences conditions refs (by simpa [Condition.OnlyAllOf] using h)
  | .anyOf _, _, h => by simp [Condition.OnlyAllOf] at h
  | .not _, _, h => by simp [Condition.OnlyAllOf] at h
  | .always, refs, _ => mem_refs_atom rfl (by simp [Condition.Names, namedId?])
  | .never, refs, _ => mem_refs_atom rfl (by simp [Condition.Names, namedId?])
  | .flag _, refs, _ => mem_refs_atom rfl (by simp [Condition.Names, namedId?])
  | .script _, refs, _ => mem_refs_atom rfl (by simp [Condition.Names, namedId?])
  | .unknown _, refs, _ => mem_refs_atom rfl (by simp [Condition.Names, namedId?])

theorem mem_visitAllReferences :
    ∀ (conditions : List Condition) (refs : List String), Condition.AllOnlyAllOf conditions →
      (ref ∈ visitAllReferences context conditions refs ↔
        ref ∈ refs ∨ ∃ atom ∈ atomsOfAll conditions, atom.Names context ref)
  | [], refs, _ => by simp [visitAllReferences, atomsOfAll]
  | condition :: conditions, refs, h => by
    rw [Condition.AllOnlyAllOf] at h
    rw [visitAllReferences, atomsOfAll, mem_visitAllReferences conditions _ h.2,
      mem_visitReferences condition refs h.1, or_assoc]
    simp only [mem_append, or_and_right, exists_or]

end

theorem mem_extractConditionReferences {condition : Option Condition}
    (h : ∀ c, condition = some c → c.OnlyAllOf) :
    ref ∈ extractConditionReferences condition context ↔
      ∃ c, condition = some c ∧ ∃ atom ∈ c.atoms, atom.Names context ref := by
  cases condition with
  | none => simp [extractConditionReferences]
  | some c =>
    rw [extractConditionReferences, mem_visitReferences c [] (h c rfl)]
    simp

variable {source target : String}

variable {id : String} {adjacency : AdjacencyGraph}

theorem edge_addReference :
    (addReference id adjacency ref).Edge source target ↔
      adjacency.Edge source target ∨ source = ref ∧ target = id := by
  rw [AdjacencyGraph.Edge, AdjacencyGraph.Edge, AdjacencyGraph.targets, addReference,
    get?_set]
  by_cases hsource : ref = source
  · rw [if_pos hsource, Option.getD_some, mem_addToSet, hsource]
    simp
  · have hne : source ≠ ref := fun h => hsource h.symm
    rw [if_neg hsource]
    simp [hne, AdjacencyGraph.targets]

/-- The edges of a graph that grows along a list are those each item adds. -/
theorem edge_foldl {α : Type} {step : AdjacencyGraph → α → AdjacencyGraph} {P : α → Prop} :
    ∀ (items : List α) (adjacency : AdjacencyGraph),
      (∀ item ∈ items, ∀ adjacency, (step adjacency item).Edge source target ↔
        adjacency.Edge source target ∨ P item) →
      ((items.foldl step adjacency).Edge source target ↔
        adjacency.Edge source target ∨ ∃ item ∈ items, P item)
  | [], adjacency, _ => by simp
  | item :: items, adjacency, h => by
    rw [foldl_cons, edge_foldl items _ fun i hi => h i (mem_cons_of_mem _ hi),
      h item (by simp), or_assoc]
    simp

theorem edge_addReferences :
    (addReferences id adjacency refs).Edge source target ↔
      adjacency.Edge source target ∨ source ∈ refs ∧ target = id := by
  rw [addReferences, edge_foldl (P := fun ref => source = ref ∧ target = id) refs adjacency
    fun ref _ adjacency => edge_addReference]
  simp

namespace ParsedContentPack

variable {pack : ParsedContentPack}

/-- A condition of an entity names an id, read with the context in which the check reads it. -/
def NamesId (pack : ParsedContentPack) (context : Option EntityRef) (entity : EntityRef)
    (named : String) : Prop :=
  ∃ condition, pack.HasCondition entity condition ∧
    ∃ atom ∈ condition.atoms, atom.Names context named

variable {entity : EntityRef} {named : String}

theorem namesId_iff :
    pack.NamesId (if entity.entityType = .resource then some entity else none) entity named ↔
      ∃ atom, pack.HasAtom entity atom ∧ atom.namedId? = some named := by
  constructor
  · rintro ⟨condition, hcondition, atom, hatom, hnamed, hown⟩
    refine ⟨atom, ⟨⟨condition, hcondition, hatom⟩, fun ⟨htype, hentity⟩ => ?_⟩, hnamed⟩
    exact hown ⟨entity, if_pos htype, hentity, htype⟩
  · rintro ⟨atom, ⟨⟨condition, hcondition, hatom⟩, hown⟩, hnamed⟩
    refine ⟨condition, hcondition, atom, hatom, hnamed, ?_⟩
    rintro ⟨other, hcontext, hentity, htype⟩
    split at hcontext
    · obtain rfl := Option.some.inj hcontext
      exact hown ⟨htype, hentity⟩
    · cases hcontext

variable {id : String}

theorem idRefersTo_iff :
    pack.IdRefersTo id named ↔
      pack.NamesId (some ⟨.resource, id⟩) ⟨.resource, id⟩ named ∨
      pack.NamesId none ⟨.generator, id⟩ named ∨ pack.NamesId none ⟨.upgrade, id⟩ named ∨
      pack.NamesId none ⟨.achievement, id⟩ named ∨ pack.NamesId none ⟨.transform, id⟩ named ∨
      pack.NamesId none ⟨.prestige, id⟩ named := by
  have hentity : pack.IdRefersTo id named ↔ ∃ type : EntityType,
      pack.NamesId (if type = .resource then some ⟨type, id⟩ else none) ⟨type, id⟩ named := by
    constructor
    · rintro ⟨⟨type, _⟩, atom, hatom, rfl, hnamed⟩
      exact ⟨type, namesId_iff.mpr ⟨atom, hatom, hnamed⟩⟩
    · rintro ⟨type, hnames⟩
      obtain ⟨atom, hatom, hnamed⟩ := namesId_iff.mp hnames
      exact ⟨⟨type, id⟩, atom, hatom, rfl, hnamed⟩
  rw [hentity]
  constructor
  · rintro ⟨type, hnames⟩
    cases type <;> simp_all
  · rintro (h | h | h | h | h | h)
    exacts [⟨.resource, h⟩, ⟨.generator, h⟩, ⟨.upgrade, h⟩, ⟨.achievement, h⟩, ⟨.transform, h⟩,
      ⟨.prestige, h⟩]

variable {source target : String} {adjacency : AdjacencyGraph}

variable {type : EntityType}

section

variable (hall : pack.OnlyAllOf)
include hall

/-- A loop over definitions that have one condition each adds the edges that the conditions of the
target name. -/
theorem edge_definitions {α : Type} {definitions : List α} {id : α → String}
    {condition : α → Option Condition} {context : α → Option EntityRef}
    {add : AdjacencyGraph → α → AdjacencyGraph} {targetContext : Option EntityRef} (hadd : ∀ adjacency d, add adjacency d = addReferences (id d) adjacency
      (extractConditionReferences (condition d) (context d)))
    (hcondition : ∀ entityId c, pack.HasCondition ⟨type, entityId⟩ c ↔
      ∃ d ∈ definitions, id d = entityId ∧ condition d = some c)
    (hcontext : ∀ d, id d = target → context d = targetContext) :
    (definitions.foldl add adjacency).Edge source target ↔
      adjacency.Edge source target ∨ pack.NamesId targetContext ⟨type, target⟩ source := by
  have hrefs : ∀ d ∈ definitions,
      (source ∈ extractConditionReferences (condition d) (context d) ↔
        ∃ c, condition d = some c ∧ ∃ atom ∈ c.atoms, atom.Names (context d) source) :=
    fun d hd => mem_extractConditionReferences fun c hc =>
      hall _ c ((hcondition (id d) c).mpr ⟨d, hd, rfl, hc⟩)
  rw [edge_foldl (P := fun d => source ∈ extractConditionReferences (condition d) (context d) ∧
    target = id d) definitions adjacency fun d _ adjacency => by rw [hadd, edge_addReferences]]
  refine or_congr_right ⟨?_, ?_⟩
  · rintro ⟨d, hd, hsource, htarget⟩
    obtain ⟨c, hc, hatom⟩ := (hrefs d hd).mp hsource
    rw [hcontext d htarget.symm] at hatom
    exact ⟨c, (hcondition target c).mpr ⟨d, hd, htarget.symm, hc⟩, hatom⟩
  · rintro ⟨c, hc, hatom⟩
    obtain ⟨d, hd, htarget, hc⟩ := (hcondition target c).mp hc
    rw [← hcontext d htarget] at hatom
    exact ⟨d, hd, (hrefs d hd).mpr ⟨c, hc, hatom⟩, htarget.symm⟩

theorem edge_upgrades : (pack.upgrades.foldl addUpgrade adjacency).Edge source target ↔
      adjacency.Edge source target ∨ pack.NamesId none ⟨.upgrade, target⟩ source := by
  have hrefs : ∀ upgrade ∈ pack.upgrades, ∀ condition : Option Condition,
      (∀ c, condition = some c → upgrade.unlockCondition = some c ∨ c ∈ upgrade.prerequisites) →
      (source ∈ extractConditionReferences condition none ↔
        ∃ c, condition = some c ∧ ∃ atom ∈ c.atoms, atom.Names none source) :=
    fun upgrade hd condition hc => mem_extractConditionReferences fun c hsome =>
      hall ⟨.upgrade, upgrade.id⟩ c ⟨upgrade, hd, rfl, hc c hsome⟩
  rw [edge_foldl (P := fun upgrade => target = upgrade.id ∧
    ∃ c, (upgrade.unlockCondition = some c ∨ c ∈ upgrade.prerequisites) ∧
      ∃ atom ∈ c.atoms, atom.Names none source) pack.upgrades adjacency
    fun upgrade hd adjacency => ?_]
  · refine or_congr_right ⟨?_, ?_⟩
    · rintro ⟨upgrade, hd, htarget, c, hc, hatom⟩
      exact ⟨c, ⟨upgrade, hd, htarget.symm, hc⟩, hatom⟩
    · rintro ⟨c, ⟨upgrade, hd, htarget, hc⟩, hatom⟩
      exact ⟨upgrade, hd, htarget.symm, c, hc, hatom⟩
  · rw [addUpgrade, edge_foldl (P := fun c => (∃ atom ∈ c.atoms, atom.Names none source) ∧
      target = upgrade.id) upgrade.prerequisites _ fun c hc adjacency => ?_, edge_addReferences,
      hrefs upgrade hd upgrade.unlockCondition fun c hc => .inl hc, or_assoc]
    · refine or_congr_right ⟨?_, ?_⟩
      · rintro (⟨⟨c, hc, hatom⟩, htarget⟩ | ⟨c, hc, hatom, htarget⟩)
        · exact ⟨htarget, c, .inl hc, hatom⟩
        · exact ⟨htarget, c, .inr hc, hatom⟩
      · rintro ⟨htarget, c, hc | hc, hatom⟩
        · exact .inl ⟨⟨c, hc, hatom⟩, htarget⟩
        · exact .inr ⟨c, hc, hatom, htarget⟩
    · rw [edge_addReferences, hrefs upgrade hd (some c) fun d hd => .inr (Option.some.inj hd ▸ hc)]
      simp

theorem edge_resources : (pack.resources.foldl addResource adjacency).Edge source target ↔
      adjacency.Edge source target ∨
        pack.NamesId (some ⟨.resource, target⟩) ⟨.resource, target⟩ source :=
  edge_definitions hall (fun _ _ => rfl) (fun _ _ => Iff.rfl) fun _ h => by rw [h]

theorem edge_generators : (pack.generators.foldl addGenerator adjacency).Edge source target ↔
      adjacency.Edge source target ∨ pack.NamesId none ⟨.generator, target⟩ source :=
  edge_definitions hall (fun _ _ => rfl) (fun _ _ => by simp [HasCondition]) fun _ _ => rfl

theorem edge_achievements :
    (pack.achievements.foldl addUnlockCondition adjacency).Edge source target ↔
      adjacency.Edge source target ∨ pack.NamesId none ⟨.achievement, target⟩ source :=
  edge_definitions hall (fun _ _ => rfl) (fun _ _ => Iff.rfl) fun _ _ => rfl

theorem edge_transforms : (pack.transforms.foldl addUnlockCondition adjacency).Edge source target ↔
      adjacency.Edge source target ∨ pack.NamesId none ⟨.transform, target⟩ source :=
  edge_definitions hall (fun _ _ => rfl) (fun _ _ => Iff.rfl) fun _ _ => rfl

theorem edge_prestigeLayers : (pack.prestigeLayers.foldl addLayer adjacency).Edge source target ↔
      adjacency.Edge source target ∨ pack.NamesId none ⟨.prestige, target⟩ source :=
  edge_definitions hall (fun _ _ => rfl) (fun _ _ => by simp [HasCondition]) fun _ _ => rfl

theorem edge_unlockAdjacency :
    pack.unlockAdjacency.Edge source target ↔ pack.IdRefersTo target source := by
  have hempty : ¬ AdjacencyGraph.Edge OrderedMap.empty source target := by
    simp [AdjacencyGraph.Edge, AdjacencyGraph.targets, get?_empty]
  rw [unlockAdjacency, idRefersTo_iff, edge_prestigeLayers hall, edge_transforms hall,
    edge_achievements hall, edge_upgrades hall, edge_generators hall, edge_resources hall]
  simp only [hempty, false_or, or_assoc]

end

/-! ### Issues -/

theorem HasCondition.mem_entities {condition : Condition} (h : pack.HasCondition entity condition) :
    entity ∈ pack.entities := by
  obtain ⟨type, entityId⟩ := entity
  cases type <;> obtain ⟨definition, hmem, rfl, -⟩ := h <;>
    simp only [entities, mem_append, mem_map]
  · exact .inl (.inl (.inl (.inl (.inl ⟨definition, hmem, rfl⟩))))
  · exact .inl (.inl (.inl (.inl (.inr ⟨definition, hmem, rfl⟩))))
  · exact .inl (.inl (.inl (.inr ⟨definition, hmem, rfl⟩)))
  · exact .inl (.inl (.inr ⟨definition, hmem, rfl⟩))
  · exact .inl (.inr ⟨definition, hmem, rfl⟩)
  · exact .inr ⟨definition, hmem, rfl⟩

theorem mem_keys_indexEntities {ids : List String} {entityMap : OrderedMap String EntityInfo} :
    id ∈ (indexEntities type ids entityMap).entries.map Prod.fst ↔
      id ∈ entityMap.entries.map Prod.fst ∨ id ∈ ids := by
  have hfold : ∀ (entries : List (String × ℕ)) (entityMap : OrderedMap String EntityInfo),
      id ∈ (entries.foldl (fun entityMap entry => entityMap.set entry.1 ⟨type, entry.2⟩)
        entityMap).entries.map Prod.fst ↔
        id ∈ entityMap.entries.map Prod.fst ∨ id ∈ entries.map Prod.fst := by
    intro entries
    induction entries with
    | nil => simp
    | cons entry entries ih =>
      intro entityMap
      rw [foldl_cons, ih]
      rw [OrderedMap.set, keys_setEntries, map_cons, mem_cons]
      split <;> simp <;> grind
  rw [indexEntities, hfold, zipIdx_map_fst]

theorem mem_keys_entityMap :
    id ∈ pack.entityMap.entries.map Prod.fst ↔ id ∈ pack.entities.map (·.entityId) := by
  have hempty : id ∉ (OrderedMap.empty : OrderedMap String EntityInfo).entries.map Prod.fst :=
    not_mem_nil
  simp only [entityMap, mem_keys_indexEntities, hempty, false_or, entities, map_append,
    map_map, mem_append]
  rfl

theorem mem_keys_of_edge (hall : pack.OnlyAllOf) (h : pack.unlockAdjacency.Edge source target) :
    target ∈ pack.entityMap.entries.map Prod.fst := by
  obtain ⟨entity, atom, ⟨⟨condition, hcondition, -⟩, -⟩, rfl, -⟩ :=
    (edge_unlockAdjacency hall).mp h
  exact mem_keys_entityMap.mpr (mem_map.mpr ⟨entity, hcondition.mem_entities, rfl⟩)

/-- A cycle of the graph is a cycle of references between ids, read backwards. -/
theorem transGen_edge_iff (hall : pack.OnlyAllOf) (id : String) :
    Relation.TransGen pack.unlockAdjacency.Edge id id ↔
      Relation.TransGen pack.IdRefersTo id id := by
  have hedge : pack.unlockAdjacency.Edge = Function.swap pack.IdRefersTo := by
    ext source target
    exact edge_unlockAdjacency hall
  rw [hedge, Relation.transGen_swap]

end ParsedContentPack

theorem validateUnlockConditionCycles_eq_nil_iff {pack : ParsedContentPack}
    (hall : pack.OnlyAllOf) :
    validateUnlockConditionCycles pack = [] ↔
      ∀ id, ¬ Relation.TransGen pack.IdRefersTo id id := by
  simp only [← ParsedContentPack.transGen_edge_iff hall]
  rw [← detectCycles_eq_nil_iff fun _ _ => ParsedContentPack.mem_keys_of_edge hall]
  refine ⟨fun hissues => ?_, fun hcycles => by rw [validateUnlockConditionCycles, hcycles]; rfl⟩
  rcases detectCycles_cases pack.unlockAdjacency (pack.entityMap.entries.map Prod.fst) with
    ⟨node, rest, hfound, hcycle⟩ | ⟨hnone, -⟩
  · -- the cycle starts at the target of an edge, which is an entity
    obtain ⟨source, -, hedge⟩ := Relation.TransGen.tail'_iff.mp hcycle
    have hentity := mem_keys_iff.mp (ParsedContentPack.mem_keys_of_edge hall hedge)
    obtain ⟨info, hinfo⟩ := Option.isSome_iff_exists.mp hentity
    rw [validateUnlockConditionCycles, hfound] at hissues
    simp [unlockCycleIssue, hinfo] at hissues
  · exact hnone

/-! ### Orders of entities -/

namespace ParsedContentPack

variable {pack : ParsedContentPack}

variable {other : EntityRef}

theorem namedId?_or_countsResets {atom : Condition} (h : atom.entity? = some other) :
    atom.namedId? = some other.entityId ∨ atom.CountsResets := by
  cases atom with
  | prestigeCountThreshold => exact .inr trivial
  | prestigeCompleted => exact .inr trivial
  | resourceThreshold => exact .inl (Option.some.inj h ▸ rfl)
  | generatorLevel => exact .inl (Option.some.inj h ▸ rfl)
  | upgradeOwned => exact .inl (Option.some.inj h ▸ rfl)
  | prestigeUnlocked => exact .inl (Option.some.inj h ▸ rfl)
  | _ => cases h

variable {entity : EntityRef}

theorem refersTo_iff :
    pack.RefersTo entity other ↔
      (∃ atom, pack.HasAtom entity atom ∧ atom.entity? = some other ∧
        atom.namedId? = some other.entityId) ∨ pack.RefersToResets entity other := by
  constructor
  · rintro ⟨atom, hatom, hentity⟩
    rcases namedId?_or_countsResets hentity with hnamed | hcounts
    · exact .inl ⟨atom, hatom, hentity, hnamed⟩
    · exact .inr ⟨atom, hatom, hentity, hcounts⟩
  · rintro (⟨atom, hatom, hentity, -⟩ | ⟨atom, hatom, hentity, -⟩)
    · exact ⟨atom, hatom, hentity⟩
    · exact ⟨atom, hatom, hentity⟩

theorem orderable_iff : pack.Orderable ↔ ∀ entity, ¬ Relation.TransGen pack.RefersTo entity entity :=
  DependencyOrder.exists_dependenciesFirst_iff fun _ _ ⟨_, ⟨⟨_, hcondition, _⟩, _⟩, _⟩ =>
    hcondition.mem_entities

theorem idRefersTo_of_cycle (hresets : ∀ entity layer, pack.RefersToResets entity layer →
      ¬ Relation.ReflTransGen pack.RefersTo layer entity)
    (h : Relation.TransGen pack.RefersTo entity entity) :
    Relation.TransGen pack.IdRefersTo entity.entityId entity.entityId := by
  have hrefers : pack.RefersTo = fun entity other => (∃ atom, pack.HasAtom entity atom ∧
      atom.entity? = some other ∧ atom.namedId? = some other.entityId) ∨
        pack.RefersToResets entity other := by
    ext entity other
    exact refersTo_iff
  rw [hrefers] at h
  rcases DependencyOrder.transGen_or h with h | ⟨c, d, hac, hcd, hda⟩
  · exact h.lift _ fun a b ⟨atom, hatom, _, hnamed⟩ => ⟨a, atom, hatom, rfl, hnamed⟩
  · rw [← hrefers] at hac hda
    exact absurd (hda.trans hac) (hresets c d hcd)

end ParsedContentPack

/-- A pack whose conditions use only `allOf` and atomic conditions and that gets no issue has its
entities in an order that puts what they refer to first, if and only if the ids of its conditions
form a circle, which gets an issue, or no condition on the resets of a layer belongs to an entity
that the layer depends on. -/
theorem accepted_orderable_iff (pack : ParsedContentPack) (hall : pack.OnlyAllOf) :
    (validateUnlockConditionCycles pack = [] → pack.Orderable) ↔
      (∃ id, Relation.TransGen pack.IdRefersTo id id) ∨
        ∀ entity layer, pack.RefersToResets entity layer →
          ¬ Relation.ReflTransGen pack.RefersTo layer entity := by
  rw [validateUnlockConditionCycles_eq_nil_iff hall, ParsedContentPack.orderable_iff]
  constructor
  · intro haccepted
    by_cases hids : ∃ id, Relation.TransGen pack.IdRefersTo id id
    · exact .inl hids
    · refine .inr fun entity layer hresets hback => ?_
      obtain ⟨atom, hatom, hentity, -⟩ := hresets
      exact haccepted (not_exists.mp hids) entity (.head' ⟨atom, hatom, hentity⟩ hback)
  · rintro (⟨id, hcycle⟩ | hresets) haccepted entity hentity
    · exact haccepted id hcycle
    · exact haccepted _ (ParsedContentPack.idRefersTo_of_cycle hresets hentity)

/-- A prestige layer that unlocks with the level of a generator, which unlocks with the first reset
of the layer. -/
def deadlockedPack : ParsedContentPack where
  resources := [⟨"ascension-prestige-count", none⟩]
  generators := [⟨"mine", .prestigeCountThreshold "ascension" .gte 1⟩]
  upgrades := []
  achievements := []
  transforms := []
  prestigeLayers := [⟨"ascension", .generatorLevel "mine" .gte (.constant (.fin 1))⟩]

theorem deadlockedPack_onlyAllOf : deadlockedPack.OnlyAllOf := by
  rintro ⟨type, entityId⟩ condition h
  cases type <;> obtain ⟨definition, hmem, -, hcondition⟩ := h <;>
    simp [deadlockedPack] at hmem <;> subst hmem <;> simp at hcondition <;> subst hcondition <;>
    trivial

/-- Whether the pack that can never be unlocked is accepted only if it can be ordered. -/
theorem accepted_orderable_deadlockedPack :
    (validateUnlockConditionCycles deadlockedPack = [] → deadlockedPack.Orderable) ↔
      (∃ id, Relation.TransGen deadlockedPack.IdRefersTo id id) ∨
        ∀ entity layer, deadlockedPack.RefersToResets entity layer →
          ¬ Relation.ReflTransGen deadlockedPack.RefersTo layer entity :=
  accepted_orderable_iff deadlockedPack deadlockedPack_onlyAllOf

/-- A generator and a prestige layer that wait for each other get no issue. -/
theorem deadlockedPack_accepted :
    deadlockedPack.OnlyAllOf ∧ validateUnlockConditionCycles deadlockedPack = [] ∧
      ¬ deadlockedPack.Orderable := by
  refine ⟨deadlockedPack_onlyAllOf, by decide +kernel, fun h => ?_⟩
  have hmine : deadlockedPack.RefersTo ⟨.generator, "mine"⟩ ⟨.prestige, "ascension"⟩ :=
    ⟨.prestigeCountThreshold "ascension" .gte 1,
      ⟨⟨_, ⟨_, List.mem_singleton_self _, rfl, rfl⟩, List.mem_singleton_self _⟩, by simp⟩, rfl⟩
  have hlayer : deadlockedPack.RefersTo ⟨.prestige, "ascension"⟩ ⟨.generator, "mine"⟩ :=
    ⟨.generatorLevel "mine" .gte (.constant (.fin 1)),
      ⟨⟨_, ⟨_, List.mem_singleton_self _, rfl, rfl⟩, List.mem_singleton_self _⟩, by simp⟩, rfl⟩
  exact ParsedContentPack.orderable_iff.mp h _ (.tail (.single hmine) hlayer)

end IdleEngine
