import IdleEngine.StateSync.Canonical

/-!
# Comparing two snapshots

`compareStates` reads two snapshots section by section and notes what differs. The sections that
list entries are compared id by id, whatever the order of the entries; the batches of a transform,
their outputs and the queued commands are compared place by place. Each entry is compared in the
properties that its section names, with `valuesEqual`: primitive values by `Object.is`, arrays and
objects by the text of their normalization.

A section is read through a `View`, which gives the properties of the entry at an id or a place.
`compareViews` is the loop that all sections share. What `compareStates` finds is summed up by
`Agree`: the snapshots are identical exactly when all pairs of values that it compares are equal
(`compareStates_identical`).
-/

namespace IdleEngine

open JsValue

/-- What the comparison and the checksum take from the language: how numbers are written, and
`left.localeCompare(right, 'en')`. -/
structure TextHost where
  numbers : JsonText.NumberText ℚ
  localeCompare : String → String → ℤ

/-! ### Equality of values -/

/-- `Object.is`. The objects of two snapshots are never the same object. -/
def objectIs : JsValue → JsValue → Bool
  | .undefined, .undefined => true
  | .null, .null => true
  | .bool left, .bool right => left == right
  | .number left, .number right => decide (left = right)
  | .string left, .string right => left == right
  | _, _ => false

namespace TextHost

variable (host : TextHost)

/-- `normalizeForComparison`. -/
def normalizeForComparison (value : JsValue) : JsValue := value.normalizeKeys host.localeCompare

/-- `stableStringify`. -/
def stableStringify (value : JsValue) : Option String :=
  (host.normalizeForComparison value).stringify host.numbers

/-- `valuesEqual`. -/
def valuesEqual (left right : JsValue) : Bool :=
  objectIs left right || (left.isRecord && right.isRecord &&
    decide (host.stableStringify left = host.stableStringify right))

end TextHost

/-! ### Differences -/

/-- `ValueDiff`. -/
structure ValueDiff where
  localValue : JsValue
  remoteValue : JsValue

/-- `MissingDiff`. -/
structure MissingDiff where
  localMissing : Bool
  remoteMissing : Bool

/-- The difference of two entries at an id or a place: `ResourceDiff`, `GeneratorDiff`,
`CommandQueueEntryDiff` and the others, with the properties that differ. -/
structure EntryDiff (ι : Type) where
  label : ι
  missing : Option MissingDiff
  values : List (String × ValueDiff)

/-- `recordMissingDiff`. -/
def recordMissingDiff (localPresent remotePresent : Bool) : Option MissingDiff :=
  if localPresent = remotePresent then none
  else some { localMissing := !localPresent, remoteMissing := !remotePresent }

/-- `recordValueDiff`. -/
def TextHost.recordValueDiff (host : TextHost) (key : String) (localValue remoteValue : JsValue) :
    Option (String × ValueDiff) :=
  if host.valuesEqual localValue remoteValue then none
  else some (key, { localValue, remoteValue })

/-- The difference has something in it. -/
def EntryDiff.hasDiff {ι : Type} (diff : EntryDiff ι) : Bool :=
  diff.missing.isSome || !diff.values.isEmpty

/-! ### Views -/

/-- The properties of the entries of a section, by the ids or places of the entries. -/
abbrev View (ι : Type) := ι → Option (String → JsValue)

/-- `entry?.key`. -/
def View.value {ι : Type} (view : View ι) (label : ι) (key : String) : JsValue :=
  (view label).elim .undefined fun entry => entry key

/-- `value !== undefined`, with the value. -/
def definedValue : JsValue → Option JsValue
  | .undefined => none
  | value => some value

/-- The elements of an array. -/
def elementsOf (value : JsValue) : List JsValue := value.array?.getD []

/-- The strings of an array. -/
def stringsOf (value : JsValue) : List String := (elementsOf value).filterMap JsValue.string?

/-- `mapById`, `mapInstancesById` and `mapEntityInstancesByEntityId`: the first entry of an id. -/
def viewById (idKey : String) (entries : List JsValue) : View String :=
  fun id => (entries.find? fun entry => decide ((entry.get idKey).string? = some id)).map get

/-- The ids of some entries. -/
def idsOf (idKey : String) (entries : List JsValue) : List String :=
  entries.filterMap fun entry => (entry.get idKey).string?

/-- The entries of an array by their places. -/
def viewByIndex (entries : List JsValue) : View ℕ :=
  fun index => (entries[index]?.bind definedValue).map get

/-- The entries of a record by its keys. -/
def viewByKey (states : JsValue) : View String := fun id => (definedValue (states.get id)).map get

/-- The properties of a resource and the arrays that hold them. -/
def resourceColumns : List (String × String) :=
  [("amount", "amounts"), ("capacity", "capacities"), ("unlocked", "unlocked"),
    ("visible", "visible"), ("flags", "flags")]

/-- `buildIndexById` and `getIndexedValue`: a resource by its first place among the ids. -/
def resourceView (resources : JsValue) : View String :=
  fun id => ((stringsOf (resources.get "ids")).findIdx? (· = id)).map fun index key =>
    match resourceColumns.lookup key with
    | none => .undefined
    | some column => (elementsOf (resources.get column))[index]?.getD .undefined

/-- The accumulators of a record by their keys. -/
def accumulatorView (accumulators : JsValue) : View String :=
  fun key => (OrderedMap.find key accumulators.fields).map fun value _ => value

/-! ### The loops -/

namespace TextHost

variable (host : TextHost)

/-- `collectSortedIds`. -/
def collectSortedIds (localIds remoteIds : List String) : List String :=
  (localIds ++ remoteIds).eraseDups.insertionSort (KeyLe host.localeCompare)

/-- The difference of the entries at one label, in some properties. -/
def entryDiff {ι : Type} (keys : List String) (localView remoteView : View ι) (label : ι) :
    EntryDiff ι :=
  { label
    missing := recordMissingDiff (localView label).isSome (remoteView label).isSome
    values := keys.filterMap fun key =>
      host.recordValueDiff key (localView.value label key) (remoteView.value label key) }

/-- The loop of the section diffs: the entries that differ, at the labels of either side. -/
def compareViews {ι : Type} (labels : List ι) (keys : List String) (localView remoteView : View ι) :
    List (EntryDiff ι) :=
  (labels.map (host.entryDiff keys localView remoteView)).filter EntryDiff.hasDiff

/-- The section diffs of lists of entries with ids. -/
def compareById (idKey : String) (keys : List String) (localEntries remoteEntries : List JsValue) :
    List (EntryDiff String) :=
  host.compareViews
    (host.collectSortedIds (idsOf idKey localEntries).eraseDups
      (idsOf idKey remoteEntries).eraseDups)
    keys (viewById idKey localEntries) (viewById idKey remoteEntries)

/-- The diffs of arrays, place by place. -/
def compareByIndex (keys : List String) (localEntries remoteEntries : List JsValue) :
    List (EntryDiff ℕ) :=
  host.compareViews (List.range (max localEntries.length remoteEntries.length)) keys
    (viewByIndex localEntries) (viewByIndex remoteEntries)

end TextHost

/-! ### The sections -/

/-- `normalizeRuntimeBacklogFields`. -/
def normalizeRuntimeBacklogFields (runtime : JsValue) : List (String × JsValue) :=
  [("accumulatorBacklogMs",
      number (.fin (hostFrameBacklogOf runtime + creditedBacklogOf runtime))),
    ("hostFrameBacklogMs", number (.fin (hostFrameBacklogOf runtime))),
    ("creditedBacklogMs", number (.fin (creditedBacklogOf runtime)))]

/-- The properties of the runtime section, those of the backlog normalized. -/
def runtimeProperty (runtime : JsValue) (key : String) : JsValue :=
  (OrderedMap.find key (normalizeRuntimeBacklogFields runtime)).getD (runtime.get key)

/-- The properties that each section compares. -/
def SnapshotKeys.runtime : List String :=
  ["step", "stepSizeMs", "accumulatorBacklogMs", "hostFrameBacklogMs", "creditedBacklogMs",
    "rngSeed", "rngState"]

def SnapshotKeys.resource : List String := ["amount", "capacity", "unlocked", "visible", "flags"]

def SnapshotKeys.generator : List String :=
  ["owned", "enabled", "isUnlocked", "nextPurchaseReadyAtStep"]

def SnapshotKeys.upgrade : List String := ["purchases"]

def SnapshotKeys.achievement : List String :=
  ["completions", "progress", "nextRepeatableAtStep", "lastCompletedStep"]

def SnapshotKeys.automation : List String :=
  ["enabled", "lastFiredStep", "cooldownExpiresStep", "unlocked", "lastThresholdSatisfied"]

def SnapshotKeys.transform : List String := ["unlocked", "cooldownExpiresStep"]

def SnapshotKeys.batch : List String := ["completeAtStep", "entityInstanceIds", "entityExperience"]

def SnapshotKeys.output : List String := ["resourceId", "amount"]

def SnapshotKeys.entity : List String := ["count", "availableCount", "unlocked", "visible"]

def SnapshotKeys.entityInstance : List String :=
  ["entityId", "level", "experience", "stats", "assignment"]

def SnapshotKeys.entityInstanceList : List String := ["instanceIds"]

def SnapshotKeys.prd : List String := ["attempts", "constant"]

def SnapshotKeys.command : List String := ["type", "priority", "timestamp", "step", "payload"]

/-- `TransformBatchDiff`. -/
structure TransformBatchDiff where
  entry : EntryDiff ℕ
  outputs : List (EntryDiff ℕ)

/-- `TransformDiff`. -/
structure TransformDiff where
  entry : EntryDiff String
  batchesDefined : Option ValueDiff
  batches : List TransformBatchDiff

/-- `ProgressionDiff`; an empty list of differences is none. -/
structure ProgressionDiff where
  schemaVersion : Option (String × ValueDiff)
  step : Option (String × ValueDiff)
  resources : List (EntryDiff String)
  resourceDefinitionDigest : Option (String × ValueDiff)
  generators : List (EntryDiff String)
  upgrades : List (EntryDiff String)
  achievements : List (EntryDiff String)
  productionAccumulatorsDefined : Option ValueDiff
  productionAccumulators : List (EntryDiff String)

/-- `CommandQueueDiff`, with the numbers of entries. -/
structure CommandQueueDiff where
  schemaVersion : Option (String × ValueDiff)
  localCount : ℕ
  remoteCount : ℕ
  missingInLocal : List String
  missingInRemote : List String
  entryDiffs : List (EntryDiff ℕ)

/-- `StateDiff`; an empty list of differences is none. -/
structure StateDiff where
  identical : Bool
  version : Option (String × ValueDiff)
  runtime : List (String × ValueDiff)
  resources : List (EntryDiff String)
  resourceDefinitionDigest : Option (String × ValueDiff)
  progression : Option ProgressionDiff
  automation : List (EntryDiff String)
  transforms : List TransformDiff
  entities : List (EntryDiff String)
  entityInstances : List (EntryDiff String)
  entityInstanceLists : List (EntryDiff String)
  prd : List (EntryDiff String)
  commandQueue : Option CommandQueueDiff

/-- Whether a value is there on both sides or on one only. -/
def definedDiff (localValue remoteValue : JsValue) : Option ValueDiff :=
  let localDefined := (definedValue localValue).isSome
  let remoteDefined := (definedValue remoteValue).isSome
  if localDefined = remoteDefined then none
  else some { localValue := .bool localDefined, remoteValue := .bool remoteDefined }

def TransformBatchDiff.hasDiff (diff : TransformBatchDiff) : Bool :=
  diff.entry.hasDiff || !diff.outputs.isEmpty

def TransformDiff.hasDiff (diff : TransformDiff) : Bool :=
  diff.entry.hasDiff || diff.batchesDefined.isSome || !diff.batches.isEmpty

def ProgressionDiff.hasDiff (diff : ProgressionDiff) : Bool :=
  diff.schemaVersion.isSome || diff.step.isSome || diff.resourceDefinitionDigest.isSome ||
    !diff.resources.isEmpty || !diff.generators.isEmpty || !diff.upgrades.isEmpty ||
    !diff.achievements.isEmpty || diff.productionAccumulatorsDefined.isSome ||
    !diff.productionAccumulators.isEmpty

namespace TextHost

variable (host : TextHost)

/-- `compareRuntime`. -/
def compareRuntime (localRuntime remoteRuntime : JsValue) : List (String × ValueDiff) :=
  SnapshotKeys.runtime.filterMap fun key =>
    host.recordValueDiff key (runtimeProperty localRuntime key) (runtimeProperty remoteRuntime key)

/-- `compareResourceState`: the resources. -/
def compareResourceState (localState remoteState : JsValue) : List (EntryDiff String) :=
  host.compareViews
    (host.collectSortedIds (stringsOf (localState.get "ids")) (stringsOf (remoteState.get "ids")))
    SnapshotKeys.resource (resourceView localState) (resourceView remoteState)

/-- `compareResourceState`: the digest. -/
def compareDefinitionDigest (localState remoteState : JsValue) : Option (String × ValueDiff) :=
  host.recordValueDiff "definitionDigest" (localState.get "definitionDigest")
    (remoteState.get "definitionDigest")

/-- `compareGenerators`. -/
def compareGenerators (localEntries remoteEntries : List JsValue) : List (EntryDiff String) :=
  host.compareById "id" SnapshotKeys.generator localEntries remoteEntries

/-- `compareUpgrades`. -/
def compareUpgrades (localEntries remoteEntries : List JsValue) : List (EntryDiff String) :=
  host.compareById "id" SnapshotKeys.upgrade localEntries remoteEntries

/-- `compareAchievements`. -/
def compareAchievements (localEntries remoteEntries : List JsValue) : List (EntryDiff String) :=
  host.compareById "id" SnapshotKeys.achievement localEntries remoteEntries

/-- `compareProductionAccumulators`, of the records of accumulators. -/
def compareProductionAccumulators (localAccumulators remoteAccumulators : JsValue) :
    List (EntryDiff String) :=
  host.compareViews
    (host.collectSortedIds (localAccumulators.fields.map Prod.fst)
      (remoteAccumulators.fields.map Prod.fst))
    ["value"] (accumulatorView localAccumulators) (accumulatorView remoteAccumulators)

/-- `compareProgression`. -/
def compareProgression (localState remoteState : JsValue) : Option ProgressionDiff :=
  let diff : ProgressionDiff :=
    { schemaVersion := host.recordValueDiff "schemaVersion" (localState.get "schemaVersion")
        (remoteState.get "schemaVersion")
      step := host.recordValueDiff "step" (localState.get "step") (remoteState.get "step")
      resources :=
        host.compareResourceState (localState.get "resources") (remoteState.get "resources")
      resourceDefinitionDigest :=
        host.compareDefinitionDigest (localState.get "resources") (remoteState.get "resources")
      generators := host.compareGenerators (elementsOf (localState.get "generators"))
        (elementsOf (remoteState.get "generators"))
      upgrades := host.compareUpgrades (elementsOf (localState.get "upgrades"))
        (elementsOf (remoteState.get "upgrades"))
      achievements := host.compareAchievements (elementsOf (localState.get "achievements"))
        (elementsOf (remoteState.get "achievements"))
      productionAccumulatorsDefined := definedDiff (localState.get "productionAccumulators")
        (remoteState.get "productionAccumulators")
      productionAccumulators := host.compareProductionAccumulators
        ((localState.get "productionAccumulators").get "accumulators")
        ((remoteState.get "productionAccumulators").get "accumulators") }
  if diff.hasDiff then some diff else none

/-- `compareAutomation`. -/
def compareAutomation (localEntries remoteEntries : List JsValue) : List (EntryDiff String) :=
  host.compareById "id" SnapshotKeys.automation localEntries remoteEntries

/-- `compareEntities`. -/
def compareEntities (localState remoteState : JsValue) : List (EntryDiff String) :=
  host.compareById "id" SnapshotKeys.entity (elementsOf (localState.get "entities"))
    (elementsOf (remoteState.get "entities"))

/-- `compareEntityInstances`. -/
def compareEntityInstances (localState remoteState : JsValue) : List (EntryDiff String) :=
  host.compareById "instanceId" SnapshotKeys.entityInstance
    (elementsOf (localState.get "instances")) (elementsOf (remoteState.get "instances"))

/-- `compareEntityInstanceLists`. -/
def compareEntityInstanceLists (localState remoteState : JsValue) : List (EntryDiff String) :=
  host.compareById "entityId" SnapshotKeys.entityInstanceList
    (elementsOf (localState.get "entityInstances")) (elementsOf (remoteState.get "entityInstances"))

/-- `compareTransformOutputs`. -/
def compareTransformOutputs (localEntries remoteEntries : List JsValue) : List (EntryDiff ℕ) :=
  host.compareByIndex SnapshotKeys.output localEntries remoteEntries

/-- `compareTransformBatches`. -/
def compareTransformBatches (localBatches remoteBatches : List JsValue) :
    List TransformBatchDiff :=
  let diffAt := fun index : ℕ =>
    { entry := host.entryDiff SnapshotKeys.batch (viewByIndex localBatches)
        (viewByIndex remoteBatches) index
      outputs := host.compareTransformOutputs
        (elementsOf ((viewByIndex localBatches).value index "outputs"))
        (elementsOf ((viewByIndex remoteBatches).value index "outputs")) : TransformBatchDiff }
  ((List.range (max localBatches.length remoteBatches.length)).map diffAt).filter
    TransformBatchDiff.hasDiff

/-- `compareTransforms`. -/
def compareTransforms (localEntries remoteEntries : List JsValue) : List TransformDiff :=
  let localView := viewById "id" localEntries
  let remoteView := viewById "id" remoteEntries
  let diffAt := fun id : String =>
    { entry := host.entryDiff SnapshotKeys.transform localView remoteView id
      batchesDefined :=
        definedDiff (localView.value id "batches") (remoteView.value id "batches")
      batches := host.compareTransformBatches (elementsOf (localView.value id "batches"))
        (elementsOf (remoteView.value id "batches")) : TransformDiff }
  ((host.collectSortedIds (idsOf "id" localEntries).eraseDups
    (idsOf "id" remoteEntries).eraseDups).map diffAt).filter TransformDiff.hasDiff

/-- `comparePrdRegistry`. -/
def comparePrdRegistry (localStates remoteStates : JsValue) : List (EntryDiff String) :=
  host.compareViews
    (host.collectSortedIds (localStates.fields.map Prod.fst) (remoteStates.fields.map Prod.fst))
    SnapshotKeys.prd (viewByKey localStates) (viewByKey remoteStates)

/-- `compareCommandQueue`. -/
def compareCommandQueue (localQueue remoteQueue : JsValue) : Option CommandQueueDiff :=
  let localEntries := elementsOf (localQueue.get "entries")
  let remoteEntries := elementsOf (remoteQueue.get "entries")
  let entryDiffs := host.compareByIndex SnapshotKeys.command localEntries remoteEntries
  -- the type of a command that one side lacks is noted for that side
  let typesMissing := fun (absent present : View ℕ) =>
    entryDiffs.filterMap fun diff =>
      if (absent diff.label).isNone && (present diff.label).isSome then
        (present.value diff.label "type").string?
      else none
  let diff : CommandQueueDiff :=
    { schemaVersion := host.recordValueDiff "schemaVersion" (localQueue.get "schemaVersion")
        (remoteQueue.get "schemaVersion")
      localCount := localEntries.length
      remoteCount := remoteEntries.length
      missingInLocal := typesMissing (viewByIndex localEntries) (viewByIndex remoteEntries)
      missingInRemote := typesMissing (viewByIndex remoteEntries) (viewByIndex localEntries)
      entryDiffs }
  if diff.schemaVersion.isSome || diff.localCount != diff.remoteCount || !entryDiffs.isEmpty then
    some diff
  else none

/-- `compareStates`. -/
def compareStates (localState remoteState : JsValue) : StateDiff :=
  let sections : StateDiff :=
    { identical := true
      version :=
        host.recordValueDiff "version" (localState.get "version") (remoteState.get "version")
      runtime := host.compareRuntime (localState.get "runtime") (remoteState.get "runtime")
      resources :=
        host.compareResourceState (localState.get "resources") (remoteState.get "resources")
      resourceDefinitionDigest :=
        host.compareDefinitionDigest (localState.get "resources") (remoteState.get "resources")
      progression :=
        host.compareProgression (localState.get "progression") (remoteState.get "progression")
      automation := host.compareAutomation (elementsOf (localState.get "automation"))
        (elementsOf (remoteState.get "automation"))
      transforms := host.compareTransforms (elementsOf (localState.get "transforms"))
        (elementsOf (remoteState.get "transforms"))
      entities := host.compareEntities (localState.get "entities") (remoteState.get "entities")
      entityInstances :=
        host.compareEntityInstances (localState.get "entities") (remoteState.get "entities")
      entityInstanceLists :=
        host.compareEntityInstanceLists (localState.get "entities") (remoteState.get "entities")
      prd := host.comparePrdRegistry (localState.get "prd") (remoteState.get "prd")
      commandQueue :=
        host.compareCommandQueue (localState.get "commandQueue") (remoteState.get "commandQueue") }
  { sections with
    identical := sections.version.isNone && sections.runtime.isEmpty &&
      sections.resourceDefinitionDigest.isNone && sections.resources.isEmpty &&
      sections.progression.isNone && sections.automation.isEmpty &&
      sections.transforms.isEmpty && sections.entities.isEmpty &&
      sections.entityInstances.isEmpty && sections.entityInstanceLists.isEmpty &&
      sections.prd.isEmpty && sections.commandQueue.isNone }

end TextHost

/-! ### What is compared -/

/-- Two sections agree at a label: both have an entry there or none of them, and the compared
properties of their entries are related. -/
def View.AgreeAt {ι : Type} (E : JsValue → JsValue → Prop) (keys : List String) (l r : View ι)
    (label : ι) : Prop :=
  (l label).isSome = (r label).isSome ∧ ∀ key ∈ keys, E (l.value label key) (r.value label key)

/-- Lists of entries agree at every id. -/
def EntriesAgree (E : JsValue → JsValue → Prop) (idKey : String) (keys : List String)
    (l r : List JsValue) : Prop :=
  ∀ id, View.AgreeAt E keys (viewById idKey l) (viewById idKey r) id

/-- Arrays of entries agree at every place. -/
def PlacesAgree (E : JsValue → JsValue → Prop) (keys : List String) (l r : List JsValue) : Prop :=
  ∀ index, View.AgreeAt E keys (viewByIndex l) (viewByIndex r) index

/-- The outputs of the batch at a place. -/
def outputsAt (batches : List JsValue) (index : ℕ) : List JsValue :=
  elementsOf ((viewByIndex batches).value index "outputs")

/-- The batches of the transform of an id. -/
def batchesOf (transforms : List JsValue) (id : String) : JsValue :=
  (viewById "id" transforms).value id "batches"

/-- Batches agree place by place, with their outputs. -/
def BatchesAgree (E : JsValue → JsValue → Prop) (l r : List JsValue) : Prop :=
  ∀ index, View.AgreeAt E SnapshotKeys.batch (viewByIndex l) (viewByIndex r) index ∧
    PlacesAgree E SnapshotKeys.output (outputsAt l index) (outputsAt r index)

/-- Transforms agree at every id, with their batches. -/
def TransformsAgree (E : JsValue → JsValue → Prop) (l r : List JsValue) : Prop :=
  ∀ id, View.AgreeAt E SnapshotKeys.transform (viewById "id" l) (viewById "id" r) id ∧
    (definedValue (batchesOf l id)).isSome = (definedValue (batchesOf r id)).isSome ∧
    BatchesAgree E (elementsOf (batchesOf l id)) (elementsOf (batchesOf r id))

/-- Resources agree at every id, and so do their digests. -/
structure ResourcesAgree (E : JsValue → JsValue → Prop) (l r : JsValue) : Prop where
  resources : ∀ id, View.AgreeAt E SnapshotKeys.resource (resourceView l) (resourceView r) id
  definitionDigest : E (l.get "definitionDigest") (r.get "definitionDigest")

/-- Progressions agree in what is compared of them. -/
structure ProgressionAgree (E : JsValue → JsValue → Prop) (l r : JsValue) : Prop where
  schemaVersion : E (l.get "schemaVersion") (r.get "schemaVersion")
  step : E (l.get "step") (r.get "step")
  resources : ResourcesAgree E (l.get "resources") (r.get "resources")
  generators : EntriesAgree E "id" SnapshotKeys.generator (elementsOf (l.get "generators"))
    (elementsOf (r.get "generators"))
  upgrades : EntriesAgree E "id" SnapshotKeys.upgrade (elementsOf (l.get "upgrades"))
    (elementsOf (r.get "upgrades"))
  achievements : EntriesAgree E "id" SnapshotKeys.achievement (elementsOf (l.get "achievements"))
    (elementsOf (r.get "achievements"))
  accumulatorsDefined : (definedValue (l.get "productionAccumulators")).isSome =
    (definedValue (r.get "productionAccumulators")).isSome
  accumulators : ∀ key, View.AgreeAt E ["value"]
    (accumulatorView ((l.get "productionAccumulators").get "accumulators"))
    (accumulatorView ((r.get "productionAccumulators").get "accumulators")) key

/-- Command queues agree place by place. -/
structure QueuesAgree (E : JsValue → JsValue → Prop) (l r : JsValue) : Prop where
  schemaVersion : E (l.get "schemaVersion") (r.get "schemaVersion")
  length : (elementsOf (l.get "entries")).length = (elementsOf (r.get "entries")).length
  entries : PlacesAgree E SnapshotKeys.command (elementsOf (l.get "entries"))
    (elementsOf (r.get "entries"))

/-- **All pairs of values that `compareStates` compares are related**, and no entry is missing on
one side. -/
structure Agree (E : JsValue → JsValue → Prop) (l r : JsValue) : Prop where
  version : E (l.get "version") (r.get "version")
  runtime : ∀ key ∈ SnapshotKeys.runtime,
    E (runtimeProperty (l.get "runtime") key) (runtimeProperty (r.get "runtime") key)
  resources : ResourcesAgree E (l.get "resources") (r.get "resources")
  progression : ProgressionAgree E (l.get "progression") (r.get "progression")
  automation : EntriesAgree E "id" SnapshotKeys.automation (elementsOf (l.get "automation"))
    (elementsOf (r.get "automation"))
  transforms : TransformsAgree E (elementsOf (l.get "transforms")) (elementsOf (r.get "transforms"))
  entities : EntriesAgree E "id" SnapshotKeys.entity (elementsOf ((l.get "entities").get "entities"))
    (elementsOf ((r.get "entities").get "entities"))
  instances : EntriesAgree E "instanceId" SnapshotKeys.entityInstance
    (elementsOf ((l.get "entities").get "instances"))
    (elementsOf ((r.get "entities").get "instances"))
  instanceLists : EntriesAgree E "entityId" SnapshotKeys.entityInstanceList
    (elementsOf ((l.get "entities").get "entityInstances"))
    (elementsOf ((r.get "entities").get "entityInstances"))
  prd : ∀ id, View.AgreeAt E SnapshotKeys.prd (viewByKey (l.get "prd")) (viewByKey (r.get "prd")) id
  commandQueue : QueuesAgree E (l.get "commandQueue") (r.get "commandQueue")

end IdleEngine
