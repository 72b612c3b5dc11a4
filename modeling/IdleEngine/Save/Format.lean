import Mathlib.Tactic.Linarith
import IdleEngine.JsValue

/-!
# The save format and its migrations

`loadGameStateSaveFormat` takes an unchecked value: it reads the version, looks for a path of
migrations to the current version, runs it and validates the result. Validation normalizes section
by section, so what it returns is a `GameStateSaveFormat`, whose fields carry what validation
established.

The migration search is breadth-first with a list of visited versions; every round takes one entry
from the queue, and an entry is queued at most once for each migration.
-/

namespace IdleEngine

open JsValue

/-- `GAME_STATE_SAVE_SCHEMA_VERSION`. -/
def gameStateSaveSchemaVersion : ℕ := 1

/-! ### Reading unchecked values -/

/-- `readNonNegativeInt`. -/
def readNonNegativeInt (value : JsValue) : Option ℕ :=
  match value.finite? with
  | none => none
  | some amount => if amount < 0 then none else some ⌊amount⌋₊

/-- `readNonNegativeNumber`. -/
def readNonNegativeNumber (value : JsValue) : Option ℚ :=
  match value.finite? with
  | none => none
  | some amount => if amount < 0 then none else some amount

/-- `getSaveVersion`. -/
def getSaveVersion (value : JsValue) : Option ℕ :=
  if value.isRecord then readNonNegativeInt (value.get "version") else none

/-- `hasLegacyV0Shape`. -/
def hasLegacyV0Shape (value : JsValue) : Bool :=
  value.isRecord && (value.has "resources" && value.has "progression" && value.has "commandQueue")

/-- `stripEmbeddedAutomation`. -/
def stripEmbeddedAutomation (value : JsValue) : JsValue :=
  if value.isRecord = false then value
  else if value.has "automationState" = false then value
  else record (value.fields.filter fun field => field.1 ≠ "automationState")

/-! ### The sections of a save -/

/-- `GameStateSaveRuntime` after normalization. -/
structure GameStateSaveRuntime where
  step : ℕ
  accumulatorBacklogMs : ℚ
  hostFrameBacklogMs : ℚ
  creditedBacklogMs : ℚ
  rngSeed : Option ℚ
  rngState : Option ℚ
  hostFrame_nonneg : 0 ≤ hostFrameBacklogMs
  credited_nonneg : 0 ≤ creditedBacklogMs
  accumulator_eq : accumulatorBacklogMs = hostFrameBacklogMs + creditedBacklogMs

/-- `SerializedEntitySystemState`. -/
structure SerializedEntitySystemState where
  entities : List JsValue
  instances : List JsValue
  entityInstances : List JsValue

/-- `GameStateSaveFormatV1`. -/
structure GameStateSaveFormat where
  savedAt : ℚ
  resources : JsValue
  progression : JsValue
  automation : List JsValue
  transforms : List JsValue
  entities : SerializedEntitySystemState
  prd : JsValue
  commandQueue : JsValue
  runtime : GameStateSaveRuntime
  savedAt_nonneg : 0 ≤ savedAt
  prd_checked : prd = .undefined ∨ prd.isRecord = true

/-- A field that is left out when it has no value. -/
def optionalField (key : String) : Option ℚ → List (String × JsValue)
  | none => []
  | some value => [(key, number (.fin value))]

/-- The normalized runtime section as a value. -/
def GameStateSaveRuntime.toJs (runtime : GameStateSaveRuntime) : JsValue :=
  record ([("step", number (.fin runtime.step)),
    ("accumulatorBacklogMs", number (.fin runtime.accumulatorBacklogMs)),
    ("hostFrameBacklogMs", number (.fin runtime.hostFrameBacklogMs)),
    ("creditedBacklogMs", number (.fin runtime.creditedBacklogMs))] ++
    optionalField "rngSeed" runtime.rngSeed ++ optionalField "rngState" runtime.rngState)

/-- The entity section as a value. -/
def SerializedEntitySystemState.toJs (entities : SerializedEntitySystemState) : JsValue :=
  record [("entities", array entities.entities), ("instances", array entities.instances),
    ("entityInstances", array entities.entityInstances)]

/-- A validated save as a value. -/
def GameStateSaveFormat.toJs (save : GameStateSaveFormat) : JsValue :=
  record [("version", number (.fin gameStateSaveSchemaVersion)), ("savedAt", number (.fin save.savedAt)),
    ("resources", save.resources), ("progression", save.progression),
    ("automation", array save.automation), ("transforms", array save.transforms),
    ("entities", save.entities.toJs), ("prd", save.prd), ("commandQueue", save.commandQueue),
    ("runtime", save.runtime.toJs)]

theorem readNonNegativeNumber_nonneg {value : JsValue} {amount : ℚ}
    (h : readNonNegativeNumber value = some amount) : 0 ≤ amount := by
  rw [readNonNegativeNumber] at h
  split at h
  · cases h
  · split at h
    · cases h
    · next hnonneg =>
      obtain rfl := Option.some.inj h
      exact not_lt.mp hnonneg

/-- `normalizeRuntimeBacklogFields`: the credited part, and the host part with its fallback. -/
def creditedBacklogOf (fields : JsValue) : ℚ :=
  (readNonNegativeNumber (fields.get "creditedBacklogMs")).getD 0

/-- The host part of `normalizeRuntimeBacklogFields`, which falls back to what a total leaves. -/
def hostFrameBacklogOf (fields : JsValue) : ℚ :=
  (readNonNegativeNumber (fields.get "hostFrameBacklogMs")).getD
    (max 0 ((readNonNegativeNumber (fields.get "accumulatorBacklogMs")).getD 0 -
      creditedBacklogOf fields))

theorem creditedBacklogOf_nonneg (fields : JsValue) : 0 ≤ creditedBacklogOf fields := by
  rw [creditedBacklogOf]
  cases h : readNonNegativeNumber (fields.get "creditedBacklogMs") with
  | none => exact le_rfl
  | some amount => exact readNonNegativeNumber_nonneg h

theorem hostFrameBacklogOf_nonneg (fields : JsValue) : 0 ≤ hostFrameBacklogOf fields := by
  rw [hostFrameBacklogOf]
  cases h : readNonNegativeNumber (fields.get "hostFrameBacklogMs") with
  | none => exact le_max_left _ _
  | some amount => exact readNonNegativeNumber_nonneg h

/-- `normalizeRuntime`. What is not an object has no fields, and every field has a default. -/
def normalizeRuntime (value : JsValue) : GameStateSaveRuntime where
  step := if value.isRecord then (readNonNegativeInt (value.get "step")).getD 0 else 0
  accumulatorBacklogMs :=
    if value.isRecord then hostFrameBacklogOf value + creditedBacklogOf value else 0
  hostFrameBacklogMs := if value.isRecord then hostFrameBacklogOf value else 0
  creditedBacklogMs := if value.isRecord then creditedBacklogOf value else 0
  rngSeed := if value.isRecord then (value.get "rngSeed").finite? else none
  rngState := if value.isRecord then (value.get "rngState").finite? else none
  hostFrame_nonneg := by
    split
    · exact hostFrameBacklogOf_nonneg value
    · exact le_rfl
  credited_nonneg := by
    split
    · exact creditedBacklogOf_nonneg value
    · exact le_rfl
  accumulator_eq := by
    split
    · rfl
    · exact (add_zero 0).symm

/-- The elements of a section, or none when it is not an array. -/
def arraySection (value : JsValue) : List JsValue := value.array?.getD []

/-- `normalizeEntitySystemState`. -/
def normalizeEntitySystemState (value : JsValue) : SerializedEntitySystemState :=
  if value.isRecord = false then { entities := [], instances := [], entityInstances := [] }
  else
    { entities := arraySection (value.get "entities")
      instances := arraySection (value.get "instances")
      entityInstances := arraySection (value.get "entityInstances") }

/-- `normalizePrdRegistryState`. -/
def normalizePrdRegistryState (value : JsValue) : JsValue :=
  if value.isRecord then value else .undefined

theorem normalizePrdRegistryState_checked (value : JsValue) :
    normalizePrdRegistryState value = .undefined ∨
      (normalizePrdRegistryState value).isRecord = true := by
  rw [normalizePrdRegistryState]
  split
  · next h => exact .inr h
  · exact .inl rfl

/-! ### Migration from version 0 -/

/-- The progression section without the automation embedded in its resources. -/
def stripProgression (progression : JsValue) : JsValue :=
  if progression.isRecord then
    record (OrderedMap.setEntries "resources"
      (stripEmbeddedAutomation (progression.get "resources")) progression.fields)
  else progression

/-- The automation section of a legacy save, which may be embedded in its resources. -/
def legacyAutomation (legacy : JsValue) : List JsValue :=
  match (legacy.get "automation").array? with
  | some automation => automation
  | none =>
      match ((legacy.get "resources").get "automationState").array? with
      | some embedded => embedded
      | none => []

/-- `migrateLegacyV0ToV1`. -/
def migrateLegacyV0ToV1 (value : JsValue) : Except String JsValue :=
  if hasLegacyV0Shape value = false then .error "Unsupported legacy game state save format."
  else
    .ok (record
      [("version", number (.fin gameStateSaveSchemaVersion)),
        ("savedAt", number (.fin ((value.get "savedAt").finite?.getD 0))),
        ("resources", stripEmbeddedAutomation (value.get "resources")),
        ("progression", stripProgression (value.get "progression")),
        ("automation", array (legacyAutomation value)),
        ("transforms", array (arraySection (value.get "transforms"))),
        ("entities", SerializedEntitySystemState.toJs
          { entities := [], instances := [], entityInstances := [] }),
        ("commandQueue", value.get "commandQueue"),
        ("runtime", (normalizeRuntime (value.get "runtime")).toJs)])

/-! ### The migration search -/

/-- `SchemaMigration`. -/
structure SchemaMigration where
  fromVersion : ℚ
  toVersion : ℚ
  migrate : JsValue → Except String JsValue

/-- `DEFAULT_GAME_STATE_SAVE_MIGRATIONS`. -/
def defaultGameStateSaveMigrations : List SchemaMigration :=
  [{ fromVersion := 0, toVersion := gameStateSaveSchemaVersion, migrate := migrateLegacyV0ToV1 }]

/-- A queue entry of the search: a version and the path to it. -/
abbrev MigrationSearch := List (ℚ × List SchemaMigration)

/-- Follow the migrations of one version: a path to the target, or the queue and the visited
versions after it. -/
def followMigrations (toVersion : ℚ) (path : List SchemaMigration) :
    List SchemaMigration → MigrationSearch → List ℚ →
      List SchemaMigration ⊕ MigrationSearch × List ℚ
  | [], queue, visited => .inr (queue, visited)
  | migration :: rest, queue, visited =>
      if visited.contains migration.toVersion then followMigrations toVersion path rest queue visited
      else if migration.toVersion = toVersion then .inl (path ++ [migration])
      else
        followMigrations toVersion path rest (queue ++ [(migration.toVersion, path ++ [migration])])
          (migration.toVersion :: visited)

/-- The rounds of the search. -/
def searchRounds (migrations : List SchemaMigration) (toVersion : ℚ) :
    ℕ → MigrationSearch → List ℚ → Option (List SchemaMigration)
  | 0, _, _ => none
  | _ + 1, [], _ => none
  | rounds + 1, (version, path) :: queue, visited =>
      match followMigrations toVersion path
        (migrations.filter fun migration => migration.fromVersion = version) queue visited with
      | .inl path => some path
      | .inr (queue, visited) => searchRounds migrations toVersion rounds queue visited

/-- `findMigrationPath`. -/
def findMigrationPath (migrations : List SchemaMigration) (fromVersion toVersion : ℚ) :
    Option (List SchemaMigration) :=
  if fromVersion = toVersion then some []
  else searchRounds migrations toVersion (migrations.length + 2) [(fromVersion, [])] [fromVersion]

/-! ### Loading -/

section Loading

-- the language's conversion of a value to text, which only error messages use
variable (stringOf : JsValue → String)

/-- `validateSaveFormatV1`. -/
def validateSaveFormatV1 (value : JsValue) : Except String GameStateSaveFormat :=
  if value.isRecord = false then .error "Save data must be an object."
  else if (value.get "version").number? ≠ some (.fin gameStateSaveSchemaVersion) then
    .error ("Unsupported game state save version: " ++ stringOf (value.get "version"))
  else
    match (value.get "savedAt").finite? with
    | none => .error "Save data has an invalid savedAt timestamp."
    | some savedAt =>
        if hsavedAt : savedAt < 0 then .error "Save data has an invalid savedAt timestamp."
        else if value.has "resources" = false then .error "Save data is missing resources."
        else if value.has "progression" = false then
          .error "Save data is missing progression state."
        else if value.has "commandQueue" = false then
          .error "Save data is missing command queue state."
        else
          .ok
            { savedAt
              resources := value.get "resources"
              progression := value.get "progression"
              automation := arraySection (value.get "automation")
              transforms := arraySection (value.get "transforms")
              entities := normalizeEntitySystemState (value.get "entities")
              prd := normalizePrdRegistryState (value.get "prd")
              commandQueue := value.get "commandQueue"
              runtime := normalizeRuntime (value.get "runtime")
              savedAt_nonneg := not_lt.mp hsavedAt
              prd_checked := normalizePrdRegistryState_checked (value.get "prd") }

/-- Run the migrations of a path, each of which has to set the version it promises. -/
def runMigrations : List SchemaMigration → ℕ → JsValue → Except String JsValue
  | [], _, migrated => .ok migrated
  | migration :: path, currentVersion, migrated =>
      match migration.migrate migrated with
      | .error message => .error message
      | .ok migrated =>
          match getSaveVersion migrated with
          | none =>
              .error ("Migration from " ++ toString currentVersion ++ " to " ++
                stringOf (number (.fin migration.toVersion)) ++ " did not set the expected version.")
          | some nextVersion =>
              if (nextVersion : ℚ) ≠ migration.toVersion then
                .error ("Migration from " ++ toString currentVersion ++ " to " ++
                  stringOf (number (.fin migration.toVersion)) ++
                  " did not set the expected version.")
              else runMigrations path nextVersion migrated

/-- The version a save is loaded from. -/
def detectedVersion (value : JsValue) : Option ℕ :=
  match getSaveVersion value with
  | some version => some version
  | none => if hasLegacyV0Shape value then some 0 else none

/-- `loadGameStateSaveFormat`, with its options. -/
def loadGameStateSaveFormatWith (migrations : List SchemaMigration) (targetVersion : ℚ)
    (value : JsValue) : Except String GameStateSaveFormat :=
  match detectedVersion value with
  | none => .error "Unable to determine game state save version."
  | some fromVersion =>
      if (fromVersion : ℚ) = targetVersion then validateSaveFormatV1 stringOf value
      else
        match findMigrationPath migrations fromVersion targetVersion with
        | none =>
            .error ("No migration path from version " ++ toString fromVersion ++ " to " ++
              stringOf (number (.fin targetVersion)) ++ ".")
        | some path =>
            match runMigrations stringOf path fromVersion value with
            | .error message => .error message
            | .ok migrated => validateSaveFormatV1 stringOf migrated

/-- `loadGameStateSaveFormat` without options. -/
def loadGameStateSaveFormat (value : JsValue) : Except String GameStateSaveFormat :=
  loadGameStateSaveFormatWith stringOf defaultGameStateSaveMigrations gameStateSaveSchemaVersion value

end Loading

end IdleEngine
