import IdleEngine.Content.UnlockCycles

/-!
# The content pack validator

`runFullValidation` resolves the options of a validator, runs the checks of the parsed pack in a
fixed order, normalizes the pack and checks its balance. The checks send warnings to a sink as they
go; what the sink of the options receives is kept beside the `warnings` of the result
(`WarningSinks`).

The schemas, the arithmetic of versions, the references and conversion cycles of single modules,
the normalization, the balance checks and the hash of a pack are fields of `PackSchemas`. The allowlists,
the dependencies, the feature gates and the order of all steps are the code's own.
-/

namespace IdleEngine

/-- A step of a path into a pack or into the options. -/
inductive PathSegment
  | name (name : String)
  | index (index : ℕ)
  deriving DecidableEq, Repr

/-- `ContentSchemaWarningSeverity`. -/
inductive WarningSeverity
  | error
  | warning
  | info
  deriving DecidableEq, Repr

/-- An issue of the schema library; all that are added here have the code `custom`. -/
structure ZodIssue where
  code : String
  path : List PathSegment
  message : String
  deriving DecidableEq, Repr

/-- `ctx.addIssue` with the code `custom`. -/
def ZodIssue.custom (path : List PathSegment) (message : String) : ZodIssue :=
  ⟨"custom", path, message⟩

/-- `ContentSchemaWarning`. -/
structure ContentSchemaWarning where
  code : String
  message : String
  path : List PathSegment
  severity : WarningSeverity
  suggestion : Option String
  issues : Option (List ZodIssue)
  deriving DecidableEq, Repr

/-- A warning without a suggestion. -/
def ContentSchemaWarning.plain (code message : String) (path : List PathSegment)
    (severity : WarningSeverity) : ContentSchemaWarning :=
  ⟨code, message, path, severity, none, none⟩

/-- What a validation throws. -/
inductive ValidationError
  | zod (issues : List ZodIssue)
  | balance (message : String) (issues : List ContentSchemaWarning)
  deriving DecidableEq, Repr

/-! ### The pack and the options -/

/-- `KnownPackDependency`; also a dependency of the pack itself. -/
structure PackDependency where
  packId : String
  version : Option String
  deriving DecidableEq, Repr

/-- `metadata.dependencies`. -/
structure PackDependencies where
  requires : List PackDependency
  optional : List PackDependency
  deriving DecidableEq, Repr

/-- The parsed pack. The validator does not look into the automations, the entities, the runtime
events and the rest, which are of any type. -/
structure PackDocument (Body : Type) extends ParsedContentPack where
  id : String
  dependencies : Option PackDependencies
  automations : List Body
  entities : List Body
  runtimeEvents : List Body
  rest : Body

/-- `AllowlistSpecInput`. -/
structure AllowlistSpecInput where
  required : Option (List String)
  soft : Option (List String)
  deriving DecidableEq, Repr

/-- The allowlists of the options. -/
structure AllowlistInputs where
  flags : Option AllowlistSpecInput
  scripts : Option AllowlistSpecInput
  systemAutomationTargets : Option AllowlistSpecInput
  deriving DecidableEq, Repr

/-- `KnownPackEntry`. -/
structure KnownPackEntry where
  id : String
  version : String
  requires : Option (List PackDependency)
  deriving DecidableEq, Repr

/-- `BalanceValidationOptions`. -/
structure BalanceValidationOptions where
  enabled : Option Bool
  sampleSize : Option JsNumber
  maxGrowth : Option JsNumber
  warnOnly : Option Bool
  deriving DecidableEq, Repr

/-- The `ContentSchemaOptions` that a validation reads. -/
structure ValidationOptions where
  allowlists : Option AllowlistInputs
  runtimeVersion : Option String
  knownPacks : Option (List KnownPackEntry)
  runtimeEventCatalogue : Option (List String)
  activePackIds : Option (List String)
  balance : Option BalanceValidationOptions
  deriving DecidableEq, Repr

/-- `ContentSchemaOptions`: also whether there is a warning sink, and whether the validator uses
the cache. -/
structure ContentSchemaOptions extends ValidationOptions where
  warningSink : Bool
  cache : Bool
  deriving DecidableEq, Repr

/-- `NormalizedAllowlistSpec`. -/
structure NormalizedAllowlistSpec where
  required : Finset String
  soft : Finset String
  deriving DecidableEq

/-- The allowlists of a `CrossReferenceContext`. -/
structure NormalizedAllowlists where
  flags : Option NormalizedAllowlistSpec
  scripts : Option NormalizedAllowlistSpec
  systemAutomationTargets : Option NormalizedAllowlistSpec
  deriving DecidableEq

/-- `CrossReferenceContext`, except for the sink. -/
structure CrossReferenceContext where
  allowlists : NormalizedAllowlists
  runtimeEventCatalogue : Finset String
  runtimeVersion : Option String
  activePackIds : Finset String
  knownPacks : OrderedMap String KnownPackEntry

/-- What a check finds: warnings for the sink and issues for the context. -/
structure Findings where
  warnings : List ContentSchemaWarning
  issues : List ZodIssue
  deriving DecidableEq, Repr

namespace Findings

def none : Findings := ⟨[], []⟩

/-- Two checks after each other. -/
def append (first second : Findings) : Findings :=
  ⟨first.warnings ++ second.warnings, first.issues ++ second.issues⟩

end Findings

/-- `ContentPackDigest`. -/
structure ContentPackDigest where
  version : ℕ
  hash : String
  deriving DecidableEq, Repr

/-- `CONTENT_PACK_DIGEST_VERSION`. -/
def contentPackDigestVersion : ℕ := 1

/-- `digestToCacheKey`. -/
def digestToCacheKey (digest : ContentPackDigest) : String :=
  "v" ++ toString digest.version ++ ":" ++ digest.hash

/-- The functions of the version library. -/
structure Semver where
  valid : String → Option String
  clean : String → Option String
  coerce : String → Option String
  lt : String → String → Bool

/-- What the validator calls: the schemas, the checks of single modules, the normalization and the
hash of a pack. -/
structure PackSchemas (Input Body Pack : Type) where
  contentPackSchema : Input → Except (List ZodIssue) (PackDocument Body)
  flagIdSchema : String → Except (List ZodIssue) String
  scriptIdSchema : String → Except (List ZodIssue) String
  systemAutomationTargetIdSchema : String → Except (List ZodIssue) String
  contentIdSchema : String → Except (List ZodIssue) String
  packSlugSchema : String → Except (List ZodIssue) String
  semver : Semver
  validateCrossReferences : PackDocument Body → CrossReferenceContext → Findings
  validateTransformCycles : PackDocument Body → List ZodIssue
  normalizeContentPack : PackDocument Body → List ContentSchemaWarning × Pack
  balanceIssues : Pack → BalanceValidationOptions → List ContentSchemaWarning
  packHash : PackDocument Body → String

/-- `computePackDigest`. -/
def PackSchemas.computePackDigest {Input Body Pack : Type} (schemas : PackSchemas Input Body Pack)
    (pack : PackDocument Body) : ContentPackDigest :=
  ⟨contentPackDigestVersion, schemas.packHash pack⟩

/-! ### Warnings on their way -/

/-- The warnings that a run collects, and what the sink of the options has received. -/
structure WarningSinks where
  warnings : List ContentSchemaWarning
  sent : List ContentSchemaWarning
  deriving DecidableEq, Repr

/-- A validation: it sends warnings and may throw. -/
abbrev ValidationM := EStateM ValidationError WarningSinks

/-- `options.warningSink?.(warning)`. -/
def ContentSchemaOptions.send (options : ContentSchemaOptions)
    (warnings : List ContentSchemaWarning) : ValidationM Unit :=
  modify fun sinks =>
    { sinks with sent := if options.warningSink then sinks.sent ++ warnings else sinks.sent }

/-- `sink`, for some warnings in a row. -/
def ContentSchemaOptions.sink (options : ContentSchemaOptions)
    (warnings : List ContentSchemaWarning) : ValidationM Unit := do
  modify fun sinks => { sinks with warnings := sinks.warnings ++ warnings }
  options.send warnings

/-! ### The options, normalized -/

/-- What the entries of an allowlist come to. -/
structure AllowlistEntries where
  normalized : Finset String
  issues : List ZodIssue

/-- One round of the loop of `normalizeAllowlistEntries`. -/
def normalizeAllowlistEntry (options : ContentSchemaOptions) (severity : WarningSeverity)
    (schema : String → Except (List ZodIssue) String) (pathPrefix : List PathSegment)
    (entries : AllowlistEntries) (entry : String × ℕ) : ValidationM AllowlistEntries :=
  let entryPath := pathPrefix ++ [.index entry.2]
  match schema entry.1 with
  | .ok data => pure { entries with normalized := insert data entries.normalized }
  | .error issues =>
    if severity = .error then
      pure { entries with
        issues := entries.issues ++
          issues.map fun issue => { issue with path := entryPath ++ issue.path } }
    else do
      options.sink [{
        code :=
          if severity = .warning then "allowlist.invalidSoftEntry" else "allowlist.invalidEntry"
        message := "Allowlist entry \"" ++ entry.1 ++ "\" failed validation."
        path := entryPath
        severity := severity
        suggestion := none
        issues := some issues }]
      pure entries

/-- `normalizeAllowlistEntries`. -/
def normalizeAllowlistEntries (options : ContentSchemaOptions) (entries : Option (List String))
    (severity : WarningSeverity) (schema : String → Except (List ZodIssue) String)
    (pathPrefix : List PathSegment) : ValidationM (Finset String) := do
  let normalized ← (entries.getD []).zipIdx.foldlM
    (normalizeAllowlistEntry options severity schema pathPrefix) ⟨∅, []⟩
  if severity = .error ∧ normalized.issues ≠ [] then throw (.zod normalized.issues)
  else pure normalized.normalized

/-- `normalizeAllowlistSpec`. -/
def normalizeAllowlistSpec (options : ContentSchemaOptions) (spec : AllowlistSpecInput)
    (schema : String → Except (List ZodIssue) String) (pathPrefix : List PathSegment) :
    ValidationM NormalizedAllowlistSpec := do
  let required ← normalizeAllowlistEntries options spec.required .error schema
    (pathPrefix ++ [.name "required"])
  let soft ← normalizeAllowlistEntries options spec.soft .warning schema
    (pathPrefix ++ [.name "soft"])
  pure ⟨required, soft⟩

/-- One of the allowlists, where the options have it. -/
def normalizeAllowlist (options : ContentSchemaOptions) (spec : Option AllowlistSpecInput)
    (schema : String → Except (List ZodIssue) String) (name : String) :
    ValidationM (Option NormalizedAllowlistSpec) :=
  match spec with
  | none => pure none
  | some spec =>
    some <$> normalizeAllowlistSpec options spec schema
      [.name "options", .name "allowlists", .name name]

/-- The ids that a schema makes of some entries; the first entry it rejects is thrown. -/
def parseEntries (schema : String → Except (List ZodIssue) String)
    (entries : Option (List String)) : ValidationM (Finset String) :=
  match (entries.getD []).mapM schema with
  | .ok parsed => pure parsed.toFinset
  | .error issues => throw (.zod issues)

variable {Input Body Pack : Type} (schemas : PackSchemas Input Body Pack)

/-- `buildCrossReferenceContext`. -/
def buildCrossReferenceContext (options : ContentSchemaOptions) :
    ValidationM CrossReferenceContext := do
  let inputs := options.allowlists.getD ⟨none, none, none⟩
  let flags ← normalizeAllowlist options inputs.flags schemas.flagIdSchema "flags"
  let scripts ← normalizeAllowlist options inputs.scripts schemas.scriptIdSchema "scripts"
  let systemAutomationTargets ← normalizeAllowlist options inputs.systemAutomationTargets
    schemas.systemAutomationTargetIdSchema "systemAutomationTargets"
  let runtimeEventCatalogue ← parseEntries schemas.contentIdSchema options.runtimeEventCatalogue
  let activePackIds ← parseEntries schemas.packSlugSchema options.activePackIds
  pure
    { allowlists := ⟨flags, scripts, systemAutomationTargets⟩
      runtimeEventCatalogue := runtimeEventCatalogue
      runtimeVersion := options.runtimeVersion
      activePackIds := activePackIds
      knownPacks := (options.knownPacks.getD []).foldl
        (fun known entry => known.set entry.id entry) OrderedMap.empty }

/-! ### The dependencies -/

/-- `addEdge`. -/
def addDependencyEdge (adjacency : AdjacencyGraph) (source target : String) : AdjacencyGraph :=
  adjacency.set source (addToSet (adjacency.targets source) target)

/-- The variables that the visits of `validateDependencies` share. -/
structure DependencySearch where
  visited : List String
  stack : List String

/-- A loop over visits that ends at the first that finds a cycle. -/
def visitUntilCycle (visit : String → DependencySearch → Bool × DependencySearch) :
    List String → DependencySearch → Bool × DependencySearch
  | [], search => (false, search)
  | node :: nodes, search =>
    if (visit node search).1 then (true, (visit node search).2)
    else visitUntilCycle visit nodes (visit node search).2

/-- `visit` of `validateDependencies`; the fuel bounds how deep the visits nest. -/
def AdjacencyGraph.visitDependency (adjacency : AdjacencyGraph) :
    ℕ → String → DependencySearch → Bool × DependencySearch
  | 0, _, search => (false, search)
  | fuel + 1, node, search =>
    if node ∈ search.stack then (true, search)
    else if node ∈ search.visited then (false, search)
    else
      let visited := visitUntilCycle (adjacency.visitDependency fuel) (adjacency.targets node)
        ⟨search.visited ++ [node], search.stack ++ [node]⟩
      if visited.1 then visited
      else (false, { visited.2 with stack := visited.2.stack.erase node })

/-- The cycle through a pack. No visit nests deeper than there are targets of edges. -/
def AdjacencyGraph.hasCycleFrom (adjacency : AdjacencyGraph) (packId : String) : Bool :=
  let fuel := (adjacency.entries.flatMap Prod.snd).length + 2
  (adjacency.visitDependency fuel packId ⟨[], []⟩).1

/-- The path of a dependency. -/
def dependencyPath (kind : String) (segments : List PathSegment) : List PathSegment :=
  [.name "metadata", .name "dependencies", .name kind] ++ segments

/-- An optional dependency that is not active. -/
def optionalDependencyWarning (context : CrossReferenceContext) (entry : PackDependency × ℕ) :
    Option ContentSchemaWarning :=
  if context.activePackIds.card = 0 ∨ entry.1.packId ∈ context.activePackIds then none
  else some (.plain "dependencies.optionalMissing"
    ("Optional dependency \"" ++ entry.1.packId ++ "\" is not present in active pack set.")
    (dependencyPath "optional" [.index entry.2]) .warning)

/-- A required dependency on a pack that is not known. -/
def requiredDependencyWarning (packId : String) (context : CrossReferenceContext)
    (entry : PackDependency × ℕ) : Option ContentSchemaWarning :=
  if entry.1.packId = packId ∨ (context.knownPacks.get? entry.1.packId).isSome then none
  else some (.plain "dependencies.unknownPack"
    ("Dependency \"" ++ entry.1.packId ++ "\" is not present in known pack graph.")
    (dependencyPath "requires" [.index entry.2, .name "packId"]) .warning)

/-- A pack that requires itself. -/
def selfDependencyIssue (packId : String) (entry : PackDependency × ℕ) : Option ZodIssue :=
  if entry.1.packId = packId then
    some (.custom (dependencyPath "requires" [.index entry.2, .name "packId"])
      "Pack cannot depend on itself.")
  else none

/-- The graph of what the pack and the known packs require. -/
def dependencyAdjacency (packId : String) (requires : List PackDependency)
    (context : CrossReferenceContext) : AdjacencyGraph :=
  let own := (requires.filter fun dependency => dependency.packId ≠ packId).foldl
    (fun adjacency dependency => addDependencyEdge adjacency packId dependency.packId)
    OrderedMap.empty
  context.knownPacks.entries.foldl
    (fun adjacency known => (known.2.requires.getD []).foldl
      (fun adjacency dependency => addDependencyEdge adjacency known.2.id dependency.packId)
      adjacency) own

/-- `validateDependencies`. -/
def validateDependencies (pack : PackDocument Body) (context : CrossReferenceContext) : Findings :=
  match pack.dependencies with
  | none => .none
  | some dependencies =>
    { warnings :=
        dependencies.optional.zipIdx.filterMap (optionalDependencyWarning context) ++
          dependencies.requires.zipIdx.filterMap (requiredDependencyWarning pack.id context)
      issues :=
        dependencies.requires.zipIdx.filterMap (selfDependencyIssue pack.id) ++
          if (dependencyAdjacency pack.id dependencies.requires context).hasCycleFrom pack.id then
            [.custom (dependencyPath "requires" [])
              "Dependency graph contains a cycle involving this pack."]
          else [] }

/-! ### The feature gates -/

/-- An entry of `FEATURE_GATES`, with the test of `buildFeatureGateMap`. -/
structure FeatureGate (Body : Type) where
  module : String
  introducedIn : String
  docRef : String
  used : PackDocument Body → Bool

/-- `FEATURE_GATES`. -/
def featureGates : List (FeatureGate Body) :=
  [⟨"automations", "0.2.0", "docs/idle-engine-design.md (§6.2)",
      fun pack => 0 < pack.automations.length⟩,
    ⟨"transforms", "0.3.0", "docs/idle-engine-design.md (§6.2)",
      fun pack => 0 < pack.transforms.length⟩,
    ⟨"runtimeEvents", "0.3.0", "docs/runtime-event-pubsub-design.md",
      fun pack => 0 < pack.runtimeEvents.length⟩,
    ⟨"prestigeLayers", "0.4.0", "docs/idle-engine-design.md (§6.2)",
      fun pack => 0 < pack.prestigeLayers.length⟩,
    ⟨"entities", "0.5.0", "docs/idle-engine-design.md (§6.2)",
      fun pack => 0 < pack.entities.length⟩]

/-- `normalizeRuntimeVersion`. -/
def normalizeRuntimeVersion (semver : Semver) (runtimeVersion : Option String) : Option String :=
  match runtimeVersion with
  | none => none
  | some version =>
    if version = "" then none
    else (semver.valid version).or ((semver.clean version).or (semver.coerce version))

/-- What a gate of a module in use finds. -/
def featureViolation (semver : Semver) (runtimeVersion : Option String)
    (gate : FeatureGate Body) : Findings :=
  let path : List PathSegment := [.name "metadata", .name "version"]
  let messageBase := "Module \"" ++ gate.module ++ "\" requires runtime version " ++
    gate.introducedIn ++ " or later (" ++ gate.docRef ++ ")."
  match normalizeRuntimeVersion semver runtimeVersion with
  | none =>
    ⟨[.plain "runtime.featureGate"
      (messageBase ++ " Provide ContentSchemaOptions.runtimeVersion to enforce compatibility.")
      path .warning], []⟩
  | some version =>
    if semver.lt version gate.introducedIn then
      ⟨[], [.custom path
        (messageBase ++ " Current runtime version " ++ version ++ " is too old.")]⟩
    else .none

/-- `validateFeatureGates`. -/
def validateFeatureGates (semver : Semver) (pack : PackDocument Body)
    (runtimeVersion : Option String) : Findings :=
  ((featureGates.filter fun gate => gate.used pack).map
    (featureViolation semver runtimeVersion)).foldl Findings.append .none

/-! ### The whole validation -/

/-- The issues of the unlock conditions, as the refinement context gets them. -/
def unlockCycleFindings (pack : PackDocument Body) : List ZodIssue :=
  (validateUnlockConditionCycles pack.toParsedContentPack).map fun issue =>
    .custom [.name issue.path.1, .index issue.path.2] issue.message

/-- `runValidationRefinements`: what the checks find, in their order. -/
def refinementFindings (pack : PackDocument Body) (context : CrossReferenceContext)
    (options : ContentSchemaOptions) : Findings :=
  (((schemas.validateCrossReferences pack context).append
    (validateDependencies pack context)).append
    (validateFeatureGates schemas.semver pack options.runtimeVersion)).append
    ⟨[], schemas.validateTransformCycles pack ++ unlockCycleFindings pack⟩

/-- `runValidationRefinements`. -/
def runValidationRefinements (pack : PackDocument Body) (context : CrossReferenceContext)
    (options : ContentSchemaOptions) : ValidationM Unit := do
  let findings := refinementFindings schemas pack context options
  options.sink findings.warnings
  if findings.issues ≠ [] then throw (.zod findings.issues) else pure ()

/-- `ContentPackValidationResult`. -/
structure ContentPackValidationResult (Pack : Type) where
  pack : Pack
  warnings : List ContentSchemaWarning
  balanceWarnings : List ContentSchemaWarning
  balanceErrors : List ContentSchemaWarning
  deriving DecidableEq

/-- `balanceOptions`. -/
def ValidationOptions.balanceOptions (options : ValidationOptions) : BalanceValidationOptions :=
  options.balance.getD ⟨none, none, none, none⟩

/-- `validateContentPackBalance`, unless it is switched off: the issues in the order in which they
are recorded. -/
def balanceIssues (pack : Pack) (options : ValidationOptions) : List ContentSchemaWarning :=
  if options.balanceOptions.enabled = some false then []
  else schemas.balanceIssues pack options.balanceOptions

/-- The issues that `recordIssue` files as warnings. -/
def balanceWarnings (pack : Pack) (options : ValidationOptions) : List ContentSchemaWarning :=
  (balanceIssues schemas pack options).filter fun issue => issue.severity = .warning

/-- The issues that `recordIssue` files as errors. -/
def balanceErrors (pack : Pack) (options : ValidationOptions) : List ContentSchemaWarning :=
  (balanceIssues schemas pack options).filter fun issue => issue.severity ≠ .warning

/-- `runFullValidation` up to the normalized pack. -/
def runChecks (pack : PackDocument Body) (options : ContentSchemaOptions) : ValidationM Pack := do
  let context ← buildCrossReferenceContext schemas options
  runValidationRefinements schemas pack context options
  let normalized := schemas.normalizeContentPack pack
  options.sink normalized.1
  pure normalized.2

/-- `runFullValidation` from the normalized pack on. -/
def runBalance (options : ContentSchemaOptions) (pack : Pack) :
    ValidationM (ContentPackValidationResult Pack) := do
  let errors := balanceErrors schemas pack options.toValidationOptions
  -- the balance checks send to the sink of the options, and both kinds of issues
  options.send (balanceIssues schemas pack options.toValidationOptions)
  if errors ≠ [] ∧ options.balanceOptions.warnOnly ≠ some true then
    throw (.balance "Balance validation failed." errors)
  else do
    let sinks ← get
    pure
      { pack := pack
        warnings := sinks.warnings
        balanceWarnings := balanceWarnings schemas pack options.toValidationOptions
        balanceErrors := errors }

/-- `runFullValidation`. -/
def runFullValidation (pack : PackDocument Body) (options : ContentSchemaOptions) :
    ValidationM (ContentPackValidationResult Pack) :=
  runChecks schemas pack options >>= runBalance schemas options

end IdleEngine
