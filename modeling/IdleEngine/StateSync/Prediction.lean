import IdleEngine.Command.Persistence
import IdleEngine.Runtime.CommandShares
import IdleEngine.Save.Format
import IdleEngine.Save.Resources

/-!
# The prediction manager

A client runs ahead of its server. `PredictionManager` remembers a checksum for every step that the
client predicted, and the commands that the client issued and the server has not confirmed. When a
snapshot arrives, the manager compares checksums: on a match the client goes on, on a mismatch a
runtime is restored from the snapshot, the pending commands are queued in it, and it is ticked up to
the step the client had reached.

The ring buffer of checksums is the list of its entries, oldest first. The live runtime is not part
of the model: what its snapshot would be when the manager asks for one is an argument of each call
(`captured`). The restored runtime is the runtime of `IdleEngine.Runtime.Tick`; what is wired into
it for a snapshot, and with the publisher of the replay, is a parameter.
-/

namespace IdleEngine

/-- `RUNTIME_VERSION`. -/
def runtimeVersion : String := "0.5.0"

/-- `GameStateSnapshot`: the parts that the manager and the restore of a runtime read, and
`contents` for the rest. The backlog is the record of the backlog fields of `runtime`. -/
structure GameStateSnapshot (Contents : Type) where
  version : ℚ
  step : ℚ
  backlog : JsValue
  definitionDigest : Option DefinitionDigest
  commandQueue : JsValue
  contents : Contents

/-- `PredictionCompatibilityMetadata`. -/
structure PredictionCompatibilityMetadata where
  runtimeVersion : Option String
  contentDigest : Option DefinitionDigest

/-! ### The window -/

/-- `PredictionWindow`; `snapshotHistorySteps` is not used by the manager. -/
structure PredictionWindow where
  maxPredictionSteps : ℕ
  maxPendingCommands : ℕ
  checksumIntervalSteps : ℕ
  maxReplayStepsPerTick : ℕ

/-- `resolveNonNegativeInteger`. -/
def resolveNonNegativeInteger (value : Option JsNumber) (fallback : ℕ) : ℕ :=
  match value.bind JsNumber.finite? with
  | none => fallback
  | some value => ⌊value⌋.toNat

/-- `resolvePositiveInteger`. -/
def resolvePositiveInteger (value : Option JsNumber) (fallback : ℕ) : ℕ :=
  match value.bind JsNumber.finite? with
  | none => fallback
  | some value => if 0 < value then ⌊value⌋.toNat else fallback

/-- `resolvePredictionWindow`. -/
def resolvePredictionWindow (maxPredictionSteps maxPendingCommands checksumIntervalSteps
    maxReplayStepsPerTick : Option JsNumber) : PredictionWindow :=
  { maxPredictionSteps := resolveNonNegativeInteger maxPredictionSteps 50
    maxPendingCommands := resolveNonNegativeInteger maxPendingCommands 1000
    checksumIntervalSteps := resolvePositiveInteger checksumIntervalSteps 1
    maxReplayStepsPerTick := resolvePositiveInteger maxReplayStepsPerTick 1 }

/-! ### Pending commands -/

/-- `comparePendingCommands(left, right) < 0`: by step, timestamp and request. -/
def pendingBefore (left right : Command JsValue) : Bool :=
  if left.step ≠ right.step ∨ left.step = .nan then left.step.lt right.step
  else if left.timestamp ≠ right.timestamp then decide (left.timestamp < right.timestamp)
  else utf16Lt (left.requestId.getD "") (right.requestId.getD "")

/-- `splice` at the first pending command that the new one goes before. -/
def insertPending (command : Command JsValue) : List (Command JsValue) → List (Command JsValue)
  | [] => [command]
  | existing :: rest =>
      if pendingBefore command existing then command :: existing :: rest
      else existing :: insertPending command rest

/-! ### Results -/

/-- `RollbackResult.status`. -/
inductive RollbackStatus
  | confirmed
  | rolledBack
  | resynced
  | ignored
  deriving DecidableEq

/-- `RollbackResult.reason`. -/
inductive RollbackReason
  | checksumMatch
  | checksumMismatch
  | staleSnapshot
  | predictionWindowExceeded
  | snapshotVersionMismatch
  | definitionDigestMissing
  | definitionDigestMismatch
  | runtimeVersionMismatch
  | contentDigestMismatch
  | predictionDisabled
  deriving DecidableEq

/-- `RollbackResult`. -/
structure RollbackResult where
  status : RollbackStatus
  confirmedStep : ℚ
  localStep : ℚ
  replayedSteps : ℚ
  pendingCommands : ℕ
  checksumMatch : Option Bool
  reason : Option RollbackReason

/-! ### The manager -/

/-- `ChecksumEntry`. -/
structure ChecksumEntry where
  step : ℚ
  checksum : String

/-- The variables of the manager. The cached digest is `none` while it is undefined. -/
structure PredictionManager where
  history : List ChecksumEntry
  lastRecordedStep : Option ℚ
  pendingCommands : List (Command JsValue)
  pendingOverflowed : Bool
  localStep : ℚ
  lastConfirmedStep : ℚ
  predictionDisabled : Bool
  cachedContentDigest : Option (Option DefinitionDigest)

/-- `PredictionReplayOptions`: the handlers and systems that are wired into a restored runtime, its
event bus and what else the restore puts into it, and the snapshots of the restored runtime. -/
structure PredictionReplayOptions (EventPayload World Contents : Type) where
  wire : GameStateSnapshot Contents → RuntimeConfig JsValue EventPayload World
  eventBus : EventBus EventPayload
  world : GameStateSnapshot Contents → World
  captureSnapshot : RuntimeState JsValue EventPayload World → GameStateSnapshot Contents

/-- `PredictionManagerOptions`, with the checksum of the engine. -/
structure PredictionManagerOptions (EventPayload World Contents : Type) where
  window : PredictionWindow
  computeStateChecksum : GameStateSnapshot Contents → String
  contentDigest : Option DefinitionDigest
  replay : Option (PredictionReplayOptions EventPayload World Contents)

/-- What a reconciliation leaves besides the manager: its result, and the runtime that replaces the
client's with what happened to its commands since it was restored. -/
structure Reconciliation (EventPayload World : Type) where
  result : RollbackResult
  replaced : Option (RuntimeState JsValue EventPayload World × List (CommandEvent JsValue))

namespace PredictionManager

/-- `clearHistory`. -/
def clearHistory (m : PredictionManager) : PredictionManager :=
  { m with history := [], lastRecordedStep := none }

/-- `dropPendingCommands`. -/
def dropPendingCommands (m : PredictionManager) (confirmedStep : ℚ) : PredictionManager :=
  { m with pendingCommands := m.pendingCommands.filter fun command =>
      JsNumber.lt (.fin confirmedStep) command.step }

/-- `recordChecksum`, with `pruneHistory`: a full buffer loses its oldest entry, and entries in
front that are older than the window go. -/
def recordChecksum (window : PredictionWindow) (m : PredictionManager) (step : ℚ)
    (checksum : String) : PredictionManager :=
  if window.maxPredictionSteps = 0 then m
  else
    let recorded := m.history ++ [⟨step, checksum⟩]
    let kept := if m.history.length = window.maxPredictionSteps then recorded.tail else recorded
    { m with history := kept.dropWhile fun entry =>
        decide (entry.step < step - window.maxPredictionSteps) }

/-- `shouldRecordChecksum`. -/
def shouldRecordChecksum (window : PredictionWindow) (m : PredictionManager) (step : ℚ) : Bool :=
  if window.checksumIntervalSteps ≤ 1 then true
  else
    match m.lastRecordedStep with
    | none => true
    | some lastRecordedStep =>
        decide ((window.checksumIntervalSteps : ℚ) ≤ step - lastRecordedStep)

/-- `findChecksum`. -/
def findChecksum (m : PredictionManager) (step : ℚ) : Option String :=
  (m.history.find? fun entry => decide (entry.step = step)).map (·.checksum)

/-- `resetForResync`. -/
def resetForResync (m : PredictionManager) (confirmedStep snapshotStep : ℚ) : PredictionManager :=
  { m.clearHistory with
    pendingCommands := []
    pendingOverflowed := false
    lastConfirmedStep := confirmedStep
    localStep := snapshotStep }

variable {EventPayload World Contents : Type}

/-- `createPredictionManager`. -/
def create (options : PredictionManagerOptions EventPayload World Contents) : PredictionManager :=
  { history := [], lastRecordedStep := none, pendingCommands := [], pendingOverflowed := false,
    localStep := -1, lastConfirmedStep := -1, predictionDisabled := false,
    cachedContentDigest := options.contentDigest.map some }

/-- `recordSnapshotChecksum` and `recordReplayStep`: the checksum of a snapshot for a step of a
restored runtime. -/
def recordStep (options : PredictionManagerOptions EventPayload World Contents)
    (m : PredictionManager) (step : ℚ) (snapshot : GameStateSnapshot Contents) :
    PredictionManager :=
  let m := { m with localStep := step }
  if m.shouldRecordChecksum options.window step then
    { m.recordChecksum options.window step (options.computeStateChecksum snapshot) with
      lastRecordedStep := some step }
  else m

/-- `resolveContentDigest`. -/
def resolveContentDigest (m : PredictionManager) (captured : GameStateSnapshot Contents) :
    Option DefinitionDigest × PredictionManager :=
  match m.cachedContentDigest with
  | some digest => (digest, m)
  | none =>
      (captured.definitionDigest, { m with cachedContentDigest := some captured.definitionDigest })

/-- `recordLocalCommand`. -/
def recordLocalCommand (options : PredictionManagerOptions EventPayload World Contents)
    (m : PredictionManager) (command : Command JsValue) (atStep : Option JsNumber) :
    PredictionManager :=
  if m.predictionDisabled then m
  else if options.window.maxPendingCommands = 0 then
    { m with pendingOverflowed := true, pendingCommands := [] }
  else
    let pendingCommands :=
      insertPending { command with step := atStep.getD command.step } m.pendingCommands
    if options.window.maxPendingCommands < pendingCommands.length then
      { m with pendingOverflowed := true, pendingCommands := [] }
    else { m with pendingCommands }

/-- `recordPredictedStep`; `currentStep` is what `getCurrentStep` returns, where it is configured. -/
def recordPredictedStep (options : PredictionManagerOptions EventPayload World Contents)
    (m : PredictionManager) (step currentStep : Option ℚ) (captured : GameStateSnapshot Contents) :
    PredictionManager :=
  if m.predictionDisabled then m
  else
    let resolvedStep := (step.orElse fun _ => currentStep).getD captured.step
    let m :=
      match m.lastRecordedStep with
      | none => m
      | some lastRecordedStep => if resolvedStep ≤ lastRecordedStep then m.clearHistory else m
    let m := { m with localStep := resolvedStep }
    if m.shouldRecordChecksum options.window resolvedStep then
      let m := (m.resolveContentDigest captured).2
      { m.recordChecksum options.window resolvedStep (options.computeStateChecksum captured) with
        lastRecordedStep := some resolvedStep }
    else m

end PredictionManager

/-! ### Restoring and replaying -/

theorem defaultMaxQueueSize_pos : (0 : ℚ) < 10000 := by norm_num

namespace PredictionReplayOptions

variable {EventPayload World Contents : Type}
  (options : PredictionReplayOptions EventPayload World Contents)

/-- `restoreRuntime`: a new runtime at the step of the snapshot, with its backlog and its queue. -/
def restoreRuntime (snapshot : GameStateSnapshot Contents) :
    Except String (RuntimeState JsValue EventPayload World) :=
  let runtime := RuntimeConfig.create (CommandQueue.empty 10000 defaultMaxQueueSize_pos)
    options.eventBus (options.world snapshot) (some (.fin snapshot.step))
    (some (.fin (hostFrameBacklogOf snapshot.backlog)))
    (some (.fin (creditedBacklogOf snapshot.backlog)))
  let rebaseStep : Option RebaseStep :=
    if runtime.currentStep ≠ snapshot.step then
      some { savedStep := .fin snapshot.step, currentStep := .fin runtime.currentStep }
    else none
  match runtime.commandQueue.restoreFromSave (options.wire snapshot).cloneStructured
      snapshot.commandQueue { isCommandTypeSupported := none, rebaseStep } with
  | (.error message, _) => .error message
  | (.ok _, commandQueue) => .ok { runtime with commandQueue }

end PredictionReplayOptions

namespace RuntimeConfig

variable {EventPayload World : Type} (config : RuntimeConfig JsValue EventPayload World)

/-- The pending commands behind the confirmed step, queued in a restored runtime one after the
other; what happens to the queue is noted. -/
def enqueuePending (confirmedStep : ℚ) :
    List (Command JsValue) →
      RuntimeState JsValue EventPayload World × List (CommandEvent JsValue) →
      Except String (RuntimeState JsValue EventPayload World × List (CommandEvent JsValue))
  | [], now => .ok now
  | command :: rest, (s, events) =>
      if JsNumber.lt (.fin confirmedStep) command.step then
        match s.commandQueue.enqueue config.cloneStructured command with
        | (.error message, _) => .error message
        | (.ok _, commandQueue) =>
            enqueuePending confirmedStep rest
              ({ s with commandQueue },
                events ++ enqueueEvents config.cloneStructured command s)
      else enqueuePending confirmedStep rest (s, events)

end RuntimeConfig

/-- The variables of `replayToStep`, with the events of the commands. -/
structure ReplayProgress (EventPayload World : Type) where
  manager : PredictionManager
  runtime : RuntimeState JsValue EventPayload World
  events : List (CommandEvent JsValue)
  replayedSteps : ℕ
  remainingSteps : ℚ

namespace PredictionManager

variable {EventPayload World Contents : Type}
  (options : PredictionManagerOptions EventPayload World Contents)
  (replay : PredictionReplayOptions EventPayload World Contents)
  (config : RuntimeConfig JsValue EventPayload World)

/-- The ticks of one batch; a tick that runs no step ends the replay, and one that throws leaves
the manager with what was recorded so far. -/
def replayBatch : ℕ → ReplayProgress EventPayload World →
    Except (PredictionManager × String) (ReplayProgress EventPayload World)
  | 0, progress => .ok progress
  | batch + 1, progress =>
      let call : RuntimeConfig.Call := .tick (.fin config.stepSizeMs)
      let events := progress.events ++ (CommandTrace.perform config call).trace progress.runtime
      match config.perform call progress.runtime with
      | .error error _ => .error (progress.manager, error)
      | .ok processed runtime =>
          if processed = 0 then .ok { progress with runtime, events, remainingSteps := 0 }
          else
            replayBatch batch
              { manager := progress.manager.recordStep options runtime.currentStep
                  (replay.captureSnapshot runtime)
                runtime
                events
                replayedSteps := progress.replayedSteps + processed
                remainingSteps := progress.remainingSteps - processed }

/-- The batches of a replay; every batch runs a step or ends it. -/
def replayLoop : ℕ → ReplayProgress EventPayload World →
    Except (PredictionManager × String) (ReplayProgress EventPayload World)
  | 0, progress => .ok progress
  | fuel + 1, progress =>
      if progress.remainingSteps ≤ 0 then .ok progress
      else
        let batch := min (max 1 (options.window.maxReplayStepsPerTick : ℚ)) progress.remainingSteps
        match replayBatch options replay config ⌈batch⌉₊ progress with
        | .error error => .error error
        | .ok progress => replayLoop fuel progress

/-- `replayToStep`. -/
def replayToStep (m : PredictionManager)
    (now : RuntimeState JsValue EventPayload World × List (CommandEvent JsValue))
    (targetStep : ℚ) :
    Except (PredictionManager × String) (ReplayProgress EventPayload World) :=
  let remainingSteps := max 0 (targetStep - now.1.currentStep)
  replayLoop options replay config ⌈remainingSteps⌉₊
    { manager := m, runtime := now.1, events := now.2, replayedSteps := 0, remainingSteps }

/-- `reconcileWithReplay` without replay options: nothing is replayed here. -/
def reconcileWithoutReplay (m : PredictionManager) (snapshot : GameStateSnapshot Contents)
    (confirmedStep targetStep : ℚ) (status : RollbackStatus) (reason : Option RollbackReason)
    (checksumMatch : Option Bool) :
    PredictionManager × Except String (Reconciliation EventPayload World) :=
  let replayedSteps := if status = .rolledBack then max 0 (targetStep - confirmedStep) else 0
  let m :=
    if status = .resynced then m.resetForResync confirmedStep snapshot.step else m.clearHistory
  (m, .ok {
    result := { status, confirmedStep, localStep := m.localStep, replayedSteps,
                pendingCommands := m.pendingCommands.length, checksumMatch, reason }
    replaced := none })

/-- `reconcileWithReplay`. -/
def reconcileWithReplay (m : PredictionManager) (snapshot : GameStateSnapshot Contents)
    (confirmedStep targetStep : ℚ) (status : RollbackStatus) (reason : Option RollbackReason)
    (checksumMatch : Option Bool) (replayPending : Bool) :
    PredictionManager × Except String (Reconciliation EventPayload World) :=
  match options.replay with
  | none => m.reconcileWithoutReplay snapshot confirmedStep targetStep status reason checksumMatch
  | some replay =>
      match replay.restoreRuntime snapshot with
      | .error message => (m, .error message)
      | .ok runtime =>
          let m := { m.clearHistory with
            pendingOverflowed := false
            lastConfirmedStep := confirmedStep
            pendingCommands := if replayPending then m.pendingCommands else [] }
          let m := m.recordStep options snapshot.step snapshot
          let config := replay.wire snapshot
          let pending := if replayPending then m.pendingCommands else []
          match config.enqueuePending confirmedStep pending (runtime, []) with
          | .error message => (m, .error message)
          | .ok now =>
              match m.replayToStep options replay config now (max snapshot.step targetStep) with
              | .error (m, message) => (m, .error message)
              | .ok progress =>
                  (progress.manager, .ok {
                    result := { status, confirmedStep, localStep := progress.manager.localStep,
                                replayedSteps := progress.replayedSteps,
                                pendingCommands := progress.manager.pendingCommands.length,
                                checksumMatch, reason }
                    replaced := some (progress.runtime, progress.events) })

/-- `resyncWithoutReplay`. -/
def resyncWithoutReplay (m : PredictionManager) (snapshot : GameStateSnapshot Contents)
    (confirmedStep : ℚ) (reason : Option RollbackReason) :
    PredictionManager × Except String (Reconciliation EventPayload World) :=
  m.reconcileWithReplay options snapshot confirmedStep snapshot.step .resynced reason none false

/-- `digestsMatch`. -/
def digestsMatch : Option DefinitionDigest → Option DefinitionDigest → Bool
  | some left, some right =>
      decide (left.version = right.version ∧ left.version ≠ .nan) && left.hash == right.hash
  | _, _ => false

/-- The last check: the digest of the snapshot itself. -/
def snapshotCompatibility (m : PredictionManager) (snapshot captured : GameStateSnapshot Contents) :
    Option RollbackReason × PredictionManager :=
  match snapshot.definitionDigest with
  | none => (some .definitionDigestMissing, m)
  | some digest =>
      let (expected, m) := m.resolveContentDigest captured
      if digestsMatch (some digest) expected then (none, m)
      else
        match expected with
        | none => (some .definitionDigestMissing, m)
        | some _ => (some .definitionDigestMismatch, m)

/-- The compatibility checks of `applyServerState`: the reason to disable prediction, if any. -/
def compatibility (m : PredictionManager) (snapshot : GameStateSnapshot Contents)
    (metadata : PredictionCompatibilityMetadata) (captured : GameStateSnapshot Contents) :
    Option RollbackReason × PredictionManager :=
  if snapshot.version ≠ 1 then (some .snapshotVersionMismatch, m)
  else if metadata.runtimeVersion ≠ none ∧ metadata.runtimeVersion ≠ some runtimeVersion then
    (some .runtimeVersionMismatch, m)
  else
    match metadata.contentDigest with
    | none => m.snapshotCompatibility snapshot captured
    | some digest =>
        let (expected, m) := m.resolveContentDigest captured
        if digestsMatch (some digest) expected then m.snapshotCompatibility snapshot captured
        else (some .contentDigestMismatch, m)

/-- `applyServerState`. -/
def applyServerState (m : PredictionManager) (snapshot : GameStateSnapshot Contents)
    (confirmedStep : ℚ) (metadata : PredictionCompatibilityMetadata)
    (captured : GameStateSnapshot Contents) :
    PredictionManager × Except String (Reconciliation EventPayload World) :=
  let resolvedLocalStep := if 0 ≤ m.localStep then m.localStep else snapshot.step
  if confirmedStep < m.lastConfirmedStep then
    (m, .ok {
      result := { status := .ignored, confirmedStep, localStep := resolvedLocalStep,
                  replayedSteps := 0, pendingCommands := m.pendingCommands.length,
                  checksumMatch := none, reason := some .staleSnapshot }
      replaced := none })
  else if m.predictionDisabled then
    m.resyncWithoutReplay options snapshot confirmedStep (some .predictionDisabled)
  else
    match m.compatibility snapshot metadata captured with
    | (some reason, m) =>
        { m with predictionDisabled := true }.resyncWithoutReplay options snapshot confirmedStep
          (some reason)
    | (none, m) =>
        if m.pendingOverflowed then
          { m with pendingCommands := [], pendingOverflowed := false }.reconcileWithReplay options
            snapshot confirmedStep snapshot.step .resynced none none false
        else
          match m.findChecksum confirmedStep with
          | none =>
              (m.dropPendingCommands confirmedStep).reconcileWithReplay options snapshot
                confirmedStep resolvedLocalStep .resynced (some .predictionWindowExceeded) none true
          | some localChecksum =>
              let checksumMatch := options.computeStateChecksum snapshot == localChecksum
              let m := { m.dropPendingCommands confirmedStep with
                lastConfirmedStep := confirmedStep }
              if checksumMatch then
                (m, .ok {
                  result := { status := .confirmed, confirmedStep, localStep := resolvedLocalStep,
                              replayedSteps := 0, pendingCommands := m.pendingCommands.length,
                              checksumMatch := some true, reason := some .checksumMatch }
                  replaced := none })
              else
                m.reconcileWithReplay options snapshot confirmedStep resolvedLocalStep .rolledBack
                  (some .checksumMismatch) (some false) true

end PredictionManager

/-! ### Runs -/

/-- A call to the manager, with what the live runtime is when it is made. -/
inductive PredictionCall (Contents : Type)
  | recordLocalCommand (command : Command JsValue) (atStep : Option JsNumber)
  | recordPredictedStep (step currentStep : Option ℚ) (captured : GameStateSnapshot Contents)
  | applyServerState (snapshot : GameStateSnapshot Contents) (confirmedStep : ℚ)
      (metadata : PredictionCompatibilityMetadata) (captured : GameStateSnapshot Contents)

namespace PredictionManager

variable {EventPayload World Contents : Type}
  (options : PredictionManagerOptions EventPayload World Contents)

/-- The manager after one call, whether it returns or throws. -/
def afterCall (m : PredictionManager) : PredictionCall Contents → PredictionManager
  | .recordLocalCommand command atStep => m.recordLocalCommand options command atStep
  | .recordPredictedStep step currentStep captured =>
      m.recordPredictedStep options step currentStep captured
  | .applyServerState snapshot confirmedStep metadata captured =>
      (m.applyServerState options snapshot confirmedStep metadata captured).1

/-- The manager after a run of calls. -/
def run (calls : List (PredictionCall Contents)) : PredictionManager :=
  calls.foldl (afterCall options) (create options)

end PredictionManager

end IdleEngine
