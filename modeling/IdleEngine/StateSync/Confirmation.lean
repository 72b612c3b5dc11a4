import IdleEngine.StateSync.Replay

/-!
# What confirmation and rollback do with the pending commands

A command that the client issued stays pending until the server confirms its step. On a mismatch
the pending commands are queued in a runtime that was restored from the snapshot, and the replay
executes them. `prediction_keeps_commands` follows one pending command through a run.

The manager takes the confirmed step for one that the snapshot has executed, and drops the commands
of that step too. But a snapshot at step `S` has executed the steps below `S`: a command for the
very step `S` is lost (`prediction_drops_command`).
-/

namespace IdleEngine

open RuntimeConfig List Multiset

/-! ### The restored queue -/

namespace CommandQueue

variable {Payload : Type}

theorem valid_enqueue {q : CommandQueue Payload} (hq : q.Valid)
    (cloneStructured : Payload → Except String Payload) (command : Command Payload) :
    (q.enqueue cloneStructured command).2.Valid := by
  rcases QueueLedger.enqueue_cases cloneStructured q command with
    ⟨hqueue, -, -⟩ | ⟨out, hroom, -, ⟨hqueue, -⟩ | ⟨accepted, hqueue, -⟩⟩
  · rw [hqueue]
    exact hq
  · rw [hqueue]
    exact (hq.makeRoom hroom).1
  · rw [hqueue]
    exact (hq.makeRoom hroom).1.insert accepted

variable {q : CommandQueue JsValue}

theorem valid_restoreEntries (cloneStructured : JsValue → Except String JsValue)
    (options : RestoreCommandQueueOptions) (entries : List JsValue) (restored skipped : ℕ)
    (hq : q.Valid) :
    (restoreEntries cloneStructured options entries restored skipped q).2.Valid := by
  induction entries generalizing restored skipped q with
  | nil => exact hq
  | cons entry entries ih =>
    rw [restoreEntries]
    split
    · exact ih _ _ hq
    · next command _ =>
      have hqueued := valid_enqueue hq cloneStructured command
      split
      · exact ih _ _ hq
      · split
        · next message r henqueue =>
          rw [henqueue] at hqueued
          exact hqueued
        · next accepted r henqueue =>
          rw [henqueue] at hqueued
          split
          · exact ih _ _ hqueued
          · exact ih _ _ hqueued

theorem valid_restoreFromSave (cloneStructured : JsValue → Except String JsValue)
    (serialized : JsValue) (options : RestoreCommandQueueOptions) (hq : q.Valid) :
    (q.restoreFromSave cloneStructured serialized options).2.Valid := by
  have hclear := hq.clear.1
  rw [restoreFromSave]
  split
  · exact valid_restoreEntries cloneStructured options _ _ _ hclear
  · exact hclear

end CommandQueue

/-- The queued commands that are whole steps ahead, and the others. -/
def timelyQueued {Payload EventPayload World : Type}
    (s : RuntimeState Payload EventPayload World) : Multiset (Command Payload) :=
  Multiset.filter (Timely · s.currentStep) (s.commandQueue.queued.map (·.command) : Multiset _)

@[inherit_doc timelyQueued]
def untimelyQueued {Payload EventPayload World : Type}
    (s : RuntimeState Payload EventPayload World) : Multiset (Command Payload) :=
  Multiset.filter (¬ Timely · s.currentStep) (s.commandQueue.queued.map (·.command) : Multiset _)

variable {Payload EventPayload World : Type} {s : RuntimeState Payload EventPayload World}

/-- A runtime between two steps, with a clean history. -/
theorem divided_start (hvalid : s.commandQueue.Valid)
    (hnext : s.nextExecutableStep = s.currentStep) :
    Divided (timelyQueued s) (untimelyQueued s) 0 [] s [] := by
  let timely : Shares Payload :=
    { dispatched := 0, dropped := 0, skipped := 0, queued := timelyQueued s, pending := 0 }
  let others : Shares Payload :=
    { dispatched := 0, dropped := 0, skipped := 0, queued := untimelyQueued s, pending := 0 }
  have hqueued : timelyQueued s + untimelyQueued s =
      (s.commandQueue.queued.map (·.command) : Multiset (Command Payload)) := by
    rw [timelyQueued, untimelyQueued, filter_add_not]
  refine ⟨timely, others, hvalid, ⟨0, by simp [hnext]⟩, ?_, ?_, rfl, rfl, rfl, rfl, hqueued, rfl,
    ?_, ?_, ?_⟩
  · simp [timely, Shares.all, timelyIn]
  · simp [others, Shares.all, untimelyIn]
  · intro command (hmem : command ∈ timelyQueued s)
    rw [timelyQueued, Multiset.mem_filter] at hmem
    simpa using hmem.2
  · intro command hmem
    exact absurd hmem (notMem_zero command)
  · simp

namespace PredictionReplayOptions

variable {EventPayload World Contents : Type}
  {replay : PredictionReplayOptions EventPayload World Contents}

/-- The backlog of a runtime that is restored from a snapshot. -/
def restoredBacklog (snapshot : GameStateSnapshot Contents) : Accumulators :=
  Accumulators.restore (some (.fin (hostFrameBacklogOf snapshot.backlog)))
    (some (.fin (creditedBacklogOf snapshot.backlog)))

/-- A restored runtime is between two steps, at the step of the snapshot, with its backlog. -/
theorem restoreRuntime_spec {snapshot : GameStateSnapshot Contents}
    {restored : RuntimeState JsValue EventPayload World}
    (h : replay.restoreRuntime snapshot = .ok restored) :
    restored.commandQueue.Valid ∧ restored.nextExecutableStep = restored.currentStep ∧
      (restored.currentStep = if 0 ≤ snapshot.step then snapshot.step else 0) ∧
      restored.accumulators = restoredBacklog snapshot := by
  unfold restoreRuntime at h
  dsimp only at h
  split at h
  · cases h
  · next counts commandQueue hqueue =>
    obtain rfl := Except.ok.inj h
    refine ⟨?_, rfl, rfl, rfl⟩
    have hfresh : (CommandQueue.empty 10000 defaultMaxQueueSize_pos : CommandQueue JsValue).Valid :=
      (QueueLedger.balanced_fresh 10000 defaultMaxQueueSize_pos).valid
    have hvalid := fun options => CommandQueue.valid_restoreFromSave
      (replay.wire snapshot).cloneStructured snapshot.commandQueue options hfresh
    have hsame : _ = commandQueue := congrArg Prod.snd hqueue
    change commandQueue.Valid
    rw [← hsame]
    exact hvalid _

end PredictionReplayOptions

/-! ### Where a command ends -/

/-- The command was dispatched in its step, was dropped by a full queue, or is queued for a step
that has not run. -/
def Settled {Payload EventPayload World : Type} (command : Command Payload)
    (s : RuntimeState Payload EventPayload World) (history : List (CommandEvent Payload)) : Prop :=
  ∃ step, command.step = .fin step ∧
    (CommandEvent.dispatched command step ∈ history ∨ CommandEvent.dropped command ∈ history ∨
      s.currentStep ≤ step ∧ command ∈ s.commandQueue.queued.map (·.command))

/-- Every timely command is settled. -/
theorem Divided.settled {timely₀ others₀ : Multiset (Command Payload)}
    {history : List (CommandEvent Payload)} (h : Divided timely₀ others₀ 0 [] s history)
    {command : Command Payload} {step : ℚ} (hstep : command.step = .fin step)
    (hmem : command ∈ timely₀ + timelyIn history) : Settled command s history := by
  obtain ⟨timely, others, h⟩ := h
  obtain ⟨hnone, -⟩ := h.pending_eq_zero
  refine ⟨step, hstep, ?_⟩
  rw [← h.timely_all, Shares.all, hnone, h.never_skipped, add_zero, add_zero] at hmem
  rcases mem_add.mp hmem with hmem | hqueued
  · rcases mem_add.mp hmem with hdispatched | hdropped
    · left
      have hall : command ∈ dispatchedIn history := by
        have hsum := mem_add.mpr (.inl hdispatched : _ ∨ command ∈ others.dispatched)
        rwa [h.dispatched, mem_coe] at hsum
      obtain ⟨event, hevent, hcommand⟩ := mem_filterMap.mp hall
      rcases event with _ | _ | ⟨other, step'⟩ | _
      · cases hcommand
      · cases hcommand
      · obtain rfl := Option.some.inj hcommand
        have hontime := h.on_time other step' hevent
        rw [hstep] at hontime
        obtain rfl := JsNumber.fin.inj hontime
        exact hevent
      · cases hcommand
    · right; left
      have hall : command ∈ droppedIn history := by
        have hsum := mem_add.mpr (.inl hdropped : _ ∨ command ∈ others.dropped)
        rwa [h.dropped, mem_coe] at hsum
      obtain ⟨event, hevent, hcommand⟩ := mem_filterMap.mp hall
      rcases event with _ | other | _ | _
      · cases hcommand
      · obtain rfl := Option.some.inj hcommand
        exact hevent
      · cases hcommand
      · cases hcommand
  · right; right
    obtain ⟨k, hk⟩ := h.queued_ahead command hqueued
    constructor
    · rw [hstep] at hk
      rw [JsNumber.fin.inj hk]
      have hnonneg : (0 : ℚ) ≤ k := Nat.cast_nonneg k
      push_cast
      linarith
    · have hsum := mem_add.mpr (.inl hqueued : _ ∨ command ∈ others.queued)
      rwa [h.queued, mem_coe] at hsum

/-! ### Queueing the pending commands -/

namespace RuntimeConfig

variable {EventPayload World : Type} {config : RuntimeConfig JsValue EventPayload World}
  {confirmedStep : ℚ}
  {now last : RuntimeState JsValue EventPayload World × List (CommandEvent JsValue)}

/-- Only the queue changes, and what happened before stays noted. -/
theorem enqueuePending_extends {commands : List (Command JsValue)}
    (hrun : config.enqueuePending confirmedStep commands now = .ok last) :
    now.2 <+: last.2 ∧ last.1 = { now.1 with commandQueue := last.1.commandQueue } := by
  induction commands generalizing now with
  | nil =>
    obtain rfl := Except.ok.inj hrun
    exact ⟨prefix_rfl, rfl⟩
  | cons command rest ih =>
    obtain ⟨s, events⟩ := now
    unfold enqueuePending at hrun
    split at hrun
    · split at hrun
      · cases hrun
      · obtain ⟨hextends, hqueue⟩ := ih hrun
        exact ⟨(prefix_append _ _).trans hextends, hqueue⟩
    · exact ih hrun

theorem enqueuePending_append {before after : List (Command JsValue)}
    (hrun : config.enqueuePending confirmedStep (before ++ after) now = .ok last) :
    ∃ middle, config.enqueuePending confirmedStep before now = .ok middle ∧
      config.enqueuePending confirmedStep after middle = .ok last := by
  induction before generalizing now with
  | nil => exact ⟨now, rfl, hrun⟩
  | cons command rest ih =>
    obtain ⟨s, events⟩ := now
    rw [cons_append] at hrun
    unfold enqueuePending at hrun
    split at hrun
    · next hlater =>
      split at hrun
      · cases hrun
      · next result commandQueue henqueue =>
        obtain ⟨middle, hbefore, hafter⟩ := ih hrun
        refine ⟨middle, ?_, hafter⟩
        rw [enqueuePending, if_pos hlater, henqueue]
        exact hbefore
    · next hpast =>
      obtain ⟨middle, hbefore, hafter⟩ := ih hrun
      refine ⟨middle, ?_, hafter⟩
      rw [enqueuePending, if_neg hpast]
      exact hbefore

/-- What the queue does with one of the pending commands: it refuses the command, or takes a copy
of it. -/
theorem enqueuePending_cons {command : Command JsValue} {rest : List (Command JsValue)}
    (hlater : JsNumber.lt (.fin confirmedStep) command.step = true)
    (hrun : config.enqueuePending confirmedStep (command :: rest) now = .ok last) :
    authorizeCommand command = false ∨ now.1.commandQueue.makeRoom command.priority = none ∨
      ∃ payload, config.cloneStructured command.payload = .ok payload ∧
        CommandEvent.accepted { command with payload } now.1.nextExecutableStep ∈ last.2 := by
  obtain ⟨s, events⟩ := now
  unfold enqueuePending at hrun
  rw [if_pos hlater] at hrun
  by_cases hauth : authorizeCommand command = false
  · exact .inl hauth
  · rcases hroom : s.commandQueue.makeRoom command.priority with _ | out
    · exact .inr (.inl rfl)
    · rcases hclone : config.cloneStructured command.payload with message | payload
      · simp [CommandQueue.enqueue, hauth, hroom, hclone] at hrun
      · refine .inr (.inr ⟨payload, rfl, ?_⟩)
        have haccepted : CommandEvent.accepted { command with payload } s.nextExecutableStep ∈
            enqueueEvents config.cloneStructured command s := by
          simp [enqueueEvents, QueueLedger.snapshot, CommandQueue.enqueue, hauth, hroom, hclone]
        split at hrun
        · cases hrun
        · obtain ⟨hextends, -⟩ := enqueuePending_extends hrun
          exact hextends.subset (mem_append_right _ haccepted)

end RuntimeConfig

/-! ### One reconciliation -/

/-- What a replay has done with the commands `kept` when its runtime replaces the client's. -/
structure Replayed {EventPayload World : Type} (config : RuntimeConfig JsValue EventPayload World)
    (restored : RuntimeState JsValue EventPayload World) (confirmedStep targetStep : ℚ)
    (kept : List (Command JsValue)) (runtime : RuntimeState JsValue EventPayload World)
    (events : List (CommandEvent JsValue)) : Prop where
  enqueued : ∃ enqueued, config.enqueuePending confirmedStep kept (restored, []) = .ok enqueued ∧
    enqueued.2 <+: events
  divided : Divided (timelyQueued restored) (untimelyQueued restored) 0 [] runtime events
  reaches : accumulatorEpsilonMs < config.stepSizeMs → 1 ≤ config.maxStepsPerFrame →
    targetStep ≤ runtime.currentStep

namespace PredictionManager

variable {EventPayload World Contents : Type}
  {options : PredictionManagerOptions EventPayload World Contents}

variable {status : RollbackStatus}

theorem reconcileWithReplay_pendingCommands (m : PredictionManager)
    (snapshot : GameStateSnapshot Contents) (confirmedStep targetStep : ℚ)
    (reason : Option RollbackReason) (checksumMatch : Option Bool)
    (hkeep : options.replay ≠ none ∨ status ≠ .resynced) :
    (m.reconcileWithReplay options snapshot confirmedStep targetStep status reason checksumMatch
      true).1.pendingCommands = m.pendingCommands := by
  unfold reconcileWithReplay
  split
  · next hnone =>
    have hstatus : status ≠ .resynced := hkeep.resolve_left fun h => h hnone
    simp only [reconcileWithoutReplay, hstatus, if_false]
    rfl
  · dsimp only
    split
    · rfl
    · split
      · exact recordStep_pendingCommands _ _ _
      · rw [replayToStep]
        split
        · next hrun =>
          obtain ⟨reached, hreached, rfl⟩ := ((keptByTicks_pendingCommands _).replayLoop _
            (recordStep_pendingCommands _ _ _)).1 _ _ hrun
          exact hreached
        · next hrun =>
          exact ((keptByTicks_pendingCommands _).replayLoop _
            (recordStep_pendingCommands _ _ _)).2 _ hrun

variable {m : PredictionManager} {snapshot : GameStateSnapshot Contents} {confirmedStep : ℚ}
  {runtime : RuntimeState JsValue EventPayload World} {events : List (CommandEvent JsValue)}

variable {targetStep : ℚ} {reconciliation : Reconciliation EventPayload World}

/-- **A replay that returns** has queued the pending commands and executed the steps up to its
target. -/
theorem reconcileWithReplay_replayed {reason : Option RollbackReason} {checksumMatch : Option Bool}
    (hrun : (m.reconcileWithReplay options snapshot confirmedStep targetStep status reason
      checksumMatch true).2 = .ok reconciliation)
    (hreplaced : reconciliation.replaced = some (runtime, events)) :
    ∃ replay restored, options.replay = some replay ∧
      replay.restoreRuntime snapshot = .ok restored ∧
      Replayed (replay.wire snapshot) restored confirmedStep (max snapshot.step targetStep)
        m.pendingCommands runtime events := by
  unfold reconcileWithReplay at hrun
  split at hrun
  · obtain rfl := Except.ok.inj hrun
    cases hreplaced
  · next replay hreplay =>
    split at hrun
    · cases hrun
    · next restored hrestored =>
      dsimp only at hrun
      split at hrun
      · cases hrun
      · next enqueued henqueued =>
        rw [replayToStep] at hrun
        split at hrun
        · cases hrun
        · next progress hprogress =>
          obtain rfl := Except.ok.inj hrun
          obtain ⟨rfl, rfl⟩ := Prod.mk.inj (Option.some.inj hreplaced)
          obtain ⟨hvalid, hnext, -⟩ := PredictionReplayOptions.restoreRuntime_spec hrestored
          rw [if_pos rfl, recordStep_pendingCommands] at henqueued
          obtain ⟨hqueued, -⟩ :=
            enqueuePending_divided (divided_start hvalid hnext) henqueued
          obtain ⟨hdivided, hextends⟩ := ((keptByTicks_divided enqueued.2).replayLoop _
            ⟨hqueued, prefix_rfl⟩).2 _ hprogress
          refine ⟨replay, restored, hreplay, hrestored, ⟨enqueued, henqueued, hextends⟩, hdivided,
            fun hsize hbudget => ?_⟩
          have hreaches := fun hfuel => replayLoop_reaches hsize hbudget _ hfuel hprogress
          have hfueled := hreaches (Nat.le_ceil _)
          have hleft := le_max_right 0 (max snapshot.step targetStep - enqueued.1.currentStep)
          dsimp only at hfueled
          linarith

/-! ### The checks of a snapshot remember a digest and nothing else -/

theorem resolveContentDigest_eq (m : PredictionManager) (captured : GameStateSnapshot Contents) :
    ∃ cached, (m.resolveContentDigest captured).2 = { m with cachedContentDigest := cached } := by
  rw [resolveContentDigest]
  split
  · exact ⟨m.cachedContentDigest, rfl⟩
  · exact ⟨_, rfl⟩

theorem snapshotCompatibility_eq (m : PredictionManager)
    (snapshot captured : GameStateSnapshot Contents) :
    ∃ cached, (m.snapshotCompatibility snapshot captured).2 =
      { m with cachedContentDigest := cached } := by
  obtain ⟨cached, hcached⟩ := m.resolveContentDigest_eq captured
  rw [snapshotCompatibility]
  split
  · exact ⟨m.cachedContentDigest, rfl⟩
  · dsimp only
    split
    · exact ⟨cached, hcached⟩
    · split
      · exact ⟨cached, hcached⟩
      · exact ⟨cached, hcached⟩

theorem compatibility_eq (m : PredictionManager) (snapshot : GameStateSnapshot Contents)
    (metadata : PredictionCompatibilityMetadata) (captured : GameStateSnapshot Contents) :
    ∃ cached, (m.compatibility snapshot metadata captured).2 =
      { m with cachedContentDigest := cached } := by
  rw [compatibility]
  split
  · exact ⟨m.cachedContentDigest, rfl⟩
  · split
    · exact ⟨m.cachedContentDigest, rfl⟩
    · split
      · exact m.snapshotCompatibility_eq snapshot captured
      · obtain ⟨resolved, hresolved⟩ := m.resolveContentDigest_eq captured
        dsimp only
        split
        · rw [hresolved]
          obtain ⟨cached, hcached⟩ :=
            { m with cachedContentDigest := resolved }.snapshotCompatibility_eq snapshot captured
          exact ⟨cached, hcached⟩
        · exact ⟨resolved, hresolved⟩

/-! ### One confirmation -/

/-- The snapshot is not stale, and nothing makes the manager give its commands up: prediction is
not disabled, the snapshot is compatible, not too many commands are pending, and the manager can
replay or knows its checksum for the confirmed step. -/
structure Accepts (options : PredictionManagerOptions EventPayload World Contents)
    (m : PredictionManager) (snapshot : GameStateSnapshot Contents) (confirmedStep : ℚ)
    (metadata : PredictionCompatibilityMetadata) (captured : GameStateSnapshot Contents) : Prop where
  fresh : m.lastConfirmedStep ≤ confirmedStep
  enabled : m.predictionDisabled = false
  compatible : (m.compatibility snapshot metadata captured).1 = none
  fits : m.pendingOverflowed = false
  comparable : options.replay ≠ none ∨ m.findChecksum confirmedStep ≠ none

variable {metadata : PredictionCompatibilityMetadata} {captured : GameStateSnapshot Contents}

section

variable (h : m.Accepts options snapshot confirmedStep metadata captured)
include h

/-- What an accepted snapshot can lead to: the checksums match, or the commands behind the confirmed
step are replayed. -/
theorem applyServerState_cases : ∃ kept : PredictionManager,
      kept.pendingCommands = (m.dropPendingCommands confirmedStep).pendingCommands ∧
      ((∃ result, m.applyServerState options snapshot confirmedStep metadata captured =
          (kept, .ok { result, replaced := none })) ∨
        ∃ status reason checksumMatch, (options.replay ≠ none ∨ status ≠ .resynced) ∧
          m.applyServerState options snapshot confirmedStep metadata captured =
            kept.reconcileWithReplay options snapshot confirmedStep
              (if 0 ≤ m.localStep then m.localStep else snapshot.step) status reason checksumMatch
              true) := by
  obtain ⟨cached, hcached⟩ := m.compatibility_eq snapshot metadata captured
  have hcompatible : m.compatibility snapshot metadata captured =
      (none, { m with cachedContentDigest := cached }) := Prod.ext h.compatible hcached
  unfold applyServerState
  dsimp only
  rw [if_neg (not_lt.mpr h.fresh), if_neg (by simp [h.enabled]), hcompatible]
  dsimp only
  rw [if_neg (by simp [h.fits])]
  rcases hfound : m.findChecksum confirmedStep with _ | localChecksum
  · have hsame : { m with cachedContentDigest := cached }.findChecksum confirmedStep = none := hfound
    rw [hsame]
    refine ⟨{ m with cachedContentDigest := cached }.dropPendingCommands confirmedStep, rfl,
      .inr ⟨_, _, _, .inl (h.comparable.resolve_right fun hne => hne hfound), rfl⟩⟩
  · have hsame : { m with cachedContentDigest := cached }.findChecksum confirmedStep =
        some localChecksum := hfound
    rw [hsame]
    refine ⟨{ { m with cachedContentDigest := cached }.dropPendingCommands confirmedStep with
      lastConfirmedStep := confirmedStep }, rfl, ?_⟩
    dsimp only
    split
    · exact .inl ⟨_, rfl⟩
    · exact .inr ⟨.rolledBack, _, _, .inr (by decide), rfl⟩

theorem applyServerState_pendingCommands :
    (m.applyServerState options snapshot confirmedStep metadata captured).1.pendingCommands =
      (m.dropPendingCommands confirmedStep).pendingCommands := by
  obtain ⟨kept, hkept, ⟨result, heq⟩ | ⟨status, reason, checksumMatch, hkeep, heq⟩⟩ :=
    applyServerState_cases h
  · rw [heq]
    exact hkept
  · rw [heq]
    exact (reconcileWithReplay_pendingCommands kept _ _ _ _ _ hkeep).trans hkept

/-- An accepted snapshot that replaces the runtime has replayed what stays pending. -/
theorem applyServerState_replayed
    (hrun : (m.applyServerState options snapshot confirmedStep metadata captured).2 =
      .ok reconciliation) (hreplaced : reconciliation.replaced = some (runtime, events)) :
    ∃ replay restored, options.replay = some replay ∧
      replay.restoreRuntime snapshot = .ok restored ∧
      Replayed (replay.wire snapshot) restored confirmedStep
        (max snapshot.step (if 0 ≤ m.localStep then m.localStep else snapshot.step))
        (m.dropPendingCommands confirmedStep).pendingCommands runtime events := by
  obtain ⟨kept, hkept, ⟨result, heq⟩ | ⟨status, reason, checksumMatch, hkeep, heq⟩⟩ :=
    applyServerState_cases h
  · rw [heq] at hrun
    obtain rfl := Except.ok.inj hrun
    cases hreplaced
  · rw [heq] at hrun
    rw [← hkept]
    exact reconcileWithReplay_replayed hrun hreplaced

end

/-! ### Runs -/

/-- A call that does not make the manager give a pending command up: the list of pending commands
does not overflow, and a snapshot confirms its own step, which is stale or before the command's. -/
def Spares (options : PredictionManagerOptions EventPayload World Contents) (m : PredictionManager)
    (command : Command JsValue) : PredictionCall Contents → Prop
  | .recordLocalCommand _ _ =>
      m.predictionDisabled = true ∨ m.pendingCommands.length < options.window.maxPendingCommands
  | .recordPredictedStep _ _ _ => True
  | .applyServerState snapshot confirmedStep metadata captured =>
      confirmedStep = snapshot.step ∧
        (confirmedStep < m.lastConfirmedStep ∨
          m.Accepts options snapshot confirmedStep metadata captured ∧
            JsNumber.lt (.fin confirmedStep) command.step = true)

/-- None of the calls makes the manager give the command up. -/
def SparesAll (options : PredictionManagerOptions EventPayload World Contents)
    (command : Command JsValue) : PredictionManager → List (PredictionCall Contents) → Prop
  | _, [] => True
  | m, call :: calls =>
      m.Spares options command call ∧ SparesAll options command (m.afterCall options call) calls

variable {command : Command JsValue}

theorem mem_insertPending {other : Command JsValue} {pending : List (Command JsValue)}
    (hmem : command ∈ pending) : command ∈ insertPending other pending := by
  induction pending with
  | nil => cases hmem
  | cons existing rest ih =>
    rw [insertPending]
    split
    · exact mem_cons_of_mem _ hmem
    · rcases mem_cons.mp hmem with rfl | hrest
      · exact mem_cons_self
      · exact mem_cons_of_mem _ (ih hrest)

theorem length_insertPending (command : Command JsValue) (pending : List (Command JsValue)) :
    (insertPending command pending).length = pending.length + 1 := by
  induction pending with
  | nil => rfl
  | cons existing rest ih =>
    rw [insertPending]
    split
    · rfl
    · rw [length_cons, ih, length_cons]

theorem recordPredictedStep_pendingCommands (m : PredictionManager) (step currentStep : Option ℚ)
    (captured : GameStateSnapshot Contents) :
    (m.recordPredictedStep options step currentStep captured).pendingCommands =
      m.pendingCommands := by
  have hrecord : ∀ (r : PredictionManager) (resolvedStep : ℚ) (checksum : String),
      (r.recordChecksum options.window resolvedStep checksum).pendingCommands =
        r.pendingCommands := by
    intro r resolvedStep checksum
    rw [recordChecksum]
    split
    · rfl
    · rfl
  have hrest : ∀ (r : PredictionManager) (resolvedStep : ℚ),
      (if r.shouldRecordChecksum options.window resolvedStep then
        { (r.resolveContentDigest captured).2.recordChecksum options.window resolvedStep
            (options.computeStateChecksum captured) with
          lastRecordedStep := some resolvedStep }
      else r).pendingCommands = r.pendingCommands := by
    intro r resolvedStep
    split
    · obtain ⟨cached, hcached⟩ := r.resolveContentDigest_eq captured
      rw [hcached]
      exact hrecord _ _ _
    · rfl
  unfold recordPredictedStep
  dsimp only
  split
  · rfl
  · split
    · exact hrest _ _
    · split
      · exact hrest _ _
      · exact hrest _ _

variable {call : PredictionCall Contents}

/-- **Step lemma.** A call that spares a pending command leaves it pending. -/
theorem Spares.mem_afterCall (h : m.Spares options command call)
    (hmem : command ∈ m.pendingCommands) :
    command ∈ (m.afterCall options call).pendingCommands := by
  rcases call with ⟨other, atStep⟩ | ⟨step, currentStep, captured⟩ |
    ⟨snapshot, confirmedStep, metadata, captured⟩
  · change command ∈ (m.recordLocalCommand options other atStep).pendingCommands
    rw [recordLocalCommand]
    rcases h with hdisabled | hroom
    · rw [if_pos hdisabled]
      exact hmem
    · have hzero : options.window.maxPendingCommands ≠ 0 := by omega
      rw [if_neg hzero]
      split
      · exact hmem
      · dsimp only
        rw [if_neg]
        · exact mem_insertPending hmem
        · rw [length_insertPending]
          omega
  · change command ∈ (m.recordPredictedStep options step currentStep captured).pendingCommands
    rw [recordPredictedStep_pendingCommands]
    exact hmem
  · change command ∈
      (m.applyServerState options snapshot confirmedStep metadata captured).1.pendingCommands
    rcases h.2 with hstale | ⟨haccepts, hlater⟩
    · rw [applyServerState, if_pos hstale]
      exact hmem
    · rw [applyServerState_pendingCommands haccepts]
      exact mem_filter.mpr ⟨hmem, hlater⟩

/-- **Run lemma.** What the calls spare stays pending. -/
theorem SparesAll.mem {calls : List (PredictionCall Contents)}
    (h : SparesAll options command m calls) (hmem : command ∈ m.pendingCommands) :
    command ∈ (calls.foldl (afterCall options) m).pendingCommands := by
  induction calls generalizing m with
  | nil => exact hmem
  | cons call calls ih => exact ih h.2 (h.1.mem_afterCall hmem)

theorem SparesAll.split {earlier later : List (PredictionCall Contents)}
    (h : SparesAll options command m (earlier ++ call :: later)) :
    SparesAll options command m earlier ∧
      (earlier.foldl (afterCall options) m).Spares options command call := by
  induction earlier generalizing m with
  | nil => exact ⟨trivial, h.1⟩
  | cons first earlier ih =>
    obtain ⟨hearlier, hcall⟩ := ih h.2
    exact ⟨⟨h.1, hearlier⟩, hcall⟩

/-! ### No pending command is lost -/

/-- What the replay did with one pending command, queued after the commands `earlier`: it was
refused by the queue, as unauthorized or for want of room, or a copy of it was taken, and a copy
whose step is whole steps ahead is settled. -/
def Executed (config : RuntimeConfig JsValue EventPayload World)
    (restored : RuntimeState JsValue EventPayload World) (confirmedStep : ℚ)
    (earlier : List (Command JsValue)) (command : Command JsValue)
    (runtime : RuntimeState JsValue EventPayload World) (events : List (CommandEvent JsValue)) :
    Prop :=
  ∃ now, config.enqueuePending confirmedStep earlier (restored, []) = .ok now ∧
    (authorizeCommand command = false ∨ now.1.commandQueue.makeRoom command.priority = none ∨
      ∃ payload, config.cloneStructured command.payload = .ok payload ∧
        (Timely command restored.currentStep → Settled { command with payload } runtime events))

theorem Executed.of_replayed {config : RuntimeConfig JsValue EventPayload World}
    {restored : RuntimeState JsValue EventPayload World} {earlier later : List (Command JsValue)}
    (h : Replayed config restored confirmedStep targetStep (earlier ++ command :: later) runtime
      events) (hnext : restored.nextExecutableStep = restored.currentStep)
    (hlater : JsNumber.lt (.fin confirmedStep) command.step = true) :
    Executed config restored confirmedStep earlier command runtime events := by
  obtain ⟨enqueued, henqueued, hextends⟩ := h.enqueued
  obtain ⟨now, hearlier, hrest⟩ := enqueuePending_append henqueued
  refine ⟨now, hearlier, ?_⟩
  rcases enqueuePending_cons hlater hrest with
    hauth | hroom | ⟨payload, hclone, haccepted⟩
  · exact .inl hauth
  · exact .inr (.inl hroom)
  · refine .inr (.inr ⟨payload, hclone, fun htimely => ?_⟩)
    have hannounced : now.1.nextExecutableStep = restored.nextExecutableStep := by
      rw [(enqueuePending_extends hearlier).2]
    rw [hannounced, hnext] at haccepted
    obtain ⟨k, hk⟩ := htimely
    refine h.divided.settled hk (mem_add.mpr (.inr ?_))
    refine mem_filterMap.mpr ⟨_, hextends.subset haccepted, ?_⟩
    exact if_pos ⟨k, hk⟩

/-- **No pending command is lost.** Take a run and a command that is pending at some moment of it,
and let the rest of the run spare it. Then the command is still pending at the end, and every
confirmation on the way that replaced the runtime has queued it there and executed it, in its own
step, among the other commands behind the confirmed step. -/
theorem prediction_keeps_commands {calls₀ calls : List (PredictionCall Contents)}
    {command : Command JsValue} (hpending : command ∈ (run options calls₀).pendingCommands)
    (hspared : SparesAll options command (run options calls₀) calls) :
    command ∈ (run options (calls₀ ++ calls)).pendingCommands ∧
      ∀ earlier snapshot confirmedStep metadata captured later,
        calls = earlier ++ .applyServerState snapshot confirmedStep metadata captured :: later →
        ∀ reconciliation runtime events,
          ((run options (calls₀ ++ earlier)).applyServerState options snapshot confirmedStep
            metadata captured).2 = .ok reconciliation →
          reconciliation.replaced = some (runtime, events) →
          ∃ replay restored, options.replay = some replay ∧
            replay.restoreRuntime snapshot = .ok restored ∧
            (0 ≤ snapshot.step → restored.currentStep = snapshot.step) ∧
            (accumulatorEpsilonMs < (replay.wire snapshot).stepSizeMs →
              1 ≤ (replay.wire snapshot).maxStepsPerFrame →
              snapshot.step ≤ runtime.currentStep ∧
                (0 ≤ (run options (calls₀ ++ earlier)).localStep →
                  (run options (calls₀ ++ earlier)).localStep ≤ runtime.currentStep)) ∧
            ∀ before after,
              ((run options (calls₀ ++ earlier)).pendingCommands.filter fun other =>
                JsNumber.lt (.fin confirmedStep) other.step) = before ++ command :: after →
              Executed (replay.wire snapshot) restored confirmedStep before command runtime
                events := by
  have hrun : ∀ calls, run options (calls₀ ++ calls) =
      calls.foldl (afterCall options) (run options calls₀) := fun calls => List.foldl_append
  refine ⟨?_, ?_⟩
  · rw [hrun]
    exact hspared.mem hpending
  · rintro earlier snapshot confirmedStep metadata captured later rfl reconciliation runtime events
      happly hreplaced
    rw [hrun] at happly ⊢
    obtain ⟨-, -, hcase⟩ := hspared.split
    rcases hcase with hstale | ⟨haccepts, hlater⟩
    · -- a stale snapshot replaces nothing
      rw [applyServerState, if_pos hstale] at happly
      obtain rfl := Except.ok.inj happly
      cases hreplaced
    · obtain ⟨replay, restored, hreplay, hrestored, hreplayed⟩ :=
        applyServerState_replayed haccepts happly hreplaced
      obtain ⟨-, hnext, hstep, -⟩ := PredictionReplayOptions.restoreRuntime_spec hrestored
      refine ⟨replay, restored, hreplay, hrestored, fun hfrom => hstep.trans (if_pos hfrom),
        fun hsize hbudget => ?_, ?_⟩
      · have hreaches := hreplayed.reaches hsize hbudget
        refine ⟨(le_max_left _ _).trans hreaches, fun hlocal => ?_⟩
        rw [if_pos hlocal] at hreaches
        exact (le_max_right _ _).trans hreaches
      · intro before after hsplit
        have hkept : (dropPendingCommands (earlier.foldl (afterCall options) (run options calls₀))
            confirmedStep).pendingCommands = before ++ command :: after := hsplit
        rw [hkept] at hreplayed
        exact .of_replayed hreplayed hnext hlater

end PredictionManager

/-! ### A client -/

/-- A runtime with steps of a tenth of a second whose commands do nothing. -/
def replayedConfig : RuntimeConfig JsValue Unit Unit where
  stepSizeMs := 100
  stepSizeMs_pos := defaultStepMs_pos
  maxStepsPerFrame := 10
  cloneStructured := .ok
  commandHandlers := fun _ => none
  eventHandlers := fun _ _ => .done
  systems := []

/-- The digest of the content that client and server run. -/
def sharedDigest : DefinitionDigest := ⟨["gold"], .fin 1, "gold"⟩

/-- A snapshot whose contents are a word. -/
def wordSnapshot (step : ℚ) (commandQueue : JsValue) (word : String) : GameStateSnapshot String where
  version := 1
  step := step
  backlog := .undefined
  definitionDigest := some sharedDigest
  commandQueue := commandQueue
  contents := word

/-- A client that knows the words that it predicted. -/
def wordClient : PredictionManagerOptions Unit Unit String where
  window := resolvePredictionWindow none none none none
  computeStateChecksum := fun snapshot => snapshot.contents
  contentDigest := some sharedDigest
  replay := some {
    wire := fun _ => replayedConfig
    eventBus := silentBus
    world := fun _ => ()
    captureSnapshot := fun runtime =>
      wordSnapshot runtime.currentStep runtime.commandQueue.exportForSave "replayed" }

/-- A player's command. -/
def playerCommand (step : ℚ) : Command JsValue :=
  { type := "test", priority := .player, payload := .null, timestamp := ((0 : ℚ) : WithTop ℚ)
    step := .fin step, requestId := some "first" }

/-- What tells a command from others here. -/
def label (command : Command JsValue) : JsNumber × Option String :=
  (command.step, command.requestId)

/-- The step of the replayed runtime, and what it has dispatched. -/
def replayedOf (applied : PredictionManager × Except String (Reconciliation Unit Unit)) :
    Option (ℚ × List (JsNumber × Option String)) :=
  (applied.2.toOption.bind (·.replaced)).map fun now =>
    (now.1.currentStep, (dispatchedIn now.2).map label)

/-- The server sends the state of the first step, with a word that the client did not predict. -/
def confirm (m : PredictionManager) (commandQueue : JsValue) :
    PredictionManager × Except String (Reconciliation Unit Unit) :=
  m.applyServerState wordClient (wordSnapshot 1 commandQueue "confirmed") 1 ⟨none, none⟩
    (wordSnapshot 3 .undefined "predicted")

/-- The client issued a command, and predicted the steps up to the third. -/
def clientCalls (step : ℚ) : List (PredictionCall String) :=
  [.recordLocalCommand (playerCommand step) none,
    .recordPredictedStep (some 1) none (wordSnapshot 1 .undefined "predicted"),
    .recordPredictedStep (some 2) none (wordSnapshot 2 .undefined "predicted"),
    .recordPredictedStep (some 3) none (wordSnapshot 3 .undefined "predicted")]

namespace PredictionManager

/-- A command for the second step stays pending when the first is confirmed, and the replay executes
it. -/
theorem prediction_keeps_commands_client :
    playerCommand 2 ∈ (run wordClient (clientCalls 2 ++
        [.applyServerState (wordSnapshot 1 .undefined "confirmed") 1 ⟨none, none⟩
          (wordSnapshot 3 .undefined "predicted")])).pendingCommands ∧
      replayedOf (confirm (run wordClient (clientCalls 2)) .undefined) =
        some (3, [(.fin 2, some "first")]) := by
  have hpending : (run wordClient (clientCalls 2)).pendingCommands = [playerCommand 2] := rfl
  constructor
  · refine (prediction_keeps_commands (hpending ▸ List.mem_cons_self) ?_).1
    refine ⟨⟨rfl, .inr ⟨⟨by decide +kernel, rfl, by decide +kernel, rfl, .inl nofun⟩, ?_⟩⟩, trivial⟩
    decide +kernel
  · decide +kernel

/-- A snapshot of the first step has not executed that step: the client's command for it is dropped
all the same, and the replay never executes it. -/
theorem prediction_drops_command :
    let m := run wordClient (clientCalls 1)
    m.pendingCommands = [playerCommand 1] ∧ (confirm m .undefined).1.pendingCommands = [] ∧
      replayedOf (confirm m .undefined) = some (3, []) :=
  ⟨rfl, List.eq_nil_of_length_eq_zero (by decide +kernel), by decide +kernel⟩

end PredictionManager

end IdleEngine
