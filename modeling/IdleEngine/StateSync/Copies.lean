import IdleEngine.StateSync.Confirmation

/-!
# How often the replay executes a command

The restored queue and the pending list are two sources of the commands in flight. What both hold is
executed twice: a saved queue carries no request ids, and nothing else tells that two commands are
one (`replay_repeats_command`). But every copy is executed exactly once
(`replay_executes_each_copy`).
-/

namespace IdleEngine

namespace PredictionManager

variable {EventPayload World Contents : Type}
  {options : PredictionManagerOptions EventPayload World Contents}

/-! ### Rollbacks -/

variable {m : PredictionManager} {snapshot : GameStateSnapshot Contents} {confirmedStep : ℚ}
  {reconciliation : Reconciliation EventPayload World}

theorem reconcileWithReplay_status {targetStep : ℚ} {status : RollbackStatus}
    {reason : Option RollbackReason} {checksumMatch : Option Bool} {replayPending : Bool}
    (hrun : (m.reconcileWithReplay options snapshot confirmedStep targetStep status reason
      checksumMatch replayPending).2 = .ok reconciliation) :
    reconciliation.result.status = status := by
  unfold reconcileWithReplay at hrun
  split at hrun
  · obtain rfl := Except.ok.inj hrun
    rfl
  · split at hrun
    · cases hrun
    · dsimp only at hrun
      split at hrun
      · cases hrun
      · split at hrun
        · cases hrun
        · obtain rfl := Except.ok.inj hrun
          rfl

/-- Only an accepted snapshot is rolled back to. -/
theorem Accepts.of_rolledBack {metadata : PredictionCompatibilityMetadata}
    {captured : GameStateSnapshot Contents}
    (hrun : (m.applyServerState options snapshot confirmedStep metadata captured).2 =
      .ok reconciliation) (hstatus : reconciliation.result.status = .rolledBack) :
    m.Accepts options snapshot confirmedStep metadata captured := by
  obtain ⟨cached, hcached⟩ := m.compatibility_eq snapshot metadata captured
  unfold applyServerState at hrun
  dsimp only at hrun
  split at hrun
  · obtain rfl := Except.ok.inj hrun
    cases hstatus
  · next hfresh =>
    split at hrun
    · rw [reconcileWithReplay_status hrun] at hstatus
      cases hstatus
    · next henabled =>
      split at hrun
      · rw [reconcileWithReplay_status hrun] at hstatus
        cases hstatus
      · next kept hcompatible =>
        obtain rfl : kept = { m with cachedContentDigest := cached } := by
          rw [hcompatible] at hcached
          exact hcached
        split at hrun
        · rw [reconcileWithReplay_status hrun] at hstatus
          cases hstatus
        · next hfits =>
          split at hrun
          · rw [reconcileWithReplay_status hrun] at hstatus
            cases hstatus
          · next checksum hfound =>
            refine ⟨not_lt.mp hfresh, Bool.eq_false_iff.mpr henabled,
              congrArg Prod.fst hcompatible, Bool.eq_false_iff.mpr hfits, .inr ?_⟩
            intro hnone
            have hsame : m.findChecksum confirmedStep = some checksum := hfound
            rw [hnone] at hsame
            cases hsame

/-- The runtime has passed the step of the command. -/
def Passed (runtime : RuntimeState JsValue EventPayload World) (command : Command JsValue) : Prop :=
  JsNumber.lt command.step (.fin runtime.currentStep) = true

instance (runtime : RuntimeState JsValue EventPayload World) (command : Command JsValue) :
    Decidable (Passed runtime command) :=
  inferInstanceAs (Decidable (_ = true))

/-- **Every copy of a command is executed exactly once by the replay of a rollback.** The copies are
the commands of the restored queue and those the queue accepted since, first of all the pending
ones. Of the copies whose steps are whole steps ahead of the snapshot and have passed, each was
dispatched once, in its step, or dropped by a full queue; and nothing else was dispatched but copies
of the other kind. -/
theorem replay_executes_each_copy {m : PredictionManager} {snapshot : GameStateSnapshot Contents}
    {confirmedStep : ℚ} {metadata : PredictionCompatibilityMetadata}
    {captured : GameStateSnapshot Contents} {reconciliation : Reconciliation EventPayload World}
    {runtime : RuntimeState JsValue EventPayload World} {events : List (CommandEvent JsValue)}
    (hrun : (m.applyServerState options snapshot confirmedStep metadata captured).2 =
      .ok reconciliation)
    (hstatus : reconciliation.result.status = .rolledBack)
    (hreplaced : reconciliation.replaced = some (runtime, events)) :
    ∃ replay restored enqueued, options.replay = some replay ∧
      replay.restoreRuntime snapshot = .ok restored ∧
      (replay.wire snapshot).enqueuePending confirmedStep
        (m.pendingCommands.filter fun command => JsNumber.lt (.fin confirmedStep) command.step)
        (restored, []) = .ok enqueued ∧
      enqueued.2 <+: events ∧
      ∃ executed dropped others : Multiset (Command JsValue),
        Multiset.filter (Passed runtime) (timelyQueued restored + timelyIn events) =
          Multiset.filter (Passed runtime) executed + Multiset.filter (Passed runtime) dropped ∧
        executed + others = dispatchedIn events ∧
        dropped ≤ droppedIn events ∧
        others ≤ untimelyQueued restored + untimelyIn events ∧
        ∀ command step, CommandEvent.dispatched command step ∈ events →
          command.step = .fin step := by
  obtain ⟨replay, restored, hreplay, hrestored, hreplayed⟩ :=
    applyServerState_replayed (.of_rolledBack hrun hstatus) hrun hreplaced
  obtain ⟨enqueued, henqueued, hextends⟩ := hreplayed.enqueued
  obtain ⟨timely, others, h⟩ := hreplayed.divided
  obtain ⟨hnone, -⟩ := h.pending_eq_zero
  refine ⟨replay, restored, enqueued, hreplay, hrestored, henqueued, hextends, timely.dispatched,
    timely.dropped, others.dispatched, ?_, h.dispatched, ?_, ?_, h.on_time⟩
  · -- what is queued has not passed
    have hqueued : Multiset.filter (Passed runtime) timely.queued = 0 := by
      refine Multiset.filter_eq_nil.mpr fun command hmem hpassed => ?_
      obtain ⟨k, hk⟩ := h.queued_ahead command hmem
      rw [Passed, hk] at hpassed
      have hback : runtime.currentStep + (0 : ℕ) + k ≤ runtime.currentStep ∧
          ¬ runtime.currentStep ≤ runtime.currentStep + (0 : ℕ) + k := by
        simpa only [JsNumber.lt, JsNumber.le, Bool.and_eq_true, Bool.not_eq_true',
          decide_eq_true_eq, decide_eq_false_iff_not] using hpassed
      have hnonneg : (0 : ℚ) ≤ k := Nat.cast_nonneg k
      refine hback.2 ?_
      push_cast
      linarith
    rw [← h.timely_all, Shares.all, h.never_skipped, hnone, Multiset.filter_add,
      Multiset.filter_add, Multiset.filter_add, Multiset.filter_add, hqueued]
    simp
  · rw [← h.dropped]
    exact Multiset.le_add_right _ _
  · rw [← h.others_all, Shares.all]
    simp only [add_assoc]
    exact Multiset.le_add_right _ _

/-- The queue of a server that has accepted the client's command for the second step. -/
def serverQueue : JsValue :=
  (((CommandQueue.empty 10000 defaultMaxQueueSize_pos).enqueue .ok (playerCommand 2)).2).exportForSave

/-- The one command of a client that the server has not seen is executed once. -/
theorem replay_executes_each_copy_client :
    let m := run wordClient (clientCalls 2)
    ∃ reconciliation runtime events,
      (confirm m .undefined).2 = .ok reconciliation ∧
        reconciliation.replaced = some (runtime, events) ∧
        (∃ executed dropped others : Multiset (Command JsValue),
          executed + others = dispatchedIn events ∧ dropped ≤ droppedIn events) ∧
        (dispatchedIn events).map label = [(.fin 2, some "first")] := by
  intro m
  have hsome : ((confirm m .undefined).2.toOption.bind (·.replaced)).isSome = true := by
    decide +kernel
  have hstatus : (confirm m .undefined).2.toOption.map (·.result.status) = some .rolledBack := by
    decide +kernel
  have hreplayed : replayedOf (confirm m .undefined) = some (3, [(.fin 2, some "first")]) := by
    decide +kernel
  rcases hrun : (confirm m .undefined).2 with message | reconciliation
  · rw [hrun] at hsome
    cases hsome
  · rw [hrun] at hsome hstatus
    obtain ⟨⟨runtime, events⟩, hreplaced⟩ :
        ∃ now, reconciliation.replaced = some now := Option.isSome_iff_exists.mp hsome
    obtain ⟨-, -, -, -, -, -, -, executed, dropped, others, -, hsum, hdropped, -, -⟩ :=
      replay_executes_each_copy hrun (Option.some.inj hstatus) hreplaced
    refine ⟨reconciliation, runtime, events, rfl, hreplaced, ⟨executed, dropped, others, hsum,
      hdropped⟩, ?_⟩
    rw [replayedOf, hrun] at hreplayed
    change (Option.map _ reconciliation.replaced) = _ at hreplayed
    rw [hreplaced] at hreplayed
    exact congrArg Prod.snd (Option.some.inj hreplayed)

/-- The server has accepted the client's command, so the restored queue holds it, without its
request id; the manager queues it once more, and the replay executes it twice. -/
theorem replay_repeats_command :
    let m := run wordClient (clientCalls 2)
    m.pendingCommands = [playerCommand 2] ∧
      replayedOf (confirm m serverQueue) = some (3, [(.fin 2, none), (.fin 2, some "first")]) :=
  ⟨rfl, by decide +kernel⟩

end PredictionManager

end IdleEngine
