import IdleEngine.Command.Recorder

/-!
# What a replay reproduces

A replay follows the run that was recorded command by command: as long as both generators draw the
same numbers, handlers do the same in both (`CommandRecorder.replayLoop_follows`). Which numbers the
replay draws is decided by the seed of the log. It gives back the position of the generator only if the
recorder was made before the first draw from that seed (`CommandRecorder.replay_reproduces_iff`); a
recorder that is made later has a log that leads elsewhere (`CommandRecorder.replay_after_a_draw`).
-/

namespace IdleEngine

open Option

variable {Payload EventPayload World : Type}

/-! ### What a run adds to a session -/

namespace RecordedProgram

theorem mem_enqueued_run (host : SessionHost Payload EventPayload)
    (program : RecordedProgram Payload EventPayload World) {s : RecordedSession Payload World}
    {command : Command Payload} (h : command ∈ s.enqueued) :
    command ∈ (program.run host s).enqueued := by
  induction program generalizing s with
  | done => exact h
  | raise error => exact h
  | random next ih => exact ih _ h
  | enqueue queued next ih => exact ih _ (List.mem_append_left _ h)
  | publish eventType payload next ih => exact ih _ h
  | read next ih => exact ih _ h
  | write world next ih => exact ih h

theorem reaches_run (host : SessionHost Payload EventPayload)
    (program : RecordedProgram Payload EventPayload World) (s : RecordedSession Payload World) :
    Rng.Reaches host.fallbackSeed s.rng (program.run host s).rng := by
  induction program generalizing s with
  | done => exact .refl _ _
  | raise error => exact .refl _ _
  | random next ih =>
    exact (Rng.reaches_seededRandom _ _).trans
      (ih _ { s with rng := (s.rng.seededRandom host.fallbackSeed).2 })
  | enqueue queued next ih => exact ih _ { s with enqueued := s.enqueued ++ [queued] }
  | publish eventType payload next ih => exact ih _ s
  | read next ih => exact ih _ s
  | write world next ih => exact ih { s with world }

end RecordedProgram

theorem exists_executeRecorded (dispatcher : RecordedDispatcher Payload EventPayload World)
    (command : Command Payload) :
    ∃ program : RecordedProgram Payload EventPayload World, ∀ host s,
      executeRecorded dispatcher host command s = program.run host { s with enqueued := [] } := by
  rcases hhandler : dispatcher command.type with _ | handler
  · refine ⟨.done, fun host s => ?_⟩
    rw [executeRecorded, hhandler]
    rfl
  · by_cases hauthorized : authorizeCommand command = false
    · refine ⟨.done, fun host s => ?_⟩
      rw [executeRecorded, hhandler]
      exact if_pos hauthorized
    · refine ⟨handler command.payload ⟨command.step, command.timestamp, command.priority⟩,
        fun host s => ?_⟩
      rw [executeRecorded, hhandler]
      exact if_neg hauthorized

/-! ### A replay follows a run -/

/-- A relation between the generators of a run and of its replay. If the run draws at all, both draw
the same numbers. -/
def DrawsAlike (draws : Prop) (fallbackSeed fallbackSeed' : UInt32) (M : Rng → Rng → Prop) : Prop :=
  draws → ∀ rng rng', M rng rng' →
    (rng.seededRandom fallbackSeed).1 = (rng'.seededRandom fallbackSeed').1 ∧
      M (rng.seededRandom fallbackSeed).2 (rng'.seededRandom fallbackSeed').2

/-- A session of a replay that has reached what the run has reached. -/
structure Follows (M : Rng → Rng → Prop) (s s' : RecordedSession Payload World) : Prop where
  world : s'.world = s.world
  rng : M s.rng s'.rng

section Following

variable {host host' : SessionHost Payload EventPayload} {M : Rng → Rng → Prop} {draws : Prop}

section

variable (hpublish : host'.publish = host.publish)
  (haccepts : ∀ command, host'.accepts command = true)
  (hdraws : DrawsAlike draws host.fallbackSeed host'.fallbackSeed M)
include hpublish haccepts hdraws

theorem RecordedProgram.run_follows (program : RecordedProgram Payload EventPayload World)
    {s s' : RecordedSession Payload World} (h : Follows M s s') (henqueued : s'.enqueued = s.enqueued)
    (haccepted : ∀ command ∈ (program.run host s).enqueued, host.accepts command = true)
    (hundrawn : ¬draws → (program.run host s).rng.rngState = none) :
    Follows M (program.run host s) (program.run host' s') ∧
      (program.run host' s').enqueued = (program.run host s).enqueued := by
  induction program generalizing s s' with
  | done => exact ⟨h, henqueued⟩
  | raise error => exact ⟨h, henqueued⟩
  | random next ih =>
    rw [RecordedProgram.run] at haccepted hundrawn ⊢
    rw [RecordedProgram.run]
    by_cases hdraw : draws
    · obtain ⟨hsame, hnext⟩ := hdraws hdraw _ _ h.rng
      rw [← hsame]
      exact ih _ ⟨h.world, hnext⟩ henqueued haccepted hundrawn
    · -- a draw would have left a position
      refine absurd (hundrawn hdraw) ((RecordedProgram.reaches_run host _ _).kept ?_).1
      dsimp only
      rw [Rng.rngState_seededRandom]
      exact some_ne_none _
  | enqueue command next ih =>
    rw [RecordedProgram.run] at haccepted hundrawn ⊢
    rw [RecordedProgram.run]
    have hcommand : host.accepts command = true :=
      haccepted command (RecordedProgram.mem_enqueued_run host _
        (List.mem_append_right _ (List.mem_singleton_self _)))
    rw [haccepts, ← hcommand]
    exact ih _ ⟨h.world, h.rng⟩ (congrArg (· ++ [command]) henqueued) haccepted hundrawn
  | publish eventType payload next ih =>
    rw [RecordedProgram.run] at haccepted hundrawn ⊢
    rw [RecordedProgram.run, hpublish]
    exact ih _ h henqueued haccepted hundrawn
  | read next ih =>
    rw [RecordedProgram.run] at haccepted hundrawn ⊢
    rw [RecordedProgram.run, h.world]
    exact ih _ h henqueued haccepted hundrawn
  | write world next ih =>
    rw [RecordedProgram.run] at haccepted hundrawn ⊢
    rw [RecordedProgram.run]
    exact ih ⟨rfl, h.rng⟩ henqueued haccepted hundrawn

theorem executeRecorded_follows (dispatcher : RecordedDispatcher Payload EventPayload World)
    (command : Command Payload) {s s' : RecordedSession Payload World} (h : Follows M s s')
    (haccepted : ∀ queued ∈ (executeRecorded dispatcher host command s).enqueued,
      host.accepts queued = true)
    (hundrawn : ¬draws → (executeRecorded dispatcher host command s).rng.rngState = none) :
    Follows M (executeRecorded dispatcher host command s)
        (executeRecorded dispatcher host' command s') ∧
      (executeRecorded dispatcher host' command s').enqueued =
        (executeRecorded dispatcher host command s).enqueued := by
  obtain ⟨program, hprogram⟩ := exists_executeRecorded dispatcher command
  rw [hprogram] at haccepted hundrawn ⊢
  rw [hprogram]
  exact program.run_follows hpublish haccepts hdraws ⟨h.world, h.rng⟩ rfl haccepted hundrawn

end

end Following

namespace CommandRecorder

variable {dispatcher : RecordedDispatcher Payload EventPayload World}
  {host : SessionHost Payload EventPayload}

theorem reaches_lastSession (commands : List (Command Payload)) (s : RecordedSession Payload World) :
    Rng.Reaches host.fallbackSeed s.rng (lastSession dispatcher host commands s).rng := by
  induction commands generalizing s with
  | nil => exact .refl _ _
  | cons command rest ih =>
    obtain ⟨program, hprogram⟩ := exists_executeRecorded dispatcher command
    refine Rng.Reaches.trans ?_ (ih (executeRecorded dispatcher host command s))
    rw [hprogram]
    exact program.reaches_run host { s with enqueued := [] }

/-- The seed of a log: the one that the recorder has, or else the one at the end of the run. -/
theorem seed_recordAll (commands : List (Command Payload)) (recorder : CommandRecorder Payload World)
    (s : RecordedSession Payload World)
    (hseed : recorder.rngSeed = none → s.rng.rngState = none → s.rng.currentSeed = none) :
    ((recordAll dispatcher host commands recorder s).exportLog
      (lastSession dispatcher host commands s).rng).seed =
        recorder.rngSeed.or (lastSession dispatcher host commands s).rng.seedNumber := by
  induction commands generalizing recorder s with
  | nil => rfl
  | cons command rest ih =>
    have hreaches : Rng.Reaches host.fallbackSeed s.rng
        (executeRecorded dispatcher host command s).rng := reaches_lastSession [command] s
    have hlast : Rng.Reaches host.fallbackSeed s.rng
        (lastSession dispatcher host (command :: rest) s).rng := reaches_lastSession _ s
    refine (ih (recorder.record command s.rng) (executeRecorded dispatcher host command s) ?_).trans ?_
    · intro hrecorder hnone
      have hbefore : s.rng.rngState = none := by
        by_contra hsome
        exact (hreaches.kept hsome).1 hnone
      rcases hreaches.unseeded hbefore with hsame | ⟨hsome, -⟩
      · rw [hsame]
        exact hseed (or_eq_none_iff.mp hrecorder).1 hbefore
      · exact absurd hnone hsome
    · change (recorder.rngSeed.or s.rng.seedNumber).or _ = _
      rcases hrecorder : recorder.rngSeed with _ | seed
      · change s.rng.seedNumber.or (lastSession dispatcher host (command :: rest) s).rng.seedNumber =
          (lastSession dispatcher host (command :: rest) s).rng.seedNumber
        rw [Rng.seedNumber, Rng.seedNumber]
        by_cases hnone : s.rng.rngState = none
        · rw [hseed hrecorder hnone]
          rfl
        · rw [(hlast.kept hnone).2, Option.or_self]
      · rfl

theorem commands_recordAll (commands : List (Command Payload))
    (recorder : CommandRecorder Payload World) (s : RecordedSession Payload World) :
    (recordAll dispatcher host commands recorder s).commands = recorder.commands ++ commands := by
  induction commands generalizing recorder s with
  | nil => exact (List.append_nil _).symm
  | cons command rest ih =>
    refine (ih _ _).trans ?_
    change (recorder.commands ++ [command]) ++ rest = _
    rw [List.append_assoc]
    rfl

theorem startState_recordAll (commands : List (Command Payload))
    (recorder : CommandRecorder Payload World) (s : RecordedSession Payload World) :
    (recordAll dispatcher host commands recorder s).startState = recorder.startState := by
  induction commands generalizing recorder s with
  | nil => rfl
  | cons command rest ih => exact ih _ _

/-- The session in which a recorder is made. -/
def startSession (world : World) (rng : Rng) : RecordedSession Payload World :=
  { world, rng, enqueued := [] }

/-- The log of a live run that starts where its recorder is made. -/
def logOf (dispatcher : RecordedDispatcher Payload EventPayload World)
    (host : SessionHost Payload EventPayload) (world : World) (seed : Option JsNumber) (rng : Rng)
    (commands : List (Command Payload)) : CommandLog Payload World :=
  (recordAll dispatcher host commands (create world seed rng) (startSession world rng)).exportLog
    (lastSession dispatcher host commands (startSession world rng)).rng

theorem seed_logOf (dispatcher : RecordedDispatcher Payload EventPayload World)
    (host : SessionHost Payload EventPayload) (start : World) (seed : Option JsNumber) (rng : Rng)
    (commands : List (Command Payload)) :
    (logOf dispatcher host start seed rng commands).seed =
      (seed.or rng.seedNumber).or
        (lastSession dispatcher host commands (startSession start rng)).rng.seedNumber := by
  refine seed_recordAll commands (create start seed rng) (startSession start rng) ?_
  intro hnone _
  exact map_eq_none_iff.mp (or_eq_none_iff.mp hnone).2

section Replay

variable [DecidableEq Payload] {host' : SessionHost Payload EventPayload} {M : Rng → Rng → Prop}
  {draws : Prop}

/-- **The loop of a replay follows the run.** -/
theorem replayLoop_follows (hpublish : host'.publish = host.publish)
    (haccepts : ∀ command, host'.accepts command = true)
    (hdraws : DrawsAlike draws host.fallbackSeed host'.fallbackSeed M)
    (log commands : List (Command Payload)) (index : ℕ) (claimedIndices : List ℕ)
    {s s' : RecordedSession Payload World} (h : Follows M s s')
    (haccepted : ∀ queued ∈ (queuedBy dispatcher host commands s).flatten,
      host.accepts queued = true)
    (hfollowups : followupsFrom log index (queuedBy dispatcher host commands s) claimedIndices = true)
    (hundrawn : ¬draws → (lastSession dispatcher host commands s).rng.rngState = none) :
    ∃ last, replayLoop dispatcher host' log index commands claimedIndices s' = (.ok (), last) ∧
      Follows M (lastSession dispatcher host commands s) last := by
  induction commands generalizing index claimedIndices s s' with
  | nil => exact ⟨s', rfl, h⟩
  | cons command rest ih =>
    rw [queuedBy] at haccepted hfollowups
    rw [List.flatten_cons] at haccepted
    have hhere : ¬draws → (executeRecorded dispatcher host command s).rng.rngState = none := by
      intro hdraw
      by_contra hsome
      exact ((reaches_lastSession rest (executeRecorded dispatcher host command s)).kept hsome).1
        (hundrawn hdraw)
    obtain ⟨hnext, henqueued⟩ := executeRecorded_follows hpublish haccepts hdraws dispatcher command h
      (fun queued hqueued => haccepted queued (List.mem_append_left _ hqueued)) hhere
    rw [followupsFrom] at hfollowups
    rw [replayLoop, henqueued]
    rcases hverify : verifyReplaySandboxedEnqueues log index
      (executeRecorded dispatcher host command s).enqueued claimedIndices with _ | claimed
    · rw [hverify] at hfollowups
      cases hfollowups
    · rw [hverify] at hfollowups
      exact ih (index + 1) claimed hnext
        (fun queued hqueued => haccepted queued (List.mem_append_right _ hqueued)) hfollowups hundrawn

/-! ### When a replay reproduces its run -/

/-- The queue took every command that a handler queued, and each of them was executed later in the
run. -/
structure Complete (dispatcher : RecordedDispatcher Payload EventPayload World)
    (host : SessionHost Payload EventPayload) (world : World) (rng : Rng)
    (commands : List (Command Payload)) : Prop where
  accepted : ∀ queued ∈ (queuedBy dispatcher host commands (startSession world rng)).flatten,
    host.accepts queued = true
  followups :
    followupsFrom commands 0 (queuedBy dispatcher host commands (startSession world rng)) [] = true

/-- The replay of the log of a live run, with the publisher of the run and an empty queue. -/
def replayOf (dispatcher : RecordedDispatcher Payload EventPayload World)
    (host : SessionHost Payload EventPayload) (world : World) (seed : Option JsNumber) (rng : Rng)
    (commands : List (Command Payload)) (fallbackSeed : UInt32) (process : ReplayProcess World) :
    Except String Unit × ReplayProcess World :=
  replay (logOf dispatcher host world seed rng commands) dispatcher
    { eventPublisher := some host.publish, queueSize := 0, fallbackSeed } process

/-- The replay of the log ends in the state of the game and the position of the generator in which
the live run ended. -/
structure Reproduces (dispatcher : RecordedDispatcher Payload EventPayload World)
    (host : SessionHost Payload EventPayload) (start : World) (seed : Option JsNumber) (rng : Rng)
    (commands : List (Command Payload)) (fallbackSeed : UInt32) (process : ReplayProcess World) :
    Prop where
  returns : (replayOf dispatcher host start seed rng commands fallbackSeed process).1 = .ok ()
  world : (replayOf dispatcher host start seed rng commands fallbackSeed process).2.world =
    (lastSession dispatcher host commands (startSession start rng)).world
  position : (replayOf dispatcher host start seed rng commands fallbackSeed process).2.rng.rngState =
    (lastSession dispatcher host commands (startSession start rng)).rng.rngState

/-- The generator stands at the start of the seed that the recorder takes, or, when there is no seed,
in the position that it has at the replay. -/
def SeedTellsPosition (seed : Option JsNumber) (rng atReplay : Rng) : Prop :=
  (seed.or rng.seedNumber).elim (atReplay.rngState = rng.rngState) fun seed =>
    rng.rngState = some (Rng.startState seed.toUint32)

/-- The host of the replay of a run. -/
def sandbox (host : SessionHost Payload EventPayload) (fallbackSeed : UInt32) :
    SessionHost Payload EventPayload :=
  { publish := host.publish, accepts := fun _ => true, fallbackSeed }

/-- The session in which the loop of the replay starts. -/
def replayStart (dispatcher : RecordedDispatcher Payload EventPayload World)
    (host : SessionHost Payload EventPayload) (start : World) (seed : Option JsNumber) (rng : Rng)
    (commands : List (Command Payload)) (process : ReplayProcess World) :
    RecordedSession Payload World :=
  startSession start
    (applyReplaySeed (logOf dispatcher host start seed rng commands).seed process.rng)

variable {start : World} {seed : Option JsNumber} {rng : Rng} {commands : List (Command Payload)}
  {fallbackSeed : UInt32} {process : ReplayProcess World}

/-- What a replay whose loop ends leaves. -/
theorem replayOf_of_loop {last : RecordedSession Payload World}
    (hloop : replayLoop dispatcher (sandbox host fallbackSeed) commands 0 commands []
      (replayStart dispatcher host start seed rng commands process) = (.ok (), last)) :
    (replayOf dispatcher host start seed rng commands fallbackSeed process).1 = .ok () ∧
      (replayOf dispatcher host start seed rng commands fallbackSeed process).2.world = last.world ∧
      (replayOf dispatcher host start seed rng commands fallbackSeed process).2.rng = last.rng := by
  have hcommands : (logOf dispatcher host start seed rng commands).commands = commands :=
    commands_recordAll commands _ _
  have hstart : (logOf dispatcher host start seed rng commands).startState = start :=
    startState_recordAll commands _ _
  have hreplayed : replayLoop dispatcher
      (ReplayContext.host { eventPublisher := some host.publish, queueSize := 0, fallbackSeed })
      (logOf dispatcher host start seed rng commands).commands 0
      (logOf dispatcher host start seed rng commands).commands []
      { world := (logOf dispatcher host start seed rng commands).startState
        rng := applyReplaySeed (logOf dispatcher host start seed rng commands).seed process.rng
        enqueued := [] } = (.ok (), last) := by
    rw [hcommands, hstart]
    exact hloop
  unfold replayOf replay
  dsimp only
  rw [if_neg (fun hne => hne rfl), hreplayed]
  dsimp only
  split
  · exact ⟨rfl, rfl, rfl⟩
  · exact ⟨rfl, rfl, rfl⟩

/-- A replay that starts where the run started, or would have started, reproduces it. -/
theorem reproduces_of_position (hcomplete : Complete dispatcher host start rng commands)
    (hposition : (replayStart dispatcher host start seed rng commands process).rng.rngState = some (rng.rngState.getD (Rng.startState host.fallbackSeed)))
    (hlast : (lastSession dispatcher host commands (startSession start rng)).rng.rngState ≠ none) :
    Reproduces dispatcher host start seed rng commands fallbackSeed process := by
  let M : Rng → Rng → Prop := fun live replayed =>
    replayed.rngState = some (live.rngState.getD (Rng.startState host.fallbackSeed))
  have hdraws : DrawsAlike True host.fallbackSeed fallbackSeed M := by
    intro _ live replayed hsame
    have hstate : replayed.rngState =
      some (live.rngState.getD (Rng.startState host.fallbackSeed)) := hsame
    refine ⟨?_, ?_⟩
    · rw [Rng.seededRandom_fst, Rng.seededRandom_fst, hstate]
      rfl
    · change (replayed.seededRandom fallbackSeed).2.rngState = _
      rw [Rng.rngState_seededRandom, Rng.rngState_seededRandom, hstate]
      rfl
  have hstart : Follows M (startSession start rng)
      (replayStart dispatcher host start seed rng commands process) := ⟨rfl, hposition⟩
  have hpublish : (sandbox host fallbackSeed).publish = host.publish := rfl
  have haccepts : ∀ command, (sandbox host fallbackSeed).accepts command = true := fun _ => rfl
  obtain ⟨last, hloop, hfollows⟩ := replayLoop_follows hpublish haccepts hdraws commands commands 0 []
    hstart hcomplete.accepted hcomplete.followups (fun hnot => absurd trivial hnot)
  obtain ⟨hreturns, hworld, hrng⟩ := replayOf_of_loop hloop
  refine ⟨hreturns, hworld.trans hfollows.world, ?_⟩
  rw [hrng, hfollows.rng]
  rcases hstate : (lastSession dispatcher host commands (startSession start rng)).rng.rngState with
    _ | state
  · exact absurd hstate hlast
  · rfl

/-- A run without a draw is reproduced by a replay that finds the generator in the same position. -/
theorem reproduces_of_undrawn (hcomplete : Complete dispatcher host start rng commands)
    (hposition : (replayStart dispatcher host start seed rng commands process).rng.rngState = none)
    (hlast : (lastSession dispatcher host commands (startSession start rng)).rng.rngState = none) :
    Reproduces dispatcher host start seed rng commands fallbackSeed process := by
  let M : Rng → Rng → Prop := fun _ replayed => replayed.rngState = none
  have hdraws : DrawsAlike False host.fallbackSeed fallbackSeed M := fun hfalse => hfalse.elim
  have hstart : Follows M (startSession start rng)
      (replayStart dispatcher host start seed rng commands process) := ⟨rfl, hposition⟩
  have hpublish : (sandbox host fallbackSeed).publish = host.publish := rfl
  have haccepts : ∀ command, (sandbox host fallbackSeed).accepts command = true := fun _ => rfl
  obtain ⟨last, hloop, hfollows⟩ := replayLoop_follows hpublish haccepts hdraws commands commands 0 []
    hstart hcomplete.accepted hcomplete.followups (fun _ => hlast)
  obtain ⟨hreturns, hworld, hrng⟩ := replayOf_of_loop hloop
  refine ⟨hreturns, hworld.trans hfollows.world, ?_⟩
  rw [hrng, hfollows.rng, hlast]

/-- **When replays reproduce their runs.** For every state of the game and every generator with which
a recorder is made: all complete runs from there, with whatever handlers and commands, are reproduced
exactly when the seed that the recorder takes tells the position of the generator. -/
theorem replay_reproduces_iff (start : World) (seed : Option JsNumber) (rng : Rng)
    (process : ReplayProcess World) :
    (∀ (dispatcher : RecordedDispatcher Payload EventPayload World)
        (host : SessionHost Payload EventPayload) (commands : List (Command Payload))
        (fallbackSeed : UInt32), Complete dispatcher host start rng commands →
          Reproduces dispatcher host start seed rng commands fallbackSeed process) ↔
      SeedTellsPosition seed rng process.rng := by
  constructor
  · -- the run without a command is complete, and its log has the seed that the recorder took
    intro hall
    let dispatcher : RecordedDispatcher Payload EventPayload World := fun _ => none
    let host : SessionHost Payload EventPayload :=
      { publish := fun _ _ => .ok (), accepts := fun _ => true, fallbackSeed := 0 }
    have hcomplete : Complete dispatcher host start rng [] := by
      refine ⟨?_, rfl⟩
      intro queued hqueued
      cases hqueued
    have hposition := (hall dispatcher host [] 0 hcomplete).position
    have hloop : replayLoop dispatcher (sandbox host 0) [] 0 [] []
        (replayStart dispatcher host start seed rng [] process) =
      (.ok (), replayStart dispatcher host start seed rng [] process) := rfl
    rw [(replayOf_of_loop hloop).2.2] at hposition
    have hlog : (logOf dispatcher host start seed rng []).seed = seed.or rng.seedNumber := by
      refine (seed_logOf dispatcher host start seed rng []).trans ?_
      change (seed.or rng.seedNumber).or rng.seedNumber = _
      rw [Option.or_assoc, Option.or_self]
    rw [SeedTellsPosition]
    have hreplayed : (applyReplaySeed (logOf dispatcher host start seed rng []).seed
      process.rng).rngState = rng.rngState := hposition
    rw [hlog] at hreplayed
    rcases htaken : seed.or rng.seedNumber with _ | taken
    · rw [htaken] at hreplayed
      exact hreplayed
    · rw [htaken] at hreplayed
      exact hreplayed.symm
  · intro htells dispatcher host commands fallbackSeed hcomplete
    have hreaches : Rng.Reaches host.fallbackSeed rng
        (lastSession dispatcher host commands (startSession start rng)).rng :=
      reaches_lastSession commands (startSession start rng)
    have hseed := seed_logOf dispatcher host start seed rng commands
    rw [SeedTellsPosition] at htells
    rcases htaken : seed.or rng.seedNumber with _ | taken
    · rw [htaken] at htells hseed
      have hsame : process.rng.rngState = rng.rngState := htells
      have hunseeded : rng.currentSeed = none :=
        Option.map_eq_none_iff.mp (Option.or_eq_none_iff.mp htaken).2
      by_cases hstate : rng.rngState = none
      · rcases hreaches.unseeded hstate with hkept | ⟨hdrawn, hfallback⟩
        · -- nothing was drawn, and the log has no seed
          refine reproduces_of_undrawn hcomplete ?_ ?_
          · rw [replayStart, hseed, hkept, Rng.seedNumber, hunseeded]
            exact hsame.trans hstate
          · rw [hkept]
            exact hstate
        · -- the first draw took the seed of the host, and the recorder saw it
          refine reproduces_of_position hcomplete ?_ hdrawn
          rw [replayStart, hseed, Rng.seedNumber, hfallback, hstate]
          change (Rng.setRNGSeed (JsNumber.toUint32 (.fin host.fallbackSeed.toNat))).rngState = _
          rw [JsNumber.toUint32_toNat]
          rfl
      · obtain ⟨hsome, hkept⟩ := hreaches.kept hstate
        refine reproduces_of_position hcomplete ?_ hsome
        rw [replayStart, hseed, Rng.seedNumber, hkept, hunseeded]
        change process.rng.rngState = _
        rw [hsame]
        rcases hposition : rng.rngState with _ | position
        · exact absurd hposition hstate
        · rfl
    · rw [htaken] at htells hseed
      have hstate : rng.rngState = some (Rng.startState taken.toUint32) := htells
      refine reproduces_of_position hcomplete ?_ (hreaches.kept ?_).1
      · rw [replayStart, hseed, hstate]
        rfl
      · rw [hstate]
        exact Option.some_ne_none _

end Replay

/-- A handler that writes the number it draws. -/
def rollDispatcher : RecordedDispatcher Unit Unit ℚ := fun type =>
  if type = "ROLL" then some fun _ _ => .random fun value => .write value .done else none

/-- A host that takes everything. -/
def rollHost : SessionHost Unit Unit :=
  { publish := fun _ _ => .ok (), accepts := fun _ => true, fallbackSeed := 0 }

def rollCommand : Command Unit :=
  { type := "ROLL", priority := .player, payload := (), timestamp := ((0 : ℚ) : WithTop ℚ)
    step := .fin 0, requestId := none }

/-- The generator after a draw from the seed one. -/
def drawnOnce : Rng := ((Rng.setRNGSeed 1).seededRandom 0).2

/-- **A recorder that is made after a draw.** The live run writes the second number of the seed, the
replay of its log the first one. -/
theorem replay_after_a_draw :
    let process : ReplayProcess ℚ := ⟨0, drawnOnce, .fin 0, .fin 0⟩
    Complete rollDispatcher rollHost 0 drawnOnce [rollCommand] ∧
      (lastSession rollDispatcher rollHost [rollCommand] (startSession 0 drawnOnce)).world =
        Rng.mix (Rng.nextState (Rng.nextState 1)) ∧
      (replayOf rollDispatcher rollHost 0 none drawnOnce [rollCommand] 0 process).2.world =
        Rng.mix (Rng.nextState 1) ∧
      ¬Reproduces rollDispatcher rollHost 0 none drawnOnce [rollCommand] 0 process := by
  intro process
  have hlive : (lastSession rollDispatcher rollHost [rollCommand] (startSession 0 drawnOnce)).world =
      Rng.mix (Rng.nextState (Rng.nextState 1)) := by
    decide +kernel
  have hreplay : (replayOf rollDispatcher rollHost 0 none drawnOnce [rollCommand] 0 process).2.world =
      Rng.mix (Rng.nextState 1) := by
    decide +kernel
  refine ⟨⟨?_, by decide +kernel⟩, hlive, hreplay, ?_⟩
  · intro queued hqueued
    have hnone : (queuedBy rollDispatcher rollHost [rollCommand] (startSession 0 drawnOnce)).flatten =
        [] := by
      decide +kernel
    rw [hnone] at hqueued
    cases hqueued
  · intro hreproduces
    have hworld := hreproduces.world
    rw [hlive, hreplay] at hworld
    exact absurd hworld (by decide +kernel)

end CommandRecorder

end IdleEngine
