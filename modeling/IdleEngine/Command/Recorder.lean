import IdleEngine.Command.Basic
import IdleEngine.Rng

/-!
# Recording commands and replaying them

A `CommandRecorder` takes the state of the game and the seed of the random numbers when it is made,
and then every command in front of its execution. `replay` puts the state back, seeds the generator
and executes the recorded commands again. What handlers queue is not executed in a replay: it has to
stand further back in the log.

The log has the seed of the generator and not its position. So a replay reproduces the run exactly
when the generator stood at the start of its seed as the recorder was made
(`IdleEngine.Command.ReplayRun`).
-/

namespace IdleEngine

/-- What a handler is told beside the payload. -/
structure ExecutionContext where
  step : JsNumber
  timestamp : Timestamp
  priority : CommandPriority

/-- A deterministic synchronous handler: it reads and writes the state of the game, draws random
numbers, queues commands, publishes events, and may throw. -/
inductive RecordedProgram (Payload EventPayload World : Type)
  | done
  | raise (error : String)
  | random (next : ℚ → RecordedProgram Payload EventPayload World)
  | enqueue (command : Command Payload) (next : Bool → RecordedProgram Payload EventPayload World)
  | publish (eventType : String) (payload : EventPayload)
      (next : Except String Unit → RecordedProgram Payload EventPayload World)
  | read (next : World → RecordedProgram Payload EventPayload World)
  | write (world : World) (next : RecordedProgram Payload EventPayload World)

variable {Payload EventPayload World : Type}

/-- The state of the game, the random numbers, and the commands that were queued. -/
structure RecordedSession (Payload World : Type) where
  world : World
  rng : Rng
  enqueued : List (Command Payload)

/-- What handlers meet outside: a publisher, a queue that may refuse commands, and the host's own
random numbers. -/
structure SessionHost (Payload EventPayload : Type) where
  publish : String → EventPayload → Except String Unit
  accepts : Command Payload → Bool
  fallbackSeed : UInt32

/-- The registered handlers. -/
abbrev RecordedDispatcher (Payload EventPayload World : Type) :=
  String → Option (Payload → ExecutionContext → RecordedProgram Payload EventPayload World)

/-- Run a handler. What it did before it throws stays. -/
def RecordedProgram.run (host : SessionHost Payload EventPayload) :
    RecordedProgram Payload EventPayload World → RecordedSession Payload World →
      RecordedSession Payload World
  | .done, s => s
  | .raise _, s => s
  | .random next, s =>
      let drawn := s.rng.seededRandom host.fallbackSeed
      (next drawn.1).run host { s with rng := drawn.2 }
  | .enqueue command next, s =>
      (next (host.accepts command)).run host { s with enqueued := s.enqueued ++ [command] }
  | .publish eventType payload next, s => (next (host.publish eventType payload)).run host s
  | .read next, s => (next s.world).run host s
  | .write world next, s => next.run host { s with world }

/-- `execute` and `executeReplayCommand`: unknown and unauthorized commands do nothing, and an error
is recorded and not rethrown. The queued commands are those of this command. -/
def executeRecorded (dispatcher : RecordedDispatcher Payload EventPayload World)
    (host : SessionHost Payload EventPayload) (command : Command Payload)
    (s : RecordedSession Payload World) : RecordedSession Payload World :=
  let s := { s with enqueued := [] }
  match dispatcher command.type with
  | none => s
  | some handler =>
      if authorizeCommand command = false then s
      else (handler command.payload
        { step := command.step, timestamp := command.timestamp, priority := command.priority }).run
          host s

/-! ### The recorder -/

/-- `Math.max`. -/
def JsNumber.max : JsNumber → JsNumber → JsNumber
  | .nan, _ => .nan
  | _, .nan => .nan
  | a, b => if a.le b then b else a

/-- `value + 1`. -/
def JsNumber.addOne : JsNumber → JsNumber
  | .fin value => .fin (value + 1)
  | value => value

/-- The recorder; states and commands are kept as the values that were cloned. -/
structure CommandRecorder (Payload World : Type) where
  startState : World
  rngSeed : Option JsNumber
  commands : List (Command Payload)
  lastRecordedStep : JsNumber

structure CommandLog (Payload World : Type) where
  startState : World
  commands : List (Command Payload)
  seed : Option JsNumber
  lastStep : JsNumber

/-- `getCurrentRNGSeed`, as a number. -/
def Rng.seedNumber (rng : Rng) : Option JsNumber := rng.currentSeed.map fun seed => .fin seed.toNat

namespace CommandRecorder

/-- `refreshSeedSnapshot`. -/
def refreshSeedSnapshot (recorder : CommandRecorder Payload World) (rng : Rng) :
    CommandRecorder Payload World :=
  { recorder with rngSeed := recorder.rngSeed.or rng.seedNumber }

/-- A recorder is made, or cleared. -/
def create (currentState : World) (seed : Option JsNumber) (rng : Rng) :
    CommandRecorder Payload World :=
  refreshSeedSnapshot
    { startState := currentState, rngSeed := seed, commands := [], lastRecordedStep := .fin (-1) } rng

/-- `record`. -/
def record (recorder : CommandRecorder Payload World) (command : Command Payload) (rng : Rng) :
    CommandRecorder Payload World :=
  let recorder := recorder.refreshSeedSnapshot rng
  { recorder with
    commands := recorder.commands ++ [command]
    lastRecordedStep := recorder.lastRecordedStep.max command.step }

/-- `export`. -/
def exportLog (recorder : CommandRecorder Payload World) (rng : Rng) : CommandLog Payload World :=
  let recorder := recorder.refreshSeedSnapshot rng
  { startState := recorder.startState
    commands := recorder.commands
    seed := recorder.rngSeed
    lastStep := recorder.lastRecordedStep }

/-- The recorder at the end of a live run, in which every command is recorded and then executed. -/
def recordAll (dispatcher : RecordedDispatcher Payload EventPayload World)
    (host : SessionHost Payload EventPayload) : List (Command Payload) →
    CommandRecorder Payload World → RecordedSession Payload World → CommandRecorder Payload World
  | [], recorder, _ => recorder
  | command :: rest, recorder, s =>
      recordAll dispatcher host rest (recorder.record command s.rng)
        (executeRecorded dispatcher host command s)

/-- The session at the end of a live run. -/
def lastSession (dispatcher : RecordedDispatcher Payload EventPayload World)
    (host : SessionHost Payload EventPayload) (commands : List (Command Payload))
    (s : RecordedSession Payload World) : RecordedSession Payload World :=
  commands.foldl (fun s command => executeRecorded dispatcher host command s) s

/-- What each command of a live run queued. -/
def queuedBy (dispatcher : RecordedDispatcher Payload EventPayload World)
    (host : SessionHost Payload EventPayload) :
    List (Command Payload) → RecordedSession Payload World → List (List (Command Payload))
  | [], _ => []
  | command :: rest, s =>
      let s := executeRecorded dispatcher host command s
      s.enqueued :: queuedBy dispatcher host rest s

end CommandRecorder

/-! ### The replay -/

section Followups

variable [DecidableEq Payload]

/-- `commandsEqual`. -/
def commandsEqual (left right : Command Payload) : Bool :=
  left.type = right.type && left.priority = right.priority && left.step = right.step &&
    left.timestamp = right.timestamp && left.payload = right.payload

/-- `findMatchingFutureCommandIndex`. -/
def findMatchingFutureCommandIndex (commands : List (Command Payload)) (candidate : Command Payload)
    (startIndex : ℕ) (claimedIndices : List ℕ) : Option ℕ :=
  (List.range commands.length).find? fun i =>
    decide (startIndex ≤ i) && !claimedIndices.contains i &&
      (commands[i]?).any fun command => commandsEqual command candidate

/-- `verifyReplaySandboxedEnqueues`: the indices claimed afterwards, or nothing when a command is
missing. -/
def verifyReplaySandboxedEnqueues (commands : List (Command Payload)) (currentIndex : ℕ) :
    List (Command Payload) → List ℕ → Option (List ℕ)
  | [], claimedIndices => some claimedIndices
  | queued :: rest, claimedIndices =>
      match findMatchingFutureCommandIndex commands queued (currentIndex + 1) claimedIndices with
      | none => none
      | some index =>
          verifyReplaySandboxedEnqueues commands currentIndex rest (claimedIndices ++ [index])

/-- Every command that was queued stands further back in the log: the check of the replay, command
by command. -/
def followupsFrom (commands : List (Command Payload)) :
    ℕ → List (List (Command Payload)) → List ℕ → Bool
  | _, [], _ => true
  | index, queued :: rest, claimedIndices =>
      match verifyReplaySandboxedEnqueues commands index queued claimedIndices with
      | none => false
      | some claimedIndices => followupsFrom commands (index + 1) rest claimedIndices

end Followups

/-- The process in which a replay runs. -/
structure ReplayProcess (World : Type) where
  world : World
  rng : Rng
  currentStep : JsNumber
  nextExecutableStep : JsNumber

/-- What the caller of a replay hands over: the publisher of the runtime, if any, and how many
commands the queue has. -/
structure ReplayContext (EventPayload : Type) where
  eventPublisher : Option (String → EventPayload → Except String Unit)
  queueSize : ℕ
  fallbackSeed : UInt32

/-- `DEFAULT_REPLAY_EVENT_PUBLISHER`. -/
def defaultReplayEventPublisher (_ : String) (_ : EventPayload) : Except String Unit :=
  .error "Event publisher is not configured for replay execution."

/-- The host of a replay: the queue takes every command and executes none. -/
def ReplayContext.host (context : ReplayContext EventPayload) : SessionHost Payload EventPayload :=
  { publish := context.eventPublisher.getD defaultReplayEventPublisher
    accepts := fun _ => true
    fallbackSeed := context.fallbackSeed }

namespace CommandRecorder

/-- `applyReplaySeed`. -/
def applyReplaySeed (seed : Option JsNumber) (rng : Rng) : Rng :=
  seed.elim rng fun seed => .setRNGSeed seed.toUint32

/-- `restorePreviousSeed`: the seed from before the replay, at its start. -/
def restorePreviousSeed (seed : Option JsNumber) (previous rng : Rng) : Rng :=
  if seed = none then rng else previous.currentSeed.elim .resetRNG .setRNGSeed

variable [DecidableEq Payload]

def missingFollowupMessage : String :=
  "Replay log is missing a command that was enqueued during handler execution."

/-- The loop of `replay`. -/
def replayLoop (dispatcher : RecordedDispatcher Payload EventPayload World)
    (host : SessionHost Payload EventPayload) (commands : List (Command Payload)) :
    ℕ → List (Command Payload) → List ℕ → RecordedSession Payload World →
      Except String Unit × RecordedSession Payload World
  | _, [], _, s => (.ok (), s)
  | index, command :: rest, claimedIndices, s =>
      let s := executeRecorded dispatcher host command s
      match verifyReplaySandboxedEnqueues commands index s.enqueued claimedIndices with
      | none => (.error missingFollowupMessage, s)
      | some claimedIndices => replayLoop dispatcher host commands (index + 1) rest claimedIndices s

/-- `resolveReplayFinalStep`. -/
def resolveReplayFinalStep (log : CommandLog Payload World) : JsNumber :=
  if (JsNumber.fin 0).le log.lastStep then log.lastStep
  else log.commands.foldl (fun step command => step.max command.step) (.fin (-1))

/-- `replay`. A replay that throws goes back to the start of the log. -/
def replay (log : CommandLog Payload World)
    (dispatcher : RecordedDispatcher Payload EventPayload World)
    (context : ReplayContext EventPayload) (process : ReplayProcess World) :
    Except String Unit × ReplayProcess World :=
  if context.queueSize ≠ 0 then
    (.error "Command queue must be empty before replay begins.",
      { process with
        world := log.startState
        rng := restorePreviousSeed log.seed process.rng (applyReplaySeed log.seed process.rng) })
  else
    let s : RecordedSession Payload World :=
      { world := log.startState, rng := applyReplaySeed log.seed process.rng, enqueued := [] }
    match replayLoop dispatcher context.host log.commands 0 log.commands [] s with
    | (.error error, s) =>
        (.error error,
          { process with
            world := log.startState
            rng := restorePreviousSeed log.seed process.rng s.rng })
    | (.ok _, s) =>
        let finalStep := resolveReplayFinalStep log
        if (JsNumber.fin 0).le finalStep then
          (.ok (), { world := s.world, rng := s.rng, currentStep := finalStep.addOne,
                     nextExecutableStep := finalStep.addOne })
        else (.ok (), { process with world := s.world, rng := s.rng })

end CommandRecorder

end IdleEngine
