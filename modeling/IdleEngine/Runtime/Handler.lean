import IdleEngine.Command.Queue
import IdleEngine.Events.EventBus
import IdleEngine.Lib.TwoState
import IdleEngine.Runtime.Backlog

/-!
# The runtime's state and the programs that run inside a step

Command handlers, event handlers and systems are arbitrary programs over the runtime's public
interface: they read the clock and the backlog, keep state of their own (`World`), credit time,
queue commands, publish events and throw. `HandlerProgram` is the type of such programs and
`HandlerProgram.run` their meaning.

`acceptedMs` is a history variable: the amounts of time that `tick`, `fastForward` and
`creditTime` accepted, newest first. Nothing reads it.
-/

namespace IdleEngine

open TwoState

variable {Payload EventPayload World : Type}

/-- The runtime between two actions. -/
structure RuntimeState (Payload EventPayload World : Type) where
  accumulators : Accumulators
  currentStep : ℚ
  nextExecutableStep : ℚ
  commandQueue : CommandQueue Payload
  eventBus : EventBus EventPayload
  world : World
  acceptedMs : List ℚ

/-- What a handler can read of the runtime. -/
structure RuntimeView where
  currentStep : ℚ
  nextExecutableStep : ℚ
  hostFrameMs : ℚ
  creditedMs : ℚ
  totalMs : ℚ
  queueSize : ℤ

/-- The runtime's getters. -/
def RuntimeState.view (s : RuntimeState Payload EventPayload World) : RuntimeView :=
  { currentStep := s.currentStep
    nextExecutableStep := s.nextExecutableStep
    hostFrameMs := s.accumulators.hostFrameMs
    creditedMs := s.accumulators.creditedMs
    totalMs := s.accumulators.totalMs
    queueSize := s.commandQueue.size }

/-- A program over the runtime's public interface. -/
inductive HandlerProgram (Payload EventPayload World : Type)
  | done
  | raise (error : String)
  | creditTime (deltaMs : JsNumber) (next : HandlerProgram Payload EventPayload World)
  | enqueue (command : Command Payload)
      (next : Except String Bool → HandlerProgram Payload EventPayload World)
  | publish (eventType : String) (payload : EventPayload) (issuedAt : Option ℚ)
      (next : Except String Unit → HandlerProgram Payload EventPayload World)
  | read (next : RuntimeView → World → HandlerProgram Payload EventPayload World)
  | write (world : World) (next : HandlerProgram Payload EventPayload World)

/-- A runtime computation: a throw keeps the state reached. -/
abbrev RuntimeM (Payload EventPayload World : Type) :=
  EStateM String (RuntimeState Payload EventPayload World)

/-- `creditTime`: anything but a positive finite number is ignored. -/
def creditTime (deltaMs : JsNumber) : RuntimeM Payload EventPayload World PUnit :=
  match deltaMs.finite? with
  | none => pure ⟨⟩
  | some deltaMs =>
      if deltaMs ≤ 0 then pure ⟨⟩
      else modify fun s =>
        { s with
          accumulators := s.accumulators.addCredited deltaMs
          acceptedMs := deltaMs :: s.acceptedMs }

/-- `commandQueue.enqueue` on the runtime's queue. -/
def enqueueCommand (cloneStructured : Payload → Except String Payload)
    (command : Command Payload) : RuntimeM Payload EventPayload World (Except String Bool) := do
  let s ← get
  let (result, commandQueue) := s.commandQueue.enqueue cloneStructured command
  modify fun s => { s with commandQueue }
  return result

/-- `eventBus.publish` on the runtime's bus. -/
def publishEvent (eventType : String) (payload : EventPayload) (issuedAt : Option ℚ) :
    RuntimeM Payload EventPayload World (Except String Unit) := do
  let s ← get
  let (result, eventBus) := s.eventBus.publish eventType payload issuedAt
  modify fun s => { s with eventBus }
  return result

/-- Run a handler. -/
def HandlerProgram.run (cloneStructured : Payload → Except String Payload) :
    HandlerProgram Payload EventPayload World → RuntimeM Payload EventPayload World PUnit
  | .done => pure ⟨⟩
  | .raise error => throw error
  | .creditTime deltaMs next => do
      IdleEngine.creditTime deltaMs
      next.run cloneStructured
  | .enqueue command next => do
      let result ← enqueueCommand cloneStructured command
      (next result).run cloneStructured
  | .publish eventType payload issuedAt next => do
      let result ← publishEvent eventType payload issuedAt
      (next result).run cloneStructured
  | .read next => do
      let s ← get
      (next s.view s.world).run cloneStructured
  | .write world next => do
      modify fun s => { s with world }
      next.run cloneStructured

end IdleEngine
