import Mathlib.Algebra.Order.Floor.Semiring
import IdleEngine.Number

/-!
# The event bus

Every event type has a channel with two bounded buffers: the internal buffer feeds the
subscribers at the next dispatch, the outbound buffer is exported at the end of the frame.
`publish` refuses an event when either buffer is full and then aborts the rest of the tick.
The dispatch loop itself runs handlers and so lives with the runtime
(`IdleEngine.Runtime.Tick`); this module has the buffers and the choice of the next event.
-/

namespace IdleEngine

variable {EventPayload : Type}

/-- A buffered event. -/
structure EventSlot (EventPayload : Type) where
  type : String
  tick : ℚ
  issuedAt : ℚ
  payload : EventPayload
  dispatchOrder : ℕ

/-- A subscription: the handler's index in the runtime's table, and whether it is still
subscribed. -/
structure EventSubscriber where
  active : Bool
  handler : ℕ

/-- The state of one channel with the parts of its descriptor that `publish` reads. -/
structure EventChannel (EventPayload : Type) where
  type : String
  capacity : ℚ
  capacity_pos : 0 < capacity
  validator : EventPayload → Option String
  internalBuffer : List (EventSlot EventPayload)
  outboundBuffer : List (EventSlot EventPayload)
  subscribers : List EventSubscriber

/-- The bus. `now` is what the bus clock reads. -/
structure EventBus (EventPayload : Type) where
  channels : List (EventChannel EventPayload)
  currentTick : ℚ
  dispatchCounter : ℕ
  tickAborted : Bool
  lastOverflowError : Option String
  now : ℚ

namespace EventBus

/-- The message of an `EventBufferOverflowError`. -/
def overflowMessage (eventType : String) (channel : ℕ) (capacity : ℚ) : String :=
  s!"Event buffer overflow on channel {channel} for {eventType} (capacity {capacity})."

/-- The message for an event type that has no channel. -/
def unknownTypeMessage (eventType : String) : String :=
  "\n".intercalate
    ["Unknown runtime event type: " ++ eventType ++ ".",
      "If this event type comes from a content pack, ensure the pack defines " ++
        "`content/event-types.json`.",
      "Then run `pnpm generate` and rebuild `@idle-engine/core` to refresh the runtime event " ++
        "manifest."]

/-- Start a tick: empty the internal buffers, drop cancelled subscriptions, and empty the
outbound buffers too unless an earlier step of the same batch filled them. -/
def beginTick (bus : EventBus EventPayload) (tick : ℚ) (resetOutbound : Bool) :
    EventBus EventPayload :=
  { bus with
    currentTick := tick
    dispatchCounter := 0
    tickAborted := false
    lastOverflowError := none
    channels := bus.channels.map fun channel =>
      { channel with
        internalBuffer := []
        outboundBuffer := if resetOutbound then [] else channel.outboundBuffer
        subscribers := channel.subscribers.filter (·.active) } }

/-- A buffer is full. -/
def isAtCapacity (channel : EventChannel EventPayload) (buffer : List (EventSlot EventPayload)) :
    Bool :=
  decide (channel.capacity ≤ (buffer.length : ℚ))

/-- Publish an event into its channel; a full buffer aborts the tick. -/
def publish (bus : EventBus EventPayload) (eventType : String) (payload : EventPayload)
    (issuedAt : Option ℚ) : Except String Unit × EventBus EventPayload :=
  let index := bus.channels.findIdx fun channel => channel.type == eventType
  match bus.channels[index]? with
  | none => (.error (unknownTypeMessage eventType), bus)
  | some channel =>
      if bus.tickAborted then
        (.error (bus.lastOverflowError.getD
          (overflowMessage eventType index channel.capacity)), bus)
      else if isAtCapacity channel channel.internalBuffer ||
          isAtCapacity channel channel.outboundBuffer then
        let error := overflowMessage eventType index channel.capacity
        (.error error, { bus with tickAborted := true, lastOverflowError := some error })
      else
        let slot : EventSlot EventPayload :=
          { type := eventType
            tick := bus.currentTick
            issuedAt := issuedAt.getD bus.now
            payload
            dispatchOrder := bus.dispatchCounter }
        let bus := { bus with dispatchCounter := bus.dispatchCounter + 1 }
        match channel.validator payload with
        | some error => (.error error, bus)
        | none =>
            (.ok (), { bus with
              channels := bus.channels.modify index fun channel =>
                { channel with
                  internalBuffer := channel.internalBuffer ++ [slot]
                  outboundBuffer := channel.outboundBuffer ++ [slot] } })

/-- The earlier of two candidates, the one already held on a tie. -/
def earlier (held : Option (ℕ × EventSlot EventPayload)) (index : ℕ)
    (candidate : EventSlot EventPayload) : ℕ × EventSlot EventPayload :=
  match held with
  | none => (index, candidate)
  | some (heldIndex, slot) =>
      if candidate.dispatchOrder < slot.dispatchOrder then (index, candidate)
      else (heldIndex, slot)

/-- The next event to dispatch: among the channels' events at their cursors, the one published
first. -/
def findNextDispatchCandidate (bus : EventBus EventPayload) (cursors : List ℕ) :
    Option (ℕ × EventSlot EventPayload) :=
  bus.channels.zipIdx.foldl
    (fun held (channel, index) =>
      match channel.internalBuffer[cursors.getD index 0]? with
      | none => held
      | some candidate => some (earlier held index candidate)) none

/-- Empty the internal buffers after a dispatch. -/
def clearInternalBuffers (bus : EventBus EventPayload) : EventBus EventPayload :=
  { bus with channels := bus.channels.map fun channel => { channel with internalBuffer := [] } }

/-- No dispatch can see more events than the internal buffers hold. -/
def totalCapacity (bus : EventBus EventPayload) : ℕ :=
  (bus.channels.map fun channel => ⌈channel.capacity⌉₊).sum

end EventBus

end IdleEngine
