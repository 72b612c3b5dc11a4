import IdleEngine.Events.EventBus

/-!
# Dispatching, step by step

A dispatch runs handlers, and a handler may do anything to the bus while it runs: publish to any
channel, subscribe, cancel its own subscription or another's. `DispatchState` is the bus in the
middle of such a run, and `DispatchState.step` makes the next move of the source's loops: choose the
next event, go to the next subscriber of its channel, and so on. What handlers and the code around
the dispatch do is not fixed; it is the list of actions of the run. Handlers do not call `dispatch`
or `beginTick` themselves.

Beside the bus the state remembers what happened since the last `beginTick`: the events that were
accepted, and for every event that was dispatched its **pass** over the subscribers of its channel.
Subscriptions are numbered in the order in which they were made.
-/

namespace IdleEngine

variable {EventPayload : Type}

namespace EventBus

/-- `on`: subscribe to the channel of an event type, under the number of the new subscription. -/
def on (bus : EventBus EventPayload) (eventType : String) (handler : ℕ) :
    Except String Unit × EventBus EventPayload :=
  let index := bus.channels.findIdx fun channel => channel.type == eventType
  match bus.channels[index]? with
  | none => (.error (unknownTypeMessage eventType), bus)
  | some _ =>
      (.ok (), { bus with
        channels := bus.channels.modify index fun channel =>
          { channel with subscribers := channel.subscribers ++ [{ active := true, handler }] } })

/-- `unsubscribe`: the record stays in its array until the next tick. -/
def unsubscribe (bus : EventBus EventPayload) (handler : ℕ) : EventBus EventPayload :=
  { bus with
    channels := bus.channels.map fun channel =>
      { channel with
        subscribers := channel.subscribers.map fun subscriber =>
          if subscriber.handler = handler then { subscriber with active := false }
          else subscriber } }

/-- The subscriptions of a channel. -/
def subscribersOf (bus : EventBus EventPayload) (channelIndex : ℕ) : List EventSubscriber :=
  (bus.channels[channelIndex]?).elim [] (·.subscribers)

/-- The internal buffer of a channel. -/
def internalOf (bus : EventBus EventPayload) (channelIndex : ℕ) : List (EventSlot EventPayload) :=
  (bus.channels[channelIndex]?).elim [] (·.internalBuffer)

/-- The outbound buffer of a channel. -/
def outboundOf (bus : EventBus EventPayload) (channelIndex : ℕ) : List (EventSlot EventPayload) :=
  (bus.channels[channelIndex]?).elim [] (·.outboundBuffer)

/-- The channel of an event type and the slot that `publish` fills for an event. -/
def publishedEvent (bus : EventBus EventPayload) (eventType : String) (payload : EventPayload)
    (issuedAt : Option ℚ) : ℕ × EventSlot EventPayload :=
  (bus.channels.findIdx fun channel => channel.type == eventType,
    { type := eventType
      tick := bus.currentTick
      issuedAt := issuedAt.getD bus.now
      payload
      dispatchOrder := bus.dispatchCounter })

end EventBus

/-- Where a dispatch stands: at the top of its loop with one cursor per channel; at a position in
the subscriptions of the channel of the chosen event; or in the handler of that position. -/
inductive DispatchControl (EventPayload : Type)
  | idle
  | selecting (cursors : List ℕ)
  | delivering (cursors : List ℕ) (channelIndex : ℕ) (slot : EventSlot EventPayload) (position : ℕ)
  | handling (cursors : List ℕ) (channelIndex : ℕ) (slot : EventSlot EventPayload) (position : ℕ)

/-- One event's way over the subscriptions of its channel: every subscription it came to, in order,
with whether it was active, and so was handed the event, at that moment. `closedAt` is the number
of the next subscription when the pass was over. -/
structure DispatchPass (EventPayload : Type) where
  channelIndex : ℕ
  slot : EventSlot EventPayload
  visits : List (ℕ × Bool)
  closedAt : ℕ

/-- The event of a pass. -/
def DispatchPass.event (pass : DispatchPass EventPayload) : ℕ × EventSlot EventPayload :=
  (pass.channelIndex, pass.slot)

/-- The bus in a run, with the memory of the run: the visits of the pass under way, the events
accepted and the passes made since the last `beginTick`, the events accepted since the outbound
buffers were last reset, and whether a handler threw since the last `beginTick`. -/
structure DispatchState (EventPayload : Type) where
  bus : EventBus EventPayload
  control : DispatchControl EventPayload
  nextSubscription : ℕ
  visits : List (ℕ × Bool)
  accepted : List (ℕ × EventSlot EventPayload)
  passes : List (DispatchPass EventPayload)
  exported : List (ℕ × EventSlot EventPayload)
  thrown : Bool

/-- The moves of a run. `advance` is the next move of the dispatch loops; `returns` and `throws` end
the handler that runs. -/
inductive BusAction (EventPayload : Type)
  | beginTick (tick : ℚ) (resetOutbound : Bool)
  | publish (eventType : String) (payload : EventPayload) (issuedAt : Option ℚ)
  | on (eventType : String)
  | unsubscribe (handler : ℕ)
  | dispatch
  | advance
  | returns
  | throws

namespace DispatchState

/-- A run on a bus begins. -/
def create (bus : EventBus EventPayload) : DispatchState EventPayload :=
  { bus, control := .idle, nextSubscription := 0, visits := [], accepted := [], passes := [],
    exported := [], thrown := false }

/-- Code outside the bus is running: a handler, or whoever calls the bus between dispatches. -/
def callable (s : DispatchState EventPayload) : Bool :=
  match s.control with
  | .idle => true
  | .handling _ _ _ _ => true
  | _ => false

/-- `beginTick`. -/
def beginTick (s : DispatchState EventPayload) (tick : ℚ) (resetOutbound : Bool) :
    DispatchState EventPayload :=
  { s with
    bus := s.bus.beginTick tick resetOutbound
    accepted := []
    passes := []
    exported := if resetOutbound then [] else s.exported
    thrown := false }

/-- `publish`; an event that is accepted is remembered. -/
def publish (s : DispatchState EventPayload) (eventType : String) (payload : EventPayload)
    (issuedAt : Option ℚ) : DispatchState EventPayload :=
  match s.bus.publish eventType payload issuedAt with
  | (.error _, bus) => { s with bus }
  | (.ok _, bus) =>
      let event := s.bus.publishedEvent eventType payload issuedAt
      { s with bus, accepted := s.accepted ++ [event], exported := s.exported ++ [event] }

/-- `on`. -/
def subscribe (s : DispatchState EventPayload) (eventType : String) : DispatchState EventPayload :=
  { s with
    bus := (s.bus.on eventType s.nextSubscription).2
    nextSubscription := s.nextSubscription + 1 }

/-- The next move of the loops of `dispatch`: take the next event or, when there is none, clear the
internal buffers and return; go to the next subscription of the channel or, behind the last one,
move the cursor of the channel on. A subscription made while the event is handed out is reached
too, since it is appended to the array that the loop walks over. -/
def advance (s : DispatchState EventPayload) : Option (DispatchState EventPayload) :=
  match s.control with
  | .idle => none
  | .selecting cursors =>
      match s.bus.findNextDispatchCandidate cursors with
      | none => some { s with bus := s.bus.clearInternalBuffers, control := .idle }
      | some (channelIndex, slot) =>
          some { s with control := .delivering cursors channelIndex slot 0, visits := [] }
  | .delivering cursors channelIndex slot position =>
      match (s.bus.subscribersOf channelIndex)[position]? with
      | none =>
          some { s with
            control := .selecting (cursors.modify channelIndex (· + 1))
            passes := s.passes ++
              [{ channelIndex, slot, visits := s.visits, closedAt := s.nextSubscription }] }
      | some subscriber =>
          let visits := s.visits ++ [(subscriber.handler, subscriber.active)]
          if subscriber.active then
            some { s with control := .handling cursors channelIndex slot position, visits }
          else some { s with control := .delivering cursors channelIndex slot (position + 1), visits }
  | .handling _ _ _ _ => none

/-- One move; nothing when the move is not possible now. A handler that throws leaves the dispatch,
and the buffers as they are. -/
def step (s : DispatchState EventPayload) :
    BusAction EventPayload → Option (DispatchState EventPayload)
  | .beginTick tick resetOutbound =>
      match s.control with
      | .idle => some (s.beginTick tick resetOutbound)
      | _ => none
  | .publish eventType payload issuedAt =>
      if s.callable then some (s.publish eventType payload issuedAt) else none
  | .on eventType => if s.callable then some (s.subscribe eventType) else none
  | .unsubscribe handler =>
      if s.callable then some { s with bus := s.bus.unsubscribe handler } else none
  | .dispatch =>
      match s.control with
      | .idle =>
          some { s with control := .selecting (List.replicate s.bus.channels.length 0) }
      | _ => none
  | .advance => s.advance
  | .returns =>
      match s.control with
      | .handling cursors channelIndex slot position =>
          some { s with control := .delivering cursors channelIndex slot (position + 1) }
      | _ => none
  | .throws =>
      match s.control with
      | .handling _ _ _ _ => some { s with control := .idle, thrown := true }
      | _ => none

/-- A run: every move has to be possible. -/
def run : List (BusAction EventPayload) → DispatchState EventPayload →
    Option (DispatchState EventPayload)
  | [], s => some s
  | action :: actions, s => (s.step action).bind (run actions)

end DispatchState

end IdleEngine
