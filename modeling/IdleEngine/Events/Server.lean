import IdleEngine.Events.Frames

/-!
# A server that sends a frame after every tick

A tick runs **batches** of steps; a step begins on the bus and then publishes, subscribes and
dispatches in any order. The outbound buffers are reset by the first step of a batch and the dispatch
orders start over in every step, while a frame is built once, at the end. So a frame has the events
of the last batch only, and two steps of the batch can give their events the same key.

When a tick has neither (`EventServer.Tidy`), frames and events fit: after any number of ticks every
accepted event is in one frame, no two events have the same key, and a client that skips the keys it
has seen publishes them all (`EventServer.serveAll_exactlyOnce`).
-/

namespace IdleEngine

open EarliestHead List

variable {EventPayload : Type}

/-! ### What a step does to its bus -/

/-- A call on the bus from within a step. A dispatch that returns empties the internal buffers. -/
inductive BusCall (EventPayload : Type)
  | publish (eventType : String) (payload : EventPayload) (issuedAt : Option ℚ)
  | on (eventType : String) (handler : ℕ)
  | unsubscribe (handler : ℕ)
  | dispatched

/-- A step: its number, the time on the clock of the bus, and its calls. -/
structure BusStep (EventPayload : Type) where
  tick : ℚ
  now : ℚ
  calls : List (BusCall EventPayload)

/-- A batch has at least one step. -/
structure BusBatch (EventPayload : Type) where
  first : BusStep EventPayload
  rest : List (BusStep EventPayload)

def BusBatch.steps (batch : BusBatch EventPayload) : List (BusStep EventPayload) :=
  batch.first :: batch.rest

namespace EventBus

/-- One call, and the event that was accepted. -/
def call (bus : EventBus EventPayload) :
    BusCall EventPayload → EventBus EventPayload × List (ℕ × EventSlot EventPayload)
  | .publish eventType payload issuedAt =>
      match bus.publish eventType payload issuedAt with
      | (.ok _, bus') => (bus', [bus.publishedEvent eventType payload issuedAt])
      | (.error _, bus') => (bus', [])
  | .on eventType handler => ((bus.on eventType handler).2, [])
  | .unsubscribe handler => (bus.unsubscribe handler, [])
  | .dispatched => (bus.clearInternalBuffers, [])

/-- The calls of a step, and the events that were accepted. -/
def calls : List (BusCall EventPayload) → EventBus EventPayload →
    EventBus EventPayload × List (ℕ × EventSlot EventPayload)
  | [], bus => (bus, [])
  | call :: rest, bus =>
      let (bus, accepted) := bus.call call
      let (bus, more) := calls rest bus
      (bus, accepted ++ more)

/-- A step. -/
def runStep (bus : EventBus EventPayload) (resetOutbound : Bool) (step : BusStep EventPayload) :
    EventBus EventPayload × List (ℕ × EventSlot EventPayload) :=
  calls step.calls ({ bus with now := step.now }.beginTick step.tick resetOutbound)

/-- The steps of a batch behind the first one, and what each accepted. -/
def runSteps : List (BusStep EventPayload) → EventBus EventPayload →
    EventBus EventPayload × List (List (ℕ × EventSlot EventPayload))
  | [], bus => (bus, [])
  | step :: steps, bus =>
      let (bus, accepted) := bus.runStep false step
      let (bus, more) := runSteps steps bus
      (bus, accepted :: more)

/-- A batch, and what each of its steps accepted. -/
def runBatch (bus : EventBus EventPayload) (batch : BusBatch EventPayload) :
    EventBus EventPayload × List (List (ℕ × EventSlot EventPayload)) :=
  let (bus, accepted) := bus.runStep true batch.first
  let (bus, more) := runSteps batch.rest bus
  (bus, accepted :: more)

/-- Batches, and what each step of each batch accepted. -/
def runBatches : List (BusBatch EventPayload) → EventBus EventPayload →
    EventBus EventPayload × List (List (List (ℕ × EventSlot EventPayload)))
  | [], bus => (bus, [])
  | batch :: batches, bus =>
      let (bus, accepted) := bus.runBatch batch
      let (bus, more) := runBatches batches bus
      (bus, accepted :: more)

/-! ### The outbound buffers within a step -/

/-- The outbound buffers got some events, numbered by the dispatch counter. -/
structure Adds (bus bus' : EventBus EventPayload) (accepted : List (ℕ × EventSlot EventPayload)) :
    Prop where
  length : bus'.channels.length = bus.channels.length
  outbound : ∀ i, bus'.outboundOf i = bus.outboundOf i ++ stream i accepted
  inRange : ∀ event ∈ accepted, event.1 < bus.channels.length
  counter : bus.dispatchCounter ≤ bus'.dispatchCounter
  numbered : ∀ event ∈ accepted, bus.dispatchCounter ≤ event.2.dispatchOrder ∧
    event.2.dispatchOrder < bus'.dispatchCounter
  increasing : accepted.Pairwise fun a b => a.2.dispatchOrder < b.2.dispatchOrder

variable {bus : EventBus EventPayload}

/-- Nothing was accepted. -/
theorem adds_nil {bus' : EventBus EventPayload}
    (hlength : bus'.channels.length = bus.channels.length)
    (houtbound : ∀ i, bus'.outboundOf i = bus.outboundOf i)
    (hcounter : bus.dispatchCounter ≤ bus'.dispatchCounter) : Adds bus bus' [] := by
  refine ⟨hlength, ?_, ?_, hcounter, ?_, List.Pairwise.nil⟩
  · intro i
    rw [houtbound i, stream_nil, append_nil]
  · intro event hevent
    cases hevent
  · intro event hevent
    cases hevent

theorem Adds.trans {bus₁ bus₂ : EventBus EventPayload}
    {accepted more : List (ℕ × EventSlot EventPayload)} (h₁ : Adds bus bus₁ accepted)
    (h₂ : Adds bus₁ bus₂ more) : Adds bus bus₂ (accepted ++ more) := by
  refine ⟨h₂.length.trans h₁.length, ?_, ?_, h₁.counter.trans h₂.counter, ?_, ?_⟩
  · intro i
    rw [h₂.outbound, h₁.outbound, stream_append, append_assoc]
  · intro event hevent
    rcases mem_append.mp hevent with hold | hnew
    · exact h₁.inRange event hold
    · rw [← h₁.length]
      exact h₂.inRange event hnew
  · intro event hevent
    rcases mem_append.mp hevent with hold | hnew
    · exact ⟨(h₁.numbered event hold).1, (h₁.numbered event hold).2.trans_le h₂.counter⟩
    · exact ⟨h₁.counter.trans (h₂.numbered event hnew).1, (h₂.numbered event hnew).2⟩
  · refine pairwise_append.mpr ⟨h₁.increasing, h₂.increasing, ?_⟩
    intro a ha b hb
    exact (h₁.numbered a ha).2.trans_le (h₂.numbered b hb).1

theorem adds_call (bus : EventBus EventPayload) (busCall : BusCall EventPayload) :
    Adds bus (bus.call busCall).1 (bus.call busCall).2 := by
  rcases busCall with ⟨eventType, payload, issuedAt⟩ | ⟨eventType, handler⟩ | handler | _
  · rw [call]
    rcases hpublish : bus.publish eventType payload issuedAt with ⟨error | _, bus'⟩
    · obtain ⟨hchannels, hcounter⟩ := publish_error hpublish
      refine adds_nil (congrArg length hchannels) ?_ hcounter
      intro i
      change (bus'.channels[i]?).elim [] _ = _
      rw [hchannels]
      rfl
    · obtain ⟨hrange, hlength, hcounter, -, houtbound, -⟩ := publish_ok hpublish
      refine ⟨hlength, houtbound, ?_, ?_, ?_, pairwise_singleton _ _⟩
      · intro event hevent
        rw [mem_singleton.mp hevent]
        exact hrange
      · change bus.dispatchCounter ≤ bus'.dispatchCounter
        omega
      · intro event hevent
        rw [mem_singleton.mp hevent]
        refine ⟨le_rfl, ?_⟩
        change bus.dispatchCounter < bus'.dispatchCounter
        omega
  · obtain ⟨hlength, hcounter, -, houtbound, -⟩ := on_spec bus eventType handler
    exact adds_nil hlength houtbound hcounter.ge
  · obtain ⟨hlength, -, houtbound, -⟩ := unsubscribe_spec bus handler
    exact adds_nil hlength houtbound le_rfl
  · obtain ⟨hlength, -, houtbound, -⟩ := clearInternalBuffers_spec bus
    exact adds_nil hlength houtbound le_rfl

theorem adds_calls (busCalls : List (BusCall EventPayload)) (bus : EventBus EventPayload) :
    Adds bus (calls busCalls bus).1 (calls busCalls bus).2 := by
  induction busCalls generalizing bus with
  | nil => exact adds_nil rfl (fun _ => rfl) le_rfl
  | cons busCall rest ih => exact (adds_call bus busCall).trans (ih _)

theorem calls_append (before after : List (BusCall EventPayload)) (bus : EventBus EventPayload) :
    (calls (before ++ after) bus).1 = (calls after (calls before bus).1).1 := by
  induction before generalizing bus with
  | nil => rfl
  | cons busCall before ih => exact ih _

/-! ### The outbound buffers within a batch -/

/-- The outbound buffers have some events, and every step numbered its own. -/
structure Holding (bus : EventBus EventPayload) (log : List (List (ℕ × EventSlot EventPayload))) :
    Prop where
  outbound : ∀ i, bus.outboundOf i = stream i log.flatten
  inRange : ∀ event ∈ log.flatten, event.1 < bus.channels.length
  increasing : ∀ accepted ∈ log, accepted.Pairwise fun a b => a.2.dispatchOrder < b.2.dispatchOrder

variable {log : List (List (ℕ × EventSlot EventPayload))}

theorem holding_runStep {resetOutbound : Bool}
    (h : if resetOutbound then log = [] else bus.Holding log) (step : BusStep EventPayload) :
    (bus.runStep resetOutbound step).1.Holding
      (log ++ [(bus.runStep resetOutbound step).2]) := by
  obtain ⟨hlength, -, houtbound, -⟩ :=
    beginTick_spec { bus with now := step.now } step.tick resetOutbound
  have hadds := adds_calls step.calls ({ bus with now := step.now }.beginTick step.tick resetOutbound)
  -- what the buffers hold when the step has begun
  have hbegun : ({ bus with now := step.now }.beginTick step.tick resetOutbound).Holding log := by
    rcases resetOutbound with _ | _
    · have hold : bus.Holding log := h
      refine ⟨?_, ?_, hold.increasing⟩
      · intro i
        exact (houtbound i).trans (hold.outbound i)
      · rw [hlength]
        exact hold.inRange
    · have hnone : log = [] := h
      subst hnone
      refine ⟨houtbound, ?_, ?_⟩
      · intro event hevent
        cases hevent
      · intro accepted haccepted
        cases haccepted
  rw [runStep]
  refine ⟨?_, ?_, ?_⟩
  · intro i
    rw [hadds.outbound, hbegun.outbound, flatten_append, stream_append]
    simp only [flatten_cons, flatten_nil, append_nil]
  · rw [hadds.length, flatten_append]
    intro event hevent
    rcases mem_append.mp hevent with hold | hnew
    · exact hbegun.inRange event hold
    · refine hadds.inRange event ?_
      simpa only [flatten_cons, flatten_nil, append_nil] using hnew
  · intro accepted haccepted
    rcases mem_append.mp haccepted with hold | hnew
    · exact hbegun.increasing accepted hold
    · rw [mem_singleton.mp hnew]
      exact hadds.increasing

theorem holding_runSteps (steps : List (BusStep EventPayload)) (h : bus.Holding log) :
    (runSteps steps bus).1.Holding (log ++ (runSteps steps bus).2) := by
  induction steps generalizing bus log with
  | nil =>
    change bus.Holding (log ++ [])
    rw [append_nil]
    exact h
  | cons step steps ih =>
    have hnext := ih (holding_runStep (show if false = true then log = [] else bus.Holding log from h)
      step)
    rw [append_assoc] at hnext
    exact hnext

/-- **After a batch the outbound buffers have its events**, and no others. -/
theorem holding_runBatch (bus : EventBus EventPayload) (batch : BusBatch EventPayload) :
    (bus.runBatch batch).1.Holding (bus.runBatch batch).2 :=
  holding_runSteps batch.rest
    (holding_runStep (show if true = true then ([] : List (List (ℕ × EventSlot EventPayload))) = []
      else bus.Holding [] from rfl) batch.first)

theorem holding_runBatches (batches : List (BusBatch EventPayload)) (bus : EventBus EventPayload)
    (h : (runBatches batches bus).2.getLast? = some log) :
    (runBatches batches bus).1.Holding log := by
  induction batches generalizing bus with
  | nil => cases h
  | cons batch batches ih =>
    rcases hrest : batches with _ | ⟨next, others⟩
    · subst hrest
      obtain rfl := Option.some.inj h
      exact holding_runBatch bus batch
    · rw [← hrest]
      refine ih _ ?_
      change ((bus.runBatch batch).2 :: (runBatches batches (bus.runBatch batch).1).2).getLast? =
        some log at h
      rw [hrest] at h ⊢
      change ((bus.runBatch batch).2 :: (_ :: _)).getLast? = some log at h
      rw [getLast?_cons_cons] at h
      exact h

theorem runBatches_append (before after : List (BusBatch EventPayload))
    (bus : EventBus EventPayload) :
    (runBatches (before ++ after) bus).1 = (runBatches after (runBatches before bus).1).1 := by
  induction before generalizing bus with
  | nil => rfl
  | cons batch before ih => exact ih _

end EventBus

/-! ### The server -/

/-- What a server does in a tick: it runs some batches and builds a frame of the outbound buffers,
which is sent without a filter. -/
structure ServerTick where
  batches : List (BusBatch JsValue)
  tick : ℚ
  format : RuntimeEventFrameFormat
  options : EventBroadcastFrameOptions
  unfiltered : options.filter = none

/-- The server step of the frame. -/
def ServerTick.serverStep (serverTick : ServerTick) : ℚ :=
  serverTick.options.serverStep.getD serverTick.tick

/-- The bus of a server and the frames it sent, with the events that were accepted since it
started. -/
structure EventServer where
  bus : EventBus JsValue
  frames : List EventBroadcastFrame
  accepted : List (ℕ × EventSlot JsValue)

namespace EventServer

def create (bus : EventBus JsValue) : EventServer := { bus, frames := [], accepted := [] }

/-- The events that a tick accepts, for each step of each batch. -/
def log (server : EventServer) (serverTick : ServerTick) :
    List (List (List (ℕ × EventSlot JsValue))) :=
  (EventBus.runBatches serverTick.batches server.bus).2

variable (numbers : JsonText.NumberText ℚ) (manifestHash : String)

/-- The frame that a tick sends. -/
def frame (server : EventServer) (serverTick : ServerTick) : EventBroadcastFrame :=
  createEventBroadcastFrame numbers
    (buildRuntimeEventFrame (EventBus.runBatches serverTick.batches server.bus).1 serverTick.tick
      manifestHash serverTick.format)
    serverTick.options

/-- A tick. -/
def serve (server : EventServer) (serverTick : ServerTick) : EventServer :=
  { bus := (EventBus.runBatches serverTick.batches server.bus).1
    frames := server.frames ++ [server.frame numbers manifestHash serverTick]
    accepted := server.accepted ++ (server.log serverTick).flatten.flatten }

/-- A run of ticks. -/
def serveAll (serverTicks : List ServerTick) (server : EventServer) : EventServer :=
  serverTicks.foldl (serve numbers manifestHash) server

/-- The events of the frames, each with the server step of its frame. -/
def sent (server : EventServer) : List (ℚ × SerializedRuntimeEvent) :=
  server.frames.flatMap fun frame =>
    frame.events.map fun event => (frame.serverStep.finite?.getD 0, event)

/-- **Frames are lossless**: every accepted event is in one frame, different events of the frames
have different keys, and a client that skips the keys it has seen publishes every event. -/
structure ExactlyOnce (steps : StepText) (server : EventServer) : Prop where
  complete : (server.frames.flatMap (·.events)).Perm
    (server.accepted.map fun event => event.2.toRecord event.1)
  distinct : (server.sent.map fun event => dedupKey steps event.1 event.2).Nodup
  delivered : ∀ capacity (hpos : 0 < capacity),
    (EventBroadcastDeduper.create capacity hpos).delivered steps server.sent = server.sent

/-- What a tick has to keep away from, so that its frame has every event of it under a key of its
own. -/
structure Tidy (server : EventServer) (serverTick : ServerTick) : Prop where
  /-- only the last batch accepts events -/
  earlier : ∀ batch ∈ (server.log serverTick).dropLast, batch.flatten = []
  /-- no two steps of the last batch accept events of one type at the same dispatch order -/
  apart : ∀ batch, (server.log serverTick).getLast? = some batch →
    batch.Pairwise fun accepted accepted' => ∀ event ∈ accepted, ∀ event' ∈ accepted',
      event.2.type = event'.2.type → event.2.dispatchOrder ≠ event'.2.dispatchOrder
  /-- a tick without a batch finds the outbound buffers empty -/
  idle : serverTick.batches = [] → ∀ i, server.bus.outboundOf i = []
  /-- dispatch orders fit their column -/
  narrow : ∀ event ∈ (server.log serverTick).flatten.flatten, event.2.dispatchOrder < 2 ^ 32
  /-- a tick that accepts events has a step that no earlier frame with events has -/
  fresh : ∀ earlier ∈ server.frames, earlier.events ≠ [] →
    earlier.serverStep = .fin serverTick.serverStep → (server.log serverTick).flatten.flatten = []

/-- Every tick of a run is tidy. -/
def AllTidy : List ServerTick → EventServer → Prop
  | [], _ => True
  | serverTick :: rest, server =>
      server.Tidy serverTick ∧ AllTidy rest (server.serve numbers manifestHash serverTick)

variable {numbers manifestHash} {server : EventServer} {serverTick : ServerTick}

theorem length_log (batches : List (BusBatch EventPayload)) (bus : EventBus EventPayload) :
    (EventBus.runBatches batches bus).2.length = batches.length := by
  induction batches generalizing bus with
  | nil => rfl
  | cons batch batches ih => exact congrArg (· + 1) (ih _)

theorem Tidy.log_cases (h : server.Tidy serverTick) :
    (serverTick.batches = [] ∧ (server.log serverTick).flatten.flatten = []) ∨
      ∃ batch, (server.log serverTick).getLast? = some batch ∧
        (server.log serverTick).flatten.flatten = batch.flatten := by
  rcases hlog : (server.log serverTick).getLast? with _ | batch
  · have hnone : server.log serverTick = [] := getLast?_eq_none_iff.mp hlog
    refine .inl ⟨?_, ?_⟩
    · rw [← length_eq_zero_iff, ← length_log _ server.bus, ← log, hnone, length_nil]
    · rw [hnone]
      rfl
  · refine .inr ⟨batch, rfl, ?_⟩
    obtain ⟨before, hbefore⟩ := getLast?_eq_some_iff.mp hlog
    have hearlier : before.flatten.flatten = [] := by
      refine flatten_eq_nil_iff.mpr ?_
      intro accepted haccepted
      obtain ⟨other, hother, hmem⟩ := mem_flatten.mp haccepted
      refine flatten_eq_nil_iff.mp (h.earlier other ?_) accepted hmem
      rw [hbefore, dropLast_concat]
      exact hother
    rw [hbefore, flatten_append, flatten_append, hearlier, nil_append,
      flatten_cons, flatten_nil, append_nil]

/-- **A tidy tick sends what it accepted.** -/
theorem Tidy.perm_events (h : server.Tidy serverTick) :
    (server.frame numbers manifestHash serverTick).events.Perm
      ((server.log serverTick).flatten.flatten.map fun event => event.2.toRecord event.1) := by
  have houtbound : (EventBus.runBatches serverTick.batches server.bus).1.outboundRecords.Perm
      ((server.log serverTick).flatten.flatten.map fun event => event.2.toRecord event.1) := by
    rcases h.log_cases with ⟨hbatches, hnone⟩ | ⟨batch, hlast, hall⟩
    · rw [hnone, hbatches]
      refine EventBus.perm_outboundRecords (h.idle hbatches) ?_
      intro event hevent
      cases hevent
    · have hholding := EventBus.holding_runBatches _ _ hlast
      rw [hall]
      exact EventBus.perm_outboundRecords hholding.outbound hholding.inRange
  refine (perm_createEventBroadcastFrame numbers _ _ serverTick.unfiltered).trans ?_
  rw [serializeRuntimeEventFrame_build]
  · exact houtbound
  · intro record hrecord
    obtain ⟨event, hevent, rfl⟩ := mem_map.mp (houtbound.subset hrecord)
    exact h.narrow event hevent

theorem Tidy.nodup_keys (h : server.Tidy serverTick) (steps : StepText) :
    ((server.log serverTick).flatten.flatten.map fun event =>
      dedupKey steps serverTick.serverStep (event.2.toRecord event.1)).Nodup := by
  rcases h.log_cases with ⟨-, hnone⟩ | ⟨batch, hlast, hall⟩
  · rw [hnone]
    exact nodup_nil
  · rw [hall]
    have hapart : batch.flatten.Pairwise fun event event' =>
        event.2.type = event'.2.type → event.2.dispatchOrder ≠ event'.2.dispatchOrder := by
      refine pairwise_flatten.mpr ⟨?_, h.apart batch hlast⟩
      intro accepted haccepted
      refine ((EventBus.holding_runBatches _ _ hlast).increasing accepted haccepted).imp ?_
      intro event event' hlt _
      exact hlt.ne
    refine pairwise_map.mpr (hapart.imp ?_)
    intro event event' hne hkeys
    obtain ⟨-, horder, htype⟩ := dedupKey_inj.mp hkeys
    exact hne htype horder

theorem serverStep_frame :
    (server.frame numbers manifestHash serverTick).serverStep = .fin serverTick.serverStep :=
  serverStep_createEventBroadcastFrame numbers _ _

/-- The keys of the events of a frame. -/
def frameKeys (steps : StepText) (frame : EventBroadcastFrame) : List (List Char) :=
  frame.events.map (dedupKey steps (frame.serverStep.finite?.getD 0))

theorem keys_sent (steps : StepText) (server : EventServer) :
    (server.sent.map fun event => dedupKey steps event.1 event.2) =
      server.frames.flatMap (frameKeys steps) := by
  rw [sent, map_flatMap]
  refine flatMap_congr ?_
  intro frame _
  rw [map_map]
  rfl

/-- What a run of tidy ticks keeps. -/
structure Sound (steps : StepText) (server : EventServer) : Prop where
  complete : (server.frames.flatMap (·.events)).Perm
    (server.accepted.map fun event => event.2.toRecord event.1)
  distinct : (server.frames.flatMap (frameKeys steps)).Nodup
  stepped : ∀ frame ∈ server.frames, ∃ step, frame.serverStep = .fin step

theorem sound_create (steps : StepText) (bus : EventBus JsValue) : (create bus).Sound steps := by
  refine ⟨List.Perm.refl _, nodup_nil, ?_⟩
  intro frame hframe
  cases hframe

variable {steps : StepText}

/-- **A tidy tick keeps frames and events together.** -/
theorem Sound.serve (h : server.Sound steps) (htidy : server.Tidy serverTick) :
    (server.serve numbers manifestHash serverTick).Sound steps := by
  have hevents : (server.frame numbers manifestHash serverTick).events.Perm
      ((server.log serverTick).flatten.flatten.map fun event => event.2.toRecord event.1) :=
    htidy.perm_events
  have hkeys : (frameKeys steps (server.frame numbers manifestHash serverTick)).Perm
      ((server.log serverTick).flatten.flatten.map fun event =>
        dedupKey steps serverTick.serverStep (event.2.toRecord event.1)) := by
    have hmapped := hevents.map (dedupKey steps serverTick.serverStep)
    rw [map_map] at hmapped
    rw [frameKeys, serverStep_frame]
    exact hmapped
  refine ⟨?_, ?_, ?_⟩
  · rw [EventServer.serve]
    dsimp only
    rw [flatMap_append, map_append, flatMap_singleton]
    exact h.complete.append hevents
  · rw [EventServer.serve]
    dsimp only
    rw [flatMap_append, flatMap_singleton]
    refine nodup_append.mpr ⟨h.distinct, hkeys.nodup_iff.mpr (htidy.nodup_keys steps), ?_⟩
    -- a common key would be of an earlier frame of the same step
    intro key hold key' hnew heq
    subst heq
    obtain ⟨earlier, hearlier, hmem⟩ := mem_flatMap.mp hold
    obtain ⟨event, hevent, rfl⟩ := mem_map.mp hmem
    obtain ⟨accepted, haccepted, hsame⟩ := mem_map.mp (hkeys.subset hnew)
    obtain ⟨step, hstep⟩ := h.stepped earlier hearlier
    have hsteps : serverTick.serverStep = step := by
      rw [hstep] at hsame
      exact (dedupKey_inj.mp hsame).1
    have hnone := htidy.fresh earlier hearlier (ne_nil_of_mem hevent) (by rw [hstep, hsteps])
    rw [hnone] at haccepted
    cases haccepted
  · intro frame hframe
    rcases mem_append.mp hframe with hold | hnew
    · exact h.stepped frame hold
    · rw [mem_singleton.mp hnew]
      exact ⟨_, serverStep_frame⟩

theorem Sound.serveAll {serverTicks : List ServerTick} (h : server.Sound steps)
    (htidy : AllTidy numbers manifestHash serverTicks server) :
    (serveAll numbers manifestHash serverTicks server).Sound steps := by
  induction serverTicks generalizing server with
  | nil => exact h
  | cons serverTick rest ih => exact ih (h.serve htidy.1) htidy.2

theorem Sound.exactlyOnce (h : server.Sound steps) : server.ExactlyOnce steps := by
  have hdistinct : (server.sent.map fun event => dedupKey steps event.1 event.2).Nodup := by
    rw [keys_sent]
    exact h.distinct
  refine ⟨h.complete, hdistinct, ?_⟩
  intro capacity hpos
  refine EventBroadcastDeduper.delivered_of_nodup steps _ _ hdistinct ?_
  intro event _ hseen
  cases hseen

/-- **Tidy ticks deliver exactly once.** -/
theorem serveAll_exactlyOnce (steps : StepText) (bus : EventBus JsValue)
    (serverTicks : List ServerTick)
    (htidy : AllTidy numbers manifestHash serverTicks (create bus)) :
    (serveAll numbers manifestHash serverTicks (create bus)).ExactlyOnce steps :=
  ((sound_create steps bus).serveAll htidy).exactlyOnce

/-- A tick of one step is tidy, when its step is new. -/
theorem tidy_of_single_step {step : BusStep JsValue} (hbatches : serverTick.batches = [⟨step, []⟩])
    (hnarrow : ∀ event ∈ (server.log serverTick).flatten.flatten, event.2.dispatchOrder < 2 ^ 32)
    (hfresh : ∀ earlier ∈ server.frames, earlier.serverStep ≠ .fin serverTick.serverStep) :
    server.Tidy serverTick := by
  have hlog : server.log serverTick = [[(server.bus.runStep true step).2]] := by
    rw [log, hbatches]
    rfl
  refine ⟨?_, ?_, ?_, hnarrow, fun earlier hearlier _ hsame => absurd hsame (hfresh earlier hearlier)⟩
  · rw [hlog]
    intro batch hbatch
    cases hbatch
  · rw [hlog]
    intro batch hbatch
    obtain rfl := Option.some.inj hbatch
    exact pairwise_singleton _ _
  · rw [hbatches]
    intro hnone
    cases hnone

theorem fourEvents_pos : (0 : ℚ) < 4 := by
  norm_num

/-- A bus with a channel for missions. -/
def missionBus : EventBus JsValue :=
  { channels := [
      { type := "mission", capacity := 4, capacity_pos := fourEvents_pos, validator := fun _ => none
        internalBuffer := [], outboundBuffer := [], subscribers := [] }]
    currentTick := 0, dispatchCounter := 0, tickAborted := false, lastOverflowError := none
    now := 0 }

/-- A step that publishes one event. -/
def missionStep (tick : ℚ) : BusStep JsValue :=
  { tick, now := tick * 100, calls := [.publish "mission" (.number (.fin tick)) none, .dispatched] }

/-- A tick whose frame has the step of the tick. -/
def missionTick (tick : ℚ) (batches : List (BusBatch JsValue)) : ServerTick :=
  { batches, tick, format := .structOfArrays, options := {}, unfiltered := rfl }

/-- Two ticks of one step each. -/
theorem serveAll_exactlyOnce_two :
    (serveAll JsonText.fractionText "" [missionTick 0 [⟨missionStep 0, []⟩],
      missionTick 1 [⟨missionStep 1, []⟩]] (create missionBus)).ExactlyOnce fractionStepText := by
  have hnarrow : ∀ log : List (ℕ × EventSlot JsValue),
      (log.all fun event => decide (event.2.dispatchOrder < 2 ^ 32)) = true →
        ∀ event ∈ log, event.2.dispatchOrder < 2 ^ 32 :=
    fun log hall event hevent => of_decide_eq_true (List.all_eq_true.mp hall event hevent)
  refine serveAll_exactlyOnce fractionStepText missionBus _ ⟨?_, ?_, trivial⟩
  · refine tidy_of_single_step rfl (hnarrow _ (by decide +kernel)) ?_
    intro earlier hearlier
    cases hearlier
  · refine tidy_of_single_step rfl (hnarrow _ (by decide +kernel)) ?_
    intro earlier hearlier
    rw [List.mem_singleton.mp hearlier, serverStep_frame]
    decide +kernel

/-- **Frames that repeat a key, and frames that lose an event.** The two steps of one batch give
their events the same key, and of two batches only the second is in the frame. -/
theorem frames_repeat_and_lose :
    let repeated := (create missionBus).serve JsonText.fractionText ""
      (missionTick 1 [⟨missionStep 0, [missionStep 1]⟩])
    let lost := (create missionBus).serve JsonText.fractionText ""
      (missionTick 1 [⟨missionStep 0, []⟩, ⟨missionStep 1, []⟩])
    (repeated.sent.map fun event => event.2.issuedAt) = [0, 100] ∧
      (repeated.sent.map fun event => dedupKey fractionStepText event.1 event.2) =
        ["1:0:mission".toList, "1:0:mission".toList] ∧
      ¬repeated.ExactlyOnce fractionStepText ∧
      (lost.accepted.map fun event => event.2.issuedAt) = [0, 100] ∧
      (lost.sent.map fun event => event.2.issuedAt) = [100] ∧
      ¬lost.ExactlyOnce fractionStepText := by
  intro repeated lost
  have hkeys : (repeated.sent.map fun event => dedupKey fractionStepText event.1 event.2) =
      ["1:0:mission".toList, "1:0:mission".toList] := by
    decide +kernel
  have hlost : (lost.frames.flatMap (·.events)).length ≠
      (lost.accepted.map fun event => event.2.toRecord event.1).length := by
    decide +kernel
  refine ⟨by decide +kernel, hkeys, ?_, by decide +kernel, by decide +kernel, ?_⟩
  · intro honce
    have hnodup := honce.distinct
    rw [hkeys] at hnodup
    exact absurd hnodup (by decide)
  · intro honce
    exact hlost honce.complete.length_eq

end EventServer

end IdleEngine
