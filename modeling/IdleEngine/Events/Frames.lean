import Mathlib.Data.List.Induction
import IdleEngine.Events.Broadcast
import IdleEngine.Events.Delivery

/-!
# Frames of outbound events

At the end of a tick the host exports the outbound buffers of the bus as one frame
(`buildRuntimeEventFrame`): a column for each field of the events and a table of their types, or an
array of objects. A broadcast frame is what is read back from it (`createEventBroadcastFrame`), in
dispatch order. Nothing is lost on the way, as long as the dispatch orders fit their 32-bit column
(`serializeRuntimeEventFrame_build`, `perm_createEventBroadcastFrame`).
-/

namespace IdleEngine

open EarliestHead List

/-- The record of an event of a channel. -/
def EventSlot.toRecord (channel : ℕ) (slot : EventSlot JsValue) : SerializedRuntimeEvent :=
  { type := slot.type, channel, issuedAt := slot.issuedAt, dispatchOrder := slot.dispatchOrder,
    payload := slot.payload }

/-- The events of the outbound buffers, channel by channel. -/
def EventBus.outboundRecords (bus : EventBus JsValue) : List SerializedRuntimeEvent :=
  (List.range bus.channels.length).flatMap fun channelIndex =>
    (bus.outboundOf channelIndex).map (EventSlot.toRecord channelIndex)

/-! ### Building a frame -/

/-- `RuntimeEventFrameFormat`. -/
inductive RuntimeEventFrameFormat
  | structOfArrays
  | objectArray
  deriving DecidableEq, Repr

/-- The columns of a frame. Channel and type indices are positions in arrays and so fit their 32-bit
columns; a dispatch order is a counter and need not. -/
structure EventColumns where
  channelIndices : List ℕ
  typeIndices : List ℕ
  issuedAt : List ℚ
  dispatchOrder : List UInt32
  payloads : List JsValue
  stringTable : List String

namespace EventColumns

def empty : EventColumns :=
  { channelIndices := [], typeIndices := [], issuedAt := [], dispatchOrder := [], payloads := [],
    stringTable := [] }

/-- Write an event behind the others. Its type goes into the table when it is not there yet; the
position of a type that is missing is the length of the table. -/
def write (columns : EventColumns) (event : SerializedRuntimeEvent) : EventColumns :=
  { channelIndices := columns.channelIndices ++ [event.channel]
    typeIndices := columns.typeIndices ++ [columns.stringTable.idxOf event.type]
    issuedAt := columns.issuedAt ++ [event.issuedAt]
    dispatchOrder := columns.dispatchOrder ++ [UInt32.ofNat event.dispatchOrder]
    payloads := columns.payloads ++ [event.payload]
    stringTable :=
      if event.type ∈ columns.stringTable then columns.stringTable
      else columns.stringTable ++ [event.type] }

/-- The event at a position. -/
def eventAt (columns : EventColumns) (index : ℕ) : SerializedRuntimeEvent :=
  { type := columns.stringTable.getD (columns.typeIndices.getD index 0) ""
    channel := columns.channelIndices.getD index 0
    issuedAt := columns.issuedAt.getD index 0
    dispatchOrder := (columns.dispatchOrder.getD index 0).toNat
    payload := columns.payloads.getD index .undefined }

end EventColumns

/-- The events of a frame in one of the two formats. -/
inductive RuntimeEventFrameEvents
  | structOfArrays (columns : EventColumns)
  | objectArray (events : List SerializedRuntimeEvent)

structure RuntimeEventFrame where
  tick : ℚ
  manifestHash : String
  count : ℕ
  events : RuntimeEventFrameEvents

/-- `buildRuntimeEventFrame`. -/
def buildRuntimeEventFrame (bus : EventBus JsValue) (tick : ℚ) (manifestHash : String)
    (format : RuntimeEventFrameFormat) : RuntimeEventFrame :=
  { tick
    manifestHash
    count := bus.outboundRecords.length
    events :=
      match format with
      | .objectArray => .objectArray bus.outboundRecords
      | .structOfArrays =>
          .structOfArrays (bus.outboundRecords.foldl EventColumns.write EventColumns.empty) }

/-- `serializeRuntimeEventFrame`. -/
def serializeRuntimeEventFrame (frame : RuntimeEventFrame) : List SerializedRuntimeEvent :=
  if frame.count = 0 then []
  else
    match frame.events with
    | .objectArray events => events
    | .structOfArrays columns => (List.range frame.count).map columns.eventAt

structure EventBroadcastFrameOptions where
  serverStep : Option ℚ := none
  filter : Option EventFilter := none
  includeManifestHash : Bool := true
  includeChecksum : Bool := false
  sortByDispatchOrder : Bool := true

/-- `createEventBroadcastFrame`. -/
def createEventBroadcastFrame (numbers : JsonText.NumberText ℚ) (frame : RuntimeEventFrame)
    (options : EventBroadcastFrameOptions) : EventBroadcastFrame :=
  let serverStep := options.serverStep.getD frame.tick
  let events := serializeRuntimeEventFrame frame
  let events := options.filter.elim events fun allows => events.filter allows
  let events :=
    if options.sortByDispatchOrder ∧ events.length > 1 then
      events.insertionSort fun left right => left.dispatchOrder ≤ right.dispatchOrder
    else events
  let base : EventBroadcastFrame :=
    { serverStep := .fin serverStep
      events
      checksum := none
      manifestHash := if options.includeManifestHash then some frame.manifestHash else none }
  if options.includeChecksum then
    { base with checksum := some (base.computeEventBroadcastChecksum numbers) }
  else base

/-! ### Reading a frame back -/

namespace EventColumns

/-- The columns hold some events. -/
structure Holds (columns : EventColumns) (events : List SerializedRuntimeEvent) : Prop where
  channelIndices : columns.channelIndices = events.map (·.channel)
  issuedAt : columns.issuedAt = events.map (·.issuedAt)
  dispatchOrder : columns.dispatchOrder = events.map fun event => UInt32.ofNat event.dispatchOrder
  payloads : columns.payloads = events.map (·.payload)
  types : columns.typeIndices.map (columns.stringTable[·]?) = events.map fun event => some event.type

theorem holds_empty : empty.Holds [] := ⟨rfl, rfl, rfl, rfl, rfl⟩

theorem holds_write {columns : EventColumns} {events : List SerializedRuntimeEvent}
    (h : columns.Holds events) (event : SerializedRuntimeEvent) :
    (columns.write event).Holds (events ++ [event]) := by
  refine ⟨?_, ?_, ?_, ?_, ?_⟩
  · rw [write, h.channelIndices, map_append]
    rfl
  · rw [write, h.issuedAt, map_append]
    rfl
  · rw [write, h.dispatchOrder, map_append]
    rfl
  · rw [write, h.payloads, map_append]
    rfl
  · -- a longer table says the same about the types written before
    obtain ⟨more, hmore⟩ : ∃ more, (columns.write event).stringTable = columns.stringTable ++ more := by
      by_cases hmem : event.type ∈ columns.stringTable
      · exact ⟨[], (if_pos hmem).trans (append_nil _).symm⟩
      · exact ⟨[event.type], if_neg hmem⟩
    have hold : columns.typeIndices.map ((columns.stringTable ++ more)[·]?) =
        columns.typeIndices.map (columns.stringTable[·]?) := by
      refine map_congr_left ?_
      intro index hindex
      have hsome : columns.stringTable[index]? ∈ events.map fun event => some event.type := by
        rw [← h.types]
        exact mem_map_of_mem hindex
      obtain ⟨other, -, hother⟩ := mem_map.mp hsome
      rw [getElem?_append_left (List.getElem?_eq_some_iff.mp hother.symm).1]
    have hnew : (columns.write event).stringTable[columns.stringTable.idxOf event.type]? =
        some event.type := by
      rw [write]
      dsimp only
      by_cases hmem : event.type ∈ columns.stringTable
      · rw [if_pos hmem]
        exact getElem?_idxOf hmem
      · rw [if_neg hmem, idxOf_eq_length hmem, getElem?_concat_length]
    rw [map_append, ← h.types, ← hold, ← hmore]
    change map _ (columns.typeIndices ++ [columns.stringTable.idxOf event.type]) = _
    rw [map_append, map_singleton, hnew]
    rfl

theorem holds_foldl_write (events : List SerializedRuntimeEvent) :
    (events.foldl write empty).Holds events := by
  induction events using reverseRecOn with
  | nil => exact holds_empty
  | append_singleton events event ih =>
    rw [foldl_append]
    exact holds_write ih event

theorem Holds.eventAt {columns : EventColumns} {events : List SerializedRuntimeEvent}
    (h : columns.Holds events) {index : ℕ} {event : SerializedRuntimeEvent}
    (hevent : events[index]? = some event) (horder : event.dispatchOrder < 2 ^ 32) :
    columns.eventAt index = event := by
  have hcolumn : ∀ {γ : Type} (f : SerializedRuntimeEvent → γ),
      (events.map f)[index]? = some (f event) := by
    intro γ f
    rw [getElem?_map, hevent]
    rfl
  obtain ⟨typeIndex, htypeIndex, htype⟩ : ∃ typeIndex, columns.typeIndices[index]? = some typeIndex ∧
      columns.stringTable[typeIndex]? = some event.type := by
    have hat := hcolumn fun event => some event.type
    rw [← h.types, getElem?_map] at hat
    exact Option.map_eq_some_iff.mp hat
  rw [EventColumns.eventAt, h.channelIndices, h.issuedAt, h.dispatchOrder, h.payloads]
  simp only [getD_eq_getElem?_getD, hcolumn, htypeIndex, htype, Option.getD_some,
    UInt32.toNat_ofNat', Nat.mod_eq_of_lt horder]

end EventColumns

/-- **A frame holds the outbound events**, in either format. -/
theorem serializeRuntimeEventFrame_build (bus : EventBus JsValue) (tick : ℚ) (manifestHash : String)
    (format : RuntimeEventFrameFormat)
    (horders : ∀ event ∈ bus.outboundRecords, event.dispatchOrder < 2 ^ 32) :
    serializeRuntimeEventFrame (buildRuntimeEventFrame bus tick manifestHash format) =
      bus.outboundRecords := by
  rw [serializeRuntimeEventFrame]
  split
  · next hempty => exact (length_eq_zero_iff.mp hempty).symm
  · rcases format with _ | _
    · refine ext_getElem? fun index => ?_
      change ((range bus.outboundRecords.length).map _)[index]? = _
      rw [getElem?_map]
      rcases hevent : bus.outboundRecords[index]? with _ | event
      · rw [getElem?_eq_none_iff.mpr]
        · rfl
        · rw [length_range]
          exact getElem?_eq_none_iff.mp hevent
      · rw [getElem?_range (List.getElem?_eq_some_iff.mp hevent).1, Option.map_some,
          (EventColumns.holds_foldl_write _).eventAt hevent
            (horders event (mem_of_getElem? hevent))]
    · rfl

/-- **The two formats hold the same events exactly when** the dispatch orders fit the column. -/
theorem serializeRuntimeEventFrame_formats_iff (bus : EventBus JsValue) (tick : ℚ)
    (manifestHash : String) :
    serializeRuntimeEventFrame (buildRuntimeEventFrame bus tick manifestHash .structOfArrays) =
        serializeRuntimeEventFrame (buildRuntimeEventFrame bus tick manifestHash .objectArray) ↔
      ∀ event ∈ bus.outboundRecords, event.dispatchOrder < 2 ^ 32 := by
  have hobjects : serializeRuntimeEventFrame
      (buildRuntimeEventFrame bus tick manifestHash .objectArray) = bus.outboundRecords := by
    rw [serializeRuntimeEventFrame]
    split
    · next hempty => exact (length_eq_zero_iff.mp hempty).symm
    · rfl
  rw [hobjects]
  refine ⟨fun hsame event hevent => ?_, serializeRuntimeEventFrame_build bus tick manifestHash _⟩
  rw [← hsame, serializeRuntimeEventFrame] at hevent
  split at hevent
  · cases hevent
  · obtain ⟨index, -, rfl⟩ := mem_map.mp hevent
    exact UInt32.toNat_lt _

section Broadcast

variable (numbers : JsonText.NumberText ℚ) (frame : RuntimeEventFrame)
  (options : EventBroadcastFrameOptions)

/-- **An unfiltered broadcast frame holds the events of its frame.** -/
theorem perm_createEventBroadcastFrame (hfilter : options.filter = none) :
    (createEventBroadcastFrame numbers frame options).events.Perm
      (serializeRuntimeEventFrame frame) := by
  have hsorted : ∀ events : List SerializedRuntimeEvent,
      (if options.sortByDispatchOrder ∧ events.length > 1 then
        events.insertionSort fun left right => left.dispatchOrder ≤ right.dispatchOrder
      else events).Perm events := by
    intro events
    split
    · exact perm_insertionSort _ _
    · exact List.Perm.refl _
  rw [createEventBroadcastFrame, hfilter]
  dsimp only [Option.elim]
  split
  · exact hsorted _
  · exact hsorted _

theorem serverStep_createEventBroadcastFrame :
    (createEventBroadcastFrame numbers frame options).serverStep =
      .fin (options.serverStep.getD frame.tick) := by
  rw [createEventBroadcastFrame]
  dsimp only
  split
  · rfl
  · rfl

end Broadcast

/-- **The outbound events**, when the buffers hold some events spread over the channels. -/
theorem EventBus.perm_outboundRecords {bus : EventBus JsValue}
    {events : List (ℕ × EventSlot JsValue)} (houtbound : ∀ i, bus.outboundOf i = stream i events)
    (hrange : ∀ event ∈ events, event.1 < bus.channels.length) :
    bus.outboundRecords.Perm (events.map fun event => event.2.toRecord event.1) := by
  rw [outboundRecords]
  simp only [houtbound]
  exact perm_flatMap_stream hrange

end IdleEngine
