import IdleEngine.StateSync.Snapshot

/-!
# Broadcast frames

What a server sends of its events: a frame has the events of a server step, a manifest hash and,
if wanted, a checksum. A client that sees frames again skips events it has seen by a key made of the
step, the dispatch order and the type (`EventBroadcastDeduper`); the key is a text, and its parts can
be read off it (`dedupKey_inj`).
-/

namespace IdleEngine

open JsValue

/-- An event as frames carry it. -/
structure SerializedRuntimeEvent where
  type : String
  channel : ℕ
  issuedAt : ℚ
  dispatchOrder : ℕ
  payload : JsValue

def SerializedRuntimeEvent.toJs (event : SerializedRuntimeEvent) : JsValue :=
  record [("type", string event.type), ("channel", .number (.fin event.channel)),
    ("issuedAt", .number (.fin event.issuedAt)),
    ("dispatchOrder", .number (.fin event.dispatchOrder)), ("payload", event.payload)]

structure EventBroadcastFrame where
  serverStep : JsNumber
  events : List SerializedRuntimeEvent
  checksum : Option String
  manifestHash : Option String

/-- `EventFilter`: which events are allowed. -/
abbrev EventFilter := SerializedRuntimeEvent → Bool

/-- `createEventTypeFilter`. -/
def createEventTypeFilter (allowedTypes : List String) : EventFilter :=
  fun event => allowedTypes.contains event.type

namespace EventBroadcastFrame

variable (numbers : JsonText.NumberText ℚ)

/-- `computeEventBroadcastChecksum`. -/
def computeEventBroadcastChecksum (frame : EventBroadcastFrame) : String :=
  let payload := record ([("serverStep", .number frame.serverStep),
    ("events", array (frame.events.map SerializedRuntimeEvent.toJs))] ++
      (frame.manifestHash.map fun hash => ("manifestHash", string hash)).toList)
  fnv1a32 (((payload.normalizeForDeterministicJson.stringify numbers).getD "").toUTF8.toList.map
    UInt8.toNat)

/-- `refreshBroadcastFrameChecksum`. -/
def refreshChecksum (frame : EventBroadcastFrame) (recompute : Bool) : EventBroadcastFrame :=
  if recompute = false ∨ frame.checksum = none then frame
  else { frame with checksum := some (frame.computeEventBroadcastChecksum numbers) }

/-- A checksum that the frame carries is that of the frame. -/
def ChecksumValid (frame : EventBroadcastFrame) : Prop :=
  ∀ checksum ∈ frame.checksum, checksum = frame.computeEventBroadcastChecksum numbers

variable {numbers}

@[simp]
theorem events_refreshChecksum (frame : EventBroadcastFrame) (recompute : Bool) :
    (frame.refreshChecksum numbers recompute).events = frame.events := by
  rw [refreshChecksum]
  split
  · rfl
  · rfl

@[simp]
theorem serverStep_refreshChecksum (frame : EventBroadcastFrame) (recompute : Bool) :
    (frame.refreshChecksum numbers recompute).serverStep = frame.serverStep := by
  rw [refreshChecksum]
  split
  · rfl
  · rfl

end EventBroadcastFrame

/-! ### The deduper -/

/-- A way to write the numbers of a key. Different numbers have different texts, and none has a
colon. -/
structure StepText where
  text : ℚ → List Char
  injective : Function.Injective text
  noColon : ∀ n, ':' ∉ text n

/-- Whole numbers in decimal, others as fractions. -/
def fractionStepText : StepText where
  text := JsonText.fraction
  injective := JsonText.fraction_injective
  noColon n hcolon := by
    rcases JsonText.mem_fraction hcolon with hdigit | hminus | hslash
    · exact absurd hdigit (by decide)
    · exact absurd hminus (by decide)
    · exact absurd hslash (by decide)

/-- The key of an event in a frame of a server step. -/
def dedupKey (steps : StepText) (serverStep : ℚ) (event : SerializedRuntimeEvent) : List Char :=
  steps.text serverStep ++ ':' :: (steps.text event.dispatchOrder ++ ':' :: event.type.toList)

theorem append_colon_inj {front front' rest rest' : List Char} (h : ':' ∉ front)
    (h' : ':' ∉ front') (heq : front ++ ':' :: rest = front' ++ ':' :: rest') :
    front = front' ∧ rest = rest' := by
  have hsplit : ∀ part rest : List Char, ':' ∉ part →
      (part ++ ':' :: rest).takeWhile (· ≠ ':') = part := by
    intro part rest hpart
    have hne : ∀ c ∈ part, decide (c ≠ ':') = true := by
      intro c hc
      refine decide_eq_true ?_
      rintro rfl
      exact hpart hc
    rw [List.takeWhile_append_of_pos hne]
    simp
  have hfront : front = front' := by
    rw [← hsplit front rest h, heq, hsplit front' rest' h']
  rw [hfront] at heq
  exact ⟨hfront, (List.cons.inj (List.append_cancel_left heq)).2⟩

/-- **A key tells the step, the dispatch order and the type.** -/
theorem dedupKey_inj {steps : StepText} {serverStep serverStep' : ℚ}
    {event event' : SerializedRuntimeEvent} :
    dedupKey steps serverStep event = dedupKey steps serverStep' event' ↔
      serverStep = serverStep' ∧ event.dispatchOrder = event'.dispatchOrder ∧
        event.type = event'.type := by
  constructor
  · intro h
    obtain ⟨hstep, hrest⟩ := append_colon_inj (steps.noColon _) (steps.noColon _) h
    obtain ⟨horder, htype⟩ := append_colon_inj (steps.noColon _) (steps.noColon _) hrest
    exact ⟨steps.injective hstep, Nat.cast_injective (steps.injective horder),
      String.toList_injective htype⟩
  · rintro ⟨rfl, horder, htype⟩
    rw [dedupKey, dedupKey, horder, htype]

/-- The keys that were seen, and the ring of the last `capacity` of them. -/
structure EventBroadcastDeduper where
  capacity : ℕ
  capacity_pos : 0 < capacity
  seen : List (List Char)
  ring : List (Option (List Char))
  writeIndex : ℕ
  size : ℕ

namespace EventBroadcastDeduper

/-- A deduper of a given capacity. -/
def create (capacity : ℕ) (hpos : 0 < capacity) : EventBroadcastDeduper :=
  { capacity, capacity_pos := hpos, seen := [], ring := List.replicate capacity none,
    writeIndex := 0, size := 0 }

/-- Remember a key; a full ring forgets the oldest. -/
def record (deduper : EventBroadcastDeduper) (key : List Char) : EventBroadcastDeduper :=
  let ring := deduper.ring.set deduper.writeIndex (some key)
  let writeIndex := (deduper.writeIndex + 1) % deduper.capacity
  if deduper.size < deduper.capacity then
    { deduper with ring, writeIndex, size := deduper.size + 1 }
  else
    { deduper with
      seen := deduper.seen.filter fun old => deduper.ring[deduper.writeIndex]? ≠ some (some old)
      ring
      writeIndex }

/-- `shouldSkip`. -/
def shouldSkip (steps : StepText) (deduper : EventBroadcastDeduper) (serverStep : ℚ)
    (event : SerializedRuntimeEvent) : Bool × EventBroadcastDeduper :=
  let key := dedupKey steps serverStep event
  if key ∈ deduper.seen then (true, deduper)
  else (false, { deduper with seen := deduper.seen ++ [key] }.record key)

/-- The events that a client publishes of a sequence of events, each in a frame of some server step:
those that are not skipped. -/
def delivered (steps : StepText) (deduper : EventBroadcastDeduper) :
    List (ℚ × SerializedRuntimeEvent) → List (ℚ × SerializedRuntimeEvent)
  | [] => []
  | (serverStep, event) :: rest =>
      let (skip, deduper) := deduper.shouldSkip steps serverStep event
      if skip then delivered steps deduper rest
      else (serverStep, event) :: delivered steps deduper rest

theorem mem_seen_shouldSkip {steps : StepText} {deduper : EventBroadcastDeduper} {serverStep : ℚ}
    {event : SerializedRuntimeEvent} {key : List Char}
    (h : key ∈ (deduper.shouldSkip steps serverStep event).2.seen) :
    key ∈ deduper.seen ∨ key = dedupKey steps serverStep event := by
  unfold shouldSkip at h
  dsimp only at h
  split at h
  · exact .inl h
  · have hmem : key ∈ deduper.seen ++ [dedupKey steps serverStep event] := by
      unfold record at h
      dsimp only at h
      split at h
      · exact h
      · exact (List.mem_filter.mp h).1
    rcases List.mem_append.mp hmem with hmem | hmem
    · exact .inl hmem
    · exact .inr (List.mem_singleton.mp hmem)

/-- **Events with different keys are all delivered**, whatever the deduper forgets. -/
theorem delivered_of_nodup (steps : StepText) (events : List (ℚ × SerializedRuntimeEvent))
    (deduper : EventBroadcastDeduper)
    (hnodup : (events.map fun event => dedupKey steps event.1 event.2).Nodup)
    (hseen : ∀ event ∈ events, dedupKey steps event.1 event.2 ∉ deduper.seen) :
    deduper.delivered steps events = events := by
  induction events generalizing deduper with
  | nil => rfl
  | cons event rest ih =>
    obtain ⟨serverStep, event⟩ := event
    rw [List.map_cons, List.nodup_cons] at hnodup
    have hnew : dedupKey steps serverStep event ∉ deduper.seen := hseen _ List.mem_cons_self
    have hopen : (deduper.shouldSkip steps serverStep event).1 = false := by
      rw [shouldSkip]
      exact congrArg Prod.fst (if_neg hnew)
    have hrest : ∀ other ∈ rest, dedupKey steps other.1 other.2 ∉
        (deduper.shouldSkip steps serverStep event).2.seen := by
      intro other hother hmem
      rcases mem_seen_shouldSkip hmem with hmem | heq
      · exact hseen other (List.mem_cons_of_mem _ hother) hmem
      · refine hnodup.1 ?_
        rw [← heq]
        exact List.mem_map_of_mem hother
    rw [delivered]
    dsimp only
    rw [hopen, ih _ hnodup.2 hrest]
    rfl

end EventBroadcastDeduper

end IdleEngine
