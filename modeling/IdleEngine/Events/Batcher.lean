import IdleEngine.Events.Broadcast

/-!
# The broadcast batcher

The batcher collects frames and hands them out in batches: when enough frames or events have
gathered, when the first of them has waited long enough, and at once when a frame has an event of a
priority type. The list of the pending frames, the count of their events and the time of the first
are kept apart, and every branch has to keep them in step (`EventBroadcastBatcher.InStep`).

Without coalescing, and for frames whose server steps do not decrease, the batcher passes its frames
on as they are (`EventBroadcastBatcher.batches_lossless`): the batches have exactly the allowed
events of the frames in their order, a batch describes its frames, and the limits hold for what is
pending. With coalescing events are left out, and none is added or moved (`coalesce_sublist`).
-/

namespace IdleEngine

open EventBroadcastFrame List Option

/-! ### Numbers of the options -/

/-- The difference of two numbers. -/
def JsNumber.sub : JsNumber → JsNumber → JsNumber
  | .fin a, .fin b => .fin (a - b)
  | .nan, _ => .nan
  | _, .nan => .nan
  | .posInf, .posInf => .nan
  | .negInf, .negInf => .nan
  | .posInf, _ => .posInf
  | .negInf, _ => .negInf
  | .fin _, .posInf => .negInf
  | .fin _, .negInf => .posInf

/-- `normalizePositiveInt`: the number itself is rejected with one text, what is left of it after the
fraction is cut off with another. -/
def EventBroadcastBatcher.normalizePositiveInt (text : JsNumber → String) (value : Option JsNumber) (name : String) :
    Except String (Option ℕ) :=
  match value with
  | none => .ok none
  | some value =>
      match value.finite? with
      | none => .error (name ++ " must be a positive number (received " ++ text value ++ ").")
      | some q =>
          if q ≤ 0 then
            .error (name ++ " must be a positive number (received " ++ text value ++ ").")
          else if ⌊q⌋ ≤ 0 then
            .error (name ++ " must be a positive integer (received " ++ text value ++ ").")
          else .ok (some ⌊q⌋.toNat)

/-- `normalizeNonNegativeInt`. -/
def EventBroadcastBatcher.normalizeNonNegativeInt (text : JsNumber → String) (value : Option JsNumber) (name : String) :
    Except String (Option ℕ) :=
  match value with
  | none => .ok none
  | some value =>
      match value.finite? with
      | none => .error (name ++ " must be a non-negative number (received " ++ text value ++ ").")
      | some q =>
          if q < 0 then
            .error (name ++ " must be a non-negative number (received " ++ text value ++ ").")
          else .ok (some ⌊q⌋.toNat)

/-! ### Coalescing -/

/-- Which of the events with one key stays. -/
inductive CoalescingMode
  | first
  | last
  deriving DecidableEq

structure EventCoalescingOptions where
  key : SerializedRuntimeEvent → String
  mode : Option CoalescingMode

/-- Where the event of a key was found: the frame and the place in it. -/
abbrev CoalescingLookup := List (String × ℕ × ℕ)

namespace EventCoalescingOptions

variable (options : EventCoalescingOptions)

/-- Take an event out of a frame. -/
def takeOut (frames : List (List (Option SerializedRuntimeEvent))) (place : ℕ × ℕ) :
    List (List (Option SerializedRuntimeEvent)) :=
  frames.modify place.1 fun events => events.set place.2 none

/-- One event of the loops over all frames. -/
def visit (state : CoalescingLookup × List (List (Option SerializedRuntimeEvent)))
    (place : ℕ × ℕ) : CoalescingLookup × List (List (Option SerializedRuntimeEvent)) :=
  match (state.2[place.1]?.bind (·[place.2]?)).join with
  | none => state
  | some event =>
      let key := options.key event
      match state.1.lookup key with
      | none => ((key, place) :: state.1, state.2)
      | some existing =>
          match options.mode.getD .last with
          | .first => (state.1, takeOut state.2 place)
          | .last => ((key, place) :: state.1, takeOut state.2 existing)

/-- The places of all events, frame by frame. -/
def places (frames : List EventBroadcastFrame) : List (ℕ × ℕ) :=
  frames.zipIdx.flatMap fun (frame, frameIndex) =>
    (List.range frame.events.length).map fun eventIndex => (frameIndex, eventIndex)

/-- `compactCoalescedFrames`: a frame without events is left out. -/
def compactCoalescedFrames (numbers : JsonText.NumberText ℚ) (frames : List EventBroadcastFrame)
    (events : List (List (Option SerializedRuntimeEvent))) : List EventBroadcastFrame :=
  (frames.zip events).filterMap fun (frame, events) =>
    let compacted := events.filterMap id
    if compacted = [] then none
    else some (({ frame with events := compacted } : EventBroadcastFrame).refreshChecksum numbers
      (compacted.length ≠ events.length))

/-- `coalesceBatchFrames`: a single frame is not coalesced. -/
def coalesceBatchFrames (numbers : JsonText.NumberText ℚ) (frames : List EventBroadcastFrame) :
    List EventBroadcastFrame :=
  if frames.length ≤ 1 then frames
  else
    let start : CoalescingLookup × List (List (Option SerializedRuntimeEvent)) :=
      ([], frames.map fun frame => frame.events.map some)
    compactCoalescedFrames numbers frames ((places frames).foldl options.visit start).2

end EventCoalescingOptions

/-! ### The batcher -/

structure EventBroadcastBatch where
  frames : List EventBroadcastFrame
  fromStep : JsNumber
  toStep : JsNumber
  eventCount : ℕ

structure EventBroadcastBatcherOptions where
  maxSteps : Option JsNumber
  maxEvents : Option JsNumber
  maxDelayMs : Option JsNumber
  filter : Option EventFilter
  priorityEventTypes : Option (List String)
  coalesce : Option EventCoalescingOptions

/-- The batcher; without `maxSteps` the number of frames is not limited. -/
structure EventBroadcastBatcher where
  maxSteps : Option ℕ
  maxEvents : Option ℕ
  maxDelayMs : Option ℕ
  filter : Option EventFilter
  priorityTypes : Option (List String)
  coalesce : Option EventCoalescingOptions
  pendingFrames : List EventBroadcastFrame
  pendingEventCount : ℕ
  pendingSince : Option JsNumber

/-- `a.serverStep - b.serverStep` is not positive. -/
def NotLater (a b : EventBroadcastFrame) : Prop := b.serverStep.lt a.serverStep = false

instance : DecidableRel NotLater := fun a b =>
  inferInstanceAs (Decidable (b.serverStep.lt a.serverStep = false))

namespace EventBroadcastBatcher

/-- The constructor. Without any limit every frame is a batch. -/
def create (text : JsNumber → String) (options : EventBroadcastBatcherOptions) :
    Except String EventBroadcastBatcher := do
  let maxSteps ← normalizePositiveInt text options.maxSteps "maxSteps"
  let maxEvents ← normalizePositiveInt text options.maxEvents "maxEvents"
  let maxDelayMs ← normalizeNonNegativeInt text options.maxDelayMs "maxDelayMs"
  let hasLimit := maxSteps.isSome || maxEvents.isSome || maxDelayMs.any (0 < ·)
  return {
    maxSteps := maxSteps.or (if hasLimit then none else some 1)
    maxEvents
    maxDelayMs
    filter := options.filter
    priorityTypes := options.priorityEventTypes
    coalesce := options.coalesce
    pendingFrames := []
    pendingEventCount := 0
    pendingSince := none }

/-- `buildBatch`; there is at least one frame. -/
def buildBatch (frames : List EventBroadcastFrame) : Option EventBroadcastBatch :=
  let ordered := if frames.length > 1 then frames.insertionSort NotLater else frames
  match ordered with
  | [] => none
  | first :: rest =>
      some {
        frames := first :: rest
        fromStep := first.serverStep
        toStep := (rest.getLast?.getD first).serverStep
        eventCount := (first :: rest).foldl (fun count frame => count + frame.events.length) 0 }

variable (numbers : JsonText.NumberText ℚ)

/-- `flush`. -/
def flush (batcher : EventBroadcastBatcher) :
    Option EventBroadcastBatch × EventBroadcastBatcher :=
  if batcher.pendingFrames = [] then (none, batcher)
  else
    let frames :=
      match batcher.coalesce with
      | none => batcher.pendingFrames
      | some options => options.coalesceBatchFrames numbers batcher.pendingFrames
    (buildBatch frames,
      { batcher with pendingFrames := [], pendingEventCount := 0, pendingSince := none })

/-- The delay of the first pending frame is not over. -/
def delayRunning (batcher : EventBroadcastBatcher) (now : JsNumber) : Bool :=
  match batcher.pendingSince, batcher.maxDelayMs with
  | some since, some maxDelayMs => (now.sub since).lt (.fin maxDelayMs)
  | _, _ => true

/-- `flushIfDelayElapsed`. -/
def flushIfDelayElapsed (batcher : EventBroadcastBatcher) (now : JsNumber) :
    Option EventBroadcastBatch × EventBroadcastBatcher :=
  if batcher.delayRunning now then (none, batcher) else batcher.flush numbers

/-- `hasPriorityEvent`. -/
def hasPriorityEvent (batcher : EventBroadcastBatcher) (events : List SerializedRuntimeEvent) :
    Bool :=
  batcher.priorityTypes.any fun types => events.any fun event => types.contains event.type

/-- `addPendingFrame`. -/
def addPendingFrame (batcher : EventBroadcastBatcher) (frame : EventBroadcastFrame)
    (now : JsNumber) : EventBroadcastBatcher :=
  { batcher with
    pendingSince := if batcher.pendingFrames = [] then some now else batcher.pendingSince
    pendingFrames := batcher.pendingFrames ++ [frame]
    pendingEventCount := batcher.pendingEventCount + frame.events.length }

/-- `shouldFlushAfterAdd`. -/
def shouldFlushAfterAdd (batcher : EventBroadcastBatcher) : Bool :=
  batcher.maxSteps.any (· ≤ batcher.pendingFrames.length) ||
    batcher.maxEvents.any (· ≤ batcher.pendingEventCount)

/-- The events of a frame that the filter allows. -/
def allowedEvents (batcher : EventBroadcastBatcher) (frame : EventBroadcastFrame) :
    List SerializedRuntimeEvent :=
  match batcher.filter with
  | none => frame.events
  | some filter => frame.events.filter filter

/-- A frame with its allowed events. -/
def adjustedFrame (batcher : EventBroadcastBatcher) (frame : EventBroadcastFrame) :
    EventBroadcastFrame :=
  ({ frame with events := batcher.allowedEvents frame } : EventBroadcastFrame).refreshChecksum
    numbers ((batcher.allowedEvents frame).length ≠ frame.events.length)

/-- `ingestFrame` after the check of the delay. -/
def takeIn (batcher : EventBroadcastBatcher) (frame : EventBroadcastFrame) (now : JsNumber) :
    List EventBroadcastBatch × EventBroadcastBatcher :=
  let events := batcher.allowedEvents frame
  let adjusted := batcher.adjustedFrame numbers frame
  if events = [] then ([], batcher)
  else if batcher.hasPriorityEvent events then
    let (flushed, batcher) := batcher.flush numbers
    (flushed.toList ++ (buildBatch [adjusted]).toList, batcher)
  else
    let batcher := batcher.addPendingFrame adjusted now
    if batcher.shouldFlushAfterAdd then
      let (flushed, batcher) := batcher.flush numbers
      (flushed.toList, batcher)
    else ([], batcher)

/-- `ingestFrame`. -/
def ingestFrame (batcher : EventBroadcastBatcher) (frame : EventBroadcastFrame) (now : JsNumber) :
    List EventBroadcastBatch × EventBroadcastBatcher :=
  let (flushed, batcher) := batcher.flushIfDelayElapsed numbers now
  let (batches, batcher) := batcher.takeIn numbers frame now
  (flushed.toList ++ batches, batcher)

end EventBroadcastBatcher

/-! ### Frames in order -/

/-- The server steps do not decrease. -/
def InOrder (frames : List EventBroadcastFrame) : Prop :=
  frames.Pairwise fun a b => a.serverStep.le b.serverStep = true

/-- What a batch says about itself holds of its frames. -/
structure EventBroadcastBatch.Describes (batch : EventBroadcastBatch) : Prop where
  inOrder : InOrder batch.frames
  fromStep : batch.frames.head?.map EventBroadcastFrame.serverStep = some batch.fromStep
  toStep : batch.frames.getLast?.map EventBroadcastFrame.serverStep = some batch.toStep
  eventCount : batch.eventCount = (batch.frames.map fun frame => frame.events.length).sum

theorem InOrder.insertionSort {frames : List EventBroadcastFrame} (h : InOrder frames) :
    frames.insertionSort NotLater = frames := by
  refine List.Pairwise.insertionSort_eq (h.imp fun {a b} hle => ?_)
  rw [NotLater, JsNumber.lt, hle, Bool.not_true, Bool.and_false]

theorem foldl_eventCount (frames : List EventBroadcastFrame) (start : ℕ) :
    frames.foldl (fun count frame => count + frame.events.length) start =
      start + (frames.map fun frame => frame.events.length).sum := by
  induction frames generalizing start with
  | nil => rfl
  | cons frame rest ih =>
    rw [foldl_cons, ih, map_cons, sum_cons]
    omega

namespace EventBroadcastBatcher

/-- **A batch of frames in order has these frames and describes them.** -/
theorem buildBatch_of_inOrder {frames : List EventBroadcastFrame} (hne : frames ≠ [])
    (h : InOrder frames) :
    ∃ batch, buildBatch frames = some batch ∧ batch.frames = frames ∧ batch.Describes := by
  have hordered : (if frames.length > 1 then frames.insertionSort NotLater else frames) = frames := by
    split
    · exact h.insertionSort
    · rfl
  obtain ⟨first, rest, rfl⟩ := exists_cons_of_ne_nil hne
  unfold buildBatch
  rw [hordered]
  refine ⟨_, rfl, rfl, h, rfl, ?_, ?_⟩
  · rw [getLast?_cons]
    rfl
  · exact (foldl_eventCount _ 0).trans (Nat.zero_add _)

/-! ### Bookkeeping -/

/-- The three pieces of bookkeeping fit together and are below the limits, which are positive. -/
structure InStep (batcher : EventBroadcastBatcher) : Prop where
  count : batcher.pendingEventCount =
    (batcher.pendingFrames.map fun frame => frame.events.length).sum
  since : batcher.pendingSince = none ↔ batcher.pendingFrames = []
  steps : ∀ maxSteps ∈ batcher.maxSteps, batcher.pendingFrames.length < maxSteps
  events : ∀ maxEvents ∈ batcher.maxEvents, batcher.pendingEventCount < maxEvents

/-- Only what is pending differs. -/
structure SameOptions (batcher batcher' : EventBroadcastBatcher) : Prop where
  maxSteps : batcher'.maxSteps = batcher.maxSteps
  maxEvents : batcher'.maxEvents = batcher.maxEvents
  filter : batcher'.filter = batcher.filter
  coalesce : batcher'.coalesce = batcher.coalesce

theorem SameOptions.refl (batcher : EventBroadcastBatcher) : SameOptions batcher batcher :=
  ⟨rfl, rfl, rfl, rfl⟩

theorem SameOptions.trans {a b c : EventBroadcastBatcher} (hab : SameOptions a b)
    (hbc : SameOptions b c) : SameOptions a c :=
  ⟨hbc.maxSteps.trans hab.maxSteps, hbc.maxEvents.trans hab.maxEvents, hbc.filter.trans hab.filter,
    hbc.coalesce.trans hab.coalesce⟩

/-- From a state of the batcher some frames are taken in: what is handed out and what is pending
afterwards are the pending frames and the new ones, in their order. -/
structure Passes (batcher : EventBroadcastBatcher) (frames : List EventBroadcastFrame)
    (result : List EventBroadcastBatch × EventBroadcastBatcher) : Prop where
  options : SameOptions batcher result.2
  frames : result.1.flatMap EventBroadcastBatch.frames ++ result.2.pendingFrames =
    batcher.pendingFrames ++ frames
  described : ∀ batch ∈ result.1, batch.Describes
  inStep : result.2.InStep

variable {batcher : EventBroadcastBatcher}

theorem Passes.refl (h : batcher.InStep) :
    Passes batcher [] ([], batcher) :=
  ⟨.refl _, by rw [append_nil]; rfl, fun _ hbatch => absurd hbatch not_mem_nil, h⟩

/-- One after the other. -/
theorem Passes.append {frames frames' : List EventBroadcastFrame}
    {first second : List EventBroadcastBatch × EventBroadcastBatcher}
    (h : Passes batcher frames first) (h' : Passes first.2 frames' second) :
    Passes batcher (frames ++ frames') (first.1 ++ second.1, second.2) := by
  refine ⟨h.options.trans h'.options, ?_, fun batch hbatch => ?_, h'.inStep⟩
  · rw [flatMap_append, append_assoc, h'.frames, ← append_assoc, h.frames,
      append_assoc]
  · rcases mem_append.mp hbatch with hbatch | hbatch
    · exact h.described batch hbatch
    · exact h'.described batch hbatch

theorem inStep_empty (h : batcher.InStep) :
    InStep { batcher with pendingFrames := [], pendingEventCount := 0, pendingSince := none } :=
  ⟨rfl, iff_of_true rfl rfl, fun maxSteps hmax => (Nat.zero_le _).trans_lt (h.steps maxSteps hmax),
    fun maxEvents hmax => (Nat.zero_le _).trans_lt (h.events maxEvents hmax)⟩

variable {numbers : JsonText.NumberText ℚ}

theorem flush_of_coalesce_none (h : batcher.pendingFrames ≠ [])
    (hcoalesce : batcher.coalesce = none) :
    batcher.flush numbers = (buildBatch batcher.pendingFrames,
      { batcher with pendingFrames := [], pendingEventCount := 0, pendingSince := none }) := by
  rw [flush, if_neg h]
  simp only [hcoalesce]

theorem flush_pendingFrames (batcher : EventBroadcastBatcher) :
    (batcher.flush numbers).2.pendingFrames = [] := by
  unfold flush
  split
  · next h => exact h
  · rfl

theorem inStep_addPendingFrame (h : batcher.InStep) {frame : EventBroadcastFrame} {now : JsNumber}
    (hopen : (batcher.addPendingFrame frame now).shouldFlushAfterAdd = false) :
    (batcher.addPendingFrame frame now).InStep := by
  rw [shouldFlushAfterAdd, Bool.or_eq_false_iff] at hopen
  refine ⟨?_, ?_, fun maxSteps hmax => ?_, fun maxEvents hmax => ?_⟩
  · simp [addPendingFrame, h.count]
  · have hsome : (batcher.addPendingFrame frame now).pendingSince ≠ none := by
      unfold addPendingFrame
      dsimp only
      split
      · exact some_ne_none now
      · next hne => exact fun hsince => hne (h.since.mp hsince)
    exact iff_of_false hsome (append_ne_nil_of_right_ne_nil _ (cons_ne_nil _ _))
  · have hlimit := (any_eq_false _ _).mp hopen.1 maxSteps hmax
    exact not_le.mp (of_decide_eq_false hlimit)
  · have hlimit := (any_eq_false _ _).mp hopen.2 maxEvents hmax
    exact not_le.mp (of_decide_eq_false hlimit)

/-- A flush hands out what is pending. It does not need the pending frames to be below the limits,
since it is also made when a frame has just reached one. -/
theorem flush_passes (numbers : JsonText.NumberText ℚ)
    (hempty : InStep { batcher with pendingFrames := [], pendingEventCount := 0,
                                    pendingSince := none })
    (hnone : batcher.pendingFrames = [] → batcher.InStep) (hcoalesce : batcher.coalesce = none)
    (horder : InOrder batcher.pendingFrames) :
    Passes batcher [] ((batcher.flush numbers).1.toList, (batcher.flush numbers).2) := by
  by_cases h : batcher.pendingFrames = []
  · rw [flush, if_pos h]
    exact .refl (hnone h)
  · rw [flush_of_coalesce_none h hcoalesce]
    obtain ⟨batch, hbuild, hframes, hdescribes⟩ := buildBatch_of_inOrder h horder
    refine ⟨⟨rfl, rfl, rfl, rfl⟩, ?_, ?_, hempty⟩
    · rw [hbuild, append_nil, toList_some, flatMap_singleton, hframes,
        append_nil]
    · intro other hother
      rw [hbuild, toList_some, mem_singleton] at hother
      exact hother ▸ hdescribes

theorem flushIfDelayElapsed_passes (numbers : JsonText.NumberText ℚ) (h : batcher.InStep)
    (hcoalesce : batcher.coalesce = none) (horder : InOrder batcher.pendingFrames)
    (now : JsNumber) :
    Passes batcher [] ((batcher.flushIfDelayElapsed numbers now).1.toList,
      (batcher.flushIfDelayElapsed numbers now).2) := by
  unfold flushIfDelayElapsed
  split
  · exact .refl h
  · exact flush_passes numbers (inStep_empty h) (fun _ => h) hcoalesce horder

/-- What the batcher takes of a frame: the frame with its allowed events, if there are any. -/
def kept (numbers : JsonText.NumberText ℚ) (batcher : EventBroadcastBatcher)
    (frame : EventBroadcastFrame) : List EventBroadcastFrame :=
  if batcher.allowedEvents frame = [] then [] else [batcher.adjustedFrame numbers frame]

theorem serverStep_of_mem_kept {frame other : EventBroadcastFrame}
    (h : other ∈ kept numbers batcher frame) : other.serverStep = frame.serverStep := by
  unfold kept at h
  split at h
  · cases h
  · obtain rfl := mem_singleton.mp h
    exact serverStep_refreshChecksum _ _

theorem flatMap_kept (batcher : EventBroadcastBatcher) (frame : EventBroadcastFrame) :
    (kept numbers batcher frame).flatMap EventBroadcastFrame.events =
      batcher.allowedEvents frame := by
  unfold kept
  split
  · next h => rw [h, flatMap_nil]
  · rw [flatMap_singleton]
    exact events_refreshChecksum _ _

theorem SameOptions.kept_eq {a b : EventBroadcastBatcher} (h : SameOptions a b)
    (frame : EventBroadcastFrame) : kept numbers b frame = kept numbers a frame := by
  have hallowed : b.allowedEvents frame = a.allowedEvents frame := by
    rw [allowedEvents, allowedEvents, h.filter]
  rw [kept, kept, adjustedFrame, adjustedFrame, hallowed]

theorem takeIn_passes (h : batcher.InStep) (hcoalesce : batcher.coalesce = none)
    (frame : EventBroadcastFrame) (now : JsNumber)
    (horder : InOrder (batcher.pendingFrames ++ kept numbers batcher frame)) :
    Passes batcher (kept numbers batcher frame) (batcher.takeIn numbers frame now) := by
  unfold takeIn
  dsimp only
  split
  · next hempty =>
    rw [kept, if_pos hempty]
    exact .refl h
  · next hevents =>
    have hkept : kept numbers batcher frame = [batcher.adjustedFrame numbers frame] :=
      if_neg hevents
    rw [hkept] at horder ⊢
    split
    · -- a priority event: what is pending goes first, then the frame in a batch of its own
      have hflush := flush_passes numbers (inStep_empty h) (fun _ => h) hcoalesce
        (horder.sublist (sublist_append_left _ _))
      obtain ⟨batch, hbuild, hframes, hdescribes⟩ :=
        buildBatch_of_inOrder (cons_ne_nil (batcher.adjustedFrame numbers frame) [])
          (pairwise_singleton _ _)
      have hown : Passes (batcher.flush numbers).2 [batcher.adjustedFrame numbers frame]
          ((buildBatch [batcher.adjustedFrame numbers frame]).toList, (batcher.flush numbers).2) := by
        rw [hbuild, toList_some]
        refine ⟨.refl _, ?_, fun other hother => ?_, hflush.inStep⟩
        · rw [flatMap_singleton, hframes, flush_pendingFrames, append_nil,
            nil_append]
        · exact mem_singleton.mp hother ▸ hdescribes
      exact hflush.append hown
    · split
      · -- the frame reaches a limit
        have hold := inStep_empty h
        have hempty : InStep
            { batcher.addPendingFrame (batcher.adjustedFrame numbers frame) now with
              pendingFrames := [], pendingEventCount := 0, pendingSince := none } := hold
        have hflush := flush_passes numbers hempty
          (fun hnil => absurd hnil (append_ne_nil_of_right_ne_nil _ (cons_ne_nil _ _)))
          hcoalesce horder
        refine ⟨⟨hflush.options.maxSteps, hflush.options.maxEvents, hflush.options.filter,
          hflush.options.coalesce⟩, ?_, hflush.described, hflush.inStep⟩
        exact hflush.frames.trans (append_nil _)
      · next hflush =>
        exact ⟨⟨rfl, rfl, rfl, rfl⟩, rfl, fun _ hbatch => absurd hbatch not_mem_nil,
          inStep_addPendingFrame h (Bool.eq_false_iff.mpr hflush)⟩

/-- **One call of `ingestFrame` passes the frame on.** -/
theorem ingestFrame_passes (h : batcher.InStep) (hcoalesce : batcher.coalesce = none)
    (frame : EventBroadcastFrame) (now : JsNumber)
    (horder : InOrder (batcher.pendingFrames ++ kept numbers batcher frame)) :
    Passes batcher (kept numbers batcher frame) (batcher.ingestFrame numbers frame now) := by
  have hdelay := flushIfDelayElapsed_passes numbers h hcoalesce
    (horder.sublist (sublist_append_left _ _)) now
  have hrest : InOrder ((batcher.flushIfDelayElapsed numbers now).2.pendingFrames ++
      kept numbers (batcher.flushIfDelayElapsed numbers now).2 frame) := by
    rw [hdelay.options.kept_eq]
    refine horder.sublist (.append_right ?_ _)
    have hsub := sublist_append_right
      ((batcher.flushIfDelayElapsed numbers now).1.toList.flatMap EventBroadcastBatch.frames)
      (batcher.flushIfDelayElapsed numbers now).2.pendingFrames
    rwa [hdelay.frames, append_nil] at hsub
  have hin := takeIn_passes hdelay.inStep (hdelay.options.coalesce.trans hcoalesce) frame now hrest
  rw [hdelay.options.kept_eq] at hin
  exact hdelay.append hin

/-! ### Sequences of calls -/

end EventBroadcastBatcher

/-- A call on a batcher. -/
inductive BatcherCall
  | ingestFrame (frame : EventBroadcastFrame) (now : JsNumber)
  | flush

/-- The frame that a call brings. -/
def BatcherCall.frame? : BatcherCall → Option EventBroadcastFrame
  | .ingestFrame frame _ => some frame
  | .flush => none

namespace EventBroadcastBatcher

/-- What one call returns. -/
def call (numbers : JsonText.NumberText ℚ) (batcher : EventBroadcastBatcher) :
    BatcherCall → List EventBroadcastBatch × EventBroadcastBatcher
  | .ingestFrame frame now => batcher.ingestFrame numbers frame now
  | .flush => ((batcher.flush numbers).1.toList, (batcher.flush numbers).2)

/-- All batches that a sequence of calls returns. -/
def calls (numbers : JsonText.NumberText ℚ) :
    List BatcherCall → EventBroadcastBatcher → List EventBroadcastBatch × EventBroadcastBatcher
  | [], batcher => ([], batcher)
  | action :: actions, batcher =>
      let (batches, batcher) := batcher.call numbers action
      let (rest, batcher) := calls numbers actions batcher
      (batches ++ rest, batcher)

variable {batcher : EventBroadcastBatcher}

theorem call_passes (h : batcher.InStep) (hcoalesce : batcher.coalesce = none)
    (action : BatcherCall) (horder : InOrder (batcher.pendingFrames ++
      action.frame?.toList.flatMap (kept numbers batcher))) :
    Passes batcher (action.frame?.toList.flatMap (kept numbers batcher))
      (batcher.call numbers action) := by
  rcases action with ⟨frame, now⟩ | _
  · rw [BatcherCall.frame?, toList_some, flatMap_singleton] at horder ⊢
    exact ingestFrame_passes h hcoalesce frame now horder
  · exact flush_passes numbers (inStep_empty h) (fun _ => h) hcoalesce
      (horder.sublist (sublist_append_left _ _))

/-- **A sequence of calls passes all its frames on.** -/
theorem calls_passes (actions : List BatcherCall) (h : batcher.InStep)
    (hcoalesce : batcher.coalesce = none) (horder : InOrder (batcher.pendingFrames ++
      (actions.filterMap BatcherCall.frame?).flatMap (kept numbers batcher))) :
    Passes batcher ((actions.filterMap BatcherCall.frame?).flatMap (kept numbers batcher))
      (calls numbers actions batcher) := by
  induction actions generalizing batcher with
  | nil => exact .refl h
  | cons action actions ih =>
    have hsplit : ((action :: actions).filterMap BatcherCall.frame?).flatMap (kept numbers batcher) =
        action.frame?.toList.flatMap (kept numbers batcher) ++
          (actions.filterMap BatcherCall.frame?).flatMap (kept numbers batcher) := by
      rw [← flatMap_append]
      rcases action with ⟨frame, now⟩ | _
      · rfl
      · rfl
    rw [hsplit] at horder ⊢
    rw [← append_assoc] at horder
    have hfirst := call_passes h hcoalesce action (horder.sublist (sublist_append_left _ _))
    have hsame : ∀ frames : List EventBroadcastFrame,
        frames.flatMap (kept numbers (batcher.call numbers action).2) =
          frames.flatMap (kept numbers batcher) := fun frames =>
      flatMap_congr fun frame _ => hfirst.options.kept_eq frame
    have hrest : InOrder ((batcher.call numbers action).2.pendingFrames ++
        (actions.filterMap BatcherCall.frame?).flatMap
          (kept numbers (batcher.call numbers action).2)) := by
      rw [hsame]
      refine horder.sublist (.append_right ?_ _)
      rw [← hfirst.frames]
      exact sublist_append_right _ _
    have hlast := ih hfirst.inStep (hfirst.options.coalesce.trans hcoalesce) hrest
    rw [hsame] at hlast
    exact hfirst.append hlast

theorem calls_append (actions actions' : List BatcherCall) (batcher : EventBroadcastBatcher) :
    calls numbers (actions ++ actions') batcher =
      ((calls numbers actions batcher).1 ++
          (calls numbers actions' (calls numbers actions batcher).2).1,
        (calls numbers actions' (calls numbers actions batcher).2).2) := by
  induction actions generalizing batcher with
  | nil => rfl
  | cons action actions ih =>
    rw [cons_append, calls, calls]
    dsimp only
    rw [ih, append_assoc]

theorem normalizePositiveInt_pos {text : JsNumber → String} {value : Option JsNumber}
    {name : String} {limit : Option ℕ} (h : normalizePositiveInt text value name = .ok limit) :
    ∀ n ∈ limit, 0 < n := by
  intro n hn
  unfold normalizePositiveInt at h
  split at h
  · obtain rfl := Except.ok.inj h
    cases hn
  · split at h
    · cases h
    · split at h
      · cases h
      · split at h
        · cases h
        · next hfloor =>
          obtain rfl := Except.ok.inj h
          obtain rfl := some.inj hn
          omega

theorem inStep_create {text : JsNumber → String} {options : EventBroadcastBatcherOptions}
    (h : create text options = .ok batcher) :
    batcher.InStep ∧ batcher.coalesce = options.coalesce ∧ batcher.pendingFrames = [] := by
  unfold create at h
  rcases hsteps : normalizePositiveInt text options.maxSteps "maxSteps" with error | maxSteps
  · rw [hsteps] at h
    cases h
  · rcases hevents : normalizePositiveInt text options.maxEvents "maxEvents" with error | maxEvents
    · rw [hsteps, hevents] at h
      cases h
    · rcases hdelay : normalizeNonNegativeInt text options.maxDelayMs "maxDelayMs" with
        error | maxDelayMs
      · rw [hsteps, hevents, hdelay] at h
        cases h
      · rw [hsteps, hevents, hdelay] at h
        obtain rfl := Except.ok.inj h
        refine ⟨⟨rfl, iff_of_true rfl rfl, fun limit hlimit => ?_, fun limit hlimit => ?_⟩, rfl,
          rfl⟩
        · rcases or_eq_some_iff.mp hlimit with hlimit | ⟨-, hlimit⟩
          · exact normalizePositiveInt_pos hsteps limit hlimit
          · split at hlimit
            · cases hlimit
            · obtain rfl := some.inj hlimit
              exact Nat.one_pos
        · exact normalizePositiveInt_pos hevents limit hlimit

theorem inOrder_kept {frames : List EventBroadcastFrame} (h : InOrder frames)
    (batcher : EventBroadcastBatcher) : InOrder (frames.flatMap (kept numbers batcher)) := by
  induction frames with
  | nil => exact .nil
  | cons frame rest ih =>
    obtain ⟨hhead, htail⟩ := pairwise_cons.mp h
    rw [flatMap_cons, InOrder, pairwise_append]
    refine ⟨?_, ih htail, fun a ha b hb => ?_⟩
    · unfold kept
      split
      · exact .nil
      · exact pairwise_singleton _ _
    · obtain ⟨other, hother, hb⟩ := mem_flatMap.mp hb
      rw [serverStep_of_mem_kept ha, serverStep_of_mem_kept hb]
      exact hhead other hother

/-- **Batching loses, repeats and reorders nothing.** A new batcher without coalescing, under any
limits, delay, filter and priority types and for frames with non-decreasing server steps: the batches
of a sequence of calls and a final flush have the allowed events of all frames in their order, every
batch describes its frames, and after each call what is pending is below the limits. -/
theorem batches_lossless (numbers : JsonText.NumberText ℚ) {text : JsNumber → String}
    {options : EventBroadcastBatcherOptions} (hcoalesce : options.coalesce = none)
    {batcher : EventBroadcastBatcher} (hcreate : create text options = .ok batcher)
    (actions : List BatcherCall) (horder : InOrder (actions.filterMap BatcherCall.frame?)) :
    (calls numbers (actions ++ [.flush]) batcher).1.flatMap
        (fun batch => batch.frames.flatMap EventBroadcastFrame.events) =
      (actions.filterMap BatcherCall.frame?).flatMap batcher.allowedEvents ∧
    (∀ batch ∈ (calls numbers (actions ++ [.flush]) batcher).1, batch.Describes) ∧
    ∀ before after, actions = before ++ after →
      (∀ maxSteps ∈ batcher.maxSteps,
        (calls numbers before batcher).2.pendingFrames.length < maxSteps) ∧
      ∀ maxEvents ∈ batcher.maxEvents,
        ((calls numbers before batcher).2.pendingFrames.map
          fun frame => frame.events.length).sum < maxEvents := by
  obtain ⟨hinStep, hoptions, hpending⟩ := inStep_create hcreate
  have hpasses : ∀ before : List BatcherCall, List.Sublist (before.filterMap BatcherCall.frame?)
      (actions.filterMap BatcherCall.frame?) →
        Passes batcher ((before.filterMap BatcherCall.frame?).flatMap (kept numbers batcher))
          (calls numbers before batcher) := by
    intro before hsub
    refine calls_passes before hinStep (hoptions.trans hcoalesce) ?_
    rw [hpending, List.nil_append]
    exact inOrder_kept (horder.sublist hsub) batcher
  -- the final flush brings no frame and leaves nothing pending
  have hframes : (actions ++ [BatcherCall.flush]).filterMap BatcherCall.frame? =
      actions.filterMap BatcherCall.frame? := by
    rw [List.filterMap_append]
    exact List.append_nil _
  have hall := hpasses (actions ++ [.flush]) (hframes ▸ List.Sublist.refl _)
  have hnone : (calls numbers (actions ++ [.flush]) batcher).2.pendingFrames = [] := by
    rw [calls_append]
    exact flush_pendingFrames _
  refine ⟨?_, hall.described, fun before after hactions => ?_⟩
  · have hevents := congrArg (List.flatMap EventBroadcastFrame.events) hall.frames
    rw [hnone, hpending, hframes, List.append_nil, List.nil_append, List.flatMap_assoc,
      List.flatMap_assoc] at hevents
    rw [hevents]
    exact List.flatMap_congr fun frame _ => flatMap_kept batcher frame
  · have hbefore := hpasses before (by
      rw [hactions, List.filterMap_append]
      exact List.sublist_append_left _ _)
    refine ⟨fun maxSteps hmax => ?_, fun maxEvents hmax => ?_⟩
    · exact hbefore.inStep.steps maxSteps (hbefore.options.maxSteps.symm ▸ hmax)
    · rw [← hbefore.inStep.count]
      exact hbefore.inStep.events maxEvents (hbefore.options.maxEvents.symm ▸ hmax)

/-- Two frames, of which one has an event that is not allowed. -/
theorem batches_lossless_filter :
    ∃ batcher, create (fun _ => "") ⟨none, none, none, some (createEventTypeFilter ["a"]), none,
        none⟩ = .ok batcher ∧
      (calls JsonText.fractionText [.ingestFrame ⟨.fin 1, [⟨"a", 0, 0, 0, .null⟩], none, none⟩ .nan,
        .ingestFrame ⟨.fin 2, [⟨"b", 1, 0, 0, .null⟩, ⟨"a", 0, 0, 1, .null⟩], none, none⟩ .nan,
        .flush] batcher).1.flatMap (fun batch => batch.frames.flatMap EventBroadcastFrame.events) =
      [⟨"a", 0, 0, 0, .null⟩, ⟨"a", 0, 0, 1, .null⟩] := by
  have hcreate : create (fun _ => "") ⟨none, none, none, some (createEventTypeFilter ["a"]), none,
      none⟩ = .ok _ := rfl
  refine ⟨_, hcreate, (batches_lossless JsonText.fractionText rfl hcreate
    [.ingestFrame ⟨.fin 1, [⟨"a", 0, 0, 0, .null⟩], none, none⟩ .nan,
      .ingestFrame ⟨.fin 2, [⟨"b", 1, 0, 0, .null⟩, ⟨"a", 0, 0, 1, .null⟩], none, none⟩ .nan]
    ?_).1.trans rfl⟩
  refine List.pairwise_pair.mpr ?_
  decide

end EventBroadcastBatcher

/-! ### Coalesced events -/

namespace EventCoalescingOptions

variable (options : EventCoalescingOptions)

/-- Some of the events were taken out. -/
def Thinned (events events' : List (List (Option SerializedRuntimeEvent))) : Prop :=
  List.Forall₂ (List.Forall₂ fun event event' => event' = event ∨ event' = none) events events'

theorem Thinned.takeOut {events events' : List (List (Option SerializedRuntimeEvent))}
    (h : Thinned events events') (place : ℕ × ℕ) : Thinned events (takeOut events' place) := by
  have hset : ∀ (i : ℕ) (l l' : List (Option SerializedRuntimeEvent)),
      List.Forall₂ (fun event event' => event' = event ∨ event' = none) l l' →
        List.Forall₂ (fun event event' => event' = event ∨ event' = none) l (l'.set i none) := by
    intro i l l' hl
    induction hl generalizing i with
    | nil => exact .nil
    | cons hhead htail ih =>
      rcases i with _ | i
      · exact .cons (.inr rfl) htail
      · exact .cons hhead (ih i)
  obtain ⟨frame, position⟩ := place
  rw [EventCoalescingOptions.takeOut]
  induction h generalizing frame with
  | nil =>
    rw [modify_nil]
    exact .nil
  | cons hhead htail ih =>
    rcases frame with _ | frame
    · exact .cons (hset position _ _ hhead) htail
    · exact .cons hhead (ih frame)

theorem Thinned.visit {start : List (List (Option SerializedRuntimeEvent))}
    {state : CoalescingLookup × List (List (Option SerializedRuntimeEvent))}
    (h : Thinned start state.2) (place : ℕ × ℕ) : Thinned start (options.visit state place).2 := by
  unfold EventCoalescingOptions.visit
  split
  · exact h
  · dsimp only
    split
    · exact h
    · split
      · exact h.takeOut _
      · exact h.takeOut _

theorem flatMap_compactCoalescedFrames (numbers : JsonText.NumberText ℚ)
    (frame : EventBroadcastFrame) (rest : List EventBroadcastFrame)
    (events : List (Option SerializedRuntimeEvent))
    (others : List (List (Option SerializedRuntimeEvent))) :
    (compactCoalescedFrames numbers (frame :: rest) (events :: others)).flatMap
        EventBroadcastFrame.events =
      events.filterMap id ++
        (compactCoalescedFrames numbers rest others).flatMap EventBroadcastFrame.events := by
  rw [compactCoalescedFrames, zip_cons_cons, filterMap_cons]
  dsimp only
  by_cases hempty : events.filterMap id = []
  · rw [if_pos hempty, hempty]
    rfl
  · rw [if_neg hempty]
    dsimp only
    rw [flatMap_cons, events_refreshChecksum]
    rfl

theorem sublist_of_thinned (frame : List SerializedRuntimeEvent) :
    ∀ events : List (Option SerializedRuntimeEvent),
      List.Forall₂ (fun event event' => event' = event ∨ event' = none) (frame.map some) events →
        List.Sublist (events.filterMap id) frame := by
  induction frame with
  | nil =>
    intro events h
    cases h
    exact .refl _
  | cons event frame ih =>
    intro events h
    rw [map_cons] at h
    obtain _ | ⟨hhead, htail⟩ := h
    have hrest := ih _ htail
    rcases hhead with rfl | rfl
    · exact hrest.cons_cons _
    · exact hrest.cons _

theorem compactCoalescedFrames_sublist (numbers : JsonText.NumberText ℚ)
    (frames : List EventBroadcastFrame) :
    ∀ events, Thinned (frames.map fun frame => frame.events.map some) events →
      List.Sublist
        ((compactCoalescedFrames numbers frames events).flatMap EventBroadcastFrame.events)
        (frames.flatMap EventBroadcastFrame.events) := by
  induction frames with
  | nil => exact fun _ _ => nil_sublist _
  | cons frame rest ih =>
    intro events h
    rw [map_cons] at h
    obtain _ | ⟨hhead, htail⟩ := h
    rw [flatMap_compactCoalescedFrames, flatMap_cons]
    exact (sublist_of_thinned frame.events _ hhead).append (ih _ htail)

/-- **Coalescing leaves events out**, and adds and moves none. -/
theorem coalesce_sublist (numbers : JsonText.NumberText ℚ) (frames : List EventBroadcastFrame) :
    List.Sublist ((options.coalesceBatchFrames numbers frames).flatMap EventBroadcastFrame.events)
      (frames.flatMap EventBroadcastFrame.events) := by
  have hvisits : ∀ (visited : List (ℕ × ℕ))
      (state : CoalescingLookup × List (List (Option SerializedRuntimeEvent))),
      Thinned (frames.map fun frame => frame.events.map some) state.2 →
        Thinned (frames.map fun frame => frame.events.map some)
          (visited.foldl options.visit state).2 := by
    intro visited
    induction visited with
    | nil => exact fun _ h => h
    | cons place rest ih => exact fun state h => ih _ (h.visit options place)
  rw [coalesceBatchFrames]
  split
  · exact .refl _
  · refine compactCoalescedFrames_sublist numbers frames _ (hvisits _ _ ?_)
    exact forall₂_same.mpr fun _ _ => forall₂_same.mpr fun _ _ => .inl rfl

end EventCoalescingOptions

end IdleEngine
