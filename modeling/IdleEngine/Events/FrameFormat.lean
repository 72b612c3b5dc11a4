import IdleEngine.Events.Frames
import IdleEngine.Lib.Ring

/-!
# The format of the frames

The format controller keeps the last per-channel averages in a ring, with their running total, and
selects the format by the density it computes from it. `Records` says that ring and total hold a
window of averages; a sample keeps this (`Records.recordSample`), so that total, diagnostics and
format are those of the last samples (`runningTotal_eq_window_iff`).

A window length is checked before it is rounded down, so that one below 1 gives a ring without
slots: the first sample evicts `undefined`, and the total is not a number from then on
(`runningTotal_nan`).
-/

namespace IdleEngine

open List

/-- What the controller throws, with the number it has received. -/
inductive FrameFormatError
  | channelCount (received : JsNumber)
  | windowLength (received : JsNumber)
  | densityThreshold (received : JsNumber)
  /-- The `RangeError` of `new Array`. -/
  | arrayLength
  | events (received : JsNumber)
  deriving DecidableEq

/-- The message, over the texts of numbers. -/
def FrameFormatError.message (text : JsNumber → String) : FrameFormatError → String
  | channelCount received =>
    "RuntimeEventFrameFormatController requires a positive channel count (received "
      ++ text received ++ ")."
  | windowLength received =>
    "RuntimeEventFrameFormatController window length must be a positive number (received "
      ++ text received ++ ")."
  | densityThreshold received =>
    "RuntimeEventFrameFormatController density threshold must be non-negative (received "
      ++ text received ++ ")."
  | arrayLength => "Invalid array length"
  | events received =>
    "RuntimeEventFrameFormatController cannot record negative events for a tick (received "
      ++ text received ++ ")."

/-- A check for a finite number that is not `refused`. -/
def JsNumber.check (refused : ℚ → Bool) (error : JsNumber → FrameFormatError) (value : JsNumber) :
    Except FrameFormatError ℚ :=
  match value.finite? with
  | some finite => if refused finite then .error (error value) else .ok finite
  | none => .error (error value)

theorem JsNumber.check_eq_ok {refused : ℚ → Bool} {error : JsNumber → FrameFormatError}
    {value : JsNumber} {finite : ℚ} (h : value.check refused error = .ok finite) :
    value = .fin finite := by
  rcases value with value | _ | _ | _
  · rw [JsNumber.check] at h
    rcases hrefused : refused value
    · simp_all [JsNumber.finite?]
    · simp_all [JsNumber.finite?]
  all_goals cases h

/-- `RuntimeEventFrameAutoFallbackOptions`. -/
structure RuntimeEventFrameAutoFallbackOptions where
  enabled : Bool
  windowLength : Option JsNumber
  densityThreshold : Option JsNumber

/-- `RuntimeEventFrameExportOptions`. -/
structure RuntimeEventFrameExportOptions where
  defaultFormat : Option RuntimeEventFrameFormat
  autoFallback : Option RuntimeEventFrameAutoFallbackOptions

/-- The window length that the constructor checks. -/
def RuntimeEventFrameExportOptions.windowLength (options : RuntimeEventFrameExportOptions) :
    JsNumber :=
  (options.autoFallback.bind (·.windowLength)).getD (.fin 256)

/-- `RuntimeEventFrameDiagnostics`, with `none` for an average that is not a number. -/
structure RuntimeEventFrameDiagnostics where
  windowLength : ℕ
  samples : ℕ
  averageEventsPerChannel : Option ℚ
  densityThreshold : ℚ
  featureFlagEnabled : Bool

/-- `RuntimeEventFrameExportState`. -/
structure RuntimeEventFrameExportState where
  format : RuntimeEventFrameFormat
  diagnostics : RuntimeEventFrameDiagnostics

/-- `EventFrameFormatChange`. -/
structure EventFrameFormatChange where
  previousFormat : RuntimeEventFrameFormat
  nextFormat : RuntimeEventFrameFormat
  diagnostics : RuntimeEventFrameDiagnostics

/-- The fields of the controller that are set once. -/
structure FrameFormatSettings where
  windowLength : ℕ
  densityThreshold : ℚ
  channelCount : ℚ
  featureFlagEnabled : Bool

/-- `RuntimeEventFrameFormatController`. An index or a total that is not a number is `none`. -/
structure RuntimeEventFrameFormatController extends FrameFormatSettings where
  history : List ℚ
  historyIndex : Option ℕ
  historySize : ℕ
  runningTotal : Option ℚ
  currentFormat : RuntimeEventFrameFormat

namespace RuntimeEventFrameFormatController

/-- The constructor. -/
def create (channelCount : JsNumber) (options : RuntimeEventFrameExportOptions) :
    Except FrameFormatError RuntimeEventFrameFormatController := do
  let channelCount ← channelCount.check (· ≤ 0) .channelCount
  let windowLength ← options.windowLength.check (· ≤ 0) .windowLength
  let densityThreshold ←
    ((options.autoFallback.bind (·.densityThreshold)).getD (.fin 2)).check (· < 0) .densityThreshold
  if 2 ^ 32 ≤ ⌊windowLength⌋₊ then .error .arrayLength
  else .ok {
    history := List.replicate ⌊windowLength⌋₊ 0
    windowLength := ⌊windowLength⌋₊
    densityThreshold
    channelCount
    featureFlagEnabled := options.autoFallback.any (·.enabled)
    historyIndex := some 0
    historySize := 0
    runningTotal := some 0
    currentFormat := options.defaultFormat.getD .structOfArrays }

/-- The sample of a tick. -/
def averagePerChannel (previousTickEvents : ℚ) (controller : RuntimeEventFrameFormatController) :
    ℚ :=
  if controller.channelCount = 0 then 0 else previousTickEvents / controller.channelCount

/-- `recordSample`. A place outside the history holds `undefined`, and what is subtracted from the
total is then not a number. -/
def recordSample (previousTickEvents : ℚ) (controller : RuntimeEventFrameFormatController) :
    RuntimeEventFrameFormatController :=
  let averagePerChannel := controller.averagePerChannel previousTickEvents
  let previous := controller.historyIndex.bind (controller.history[·]?)
  let full := controller.historySize = controller.windowLength
  { controller with
    historySize := if full then controller.historySize else controller.historySize + 1
    runningTotal :=
      (if full then controller.runningTotal.bind fun total => previous.map (total - ·)
        else controller.runningTotal).map (· + averagePerChannel)
    history :=
      match controller.historyIndex with
      -- a property of the array that is none of its elements
      | none => controller.history
      | some index =>
        if index < controller.history.length then controller.history.set index averagePerChannel
        else controller.history ++ [averagePerChannel]
    -- the remainder by 0 is not a number
    historyIndex := controller.historyIndex.bind fun index =>
      if controller.windowLength = 0 then none else some ((index + 1) % controller.windowLength) }

/-- `getDiagnostics`. -/
def getDiagnostics (controller : RuntimeEventFrameFormatController) :
    RuntimeEventFrameDiagnostics where
  windowLength := controller.windowLength
  samples := controller.historySize
  averageEventsPerChannel :=
    if controller.historySize = 0 then some 0
    else controller.runningTotal.map (· / controller.historySize)
  densityThreshold := controller.densityThreshold
  featureFlagEnabled := controller.featureFlagEnabled

/-- `getExportState`. -/
def getExportState (controller : RuntimeEventFrameFormatController) :
    RuntimeEventFrameExportState :=
  { format := controller.currentFormat, diagnostics := controller.getDiagnostics }

/-- The format for a density. -/
def selectFormat (average : Option ℚ) (threshold : ℚ) : RuntimeEventFrameFormat :=
  if average.any (· < threshold) then .objectArray else .structOfArrays

/-- The number of events that `beginTick` takes. -/
def acceptedEvents (previousTickEvents : JsNumber) : Except FrameFormatError ℚ :=
  previousTickEvents.check (· < 0) .events

/-- `beginTick`. -/
def beginTick (previousTickEvents : JsNumber) (controller : RuntimeEventFrameFormatController) :
    Except FrameFormatError (Option EventFrameFormatChange × RuntimeEventFrameFormatController) := do
  let events ← acceptedEvents previousTickEvents
  let recorded := controller.recordSample events
  if !controller.featureFlagEnabled then return (none, recorded)
  let diagnostics := recorded.getDiagnostics
  let next :=
    selectFormat diagnostics.averageEventsPerChannel controller.densityThreshold
  let change :=
    if next = controller.currentFormat then none
    else some { previousFormat := controller.currentFormat, nextFormat := next, diagnostics }
  return (change, { recorded with currentFormat := next })

/-- The controller after a tick, which leaves it as it is when it throws. -/
def afterTick (controller : RuntimeEventFrameFormatController) (events : JsNumber) :
    RuntimeEventFrameFormatController :=
  match controller.beginTick events with
  | .ok result => result.2
  | .error _ => controller

/-- The controller after ticks with the given counts. -/
def after (controller : RuntimeEventFrameFormatController) (ticks : List JsNumber) :
    RuntimeEventFrameFormatController :=
  ticks.foldl afterTick controller

/-- The per-channel averages of the counts that are accepted. -/
def averages (channelCount : ℚ) (ticks : List JsNumber) : List ℚ :=
  (ticks.filterMap fun tick => (acceptedEvents tick).toOption).map (· / channelCount)

/-- What is exported for a window, by a controller that starts with `format`. -/
def exportOf (settings : FrameFormatSettings) (format : RuntimeEventFrameFormat)
    (window : List ℚ) : RuntimeEventFrameExportState :=
  let average := some (if window.length = 0 then 0 else window.sum / window.length)
  { format :=
      if settings.featureFlagEnabled && !window.isEmpty then
        selectFormat average settings.densityThreshold
      else format
    diagnostics :=
      { windowLength := settings.windowLength
        samples := window.length
        averageEventsPerChannel := average
        densityThreshold := settings.densityThreshold
        featureFlagEnabled := settings.featureFlagEnabled } }

theorem exportOf_format_off {settings : FrameFormatSettings} {format : RuntimeEventFrameFormat}
    {window : List ℚ} (hflag : settings.featureFlagEnabled = false) :
    (exportOf settings format window).format = format := by
  rw [exportOf, hflag]
  rfl

theorem exportOf_format_on {settings : FrameFormatSettings} {format : RuntimeEventFrameFormat}
    {window : List ℚ} (hflag : settings.featureFlagEnabled = true) (hsome : window.isEmpty = false) :
    (exportOf settings format window).format =
      selectFormat (exportOf settings format window).diagnostics.averageEventsPerChannel
        settings.densityThreshold := by
  rw [exportOf, hflag, hsome]
  rfl

/-! ### The window -/

/-- The ring holds the averages of a window, and the total is their sum. -/
structure Records (controller : RuntimeEventFrameFormatController) (window : List ℚ) : Prop where
  ring : ∃ (slots : List (Option ℚ)) (index : ℕ), Ring.Holds slots index window ∧
    slots.length = controller.windowLength ∧ controller.history = slots.map (·.getD 0) ∧
    controller.historyIndex = some index
  historySize_eq : controller.historySize = window.length
  runningTotal_eq : controller.runningTotal = some window.sum

variable {controller : RuntimeEventFrameFormatController} {window : List ℚ}

/-- **One sample**: the window moves on by one. -/
theorem Records.recordSample (h : controller.Records window) (events : ℚ) :
    (controller.recordSample events).Records
      ((window ++ [events / controller.channelCount]).rtake controller.windowLength) := by
  obtain ⟨⟨slots, index, hholds, hlength, hhistory, hindex⟩, hsize, htotal⟩ := h
  have haverage : controller.averagePerChannel events = events / controller.channelCount := by
    rw [averagePerChannel]
    split_ifs with hzero
    · rw [hzero, div_zero]
    · rfl
  generalize events / controller.channelCount = average at haverage ⊢
  have hpos : controller.windowLength ≠ 0 := by have := hholds.lt; omega
  have hlt : index < controller.history.length := by
    rw [hhistory, length_map]
    exact hholds.lt
  have hset : (slots.set index (some average)).map (·.getD 0) =
      controller.history.set index average := by
    rw [hhistory, map_set]
    rfl
  have hnext : (controller.recordSample events).historyIndex =
      some ((index + 1) % slots.length) := by
    simp only [RuntimeEventFrameFormatController.recordSample, hindex, Option.bind_some, hlength,
      if_neg hpos]
  have hwritten : (controller.recordSample events).history =
      (slots.set index (some average)).map (·.getD 0) := by
    simp only [RuntimeEventFrameFormatController.recordSample, hindex, if_pos hlt, haverage, hset]
  have hfits := hholds.fits
  -- a full window gives up its oldest sample; one that still fills only grows
  by_cases hfull : controller.historySize = controller.windowLength
  · obtain ⟨oldest, kept, rfl⟩ : ∃ oldest kept, window = oldest :: kept :=
      exists_cons_of_length_pos (by omega)
    have hcount : kept.length + 1 = slots.length := by
      rw [length_cons] at hsize
      omega
    obtain ⟨hslot, hwrite⟩ := hholds.overwrite hcount average
    have hone : ((oldest :: kept) ++ [average]).rtake controller.windowLength =
        kept ++ [average] := by
      rw [rtake, ← hlength, ← hcount]
      simp
    rw [hone]
    refine ⟨⟨_, _, hwrite, length_set.trans hlength, hwritten, hnext⟩, ?_, ?_⟩
    · rw [length_append, length_singleton, hcount, hlength, ← hfull]
      exact if_pos hfull
    · have hevicted : controller.history[index]? = some oldest := by
        rw [hhistory, getElem?_map, hslot]
        rfl
      simp only [RuntimeEventFrameFormatController.recordSample, if_pos hfull, hindex, htotal,
        Option.bind_some, hevicted, Option.map_some, haverage, sum_cons, sum_append,
        sum_nil]
      exact congrArg some (by ring)
  · have hfree : window.length < slots.length := by omega
    rw [rtake_of_length_le (by rw [length_append, ← hlength]; exact hfree)]
    refine ⟨⟨_, _, hholds.write hfree average, length_set.trans hlength, hwritten, hnext⟩,
      ?_, ?_⟩
    · rw [length_append, length_singleton, ← hsize]
      exact if_neg hfull
    · simp only [RuntimeEventFrameFormatController.recordSample, if_neg hfull, htotal,
        Option.map_some, haverage, sum_append, sum_singleton]

theorem Records.getDiagnostics_eq (h : controller.Records window)
    (format : RuntimeEventFrameFormat) :
    controller.getDiagnostics =
      (exportOf controller.toFrameFormatSettings format window).diagnostics := by
  simp only [getDiagnostics, exportOf, h.historySize_eq, h.runningTotal_eq, Option.map_some,
    RuntimeEventFrameDiagnostics.mk.injEq, true_and, and_true]
  split_ifs <;> rfl

/-- A controller that started as `created` has recorded a window. -/
structure Follows (created controller : RuntimeEventFrameFormatController) (window : List ℚ) :
    Prop where
  records : controller.Records window
  settings_eq : controller.toFrameFormatSettings = created.toFrameFormatSettings
  exports : controller.getExportState =
    exportOf created.toFrameFormatSettings created.currentFormat window

variable {created : RuntimeEventFrameFormatController}

theorem afterTick_eq {tick : JsNumber} {events : ℚ}
    (htick : acceptedEvents tick = .ok events) :
    controller.afterTick tick =
      { controller.recordSample events with
        currentFormat :=
          if controller.featureFlagEnabled then
            selectFormat (controller.recordSample events).getDiagnostics.averageEventsPerChannel
              controller.densityThreshold
          else controller.currentFormat } := by
  rw [RuntimeEventFrameFormatController.afterTick, beginTick, htick]
  rcases controller.featureFlagEnabled with _ | _
  · rfl
  · rfl

/-- **One tick** whose count is accepted. -/
theorem Follows.afterTick (h : Follows created controller window) {tick : JsNumber} {events : ℚ}
    (htick : acceptedEvents tick = .ok events) :
    Follows created (controller.afterTick tick)
      ((window ++ [events / created.channelCount]).rtake created.windowLength) := by
  have hrecords := h.records.recordSample events
  have hpos : 0 < controller.windowLength := by
    obtain ⟨⟨slots, index, hholds, hlength, -⟩, -⟩ := h.records
    exact hlength ▸ Nat.zero_lt_of_lt hholds.lt
  have hsettings := h.settings_eq
  rw [← hsettings]
  generalize hnext : (window ++ [events / controller.channelCount]).rtake controller.windowLength =
    next at hrecords ⊢
  have hdiagnostics := hrecords.getDiagnostics_eq created.currentFormat
  have hsome : next.isEmpty = false := by
    rw [isEmpty_eq_false_iff_exists_mem, ← length_pos_iff_exists_mem, ← hnext, rtake,
      length_drop, length_append, length_singleton]
    omega
  have hformat := congrArg RuntimeEventFrameExportState.format h.exports
  rw [afterTick_eq htick]
  refine ⟨⟨hrecords.ring, hrecords.historySize_eq, hrecords.runningTotal_eq⟩, hsettings, ?_⟩
  have hselected : (if controller.featureFlagEnabled then
      selectFormat (controller.recordSample events).getDiagnostics.averageEventsPerChannel
        controller.densityThreshold
      else controller.currentFormat) =
      (exportOf controller.toFrameFormatSettings created.currentFormat next).format := by
    rcases hflag : controller.featureFlagEnabled with _ | _
    · -- the format is still the one of the start
      rw [exportOf_format_off hflag]
      exact hformat.trans (exportOf_format_off (hsettings ▸ hflag))
    · rw [exportOf_format_on hflag hsome, hdiagnostics]
      rfl
  rw [← hsettings]
  exact congrArg₂ RuntimeEventFrameExportState.mk hselected hdiagnostics

/-! ### The runs -/

theorem afterTick_of_error {tick : JsNumber} {error : FrameFormatError}
    (htick : acceptedEvents tick = .error error) : controller.afterTick tick = controller := by
  rw [RuntimeEventFrameFormatController.afterTick, beginTick, htick]
  rfl

theorem averages_cons (channelCount : ℚ) (tick : JsNumber) (ticks : List JsNumber) :
    averages channelCount (tick :: ticks) = averages channelCount [tick] ++
      averages channelCount ticks := by
  rw [averages, averages, averages, ← map_append, ← filterMap_append]
  rfl

theorem averages_of_ok {channelCount events : ℚ} {tick : JsNumber}
    (htick : acceptedEvents tick = .ok events) :
    averages channelCount [tick] = [events / channelCount] := by
  rw [averages, filterMap_cons_some (b := events) (by rw [htick]; rfl)]
  rfl

theorem averages_of_error {channelCount : ℚ} {tick : JsNumber} {error : FrameFormatError}
    (htick : acceptedEvents tick = .error error) : averages channelCount [tick] = [] := by
  rw [averages, filterMap_cons_none (by rw [htick]; rfl)]
  rfl

/-- **Every run**: the window is that of the last samples. -/
theorem Follows.after (h : Follows created controller window) (ticks : List JsNumber) :
    Follows created (controller.after ticks)
      ((window ++ averages created.channelCount ticks).rtake created.windowLength) := by
  induction ticks generalizing controller window with
  | nil =>
    obtain ⟨⟨slots, index, hholds, hlength, -⟩, -⟩ := h.records
    rw [averages, filterMap_nil, map_nil, append_nil, ← h.settings_eq, ← hlength,
      rtake_of_length_le hholds.fits]
    exact h
  | cons tick ticks ih =>
    rw [averages_cons]
    rcases htick : acceptedEvents tick with error | events
    · rw [averages_of_error htick, nil_append, RuntimeEventFrameFormatController.after,
        foldl_cons, afterTick_of_error htick]
      exact ih h
    · have hrest := ih (h.afterTick htick)
      rw [rtake_append_rtake] at hrest
      rwa [averages_of_ok htick, ← append_assoc]

theorem after_of_averages_eq_nil {ticks : List JsNumber}
    (h : averages controller.channelCount ticks = []) : controller.after ticks = controller := by
  induction ticks with
  | nil => rfl
  | cons tick ticks ih =>
    rw [averages_cons, append_eq_nil_iff] at h
    rcases htick : acceptedEvents tick with error | events
    · rw [RuntimeEventFrameFormatController.after, foldl_cons, afterTick_of_error htick]
      exact ih h.2
    · rw [averages_of_ok htick] at h
      cases h.1

/-- **A window without slots**: the first sample leaves no number. -/
theorem runningTotal_nan (ticks : List JsNumber) (hlength : controller.windowLength = 0)
    (hsize : controller.historySize = 0)
    (hlost : controller.runningTotal = none ∨
      controller.history = [] ∧ averages controller.channelCount ticks ≠ []) :
    (controller.after ticks).runningTotal = none := by
  induction ticks generalizing controller with
  | nil => exact hlost.elim id fun hsome => absurd rfl hsome.2
  | cons tick ticks ih =>
    rcases htick : acceptedEvents tick with error | events
    · rw [RuntimeEventFrameFormatController.after, foldl_cons, afterTick_of_error htick]
      refine ih hlength hsize (hlost.imp_right fun hsome => ⟨hsome.1, ?_⟩)
      have hrest := hsome.2
      rwa [averages_cons, averages_of_error htick, nil_append] at hrest
    · have hnone : (controller.recordSample events).runningTotal = none := by
        have hfull := hsize.trans hlength.symm
        simp only [RuntimeEventFrameFormatController.recordSample, if_pos hfull]
        rcases hlost with hnone | ⟨hempty, -⟩
        · rw [hnone]
          rfl
        · rcases controller.historyIndex with _ | index <;> simp [hempty]
      have hstays : (controller.recordSample events).historySize = 0 :=
        (if_pos (hsize.trans hlength.symm)).trans hsize
      rw [RuntimeEventFrameFormatController.after, foldl_cons, afterTick_eq htick]
      exact ih hlength hstays (.inl hnone)

/-- A new controller, of which no sample is known. -/
theorem create_eq {channelCount : JsNumber} {options : RuntimeEventFrameExportOptions}
    (h : create channelCount options = .ok created) :
    ∃ length : ℚ, options.windowLength = .fin length ∧ created.windowLength = ⌊length⌋₊ ∧
      created.history = replicate created.windowLength 0 ∧ created.historyIndex = some 0 ∧
      created.historySize = 0 ∧ created.runningTotal = some 0 := by
  unfold create at h
  obtain ⟨count, -, h⟩ := Outcome.bind_ok h
  obtain ⟨length, hlength, h⟩ := Outcome.bind_ok h
  obtain ⟨density, -, h⟩ := Outcome.bind_ok h
  split_ifs at h
  obtain rfl := Except.ok.inj h
  exact ⟨length, JsNumber.check_eq_ok hlength, rfl, rfl, rfl, rfl, rfl⟩

/-- **The running total** is the sum of the last samples, and what is exported is that of the last
samples, if and only if no sample has been taken or the window length is at least 1. -/
theorem runningTotal_eq_window_iff {channelCount : JsNumber}
    {options : RuntimeEventFrameExportOptions} (h : create channelCount options = .ok created)
    (ticks : List JsNumber) :
    ((created.after ticks).runningTotal =
        some ((averages created.channelCount ticks).rtake created.windowLength).sum ∧
      (created.after ticks).getExportState =
        exportOf created.toFrameFormatSettings created.currentFormat
          ((averages created.channelCount ticks).rtake created.windowLength)) ↔
      averages created.channelCount ticks = [] ∨ (JsNumber.fin 1).le options.windowLength := by
  obtain ⟨length, hreceived, hwindow, hhistory, hindex, hsize, htotal⟩ := create_eq h
  rw [hreceived, JsNumber.le, decide_eq_true_eq, ← Nat.floor_pos, ← hwindow]
  have hexports : created.getExportState =
      exportOf created.toFrameFormatSettings created.currentFormat [] := by
    rw [getExportState, getDiagnostics, hsize, exportOf, List.isEmpty_nil, Bool.not_true,
      Bool.and_false]
    rfl
  rcases Nat.eq_zero_or_pos created.windowLength with hzero | hpos
  · rw [hzero] at hhistory
    refine ⟨fun hwindow => ?_, ?_⟩
    · by_contra hnone
      rw [not_or] at hnone
      rw [runningTotal_nan ticks hzero hsize (.inr ⟨hhistory, hnone.1⟩)] at hwindow
      cases hwindow.1
    · rintro (hnone | hpos)
      · rw [after_of_averages_eq_nil hnone, hnone, htotal, List.rtake_nil]
        exact ⟨rfl, hexports⟩
      · omega
  · refine iff_of_true ?_ (.inr hpos)
    have hstart : Follows created created [] := by
      refine ⟨⟨⟨_, 0, Ring.Holds.empty hpos, List.length_replicate, ?_, hindex⟩, hsize, htotal⟩, rfl,
        hexports⟩
      rw [hhistory, List.map_replicate]
      rfl
    have hrun := hstart.after ticks
    rw [List.nil_append] at hrun
    exact ⟨hrun.records.runningTotal_eq, hrun.exports⟩

/-- The options of a window. -/
def windowOf (windowLength : ℚ) : RuntimeEventFrameExportOptions where
  defaultFormat := none
  autoFallback := some
    { enabled := true, windowLength := some (.fin windowLength), densityThreshold := none }

/-- Three ticks and one that is refused, in a window of two: the averages are 1, 2 and 3. -/
theorem runningTotal_eq_window_iff_pair : ∃ created, create (.fin 2) (windowOf 2) = .ok created ∧
    (created.after [.fin 2, .fin 4, .nan, .fin 6]).runningTotal = some 5 := by
  have hcreate : create (.fin 2) (windowOf 2) = .ok _ := rfl
  have hrun := (runningTotal_eq_window_iff hcreate [.fin 2, .fin 4, .nan, .fin 6]).mpr
    (.inr (by decide))
  exact ⟨_, hcreate, hrun.1.trans (by decide +kernel)⟩

/-- A window of half a sample is accepted, and its total is not a number after one tick. -/
theorem runningTotal_lost : (create (.fin 1) (windowOf (1 / 2))).toOption.map
    (fun created => (created.after [.fin 3]).runningTotal) = some none := by
  decide +kernel

end RuntimeEventFrameFormatController

end IdleEngine
