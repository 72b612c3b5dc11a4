import Mathlib.Data.List.Chain
import IdleEngine.Replay.Decode

/-!
# What a replay file is read as

The decoder accepts a file that was joined from the records of a replay, with its chunks in whatever
order, exactly when every record passes its checks, the commands and frames do, the frames come in
increasing order and the limits are kept; and then the replay it returns is determined
(`decode_joined_iff`). The commands of the result are those of the chunks in the order of the lines.
-/

namespace IdleEngine

open JsValue JsonText Outcome List SimReplayRenderCommandBufferFrame OrderedMap Option Except

namespace SimReplay

/-! ### Fields -/

variable {message : String}

@[simp]
theorem ensure_eq_ok {condition : Prop} [Decidable condition] {u : Unit} :
    ensure condition message = .ok u ↔ condition := by
  rw [ensure]
  split
  · next h => exact iff_of_true rfl h
  · next h => exact iff_of_false (by simp) h

variable {value : JsValue} {label : String}

theorem readNonEmptyString_eq_ok {text : String} :
    readNonEmptyString value label = .ok text ↔
      value = .string text ∧ isNonBlankString text = true := by
  unfold readNonEmptyString
  cases value with
  | string s =>
    by_cases hs : isNonBlankString s = true
    · simp only [string?, if_pos hs, ok.injEq, JsValue.string.injEq]
      exact ⟨fun h => ⟨h, h ▸ hs⟩, fun h => h.1⟩
    · simp only [string?, if_neg hs, JsValue.string.injEq]
      refine iff_of_false (by simp) ?_
      rintro ⟨rfl, htext⟩
      exact hs htext
  | _ => simp [string?]

variable {q : ℚ}

theorem readFiniteNumber_eq_ok :
    readFiniteNumber value label = .ok q ↔ value = number (.fin q) := by
  unfold readFiniteNumber
  cases value with
  | number value => cases value <;> simp [finite?, number?, JsNumber.finite?]
  | _ => simp [finite?, number?]

theorem readPositiveFiniteNumber_eq_ok :
    readPositiveFiniteNumber value label = .ok q ↔ value = number (.fin q) ∧ 0 < q := by
  rw [readPositiveFiniteNumber, bind_eq_ok]
  constructor
  · rintro ⟨a, ha, hrest⟩
    split at hrest
    · cases hrest
    · next hpos =>
      obtain rfl : a = q := ok.inj hrest
      exact ⟨readFiniteNumber_eq_ok.mp ha, not_le.mp hpos⟩
  · rintro ⟨hvalue, hpos⟩
    refine ⟨q, readFiniteNumber_eq_ok.mpr hvalue, ?_⟩
    rw [if_neg (not_le.mpr hpos)]
    rfl

theorem readNonNegativeInt_eq_ok :
    readNonNegativeInt value label = .ok q ↔ value = number (.fin q) ∧ q.den = 1 ∧ 0 ≤ q := by
  rw [readNonNegativeInt, bind_eq_ok]
  constructor
  · rintro ⟨a, ha, hrest⟩
    split at hrest
    · cases hrest
    · next hint =>
      obtain rfl : a = q := ok.inj hrest
      rw [not_or, not_not, not_lt] at hint
      exact ⟨readFiniteNumber_eq_ok.mp ha, hint⟩
  · rintro ⟨hvalue, hden, hpos⟩
    refine ⟨q, readFiniteNumber_eq_ok.mpr hvalue, ?_⟩
    rw [if_neg (by simp [hden, hpos])]
    rfl

/-- What a field of a record is read back as: undefined when it was not written. -/
def rereadField (value : JsValue) : JsValue := value.reread.getD undefined

@[simp]
theorem rereadField_string (text : String) : rereadField (string text) = string text := by
  rw [rereadField, reread_string, getD_some]

theorem rereadField_number_eq {value : JsNumber} :
    rereadField (number value) = number (.fin q) ↔ value = .fin q := by
  rw [rereadField]
  rcases hfinite : value.finite? with _ | p
  · rw [reread_number hfinite, getD_some]
    refine iff_of_false (by simp) ?_
    rintro rfl
    cases hfinite
  · obtain rfl : value = .fin p := by
      cases value with
      | fin value => exact congrArg JsNumber.fin (some.inj hfinite)
      | _ => cases hfinite
    simp

@[simp]
theorem rereadField_fin (q : ℚ) : rereadField (number (.fin q)) = number (.fin q) :=
  rereadField_number_eq.mpr rfl

/-- A number is a non-negative integer. -/
def IsNonNegativeInt (value : JsNumber) : Prop := ∃ q : ℚ, value = .fin q ∧ q.den = 1 ∧ 0 ≤ q

/-! ### Streams -/

namespace ReplayStream

variable {α : Type} {stream : ReplayStream α} {limit : ℕ}

theorem push_eq_ok {collected collected' : CollectedStream α} {candidate : JsValue} :
    stream.push limit collected candidate = .ok collected' ↔
      ∃ item, stream.normalize candidate = .ok item ∧
        stream.advance collected.last item = .ok collected'.last ∧
        collected'.items = collected.items ++ [item] ∧ collected'.items.length ≤ limit := by
  simp only [push, bind_eq_ok, ensure_eq_ok]
  constructor
  · rintro ⟨item, hitem, last, hlast, u, hlimit, hout⟩
    obtain rfl : ({ items := collected.items ++ [item], last } : CollectedStream α) = collected' :=
      ok.inj hout
    exact ⟨item, hitem, hlast, rfl, hlimit⟩
  · rintro ⟨item, hitem, hlast, hitems, hlimit⟩
    refine ⟨item, hitem, collected'.last, hlast, (), hitems ▸ hlimit, ?_⟩
    rw [← hitems]
    rfl

/-- **A stream is read exactly when each of its elements is, in its place, and the limit is
kept.** -/
theorem append_eq_ok {collected collected' : CollectedStream α} {candidates : List JsValue}
    (hlimit : collected.items.length ≤ limit) :
    stream.append limit collected candidates = .ok collected' ↔
      ∃ items, candidates.mapM stream.normalize = .ok items ∧
        items.foldlM stream.advance collected.last = .ok collected'.last ∧
        collected'.items = collected.items ++ items ∧ collected'.items.length ≤ limit := by
  induction candidates generalizing collected with
  | nil =>
    constructor
    · intro h
      obtain rfl : collected = collected' := ok.inj h
      exact ⟨[], rfl, rfl, (append_nil _).symm, hlimit⟩
    · rintro ⟨items, hitems, hlast, hout, -⟩
      obtain rfl : [] = items := ok.inj hitems
      have hsame : collected'.items = collected.items := by
        rw [hout, append_nil]
      have hposition : collected.last = collected'.last := ok.inj hlast
      obtain ⟨items, last⟩ := collected
      obtain ⟨items', last'⟩ := collected'
      obtain rfl : items' = items := hsame
      obtain rfl : last = last' := hposition
      rfl
  | cons candidate candidates ih =>
    -- one element is pushed, and the rest is read from there
    have hstep : stream.append limit collected (candidate :: candidates) = .ok collected' ↔
        ∃ next, stream.push limit collected candidate = .ok next ∧
          stream.append limit next candidates = .ok collected' := by
      rw [append, foldlM_cons, bind_eq_ok]
      rfl
    rw [hstep]
    constructor
    · rintro ⟨next, hpush, hrest⟩
      obtain ⟨item, hitem, hadvance, hnext, hnextlimit⟩ := push_eq_ok.mp hpush
      obtain ⟨items, hitems, hlast, hout, hend⟩ := (ih hnextlimit).mp hrest
      refine ⟨item :: items, ?_, ?_, ?_, hend⟩
      · rw [mapM_eq_ok] at hitems ⊢
        rw [map_cons, map_cons, hitem, hitems]
      · rw [foldlM_cons, hadvance]
        exact hlast
      · rw [hout, hnext, append_assoc, singleton_append]
    · rintro ⟨items, hitems, hlast, hout, hend⟩
      rcases items with _ | ⟨item, items⟩
      · cases mapM_eq_ok.mp hitems
      rw [mapM_eq_ok, map_cons, map_cons] at hitems
      obtain ⟨hitem, hrest⟩ := cons.inj hitems
      rw [foldlM_cons, bind_eq_ok] at hlast
      obtain ⟨last, hadvance, hlast⟩ := hlast
      have hnextlimit : (collected.items ++ [item]).length ≤ limit := by
        rw [hout] at hend
        simp only [length_append, length_cons, length_nil] at hend ⊢
        omega
      refine ⟨⟨collected.items ++ [item], last⟩,
        push_eq_ok.mpr ⟨item, hitem, hadvance, rfl, hnextlimit⟩, (ih hnextlimit).mpr ?_⟩
      exact ⟨items, mapM_eq_ok.mpr hrest, hlast, by rw [hout]; simp, hend⟩

/-- Two chunks are read like one. -/
theorem append_append (collected : CollectedStream α) (first second : List JsValue) :
    stream.append limit collected (first ++ second) =
      stream.append limit collected first >>= fun next => stream.append limit next second := by
  rw [append, foldlM_append]
  rfl

end ReplayStream

/-! ### Commands and frames -/

/-- The fields of an object inside a file are read one by one. -/
theorem rereadElement_record (fields : List (String × JsValue))
    (hnodup : (fields.map Prod.fst).Nodup) :
    (rereadElement (record fields)).isRecord = true ∧
      ∀ key, (rereadElement (record fields)).get key =
        ((find key fields).map rereadField).getD undefined := by
  obtain ⟨fields', hreread, hget⟩ := reread_record hnodup
  rw [rereadElement, hreread, getD_some]
  refine ⟨rfl, fun key => ?_⟩
  rw [hget key]
  rcases find key fields with _ | value
  · rfl
  · rfl

/-- What the decoder makes of a command of a replay. -/
def readCommand (command : Command JsValue) : Except String (Command JsValue) :=
  normalizeCommand (rereadElement (commandValue command))

/-- What the decoder makes of a view-model frame of a replay. -/
def readViewModelFrame (frame : SimReplayViewModelFrame) : Except String SimReplayViewModelFrame :=
  normalizeViewModelFrame (rereadElement frame.value)

/-- What the decoder makes of a render-command-buffer frame of a replay. -/
def readRcbFrame (frame : SimReplayRenderCommandBufferFrame) :
    Except String SimReplayRenderCommandBufferFrame :=
  normalizeRcbFrame (rereadElement frame.value)

theorem readRequestId_eq_ok {requestId requestId' : Option String} :
    readRequestId ((requestId.map fun requestId => rereadField (string requestId)).getD undefined) =
        .ok requestId' ↔
      (∀ text ∈ requestId, isNonBlankString text = true) ∧ requestId' = requestId := by
  rcases requestId with _ | text
  · have hundefined : undefined.isUndefined = true := rfl
    rw [map_none, getD_none, readRequestId, if_pos hundefined, Except.ok.injEq]
    exact ⟨fun h => ⟨fun text htext => (by cases htext), h.symm⟩, fun h => h.2.symm⟩
  · have hdefined : ¬ (string text).isUndefined = true := by
      simp [isUndefined]
    rw [map_some, getD_some, rereadField_string, readRequestId, if_neg hdefined]
    by_cases htext : isNonBlankString text = true
    · have hread : readNonEmptyString (string text) "command.requestId" = .ok text :=
        readNonEmptyString_eq_ok.mpr ⟨rfl, htext⟩
      simp only [hread, Except.map, Except.ok.injEq, mem_some_iff]
      exact ⟨fun h => ⟨fun t ht => ht ▸ htext, h.symm⟩, fun h => h.2.symm⟩
    · refine iff_of_false ?_ fun h => htext (h.1 text rfl)
      simp [readNonEmptyString, string?, htext, Except.map]

theorem toJs_eq_fin {timestamp : Timestamp} {t : ℚ} :
    timestamp.toJs = .fin t ↔ timestamp = ((t : WithTop ℚ) : Timestamp) := by
  rcases timestamp with _ | _ | value
  · exact iff_of_false (by simp [Timestamp.toJs]) fun h => by cases h
  · exact iff_of_false (by simp [Timestamp.toJs]) fun h => by cases h
  · constructor
    · intro h
      exact congrArg (fun t : ℚ => ((t : WithTop ℚ) : Timestamp)) (JsNumber.fin.inj h)
    · intro h
      exact congrArg JsNumber.fin (WithTop.coe_injective (WithBot.coe_injective h))

/-- **A command is read back but for its payload, which is cloned.** -/
theorem readCommand_eq_ok {command command' : Command JsValue} :
    readCommand command = .ok command' ↔
      isNonBlankString command.type = true ∧ (∃ t : ℚ, command.timestamp.toJs = .fin t) ∧
        IsNonNegativeInt command.step ∧
        (∀ requestId ∈ command.requestId, isNonBlankString requestId = true) ∧
        ∃ payload, cloneJsonValue (rereadField command.payload) = .ok payload ∧
          command' = { command with payload } := by
  obtain ⟨type, priority, payload, timestamp, step, requestId⟩ := command
  obtain ⟨hrecord, hget⟩ := rereadElement_record
    (commandValue ⟨type, priority, payload, timestamp, step, requestId⟩).fields
    (by cases requestId <;> simp [commandValue])
  rw [readCommand]
  change (rereadElement (commandValue _)).isRecord = true at hrecord
  change ∀ key, (rereadElement (commandValue _)).get key = _ at hget
  set candidate := rereadElement
    (commandValue ⟨type, priority, payload, timestamp, step, requestId⟩) with hcandidate
  have htype : candidate.get "type" = string type := by
    simp [hget, commandValue, find]
  have hpriority : candidate.get "priority" = number (.fin priority.toNat) := by
    simp [hget, commandValue, find]
  have htimestamp : candidate.get "timestamp" = rereadField (number timestamp.toJs) := by
    simp [hget, commandValue, find]
  have hstep : candidate.get "step" = rereadField (number step) := by
    simp [hget, commandValue, find]
  have hpayload : candidate.get "payload" = rereadField payload := by
    simp [hget, commandValue, find]
  have hrequest : candidate.get "requestId" =
      (requestId.map fun requestId => rereadField (string requestId)).getD undefined := by
    cases requestId <;> simp [hget, commandValue, find]
  simp only [normalizeCommand, bind_eq_ok, ensure_eq_ok, htype, hpriority, htimestamp,
    hstep, hpayload, hrequest, readNonEmptyString_eq_ok, readFiniteNumber_eq_ok,
    readNonNegativeInt_eq_ok, rereadField_number_eq, JsValue.string.injEq,
    JsValue.number.injEq, JsNumber.fin.injEq, toJs_eq_fin]
  constructor
  · rintro ⟨-, -, _, ⟨rfl, hblank⟩, _, rfl, t, rfl, n, ⟨rfl, hint⟩, hrest⟩
    simp only [CommandPriority.ofNumber?_toNat, bind_eq_ok, readRequestId_eq_ok] at hrest
    obtain ⟨cloned, hclone, _, ⟨hids, rfl⟩, hout⟩ := hrest
    exact ⟨hblank, ⟨t, rfl⟩, ⟨n, rfl, hint⟩, hids, cloned, hclone, (ok.inj hout).symm⟩
  · rintro ⟨hblank, ⟨t, rfl⟩, ⟨n, rfl, hint⟩, hids, cloned, hclone, rfl⟩
    refine ⟨(), hrecord, type, ⟨rfl, hblank⟩, priority.toNat, rfl, t, rfl, n, ⟨rfl, hint⟩, ?_⟩
    simp only [CommandPriority.ofNumber?_toNat, bind_eq_ok, readRequestId_eq_ok]
    exact ⟨cloned, hclone, requestId, ⟨hids, rfl⟩, rfl⟩

/-- **A view-model frame is read back but for its view model, which is cloned.** -/
theorem readViewModelFrame_eq_ok {frame frame' : SimReplayViewModelFrame} :
    readViewModelFrame frame = .ok frame' ↔
      IsNonNegativeInt frame.step ∧ isNonBlankString frame.hash = true ∧
        ∃ viewModel, cloneJsonValue (rereadField frame.viewModel) = .ok viewModel ∧
          viewModel.isRecord = true ∧ (viewModel.get "frame").isRecord = true ∧
          (viewModel.get "frame").get "step" = number frame.step ∧
          frame' = { frame with viewModel } := by
  obtain ⟨step, hash, viewModel⟩ := frame
  obtain ⟨hrecord, hget⟩ := rereadElement_record
    (SimReplayViewModelFrame.value ⟨step, hash, viewModel⟩).fields
    (by simp [SimReplayViewModelFrame.value])
  rw [readViewModelFrame]
  change (rereadElement (SimReplayViewModelFrame.value _)).isRecord = true at hrecord
  change ∀ key, (rereadElement (SimReplayViewModelFrame.value _)).get key = _ at hget
  set candidate := rereadElement (SimReplayViewModelFrame.value ⟨step, hash, viewModel⟩)
  have hstep : candidate.get "step" = rereadField (number step) := by
    simp [hget, SimReplayViewModelFrame.value, find]
  have hhash : candidate.get "hash" = string hash := by
    simp [hget, SimReplayViewModelFrame.value, find]
  have hviewModel : candidate.get "viewModel" = rereadField viewModel := by
    simp [hget, SimReplayViewModelFrame.value, find]
  simp only [normalizeViewModelFrame, bind_eq_ok, ensure_eq_ok, hstep, hhash, hviewModel,
    readNonEmptyString_eq_ok, readNonNegativeInt_eq_ok, rereadField_number_eq,
    JsValue.string.injEq]
  constructor
  · rintro ⟨-, -, n, ⟨rfl, hint⟩, _, ⟨rfl, hblank⟩, cloned, hclone, -, hvalue, -, hframe, m,
      ⟨hpayload, -⟩, -, rfl, hout⟩
    exact ⟨⟨m, rfl, hint⟩, hblank, cloned, hclone, hvalue, hframe, hpayload,
      (ok.inj hout).symm⟩
  · rintro ⟨⟨n, rfl, hint⟩, hblank, cloned, hclone, hvalue, hframe, hpayload, rfl⟩
    exact ⟨(), hrecord, n, ⟨rfl, hint⟩, hash, ⟨rfl, hblank⟩, cloned, hclone, (), hvalue, (),
      hframe, n, ⟨hpayload, hint⟩, (), rfl, rfl⟩

/-- **A render-command-buffer frame is read back but for its buffer, which is cloned.** -/
theorem readRcbFrame_eq_ok {frame frame' : SimReplayRenderCommandBufferFrame} :
    readRcbFrame frame = .ok frame' ↔
      IsNonNegativeInt frame.renderFrame ∧ IsNonNegativeInt frame.step ∧
        isNonBlankString frame.hash = true ∧
        ∃ rcb, cloneJsonValue (rereadField frame.rcb) = .ok rcb ∧
          rcb.isRecord = true ∧ (rcb.get "frame").isRecord = true ∧
          (rcb.get "frame").get "step" = number frame.step ∧
          (rcb.get "frame").get "renderFrame" = number frame.renderFrame ∧
          frame' = { frame with rcb } := by
  obtain ⟨renderFrame, step, hash, rcb⟩ := frame
  obtain ⟨hrecord, hget⟩ := rereadElement_record
    (value ⟨renderFrame, step, hash, rcb⟩).fields
    (by simp [value])
  rw [readRcbFrame]
  change (rereadElement (value _)).isRecord = true at hrecord
  change ∀ key, (rereadElement (value _)).get key = _ at hget
  set candidate :=
    rereadElement (value ⟨renderFrame, step, hash, rcb⟩)
  have hrenderFrame : candidate.get "renderFrame" = rereadField (number renderFrame) := by
    simp [hget, value, find]
  have hstep : candidate.get "step" = rereadField (number step) := by
    simp [hget, value, find]
  have hhash : candidate.get "hash" = string hash := by
    simp [hget, value, find]
  have hrcb : candidate.get "rcb" = rereadField rcb := by
    simp [hget, value, find]
  have hnumber : ∀ {value : JsValue} {n : JsNumber}, value.number? = some n ↔ value = number n := by
    intro value n
    cases value <;> simp [number?]
  simp only [normalizeRcbFrame, bind_eq_ok, ensure_eq_ok, hrenderFrame, hstep, hhash, hrcb,
    readNonEmptyString_eq_ok, readNonNegativeInt_eq_ok, rereadField_number_eq, hnumber,
    JsValue.string.injEq]
  constructor
  · rintro ⟨-, -, k, ⟨rfl, hk⟩, n, ⟨rfl, hint⟩, _, ⟨rfl, hblank⟩, cloned, hclone, -, hvalue, -,
      hframe, m, ⟨hpayload, -⟩, -, rfl, -, hpayloadFrame, hout⟩
    exact ⟨⟨k, rfl, hk⟩, ⟨m, rfl, hint⟩, hblank, cloned, hclone, hvalue, hframe, hpayload,
      hpayloadFrame, (ok.inj hout).symm⟩
  · rintro ⟨⟨k, rfl, hk⟩, ⟨n, rfl, hint⟩, hblank, cloned, hclone, hvalue, hframe, hpayload,
      hpayloadFrame, rfl⟩
    exact ⟨(), hrecord, k, ⟨rfl, hk⟩, n, ⟨rfl, hint⟩, hash, ⟨rfl, hblank⟩, cloned, hclone, (),
      hvalue, (), hframe, n, ⟨hpayload, hint⟩, (), rfl, (), hpayloadFrame, rfl⟩

/-! ### Order -/

/-- Elements stand in increasing positions. -/
def InOrder {α : Type} (position : α → JsNumber) (items : List α) : Prop :=
  items.Pairwise fun a b => (position a).lt (position b) = true

/-- The place behind the last element, for elements with positions that have to increase. -/
def advanceBy {α : Type} (position : α → JsNumber) (message : String) (last : JsNumber) (item : α) :
    Except String JsNumber :=
  if (position item).le last = true then .error message else .ok (position item)

variable {α : Type} {position : α → JsNumber} {items : List α}

theorem exists_advance_ok (hfinite : ∀ item ∈ items, ∃ q : ℚ, position item = .fin q) (last : ℚ) :
    (∃ last', items.foldlM (advanceBy position message) (.fin last) = .ok last') ↔
      InOrder position items ∧ ∀ item ∈ items, JsNumber.lt (.fin last) (position item) = true := by
  have hlt : ∀ p q : ℚ, JsNumber.lt (.fin p) (.fin q) = true ↔ p < q := by
    intro p q
    simp only [JsNumber.lt, JsNumber.le, Bool.and_eq_true, decide_eq_true_eq, Bool.not_eq_true',
      decide_eq_false_iff_not, not_le]
    exact ⟨fun h => h.2, fun h => ⟨h.le, h⟩⟩
  induction items generalizing last with
  | nil => exact iff_of_true ⟨_, rfl⟩ ⟨List.Pairwise.nil, fun item hitem => by cases hitem⟩
  | cons item items ih =>
    obtain ⟨q, hq⟩ := hfinite item mem_cons_self
    have hrest : (∃ last', items.foldlM (advanceBy position message) (.fin q) = .ok last') ↔
        InOrder position items ∧ ∀ item ∈ items, JsNumber.lt (.fin q) (position item) = true :=
      ih (fun item hitem => hfinite item (mem_cons_of_mem _ hitem)) q
    have hstep : (∃ last', (item :: items).foldlM (advanceBy position message) (.fin last) =
        .ok last') ↔ last < q ∧
          ∃ last', items.foldlM (advanceBy position message) (.fin q) = .ok last' := by
      by_cases hle : q ≤ last
      · have hstop : advanceBy position message (.fin last) item = .error message := by
          rw [advanceBy, hq, if_pos (by simp [JsNumber.le, hle])]
        refine iff_of_false ?_ fun h => absurd hle (not_le.mpr h.1)
        rintro ⟨last', h⟩
        rw [foldlM_cons, hstop] at h
        cases h
      · have hgo : advanceBy position message (.fin last) item = .ok (.fin q) := by
          rw [advanceBy, hq, if_neg (by simp [JsNumber.le, hle])]
        rw [foldlM_cons, hgo]
        exact ⟨fun h => ⟨not_le.mp hle, h⟩, fun h => h.2⟩
    rw [hstep, hrest, InOrder, InOrder, pairwise_cons, forall_mem_cons, hq, hlt]
    constructor
    · rintro ⟨hlast, horder, hbehind⟩
      refine ⟨⟨hbehind, horder⟩, hlast, fun later hlater => ?_⟩
      obtain ⟨r, hr⟩ := hfinite later (mem_cons_of_mem _ hlater)
      have hqr := hbehind later hlater
      rw [hr, hlt] at hqr ⊢
      exact hlast.trans hqr
    · rintro ⟨⟨hbehind, horder⟩, hlast, -⟩
      exact ⟨hlast, horder, hbehind⟩

/-- Elements at natural numbers come behind the start. -/
theorem exists_advance_start (hint : ∀ item ∈ items, IsNonNegativeInt (position item)) :
    (∃ last', items.foldlM (advanceBy position message) (.fin (-1)) = .ok last') ↔
      InOrder position items := by
  rw [exists_advance_ok fun item hitem => (hint item hitem).imp fun q hq => hq.1]
  refine and_iff_left fun item hitem => ?_
  obtain ⟨q, hq, -, hpos⟩ := hint item hitem
  have hlt : (-1 : ℚ) < q := by
    linarith
  rw [hq]
  simp [JsNumber.lt, JsNumber.le, hlt.le, hlt]

theorem inOrder_congr {items' : List α} (h : items.map position = items'.map position) :
    InOrder position items ↔ InOrder position items' := by
  have hmap : ∀ items : List α, InOrder position items ↔
      (items.map position).Pairwise fun p q => p.lt q = true := by
    intro items
    rw [InOrder, pairwise_map]
  rw [hmap, hmap, h]

/-! ### What is read of a list -/

theorem mapM_candidates (normalize : JsValue → Except String α) (value : α → JsValue)
    (items : List α) :
    (items.map fun item => rereadElement (value item)).mapM normalize =
      items.mapM fun item => normalize (rereadElement (value item)) := by
  rw [mapM_map]
  rfl

theorem mapM_position {read : α → Except String α}
    (hread : ∀ item item', read item = .ok item' → position item' = position item) {items' : List α}
    (h : items.mapM read = .ok items') :
    items'.map position = items.map position := by
  induction items generalizing items' with
  | nil =>
    obtain rfl : [] = items' := ok.inj h
    rfl
  | cons item items ih =>
    rw [mapM_eq_ok] at h
    rcases items' with _ | ⟨item', items'⟩
    · cases h
    · obtain ⟨hhead, htail⟩ := cons.inj h
      rw [map_cons, map_cons, hread item item' hhead, ih (mapM_eq_ok.mpr htail)]

section Streams

variable {α : Type} {stream : ReplayStream α} {value : α → JsValue} {limit : ℕ} {items : List α}

/-- What a stream reads of a list from the start. -/
theorem append_start_eq_ok {items' : List α} :
    (∃ collected, stream.append limit ReplayStream.start
        (items.map fun item => rereadElement (value item)) = .ok collected ∧
        collected.items = items') ↔
      items.mapM (fun item => stream.normalize (rereadElement (value item))) = .ok items' ∧
        (∃ last, items'.foldlM stream.advance (.fin (-1)) = .ok last) ∧ items'.length ≤ limit := by
  have hnone : (ReplayStream.start : CollectedStream α).items.length ≤ limit := Nat.zero_le _
  constructor
  · rintro ⟨collected, hcollected, rfl⟩
    obtain ⟨read, hread, hlast, hitems, hlimit⟩ := (ReplayStream.append_eq_ok hnone).mp hcollected
    obtain rfl : collected.items = read := hitems
    rw [mapM_candidates] at hread
    exact ⟨hread, ⟨collected.last, hlast⟩, hlimit⟩
  · rintro ⟨hread, ⟨last, hlast⟩, hlimit⟩
    rw [← mapM_candidates] at hread
    exact ⟨⟨items', last⟩, (ReplayStream.append_eq_ok hnone).mpr
      ⟨items', hread, hlast, rfl, hlimit⟩, rfl⟩

/-- A stream whose elements have to come in order. -/
theorem append_start_inOrder {position : α → JsNumber} {message : String}
    (hadvance : stream.advance = advanceBy position message)
    (hread : ∀ item item', stream.normalize (rereadElement (value item)) = .ok item' →
      position item' = position item ∧ IsNonNegativeInt (position item)) {items' : List α} :
    (∃ collected, stream.append limit ReplayStream.start
        (items.map fun item => rereadElement (value item)) = .ok collected ∧
        collected.items = items') ↔
      items.mapM (fun item => stream.normalize (rereadElement (value item))) = .ok items' ∧
        InOrder position items ∧ items'.length ≤ limit := by
  rw [append_start_eq_ok, hadvance]
  refine and_congr_right fun hitems => and_congr_left fun _ => ?_
  have hpositions := mapM_position (fun item item' h => (hread item item' h).1) hitems
  rw [inOrder_congr hpositions.symm]
  refine exists_advance_start fun item' hitem' => ?_
  have hmem : position item' ∈ items.map position := by
    rw [← hpositions]
    exact mem_map_of_mem hitem'
  obtain ⟨item, hitem, hposition⟩ := mem_map.mp hmem
  obtain ⟨_, -, hok⟩ := exists_ok_of_mapM hitems hitem
  rw [← hposition]
  exact (hread item _ hok).2

end Streams

variable {limit : ℕ}

/-- **The commands of a file are read exactly when each of them is and the limit is kept.** -/
theorem commandStream_append_start {commands commands' : List (Command JsValue)} :
    (∃ collected, commandStream.append limit ReplayStream.start
        (commands.map fun command => rereadElement (commandValue command)) = .ok collected ∧
        collected.items = commands') ↔
      commands.mapM readCommand = .ok commands' ∧ commands'.length ≤ limit := by
  have hlast : ∀ (commands : List (Command JsValue)) (last : JsNumber),
      commands.foldlM commandStream.advance last = .ok last := by
    intro commands
    induction commands with
    | nil => exact fun last => rfl
    | cons command commands ih => exact ih
  rw [append_start_eq_ok]
  exact and_congr_right fun _ => and_iff_right ⟨_, hlast commands' _⟩

theorem viewModelStream_append_start {frames frames' : List SimReplayViewModelFrame} :
    (∃ collected, viewModelStream.append limit ReplayStream.start
        (frames.map fun frame => rereadElement frame.value) = .ok collected ∧
        collected.items = frames') ↔
      frames.mapM readViewModelFrame = .ok frames' ∧
        InOrder SimReplayViewModelFrame.step frames ∧ frames'.length ≤ limit := by
  refine append_start_inOrder rfl fun frame frame' h => ?_
  obtain ⟨hint, -, _, -, -, -, -, rfl⟩ := readViewModelFrame_eq_ok.mp h
  exact ⟨rfl, hint⟩

theorem rcbStream_append_start {frames frames' : List SimReplayRenderCommandBufferFrame} :
    (∃ collected, rcbStream.append limit ReplayStream.start
        (frames.map fun frame => rereadElement frame.value) = .ok collected ∧
        collected.items = frames') ↔
      frames.mapM readRcbFrame = .ok frames' ∧
        InOrder renderFrame frames ∧
        frames'.length ≤ limit := by
  refine append_start_inOrder rfl fun frame frame' h => ?_
  obtain ⟨hint, -, -, _, -, -, -, -, -, rfl⟩ := readRcbFrame_eq_ok.mp h
  exact ⟨rfl, hint⟩

end SimReplay

end IdleEngine
