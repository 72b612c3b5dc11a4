import IdleEngine.Lib.StableInsertion
import IdleEngine.StateSync.ChecksumRing
import IdleEngine.StateSync.Confirmation

/-!
# The records of the prediction manager

Every call of the manager changes its records in a few elementary ways: a checksum is recorded for a
later step than the last one, the history is cleared, a command is added in order, and pending
commands are emptied or dropped up to a confirmed step. `Changes` is a sequence of them, and every
call is one, whether it returns or throws (`changes_afterCall`).

`Kept` says what the records are after a sequence of such events: the history is what a window of
the recorded checksums leaves, the pending commands are those still kept, sorted, with ties in the
order they were recorded in.
-/

namespace IdleEngine

open StableInsertion List JsNumber

/-! ### The events -/

/-- What is done to the records of the manager. -/
inductive BookkeepingEvent
  | recorded (entry : ChecksumEntry)
  | cleared
  | added (command : Command JsValue)
  | emptied
  | dropped (confirmedStep : ℚ)

namespace BookkeepingEvent

/-- The effect of an event on the checksums recorded since the history was last cleared. -/
def onChecksums (entries : List ChecksumEntry) : BookkeepingEvent → List ChecksumEntry
  | recorded entry => entries ++ [entry]
  | cleared => []
  | _ => entries

/-- The effect of an event on the checksum last recorded for a step, whatever is cleared. -/
def onLastRecorded (step : ℚ) (found : Option String) : BookkeepingEvent → Option String
  | recorded entry => if entry.step = step then some entry.checksum else found
  | _ => found

/-- The effect of an event on the commands that are kept, in the order they were added. -/
def onCommands (commands : List (Command JsValue)) : BookkeepingEvent → List (Command JsValue)
  | added command => commands ++ [command]
  | emptied => []
  | dropped confirmedStep => commands.filter fun command =>
      JsNumber.lt (.fin confirmedStep) command.step
  | _ => commands

/-- The effect of an event on the ring of checksums. -/
def onRing (historyCapacity : ℕ) (ring : ChecksumRing) : BookkeepingEvent → ChecksumRing
  | recorded entry => ring.recordChecksum historyCapacity entry.step entry.checksum
  | cleared => ring.clearHistory historyCapacity
  | _ => ring

/-- The checksums recorded since the history was last cleared, oldest first. -/
def checksums (events : List BookkeepingEvent) : List ChecksumEntry := events.foldl onChecksums []

/-- The checksum last recorded for a step. -/
def lastRecorded (events : List BookkeepingEvent) (step : ℚ) : Option String :=
  events.foldl (onLastRecorded step) none

/-- The commands that were added and neither emptied nor dropped, in the order they were added. -/
def commands (events : List BookkeepingEvent) : List (Command JsValue) :=
  events.foldl onCommands []

/-- The ring of checksums after the events. -/
def ring (historyCapacity : ℕ) (events : List BookkeepingEvent) : ChecksumRing :=
  events.foldl (onRing historyCapacity) (ChecksumRing.create historyCapacity)

end BookkeepingEvent

open BookkeepingEvent

/-- What a window keeps of the checksums: the last ones, as many as there is room for, that are not
older than the window. -/
def withinWindow (maxPredictionSteps : ℕ) (entries : List ChecksumEntry) : List ChecksumEntry :=
  match entries.getLast? with
  | none => []
  | some latest => (entries.rtake maxPredictionSteps).filter fun entry =>
      decide (latest.step - maxPredictionSteps ≤ entry.step)

/-- What `comparePendingCommands` compares. -/
def pendingKey (command : Command JsValue) : JsNumber × Timestamp × List ℕ :=
  (command.step, command.timestamp, (command.requestId.getD "").toList.flatMap utf16Units)

namespace PredictionManager

/-- A sequence of elementary changes, with their events. -/
inductive Changes (window : PredictionWindow) :
    PredictionManager → List BookkeepingEvent → PredictionManager → Prop
  | unrecorded {m m' : PredictionManager} (history : m'.history = m.history)
      (lastRecordedStep : m'.lastRecordedStep = m.lastRecordedStep)
      (pendingCommands : m'.pendingCommands = m.pendingCommands)
      (lastConfirmedStep : m.lastConfirmedStep ≤ m'.lastConfirmedStep) : Changes window m [] m'
  | recorded {m : PredictionManager} {step : ℚ} (checksum : String)
      (later : ∀ last, m.lastRecordedStep = some last → last < step) :
      Changes window m [.recorded ⟨step, checksum⟩]
        { m.recordChecksum window step checksum with lastRecordedStep := some step }
  | cleared (m : PredictionManager) : Changes window m [.cleared] m.clearHistory
  | added {m : PredictionManager} {command : Command JsValue}
      (fits : (insertPending command m.pendingCommands).length ≤ window.maxPendingCommands) :
      Changes window m [.added command]
        { m with pendingCommands := insertPending command m.pendingCommands }
  | emptied (m : PredictionManager) : Changes window m [.emptied] { m with pendingCommands := [] }
  | dropped (m : PredictionManager) (confirmedStep : ℚ) :
      Changes window m [.dropped confirmedStep] (m.dropPendingCommands confirmedStep)
  | trans {m m' m'' : PredictionManager} {events events' : List BookkeepingEvent}
      (first : Changes window m events m') (rest : Changes window m' events' m'') :
      Changes window m (events ++ events') m''

/-- What the records of the manager are after the events. -/
structure Kept (window : PredictionWindow) (m : PredictionManager)
    (events : List BookkeepingEvent) : Prop where
  history_length : m.history.length ≤ window.maxPredictionSteps
  history_increasing : m.history.Pairwise (·.step < ·.step)
  history_window : ∀ entry ∈ m.history, ∀ latest ∈ m.history,
    latest.step - window.maxPredictionSteps ≤ entry.step
  history_eq : m.history = withinWindow window.maxPredictionSteps (checksums events)
  lookup : ∀ step checksum,
    m.findChecksum step = some checksum ↔ (⟨step, checksum⟩ : ChecksumEntry) ∈ m.history
  lookup_last : ∀ entry ∈ m.history, lastRecorded events entry.step = some entry.checksum
  ring_holds : (ring window.maxPredictionSteps events).Holds window.maxPredictionSteps m.history
  ring_lookup : ∀ step,
    (ring window.maxPredictionSteps events).findChecksum window.maxPredictionSteps step =
      m.findChecksum step
  pending_ordered : Ordered pendingBefore m.pendingCommands
  pending_ties : ∀ key,
    m.pendingCommands.filter (fun command => decide (pendingKey command = key)) =
      (commands events).filter fun command => decide (pendingKey command = key)
  pending_length : m.pendingCommands.length ≤ window.maxPendingCommands

/-! ### What the events leave -/

theorem pendingBefore_iff (a b : Command JsValue) :
    pendingBefore a b = true ↔ lt a.step b.step = true ∨
      (a.step = b.step ∧ a.step ≠ .nan) ∧ (a.timestamp < b.timestamp ∨
        a.timestamp = b.timestamp ∧ (pendingKey a).2.2 < (pendingKey b).2.2) := by
  unfold pendingBefore utf16Lt pendingKey
  split_ifs with hstep htimestamp
  · have hapart : ¬ (a.step = b.step ∧ a.step ≠ .nan) := fun hsame =>
      hstep.elim (fun hne => hne hsame.1) hsame.2
    simp [hapart]
  · obtain ⟨hsame, hnumber⟩ : a.step = b.step ∧ a.step ≠ .nan :=
      ⟨by_contra fun hne => hstep (.inl hne), fun hnan => hstep (.inr hnan)⟩
    simp [hsame ▸ hnumber, hsame, lt, htimestamp]
  · obtain ⟨hsame, hnumber⟩ : a.step = b.step ∧ a.step ≠ .nan :=
      ⟨by_contra fun hne => hstep (.inl hne), fun hnan => hstep (.inr hnan)⟩
    simp [hsame ▸ hnumber, hsame, lt, not_not.mp htimestamp]

theorem pendingBefore_irrefl (command : Command JsValue) :
    pendingBefore command command = false := by
  refine Bool.eq_false_iff.mpr fun hbefore => ?_
  rcases (pendingBefore_iff _ _).mp hbefore with hstep | ⟨-, htimestamp | ⟨-, hrequest⟩⟩
  · simp [lt] at hstep
  · exact lt_irrefl _ htimestamp
  · exact List.lt_irrefl _ hrequest

/-- The comparison reads nothing but the key. -/
theorem pendingBefore_congr {a b : Command JsValue} (c : Command JsValue)
    (h : pendingKey a = pendingKey b) : pendingBefore a c = pendingBefore b c := by
  simp only [pendingKey, Prod.mk.injEq] at h
  obtain ⟨hstep, htimestamp, hrequest⟩ := h
  simp only [pendingBefore, utf16Lt, hstep, htimestamp, hrequest]

theorem lt_trans_jsNumber {a b c : JsNumber} (hab : a.lt b = true) (hbc : b.lt c = true) :
    a.lt c = true := by
  cases a <;> cases b <;> cases c <;> simp_all [lt, le]
  exact ⟨hab.1.trans hbc.1, hab.2.trans hbc.2⟩

theorem pendingBefore_trans (a b c : Command JsValue) (hab : pendingBefore a b = true)
    (hbc : pendingBefore b c = true) : pendingBefore a c = true := by
  rw [pendingBefore_iff] at hab hbc ⊢
  rcases hab with hab | ⟨⟨hsame, hnumber⟩, hab⟩
  · left
    rcases hbc with hbc | ⟨⟨hsame, -⟩, -⟩
    · exact lt_trans_jsNumber hab hbc
    · rwa [← hsame]
  · rcases hbc with hbc | ⟨⟨hsame', -⟩, hbc⟩
    · left
      rwa [hsame]
    · right
      refine ⟨⟨hsame.trans hsame', hnumber⟩, ?_⟩
      rcases hab with hab | ⟨htime, hab⟩
      · left
        rcases hbc with hbc | ⟨htime', -⟩
        · exact hab.trans hbc
        · rwa [← htime']
      · rcases hbc with hbc | ⟨htime', hbc⟩
        · left
          rwa [htime]
        · exact .inr ⟨htime.trans htime', List.lt_trans hab hbc⟩

/-- The invariant behind `Kept`. -/
structure Bookkept (window : PredictionWindow) (m : PredictionManager)
    (events : List BookkeepingEvent) : Prop where
  increasing : (checksums events).Pairwise (·.step < ·.step)
  last : m.lastRecordedStep = (checksums events).getLast?.map (·.step)
  history_eq : m.history = withinWindow window.maxPredictionSteps (checksums events)
  found : ∀ entry ∈ checksums events, lastRecorded events entry.step = some entry.checksum
  ring_holds : (ring window.maxPredictionSteps events).Holds window.maxPredictionSteps m.history
  ordered : Ordered pendingBefore m.pendingCommands
  ties : ∀ key, m.pendingCommands.filter (fun command => decide (pendingKey command = key)) =
    (commands events).filter fun command => decide (pendingKey command = key)
  length : m.pendingCommands.length ≤ window.maxPendingCommands

variable {window : PredictionWindow} {m m' : PredictionManager} {events : List BookkeepingEvent}

variable {entries : List ChecksumEntry} {entry : ChecksumEntry}

/-- A checksum for a later step: the window moves on. -/
theorem history_recordChecksum (hincreasing : (entries ++ [entry]).Pairwise (·.step < ·.step))
    (hhistory : m.history = withinWindow window.maxPredictionSteps entries) :
    (m.recordChecksum window entry.step entry.checksum).history =
      withinWindow window.maxPredictionSteps (entries ++ [entry]) := by
  set capacity := window.maxPredictionSteps with hcapacity
  have hlatest : (entries ++ [entry]).getLast? = some entry := getLast?_concat
  obtain ⟨-, -, hlater⟩ := pairwise_append.mp hincreasing
  -- a bound that the old window has kept to already
  obtain ⟨least, hleast, hold⟩ : ∃ least ≤ entry.step - capacity,
      m.history = (entries.rtake capacity).filter fun e => decide (least ≤ e.step) := by
    rw [hhistory, withinWindow]
    rcases hlast : entries.getLast? with _ | last
    · obtain rfl := getLast?_eq_none_iff.mp hlast
      exact ⟨entry.step - capacity, le_rfl, by simp⟩
    · have hless := hlater last (mem_of_getLast? hlast) entry (mem_singleton_self _)
      exact ⟨last.step - capacity, by linarith, rfl⟩
  have hlength : m.history.length ≤ capacity := by
    rw [hold]
    exact (length_filter_le _ _).trans (length_rtake_le _ _)
  have hsorted : ((entries ++ [entry]).rtake capacity).Pairwise (·.step < ·.step) :=
    hincreasing.sublist (drop_sublist _ _)
  rw [withinWindow, hlatest, recordChecksum]
  change _ = ((entries ++ [entry]).rtake capacity).filter fun e =>
    decide (entry.step - capacity ≤ e.step)
  by_cases hzero : capacity = 0
  · have hnone : m.history = [] := length_eq_zero_iff.mp (by omega)
    rw [if_pos hzero, hzero, rtake_zero, filter_nil, hnone]
  · rw [if_neg hzero]
    -- what is kept before the pruning
    have hkept : (if m.history.length = capacity then (m.history ++ [entry]).tail
        else m.history ++ [entry]) = (m.history ++ [entry]).rtake capacity := by
      rw [rtake, length_append, length_singleton]
      split
      · next hfull =>
        rw [hfull, Nat.add_sub_cancel_left, drop_one]
      · next hroom =>
        have hnone : m.history.length + 1 - capacity = 0 := by omega
        rw [hnone, drop_zero]
    have hwritten : m.history ++ [entry] =
        (entries.rtake capacity ++ [entry]).filter fun e => decide (least ≤ e.step) := by
      have hnew : least ≤ entry.step := by
        have hnonneg : (0 : ℚ) ≤ capacity := Nat.cast_nonneg capacity
        linarith
      rw [filter_append, hold, filter_cons_of_pos (by simpa using hnew),
        filter_nil]
    have hold_sorted : (entries.rtake capacity ++ [entry]).Pairwise (·.step < ·.step) :=
      hincreasing.sublist ((drop_sublist _ _).append_right _)
    change dropWhile _ (if m.history.length = capacity then (m.history ++ [entry]).tail
      else m.history ++ [entry]) = _
    rw [hkept, hwritten, rtake_filter_le hold_sorted, rtake_append_rtake,
      dropWhile_lt_eq_filter (hsorted.filter _), filter_filter]
    refine filter_congr fun e _ => ?_
    by_cases hwithin : entry.step - capacity ≤ e.step
    · rw [decide_eq_true hwithin, decide_eq_true (hleast.trans hwithin)]
      rfl
    · rw [decide_eq_false hwithin]
      rfl

theorem mem_withinWindow {capacity : ℕ} (h : entry ∈ withinWindow capacity entries) :
    entry ∈ entries ∧ ∃ latest, entries.getLast? = some latest ∧
      latest.step - capacity ≤ entry.step := by
  unfold withinWindow at h
  split at h
  · cases h
  · next latest hlatest =>
    obtain ⟨hmem, hwithin⟩ := mem_filter.mp h
    exact ⟨mem_of_mem_drop hmem, latest, hlatest, of_decide_eq_true hwithin⟩

theorem Bookkept.le_last (h : Bookkept window m events) {latest : ChecksumEntry}
    (hentry : entry ∈ checksums events) (hlatest : (checksums events).getLast? = some latest) :
    entry.step ≤ latest.step := by
  obtain ⟨before, hsplit⟩ := getLast?_eq_some_iff.mp hlatest
  have hincreasing := h.increasing
  rw [hsplit] at hentry hincreasing
  rcases mem_append.mp hentry with hbefore | hlast
  · exact ((pairwise_append.mp hincreasing).2.2 _ hbefore _ (mem_singleton_self _)).le
  · rw [mem_singleton.mp hlast]

theorem Bookkept.create {EventPayload World Contents : Type}
    (options : PredictionManagerOptions EventPayload World Contents) :
    Bookkept window (create options) [] where
  increasing := .nil
  last := rfl
  history_eq := rfl
  found _ h := absurd h not_mem_nil
  ring_holds := ChecksumRing.Holds.create _
  ordered := Ordered.nil
  ties _ := rfl
  length := Nat.zero_le _

section

variable (h : Bookkept window m events)
include h

theorem Bookkept.unrecorded (hhistory : m'.history = m.history)
    (hlast : m'.lastRecordedStep = m.lastRecordedStep)
    (hpending : m'.pendingCommands = m.pendingCommands) : Bookkept window m' events where
  increasing := h.increasing
  last := hlast.trans h.last
  history_eq := hhistory.trans h.history_eq
  found := h.found
  ring_holds := hhistory ▸ h.ring_holds
  ordered := hpending ▸ h.ordered
  ties := hpending ▸ h.ties
  length := hpending ▸ h.length

theorem Bookkept.recorded {step : ℚ} (checksum : String)
    (hlater : ∀ last, m.lastRecordedStep = some last → last < step) :
    Bookkept window { m.recordChecksum window step checksum with lastRecordedStep := some step }
      (events ++ [.recorded ⟨step, checksum⟩]) := by
  have hchecksums : checksums (events ++ [.recorded ⟨step, checksum⟩]) =
      checksums events ++ [⟨step, checksum⟩] := foldl_append
  -- steps are recorded in order, so the new step is above every recorded one
  have hless : ∀ entry ∈ checksums events, entry.step < step := by
    intro entry hentry
    obtain ⟨latest, hlatest⟩ := Option.isSome_iff_exists.mp
      (getLast?_isSome.mpr (ne_nil_of_mem hentry))
    refine (h.le_last hentry hlatest).trans_lt (hlater latest.step ?_)
    rw [h.last, hlatest]
    rfl
  have hpending : (m.recordChecksum window step checksum).pendingCommands = m.pendingCommands := by
    rw [recordChecksum]
    split
    · rfl
    · rfl
  have hcommands : commands (events ++ [.recorded ⟨step, checksum⟩]) = commands events :=
    foldl_append
  have hincreasing : (checksums events ++ [(⟨step, checksum⟩ : ChecksumEntry)]).Pairwise
      (·.step < ·.step) :=
    pairwise_append.mpr ⟨h.increasing, pairwise_singleton _ _, fun entry hentry b hb =>
      mem_singleton.mp hb ▸ hless entry hentry⟩
  have hring : ring window.maxPredictionSteps (events ++ [.recorded ⟨step, checksum⟩]) =
      (ring window.maxPredictionSteps events).recordChecksum window.maxPredictionSteps step
        checksum := foldl_append
  refine ⟨?_, ?_, ?_, ?_, ?_, ?_, ?_, ?_⟩
  · rw [hchecksums]
    exact hincreasing
  · rw [hchecksums, getLast?_concat]
    rfl
  · rw [hchecksums]
    exact history_recordChecksum hincreasing h.history_eq
  · intro entry hentry
    have hfound : lastRecorded (events ++ [.recorded ⟨step, checksum⟩]) entry.step =
        if step = entry.step then some checksum else lastRecorded events entry.step :=
      foldl_append
    rw [hchecksums] at hentry
    rw [hfound]
    rcases mem_append.mp hentry with hbefore | hnew
    · rw [if_neg (hless entry hbefore).ne', h.found entry hbefore]
    · rw [mem_singleton.mp hnew, if_pos rfl]
  · rw [hring]
    exact h.ring_holds.recordChecksum step checksum
  · exact hpending ▸ h.ordered
  · rw [hcommands]
    exact hpending ▸ h.ties
  · exact hpending ▸ h.length

theorem Bookkept.cleared : Bookkept window m.clearHistory (events ++ [.cleared]) := by
  have hchecksums : checksums (events ++ [.cleared]) = [] := foldl_append
  have hcommands : commands (events ++ [.cleared]) = commands events := foldl_append
  have hring : ring window.maxPredictionSteps (events ++ [.cleared]) =
      (ring window.maxPredictionSteps events).clearHistory window.maxPredictionSteps :=
    foldl_append
  refine ⟨?_, ?_, ?_, ?_, ?_, h.ordered, ?_, h.length⟩
  · rw [hchecksums]
    exact .nil
  · rw [hchecksums]
    rfl
  · rw [hchecksums]
    rfl
  · intro entry hentry
    rw [hchecksums] at hentry
    cases hentry
  · rw [hring]
    exact ChecksumRing.Holds.clearHistory _
  · rw [hcommands]
    exact h.ties

/-- An event that only the pending commands notice. -/
theorem Bookkept.pending {event : BookkeepingEvent} {pendingCommands : List (Command JsValue)}
    (hchecksums : checksums (events ++ [event]) = checksums events)
    (hfound : lastRecorded (events ++ [event]) = lastRecorded events)
    (hring : ring window.maxPredictionSteps (events ++ [event]) =
      ring window.maxPredictionSteps events)
    (hordered : Ordered pendingBefore pendingCommands)
    (hties : ∀ key, pendingCommands.filter (fun command => decide (pendingKey command = key)) =
      (commands (events ++ [event])).filter fun command => decide (pendingKey command = key))
    (hlength : pendingCommands.length ≤ window.maxPendingCommands) :
    Bookkept window { m with pendingCommands } (events ++ [event]) where
  increasing := hchecksums ▸ h.increasing
  last := hchecksums ▸ h.last
  history_eq := hchecksums ▸ h.history_eq
  found := hchecksums ▸ hfound ▸ h.found
  ring_holds := hring ▸ h.ring_holds
  ordered := hordered
  ties := hties
  length := hlength

end

theorem insertPending_eq (command : Command JsValue) (pending : List (Command JsValue)) :
    insertPending command pending = insertBehind pendingBefore command pending := by
  induction pending with
  | nil => rfl
  | cons existing rest ih => rw [insertPending, insertBehind, ih]

theorem Bookkept.added (h : Bookkept window m events) {command : Command JsValue}
    (hfits : (insertPending command m.pendingCommands).length ≤ window.maxPendingCommands) :
    Bookkept window { m with pendingCommands := insertPending command m.pendingCommands }
      (events ++ [.added command]) := by
  have hcommands : commands (events ++ [.added command]) = commands events ++ [command] :=
    foldl_append
  refine h.pending foldl_append (funext fun _ => foldl_append) foldl_append ?_ ?_
    hfits
  · rw [insertPending_eq]
    exact h.ordered.insertBehind pendingBefore_trans pendingBefore_irrefl command
  · intro key
    rw [insertPending_eq, hcommands, h.ordered.filter_insertBehind
      (fun a b c hkey => pendingBefore_congr c hkey) pendingBefore_irrefl, filter_append,
      filter_append, h.ties key]

theorem Bookkept.emptied (h : Bookkept window m events) :
    Bookkept window { m with pendingCommands := [] } (events ++ [.emptied]) := by
  have hcommands : commands (events ++ [.emptied]) = [] := foldl_append
  refine h.pending foldl_append (funext fun _ => foldl_append) foldl_append
    Ordered.nil (fun key => ?_) (Nat.zero_le _)
  rw [hcommands]

theorem Bookkept.dropped (h : Bookkept window m events) (confirmedStep : ℚ) :
    Bookkept window (m.dropPendingCommands confirmedStep)
      (events ++ [.dropped confirmedStep]) := by
  have hcommands : commands (events ++ [.dropped confirmedStep]) =
      (commands events).filter fun command => lt (.fin confirmedStep) command.step :=
    foldl_append
  refine h.pending foldl_append (funext fun _ => foldl_append) foldl_append
    (h.ordered.filter _) (fun key => ?_) ((length_filter_le _ _).trans h.length)
  rw [hcommands, filter_filter, filter_filter]
  simp only [Bool.and_comm (decide _)]
  rw [← filter_filter, ← filter_filter, h.ties key]

/-- **Every sequence of changes keeps the records.** -/
theorem Bookkept.changes {events' : List BookkeepingEvent} (hchanges : Changes window m events' m')
    (h : Bookkept window m events) : Bookkept window m' (events ++ events') := by
  induction hchanges generalizing events with
  | unrecorded hhistory hlast hpending _ =>
    rw [append_nil]
    exact h.unrecorded hhistory hlast hpending
  | recorded checksum hlater => exact h.recorded checksum hlater
  | cleared => exact h.cleared
  | added hfits => exact h.added hfits
  | emptied => exact h.emptied
  | dropped _ confirmedStep => exact h.dropped confirmedStep
  | trans _ _ ihfirst ihrest =>
    rw [← append_assoc]
    exact ihrest (ihfirst h)

theorem findChecksum_eq_some_iff (hincreasing : m.history.Pairwise (·.step < ·.step)) (step : ℚ)
    (checksum : String) :
    m.findChecksum step = some checksum ↔ (⟨step, checksum⟩ : ChecksumEntry) ∈ m.history := by
  rw [findChecksum, Option.map_eq_some_iff]
  constructor
  · rintro ⟨entry, hfind, rfl⟩
    have hstep := find?_some hfind
    rw [← of_decide_eq_true hstep]
    exact mem_of_find?_eq_some hfind
  · intro hmem
    obtain ⟨entry, hfind⟩ := Option.isSome_iff_exists.mp
      (find?_isSome.mpr ⟨_, hmem, decide_eq_true rfl⟩ :
        (m.history.find? fun entry => decide (entry.step = step)).isSome)
    refine ⟨entry, hfind, ?_⟩
    have hnodup : (m.history.map (·.step)).Nodup :=
      pairwise_map.mpr (hincreasing.imp fun hless => hless.ne)
    have hstep := find?_some hfind
    have hsame := inj_on_of_nodup_map hnodup (mem_of_find?_eq_some hfind) hmem
      (of_decide_eq_true hstep)
    rw [hsame]

theorem Bookkept.history_increasing (h : Bookkept window m events) :
    m.history.Pairwise (·.step < ·.step) := by
  rw [h.history_eq, withinWindow]
  split
  · exact .nil
  · exact (h.increasing.sublist (drop_sublist _ _)).filter _

theorem Bookkept.kept (h : Bookkept window m events) : Kept window m events where
  history_length := by
    rw [h.history_eq, withinWindow]
    split
    · exact Nat.zero_le _
    · exact (length_filter_le _ _).trans (length_rtake_le _ _)
  history_increasing := h.history_increasing
  history_window entry hentry latest hlatest := by
    rw [h.history_eq] at hentry hlatest
    obtain ⟨-, last, hlast, hwithin⟩ := mem_withinWindow hentry
    have hle := h.le_last (mem_withinWindow hlatest).1 hlast
    linarith
  history_eq := h.history_eq
  lookup := findChecksum_eq_some_iff h.history_increasing
  lookup_last entry hentry := h.found entry (mem_withinWindow (h.history_eq ▸ hentry)).1
  ring_holds := h.ring_holds
  ring_lookup step := h.ring_holds.findChecksum step
  pending_ordered := h.ordered
  pending_ties := h.ties
  pending_length := h.length

/-! ### The changes of each call -/

/-- The manager changes in a sequence of elementary changes. -/
def Reaches (window : PredictionWindow) (m m' : PredictionManager) : Prop :=
  ∃ events, Changes window m events m'

theorem Reaches.unrecorded (hhistory : m'.history = m.history)
    (hlast : m'.lastRecordedStep = m.lastRecordedStep)
    (hpending : m'.pendingCommands = m.pendingCommands)
    (hconfirmed : m.lastConfirmedStep ≤ m'.lastConfirmedStep) : Reaches window m m' :=
  ⟨[], .unrecorded hhistory hlast hpending hconfirmed⟩

theorem Reaches.refl (m : PredictionManager) : Reaches window m m :=
  .unrecorded rfl rfl rfl le_rfl

theorem Reaches.trans {m'' : PredictionManager} (first : Reaches window m m')
    (rest : Reaches window m' m'') : Reaches window m m'' := by
  obtain ⟨events, first⟩ := first
  obtain ⟨events', rest⟩ := rest
  exact ⟨events ++ events', first.trans rest⟩

theorem Reaches.cleared (m : PredictionManager) : Reaches window m m.clearHistory :=
  ⟨_, .cleared m⟩

theorem Reaches.emptied (m : PredictionManager) :
    Reaches window m { m with pendingCommands := [] } :=
  ⟨_, .emptied m⟩

theorem Reaches.dropped (m : PredictionManager) (confirmedStep : ℚ) :
    Reaches window m (m.dropPendingCommands confirmedStep) :=
  ⟨_, .dropped m confirmedStep⟩

theorem Changes.lastConfirmedStep_le (h : Changes window m events m') :
    m.lastConfirmedStep ≤ m'.lastConfirmedStep := by
  induction h with
  | unrecorded _ _ _ hconfirmed => exact hconfirmed
  | @recorded m step checksum _ =>
    change _ ≤ (m.recordChecksum window step checksum).lastConfirmedStep
    rw [recordChecksum]
    split
    · exact le_rfl
    · exact le_rfl
  | cleared => exact le_rfl
  | added => exact le_rfl
  | emptied => exact le_rfl
  | dropped => exact le_rfl
  | trans _ _ ihfirst ihrest => exact ihfirst.trans ihrest

section Calls

variable {EventPayload World Contents : Type}
  {options : PredictionManagerOptions EventPayload World Contents}

variable {step : ℚ}

/-- The checksum of a restored runtime. -/
theorem reaches_recordStep (options : PredictionManagerOptions EventPayload World Contents)
    (snapshot : GameStateSnapshot Contents)
    (hlater : ∀ last, m.lastRecordedStep = some last → last < step) :
    Reaches options.window m (m.recordStep options step snapshot) ∧
      ∀ last, (m.recordStep options step snapshot).lastRecordedStep = some last → last ≤ step := by
  have hmoved : Reaches options.window m { m with localStep := step } :=
    .unrecorded rfl rfl rfl le_rfl
  unfold recordStep
  dsimp only
  split
  · refine ⟨hmoved.trans ⟨_, .recorded _ hlater⟩, fun last hlast => ?_⟩
    exact (Option.some.inj hlast).ge
  · exact ⟨hmoved, fun last hlast => (hlater last hlast).le⟩

theorem reaches_recordLocalCommand (command : Command JsValue) (atStep : Option JsNumber) :
    Reaches options.window m (m.recordLocalCommand options command atStep) := by
  unfold recordLocalCommand
  have hempty : Reaches options.window m
      { m with pendingOverflowed := true, pendingCommands := [] } :=
    (Reaches.emptied m).trans (.unrecorded rfl rfl rfl le_rfl)
  split
  · exact .refl m
  · split
    · exact hempty
    · dsimp only
      split
      · exact hempty
      · next hfits => exact ⟨_, .added (not_lt.mp hfits)⟩

/-- What a predicted step does once the history holds earlier steps only. -/
theorem reaches_recordAt (captured : GameStateSnapshot Contents)
    (hlater : ∀ last, m.lastRecordedStep = some last → last < step) :
    Reaches options.window m
      (if { m with localStep := step }.shouldRecordChecksum options.window step then
        { ({ m with localStep := step }.resolveContentDigest captured).2.recordChecksum
            options.window step (options.computeStateChecksum captured) with
          lastRecordedStep := some step }
      else { m with localStep := step }) := by
  split
  · obtain ⟨cached, hcached⟩ := { m with localStep := step }.resolveContentDigest_eq captured
    rw [hcached]
    have hresolved : Reaches options.window m
        { m with localStep := step, cachedContentDigest := cached } :=
      .unrecorded rfl rfl rfl le_rfl
    exact hresolved.trans ⟨_, .recorded _ hlater⟩
  · exact .unrecorded rfl rfl rfl le_rfl

theorem reaches_recordPredictedStep (step currentStep : Option ℚ)
    (captured : GameStateSnapshot Contents) :
    Reaches options.window m (m.recordPredictedStep options step currentStep captured) := by
  unfold recordPredictedStep
  split
  · exact .refl m
  · dsimp only
    generalize (step.orElse fun _ => currentStep).getD captured.step = resolvedStep
    rcases hlast : m.lastRecordedStep with _ | last
    · exact reaches_recordAt captured fun last' hlast' => by rw [hlast] at hlast'; cases hlast'
    · dsimp only
      by_cases hless : resolvedStep ≤ last
      -- a step that is not later than the last one starts a new history
      · simp only [if_pos hless]
        exact (Reaches.cleared m).trans
          (reaches_recordAt captured fun last' hlast' => by cases hlast')
      · simp only [if_neg hless]
        refine reaches_recordAt captured fun last' hlast' => ?_
        rw [hlast] at hlast'
        exact Option.some.inj hlast' ▸ not_le.mp hless

/-! ### The changes of a replay -/

/-- No checksum was recorded for a later step than that of the runtime. -/
def UpTo (m : PredictionManager) (step : ℚ) : Prop :=
  ∀ last, m.lastRecordedStep = some last → last ≤ step

variable {replay : PredictionReplayOptions EventPayload World Contents}
  {config : RuntimeConfig JsValue EventPayload World}

theorem keptByTicks_reaches :
    KeptByTicks options replay config fun progress => Reaches options.window m progress.manager ∧
      UpTo progress.manager progress.runtime.currentStep where
  idle progress runtime h htick := by
    have hstep := RuntimeConfig.tick_step htick
    exact ⟨h.1, fun last hlast => (h.2 last hlast).trans (by simp [hstep])⟩
  ran progress processed runtime h hpos htick := by
    have hstep := RuntimeConfig.tick_step htick
    -- the tick has gone on by at least one step
    have hone : (1 : ℚ) ≤ processed := by
      exact_mod_cast Nat.one_le_iff_ne_zero.mpr hpos
    have hlater : ∀ last, progress.manager.lastRecordedStep = some last →
        last < runtime.currentStep := fun last hlast => by linarith [h.2 last hlast]
    obtain ⟨hrecorded, hnext⟩ :=
      reaches_recordStep options (replay.captureSnapshot runtime) hlater
    exact ⟨h.1.trans hrecorded, hnext⟩

theorem restoreRuntime_currentStep {snapshot : GameStateSnapshot Contents}
    {restored : RuntimeState JsValue EventPayload World}
    (h : replay.restoreRuntime snapshot = .ok restored) :
    snapshot.step ≤ restored.currentStep := by
  rw [(PredictionReplayOptions.restoreRuntime_spec h).2.2.1]
  split
  · exact le_rfl
  · next hnegative => exact (not_le.mp hnegative).le

theorem reaches_reconcileWithReplay (m : PredictionManager) (snapshot : GameStateSnapshot Contents)
    {confirmedStep : ℚ} (targetStep : ℚ) (status : RollbackStatus) (reason : Option RollbackReason)
    (checksumMatch : Option Bool) (replayPending : Bool)
    (hconfirmed : m.lastConfirmedStep ≤ confirmedStep) :
    Reaches options.window m (m.reconcileWithReplay options snapshot confirmedStep targetStep status
      reason checksumMatch replayPending).1 := by
  unfold reconcileWithReplay
  split
  · simp only [reconcileWithoutReplay]
    split
    · exact (Reaches.cleared m).trans
        ((Reaches.emptied _).trans (.unrecorded rfl rfl rfl hconfirmed))
    · exact .cleared m
  · next replay _ =>
    split
    · exact .refl m
    · next restored hrestored =>
      dsimp only
      -- a new history, and the pending commands kept or given up
      obtain ⟨started, hstarted, hreaches, hnone⟩ : ∃ started : PredictionManager,
          started = { m.clearHistory with
            pendingOverflowed := false
            lastConfirmedStep := confirmedStep
            pendingCommands := if replayPending then m.pendingCommands else [] } ∧
          Reaches options.window m started ∧ started.lastRecordedStep = none := by
        refine ⟨_, rfl, (Reaches.cleared m).trans ?_, rfl⟩
        cases replayPending
        · exact (Reaches.emptied _).trans (.unrecorded rfl rfl rfl hconfirmed)
        · exact .unrecorded rfl rfl rfl hconfirmed
      rw [← hstarted]
      have hlater : ∀ last, started.lastRecordedStep = some last → last < snapshot.step :=
        fun last hlast => by rw [hnone] at hlast; cases hlast
      obtain ⟨hrecorded, hupto⟩ := reaches_recordStep options snapshot hlater
      have hbefore := hreaches.trans hrecorded
      split
      · exact hbefore
      · next now hpending =>
        have hstep : snapshot.step ≤ now.1.currentStep := by
          have hstarted := restoreRuntime_currentStep hrestored
          rw [(RuntimeConfig.enqueuePending_extends hpending).2]
          exact hstarted
        rw [replayToStep]
        have hreplay : UpTo (started.recordStep options snapshot.step snapshot)
            now.1.currentStep := fun last hlast => (hupto last hlast).trans hstep
        split
        · next hrun =>
          obtain ⟨reached, hreached, rfl⟩ :=
            (keptByTicks_reaches.replayLoop _ ⟨hbefore, hreplay⟩).1 _ _ hrun
          exact hreached.1
        · next hrun => exact ((keptByTicks_reaches.replayLoop _ ⟨hbefore, hreplay⟩).2 _ hrun).1

theorem reaches_applyServerState (snapshot : GameStateSnapshot Contents) (confirmedStep : ℚ)
    (metadata : PredictionCompatibilityMetadata) (captured : GameStateSnapshot Contents) :
    Reaches options.window m
      (m.applyServerState options snapshot confirmedStep metadata captured).1 := by
  unfold applyServerState
  dsimp only
  split
  · exact .refl m
  · next hstale =>
    have hconfirmed := not_lt.mp hstale
    split
    · exact reaches_reconcileWithReplay m _ _ _ _ _ _ hconfirmed
    · obtain ⟨cached, hcached⟩ := m.compatibility_eq snapshot metadata captured
      have hchecked : Reaches options.window m
          (m.compatibility snapshot metadata captured).2 := by
        rw [hcached]
        exact .unrecorded rfl rfl rfl le_rfl
      have hconfirmed : (m.compatibility snapshot metadata captured).2.lastConfirmedStep ≤
          confirmedStep := by
        rw [hcached]
        exact hconfirmed
      split
      · next reason checked hcompatible =>
        rw [hcompatible] at hchecked hconfirmed
        have hdisabled : Reaches options.window checked
            { checked with predictionDisabled := true } := .unrecorded rfl rfl rfl le_rfl
        exact hchecked.trans (hdisabled.trans
          (reaches_reconcileWithReplay _ _ _ _ _ _ _ hconfirmed))
      · next checked hcompatible =>
        rw [hcompatible] at hchecked hconfirmed
        change checked.lastConfirmedStep ≤ confirmedStep at hconfirmed
        refine hchecked.trans ?_
        have hdropped : Reaches options.window checked
            (checked.dropPendingCommands confirmedStep) := .dropped checked confirmedStep
        split
        · have hemptied : Reaches options.window checked
              { checked with pendingCommands := [], pendingOverflowed := false } :=
            (Reaches.emptied checked).trans (.unrecorded rfl rfl rfl le_rfl)
          exact hemptied.trans (reaches_reconcileWithReplay _ _ _ _ _ _ _ hconfirmed)
        · split
          · exact hdropped.trans (reaches_reconcileWithReplay _ _ _ _ _ _ _ hconfirmed)
          · have hmoved : Reaches options.window checked
                { checked.dropPendingCommands confirmedStep with
                  lastConfirmedStep := confirmedStep } :=
              hdropped.trans (.unrecorded rfl rfl rfl hconfirmed)
            split
            · exact hmoved
            · exact hmoved.trans (reaches_reconcileWithReplay _ _ _ _ _ _ _ le_rfl)

/-! ### Runs -/

theorem reaches_afterCall (call : PredictionCall Contents) :
    Reaches options.window m (m.afterCall options call) := by
  rcases call with ⟨command, atStep⟩ | ⟨step, currentStep, captured⟩ |
    ⟨snapshot, confirmedStep, metadata, captured⟩
  · exact reaches_recordLocalCommand command atStep
  · exact reaches_recordPredictedStep step currentStep captured
  · exact reaches_applyServerState snapshot confirmedStep metadata captured

theorem reaches_foldl (calls : List (PredictionCall Contents)) :
    Reaches options.window m (calls.foldl (afterCall options) m) := by
  induction calls generalizing m with
  | nil => exact .refl m
  | cons call calls ih => exact (reaches_afterCall call).trans ih

end Calls

end PredictionManager

end IdleEngine
