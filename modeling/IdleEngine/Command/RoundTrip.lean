import IdleEngine.Command.Alike
import IdleEngine.Command.Persistence

/-!
# The round trip of a saved queue

A restore queues the saved commands one by one. They come lane after lane and each lane in
timestamp order, so each of them goes to the end of its lane, and the save was taken from a queue that
had room for all of them. What comes back is alike to the queue that was saved, less the commands that
`normalizeSerializedCommandEntry` refuses.
-/

namespace IdleEngine

open JsValue List

variable {Payload : Type*}

namespace CommandQueue

/-! ### What a save keeps -/

/-- A number after JSON: what is not finite comes back as `null`. -/
def jsonNumber (value : JsNumber) : JsValue :=
  match value.finite? with
  | none => .null
  | some value => .number (.fin value)

/-- The save entry of a command, after JSON. -/
def transportedEntry (command : Command JsValue) : JsValue :=
  serializedEntry command (jsonNumber command.timestamp.toJs) (jsonNumber command.step)
    command.payload

/-- The commands that a restore accepts: a type that is not blank, a finite timestamp and a step
that is a natural number. -/
def restorable (command : Command JsValue) : Bool :=
  isNonBlankString command.type && command.timestamp.toJs.finite?.isSome &&
    command.step.finite?.any fun step => decide (step.den = 1 ∧ 0 ≤ step)

/-- The step of a restored command. -/
def rebasedStep (options : RestoreCommandQueueOptions) : JsNumber → JsNumber
  | .fin step => .fin (options.rebased step)
  | step => step

/-- A command with its step rebased. -/
def rebasedCommand (options : RestoreCommandQueueOptions) (command : Command JsValue) :
    Command JsValue :=
  { command with step := rebasedStep options command.step, requestId := none }

/-- What a restore makes of a saved command. -/
def restoredCommand (options : RestoreCommandQueueOptions) (command : Command JsValue) :
    Option (Command JsValue) :=
  if restorable command = true ∧ options.supports command.type = true then
    some (rebasedCommand options command)
  else none

theorem transport_number (value : JsNumber) :
    jsonTransport (.number value) = .ok (some (jsonNumber value)) := by
  rw [jsonTransport, jsonNumber]
  cases value.finite? <;> rfl

variable {command : Command JsValue}

theorem exportEntry_transport (hpayload : Json (· ≠ "__proto__") command.payload) :
    ∃ entry, exportEntry command = some entry ∧
      jsonTransport entry = .ok (some (transportedEntry command)) := by
  have hexport : exportEntry command = some (serializedEntry command
      (.number command.timestamp.toJs) (.number command.step) command.payload) := by
    rw [exportEntry, hpayload.clone]
  refine ⟨_, hexport, transport_record ?_⟩
  have htype : jsonTransport (.string command.type) = .ok (some (.string command.type)) := by
    rw [jsonTransport]
  refine transportFields_cons htype (transportFields_cons (transport_number _) ?_)
  refine transportFields_cons (transport_number _) (transportFields_cons (transport_number _) ?_)
  refine transportFields_cons hpayload.transport ?_
  rw [transportFields]

variable {q : CommandQueue JsValue}

theorem exportForSave_transport (hq : q.Valid)
    (hpayload : ∀ command ∈ q.commands, Json (· ≠ "__proto__") command.payload) :
    jsonTransport q.exportForSave =
      .ok (some (serializedQueue (q.commands.map transportedEntry))) := by
  -- the early return of an empty queue is the general case
  have hexport : q.exportForSave = serializedQueue (q.commands.filterMap exportEntry) := by
    rw [exportForSave, commands_eq]
    split
    · next hzero => simp [queued_eq_nil_of_totalSize hq hzero]
    · rw [filterMap_map, queued_eq]
      simp only [commandPriorityOrder, flatMap_cons, flatMap_nil, append_nil,
        filterMap_append, append_assoc]
      rfl
  have hentries : ∀ l : List (Command JsValue), (∀ c ∈ l, Json (· ≠ "__proto__") c.payload) →
      transportElements (l.filterMap exportEntry) = .ok (l.map transportedEntry) := by
    intro l
    induction l with
    | nil =>
      intro _
      simp [transportElements]
    | cons c l ih =>
      intro hl
      obtain ⟨entry, hentry, htransport⟩ := exportEntry_transport (hl c (by simp))
      have hrest := ih fun d hd => hl d (mem_cons_of_mem _ hd)
      simp [hentry, transportElements, htransport, hrest]
  rw [hexport]
  simp [serializedQueue, record, jsonTransport, transportFields, hentries _ hpayload,
    JsNumber.finite?]

theorem normalize_transportedEntry (options : RestoreCommandQueueOptions)
    (hpayload : Json (· ≠ "__proto__") command.payload) :
    normalizeSerializedCommandEntry options (transportedEntry command) =
      if restorable command = true then some (rebasedCommand options command) else none := by
  have hclone := hpayload.clone
  obtain ⟨type, priority, payload, timestamp, step, requestId⟩ := command
  have hpriority := priority.ofNumber?_toNat
  simp only at hclone
  by_cases htype : isNonBlankString type = true
  · rcases timestamp with _ | _ | timestamp <;> rcases step with step | _ | _ | _
    all_goals
      simp [normalizeSerializedCommandEntry, transportedEntry, serializedEntry, JsValue.get,
        OrderedMap.find, restorable, Timestamp.toJs, JsNumber.finite?, jsonNumber, htype,
        JsValue.string?, JsValue.finite?, JsValue.number?, hpriority]
    -- only a finite timestamp and a finite step get as far as the last check
    by_cases hstep : step.den = 1 ∧ 0 ≤ step
    · simp [hstep, hclone, rebasedCommand, rebasedStep, Except.toOption]
      rfl
    · simp [hstep, guard]
  · simp [normalizeSerializedCommandEntry, transportedEntry, serializedEntry, JsValue.get,
      OrderedMap.find, restorable, htype, JsValue.string?]

/-! ### The restore of a save -/

variable {cloneStructured : JsValue → Except String JsValue}

/-- With room to spare an authorized command with a JSON payload goes in as it is. -/
theorem enqueue_of_room (hclone : ∀ value, IsJson value → cloneStructured value = .ok value)
    (q : CommandQueue JsValue) (hauth : authorizeCommand command = true)
    (hroom : (q.totalSize : ℚ) < q.maxSize) (hpayload : IsJson command.payload) :
    q.enqueue cloneStructured command = (.ok true, q.insert command) := by
  have hmakeRoom : q.makeRoom command.priority = some (none, q) := by
    rw [makeRoom, if_neg (not_le.mpr hroom)]
  rw [enqueue, if_neg (by simp [hauth]), hmakeRoom]
  simp only [hclone _ hpayload]

/-- A command that is not earlier than any command of its lane goes to the end of the lane. -/
theorem insert_laneCommands_last {q : CommandQueue Payload} (hq : q.Valid)
    (command : Command Payload)
    (hlast : ∀ other ∈ q.laneCommands command.priority, other.timestamp ≤ command.timestamp)
    (priority : CommandPriority) :
    (q.insert command).laneCommands priority =
      q.laneCommands priority ++
        if command.priority = priority then [command.withoutRequestId] else [] := by
  rw [insert_laneCommands hq]
  by_cases hp : priority = command.priority
  · subst hp
    rw [if_pos rfl, if_pos rfl]
    exact Bisect.orderedInsert_of_forall_not fun other hmem => not_lt.mpr (hlast other hmem)
  · rw [if_neg hp, if_neg (Ne.symm hp), append_nil]

/-- The commands that a restore makes of some saved ones. -/
def restoredCommands (options : RestoreCommandQueueOptions) (commands : List (Command JsValue)) :
    List (Command JsValue) :=
  commands.filterMap (restoredCommand options)

variable {options : RestoreCommandQueueOptions}

theorem restoredCommand_eq_some {command' : Command JsValue}
    (h : restoredCommand options command = some command') :
    command' = rebasedCommand options command ∧
      restorable command = true ∧ options.supports command.type = true := by
  rw [restoredCommand] at h
  split at h
  · next hkept => exact ⟨(Option.some.inj h).symm, hkept⟩
  · cases h

/-- **The restore loop.** Saved commands that fit into the queue, in timestamp order within each
lane and none of them earlier than a queued command of its lane, are appended to their lanes. The
induction is on the saved commands; the queue grows by the accepted ones. -/
theorem restoreEntries_transported
    (hclone : ∀ value, IsJson value → cloneStructured value = .ok value)
    (options : RestoreCommandQueueOptions) (commands : List (Command JsValue)) :
    ∀ (restored skipped : ℕ) (q : CommandQueue JsValue), q.Valid →
      (∀ command ∈ commands, authorizeCommand command = true ∧
        Json (· ≠ "__proto__") command.payload) →
      (q.totalSize : ℚ) + commands.length < q.maxSize + 1 →
      (commands.Pairwise fun a b => a.priority = b.priority → a.timestamp ≤ b.timestamp) →
      (∀ command ∈ commands, ∀ other ∈ q.laneCommands command.priority,
        other.timestamp ≤ command.timestamp) →
      ∃ r, restoreEntries cloneStructured options (commands.map transportedEntry) restored skipped q =
          (.ok (restored + (restoredCommands options commands).length,
            skipped + (commands.length - (restoredCommands options commands).length)), r) ∧
        r.Valid ∧ r.maxSize = q.maxSize ∧
        ∀ priority, r.laneCommands priority = q.laneCommands priority ++
          (restoredCommands options commands).filter fun command =>
            decide (command.priority = priority) := by
  induction commands with
  | nil =>
    intro restored skipped q hq _ _ _ _
    exact ⟨q, by simp [restoreEntries, restoredCommands], hq, rfl, by simp [restoredCommands]⟩
  | cons command commands ih =>
    intro restored skipped q hq hcommands hroom hsorted hlate
    obtain ⟨hhead, htail⟩ := forall_mem_cons.mp hcommands
    obtain ⟨hfirst, hsorted'⟩ := pairwise_cons.mp hsorted
    obtain ⟨hlate₁, hlate'⟩ := forall_mem_cons.mp hlate
    have hcount : (0 : ℚ) ≤ commands.length := Nat.cast_nonneg _
    have hlength : (restoredCommands options commands).length ≤ commands.length :=
      length_filterMap_le _ _
    rw [length_cons] at hroom
    push_cast at hroom
    have hroom' : (q.totalSize : ℚ) + commands.length < q.maxSize + 1 := by linarith
    have hnormalize := normalize_transportedEntry options hhead.2
    rw [map_cons, restoreEntries, hnormalize]
    by_cases hkept : restorable command = true ∧ options.supports command.type = true
    · -- the command is accepted, and the rest finds it at the end of its lane
      obtain ⟨hrestorable, hsupports⟩ := hkept
      let accepted : Command JsValue := rebasedCommand options command
      have hrestored : restoredCommand options command = some accepted := by
        rw [restoredCommand, if_pos ⟨hrestorable, hsupports⟩]
      have hlist : restoredCommands options (command :: commands) =
          accepted :: restoredCommands options commands := by
        rw [restoredCommands, filterMap_cons_some hrestored, restoredCommands]
      have hlanes := insert_laneCommands_last hq accepted hlate₁
      have hauth : authorizeCommand accepted = true := hhead.1
      have henqueue := enqueue_of_room hclone q hauth (by linarith) hhead.2.isJson
      obtain ⟨r, hrun, hvalid, hmax, hr⟩ := ih (restored + 1) skipped (q.insert accepted)
        (hq.insert accepted) htail
        (by
          change ((q.totalSize + 1 : ℤ) : ℚ) + _ < q.maxSize + 1
          push_cast
          linarith)
        hsorted'
        (by
          intro later hlater other hother
          rw [hlanes] at hother
          rcases mem_append.mp hother with hold | hnew
          · exact hlate' later hlater other hold
          · split at hnew
            · next hpriority =>
              rw [mem_singleton.mp hnew]
              exact hfirst later hlater hpriority
            · simp at hnew)
      refine ⟨r, ?_, hvalid, hmax, fun priority => ?_⟩
      · have hsupports' : options.supports (rebasedCommand options command).type = true := hsupports
        simp only [if_pos hrestorable, hsupports', Bool.true_eq_false, if_false]
        rw [henqueue]
        have hgrows : q.totalSize < (q.insert accepted).totalSize := by
          change q.totalSize < q.totalSize + 1
          omega
        simp only [if_pos hgrows]
        rw [hrun, hlist]
        simp only [length_cons, Prod.mk.injEq, Except.ok.injEq, and_true]
        omega
      · rw [hr, hlanes, hlist, append_assoc, filter_cons]
        have hself : accepted.withoutRequestId = accepted := rfl
        by_cases hp : accepted.priority = priority
        · rw [if_pos hp, if_pos (decide_eq_true hp), hself, singleton_append]
        · rw [if_neg hp, if_neg (by simpa using hp), nil_append]
    · -- the command is skipped
      have hrestored : restoredCommand options command = none := by
        rw [restoredCommand, if_neg hkept]
      have hlist : restoredCommands options (command :: commands) =
          restoredCommands options commands := by
        rw [restoredCommands, filterMap_cons_none hrestored, restoredCommands]
      obtain ⟨r, hrun, hvalid, hmax, hr⟩ := ih restored (skipped + 1) q hq htail hroom' hsorted'
        hlate'
      refine ⟨r, ?_, hvalid, hmax, by rw [hlist]; exact hr⟩
      have hresult : restoreEntries cloneStructured options (commands.map transportedEntry) restored
          (skipped + 1) q = (.ok (restored + (restoredCommands options (command :: commands)).length,
            skipped + ((command :: commands).length -
              (restoredCommands options (command :: commands)).length)), r) := by
        rw [hrun, hlist]
        simp only [length_cons, Prod.mk.injEq, Except.ok.injEq, and_true, true_and]
        omega
      by_cases hrestorable : restorable command = true
      · have hsupports : options.supports (rebasedCommand options command).type = false := by
          simpa [hrestorable, rebasedCommand] using hkept
        simp only [if_pos hrestorable, hsupports, if_true]
        exact hresult
      · simp only [if_neg hrestorable]
        exact hresult

/-- The queue without the commands that a restore refuses, the steps of the others rebased. -/
def kept (options : RestoreCommandQueueOptions) (q : CommandQueue JsValue) :
    CommandQueue JsValue :=
  let lanes := fun priority => (q.lanes priority).filterMap fun entry =>
    (restoredCommand options entry.command).map fun command =>
      ({ command, sequence := entry.sequence } : CommandQueueEntry JsValue)
  { q with lanes, totalSize := (commandPriorityOrder.flatMap lanes).length }

theorem mem_kept_lanes {priority : CommandPriority} {entry : CommandQueueEntry JsValue}
    (hmem : entry ∈ (q.kept options).lanes priority) :
    ∃ old ∈ q.lanes priority, entry.key = old.key ∧ entry.sequence = old.sequence ∧
      entry.command.priority = old.command.priority := by
  obtain ⟨old, hold, hentry⟩ := mem_filterMap.mp hmem
  obtain ⟨command, hcommand, rfl⟩ := Option.map_eq_some_iff.mp hentry
  obtain ⟨rfl, -, -⟩ := restoredCommand_eq_some hcommand
  exact ⟨old, hold, rfl, rfl, rfl⟩

theorem Valid.kept (hq : q.Valid) (options : RestoreCommandQueueOptions) :
    (q.kept options).Valid where
  lane_priority := by
    intro priority entry hmem
    obtain ⟨old, hold, -, -, hpriority⟩ := mem_kept_lanes hmem
    rw [hpriority, hq.lane_priority _ _ hold]
  lane_sorted := by
    intro priority
    refine (hq.lane_sorted priority).filterMap _ fun a a' haa' b hb b' hb' => ?_
    -- a restored entry keeps its timestamp and its sequence number
    obtain ⟨command, hcommand, rfl⟩ := Option.map_eq_some_iff.mp hb
    obtain ⟨command', hcommand', rfl⟩ := Option.map_eq_some_iff.mp hb'
    obtain ⟨rfl, -, -⟩ := restoredCommand_eq_some hcommand
    obtain ⟨rfl, -, -⟩ := restoredCommand_eq_some hcommand'
    exact haa'
  fresh := by
    intro entry hmem
    obtain ⟨priority, hlane⟩ := mem_queued.mp hmem
    obtain ⟨old, hold, -, hsequence, -⟩ := mem_kept_lanes hlane
    rw [hsequence]
    exact hq.fresh old (mem_queued.mpr ⟨priority, hold⟩)
  total := rfl

theorem restoredCommand_withoutRequestId (options : RestoreCommandQueueOptions)
    (command : Command JsValue) :
    restoredCommand options command.withoutRequestId = restoredCommand options command := rfl

theorem kept_laneCommands (options : RestoreCommandQueueOptions) (q : CommandQueue JsValue)
    (priority : CommandPriority) :
    (q.kept options).laneCommands priority =
      restoredCommands options (q.laneCommands priority) := by
  rw [laneCommands, laneCommands, kept, restoredCommands, map_filterMap, filterMap_map]
  refine filterMap_congr fun entry _ => ?_
  simp only [Function.comp, restoredCommand_withoutRequestId, Option.map_map]
  cases hrestored : restoredCommand options entry.command with
  | none => rfl
  | some command =>
    obtain ⟨rfl, -, -⟩ := restoredCommand_eq_some hrestored
    rfl

theorem restoredCommands_filter (hq : q.Valid) (options : RestoreCommandQueueOptions)
    (priority : CommandPriority) :
    ((restoredCommands options q.commands).filter fun command =>
        decide (command.priority = priority)) =
      restoredCommands options (q.laneCommands priority) := by
  have hlane : ∀ p, ∀ command ∈ restoredCommands options (q.laneCommands p),
      command.priority = p := by
    intro p command hmem
    rw [← kept_laneCommands] at hmem
    obtain ⟨entry, hentry, rfl⟩ := mem_map.mp hmem
    exact (hq.kept options).lane_priority p entry hentry
  have hself : (restoredCommands options (q.laneCommands priority)).filter
      (fun command => decide (command.priority = priority)) =
      restoredCommands options (q.laneCommands priority) :=
    filter_eq_self.mpr fun command hmem => decide_eq_true (hlane _ _ hmem)
  have hother : ∀ p, p ≠ priority → (restoredCommands options (q.laneCommands p)).filter
      (fun command => decide (command.priority = priority)) = [] := fun p hp =>
    filter_eq_nil_iff.mpr fun command hmem => by simpa [hlane p command hmem] using hp
  have hsplit : restoredCommands options q.commands =
      restoredCommands options (q.laneCommands .system) ++
        (restoredCommands options (q.laneCommands .player) ++
          restoredCommands options (q.laneCommands .automation)) := by
    simp [restoredCommands, commands, commandPriorityOrder]
  rw [hsplit, filter_append, filter_append]
  cases priority with
  | system => rw [hself, hother .player (by decide), hother .automation (by decide)]; simp
  | player => rw [hself, hother .system (by decide), hother .automation (by decide)]; simp
  | automation => rw [hself, hother .system (by decide), hother .player (by decide)]; simp

theorem kept_commands (options : RestoreCommandQueueOptions) (q : CommandQueue JsValue) :
    (q.kept options).commands = restoredCommands options q.commands := by
  have hlanes : (q.kept options).laneCommands =
      fun priority => restoredCommands options (q.laneCommands priority) :=
    funext fun priority => kept_laneCommands options q priority
  rw [commands, hlanes]
  simp [restoredCommands, commands, commandPriorityOrder]

theorem restoreFromSave_serializedQueue (cloneStructured : JsValue → Except String JsValue)
    (target : CommandQueue JsValue) (entries : List JsValue) (options : RestoreCommandQueueOptions) :
    target.restoreFromSave cloneStructured (serializedQueue entries) options =
      restoreEntries cloneStructured options entries 0 0 target.clear := by
  simp [restoreFromSave, serializedQueue, JsValue.get, OrderedMap.find, JsValue.number?,
    JsValue.array?]

/-- **Restore after export.** The queue that comes back is alike to the saved one, less what a
restore refuses. -/
theorem restoreFromSave_transported
    (hclone : ∀ value, IsJson value → cloneStructured value = .ok value)
    {target : CommandQueue JsValue} (hq : q.Admitted) (htarget : target.Valid)
    (hmax : target.maxSize = q.maxSize)
    (hpayload : ∀ command ∈ q.commands, Json (· ≠ "__proto__") command.payload)
    (options : RestoreCommandQueueOptions) :
    ∃ r, target.restoreFromSave cloneStructured
        (serializedQueue (q.commands.map transportedEntry)) options =
        (.ok ((restoredCommands options q.commands).length,
          q.commands.length - (restoredCommands options q.commands).length), r) ∧
      r.Alike (q.kept options) := by
  obtain ⟨hclear, hempty, -⟩ := htarget.clear
  have hclear_max : target.clear.maxSize = q.maxSize := by rw [clear_maxSize, hmax]
  have hroom : (target.clear.totalSize : ℚ) + q.commands.length < target.clear.maxSize + 1 := by
    have hbounded := hq.bounded
    rw [hq.valid.totalSize_eq] at hbounded
    rw [hclear_max, hclear.total, hempty]
    simpa using hbounded
  have hsorted : q.commands.Pairwise fun a b => a.priority = b.priority →
      a.timestamp ≤ b.timestamp := by
    rw [commands_eq]
    refine pairwise_map.mpr (hq.valid.ordered.imp fun {a b} hab hpriority => ?_)
    rcases hab with hlt | ⟨-, hlt | ⟨heq, -⟩⟩
    · have heq : a.command.priority = b.command.priority := hpriority
      rw [heq] at hlt
      exact absurd hlt (lt_irrefl _)
    · exact hlt.le
    · exact heq.le
  obtain ⟨r, hrun, hvalid, hrmax, hlanes⟩ := restoreEntries_transported hclone options q.commands
    0 0 target.clear hclear (fun command hmem => ⟨hq.authorized _ hmem, hpayload _ hmem⟩) hroom
    hsorted (fun command _ other hother => by simp [htarget.clear_laneCommands] at hother)
  refine ⟨r, ?_, hvalid, hq.valid.kept options, hrmax.trans hclear_max, fun priority => ?_⟩
  · rw [restoreFromSave_serializedQueue, hrun, Nat.zero_add, Nat.zero_add]
  · rw [hlanes, htarget.clear_laneCommands, nil_append, restoredCommands_filter hq.valid,
      kept_laneCommands]

theorem restoredCommands_eq_map (hoptions : options.isCommandTypeSupported = none)
    {l : List (Command JsValue)} (h : ∀ command ∈ l, restorable command = true) :
    restoredCommands options l = l.map (rebasedCommand options) := by
  rw [restoredCommands, ← filterMap_eq_map]
  refine filterMap_congr fun command hmem => ?_
  have hsupports : options.supports command.type = true := by
    rw [RestoreCommandQueueOptions.supports, hoptions]
  rw [restoredCommand, if_pos ⟨h command hmem, hsupports⟩]
  rfl

theorem rebasedCommand_default (command : Command JsValue) :
    rebasedCommand .default command = command.withoutRequestId := by
  have hstep : rebasedStep .default command.step = command.step := by
    cases command.step <;> rfl
  rw [rebasedCommand, hstep, Command.withoutRequestId]

theorem Admitted.alike_kept (hq : q.Admitted)
    (h : ∀ command ∈ q.commands, restorable command = true) : (q.kept .default).Alike q := by
  refine ⟨hq.valid.kept _, hq.valid, rfl, fun priority => ?_⟩
  have hlane : ∀ command ∈ q.laneCommands priority, restorable command = true :=
    fun command hmem =>
      h command (mem_flatMap.mpr ⟨priority, mem_commandPriorityOrder priority, hmem⟩)
  rw [kept_laneCommands, restoredCommands_eq_map rfl hlane, laneCommands, map_map]
  exact map_congr_left fun entry _ => rebasedCommand_default _

/-! ### Counting restored commands -/

/-- The restore loop counts what makes the queue longer. -/
theorem restoreEntries_counts (hclone : ∀ value, IsJson value → cloneStructured value = .ok value)
    (options : RestoreCommandQueueOptions) (entries : List JsValue) :
    ∀ (restored skipped : ℕ) (q : CommandQueue JsValue), q.Admitted → q.totalSize = restored →
      ∃ restored' skipped' r,
        restoreEntries cloneStructured options entries restored skipped q =
          (.ok (restored', skipped'), r) ∧ r.totalSize = (restored' : ℤ) := by
  induction entries with
  | nil =>
    intro restored skipped q _ hcount
    exact ⟨restored, skipped, q, rfl, hcount⟩
  | cons entry entries ih =>
    intro restored skipped q hq hcount
    rw [restoreEntries]
    cases hnormalize : normalizeSerializedCommandEntry options entry with
    | none => exact ih restored (skipped + 1) q hq hcount
    | some command =>
      simp only
      split
      · exact ih restored (skipped + 1) q hq hcount
      · -- what a restore queues was cloned before, so it is a JSON value
        have hjson : IsJson command.payload := by
          simp only [normalizeSerializedCommandEntry, Option.bind_eq_bind, Option.bind_eq_some_iff]
            at hnormalize
          obtain ⟨_, _, _, _, _, _, _, _, _, _, _, _, payload, hpayload, hcommand⟩ := hnormalize
          obtain rfl := Option.some.inj hcommand
          cases hvalue : cloneJsonValue (entry.get "payload") with
          | error message => simp [hvalue, Except.toOption] at hpayload
          | ok value =>
            obtain rfl : value = payload := by simpa [hvalue, Except.toOption] using hpayload
            exact cloneJsonValueInner_isJson hvalue
        obtain ⟨hadmitted, houtcome⟩ := hq.enqueue cloneStructured command
        obtain ⟨⟨accepted, haccepted⟩, hsize⟩ := houtcome _ (hclone _ hjson)
        generalize hrun : q.enqueue cloneStructured command = outcome at *
        obtain ⟨result, r⟩ := outcome
        simp only at haccepted hsize hadmitted
        rw [haccepted]
        simp only
        split
        · next hgrows =>
          refine ih (restored + 1) skipped r hadmitted ?_
          push_cast
          omega
        · next hsame => exact ih restored (skipped + 1) r hadmitted (by omega)

end CommandQueue

open CommandQueue

/-! ### The contract of a save -/

end IdleEngine
