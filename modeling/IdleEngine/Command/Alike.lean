import IdleEngine.Command.Delivery
import IdleEngine.Lib.Machine

/-!
# Queues that cannot be told apart

Two queues are **alike** when their lanes hold the same commands in the same order, whatever the
sequence numbers. No later call can tell alike queues apart (`CommandQueue.Alike.indistinguishable`):
a new command gets a sequence number above the queued ones, so ties are broken by the order in
the lane alone.
-/

namespace IdleEngine

open List

variable {Payload : Type*}

/-- A command as a save keeps it: without the request it answers. -/
def Command.withoutRequestId (command : Command Payload) : Command Payload :=
  { command with requestId := none }

namespace CommandQueue

/-! ### Calls and their answers -/

/-- What a caller sees of a call. -/
inductive Answer (Payload : Type*)
  | accepted (result : Except String Bool) (size : ℤ)
  | returned (commands : List (Command Payload)) (size : ℤ)
  | cleared (size : ℤ)

/-- One call and its answer. -/
def answer (cloneStructured : Payload → Except String Payload) (q : CommandQueue Payload) :
    QueueCall Payload → Answer Payload × CommandQueue Payload
  | .enqueue command =>
      let (result, r) := q.enqueue cloneStructured command
      (.accepted result r.size, r)
  | .dequeueAll =>
      let (commands, r) := q.dequeueAll
      (.returned (commands.map Command.withoutRequestId) r.size, r)
  | .dequeueUpToStep step =>
      let (commands, r) := q.dequeueUpToStep step
      (.returned (commands.map Command.withoutRequestId) r.size, r)
  | .clear => (.cleared q.clear.size, q.clear)

/-- Two queues that answer every sequence of calls alike. -/
def Indistinguishable (cloneStructured : Payload → Except String Payload)
    (q r : CommandQueue Payload) : Prop :=
  ∀ calls : List (QueueCall Payload),
    Machine.answers (answer cloneStructured) q calls =
      Machine.answers (answer cloneStructured) r calls

/-! ### Alike queues -/

/-- The commands of a lane, in order. -/
def laneCommands (q : CommandQueue Payload) (priority : CommandPriority) :
    List (Command Payload) :=
  (q.lanes priority).map fun entry => entry.command.withoutRequestId

/-- Well-formed queues of one capacity with the same commands in every lane. -/
structure Alike (q r : CommandQueue Payload) : Prop where
  left : q.Valid
  right : r.Valid
  maxSize : q.maxSize = r.maxSize
  lanes : ∀ priority, q.laneCommands priority = r.laneCommands priority

variable {q r : CommandQueue Payload}

theorem Alike.trans {s : CommandQueue Payload} (h : q.Alike r) (h' : r.Alike s) : q.Alike s :=
  ⟨h.left, h'.right, h.maxSize.trans h'.maxSize,
    fun priority => (h.lanes priority).trans (h'.lanes priority)⟩

/-- The commands of a queue, in delivery order. -/
def commands (q : CommandQueue Payload) : List (Command Payload) :=
  commandPriorityOrder.flatMap q.laneCommands

theorem commands_eq (q : CommandQueue Payload) :
    q.commands = q.queued.map fun entry => entry.command.withoutRequestId := by
  simp [commands, queued_eq, laneCommands, commandPriorityOrder]

theorem Alike.commands_eq (h : q.Alike r) : q.commands = r.commands := by
  have hlanes : q.laneCommands = r.laneCommands := funext h.lanes
  rw [commands, commands, hlanes]

theorem Valid.totalSize_eq (hq : q.Valid) :
    q.totalSize = q.commands.length := by
  rw [hq.total, CommandQueue.commands_eq, length_map]

theorem Alike.totalSize (h : q.Alike r) :
    q.totalSize = r.totalSize := by
  rw [h.left.totalSize_eq, h.right.totalSize_eq, h.commands_eq]

/-! ### Each call on alike queues -/

/-- The place of a new command depends on the timestamps in its lane alone: it goes in front of
the first later one. -/
theorem insert_laneCommands (hq : q.Valid) (command : Command Payload)
    (priority : CommandPriority) :
    (q.insert command).laneCommands priority =
      if priority = command.priority then
        (q.laneCommands priority).orderedInsert (fun a b => a.timestamp < b.timestamp)
          command.withoutRequestId
      else q.laneCommands priority := by
  rw [laneCommands, insert_lanes hq]
  by_cases hp : priority = command.priority
  · subst hp
    rw [Function.update_self, if_pos rfl, laneCommands]
    refine Bisect.map_orderedInsert_of_iff fun other hmem => ?_
    -- the new sequence number is above every queued one, so only the timestamps decide
    have hfresh : other.sequence < q.nextSequence := hq.fresh other (mem_queued.mpr ⟨_, hmem⟩)
    have hne : (q.newEntry command).key ≠ other.key := fun hkey =>
      absurd (sequence_eq_of_key_eq hkey) hfresh.ne'
    rw [hne.le_iff_lt, key_lt_iff]
    simp only [newEntry, Command.withoutRequestId]
    constructor
    · rintro (hlt | ⟨-, hseq⟩)
      · exact hlt
      · omega
    · exact .inl
  · rw [Function.update_of_ne hp, if_neg hp, laneCommands]

theorem Alike.insert (h : q.Alike r) (command : Command Payload) :
    (q.insert command).Alike (r.insert command) where
  left := h.left.insert command
  right := h.right.insert command
  maxSize := h.maxSize
  lanes := by
    intro priority
    rw [insert_laneCommands h.left, insert_laneCommands h.right, h.lanes]

/-- The search for a victim finds the first command of the same lane in both queues. -/
theorem Alike.dropFrom (h : q.Alike r) (maxPriority : CommandPriority)
    (priorities : List CommandPriority) :
    (q.dropFrom maxPriority priorities = (none, q) ∧ r.dropFrom maxPriority priorities = (none, r)) ∨
      ∃ a b q' r', q.dropFrom maxPriority priorities = (some a, q') ∧
        r.dropFrom maxPriority priorities = (some b, r') ∧ q'.Alike r' := by
  induction priorities with
  | nil => exact .inl ⟨rfl, rfl⟩
  | cons priority rest ih =>
    rw [CommandQueue.dropFrom, CommandQueue.dropFrom]
    by_cases hp : priority.toNat < maxPriority.toNat
    · rw [if_pos hp, if_pos hp]
      exact ih
    · rw [if_neg hp, if_neg hp]
      have hlane := h.lanes priority
      rw [laneCommands, laneCommands] at hlane
      cases hq : q.lanes priority with
      | nil =>
        have hr : r.lanes priority = [] := by simpa [hq] using hlane.symm
        rw [hr]
        exact ih
      | cons a lane =>
        obtain ⟨b, lane', hr⟩ : ∃ b lane', r.lanes priority = b :: lane' := by
          cases hr : r.lanes priority with
          | nil => simp [hq, hr] at hlane
          | cons b lane' => exact ⟨b, lane', rfl⟩
        rw [hr]
        refine .inr ⟨a, b, _, _, rfl, rfl, ?_⟩
        rw [hq, hr, map_cons, map_cons, cons.injEq] at hlane
        refine ⟨(h.left.drop hq).1, (h.right.drop hr).1, h.maxSize, fun p => ?_⟩
        by_cases hpp : p = priority
        · subst hpp
          simpa [laneCommands] using hlane.2
        · simpa [laneCommands, Function.update_of_ne hpp] using h.lanes p

theorem Alike.makeRoom (h : q.Alike r) (priority : CommandPriority) :
    (q.makeRoom priority = none ∧ r.makeRoom priority = none) ∨
      ∃ a b, q.makeRoom priority = some a ∧ r.makeRoom priority = some b ∧ a.2.Alike b.2 := by
  rw [CommandQueue.makeRoom, CommandQueue.makeRoom, ← h.maxSize, ← h.totalSize]
  split
  · rcases h.dropFrom priority commandPriorityOrder.reverse with
      ⟨hq, hr⟩ | ⟨a, b, q', r', hq, hr, halike⟩
    · exact .inl (by simp [dropLowestPriorityUpTo, hq, hr])
    · refine .inr ⟨(some a, q'), (some b, r'), ?_, ?_, halike⟩
      · simp [dropLowestPriorityUpTo, hq]
      · simp [dropLowestPriorityUpTo, hr]
  · exact .inr ⟨_, _, rfl, rfl, h⟩

theorem Alike.enqueue (h : q.Alike r) (cloneStructured : Payload → Except String Payload)
    (command : Command Payload) :
    (q.enqueue cloneStructured command).1 = (r.enqueue cloneStructured command).1 ∧
      (q.enqueue cloneStructured command).2.Alike (r.enqueue cloneStructured command).2 := by
  rw [CommandQueue.enqueue, CommandQueue.enqueue]
  split
  · exact ⟨rfl, h⟩
  · rcases h.makeRoom command.priority with ⟨hq, hr⟩ | ⟨a, b, hq, hr, halike⟩
    · rw [hq, hr]
      exact ⟨rfl, h⟩
    · rw [hq, hr]
      cases cloneStructured command.payload with
      | error message => exact ⟨rfl, halike⟩
      | ok payload => exact ⟨rfl, halike.insert _⟩

theorem dequeueUpToStep_laneCommands (hq : q.Valid) (step : JsNumber) (priority : CommandPriority) :
    (q.dequeueUpToStep step).2.laneCommands priority =
      (q.laneCommands priority).filter fun command => !command.step.le step := by
  rw [(dequeueUpToStep_spec hq step).2, laneCommands, laneCommands, filter_map]
  rfl

theorem dequeueUpToStep_commands (hq : q.Valid) (step : JsNumber) :
    (q.dequeueUpToStep step).1.map Command.withoutRequestId =
      q.commands.filter fun command => command.step.le step := by
  rw [(dequeueUpToStep_spec hq step).1, commands_eq, map_map, filter_map]
  rfl

theorem Alike.dequeueUpToStep (h : q.Alike r) (step : JsNumber) :
    (q.dequeueUpToStep step).1.map Command.withoutRequestId =
        (r.dequeueUpToStep step).1.map Command.withoutRequestId ∧
      (q.dequeueUpToStep step).2.Alike (r.dequeueUpToStep step).2 := by
  refine ⟨?_, h.left.dequeueUpToStep step, h.right.dequeueUpToStep step, ?_, fun priority => ?_⟩
  · rw [dequeueUpToStep_commands h.left, dequeueUpToStep_commands h.right, h.commands_eq]
  · rw [(dequeueUpToStep_spec h.left step).2, (dequeueUpToStep_spec h.right step).2]
    exact h.maxSize
  · rw [dequeueUpToStep_laneCommands h.left, dequeueUpToStep_laneCommands h.right, h.lanes]

theorem clear_maxSize (q : CommandQueue Payload) : q.clear.maxSize = q.maxSize := by
  by_cases hsize : q.totalSize = 0
  · rw [clear, if_pos hsize]
  · rw [clear_eq hsize]

theorem Valid.clear_laneCommands (hq : q.Valid) (priority : CommandPriority) :
    q.clear.laneCommands priority = [] := by
  have hempty : q.clear.queued = [] := hq.clear.2.1
  have hlane : ∀ entry ∈ q.clear.lanes priority, False := fun entry hmem => by
    simpa [hempty] using mem_queued.mpr ⟨priority, hmem⟩
  rw [laneCommands, eq_nil_iff_forall_not_mem.mpr hlane, map_nil]

theorem Alike.clear (h : q.Alike r) : q.clear.Alike r.clear where
  left := h.left.clear.1
  right := h.right.clear.1
  maxSize := by rw [clear_maxSize, clear_maxSize, h.maxSize]
  lanes := fun priority => by rw [h.left.clear_laneCommands, h.right.clear_laneCommands]

variable (cloneStructured : Payload → Except String Payload)

/-- **Alike queues are indistinguishable.** The relation is a bisimulation. -/
theorem alike_bisimulation :
    Machine.Bisimulation (answer cloneStructured) (answer cloneStructured)
      (Alike : CommandQueue Payload → CommandQueue Payload → Prop) where
  answer := by
    intro q r h call
    cases call with
    | enqueue command =>
      obtain ⟨hresult, halike⟩ := h.enqueue cloneStructured command
      simp only [answer, size, hresult, halike.totalSize]
    | dequeueAll =>
      obtain ⟨hcommands, halike⟩ := h.dequeueUpToStep .posInf
      simp only [answer, dequeueAll, size, hcommands, halike.totalSize]
    | dequeueUpToStep step =>
      obtain ⟨hcommands, halike⟩ := h.dequeueUpToStep step
      simp only [answer, size, hcommands, halike.totalSize]
    | clear => simp only [answer, size, h.clear.totalSize]
  stays := by
    intro q r h call
    cases call with
    | enqueue command => exact (h.enqueue cloneStructured command).2
    | dequeueAll => exact (h.dequeueUpToStep .posInf).2
    | dequeueUpToStep step => exact (h.dequeueUpToStep step).2
    | clear => exact h.clear

theorem Alike.indistinguishable (h : q.Alike r)
    (cloneStructured : Payload → Except String Payload) : Indistinguishable cloneStructured q r :=
  fun calls => (alike_bisimulation cloneStructured).answers_eq calls h

/-! ### Reachable queues -/

/-- What a run of calls keeps, besides well-formed arrays: every queued command is authorized for
its lane, and the queue is at most one command over its capacity, which need not be whole. -/
structure Admitted (q : CommandQueue Payload) : Prop where
  valid : q.Valid
  authorized : ∀ command ∈ q.commands, authorizeCommand command = true
  bounded : (q.totalSize : ℚ) < q.maxSize + 1

variable {command : Command Payload}

theorem mem_commands :
    command ∈ q.commands ↔ ∃ entry ∈ q.queued, entry.command.withoutRequestId = command := by
  rw [commands_eq, mem_map]

theorem admitted_empty (maxSize : ℚ) (hpos : 0 < maxSize) :
    (empty maxSize hpos : CommandQueue Payload).Admitted where
  valid := valid_empty maxSize hpos
  authorized := by simp [mem_commands, mem_queued, empty]
  bounded := by
    change ((0 : ℤ) : ℚ) < maxSize + 1
    push_cast
    linarith

variable {priority : CommandPriority}
  {out : Option (CommandQueueEntry Payload) × CommandQueue Payload}

theorem makeRoom_maxSize (hout : q.makeRoom priority = some out) : out.2.maxSize = q.maxSize := by
  rw [makeRoom] at hout
  split at hout
  · rcases dropFrom_cases q priority commandPriorityOrder.reverse with
      hnone | ⟨p, victim, lane, -, -, hsome⟩
    · simp [dropLowestPriorityUpTo, hnone] at hout
    · simp only [dropLowestPriorityUpTo, hsome, Option.some.injEq] at hout
      rw [← hout]
      rfl
  · rw [← Option.some.inj hout]

/-- After room was made one more command fits, and the queue is as long as before or one command
shorter. -/
theorem Admitted.makeRoom (hq : q.Admitted) (hout : q.makeRoom priority = some out) :
    out.2.Admitted ∧ (out.2.totalSize : ℚ) < q.maxSize ∧
      (out.2.totalSize = q.totalSize ∨ out.2.totalSize = q.totalSize - 1) := by
  have hmax : out.2.maxSize = q.maxSize := makeRoom_maxSize hout
  obtain ⟨hvalid, -, hperm⟩ := hq.valid.makeRoom hout
  have hsizes : (out.2.totalSize : ℚ) < q.maxSize ∧
      (out.2.totalSize = q.totalSize ∨ out.2.totalSize = q.totalSize - 1) := by
    rw [CommandQueue.makeRoom] at hout
    split at hout
    · rcases dropFrom_cases q priority commandPriorityOrder.reverse with
        hnone | ⟨p, victim, lane, -, -, hsome⟩
      · simp [dropLowestPriorityUpTo, hnone] at hout
      · simp only [dropLowestPriorityUpTo, hsome, Option.some.injEq] at hout
        have hbounded := hq.bounded
        rw [← hout]
        refine ⟨?_, .inr rfl⟩
        push_cast
        linarith
    · next hroom =>
      rw [← Option.some.inj hout]
      exact ⟨not_le.mp hroom, .inl rfl⟩
  refine ⟨⟨hvalid, fun command hmem => ?_, ?_⟩, hsizes⟩
  · obtain ⟨entry, hentry, rfl⟩ := mem_commands.mp hmem
    have hqueued : entry ∈ q.queued := hperm.symm.subset (mem_append_right _ hentry)
    exact hq.authorized _ (mem_commands.mpr ⟨entry, hqueued, rfl⟩)
  · rw [hmax]
    linarith [hsizes.1]

theorem Admitted.insert (hq : q.Admitted) (hauth : authorizeCommand command = true)
    (hroom : (q.totalSize : ℚ) < q.maxSize) :
    (q.insert command).Admitted where
  valid := hq.valid.insert command
  authorized := by
    intro other hmem
    obtain ⟨entry, hentry, rfl⟩ := mem_commands.mp hmem
    rcases mem_cons.mp ((insert_queued hq.valid command).subset hentry) with rfl | hold
    · exact hauth
    · exact hq.authorized _ (mem_commands.mpr ⟨entry, hold, rfl⟩)
  bounded := by
    change ((q.totalSize + 1 : ℤ) : ℚ) < q.maxSize + 1
    push_cast
    linarith

/-- What an `enqueue` can do to an admitted queue whose clone succeeds: nothing, or one command
goes in, in the place of another one when the queue is full. -/
theorem Admitted.enqueue (hq : q.Admitted) (cloneStructured : Payload → Except String Payload)
    (command : Command Payload) :
    (q.enqueue cloneStructured command).2.Admitted ∧
      (∀ payload, cloneStructured command.payload = .ok payload →
        (∃ accepted, (q.enqueue cloneStructured command).1 = .ok accepted) ∧
          ((q.enqueue cloneStructured command).2.totalSize = q.totalSize ∨
            (q.enqueue cloneStructured command).2.totalSize = q.totalSize + 1)) := by
  rw [CommandQueue.enqueue]
  split
  · exact ⟨hq, fun _ _ => ⟨⟨false, rfl⟩, .inl rfl⟩⟩
  · next hauth =>
    cases hroom : q.makeRoom command.priority with
    | none => exact ⟨hq, fun _ _ => ⟨⟨false, rfl⟩, .inl rfl⟩⟩
    | some out =>
      obtain ⟨hout, hfits, hsize⟩ := hq.makeRoom hroom
      have hmax : out.2.maxSize = q.maxSize := makeRoom_maxSize hroom
      cases hclone : cloneStructured command.payload with
      | error message => exact ⟨hout, fun payload h => by cases h⟩
      | ok payload =>
        have hauth' : authorizeCommand { command with payload } = true := by
          simpa [authorizeCommand] using hauth
        refine ⟨hout.insert hauth' (hmax ▸ hfits), fun _ _ => ⟨⟨true, rfl⟩, ?_⟩⟩
        change out.2.totalSize + 1 = _ ∨ out.2.totalSize + 1 = _
        omega

/-- **Step lemma.** -/
theorem Admitted.call {ledger : QueueLedger Payload} (h : ledger.queue.Admitted)
    (cloneStructured : Payload → Except String Payload) (c : QueueCall Payload) :
    (ledger.call cloneStructured c).queue.Admitted := by
  have hdequeue : ∀ step, (ledger.queue.dequeueUpToStep step).2.Admitted := by
    intro step
    refine ⟨h.valid.dequeueUpToStep step, fun command hmem => ?_, ?_⟩
    · obtain ⟨entry, hentry, rfl⟩ := mem_commands.mp hmem
      rw [dequeueUpToStep_queued h.valid] at hentry
      exact h.authorized _ (mem_commands.mpr ⟨entry, mem_of_mem_filter hentry, rfl⟩)
    · have hbounded := h.bounded
      have hcount : (0 : ℚ) ≤ (ledger.queue.queued.filter (due step)).length := Nat.cast_nonneg _
      rw [(dequeueUpToStep_spec h.valid step).2]
      push_cast
      linarith
  cases c with
  | enqueue command => exact (h.enqueue cloneStructured command).1
  | dequeueAll => exact hdequeue .posInf
  | dequeueUpToStep step => exact hdequeue step
  | clear =>
    have hpos : 0 < ledger.queue.clear.maxSize := ledger.queue.clear.maxSize_pos
    obtain ⟨hvalid, hqueued, -⟩ := h.valid.clear
    refine ⟨hvalid, fun command hmem => ?_, ?_⟩
    · obtain ⟨entry, hentry, -⟩ := mem_commands.mp hmem
      simp [QueueLedger.call, hqueued] at hentry
    · change (ledger.queue.clear.totalSize : ℚ) < _
      rw [hvalid.total, hqueued]
      simpa [QueueLedger.call] using by linarith

/-- **Run lemma.** Every run of calls on a fresh queue leaves an admitted queue of its capacity. -/
theorem admitted_run (maxSize : ℚ) (hpos : 0 < maxSize) (calls : List (QueueCall Payload)) :
    (QueueLedger.run cloneStructured maxSize hpos calls).queue.Admitted :=
  foldlRecOn (motive := fun ledger : QueueLedger Payload => ledger.queue.Admitted) calls
    (QueueLedger.call cloneStructured) (admitted_empty maxSize hpos)
    fun _ h c _ => h.call cloneStructured c

theorem call_maxSize (ledger : QueueLedger Payload) (hq : ledger.queue.Valid)
    (c : QueueCall Payload) :
    (ledger.call cloneStructured c).queue.maxSize = ledger.queue.maxSize := by
  cases c with
  | enqueue command =>
    change (ledger.queue.enqueue cloneStructured command).2.maxSize = _
    rw [CommandQueue.enqueue]
    split
    · rfl
    · cases hroom : ledger.queue.makeRoom command.priority with
      | none => rfl
      | some out =>
        have hmax : out.2.maxSize = ledger.queue.maxSize := makeRoom_maxSize hroom
        cases cloneStructured command.payload with
        | error message => exact hmax
        | ok payload => exact hmax
  | dequeueAll =>
    change (ledger.queue.dequeueUpToStep .posInf).2.maxSize = _
    rw [(dequeueUpToStep_spec hq _).2]
  | dequeueUpToStep step =>
    change (ledger.queue.dequeueUpToStep step).2.maxSize = _
    rw [(dequeueUpToStep_spec hq _).2]
  | clear => exact clear_maxSize _

theorem run_maxSize (maxSize : ℚ) (hpos : 0 < maxSize) (calls : List (QueueCall Payload)) :
    (QueueLedger.run cloneStructured maxSize hpos calls).queue.maxSize = maxSize := by
  have hrun : ∀ ledger : QueueLedger Payload, ledger.queue.Admitted →
      (calls.foldl (QueueLedger.call cloneStructured) ledger).queue.maxSize =
        ledger.queue.maxSize := by
    induction calls with
    | nil => exact fun _ _ => rfl
    | cons c calls ih =>
      intro ledger h
      rw [foldl_cons, ih _ (h.call cloneStructured c), call_maxSize _ _ h.valid]
  exact hrun _ (admitted_empty maxSize hpos)

end CommandQueue

end IdleEngine
