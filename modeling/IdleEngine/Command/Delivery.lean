import IdleEngine.Command.Queue

/-!
# What the command queue delivers

The queue is proved against a ledger of the calls made to it: what was accepted, in order of
acceptance, what was handed back by dequeues, and what was thrown away, to make room or by
`clear`. Sequence numbers are tickets into the accepted list. The invariant `Valid` is about
the arrays alone; `delivery_contract` lifts it to every run of calls.
-/

namespace IdleEngine

open List Function

variable {Payload : Type*}

/-! ### The delivery order -/

/-- The order inside a lane: timestamp first, then the enqueue sequence. -/
def CommandQueueEntry.key (entry : CommandQueueEntry Payload) : Timestamp ×ₗ ℕ :=
  toLex (entry.command.timestamp, entry.sequence)

/-- Delivery order of queued entries: priority lane, then timestamp, then enqueue order. -/
def DeliversBefore (a b : CommandQueueEntry Payload) : Prop :=
  a.command.priority.toNat < b.command.priority.toNat ∨
    a.command.priority = b.command.priority ∧
      (a.command.timestamp < b.command.timestamp ∨
        a.command.timestamp = b.command.timestamp ∧ a.sequence < b.sequence)

variable {a b : CommandQueueEntry Payload}

theorem key_lt_iff :
    a.key < b.key ↔ a.command.timestamp < b.command.timestamp ∨
      a.command.timestamp = b.command.timestamp ∧ a.sequence < b.sequence := by
  simp [CommandQueueEntry.key, Prod.Lex.toLex_lt_toLex]

theorem sequence_eq_of_key_eq (h : a.key = b.key) :
    a.sequence = b.sequence :=
  congrArg (fun k => (ofLex k).2) h

namespace CommandQueue

/-- The binary search tests the lane order. -/
theorem ordersBefore_eq (other entry : CommandQueueEntry Payload) :
    ordersBefore other entry = !decide (entry.key ≤ other.key) := by
  rw [Bool.eq_iff_iff]
  simp only [ordersBefore, Bool.or_eq_true, Bool.and_eq_true, decide_eq_true_eq,
    Bool.not_eq_true', decide_eq_false_iff_not, not_le, key_lt_iff]

/-! ### The invariant of the arrays -/

/-- The arrays of a well-formed queue. -/
structure Valid (q : CommandQueue Payload) : Prop where
  lane_priority : ∀ priority, ∀ entry ∈ q.lanes priority, entry.command.priority = priority
  lane_sorted : ∀ priority, (q.lanes priority).Pairwise fun a b => a.key < b.key
  fresh : ∀ entry ∈ q.queued, entry.sequence < q.nextSequence
  total : q.totalSize = q.queued.length

theorem queued_eq (q : CommandQueue Payload) :
    q.queued = q.lanes .system ++ q.lanes .player ++ q.lanes .automation := by
  simp [queued, commandPriorityOrder]

variable {q : CommandQueue Payload}

variable {entry : CommandQueueEntry Payload}

theorem mem_queued :
    entry ∈ q.queued ↔ ∃ priority, entry ∈ q.lanes priority := by
  simp only [queued, mem_flatMap]
  exact ⟨fun ⟨p, _, h⟩ => ⟨p, h⟩, fun ⟨p, h⟩ => ⟨p, mem_commandPriorityOrder p, h⟩⟩

@[simp]
theorem setLane_lanes (q : CommandQueue Payload) (priority : CommandPriority)
    (lane : List (CommandQueueEntry Payload)) :
    (q.setLane priority lane).lanes = update q.lanes priority lane := rfl

@[simp]
theorem setLane_nextSequence (q : CommandQueue Payload) (priority : CommandPriority)
    (lane : List (CommandQueueEntry Payload)) :
    (q.setLane priority lane).nextSequence = q.nextSequence := rfl

@[simp]
theorem setLane_totalSize (q : CommandQueue Payload) (priority : CommandPriority)
    (lane : List (CommandQueueEntry Payload)) :
    (q.setLane priority lane).totalSize = q.totalSize := rfl

theorem queued_perm_of_lane {r : CommandQueue Payload} (priority : CommandPriority)
    (added lane : List (CommandQueueEntry Payload))
    (hr : r.lanes = update q.lanes priority lane)
    (hlane : lane.Perm (added ++ q.lanes priority)) :
    r.queued.Perm (added ++ q.queued) := by
  have hswap : ∀ l₁ l₂ : List (CommandQueueEntry Payload),
      (l₁ ++ (added ++ l₂)).Perm (added ++ (l₁ ++ l₂)) := fun l₁ l₂ => by
    simpa using perm_append_comm_assoc l₁ added l₂
  rw [queued_eq, queued_eq, hr]
  cases priority with
  | system => simpa using hlane.append_right (q.lanes .player ++ q.lanes .automation)
  | player =>
    have h := (hlane.append_left (q.lanes .system)).append_right (q.lanes .automation)
    simpa using h.trans ((hswap _ _).append_right _)
  | automation =>
    have h := hlane.append_left (q.lanes .system ++ q.lanes .player)
    simpa using h.trans (hswap _ _)

theorem Valid.ordered (hq : q.Valid) :
    q.queued.Pairwise DeliversBefore := by
  have hlane : ∀ priority, (q.lanes priority).Pairwise DeliversBefore := fun priority =>
    (hq.lane_sorted priority).imp_of_mem fun {a b} ha hb hab =>
      .inr ⟨(hq.lane_priority _ a ha).trans (hq.lane_priority _ b hb).symm, key_lt_iff.mp hab⟩
  have hacross : ∀ p p' : CommandPriority, p.toNat < p'.toNat →
      ∀ a ∈ q.lanes p, ∀ b ∈ q.lanes p', DeliversBefore a b := by
    intro p p' hpp a ha b hb
    refine .inl ?_
    rw [hq.lane_priority _ a ha, hq.lane_priority _ b hb]
    exact hpp
  rw [queued_eq]
  refine pairwise_append.mpr ⟨pairwise_append.mpr ⟨hlane _, hlane _, ?_⟩, hlane _, ?_⟩
  · exact hacross _ _ (by decide)
  · intro a ha b hb
    rcases mem_append.mp ha with ha | ha
    · exact hacross _ _ (by decide) a ha b hb
    · exact hacross _ _ (by decide) a ha b hb

theorem valid_empty (maxSize : ℚ) (hpos : 0 < maxSize) :
    (empty maxSize hpos : CommandQueue Payload).Valid where
  lane_priority := by simp [empty]
  lane_sorted := by simp [empty]
  fresh := by simp [mem_queued, empty]
  total := by simp [queued_eq, empty]

/-! ### Insertion -/

/-- The queue's entry for a newly accepted snapshot. -/
def newEntry (q : CommandQueue Payload) (command : Command Payload) :
    CommandQueueEntry Payload :=
  { command, sequence := q.nextSequence }

theorem insert_lanes (hq : q.Valid) (command : Command Payload) :
    (q.insert command).lanes = update q.lanes command.priority
      ((q.lanes command.priority).orderedInsert (fun a b => a.key ≤ b.key)
        (q.newEntry command)) := by
  have hsorted : (q.lanes command.priority).Pairwise fun a b => a.key ≤ b.key :=
    (hq.lane_sorted _).imp fun hab => hab.le
  have : IsTrans (CommandQueueEntry Payload) fun a b => a.key ≤ b.key :=
    ⟨fun _ _ _ hab hbc => le_trans hab hbc⟩
  have hsplice := Bisect.bisectInsert_eq_orderedInsert (a := q.newEntry command) hsorted
  simp only [insert, setLane_lanes, ordersBefore_eq]
  exact congrArg _ hsplice

variable {lane : List (CommandQueueEntry Payload)}

/-- A new key keeps a strictly sorted lane strictly sorted. -/
private theorem sorted_orderedInsert (hlane : lane.Pairwise fun a b => a.key < b.key)
    (hnew : ∀ other ∈ lane, entry.key ≠ other.key) :
    (lane.orderedInsert (fun a b => a.key ≤ b.key) entry).Pairwise fun a b => a.key < b.key := by
  have : IsTrans (CommandQueueEntry Payload) fun a b => a.key ≤ b.key :=
    ⟨fun _ _ _ hab hbc => le_trans hab hbc⟩
  have : Std.Total fun a b : CommandQueueEntry Payload => a.key ≤ b.key :=
    ⟨fun a b => le_total a.key b.key⟩
  have hle := (hlane.imp fun hab => hab.le).orderedInsert entry lane
  have hne : (entry :: lane).Pairwise fun a b => a.key ≠ b.key :=
    pairwise_cons.mpr ⟨hnew, hlane.imp fun hab => hab.ne⟩
  have hne' := ((perm_orderedInsert (fun a b => a.key ≤ b.key) entry lane).symm.pairwise_iff
    fun {a b} h => h.symm).mp hne
  exact (hle.and hne').imp fun hab => lt_of_le_of_ne hab.1 hab.2

theorem insert_queued (hq : q.Valid) (command : Command Payload) :
    (q.insert command).queued.Perm (q.newEntry command :: q.queued) :=
  queued_perm_of_lane _ [q.newEntry command] _ (insert_lanes hq command)
    (perm_orderedInsert _ _ _)

theorem Valid.insert (hq : q.Valid) (command : Command Payload) :
    (q.insert command).Valid where
  lane_priority := by
    intro priority entry hmem
    rw [insert_lanes hq] at hmem
    by_cases hp : priority = command.priority
    · subst hp
      rw [update_self, mem_orderedInsert] at hmem
      rcases hmem with rfl | hmem
      · rfl
      · exact hq.lane_priority _ _ hmem
    · rw [update_of_ne hp] at hmem
      exact hq.lane_priority _ _ hmem
  lane_sorted := by
    intro priority
    rw [insert_lanes hq]
    by_cases hp : priority = command.priority
    · subst hp
      rw [update_self]
      refine sorted_orderedInsert (hq.lane_sorted _) fun other hmem hkey => ?_
      have hfresh := hq.fresh other (mem_queued.mpr ⟨_, hmem⟩)
      have hsequence : q.nextSequence = other.sequence := sequence_eq_of_key_eq hkey
      omega
    · rw [update_of_ne hp]
      exact hq.lane_sorted _
  fresh := by
    intro entry hmem
    rcases mem_cons.mp ((insert_queued hq command).mem_iff.mp hmem) with rfl | hmem
    · exact Nat.lt_succ_self _
    · exact Nat.lt_succ_of_lt (hq.fresh _ hmem)
  total := by
    have hlen := (insert_queued hq command).length_eq
    rw [hlen]
    simp [CommandQueue.insert, hq.total]

/-! ### Making room -/

/-- What a search for a victim can do: nothing, or take the first entry of one lane. -/
theorem dropFrom_cases (q : CommandQueue Payload) (maxPriority : CommandPriority)
    (priorities : List CommandPriority) :
    q.dropFrom maxPriority priorities = (none, q) ∨
      ∃ priority dropped lane, q.lanes priority = dropped :: lane ∧
        ¬priority.toNat < maxPriority.toNat ∧
        q.dropFrom maxPriority priorities =
          (some dropped, { q.setLane priority lane with totalSize := q.totalSize - 1 }) := by
  induction priorities with
  | nil => exact .inl rfl
  | cons priority rest ih =>
    rw [dropFrom]
    by_cases hp : priority.toNat < maxPriority.toNat
    · rw [if_pos hp]
      exact ih
    · rw [if_neg hp]
      cases hlane : q.lanes priority with
      | nil => exact ih
      | cons dropped lane => exact .inr ⟨priority, dropped, lane, hlane, hp, rfl⟩

variable {priority : CommandPriority}

/-- Taking the first entry of a lane keeps the arrays well formed. -/
theorem Valid.drop (hq : q.Valid) {dropped : CommandQueueEntry Payload}
    (hlane : q.lanes priority = dropped :: lane) :
    let r : CommandQueue Payload :=
      { q.setLane priority lane with totalSize := q.totalSize - 1 }
    r.Valid ∧ q.queued.Perm (dropped :: r.queued) := by
  intro r
  have hperm : q.queued.Perm (dropped :: r.queued) := by
    refine queued_perm_of_lane priority [dropped] (dropped :: lane) ?_ (by simp [r])
    rw [← hlane]
    simp [r]
  have hsub : ∀ p, (r.lanes p).Sublist (q.lanes p) := by
    intro p
    by_cases hp : p = priority
    · subst hp
      simp [r, hlane]
    · simp [r, update_of_ne hp]
  refine ⟨⟨fun p entry hmem => hq.lane_priority p entry ((hsub p).subset hmem),
    fun p => (hq.lane_sorted p).sublist (hsub p), fun entry hmem => ?_, ?_⟩, hperm⟩
  · exact hq.fresh entry (hperm.symm.subset (mem_cons_of_mem _ hmem))
  · have hlen := hperm.length_eq
    rw [length_cons] at hlen
    change q.totalSize - 1 = _
    rw [hq.total, hlen]
    push_cast
    ring

/-- The entries `makeRoom` throws away. -/
def dropped : Option (CommandQueueEntry Payload) × CommandQueue Payload →
    List (CommandQueueEntry Payload)
  | (none, _) => []
  | (some entry, _) => [entry]

theorem Valid.makeRoom (hq : q.Valid)
    {out : Option (CommandQueueEntry Payload) × CommandQueue Payload}
    (hout : q.makeRoom priority = some out) :
    out.2.Valid ∧ out.2.nextSequence = q.nextSequence ∧
      q.queued.Perm (dropped out ++ out.2.queued) := by
  rw [CommandQueue.makeRoom] at hout
  split at hout
  · rcases dropFrom_cases q priority commandPriorityOrder.reverse with
      hnone | ⟨p, victim, lane, hlane, -, hsome⟩
    · simp [dropLowestPriorityUpTo, hnone] at hout
    · simp only [dropLowestPriorityUpTo, hsome, Option.some.injEq] at hout
      subst hout
      obtain ⟨hvalid, hperm⟩ := hq.drop hlane
      exact ⟨hvalid, rfl, by simpa [dropped] using hperm⟩
  · obtain rfl := Option.some.inj hout
    exact ⟨hq, rfl, by simp [dropped]⟩

/-! ### Dequeues -/

/-- An entry that a dequeue up to `step` returns. -/
def due (step : JsNumber) (entry : CommandQueueEntry Payload) : Bool :=
  entry.command.step.le step

theorem queued_eq_nil_of_totalSize (hq : q.Valid) (hzero : q.totalSize = 0) : q.queued = [] := by
  have htotal := hq.total
  rw [hzero] at htotal
  exact length_eq_zero_iff.mp (by exact_mod_cast htotal.symm)

/-- The drain loop splits each lane it visits; a lane is visited once. -/
theorem drainLanes_eq (step : JsNumber) :
    ∀ (priorities : List CommandPriority) (drained : List (Command Payload)) (count : ℕ)
      (r : CommandQueue Payload), priorities.Nodup →
      drainLanes step priorities (drained, count, r) =
        (drained ++ ((priorities.flatMap r.lanes).filter (due step)).map (·.command),
          count + ((priorities.flatMap r.lanes).filter (due step)).length,
          { r with
            lanes := fun priority =>
              if priority ∈ priorities then (r.lanes priority).filter fun entry => !due step entry
              else r.lanes priority }) := by
  intro priorities
  induction priorities with
  | nil =>
    intro drained count r _
    simp [drainLanes]
  | cons priority rest ih =>
    intro drained count r hnodup
    obtain ⟨hnotMem, hrest⟩ := nodup_cons.mp hnodup
    -- the lanes still to be visited are the original ones
    have hlater : ∀ lane, rest.flatMap (update r.lanes priority lane) =
        rest.flatMap r.lanes := fun lane =>
      flatMap_congr fun p hp => 
        update_of_ne (by rintro rfl; exact hnotMem hp) _ _
    rw [drainLanes, Compact.compact_eq]
    simp only
    rw [ih _ _ _ hrest]
    simp only [setLane_lanes, hlater, flatMap_cons, filter_append, map_append,
      length_append, append_assoc, Nat.add_assoc]
    refine congrArg _ (congrArg _ ?_)
    simp only [setLane, CommandQueue.mk.injEq, and_true]
    funext p
    by_cases hp : p = priority
    · subst hp
      simp [hnotMem, due]
    · simp [hp]

theorem dequeueUpToStep_spec (hq : q.Valid) (step : JsNumber) :
    (q.dequeueUpToStep step).1 = (q.queued.filter (due step)).map (·.command) ∧
      (q.dequeueUpToStep step).2 =
        { q with
          lanes := fun priority => (q.lanes priority).filter fun entry => !due step entry
          totalSize := q.totalSize - (q.queued.filter (due step)).length } := by
  rw [dequeueUpToStep]
  split
  · next hzero =>
    have hnil := queued_eq_nil_of_totalSize hq hzero
    have hlanes : ∀ priority, q.lanes priority = [] := fun priority =>
      eq_nil_iff_forall_not_mem.mpr fun entry hmem => by
        simpa [hnil] using mem_queued.mpr ⟨priority, hmem⟩
    refine ⟨by simp [hnil], ?_⟩
    simp only [hnil, filter_nil, length_nil, Nat.cast_zero, sub_zero, hlanes]
    rw [← funext hlanes]
  · have hloop := drainLanes_eq step commandPriorityOrder [] 0 q (by decide)
    simp only [nil_append, Nat.zero_add, mem_commandPriorityOrder, if_true] at hloop
    rw [hloop]
    exact ⟨rfl, rfl⟩

theorem dequeueUpToStep_queued (hq : q.Valid) (step : JsNumber) :
    (q.dequeueUpToStep step).2.queued = q.queued.filter fun entry => !due step entry := by
  rw [(dequeueUpToStep_spec hq step).2]
  simp [queued_eq]

theorem Valid.dequeueUpToStep (hq : q.Valid) (step : JsNumber) :
    (q.dequeueUpToStep step).2.Valid where
  lane_priority := by
    rw [(dequeueUpToStep_spec hq step).2]
    exact fun p entry hmem => hq.lane_priority p entry (mem_of_mem_filter hmem)
  lane_sorted := by
    rw [(dequeueUpToStep_spec hq step).2]
    exact fun p => (hq.lane_sorted p).filter _
  fresh := by
    rw [dequeueUpToStep_queued hq, (dequeueUpToStep_spec hq step).2]
    exact fun entry hmem => hq.fresh entry (mem_of_mem_filter hmem)
  total := by
    have hsplit := length_eq_length_filter_add (l := q.queued) (due step)
    rw [dequeueUpToStep_queued hq, (dequeueUpToStep_spec hq step).2]
    simp only [hq.total, hsplit]
    push_cast
    ring

/-! ### Clearing -/

theorem clear_eq (hsize : q.totalSize ≠ 0) :
    q.clear = { q with lanes := fun _ => [], totalSize := 0 } := by
  rw [clear, if_neg hsize]
  simp only [commandPriorityOrder, foldl_cons, foldl_nil, setLane,
    CommandQueue.mk.injEq, and_true]
  funext priority
  cases priority <;> simp

theorem Valid.clear (hq : q.Valid) :
    q.clear.Valid ∧ q.clear.queued = [] ∧ q.clear.nextSequence = q.nextSequence := by
  by_cases hsize : q.totalSize = 0
  · have hclear : q.clear = q := by rw [CommandQueue.clear, if_pos hsize]
    rw [hclear]
    exact ⟨hq, queued_eq_nil_of_totalSize hq hsize, rfl⟩
  · rw [clear_eq hsize]
    refine ⟨⟨by simp, by simp, ?_, ?_⟩, ?_, rfl⟩
    · simp [mem_queued]
    · simp [queued_eq]
    · simp [queued_eq]

end CommandQueue

/-! ### Runs of calls -/

/-- A call to the queue. -/
inductive QueueCall (Payload : Type*)
  | enqueue (command : Command Payload)
  | dequeueAll
  | dequeueUpToStep (step : JsNumber)
  | clear

/-- The ledger of a queue: what it accepted, in order of acceptance, what dequeues returned,
and what was thrown away to make room or by `clear`. -/
structure QueueLedger (Payload : Type*) where
  queue : CommandQueue Payload
  accepted : List (Command Payload)
  returned : List (Command Payload)
  discarded : List (Command Payload)

namespace QueueLedger

open CommandQueue

/-- The snapshot an `enqueue` accepts, if it accepts. -/
def snapshot (cloneStructured : Payload → Except String Payload) (q : CommandQueue Payload)
    (command : Command Payload) : List (Command Payload) :=
  match (q.enqueue cloneStructured command).1, cloneStructured command.payload with
  | .ok true, .ok payload => [{ command with payload }]
  | _, _ => []

/-- The command an `enqueue` throws away to make room. -/
def victim (q : CommandQueue Payload) (command : Command Payload) : List (Command Payload) :=
  if authorizeCommand command = false then []
  else
    match q.makeRoom command.priority with
    | none => []
    | some out => (dropped out).map (·.command)

/-- One call, with its effect on the ledger read off the queue. -/
def call (cloneStructured : Payload → Except String Payload) (ledger : QueueLedger Payload) :
    QueueCall Payload → QueueLedger Payload
  | .enqueue command =>
      { ledger with
        queue := (ledger.queue.enqueue cloneStructured command).2
        accepted := ledger.accepted ++ snapshot cloneStructured ledger.queue command
        discarded := ledger.discarded ++ victim ledger.queue command }
  | .dequeueAll =>
      { ledger with
        queue := ledger.queue.dequeueAll.2
        returned := ledger.returned ++ ledger.queue.dequeueAll.1 }
  | .dequeueUpToStep step =>
      { ledger with
        queue := (ledger.queue.dequeueUpToStep step).2
        returned := ledger.returned ++ (ledger.queue.dequeueUpToStep step).1 }
  | .clear =>
      { ledger with
        queue := ledger.queue.clear
        discarded := ledger.discarded ++ ledger.queue.queued.map (·.command) }

/-- The ledger of a fresh queue. -/
def fresh (maxSize : ℚ) (hpos : 0 < maxSize) : QueueLedger Payload :=
  { queue := empty maxSize hpos, accepted := [], returned := [], discarded := [] }

/-- The ledger after a run of calls on a fresh queue. -/
def run (cloneStructured : Payload → Except String Payload) (maxSize : ℚ) (hpos : 0 < maxSize)
    (calls : List (QueueCall Payload)) : QueueLedger Payload :=
  calls.foldl (call cloneStructured) (fresh maxSize hpos)

/-- The invariant of a run: well-formed arrays, sequence numbers that are tickets into the
accepted commands, and nothing lost or duplicated. -/
structure Balanced (ledger : QueueLedger Payload) : Prop where
  valid : ledger.queue.Valid
  nextSequence : ledger.queue.nextSequence = ledger.accepted.length
  ticket : ∀ entry ∈ ledger.queue.queued, ledger.accepted[entry.sequence]? = some entry.command
  conserved : (ledger.returned ++ ledger.discarded ++
    ledger.queue.queued.map (·.command)).Perm ledger.accepted

theorem balanced_fresh (maxSize : ℚ) (hpos : 0 < maxSize) :
    (fresh maxSize hpos : QueueLedger Payload).Balanced where
  valid := valid_empty maxSize hpos
  nextSequence := rfl
  ticket := by simp [fresh, empty, mem_queued]
  conserved := by simp [fresh, empty, queued_eq]

/-- What an `enqueue` can do: refuse and change nothing, fail in the clone after room was
made, or accept the snapshot. -/
theorem enqueue_cases (cloneStructured : Payload → Except String Payload)
    (q : CommandQueue Payload) (command : Command Payload) :
    ((q.enqueue cloneStructured command).2 = q ∧ snapshot cloneStructured q command = [] ∧
        victim q command = []) ∨
      ∃ out, q.makeRoom command.priority = some out ∧
        victim q command = (dropped out).map (·.command) ∧
        ((q.enqueue cloneStructured command).2 = out.2 ∧
            snapshot cloneStructured q command = [] ∨
          ∃ accepted : Command Payload,
            (q.enqueue cloneStructured command).2 = out.2.insert accepted ∧
            snapshot cloneStructured q command = [accepted]) := by
  by_cases hauth : authorizeCommand command = false
  · exact .inl (by simp [snapshot, victim, enqueue, hauth])
  · cases hroom : q.makeRoom command.priority with
    | none => exact .inl (by simp [snapshot, victim, enqueue, hauth, hroom])
    | some out =>
      refine .inr ⟨out, rfl, by simp [victim, hauth, hroom], ?_⟩
      cases hclone : cloneStructured command.payload with
      | error message => exact .inl (by simp [snapshot, enqueue, hauth, hroom, hclone])
      | ok payload =>
        exact .inr ⟨{ command with payload }, by simp [snapshot, enqueue, hauth, hroom, hclone]⟩

variable {ledger : QueueLedger Payload}

/-- Throwing queued commands away keeps the balance. -/
theorem Balanced.discard (h : ledger.Balanced) {r : CommandQueue Payload}
    {gone : List (CommandQueueEntry Payload)} (hr : r.Valid)
    (hnext : r.nextSequence = ledger.queue.nextSequence)
    (hperm : ledger.queue.queued.Perm (gone ++ r.queued)) :
    Balanced { ledger with
      queue := r, discarded := ledger.discarded ++ gone.map (·.command) } where
  valid := hr
  nextSequence := hnext.trans h.nextSequence
  ticket := fun entry hmem =>
    h.ticket entry (hperm.symm.subset (mem_append_right _ hmem))
  conserved := by
    refine .trans ?_ h.conserved
    simp only [append_assoc]
    refine .append_left _ (.append_left _ ?_)
    simpa using (hperm.map (·.command)).symm

theorem Balanced.accept (h : ledger.Balanced) (command : Command Payload) :
    Balanced { ledger with
      queue := ledger.queue.insert command, accepted := ledger.accepted ++ [command] } where
  valid := h.valid.insert command
  nextSequence := by simp [CommandQueue.insert, h.nextSequence]
  ticket := by
    intro entry hmem
    rcases mem_cons.mp ((insert_queued h.valid command).mem_iff.mp hmem) with rfl | hmem
    · simp [newEntry, h.nextSequence]
    · have hticket := h.ticket entry hmem
      obtain ⟨hlt, -⟩ := List.getElem?_eq_some_iff.mp hticket
      rw [getElem?_append_left hlt, hticket]
  conserved := by
    have hnew := (insert_queued h.valid command).map (·.command)
    have hmove := (hnew.append_left (ledger.returned ++ ledger.discarded)).trans
      perm_middle
    refine hmove.trans ((h.conserved.cons command).trans ?_)
    exact (perm_append_singleton _ _).symm

theorem Balanced.dequeueUpToStep (h : ledger.Balanced) (step : JsNumber) :
    Balanced { ledger with
      queue := (ledger.queue.dequeueUpToStep step).2
      returned := ledger.returned ++ (ledger.queue.dequeueUpToStep step).1 } where
  valid := h.valid.dequeueUpToStep step
  nextSequence := by
    rw [(dequeueUpToStep_spec h.valid step).2]
    exact h.nextSequence
  ticket := by
    rw [dequeueUpToStep_queued h.valid]
    exact fun entry hmem => h.ticket entry (mem_of_mem_filter hmem)
  conserved := by
    have hsplit := (filter_append_perm (due step) ledger.queue.queued).map (·.command)
    rw [dequeueUpToStep_queued h.valid, (dequeueUpToStep_spec h.valid step).1]
    refine .trans ?_ h.conserved
    simp only [append_assoc]
    refine .append_left _ ?_
    rw [map_append] at hsplit
    exact (perm_append_comm_assoc _ _ _).trans (hsplit.append_left _)

/-- **Step lemma.** Every call keeps the ledger balanced. -/
theorem Balanced.call (h : ledger.Balanced) (cloneStructured : Payload → Except String Payload)
    (c : QueueCall Payload) :
    (ledger.call cloneStructured c).Balanced := by
  cases c with
  | enqueue command =>
    rcases enqueue_cases cloneStructured ledger.queue command with
      ⟨hqueue, hsnap, hvictim⟩ | ⟨out, hroom, hvictim, hrest⟩
    · simpa only [QueueLedger.call, hqueue, hsnap, hvictim, append_nil] using h
    · obtain ⟨hvalid, hnext, hperm⟩ := h.valid.makeRoom hroom
      have hroomy := h.discard hvalid hnext hperm
      rcases hrest with ⟨hqueue, hsnap⟩ | ⟨accepted, hqueue, hsnap⟩
      · simpa only [QueueLedger.call, hqueue, hsnap, hvictim, append_nil] using hroomy
      · simpa only [QueueLedger.call, hqueue, hsnap, hvictim] using hroomy.accept accepted
  | dequeueAll => exact h.dequeueUpToStep .posInf
  | dequeueUpToStep step => exact h.dequeueUpToStep step
  | clear =>
    obtain ⟨hvalid, hqueued, hnext⟩ := h.valid.clear
    exact h.discard hvalid hnext (by simp [hqueued])

/-- **Run lemma.** Every run of calls on a fresh queue keeps the ledger balanced. -/
theorem balanced_run (cloneStructured : Payload → Except String Payload) (maxSize : ℚ)
    (hpos : 0 < maxSize) (calls : List (QueueCall Payload)) :
    (run cloneStructured maxSize hpos calls).Balanced :=
  foldlRecOn calls (QueueLedger.call cloneStructured) (balanced_fresh maxSize hpos)
    fun _ h c _ => h.call cloneStructured c

/-! ### The delivery contract -/

/-- What the queue promises in one state of a run. -/
structure Delivers (ledger : QueueLedger Payload) : Prop where
  /-- a queued entry's sequence number is its place among the accepted commands -/
  ticket : ∀ entry ∈ ledger.queue.queued, ledger.accepted[entry.sequence]? = some entry.command
  /-- every accepted command was returned, was thrown away or is queued, exactly one of them -/
  conserved : (ledger.returned ++ ledger.discarded ++
    ledger.queue.queued.map (·.command)).Perm ledger.accepted
  /-- every accepted command was returned at most once -/
  atMostOnce : ledger.returned.Subperm ledger.accepted
  /-- the queue stands in delivery order: priority lane, timestamp, enqueue order -/
  ordered : ledger.queue.queued.Pairwise DeliversBefore
  /-- a dequeue returns exactly the queued commands that are due, in that order -/
  returns : ∀ step, (ledger.queue.dequeueUpToStep step).1 =
    (ledger.queue.queued.filter (due step)).map (·.command)
  /-- and leaves exactly the others -/
  leaves : ∀ step, (ledger.queue.dequeueUpToStep step).2.queued =
    ledger.queue.queued.filter fun entry => !due step entry
  /-- the size is the number of queued commands -/
  size_eq : ledger.queue.size = ledger.queue.queued.length

/-- **Delivery.** After any run of calls on a fresh queue, the queue keeps its promises. -/
theorem delivers_run (cloneStructured : Payload → Except String Payload) (maxSize : ℚ)
    (hpos : 0 < maxSize) (calls : List (QueueCall Payload)) :
    (run cloneStructured maxSize hpos calls).Delivers := by
  have h := balanced_run cloneStructured maxSize hpos calls
  refine ⟨h.ticket, h.conserved, ?_, h.valid.ordered,
    fun step => (dequeueUpToStep_spec h.valid step).1,
    fun step => dequeueUpToStep_queued h.valid step, h.valid.total⟩
  have hsub : (run cloneStructured maxSize hpos calls).returned.Sublist
      ((run cloneStructured maxSize hpos calls).returned ++
        ((run cloneStructured maxSize hpos calls).discarded ++
          (run cloneStructured maxSize hpos calls).queue.queued.map (·.command))) :=
    List.sublist_append_left _ _
  rw [← List.append_assoc] at hsub
  exact hsub.subperm.trans h.conserved.subperm

/-- A full queue drops the automation command for the player's, and returns the rest in
timestamp order. -/
theorem delivers_run_overflow :
    let command := fun (type : String) (priority : CommandPriority) (timestamp : ℚ) =>
      ({ type, priority, payload := (), timestamp := ((timestamp : WithTop ℚ) : Timestamp),
         step := .fin 0, requestId := none } : Command Unit)
    let ledger := run .ok 2 (by decide) [.enqueue (command "a" .automation 1),
      .enqueue (command "b" .player 7), .enqueue (command "c" .player 5), .dequeueUpToStep (.fin 0)]
    ledger.Delivers ∧ ledger.returned.map (·.type) = ["c", "b"] ∧
      ledger.discarded.map (·.type) = ["a"] :=
  ⟨delivers_run .ok 2 (by decide) _, by decide +kernel, by decide +kernel⟩

end QueueLedger

end IdleEngine
