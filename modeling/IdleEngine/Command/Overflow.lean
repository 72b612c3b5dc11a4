import IdleEngine.Command.Alike

/-!
# Overflow

What a full queue does with one more command. It gives up the first entry of the lowest lane that
holds one, unless every lane that holds one outranks the newcomer; then it rejects the newcomer and
stays as it is (`enqueue_full`). The arrays are those of a run, so the first entry of a lane is the
one that would be delivered first.

Room is made before the newcomer is cloned. An `enqueue` that throws has therefore lost an entry
exactly when it made room (`enqueue_atomic_iff`).
-/

namespace IdleEngine

open List

variable {Payload : Type*}

namespace CommandQueue

variable (cloneStructured : Payload → Except String Payload) (q : CommandQueue Payload)
  (command : Command Payload)

/-- A lane from which an entry may be dropped for a command holds one. -/
def Droppable (priority : CommandPriority) : Prop :=
  ∃ p : CommandPriority, priority.toNat ≤ p.toNat ∧ q.lanes p ≠ []

/-- The command would be rejected by its clone only after room was made for it. -/
def LosesEntry : Prop :=
  authorizeCommand command = true ∧ q.maxSize ≤ (q.totalSize : ℚ) ∧
    q.Droppable command.priority ∧ ∃ message, cloneStructured command.payload = .error message

/-- An `enqueue` that throws or returns false leaves contents, order and size as they are. -/
def AtomicEnqueue : Prop :=
  (q.enqueue cloneStructured command).1 ≠ .ok true →
    (q.enqueue cloneStructured command).2.lanes = q.lanes ∧
      (q.enqueue cloneStructured command).2.size = q.size

/-! ### The search for a victim -/

variable {q} {command}

theorem mem_reverse_commandPriorityOrder (p : CommandPriority) :
    p ∈ commandPriorityOrder.reverse :=
  mem_reverse.mpr (mem_commandPriorityOrder p)

/-- The search passes over the lanes before the victim's: each outranks the newcomer or is
empty. -/
theorem dropFrom_spec (maxPriority : CommandPriority) (priorities : List CommandPriority) :
    ((∀ p ∈ priorities, maxPriority.toNat ≤ p.toNat → q.lanes p = []) ∧
        q.dropFrom maxPriority priorities = (none, q)) ∨
      ∃ before p after victim lane, priorities = before ++ p :: after ∧
        (∀ p' ∈ before, maxPriority.toNat ≤ p'.toNat → q.lanes p' = []) ∧
        maxPriority.toNat ≤ p.toNat ∧ q.lanes p = victim :: lane ∧
        q.dropFrom maxPriority priorities =
          (some victim, { q.setLane p lane with totalSize := q.totalSize - 1 }) := by
  induction priorities with
  | nil => exact .inl ⟨fun _ h => absurd h not_mem_nil, rfl⟩
  | cons p rest ih =>
    have hpass : (maxPriority.toNat ≤ p.toNat → q.lanes p = []) →
        q.dropFrom maxPriority (p :: rest) = q.dropFrom maxPriority rest := by
      intro hempty
      rw [dropFrom]
      split
      · rfl
      · next hp => rw [hempty (not_lt.mp hp)]
    by_cases hempty : maxPriority.toNat ≤ p.toNat → q.lanes p = []
    · rw [hpass hempty]
      rcases ih with ⟨hall, hrun⟩ | ⟨before, p', after, victim, lane, rfl, hbefore, hp', hlane, hrun⟩
      · exact .inl ⟨forall_mem_cons.mpr ⟨hempty, hall⟩, hrun⟩
      · exact .inr ⟨p :: before, p', after, victim, lane, rfl,
          forall_mem_cons.mpr ⟨hempty, hbefore⟩, hp', hlane, hrun⟩
    · obtain ⟨hp, hlane⟩ := Classical.not_imp.mp hempty
      obtain ⟨victim, lane, hlane⟩ := exists_cons_of_ne_nil hlane
      refine .inr ⟨[], p, rest, victim, lane, rfl, fun _ h => absurd h not_mem_nil, hp, hlane, ?_⟩
      rw [dropFrom, if_neg (not_lt.mpr hp), hlane]

/-- The lanes before one in the search are those below it. -/
theorem mem_before_of_lt {before after : List CommandPriority} {p p' : CommandPriority}
    (h : commandPriorityOrder.reverse = before ++ p :: after) (hlt : p.toNat < p'.toNat) :
    p' ∈ before := by
  have hmem : p' ∈ before ++ p :: after := h ▸ mem_reverse_commandPriorityOrder p'
  have hsorted : (before ++ p :: after).Pairwise fun a b => b.toNat < a.toNat :=
    h ▸ pairwise_reverse.mpr commandPriorityOrder_sorted
  rcases mem_append.mp hmem with hbefore | hafter
  · exact hbefore
  · rcases mem_cons.mp hafter with rfl | hafter
    · exact absurd hlt (lt_irrefl _)
    · have hbelow := rel_of_pairwise_cons (pairwise_append.mp hsorted).2.1 hafter
      omega

variable (q) in
/-- The entry that has to go: the first of the lowest lane that holds one. -/
structure Victim (maxPriority : CommandPriority) (p : CommandPriority)
    (victim : CommandQueueEntry Payload) (lane : List (CommandQueueEntry Payload)) : Prop where
  lane : q.lanes p = victim :: lane
  lowest : ∀ p' : CommandPriority, p.toNat < p'.toNat → q.lanes p' = []
  not_higher : maxPriority.toNat ≤ p.toNat

/-- **The search** finds the victim, or nothing when no lane may be touched. -/
theorem dropLowestPriorityUpTo_spec (maxPriority : CommandPriority) :
    (¬q.Droppable maxPriority ∧ q.dropLowestPriorityUpTo maxPriority = (none, q)) ∨
      ∃ p victim lane, q.Victim maxPriority p victim lane ∧
        q.dropLowestPriorityUpTo maxPriority =
          (some victim, { q.setLane p lane with totalSize := q.totalSize - 1 }) := by
  rcases q.dropFrom_spec maxPriority commandPriorityOrder.reverse with
    ⟨hall, hrun⟩ | ⟨before, p, after, victim, lane, hsplit, hbefore, hp, hlane, hrun⟩
  · refine .inl ⟨?_, hrun⟩
    rintro ⟨p, hp, hne⟩
    exact hne (hall p (mem_reverse_commandPriorityOrder p) hp)
  · refine .inr ⟨p, victim, lane, ⟨hlane, fun p' hlt => ?_, hp⟩, hrun⟩
    exact hbefore p' (mem_before_of_lt hsplit hlt) (hp.trans hlt.le)

theorem Victim.droppable {maxPriority p : CommandPriority} {victim : CommandQueueEntry Payload}
    {lane : List (CommandQueueEntry Payload)} (h : q.Victim maxPriority p victim lane) :
    q.Droppable maxPriority :=
  ⟨p, h.not_higher, by rw [h.lane]; exact cons_ne_nil _ _⟩

/-! ### Atomicity -/

/-- **When `enqueue` is atomic.** An `enqueue` that throws or returns false leaves the queue as it
is unless the clone of an authorized command fails after room was made for it. -/
theorem enqueue_atomic_iff (cloneStructured : Payload → Except String Payload)
    (q : CommandQueue Payload) (command : Command Payload) :
    q.AtomicEnqueue cloneStructured command ↔ ¬q.LosesEntry cloneStructured command := by
  rw [AtomicEnqueue, LosesEntry, enqueue]
  by_cases hauth : authorizeCommand command = false
  · rw [if_pos hauth]
    simp [hauth]
  rw [if_neg hauth, makeRoom]
  have hauth' : authorizeCommand command = true := Bool.not_eq_false _ ▸ hauth
  by_cases hfull : q.maxSize ≤ (q.totalSize : ℚ)
  · rw [if_pos hfull]
    rcases q.dropLowestPriorityUpTo_spec command.priority with
      ⟨hnone, hrun⟩ | ⟨p, victim, lane, hvictim, hrun⟩
    · rw [hrun]
      exact ⟨fun _ h => hnone h.2.2.1, fun _ _ => ⟨rfl, rfl⟩⟩
    · rw [hrun]
      dsimp only
      cases hclone : cloneStructured command.payload with
      | ok payload =>
        refine ⟨fun _ h => ?_, fun _ h => absurd rfl h⟩
        obtain ⟨-, -, -, message, hmessage⟩ := h
        cases hmessage
      | error message =>
        refine ⟨fun h => absurd (h (fun herror => by cases herror)).1 ?_, fun h => ?_⟩
        · -- the victim's lane is one entry shorter
          intro hsame
          have hlane := congrFun hsame p
          rw [hvictim.lane] at hlane
          have hself : (Function.update q.lanes p lane) p = victim :: lane := hlane
          rw [Function.update_self] at hself
          exact absurd (congrArg List.length hself) (by simp)
        · exact absurd ⟨hauth', hfull, hvictim.droppable, message, rfl⟩ h
  · rw [if_neg hfull]
    dsimp only
    refine ⟨fun _ h => hfull h.2.1, fun _ hne => ?_⟩
    cases hclone : cloneStructured command.payload with
    | ok payload =>
      rw [hclone] at hne
      exact absurd rfl hne
    | error message => exact ⟨rfl, rfl⟩

/-- A clone that knows no functions. -/
def cloneText (payload : String) : Except String String :=
  if payload = "() => {}" then .error "() => {} could not be cloned." else .ok payload

/-- A command that collects a resource, with some payload. -/
def collectCommand (priority : CommandPriority) (payload : String) : Command String :=
  { type := "COLLECT_RESOURCE", priority, payload, timestamp := ((0 : ℚ) : WithTop ℚ)
    step := .fin 0, requestId := none }

theorem onePlace_pos : (0 : ℚ) < (1 : ℕ) := by norm_num

/-- A queue of one, filled by an automation. -/
def crowdedQueue : CommandQueue String :=
  (QueueLedger.run cloneText (1 : ℕ) onePlace_pos
    [.enqueue (collectCommand .automation "gold")]).queue

/-- The queued command makes room for one that is never inserted. -/
theorem crowdedQueue_loses :
    ¬crowdedQueue.AtomicEnqueue cloneText (collectCommand .player "() => {}") ∧
      crowdedQueue.size = 1 ∧
      (crowdedQueue.enqueue cloneText (collectCommand .player "() => {}")).2.size = 0 := by
  have hbefore : crowdedQueue.size = 1 := by decide +kernel
  have hafter : (crowdedQueue.enqueue cloneText (collectCommand .player "() => {}")).2.size = 0 := by
    decide +kernel
  have hrefused : ((crowdedQueue.enqueue cloneText (collectCommand .player "() => {}")).1.toOption
      = some true) = False := by
    decide +kernel
  refine ⟨fun hatomic => ?_, hbefore, hafter⟩
  have hsame := (hatomic fun hok => by rw [hok] at hrefused; exact hrefused.mp rfl).2
  rw [hbefore, hafter] at hsame
  exact absurd hsame (by decide)

/-! ### The overflow policy -/

variable (q) (command) in
/-- The victim goes, and the newcomer's snapshot takes its place. -/
def Replaces (cloneStructured : Payload → Except String Payload) (payload : Payload) : Prop :=
  ∃ p victim lane r, q.Victim command.priority p victim lane ∧ victim.command.priority = p ∧
    (∀ other ∈ lane, DeliversBefore victim other) ∧
    q.enqueue cloneStructured command = (.ok true, r) ∧ r.size = q.size ∧
    (victim :: r.queued).Perm (q.newEntry { command with payload } :: q.queued)

theorem Valid.replaces (hq : q.Valid) {payload : Payload}
    (hauth : authorizeCommand command = true) (hfull : q.maxSize ≤ (q.totalSize : ℚ))
    (hclone : cloneStructured command.payload = .ok payload)
    (hdroppable : q.Droppable command.priority) : q.Replaces command cloneStructured payload := by
  rcases q.dropLowestPriorityUpTo_spec command.priority with
    ⟨hnone, -⟩ | ⟨p, victim, lane, hvictim, hrun⟩
  · exact absurd hdroppable hnone
  obtain ⟨hvalid, hperm⟩ := hq.drop hvictim.lane
  have hmem : victim ∈ q.lanes p := by
    rw [hvictim.lane]
    exact mem_cons_self
  have hpriority := hq.lane_priority p victim hmem
  have hsorted := hq.lane_sorted p
  rw [hvictim.lane] at hsorted
  have hseq : ({ q.setLane p lane with totalSize := q.totalSize - 1 } :
      CommandQueue Payload).newEntry { command with payload } =
        q.newEntry { command with payload } := rfl
  have hsize : ({ q.setLane p lane with totalSize := q.totalSize - 1 } :
      CommandQueue Payload).totalSize = q.totalSize - 1 := rfl
  generalize ({ q.setLane p lane with totalSize := q.totalSize - 1 } : CommandQueue Payload) = r
    at hvalid hperm hrun hseq hsize
  refine ⟨p, victim, lane, r.insert { command with payload }, hvictim, hpriority,
    fun other hother => ?_, ?_, ?_, ?_⟩
  · -- the lane is sorted, so its first entry is delivered first
    have hkey := key_lt_iff.mp (rel_of_pairwise_cons hsorted hother)
    have hother' : other ∈ q.lanes p := by
      rw [hvictim.lane]
      exact mem_cons_of_mem victim hother
    exact .inr ⟨hpriority.trans (hq.lane_priority p other hother').symm, hkey⟩
  · rw [enqueue, if_neg (by simp [hauth]), CommandQueue.makeRoom,
      if_pos hfull, hrun]
    dsimp only
    rw [hclone]
  · change r.totalSize + 1 = q.totalSize
    rw [hsize, sub_add_cancel]
  · have hinserted := insert_queued hvalid { command with payload }
    rw [hseq] at hinserted
    refine (hinserted.cons victim).trans ((List.Perm.swap _ _ _).trans ?_)
    exact hperm.symm.cons _

/-- **The overflow policy.** A queue of a whole number of places never holds more commands than
that. Once it is full, an authorized command whose payload can be cloned is rejected, and nothing
changes, exactly when every queued command outranks it; otherwise it replaces the victim: the first
to be delivered of the lowest lane that holds a command, which is no higher than its own. -/
theorem enqueue_full (cloneStructured : Payload → Except String Payload) (maxSize : ℕ)
    (hpos : (0 : ℚ) < maxSize) (calls : List (QueueCall Payload)) :
    let q := (QueueLedger.run cloneStructured maxSize hpos calls).queue
    q.size ≤ maxSize ∧
      ∀ (command : Command Payload) (payload : Payload), q.size = maxSize →
        authorizeCommand command = true → cloneStructured command.payload = .ok payload →
          ((q.enqueue cloneStructured command).1 = .ok false ↔
            ∀ entry ∈ q.queued, entry.command.priority.toNat < command.priority.toNat) ∧
          (q.enqueue cloneStructured command = (.ok false, q) ∨
            q.Replaces command cloneStructured payload) := by
  intro q
  have hadmitted : q.Admitted := admitted_run cloneStructured maxSize hpos calls
  have hmax : q.maxSize = maxSize := run_maxSize cloneStructured maxSize hpos calls
  have hvalid := hadmitted.valid
  refine ⟨?_, fun command payload hsize hauth hclone => ?_⟩
  · have hbounded := hadmitted.bounded
    rw [hmax] at hbounded
    have hlt : q.totalSize < (maxSize : ℤ) + 1 := by exact_mod_cast hbounded
    exact Int.lt_add_one_iff.mp hlt
  have hfull : q.maxSize ≤ (q.totalSize : ℚ) := by
    rw [hmax]
    have hle : (maxSize : ℤ) ≤ q.totalSize := le_of_eq hsize.symm
    exact_mod_cast hle
  -- nothing can be dropped exactly when every lane up to its own is empty
  have hall : ¬q.Droppable command.priority ↔
      ∀ entry ∈ q.queued, entry.command.priority.toNat < command.priority.toNat := by
    constructor
    · intro hnone entry hentry
      obtain ⟨p, hmem⟩ := mem_queued.mp hentry
      rw [hvalid.lane_priority p entry hmem]
      by_contra hle
      exact hnone ⟨p, not_lt.mp hle, List.ne_nil_of_mem hmem⟩
    · rintro houtranked ⟨p, hp, hne⟩
      obtain ⟨entry, hmem⟩ := List.exists_mem_of_ne_nil _ hne
      have hlt := houtranked entry (mem_queued.mpr ⟨p, hmem⟩)
      rw [hvalid.lane_priority p entry hmem] at hlt
      omega
  rw [← hall]
  by_cases hdroppable : q.Droppable command.priority
  · have hreplaces := hvalid.replaces cloneStructured hauth hfull hclone hdroppable
    refine ⟨?_, .inr hreplaces⟩
    obtain ⟨-, -, -, r, -, -, -, hrun, -⟩ := hreplaces
    rw [hrun]
    exact ⟨fun h => (by cases h), fun h => absurd hdroppable h⟩
  · have hrun : q.enqueue cloneStructured command = (.ok false, q) := by
      rcases q.dropLowestPriorityUpTo_spec command.priority with ⟨-, hdrop⟩ | ⟨p, victim, lane, h, -⟩
      · rw [enqueue, if_neg (by simp [hauth]), CommandQueue.makeRoom,
          if_pos hfull, hdrop]
      · exact absurd h.droppable hdroppable
    refine ⟨?_, .inl hrun⟩
    rw [hrun]
    exact ⟨fun _ => hdroppable, fun _ => rfl⟩

/-- A full queue of one gives its automation command up for the player's. -/
theorem enqueue_full_crowded :
    crowdedQueue.size ≤ 1 ∧ crowdedQueue.Replaces (collectCommand .player "gold") cloneText "gold" := by
  have hpolicy := enqueue_full cloneText 1 onePlace_pos
    [.enqueue (collectCommand .automation "gold")]
  have hfull : crowdedQueue.size = (1 : ℕ) := by decide +kernel
  refine ⟨hpolicy.1, ?_⟩
  rcases (hpolicy.2 (collectCommand .player "gold") "gold" hfull (by decide) (by decide)).2 with
    hrejected | hreplaces
  · have haccepted : ((crowdedQueue.enqueue cloneText (collectCommand .player "gold")).1.toOption
        = some true) = True := by decide +kernel
    have hfalse : (crowdedQueue.enqueue cloneText (collectCommand .player "gold")).1 = .ok false :=
      congrArg Prod.fst hrejected
    rw [hfalse] at haccepted
    exact absurd haccepted (by decide)
  · exact hreplaces

end CommandQueue

end IdleEngine
