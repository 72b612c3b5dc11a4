import IdleEngine.Runtime.CommandAccount
import IdleEngine.Runtime.TimeConservation

/-!
# Every command is dispatched in its step

A command that is enqueued with the step that the runtime announces as the next executable one
stays queued until that step runs, and is dispatched then. `CommandLedger` is the invariant: the
steps of the queued commands lie ahead by whole steps, and every accepted command was
dispatched, was dropped to make room, or still waits. A jump of `fastForward` over queued
commands is what breaks it.
-/

namespace IdleEngine

open Traced CommandQueue QueueLedger CommandTrace List JsNumber

variable {Payload EventPayload World : Type}

/-! ### Reading a history -/

/-- The commands that a history accepted. -/
def acceptedIn (history : List (CommandEvent Payload)) : List (Command Payload) :=
  history.filterMap fun
    | .accepted command _ => some command
    | _ => none

/-- The commands that a history dropped to make room. -/
def droppedIn (history : List (CommandEvent Payload)) : List (Command Payload) :=
  history.filterMap fun
    | .dropped command => some command
    | _ => none

/-- The commands that a history dispatched. -/
def dispatchedIn (history : List (CommandEvent Payload)) : List (Command Payload) :=
  history.filterMap fun
    | .dispatched command _ => some command
    | _ => none

/-- Every accepted command was enqueued with the step the runtime announced then. -/
def Stamped (history : List (CommandEvent Payload)) : Prop :=
  ∀ command step, CommandEvent.accepted command step ∈ history → command.step = .fin step

instance (history : List (CommandEvent Payload)) : Decidable (Stamped history) :=
  decidable_of_iff
    ((history.all fun
      | .accepted command step => decide (command.step = .fin step)
      | _ => true) = true) <| by
    rw [List.all_eq_true]
    refine ⟨fun h command step hmem => of_decide_eq_true (h _ hmem), fun h event hmem => ?_⟩
    cases event with
    | accepted command step => exact decide_eq_true (h command step hmem)
    | dropped command => rfl
    | dispatched command step => rfl
    | skipped command step => rfl

theorem Stamped.of_append {history events : List (CommandEvent Payload)}
    (h : Stamped (history ++ events)) : Stamped history :=
  fun command step hmem => h command step (mem_append_left _ hmem)

/-! ### The ledger -/

/-- The ledger of the commands: every queued command is stamped with a step at least `lag` steps
ahead, and every accepted one was dispatched in its step, was dropped, is queued, or is one of
the captured commands still `pending`. -/
structure CommandLedger (lag : ℕ) (pending : List (Command Payload))
    (s : RuntimeState Payload EventPayload World) (history : List (CommandEvent Payload)) :
    Prop where
  valid : s.commandQueue.Valid
  ahead : ∃ k : ℕ, s.nextExecutableStep = s.currentStep + (lag + k : ℕ)
  queued_ahead : ∀ entry ∈ s.commandQueue.queued,
    ∃ k : ℕ, entry.command.step = .fin (s.currentStep + (lag + k : ℕ))
  pending_now : ∀ command ∈ pending, command.step = .fin s.currentStep
  never_skipped : ∀ command step, CommandEvent.skipped command step ∉ history
  on_time : ∀ command step, CommandEvent.dispatched command step ∈ history →
    command.step = .fin step
  balance : (dispatchedIn history ++ droppedIn history ++
    (s.commandQueue.queued.map (·.command) ++ pending)).Perm (acceptedIn history)

namespace CommandLedger

variable {lag : ℕ} {pending : List (Command Payload)}
  {s s' : RuntimeState Payload EventPayload World} {history : List (CommandEvent Payload)}

/-- What is neither the queue nor the step counter may change freely. -/
theorem of_eq (h : CommandLedger lag pending s history)
    (hqueue : s'.commandQueue = s.commandQueue) (hstep : s'.currentStep = s.currentStep)
    (hnext : s'.nextExecutableStep = s.nextExecutableStep) :
    CommandLedger lag pending s' history := by
  refine ⟨?_, ?_, ?_, ?_, h.never_skipped, h.on_time, ?_⟩
  · rw [hqueue]
    exact h.valid
  · rw [hstep, hnext]
    exact h.ahead
  · rw [hqueue, hstep]
    exact h.queued_ahead
  · rw [hstep]
    exact h.pending_now
  · rw [hqueue]
    exact h.balance

theorem dispatch {command : Command Payload}
    (h : CommandLedger lag (command :: pending) s history) :
    CommandLedger lag pending s (history ++ [.dispatched command s.currentStep]) where
  valid := h.valid
  ahead := h.ahead
  queued_ahead := h.queued_ahead
  pending_now := fun c hc => h.pending_now c (mem_cons_of_mem _ hc)
  never_skipped := by simpa using h.never_skipped
  on_time := by
    intro c step hmem
    rcases mem_append.mp hmem with hmem | hmem
    · exact h.on_time c step hmem
    · obtain ⟨rfl, rfl⟩ : c = command ∧ step = s.currentStep := by simpa using hmem
      exact h.pending_now c mem_cons_self
  balance := by
    refine .trans ?_ (h.balance.trans (by simp [acceptedIn]))
    simp only [dispatchedIn, droppedIn, filterMap_append, filterMap_cons,
      filterMap_nil, append_nil, append_assoc, singleton_append]
    refine .append_left _ ?_
    -- the dispatched command moves from the end of the queue to the front
    rw [← append_assoc, ← append_assoc]
    exact perm_middle.symm

theorem drop (h : CommandLedger lag pending s history) {r : CommandQueue Payload}
    {gone : List (CommandQueueEntry Payload)} (hr : r.Valid)
    (hperm : s.commandQueue.queued.Perm (gone ++ r.queued)) :
    CommandLedger lag pending { s with commandQueue := r }
      (history ++ (gone.map (·.command)).map .dropped) where
  valid := hr
  ahead := h.ahead
  queued_ahead := fun entry hmem =>
    h.queued_ahead entry (hperm.symm.subset (mem_append_right _ hmem))
  pending_now := h.pending_now
  never_skipped := by simpa using h.never_skipped
  on_time := by simpa using h.on_time
  balance := by
    have haccepted : acceptedIn (history ++ (gone.map (·.command)).map .dropped) =
        acceptedIn history := by simp [acceptedIn, filterMap_map]
    have hdispatched : dispatchedIn (history ++ (gone.map (·.command)).map .dropped) =
        dispatchedIn history := by simp [dispatchedIn, filterMap_map]
    have hdropped : droppedIn (history ++ (gone.map (·.command)).map .dropped) =
        droppedIn history ++ gone.map (·.command) := by simp [droppedIn, filterMap_map]
    rw [haccepted, hdispatched, hdropped]
    refine .trans ?_ h.balance
    simp only [append_assoc]
    refine .append_left _ (.append_left _ ?_)
    rw [← append_assoc, ← map_append]
    exact (hperm.map _).symm.append_right _

theorem accept (h : CommandLedger lag pending s history) {command : Command Payload}
    (hstamp : command.step = .fin s.nextExecutableStep) :
    CommandLedger lag pending { s with commandQueue := s.commandQueue.insert command }
      (history ++ [.accepted command s.nextExecutableStep]) where
  valid := h.valid.insert command
  ahead := h.ahead
  queued_ahead := by
    intro entry hmem
    rcases mem_cons.mp ((insert_queued h.valid command).mem_iff.mp hmem) with rfl | hmem
    · obtain ⟨k, hk⟩ := h.ahead
      exact ⟨k, hstamp.trans (congrArg _ hk)⟩
    · exact h.queued_ahead entry hmem
  pending_now := h.pending_now
  never_skipped := by simpa using h.never_skipped
  on_time := by simpa using h.on_time
  balance := by
    have hinsert := (insert_queued h.valid command).map (·.command)
    have hmove : ((dispatchedIn history ++ droppedIn history) ++
        ((s.commandQueue.insert command).queued.map (·.command) ++ pending)).Perm
        (command :: ((dispatchedIn history ++ droppedIn history) ++
          (s.commandQueue.queued.map (·.command) ++ pending))) :=
      ((hinsert.append_right pending).append_left _).trans perm_middle
    have hall := (hmove.trans (h.balance.cons command)).trans
      (perm_append_singleton command _).symm
    simpa [dispatchedIn, droppedIn, acceptedIn] using hall

/-- **Enqueueing.** Whatever the queue does with a command stamped as announced, the ledger
stays right. -/
theorem enqueue (h : CommandLedger lag pending s history)
    (cloneStructured : Payload → Except String Payload) (command : Command Payload)
    (hstamped : Stamped (history ++ enqueueEvents cloneStructured command s)) :
    CommandLedger lag pending
      { s with commandQueue := (s.commandQueue.enqueue cloneStructured command).2 }
      (history ++ enqueueEvents cloneStructured command s) := by
  rw [enqueueEvents] at hstamped ⊢
  rcases enqueue_cases cloneStructured s.commandQueue command with
    ⟨hqueue, hsnapshot, hvictim⟩ | ⟨out, hroom, hvictim, hrest⟩
  · rw [hqueue, hsnapshot, hvictim]
    simpa using h
  · obtain ⟨hvalid, -, hperm⟩ := h.valid.makeRoom hroom
    have hroomy := h.drop hvalid hperm
    rcases hrest with ⟨hqueue, hsnapshot⟩ | ⟨accepted, hqueue, hsnapshot⟩
    · rw [hqueue, hsnapshot, hvictim]
      simpa using hroomy
    · rw [hqueue, hsnapshot, hvictim]
      rw [hsnapshot] at hstamped
      have hstamp : accepted.step = .fin s.nextExecutableStep :=
        hstamped accepted s.nextExecutableStep (by simp)
      simpa using hroomy.accept hstamp

/-- **Capture.** Of the queued commands exactly those of the current step are captured, and the
others lie at least one step ahead. -/
theorem capture (h : CommandLedger 0 [] s history) :
    CommandLedger 1 (s.commandQueue.dequeueUpToStep (.fin s.currentStep)).1
      { s with
        commandQueue := (s.commandQueue.dequeueUpToStep (.fin s.currentStep)).2
        nextExecutableStep := s.currentStep + 1 } history := by
  have hsplit := (filter_append_perm (due (.fin s.currentStep))
    s.commandQueue.queued).map (·.command)
  refine ⟨h.valid.dequeueUpToStep _, ⟨0, by simp⟩, ?_, ?_, h.never_skipped, h.on_time, ?_⟩
  · change ∀ entry ∈ (s.commandQueue.dequeueUpToStep (.fin s.currentStep)).2.queued, _
    rw [dequeueUpToStep_queued h.valid]
    intro entry hmem
    obtain ⟨hqueued, hlater⟩ := mem_filter.mp hmem
    obtain ⟨k, hk⟩ := h.queued_ahead entry hqueued
    have hpos : k ≠ 0 := by
      rintro rfl
      simp [due, hk, le] at hlater
    obtain ⟨j, rfl⟩ := Nat.exists_eq_succ_of_ne_zero hpos
    exact ⟨j, by rw [hk]; simp [Nat.add_comm]⟩
  · rw [(dequeueUpToStep_spec h.valid _).1]
    intro command hmem
    obtain ⟨entry, hentry, rfl⟩ := mem_map.mp hmem
    obtain ⟨hqueued, hdue⟩ := mem_filter.mp hentry
    obtain ⟨k, hk⟩ := h.queued_ahead entry hqueued
    have hk0 : (k : ℚ) ≤ 0 := by simpa [due, hk, le] using hdue
    obtain rfl : k = 0 := Nat.le_zero.mp (by exact_mod_cast hk0)
    rw [hk]
    simp
  · change (dispatchedIn history ++ droppedIn history ++
      ((s.commandQueue.dequeueUpToStep (.fin s.currentStep)).2.queued.map (·.command) ++
        (s.commandQueue.dequeueUpToStep (.fin s.currentStep)).1)).Perm _
    rw [dequeueUpToStep_queued h.valid, (dequeueUpToStep_spec h.valid _).1]
    refine .trans (.append_left _ ?_) h.balance
    rw [map_append] at hsplit
    rw [append_nil]
    exact perm_append_comm.trans hsplit

/-- The step counter moves by one once everything queued lies a step ahead. -/
theorem advance (h : CommandLedger 1 [] s history) :
    CommandLedger 0 []
      { s with currentStep := s.currentStep + 1, nextExecutableStep := s.currentStep + 1 }
      history where
  valid := h.valid
  ahead := ⟨0, by simp⟩
  queued_ahead := fun entry hmem => by
    obtain ⟨k, hk⟩ := h.queued_ahead entry hmem
    refine ⟨k, hk.trans (congrArg _ ?_)⟩
    push_cast
    ring
  pending_now := by simp
  never_skipped := h.never_skipped
  on_time := h.on_time
  balance := h.balance

/-- A step that threw leaves the counter; what is queued lies even further ahead. -/
theorem relax (h : CommandLedger 1 [] s history) : CommandLedger 0 [] s history where
  valid := h.valid
  ahead := by
    obtain ⟨k, hk⟩ := h.ahead
    exact ⟨1 + k, by simpa using hk⟩
  queued_ahead := fun entry hmem => by
    obtain ⟨k, hk⟩ := h.queued_ahead entry hmem
    exact ⟨1 + k, by simpa using hk⟩
  pending_now := h.pending_now
  never_skipped := h.never_skipped
  on_time := h.on_time
  balance := h.balance

/-- A jump over no queued command. -/
theorem jump (h : CommandLedger 0 [] s history) (steps : ℕ)
    (hclear : ∀ entry ∈ s.commandQueue.queued,
      le (.fin (s.currentStep + steps)) entry.command.step = true)
    (hqueue : s'.commandQueue = s.commandQueue) (hstep : s'.currentStep = s.currentStep + steps)
    (hnext : s'.nextExecutableStep = s.currentStep + steps) :
    CommandLedger 0 [] s' history where
  valid := by
    rw [hqueue]
    exact h.valid
  ahead := ⟨0, by rw [hnext, hstep]; simp⟩
  queued_ahead := by
    rw [hqueue, hstep]
    intro entry hmem
    obtain ⟨k, hk⟩ := h.queued_ahead entry hmem
    have hle := hclear entry hmem
    rw [hk] at hle
    have hsteps : steps ≤ k := by
      have : (steps : ℚ) ≤ k := by simpa [le] using hle
      exact_mod_cast this
    obtain ⟨j, rfl⟩ := Nat.exists_eq_add_of_le hsteps
    refine ⟨j, hk.trans (congrArg _ ?_)⟩
    push_cast
    ring
  pending_now := by simp
  never_skipped := h.never_skipped
  on_time := h.on_time
  balance := by
    rw [hqueue]
    exact h.balance

end CommandLedger

/-! ### Calls keep the ledger -/

/-- The ledger of a history whose commands are stamped as announced. -/
def Ledger (lag : ℕ) (pending : List (Command Payload))
    (s : RuntimeState Payload EventPayload World) (history : List (CommandEvent Payload)) : Prop :=
  Stamped history → CommandLedger lag pending s history

/-- The ledger is an account: that its commands are stamped as announced rules out that a captured
one is skipped. -/
theorem ledger_account (cloneStructured : Payload → Except String Payload) :
    CommandAccount cloneStructured
      (Ledger : ℕ → List (Command Payload) → RuntimeState Payload EventPayload World →
        List (CommandEvent Payload) → Prop) where
  of_eq := fun h hqueue hstep hnext hstamped => (h hstamped).of_eq hqueue hstep hnext
  enqueue := fun h command hstamped =>
    (h hstamped.of_append).enqueue cloneStructured command hstamped
  capture := fun h hstamped => (h hstamped).capture
  skip := fun h hne hstamped =>
    absurd ((h hstamped.of_append).pending_now _ mem_cons_self) hne
  dispatch := fun h _ hstamped => (h hstamped.of_append).dispatch
  advance := fun h hstamped => (h hstamped).advance
  relax := fun h hstamped => (h hstamped).relax

/-! ### Runs of calls -/

/-- A call from the host: one that concerns time, or a command for the queue. -/
inductive HostCall (Payload : Type)
  | time (call : RuntimeConfig.Call)
  | enqueue (command : Command Payload)

namespace RuntimeConfig

variable (config : RuntimeConfig Payload EventPayload World)

/-- The state and the history after one call, whether it returns or throws. -/
def afterCall : HostCall Payload →
    RuntimeState Payload EventPayload World × List (CommandEvent Payload) →
    RuntimeState Payload EventPayload World × List (CommandEvent Payload)
  | .time call, (s, history) =>
      (Stateful.final (config.perform call s),
        history ++ (CommandTrace.perform config call).trace s)
  | .enqueue command, (s, history) =>
      (Stateful.final (enqueueCommand config.cloneStructured command s),
        history ++ enqueueEvents config.cloneStructured command s)

/-- The state and the history after a sequence of calls. -/
def afterCalls (calls : List (HostCall Payload))
    (start : RuntimeState Payload EventPayload World × List (CommandEvent Payload)) :
    RuntimeState Payload EventPayload World × List (CommandEvent Payload) :=
  calls.foldl (fun now call => config.afterCall call now) start

/-- The steps that `fastForward` is about to jump. -/
def jumpedSteps (s : RuntimeState Payload EventPayload World) (deltaMs : ℚ) : ℕ :=
  ⌊(s.accumulators.addHostFrame deltaMs).totalMs / config.stepSizeMs⌋.toNat

/-- A call that jumps over no queued command: the step a `fastForward` jumps to is at most the
step of each of them. -/
def Spares (s : RuntimeState Payload EventPayload World) : HostCall Payload → Prop
  | .time (.fastForward (.fin deltaMs)) => 0 < deltaMs →
      ∀ entry ∈ s.commandQueue.queued,
        JsNumber.le (.fin (s.currentStep + config.jumpedSteps s deltaMs)) entry.command.step = true
  | _ => True

instance (s : RuntimeState Payload EventPayload World) (call : HostCall Payload) :
    Decidable (config.Spares s call) :=
  match call with
  | .enqueue _ => isTrue trivial
  | .time (.tick _) => isTrue trivial
  | .time (.creditTime _) => isTrue trivial
  | .time (.drainCreditedBacklog _) => isTrue trivial
  | .time (.fastForward .posInf) => isTrue trivial
  | .time (.fastForward .negInf) => isTrue trivial
  | .time (.fastForward .nan) => isTrue trivial
  | .time (.fastForward (.fin deltaMs)) =>
      inferInstanceAs (Decidable (0 < deltaMs → ∀ entry ∈ s.commandQueue.queued,
        JsNumber.le (.fin (s.currentStep + config.jumpedSteps s deltaMs)) entry.command.step =
          true))

/-- Every call of a sequence spares the commands queued when it is made. -/
def SparesAll : List (HostCall Payload) →
    RuntimeState Payload EventPayload World × List (CommandEvent Payload) → Prop
  | [], _ => True
  | call :: calls, now => config.Spares now.1 call ∧ SparesAll calls (config.afterCall call now)

/-- What `fastForward` does to the queue and to the steps: nothing, or a jump. -/
theorem fastForward_cases (deltaMs : JsNumber) (s : RuntimeState Payload EventPayload World) :
    (Stateful.final (config.fastForward deltaMs s)).commandQueue = s.commandQueue ∧
      ((Stateful.final (config.fastForward deltaMs s)).currentStep = s.currentStep ∧
          (Stateful.final (config.fastForward deltaMs s)).nextExecutableStep =
            s.nextExecutableStep ∨
        ∃ d, deltaMs = .fin d ∧ 0 < d ∧
          (Stateful.final (config.fastForward deltaMs s)).currentStep =
            s.currentStep + config.jumpedSteps s d ∧
          (Stateful.final (config.fastForward deltaMs s)).nextExecutableStep =
            s.currentStep + config.jumpedSteps s d) := by
  cases deltaMs with
  | fin d =>
    by_cases hpos : d ≤ 0
    · rw [fastForward]
      simp only [finite?, hpos, if_true]
      exact ⟨rfl, .inl ⟨rfl, rfl⟩⟩
    · by_cases hzero : config.jumpedSteps s d = 0
      · have hrun : config.fastForward (.fin d) s = .ok 0
            { s with
              accumulators := s.accumulators.addHostFrame d
              acceptedMs := d :: s.acceptedMs } := by
          rw [jumpedSteps] at hzero
          simp only [fastForward, finite?, hpos, if_false]
          change (if ⌊(s.accumulators.addHostFrame d).totalMs / config.stepSizeMs⌋.toNat = 0
            then _ else _ : RuntimeM Payload EventPayload World ℕ) _ = _
          rw [if_pos hzero]
          rfl
        rw [hrun]
        exact ⟨rfl, .inl ⟨rfl, rfl⟩⟩
      · have hrun : ∃ accumulators, config.fastForward (.fin d) s =
            .ok (config.jumpedSteps s d)
              { s with
                accumulators
                acceptedMs := d :: s.acceptedMs
                currentStep := s.currentStep + config.jumpedSteps s d
                nextExecutableStep := s.currentStep + config.jumpedSteps s d } := by
          rw [jumpedSteps] at hzero
          simp only [fastForward, finite?, hpos, if_false]
          refine ⟨(s.accumulators.addHostFrame d).consumeAccumulatorBacklog
            (config.jumpedSteps s d * config.stepSizeMs) .any, ?_⟩
          change (if ⌊(s.accumulators.addHostFrame d).totalMs / config.stepSizeMs⌋.toNat = 0
            then _ else _ : RuntimeM Payload EventPayload World ℕ) _ = _
          rw [if_neg hzero]
          rfl
        -- a jump moves both step counters and leaves the queue as it is
        obtain ⟨accumulators, hrun⟩ := hrun
        rw [hrun]
        exact ⟨rfl, .inr ⟨d, rfl, not_le.mp hpos, rfl, rfl⟩⟩
  | posInf => exact ⟨rfl, .inl ⟨rfl, rfl⟩⟩
  | negInf => exact ⟨rfl, .inl ⟨rfl, rfl⟩⟩
  | nan => exact ⟨rfl, .inl ⟨rfl, rfl⟩⟩

instance decidableSparesAll (calls : List (HostCall Payload))
    (now : RuntimeState Payload EventPayload World × List (CommandEvent Payload)) :
    Decidable (config.SparesAll calls now) :=
  match calls with
  | [] => isTrue trivial
  | call :: calls =>
      have := decidableSparesAll calls (config.afterCall call now)
      inferInstanceAs (Decidable (config.Spares now.1 call ∧
        config.SparesAll calls (config.afterCall call now)))

/-- **Step lemma.** A call that spares the queued commands keeps the ledger. -/
theorem ledger_afterCall {s : RuntimeState Payload EventPayload World}
    {history : List (CommandEvent Payload)} (h : Ledger 0 [] s history) {call : HostCall Payload}
    (hspares : config.Spares s call) :
    Ledger 0 [] (config.afterCall call (s, history)).1 (config.afterCall call (s, history)).2 := by
  have hrules : CommandAccount config.cloneStructured
      (Ledger : ℕ → List (Command Payload) → RuntimeState Payload EventPayload World →
        List (CommandEvent Payload) → Prop) := ledger_account _
  cases call with
  | enqueue command =>
    exact fun hstamped => (h hstamped.of_append).enqueue config.cloneStructured command hstamped
  | time call =>
    cases call with
    | tick deltaMs =>
      have hrun := run_perform config (.tick deltaMs)
      have hfinal := (holds_tick hrules deltaMs).final h
      rw [CommandTrace.perform] at hrun
      rwa [hrun] at hfinal
    | creditTime deltaMs =>
      have hcredit : Holds (Ledger 0 []) (CommandTrace.perform config (.creditTime deltaMs))
          (fun _ => Ledger 0 []) (Ledger 0 []) :=
        Holds.bind (holds_creditTime hrules deltaMs) fun _ =>
          Holds.pure fun _ _ h => h
      have hfinal := hcredit.final h
      rwa [run_perform] at hfinal
    | drainCreditedBacklog maxSteps =>
      have hrun := run_perform config (.drainCreditedBacklog maxSteps)
      have hfinal := (holds_drainAccumulator hrules
        (config.resolveDrainStepBudget maxSteps) .credited).final h
      rw [CommandTrace.perform] at hrun
      rwa [hrun] at hfinal
    | fastForward deltaMs =>
      intro hstamped
      change CommandLedger 0 [] (Stateful.final (config.fastForward deltaMs s)) (history ++ [])
      change Stamped (history ++ []) at hstamped
      rw [append_nil] at hstamped ⊢
      obtain ⟨hqueue, ⟨hstep, hnext⟩ | ⟨d, rfl, hpos, hstep, hnext⟩⟩ :=
        config.fastForward_cases deltaMs s
      · exact (h hstamped).of_eq hqueue hstep hnext
      · exact (h hstamped).jump _ (hspares hpos) hqueue hstep hnext

/-- **Run lemma.** -/
theorem ledger_afterCalls {calls : List (HostCall Payload)}
    {now : RuntimeState Payload EventPayload World × List (CommandEvent Payload)}
    (h : Ledger 0 [] now.1 now.2) (hspares : config.SparesAll calls now) :
    Ledger 0 [] (config.afterCalls calls now).1 (config.afterCalls calls now).2 := by
  induction calls generalizing now with
  | nil => exact h
  | cons call calls ih => exact ih (config.ledger_afterCall h hspares.1) hspares.2

/-- A new runtime with an empty queue and no history. -/
theorem ledger_create {maxSize : ℚ} (hpos : 0 < maxSize) (eventBus : EventBus EventPayload)
    (world : World) (initialStep hostFrameMs creditedMs : Option JsNumber) :
    Ledger 0 [] (create (CommandQueue.empty maxSize hpos : CommandQueue Payload) eventBus world
      initialStep hostFrameMs creditedMs) [] := fun _ =>
  { valid := valid_empty maxSize hpos
    ahead := ⟨0, by simp [create]⟩
    queued_ahead := by simp [create, mem_queued, empty]
    pending_now := by simp
    never_skipped := by simp
    on_time := by simp
    balance := by simp [create, dispatchedIn, droppedIn, acceptedIn, queued_eq, empty] }

end RuntimeConfig

/-! ### No command is skipped -/

/-- What a history says about the commands, and the queue about those still to come. -/
structure DispatchesOnce (s : RuntimeState Payload EventPayload World)
    (history : List (CommandEvent Payload)) : Prop where
  /-- no command was discarded by the step-mismatch check -/
  never_skipped : ∀ command step, CommandEvent.skipped command step ∉ history
  /-- every dispatched command ran in the step it is stamped with -/
  on_time : ∀ command step, CommandEvent.dispatched command step ∈ history →
    command.step = .fin step
  /-- every accepted command was dispatched, was dropped or is queued, exactly one of them -/
  balance : (dispatchedIn history ++ droppedIn history ++
    s.commandQueue.queued.map (·.command)).Perm (acceptedIn history)
  /-- a command waits only for a step that is still to run -/
  waiting : ∀ entry ∈ s.commandQueue.queued,
    ∃ k : ℕ, entry.command.step = .fin (s.currentStep + k)

/-- **No command is skipped.** Let every command of a run of calls on a new runtime be enqueued,
by the host or inside a step, with the step that the runtime announces then. If no `fastForward`
jumps over a queued command, then every command is dispatched once, in its step. -/
theorem commands_dispatched (config : RuntimeConfig Payload EventPayload World) {maxSize : ℚ}
    (hpos : 0 < maxSize) (eventBus : EventBus EventPayload) (world : World)
    (initialStep hostFrameMs creditedMs : Option JsNumber) (calls : List (HostCall Payload)) :
    let start := RuntimeConfig.create (CommandQueue.empty maxSize hpos) eventBus world initialStep
      hostFrameMs creditedMs
    let last := config.afterCalls calls (start, [])
    Stamped last.2 → config.SparesAll calls (start, []) → DispatchesOnce last.1 last.2 := by
  intro start last hstamped hspares
  have hledger : Ledger 0 [] last.1 last.2 :=
    config.ledger_afterCalls (RuntimeConfig.ledger_create hpos eventBus world initialStep
      hostFrameMs creditedMs) hspares
  have h := hledger hstamped
  refine ⟨h.never_skipped, h.on_time, ?_, fun entry hmem => ?_⟩
  · simpa using h.balance
  · obtain ⟨k, hk⟩ := h.queued_ahead entry hmem
    exact ⟨k, by simpa using hk⟩

/-- A player's command for the first step. -/
def firstCommand : Command Unit :=
  { type := "test", priority := .player, payload := (), timestamp := ((0 : ℚ) : WithTop ℚ)
    step := .fin 0, requestId := none }

/-- A command that is enqueued after a jump and before a tick is dispatched by the tick. -/
theorem commands_dispatched_tick :
    let last := idleConfig.afterCalls
      [.time (.fastForward (.fin 300)), .enqueue { firstCommand with step := .fin 3 },
        .time (.tick (.fin 100))] (idleStart, [])
    DispatchesOnce last.1 last.2 ∧
      dispatchedIn last.2 = [{ firstCommand with step := .fin 3 }] :=
  ⟨commands_dispatched idleConfig one_pos silentBus () none none none _ (by decide +kernel)
    (by decide +kernel), by decide +kernel⟩

/-- A command for the first step that `fastForward` jumps over: the next tick discards it. -/
theorem fastForward_skips_command :
    let last := idleConfig.afterCalls
      [.enqueue firstCommand, .time (.fastForward (.fin 100)), .time (.tick (.fin 100))]
      (idleStart, [])
    Stamped last.2 ∧ last.2 = [.accepted firstCommand 0, .skipped firstCommand 1] ∧
      ¬DispatchesOnce last.1 last.2 := by
  intro last
  have hevents : last.2 = [.accepted firstCommand 0, .skipped firstCommand 1] := by
    decide +kernel
  refine ⟨by decide +kernel, hevents, fun h => h.never_skipped firstCommand 1 ?_⟩
  rw [hevents]
  exact List.mem_cons_of_mem _ (List.mem_singleton_self _)

end IdleEngine
