import IdleEngine.CommandTransport.Acceptance

/-!
# Whose outcome it is

An outcome carries a request id and nothing about the client. The server gives it to the key that
its pending map holds for the request id, and that entry expires by the clock while the command
waits for its step. `TransportSystem` is the server with the runtime around it: the runtime captures
due commands, settles them in any order and keeps their outcomes until they are drained. Beside the
server's own state the system remembers for which pair each ticket of the queue was given; no
definition of the server can look at it.

The invariant is `Owned`: whenever a request id is in flight and also pending, it is pending for the
pair that queued it. One call can break it, a delivery of a request id whose pending entry is gone
while another client's command of that id is still in flight (`Undisturbed` excludes it). In runs
without such a delivery every outcome reaches its own request (`transport_outcomes_attributed`).
-/

namespace IdleEngine

open JsValue TransportServer CommandQueue List Prod

namespace CommandQueue

variable {Payload : Type*}

/-- The entries after an `enqueue`: those that were queued, and at most the new one, which has the
next ticket and the request id of the command. -/
theorem Valid.mem_enqueue {q : CommandQueue Payload} (hq : q.Valid)
    {cloneStructured : Payload → Except String Payload} {command : Command Payload}
    {entry : CommandQueueEntry Payload}
    (h : entry ∈ (q.enqueue cloneStructured command).2.queued) :
    entry ∈ q.queued ∨ (entry.sequence = q.nextSequence ∧
      entry.command.requestId = command.requestId ∧
      (q.enqueue cloneStructured command).2.nextSequence = q.nextSequence + 1) := by
  rcases hauth : authorizeCommand command with _ | _
  · exact .inl (by simpa [CommandQueue.enqueue, hauth] using h)
  rcases hroom : q.makeRoom command.priority with _ | ⟨dropped, roomy⟩
  · exact .inl (by simpa [CommandQueue.enqueue, hauth, hroom] using h)
  obtain ⟨hvalid, hnext, hperm⟩ := hq.makeRoom hroom
  have hold : ∀ entry ∈ roomy.queued, entry ∈ q.queued := fun entry hentry =>
    hperm.symm.subset (mem_append_right _ hentry)
  rcases hclone : cloneStructured command.payload with message | payload
  · exact .inl (hold entry (by simpa [CommandQueue.enqueue, hauth, hroom, hclone] using h))
  · have hafter : (q.enqueue cloneStructured command).2 = roomy.insert { command with payload } := by
      simp [CommandQueue.enqueue, hauth, hroom, hclone]
    rw [hafter] at h ⊢
    rcases mem_cons.mp ((insert_queued hvalid _).mem_iff.mp h) with rfl | hentry
    · exact .inr ⟨hnext, rfl, congrArg (· + 1) hnext⟩
    · exact .inl (hold entry hentry)

theorem nextSequence_enqueue {q : CommandQueue Payload} (hq : q.Valid)
    (cloneStructured : Payload → Except String Payload) (command : Command Payload) :
    q.nextSequence ≤ (q.enqueue cloneStructured command).2.nextSequence := by
  rcases QueueLedger.enqueue_cases cloneStructured q command with
    ⟨hsame, -⟩ | ⟨out, hroom, -, ⟨hroomy, -⟩ | ⟨accepted, hinsert, -⟩⟩
  · rw [hsame]
  · rw [hroomy, (hq.makeRoom hroom).2.1]
  · rw [hinsert]
    have hnext := (hq.makeRoom hroom).2.1
    simp only [insert]
    omega

end CommandQueue

/-! ### The server with its runtime -/

/-- The server, the commands that the runtime has captured, the outcomes that were not drained yet,
each with the ticket of its command, and the pair each ticket was given for. -/
structure TransportSystem where
  server : TransportServer
  executing : List (CommandQueueEntry JsValue)
  outcomes : List (CommandExecutionOutcome × ℕ)
  origins : ℕ → Option (String × String)

/-- What can happen next. Handlers may be asynchronous, so captured commands settle in any order;
a command that was captured at another step than its own is skipped without an outcome. Commands
that the game queues for itself have no request id. -/
inductive TransportEvent
  | deliver (atTime : ℚ) (nextExecutableStep : Option JsNumber) (envelope : JsValue)
  | purge (atTime : ℚ)
  | drain (atTime : ℚ)
  | enqueue (command : Command JsValue)
  | capture (step : JsNumber)
  | settle (index : ℕ) (error : Option CommandError)
  | skip (index : ℕ)

namespace TransportSystem

/-- The system around a queue that holds no command with a request id, such as a new queue or a
restored one. -/
def create (commandQueue : CommandQueue JsValue) : TransportSystem :=
  { server := .create commandQueue, executing := [], outcomes := [], origins := fun _ => none }

/-- A call of `handleEnvelope`; if a ticket was given, it was given for the pair of the envelope. -/
def deliver (options : TransportOptions) (atTime : ℚ) (nextExecutableStep : Option JsNumber)
    (envelope : JsValue) (system : TransportSystem) : TransportSystem :=
  let server :=
    (system.server.handleEnvelope options atTime nextExecutableStep envelope).2
  let ticket := system.server.commandQueue.nextSequence
  { system with
    server
    origins :=
      if server.commandQueue.nextSequence = ticket then system.origins
      else Function.update system.origins ticket
        (TransportServer.identify options envelope).toOption }

/-- The outcome of a captured command. -/
def outcomeOf (entry : CommandQueueEntry JsValue) (error : Option CommandError) :
    CommandExecutionOutcome :=
  { requestId := entry.command.requestId, serverStep := entry.command.step, error }

/-- One event. -/
def step (options : TransportOptions) (system : TransportSystem) :
    TransportEvent → TransportSystem
  | .deliver atTime nextExecutableStep envelope =>
      system.deliver options atTime nextExecutableStep envelope
  | .purge atTime => { system with server := system.server.purgeExpired atTime }
  | .drain atTime =>
      { system with
        server := (system.server.drainOutcomeResponses options atTime
          (system.outcomes.map Prod.fst)).2
        outcomes := [] }
  | .enqueue command =>
      { system with
        server := { system.server with
          commandQueue := (system.server.commandQueue.enqueue options.cloneStructured
            { command with requestId := none }).2 } }
  | .capture step =>
      { system with
        server := { system.server with
          commandQueue := (system.server.commandQueue.dequeueUpToStep step).2 }
        executing := system.executing ++
          system.server.commandQueue.queued.filter (CommandQueue.due step) }
  | .settle index error =>
      match system.executing[index]? with
      | none => system
      | some entry =>
          { system with
            executing := system.executing.eraseIdx index
            outcomes := system.outcomes ++ [(outcomeOf entry error, entry.sequence)] }
  | .skip index => { system with executing := system.executing.eraseIdx index }

/-- The system after some events. -/
def run (options : TransportOptions) (events : List TransportEvent) (system : TransportSystem) :
    TransportSystem :=
  events.foldl (step options) system

/-- The command with a ticket is in flight, under a request id: queued, captured, or settled and
not drained. -/
def InFlight (system : TransportSystem) (ticket : ℕ) (requestId : String) : Prop :=
  (∃ entry ∈ system.server.commandQueue.queued ++ system.executing,
      entry.sequence = ticket ∧ entry.command.requestId = some requestId) ∨
    ∃ waiting ∈ system.outcomes, waiting.2 = ticket ∧ waiting.1.requestId = some requestId

/-! ### The condition -/

/-- A delivery disturbs nobody: if its pair has no live record, then every command in flight under
its request id was queued by this pair, or the request id is still pending for another one, so that
the delivery will be refused. -/
def UndisturbedDelivery (options : TransportOptions) (system : TransportSystem) (atTime : ℚ)
    (envelope : JsValue) : Prop :=
  ∀ clientId requestId, TransportServer.identify options envelope = .ok (clientId, requestId) →
    (system.server.purgeExpired atTime).registry.get? (createRegistryKey clientId requestId) =
      none →
    (system.server.purgeExpired atTime).inUse requestId (createRegistryKey clientId requestId) =
      true ∨
    ∀ ticket, system.InFlight ticket requestId →
      system.origins ticket = some (clientId, requestId)

/-- The condition on one event. -/
def Undisturbed (options : TransportOptions) (system : TransportSystem) : TransportEvent → Prop
  | .deliver atTime _ envelope => system.UndisturbedDelivery options atTime envelope
  | _ => True

/-- Every event of a run meets the condition in the state before it. -/
def RunUndisturbed (options : TransportOptions) : List TransportEvent → TransportSystem → Prop
  | [], _ => True
  | event :: events, system =>
      system.Undisturbed options event ∧ RunUndisturbed options events (system.step options event)

/-! ### What is claimed of a drain -/

/-- Every outcome that a drain at `atTime` records is recorded under the key of the pair that
queued its command, with the response of that outcome; and these are all the responses. -/
structure Attributed (options : TransportOptions) (system : TransportSystem) (atTime : ℚ) : Prop where
  own : ∀ before outcome ticket after, system.outcomes = before ++ (outcome, ticket) :: after →
    ∀ key response,
      (TransportServer.settleOutcome (atTime + options.idempotencyTtlMs)
        (system.server.drainOutcomeResponses options atTime (before.map Prod.fst)).2 outcome).1 =
          some (key, response) →
      ∃ pair, system.origins ticket = some pair ∧ key = createRegistryKey pair.1 pair.2 ∧
        response = TransportServer.outcomeResponse pair.2 outcome
  all : ∀ key response, (key, response) ∈ (system.server.drainOutcomeResponses options atTime
      (system.outcomes.map Prod.fst)).1 →
    ∃ outcome ticket pair, (outcome, ticket) ∈ system.outcomes ∧
      system.origins ticket = some pair ∧ key = createRegistryKey pair.1 pair.2 ∧
      response = TransportServer.outcomeResponse pair.2 outcome

/-! ### The invariant -/

variable {options : TransportOptions}

/-- What holds in every state of an undisturbed run. -/
structure Owned (system : TransportSystem) : Prop where
  valid : system.server.commandQueue.Valid
  /-- tickets in flight were given -/
  given : ∀ ticket requestId, system.InFlight ticket requestId →
    ticket < system.server.commandQueue.nextSequence
  /-- a command in flight was queued by some client under its request id -/
  origin : ∀ ticket requestId, system.InFlight ticket requestId →
    ∃ clientId, system.origins ticket = some (clientId, requestId)
  /-- if its request id is pending, it is pending for that client -/
  pending : ∀ ticket requestId, system.InFlight ticket requestId →
    ∀ pending, system.server.pendingKeys.get? requestId = some pending →
      ∃ clientId, system.origins ticket = some (clientId, requestId) ∧
        pending.key = createRegistryKey clientId requestId

variable {system after : TransportSystem}

/-- Losing commands in flight and pending entries keeps the invariant. -/
theorem Owned.mono (h : Owned system) (hvalid : after.server.commandQueue.Valid)
    (hnext : system.server.commandQueue.nextSequence ≤ after.server.commandQueue.nextSequence)
    (horigins : after.origins = system.origins)
    (hflight : ∀ ticket requestId, after.InFlight ticket requestId →
      system.InFlight ticket requestId)
    (hpending : ∀ requestId pending, after.server.pendingKeys.get? requestId = some pending →
      system.server.pendingKeys.get? requestId = some pending) : Owned after where
  valid := hvalid
  given := fun ticket requestId hin => (h.given ticket requestId (hflight _ _ hin)).trans_le hnext
  origin := fun ticket requestId hin => by
    rw [horigins]
    exact h.origin ticket requestId (hflight _ _ hin)
  pending := fun ticket requestId hin pending hget => by
    rw [horigins]
    exact h.pending ticket requestId (hflight _ _ hin) pending (hpending _ _ hget)

variable {requestId : String}

/-- A command in flight after a step that changed only the queue, to `queued`. -/
theorem inFlight_of_queued (system : TransportSystem) {ticket : ℕ}
    (h : after.InFlight ticket requestId) (hexecuting : after.executing = system.executing)
    (houtcomes : after.outcomes = system.outcomes) :
    system.InFlight ticket requestId ∨ ∃ entry ∈ after.server.commandQueue.queued,
      entry ∉ system.server.commandQueue.queued ∧ entry.sequence = ticket ∧
        entry.command.requestId = some requestId := by
  rcases h with ⟨entry, hentry, hticket, hrequest⟩ | ⟨waiting, hwaiting, hticket, hrequest⟩
  · rcases mem_append.mp hentry with hqueued | hexec
    · by_cases hold : entry ∈ system.server.commandQueue.queued
      · exact .inl (.inl ⟨entry, mem_append_left _ hold, hticket, hrequest⟩)
      · exact .inr ⟨entry, hqueued, hold, hticket, hrequest⟩
    · rw [hexecuting] at hexec
      exact .inl (.inl ⟨entry, mem_append_right _ hexec, hticket, hrequest⟩)
  · rw [houtcomes] at hwaiting
    exact .inl (.inr ⟨waiting, hwaiting, hticket, hrequest⟩)

/-- The game's own commands have no request id, so they are not in flight under one. -/
theorem Owned.enqueue (h : Owned system) (command : Command JsValue) :
    Owned (system.step options (.enqueue command)) := by
  refine h.mono (h.valid.enqueue _ _) (nextSequence_enqueue h.valid _ _) rfl ?_
    fun _ _ hget => hget
  intro ticket requestId hin
  rcases inFlight_of_queued system hin rfl rfl with
    hold | ⟨entry, hentry, hnew, -, hrequest⟩
  · exact hold
  · rcases h.valid.mem_enqueue hentry with hold | ⟨-, hnone, -⟩
    · exact absurd hold hnew
    · rw [hnone] at hrequest
      cases hrequest

theorem Owned.purge (h : Owned system) (atTime : ℚ) :
    Owned (system.step options (.purge atTime)) :=
  h.mono h.valid le_rfl rfl (fun _ _ hin => hin) fun _ _ hget =>
    (purgeExpired_pendingKeys.mp hget).1

/-- Capturing moves commands, and settling moves one to the outcomes. -/
theorem Owned.capture (h : Owned system) (step : JsNumber) :
    Owned (system.step options (.capture step)) := by
  refine h.mono (h.valid.dequeueUpToStep step) ?_ rfl ?_ fun _ _ hget => hget
  · change _ ≤ (system.server.commandQueue.dequeueUpToStep step).2.nextSequence
    rw [(dequeueUpToStep_spec h.valid step).2]
  · intro ticket requestId hin
    rcases hin with ⟨entry, hentry, hfound⟩ | hwaiting
    · refine .inl ⟨entry, ?_, hfound⟩
      change entry ∈ (system.server.commandQueue.dequeueUpToStep step).2.queued ++
        (system.executing ++ _) at hentry
      rw [dequeueUpToStep_queued h.valid] at hentry
      simp only [mem_append, mem_filter] at hentry ⊢
      tauto
    · exact .inr hwaiting

theorem Owned.settle (h : Owned system) (index : ℕ) (error : Option CommandError) :
    Owned (system.step options (.settle index error)) := by
  rcases hentry : system.executing[index]? with _ | entry
  · simpa [step, hentry] using h
  have hstep : system.step options (.settle index error) =
      { system with
        executing := system.executing.eraseIdx index
        outcomes := system.outcomes ++ [(outcomeOf entry error, entry.sequence)] } := by
    simp [step, hentry]
  rw [hstep]
  refine h.mono h.valid le_rfl rfl ?_ fun _ _ hget => hget
  intro ticket requestId hin
  rcases hin with ⟨other, hother, hfound⟩ | ⟨waiting, hwaiting, hfound⟩
  · refine .inl ⟨other, ?_, hfound⟩
    rcases mem_append.mp hother with hqueued | hexec
    · exact mem_append_left _ hqueued
    · exact mem_append_right _ (mem_of_mem_eraseIdx hexec)
  · rcases mem_append.mp hwaiting with hold | hnew
    · exact .inr ⟨waiting, hold, hfound⟩
    · rw [mem_singleton.mp hnew] at hfound
      exact .inl ⟨entry, mem_append_right _ (mem_of_getElem? hentry), hfound⟩

theorem Owned.skip (h : Owned system) (index : ℕ) :
    Owned (system.step options (.skip index)) := by
  refine h.mono h.valid le_rfl rfl ?_ fun _ _ hget => hget
  intro ticket requestId hin
  rcases hin with ⟨other, hother, hfound⟩ | hwaiting
  · refine .inl ⟨other, ?_, hfound⟩
    rcases mem_append.mp hother with hqueued | hexec
    · exact mem_append_left _ hqueued
    · exact mem_append_right _ (mem_of_mem_eraseIdx hexec)
  · exact .inr hwaiting

/-- A drain forgets pending entries and adds none, and leaves the queue alone. -/
theorem settleOutcomes_frame (expiresAt : ℚ) (outcomes : List CommandExecutionOutcome)
    (server : TransportServer) :
    (TransportServer.settleOutcomes expiresAt outcomes server).2.commandQueue =
        server.commandQueue ∧
      ∀ requestId pending,
        (TransportServer.settleOutcomes expiresAt outcomes server).2.pendingKeys.get? requestId =
          some pending →
        server.pendingKeys.get? requestId = some pending := by
  refine settleOutcomes_induct
    (P := fun _ after => after.commandQueue = server.commandQueue ∧ ∀ requestId pending,
      after.pendingKeys.get? requestId = some pending →
        server.pendingKeys.get? requestId = some pending)
    ?_ outcomes [] server ⟨rfl, fun _ _ h => h⟩
  rintro _ after outcome requestId pending ⟨hqueue, hkept⟩ _
  refine ⟨hqueue, fun other waiting hget => hkept other waiting ?_⟩
  change (after.pendingKeys.erase requestId).get? other = _ at hget
  rw [OrderedMap.get?_erase] at hget
  split at hget
  · cases hget
  · exact hget

theorem Owned.drain (h : Owned system) (atTime : ℚ) :
    Owned (system.step options (.drain atTime)) := by
  have hframe := settleOutcomes_frame (atTime + options.idempotencyTtlMs)
    (system.outcomes.map fst) (system.server.purgeExpired atTime)
  have hqueue : (system.step options (.drain atTime)).server.commandQueue =
      system.server.commandQueue := hframe.1
  refine h.mono ?_ ?_ rfl ?_ ?_
  · rw [hqueue]
    exact h.valid
  · rw [hqueue]
  · rintro ticket requestId (⟨entry, hentry, hfound⟩ | ⟨waiting, hwaiting, -⟩)
    · rw [hqueue] at hentry
      exact .inl ⟨entry, hentry, hfound⟩
    · cases hwaiting
  · intro requestId pending hget
    exact (purgeExpired_pendingKeys.mp (hframe.2 requestId pending hget)).1

/-- A pair takes its request id: nothing else was in flight under it, and what is added is its
own. -/
theorem Owned.claim (h : Owned system) {clientId : String}
    (hown : ∀ ticket, system.InFlight ticket requestId →
      system.origins ticket = some (clientId, requestId)) (hvalid : after.server.commandQueue.Valid)
    (hnext : system.server.commandQueue.nextSequence ≤ after.server.commandQueue.nextSequence)
    (horigins : ∀ ticket < system.server.commandQueue.nextSequence,
      after.origins ticket = system.origins ticket)
    (hflight : ∀ ticket other, after.InFlight ticket other → system.InFlight ticket other ∨
      (other = requestId ∧ after.origins ticket = some (clientId, requestId) ∧
        ticket < after.server.commandQueue.nextSequence))
    (hpending : ∀ other pending, after.server.pendingKeys.get? other = some pending →
      (other = requestId ∧ pending.key = createRegistryKey clientId requestId) ∨
        (other ≠ requestId ∧ system.server.pendingKeys.get? other = some pending)) :
    Owned after := by
  have hold : ∀ ticket other, system.InFlight ticket other →
      after.origins ticket = system.origins ticket := fun ticket other hin =>
    horigins ticket (h.given ticket other hin)
  refine ⟨hvalid, ?_, ?_, ?_⟩
  · intro ticket other hin
    rcases hflight ticket other hin with hbefore | ⟨-, -, hgiven⟩
    · exact (h.given ticket other hbefore).trans_le hnext
    · exact hgiven
  · intro ticket other hin
    rcases hflight ticket other hin with hbefore | ⟨rfl, horigin, -⟩
    · rw [hold ticket other hbefore]
      exact h.origin ticket other hbefore
    · exact ⟨clientId, horigin⟩
  · intro ticket other hin pending hget
    rcases hpending other pending hget with ⟨rfl, hkey⟩ | ⟨hne, hbefore⟩
    · refine ⟨clientId, ?_, hkey⟩
      rcases hflight ticket other hin with hin | ⟨-, horigin, -⟩
      · rw [hold ticket other hin]
        exact hown ticket hin
      · exact horigin
    · rcases hflight ticket other hin with hin | ⟨rfl, -, -⟩
      · rw [hold ticket other hin]
        exact h.pending ticket other hin pending hbefore
      · exact absurd rfl hne

/-- The pending map after a pair has taken its request id. -/
theorem pending_after_set {server : TransportServer} {atTime expiresAt : ℚ} {key other : String}
    {pending : PendingKeyEntry}
    (h : ((server.purgeExpired atTime).pendingKeys.set requestId { key, expiresAt }).get? other =
      some pending) :
    (other = requestId ∧ pending.key = key) ∨
      (other ≠ requestId ∧ server.pendingKeys.get? other = some pending) := by
  rw [OrderedMap.get?_set] at h
  by_cases hother : requestId = other
  · rw [if_pos hother] at h
    obtain rfl := Option.some.inj h
    exact .inl ⟨hother.symm, rfl⟩
  · rw [if_neg hother] at h
    exact .inr ⟨Ne.symm hother, (purgeExpired_pendingKeys.mp h).1⟩

/-- **The step that needs the condition.** An undisturbed delivery keeps the invariant. -/
theorem Owned.deliver (h : Owned system) (hclones : options.ClonesJson) {atTime : ℚ}
    {envelope : JsValue} (hfree : system.UndisturbedDelivery options atTime envelope)
    (nextExecutableStep : Option JsNumber) :
    Owned (system.step options (.deliver atTime nextExecutableStep envelope)) := by
  have hpurged : ∀ requestId pending,
      (system.server.purgeExpired atTime).pendingKeys.get? requestId = some pending →
        system.server.pendingKeys.get? requestId = some pending := fun _ _ hget =>
    (purgeExpired_pendingKeys.mp hget).1
  change Owned (system.deliver options atTime nextExecutableStep envelope)
  rcases hid : TransportServer.identify options envelope with refusal | ⟨clientId, requestId⟩
  · have heq := handleEnvelope_malformed hid atTime nextExecutableStep system.server
    simp only [TransportSystem.deliver, heq]
    exact h.mono h.valid le_rfl (if_pos rfl) (fun _ _ hin => hin) hpurged
  rcases hcached : (system.server.purgeExpired atTime).registry.get?
    (createRegistryKey clientId requestId) with _ | cached
  swap
  · have heq := handleEnvelope_cached hid hcached nextExecutableStep
    simp only [TransportSystem.deliver, heq]
    exact h.mono h.valid le_rfl (if_pos rfl) (fun _ _ hin => hin) hpurged
  have hnew := handleEnvelope_new hid hcached nextExecutableStep
  rcases huse : (system.server.purgeExpired atTime).inUse requestId
    (createRegistryKey clientId requestId) with _ | _
  swap
  · obtain ⟨response, -, hanswer⟩ :=
      handleNew_inUse huse options atTime nextExecutableStep envelope
    simp only [TransportSystem.deliver, hnew, hanswer]
    exact h.mono h.valid le_rfl (if_pos rfl) (fun _ _ hin => hin) hpurged
  -- from here on the request id is set pending for this pair, so it must not be another's
  have hown : ∀ ticket, system.InFlight ticket requestId →
      system.origins ticket = some (clientId, requestId) := by
    rcases hfree clientId requestId hid hcached with hused | hown
    · rw [huse] at hused
      cases hused
    · exact hown
  rcases hpasses : admitCommand options.stringOf options.maxIdentifierLength requestId envelope
    with error | command
  · obtain ⟨response, -, hanswer⟩ :=
      handleNew_refused huse hpasses atTime nextExecutableStep
    simp only [TransportSystem.deliver, hnew, hanswer]
    refine h.claim hown h.valid le_rfl (fun ticket _ => congrFun (if_pos rfl) ticket) ?_ ?_
    · exact fun ticket other hin => .inl hin
    · exact fun other pending hget => pending_after_set hget
  · have hanswer := handleNew_admitted (createRegistryKey clientId requestId) huse
      hclones hpasses atTime nextExecutableStep
    have hpair : (TransportServer.identify options envelope).toOption =
        some (clientId, requestId) := by
      rw [hid]
      rfl
    simp only [TransportSystem.deliver, hnew, hanswer, hpair]
    refine h.claim hown (h.valid.enqueue _ _) (nextSequence_enqueue h.valid _ _) ?_ ?_
      fun other pending hget => pending_after_set hget
    · intro ticket hticket
      dsimp only
      split
      · rfl
      · exact Function.update_of_ne hticket.ne _ _
    · intro ticket other hin
      rcases inFlight_of_queued system hin rfl rfl with
        hold | ⟨entry, hentry, hfresh, hticket, hrequest⟩
      · exact .inl hold
      -- the only new entry is the command of this envelope, under the next ticket
      · rcases h.valid.mem_enqueue hentry with hold | ⟨hsequence, hstamped, hgiven⟩
        · exact absurd hold hfresh
        · have hother : other = requestId := by
            rw [hstamped] at hrequest
            exact (Option.some.inj hrequest).symm
          have hlast : ticket = system.server.commandQueue.nextSequence :=
            hticket.symm.trans hsequence
          refine .inr ⟨hother, ?_, ?_⟩
          · dsimp only
            rw [if_neg, hlast, Function.update_self]
            exact fun hsame => absurd (hgiven.symm.trans hsame) (Nat.succ_ne_self _)
          · rw [hlast]
            exact Nat.lt_of_lt_of_eq (Nat.lt_succ_self _) hgiven.symm

/-- **Step lemma.** Every event that meets the condition keeps the invariant. -/
theorem Owned.step (h : Owned system) (hclones : options.ClonesJson) {event : TransportEvent}
    (hfree : system.Undisturbed options event) :
    Owned (system.step options event) := by
  rcases event with ⟨atTime, nextExecutableStep, envelope⟩ | atTime | atTime | command | captured |
    ⟨index, error⟩ | index
  · exact h.deliver hclones hfree nextExecutableStep
  · exact h.purge atTime
  · exact h.drain atTime
  · exact h.enqueue command
  · exact h.capture captured
  · exact h.settle index error
  · exact h.skip index

/-- **Run lemma.** Every state of an undisturbed run satisfies the invariant. -/
theorem Owned.run (hclones : options.ClonesJson) :
    ∀ {events : List TransportEvent} {system : TransportSystem}, Owned system →
      RunUndisturbed options events system → Owned (system.run options events)
  | [], _, h, _ => h
  | event :: events, system, h, hrun => by
    have hnext := h.step hclones hrun.1
    change Owned ((system.step options event).run options events)
    exact Owned.run hclones hnext hrun.2

/-! ### Attribution -/

/-- Every response of a drain is that of one of its outcomes, in the state the outcomes before it
left. -/
theorem mem_settleOutcomes {expiresAt : ℚ} {key : String} {response : CommandResponse} :
    ∀ {outcomes : List CommandExecutionOutcome} {server : TransportServer},
      (key, response) ∈ (TransportServer.settleOutcomes expiresAt outcomes server).1 →
      ∃ before outcome after, outcomes = before ++ outcome :: after ∧
        (TransportServer.settleOutcome expiresAt
          (TransportServer.settleOutcomes expiresAt before server).2 outcome).1 = some (key, response)
  | [], server, h => by cases h
  | outcome :: outcomes, server, h => by
    rw [TransportServer.settleOutcomes] at h
    rcases mem_append.mp h with hhead | htail
    · exact ⟨[], outcome, outcomes, rfl, Option.mem_toList.mp hhead⟩
    · obtain ⟨before, later, after, rfl, hlater⟩ := mem_settleOutcomes htail
      exact ⟨outcome :: before, later, after, rfl, hlater⟩

/-- In an owned state a drain gives every outcome to the pair that queued its command. -/
theorem Owned.attributed (h : Owned system) (atTime : ℚ) :
    system.Attributed options atTime := by
  have hown : ∀ before outcome ticket after, system.outcomes = before ++ (outcome, ticket) :: after →
      ∀ key response,
        (TransportServer.settleOutcome (atTime + options.idempotencyTtlMs)
          (system.server.drainOutcomeResponses options atTime (before.map fst)).2 outcome).1 =
            some (key, response) →
        ∃ pair, system.origins ticket = some pair ∧ key = createRegistryKey pair.1 pair.2 ∧
          response = TransportServer.outcomeResponse pair.2 outcome := by
    intro before outcome ticket after houtcomes key response hsettled
    have hframe := settleOutcomes_frame (atTime + options.idempotencyTtlMs) (before.map fst)
      (system.server.purgeExpired atTime)
    rcases settleOutcome_cases (atTime + options.idempotencyTtlMs)
      (system.server.drainOutcomeResponses options atTime (before.map fst)).2 outcome with
      hnone | ⟨requestId, pending, hrequest, hpending, hsome⟩
    · rw [hnone] at hsettled
      cases hsettled
    · rw [hsome] at hsettled
      obtain ⟨rfl, rfl⟩ := Prod.mk.inj (Option.some.inj hsettled)
      -- the outcome is in flight, and what is pending for it was pending before the drain
      have hin : system.InFlight ticket requestId :=
        .inr ⟨(outcome, ticket), by rw [houtcomes]; simp, rfl, hrequest⟩
      have hbefore := (purgeExpired_pendingKeys.mp
        (hframe.2 requestId pending hpending)).1
      obtain ⟨clientId, horigin, hkey⟩ := h.pending ticket requestId hin pending hbefore
      exact ⟨(clientId, requestId), horigin, hkey, rfl⟩
  refine ⟨hown, ?_⟩
  intro key response hmem
  obtain ⟨before, outcome, after, hsplit, hsettled⟩ := mem_settleOutcomes hmem
  obtain ⟨before', rest, houtcomes, rfl, hrest⟩ := map_eq_append_iff.mp hsplit
  obtain ⟨⟨outcome', ticket⟩, after', rfl, rfl, -⟩ := map_eq_cons_iff.mp hrest
  obtain ⟨pair, horigin, hkey, hresponse⟩ :=
    hown before' outcome' ticket after' houtcomes key response hsettled
  exact ⟨outcome', ticket, pair, by rw [houtcomes]; simp, horigin, hkey, hresponse⟩

theorem owned_create {commandQueue : CommandQueue JsValue} (hvalid : commandQueue.Valid)
    (hlocal : ∀ entry ∈ commandQueue.queued, entry.command.requestId = none) :
    Owned (create commandQueue) := by
  have hnone : ∀ ticket requestId, ¬ (create commandQueue).InFlight ticket requestId := by
    rintro ticket requestId (⟨entry, hentry, -, hrequest⟩ | ⟨waiting, hwaiting, -⟩)
    · have hqueued : entry ∈ commandQueue.queued := by
        simpa [create, TransportServer.create] using hentry
      rw [hlocal entry hqueued] at hrequest
      cases hrequest
    · cases hwaiting
  exact ⟨hvalid, fun ticket requestId hin => absurd hin (hnone _ _),
    fun ticket requestId hin => absurd hin (hnone _ _),
    fun ticket requestId hin => absurd hin (hnone _ _)⟩

theorem RunUndisturbed.prefix_of_append :
    ∀ {events events' : List TransportEvent} {system : TransportSystem},
      RunUndisturbed options (events ++ events') system → RunUndisturbed options events system
  | [], _, _, _ => trivial
  | _ :: _, _, _, h => ⟨h.1, RunUndisturbed.prefix_of_append h.2⟩

/-- **Outcomes reach their own request.** In every run in which no envelope takes over a request id
while another client's command of that id is in flight and no longer pending, every drain records
each outcome for the pair that queued its command. -/
theorem transport_outcomes_attributed (hclones : options.ClonesJson)
    {commandQueue : CommandQueue JsValue} (hvalid : commandQueue.Valid)
    (hlocal : ∀ entry ∈ commandQueue.queued, entry.command.requestId = none)
    (events : List TransportEvent) (hrun : RunUndisturbed options events (create commandQueue)) :
    ∀ before atTime after, events = before ++ .drain atTime :: after →
      ((create commandQueue).run options before).Attributed options atTime := by
  rintro before atTime after rfl
  have howned := (owned_create hvalid hlocal).run hclones hrun.prefix_of_append
  exact howned.attributed atTime

/-- When nothing is in flight, no delivery disturbs anybody. -/
theorem undisturbed_of_idle (hqueued : system.server.commandQueue.queued.length = 0)
    (hexecuting : system.executing.length = 0) (houtcomes : system.outcomes.length = 0) (atTime : ℚ)
    (envelope : JsValue) : system.UndisturbedDelivery options atTime envelope := by
  rw [length_eq_zero_iff] at hqueued hexecuting houtcomes
  refine fun clientId requestId _ _ => .inr fun ticket hin => ?_
  rcases hin with ⟨entry, hentry, -⟩ | ⟨waiting, hwaiting, -⟩
  · simp [hqueued, hexecuting] at hentry
  · simp [houtcomes] at hwaiting

/-- Two clients use one request id, the second after the first command was executed and drained. -/
theorem transport_outcomes_attributed_reuse :
    let queue : CommandQueue JsValue := CommandQueue.empty 10 (by decide)
    let first : List TransportEvent :=
      [.deliver 0 (some (.fin 0)) (sampleEnvelope "client-1" "req-1" "TEST"), .capture (.fin 0),
        .settle 0 none, .drain 1]
    let second : List TransportEvent :=
      [.deliver 5 (some (.fin 1)) (sampleEnvelope "client-2" "req-1" "TEST"), .capture (.fin 1),
        .settle 0 none]
    let system := (create queue).run sampleOptions (first ++ second)
    system.Attributed sampleOptions 6 ∧
      (system.server.drainOutcomeResponses sampleOptions 6 (system.outcomes.map Prod.fst)).1.map
        Prod.fst = [createRegistryKey "client-2" "req-1"] := by
  intro queue first second system
  refine ⟨?_, by decide +kernel⟩
  have hrun : RunUndisturbed sampleOptions (first ++ second ++ [.drain 6]) (create queue) := by
    refine ⟨?_, trivial, trivial, trivial, ?_, trivial, trivial, trivial, trivial⟩
    · exact undisturbed_of_idle (by decide +kernel) (by decide +kernel) (by decide +kernel) _ _
    · exact undisturbed_of_idle (by decide +kernel) (by decide +kernel) (by decide +kernel) _ _
  exact transport_outcomes_attributed (fun _ _ => rfl) (valid_empty 10 (by decide))
    (by simp [CommandQueue.empty, mem_queued]) _ hrun (first ++ second) 6 [] rfl

/-- The first client's entry expires while its command waits; a second client takes the request id,
and is told that its command failed when the first one's did. Its own command is still queued. -/
theorem transport_outcome_misattributed :
    let queue : CommandQueue JsValue := CommandQueue.empty 10 (by decide)
    let system := (create queue).run sampleOptions
      [.deliver 0 (some (.fin 0)) (sampleEnvelope "client-1" "req-1" "TEST"),
        .deliver 300000 (some (.fin 5)) (sampleEnvelope "client-2" "req-1" "TEST"),
        .capture (.fin 0), .settle 0 (some ⟨"FAILED", "Nope", none⟩)]
    let drained := system.server.drainOutcomeResponses sampleOptions 300001
      (system.outcomes.map Prod.fst)
    system.outcomes.map Prod.snd = [0] ∧ system.origins 0 = some ("client-1", "req-1") ∧
      drained.1.map (fun record => (record.1, record.2.status)) =
        [(createRegistryKey "client-2" "req-1", .rejected)] ∧
      drained.2.commandQueue.queued.map (·.sequence) = [1] ∧
      system.origins 1 = some ("client-2", "req-1") ∧
      ¬ system.Attributed sampleOptions 300001 := by
  intro queue system drained
  have htickets : system.outcomes.map Prod.snd = [0] := by decide +kernel
  have horigin : system.origins 0 = some ("client-1", "req-1") := by decide +kernel
  have hkeys : drained.1.map (fun record => (record.1, record.2.status)) =
      [(createRegistryKey "client-2" "req-1", .rejected)] := by decide +kernel
  refine ⟨htickets, horigin, hkeys, by decide +kernel, by decide +kernel, ?_⟩
  intro hattributed
  -- the one response is recorded under the second client's key
  have hmem : (createRegistryKey "client-2" "req-1", ResponseStatus.rejected) ∈
      drained.1.map fun record => (record.1, record.2.status) := by
    rw [hkeys]
    exact List.mem_singleton_self _
  obtain ⟨⟨key, response⟩, hrecord, hsame⟩ := List.mem_map.mp hmem
  obtain ⟨outcome, ticket, pair, houtcome, hpair, hkey, -⟩ :=
    hattributed.all key response hrecord
  have hticket : ticket ∈ system.outcomes.map Prod.snd := List.mem_map_of_mem houtcome
  rw [htickets, List.mem_singleton] at hticket
  rw [hticket, horigin] at hpair
  obtain rfl := Option.some.inj hpair
  -- but the outcome is that of the first client's command
  have hclients := JsonText.stringifyPair_inj.mp (hkey.symm.trans (Prod.mk.inj hsame).1)
  exact absurd hclients.1 (by decide)

end TransportSystem

end IdleEngine
