import IdleEngine.CommandTransport.Idempotency

/-!
# When an acceptance is true

`handleEnvelope` answers "accepted" to every envelope that passes its checks, and records that
answer, whatever `enqueue` returned. The answer is true exactly when the command is authorized for
its lane and the queue has room for it, that is, when it is not full or holds a command that may be
dropped for the newcomer (`transport_accepts_truthfully_iff`).

`Placed` looks at the queue itself: the command got the next ticket and stands among the queued
entries.
-/

namespace IdleEngine

open JsValue

namespace CommandQueue

variable {Payload : Type*}

/-- A command was placed between two states of the queue: the ticket that was next is queued. -/
def Placed (before after : CommandQueue Payload) : Prop :=
  ∃ entry ∈ after.queued, entry.sequence = before.nextSequence

/-- Room for a command of a lane: the queue is not full, or some queued command may be dropped. -/
def RoomFor (q : CommandQueue Payload) (priority : CommandPriority) : Prop :=
  (q.totalSize : ℚ) < q.maxSize ∨
    ∃ entry ∈ q.queued, priority.toNat ≤ entry.command.priority.toNat

variable {q : CommandQueue Payload}

theorem Valid.not_placed {r : CommandQueue Payload} (hq : q.Valid)
    (h : ∀ entry ∈ r.queued, entry ∈ q.queued) : ¬ Placed q r := by
  rintro ⟨entry, hentry, hticket⟩
  have hfresh := hq.fresh entry (h entry hentry)
  omega

/-- The search finds a victim in the first searched lane that has one. -/
theorem dropFrom_isSome_iff (q : CommandQueue Payload) (maxPriority : CommandPriority)
    (priorities : List CommandPriority) :
    (q.dropFrom maxPriority priorities).1.isSome ↔
      ∃ priority ∈ priorities, maxPriority.toNat ≤ priority.toNat ∧ q.lanes priority ≠ [] := by
  induction priorities with
  | nil => simp [dropFrom]
  | cons priority rest ih =>
    rw [dropFrom]
    by_cases hp : priority.toNat < maxPriority.toNat
    · rw [if_pos hp, ih]
      simp [hp]
    · rw [if_neg hp]
      rcases hlane : q.lanes priority with _ | ⟨dropped, lane⟩
      · simp [ih, hlane]
      · simp [hlane, not_lt.mp hp]

theorem makeRoom_isSome_iff (hq : q.Valid) (priority : CommandPriority) :
    (q.makeRoom priority).isSome ↔ q.RoomFor priority := by
  have hvictim : (q.dropLowestPriorityUpTo priority).1.isSome ↔
      ∃ entry ∈ q.queued, priority.toNat ≤ entry.command.priority.toNat := by
    rw [dropLowestPriorityUpTo, dropFrom_isSome_iff]
    constructor
    · rintro ⟨lane, -, hle, hne⟩
      obtain ⟨entry, hentry⟩ := List.exists_mem_of_ne_nil _ hne
      refine ⟨entry, mem_queued.mpr ⟨lane, hentry⟩, ?_⟩
      rwa [hq.lane_priority lane entry hentry]
    · rintro ⟨entry, hentry, hle⟩
      obtain ⟨lane, hlane⟩ := mem_queued.mp hentry
      rw [hq.lane_priority lane entry hlane] at hle
      exact ⟨lane, List.mem_reverse.mpr (mem_commandPriorityOrder lane), hle,
        List.ne_nil_of_mem hlane⟩
  rw [makeRoom, RoomFor, ← hvictim]
  by_cases hfull : q.maxSize ≤ (q.totalSize : ℚ)
  · rw [if_pos hfull]
    rcases q.dropLowestPriorityUpTo priority with ⟨_ | dropped, roomy⟩
    · simp [not_lt.mpr hfull]
    · simp
  · simp [if_neg hfull, not_le.mp hfull]

/-- **When `enqueue` places a command**: it is authorized and there is room for it. -/
theorem enqueue_placed_iff {cloneStructured : Payload → Except String Payload} (hq : q.Valid)
    (command : Command Payload) {payload : Payload}
    (hclone : cloneStructured command.payload = .ok payload) :
    Placed q (q.enqueue cloneStructured command).2 ↔
      authorizeCommand command = true ∧ q.RoomFor command.priority := by
  rw [← makeRoom_isSome_iff hq]
  rcases hauth : authorizeCommand command with _ | _
  · have hsame : (q.enqueue cloneStructured command).2 = q := by simp [enqueue, hauth]
    simpa [hsame] using hq.not_placed fun _ h => h
  · rcases hroom : q.makeRoom command.priority with _ | ⟨dropped, roomy⟩
    · have hsame : (q.enqueue cloneStructured command).2 = q := by simp [enqueue, hauth, hroom]
      simpa [hsame] using hq.not_placed fun _ h => h
    · -- the snapshot gets the ticket that was next before room was made
      obtain ⟨hvalid, hnext, -⟩ := hq.makeRoom hroom
      have hinsert : (q.enqueue cloneStructured command).2 =
          roomy.insert { command with payload } := by
        simp [enqueue, hauth, hroom, hclone]
      have hplaced : Placed q (roomy.insert { command with payload }) := by
        refine ⟨roomy.newEntry { command with payload }, ?_, hnext⟩
        exact (insert_queued hvalid _).mem_iff.mpr List.mem_cons_self
      simpa [hinsert] using hplaced

theorem Valid.enqueue (hq : q.Valid) (cloneStructured : Payload → Except String Payload)
    (command : Command Payload) :
    (q.enqueue cloneStructured command).2.Valid := by
  rcases QueueLedger.enqueue_cases cloneStructured q command with
    ⟨hsame, -⟩ | ⟨out, hroom, -, ⟨hroomy, -⟩ | ⟨accepted, hinsert, -⟩⟩
  · rwa [hsame]
  · rw [hroomy]
    exact (hq.makeRoom hroom).1
  · rw [hinsert]
    exact (hq.makeRoom hroom).1.insert accepted

end CommandQueue

namespace TransportServer

variable {options : TransportOptions}

/-- An answer that says what happened to the command: "accepted" exactly when it was placed, and no
record of an acceptance for a command that was not. -/
structure Truthful (before : TransportServer)
    (result : Except String CommandResponse × TransportServer) : Prop where
  answer : (∃ response, result.1 = .ok response ∧ response.status = .accepted) ↔
    CommandQueue.Placed before.commandQueue result.2.commandQueue
  record : ¬ CommandQueue.Placed before.commandQueue result.2.commandQueue →
    ∀ key entry, result.2.registry.get? key = some entry → entry.response.status = .accepted →
      before.registry.get? key = some entry

/-- The condition for a true answer: an envelope that gets as far as the queue carries a command
that the queue takes. -/
def QueueTakes (options : TransportOptions) (atTime : ℚ) (envelope : JsValue)
    (before : TransportServer) : Prop :=
  ∀ clientId requestId command, identify options envelope = .ok (clientId, requestId) →
    (before.purgeExpired atTime).registry.get? (createRegistryKey clientId requestId) = none →
    (before.purgeExpired atTime).inUse requestId (createRegistryKey clientId requestId) = false →
    admitCommand options.stringOf options.maxIdentifierLength requestId envelope = .ok command →
    authorizeCommand (stampedCommand command requestId (.fin command.step)) = true ∧
      before.commandQueue.RoomFor command.priority

variable {before : TransportServer} {response : CommandResponse}

/-- An answer other than "accepted" that leaves the queue alone is true. -/
theorem truthful_of_not_accepted {after : TransportServer} (hvalid : before.commandQueue.Valid)
    (hstatus : response.status ≠ .accepted) (hqueue : after.commandQueue = before.commandQueue)
    (hregistry : ∀ key entry, after.registry.get? key = some entry →
      entry.response.status = .accepted → before.registry.get? key = some entry) :
    Truthful before (.ok response, after) := by
  have hplaced : ¬ CommandQueue.Placed before.commandQueue after.commandQueue := by
    rw [hqueue]
    exact hvalid.not_placed fun _ h => h
  refine ⟨⟨?_, fun h => absurd h hplaced⟩, fun _ => hregistry⟩
  rintro ⟨answered, hanswered, haccepted⟩
  obtain rfl := Except.ok.inj hanswered
  exact absurd haccepted hstatus

/-- A rejection recorded after the purge adds no acceptance to the registry. -/
theorem registry_of_rejection {atTime expiresAt : ℚ} {key : String}
    (hstatus : response.status = .rejected) {key' : String} {entry : RegistryEntry}
    (hentry : ((before.purgeExpired atTime).recordResponse key response expiresAt).registry.get? key' =
      some entry) (haccepted : entry.response.status = .accepted) :
    before.registry.get? key' = some entry := by
  change ((before.purgeExpired atTime).registry.set key _).get? key' = _ at hentry
  rw [OrderedMap.get?_set] at hentry
  by_cases hkey : key = key'
  · rw [if_pos hkey] at hentry
    obtain rfl := Option.some.inj hentry
    rw [hstatus] at haccepted
    cases haccepted
  · rw [if_neg hkey] at hentry
    exact (purgeExpired_registry.mp hentry).1

/-- **When a delivery is answered truthfully.** -/
theorem handleEnvelope_truthful_iff (hclones : options.ClonesJson)
    (hvalid : before.commandQueue.Valid) (atTime : ℚ) (nextExecutableStep : Option JsNumber)
    (envelope : JsValue) :
    Truthful before (before.handleEnvelope options atTime nextExecutableStep envelope) ↔
      QueueTakes options atTime envelope before := by
  rcases hid : identify options envelope with refusal | ⟨clientId, requestId⟩
  · -- malformed identifiers
    rw [handleEnvelope_malformed hid]
    refine iff_of_true (truthful_of_not_accepted hvalid ?_ rfl ?_) ?_
    · simp [createRejectedResponse]
    · exact fun key entry hentry _ => (purgeExpired_registry.mp hentry).1
    · intro clientId requestId command hid'
      rw [hid] at hid'
      cases hid'
  rcases hcached : (before.purgeExpired atTime).registry.get?
    (createRegistryKey clientId requestId) with _ | cached
  swap
  · -- a duplicate
    rw [handleEnvelope_cached hid hcached]
    refine iff_of_true (truthful_of_not_accepted hvalid ?_ rfl ?_) ?_
    · simp [toDuplicateResponse]
    · exact fun key entry hentry _ => (purgeExpired_registry.mp hentry).1
    · intro clientId' requestId' command hid' hnone
      obtain ⟨rfl, rfl⟩ := Prod.mk.inj (Except.ok.inj (hid.symm.trans hid'))
      rw [hcached] at hnone
      cases hnone
  rw [handleEnvelope_new hid hcached]
  rcases huse : (before.purgeExpired atTime).inUse requestId
    (createRegistryKey clientId requestId) with _ | _
  swap
  · -- another client has the request id pending
    obtain ⟨response, hstatus, heq⟩ :=
      handleNew_inUse huse options atTime nextExecutableStep envelope
    rw [heq]
    refine iff_of_true (truthful_of_not_accepted hvalid (by simp [hstatus]) rfl ?_) ?_
    · exact fun key entry hentry haccepted => registry_of_rejection hstatus hentry haccepted
    · intro clientId' requestId' command hid' _ huse'
      obtain ⟨rfl, rfl⟩ := Prod.mk.inj (Except.ok.inj (hid.symm.trans hid'))
      rw [huse] at huse'
      cases huse'
  rcases hpasses : admitCommand options.stringOf options.maxIdentifierLength requestId envelope
    with error | command
  · -- the command does not pass its checks
    obtain ⟨response, hstatus, heq⟩ := handleNew_refused huse hpasses atTime nextExecutableStep
    rw [heq]
    refine iff_of_true (truthful_of_not_accepted hvalid (by simp [hstatus]) rfl ?_) ?_
    · exact fun key entry hentry haccepted => registry_of_rejection hstatus hentry haccepted
    · intro clientId' requestId' command hid' _ _ hpasses'
      obtain ⟨rfl, rfl⟩ := Prod.mk.inj (Except.ok.inj (hid.symm.trans hid'))
      rw [hpasses] at hpasses'
      cases hpasses'
  -- the command goes to the queue, and the answer is "accepted" in any case
  have heq := handleNew_admitted (createRegistryKey clientId requestId) huse hclones hpasses atTime
    nextExecutableStep
  have hpayload := hclones _ (admitCommand_isJson hpasses)
  have hplaced := CommandQueue.enqueue_placed_iff hvalid
    (stampedCommand command requestId
      (resolveServerStep (some (.fin command.step)) nextExecutableStep)) hpayload
  have htakes : QueueTakes options atTime envelope before ↔
      authorizeCommand (stampedCommand command requestId (.fin command.step)) = true ∧
        before.commandQueue.RoomFor command.priority := by
    constructor
    · intro h
      exact h clientId requestId command hid hcached huse hpasses
    · intro h clientId' requestId' command' hid' _ _ hpasses'
      obtain ⟨rfl, rfl⟩ := Prod.mk.inj (Except.ok.inj (hid.symm.trans hid'))
      obtain rfl := Except.ok.inj (hpasses.symm.trans hpasses')
      exact h
  rw [heq, htakes]
  refine Iff.trans ⟨fun h => ?_, fun h => ⟨iff_of_true ⟨_, rfl, rfl⟩ h, fun hnot => absurd h hnot⟩⟩
    hplaced
  exact h.answer.mp ⟨_, rfl, rfl⟩

/-! ### Runs -/

theorem settleOutcomes_commandQueue (expiresAt : ℚ) (outcomes : List CommandExecutionOutcome)
    (server : TransportServer) :
    (settleOutcomes expiresAt outcomes server).2.commandQueue = server.commandQueue :=
  settleOutcomes_induct (P := fun _ after => after.commandQueue = server.commandQueue)
    (fun _ _ _ _ _ h _ => h) outcomes [] server rfl

/-- **Step lemma.** Every call keeps the queue well formed, if the runtime does. -/
theorem exchange_queue_valid (hclones : options.ClonesJson) {call : TransportCall}
    {server : TransportServer} (hvalid : server.commandQueue.Valid)
    (hruntime : ∀ commandQueue, call.action = .runtime commandQueue → commandQueue.Valid) :
    (server.exchange options call).after.commandQueue.Valid := by
  rcases hpair : call.pair? options with _ | pair
  · obtain ⟨atTime, action⟩ := call
    rcases action with ⟨nextExecutableStep, envelope⟩ | outcomes | _ | commandQueue
    · rcases hid : identify options envelope with refusal | found
      · have heq := handleEnvelope_malformed hid atTime nextExecutableStep server
        have hafter : (server.exchange options
            ⟨atTime, .handleEnvelope nextExecutableStep envelope⟩).after =
              server.purgeExpired atTime := by
          simp [exchange, perform, heq]
        rw [hafter]
        exact hvalid
      · simp [TransportCall.pair?, hid, Except.toOption] at hpair
    · change (settleOutcomes _ outcomes _).2.commandQueue.Valid
      rw [settleOutcomes_commandQueue]
      exact hvalid
    · exact hvalid
    · exact hruntime commandQueue rfl
  · rcases hcached : (server.purgeExpired call.atTime).registry.get?
      (createRegistryKey pair.1 pair.2) with _ | cached
    · obtain ⟨response, -, -, hnew⟩ := exchange_of_new hclones hpair hcached
      rcases hnew.queue with hqueue | ⟨command, -, hqueue⟩
      · rw [hqueue]
        exact hvalid
      · rw [hqueue]
        exact CommandQueue.Valid.enqueue hvalid _ command
    · obtain ⟨-, -, hafter⟩ := exchange_of_cached hpair hcached
      rw [hafter]
      exact hvalid

/-- **Acceptance.** In every run, on every well-formed queue, a delivery is answered truthfully if
and only if the queue takes the command of an envelope that gets that far: the command is authorized
for its lane and there is room for it. -/
theorem transport_accepts_truthfully_iff (hclones : options.ClonesJson) :
    ∀ (calls : List TransportCall) (server : TransportServer), server.commandQueue.Valid →
      (∀ call ∈ calls, ∀ commandQueue, call.action = .runtime commandQueue → commandQueue.Valid) →
      ∀ exchange ∈ exchanges options calls server, ∀ nextExecutableStep envelope result,
        exchange.call.action = .handleEnvelope nextExecutableStep envelope →
        exchange.reply = .response result →
        (Truthful exchange.before (result, exchange.after) ↔
          QueueTakes options exchange.call.atTime envelope exchange.before) := by
  intro calls
  induction calls with
  | nil => simp [exchanges]
  | cons call calls ih =>
    intro server hvalid hruntime exchange hmem nextExecutableStep envelope result haction hreply
    rcases List.mem_cons.mp hmem with rfl | hmem
    · have hperform : server.perform options call =
          (.response (server.handleEnvelope options call.atTime nextExecutableStep envelope).1,
            (server.handleEnvelope options call.atTime nextExecutableStep envelope).2) := by
        change call.action = _ at haction
        simp [perform, haction]
      have hresult : result =
          (server.handleEnvelope options call.atTime nextExecutableStep envelope).1 := by
        change (server.perform options call).1 = _ at hreply
        rw [hperform] at hreply
        exact (TransportReply.response.inj hreply).symm
      have hafter : (server.exchange options call).after =
          (server.handleEnvelope options call.atTime nextExecutableStep envelope).2 := by
        change (server.perform options call).2 = _
        rw [hperform]
      rw [hresult, hafter]
      exact handleEnvelope_truthful_iff hclones hvalid call.atTime nextExecutableStep envelope
    · have hnext := exchange_queue_valid hclones hvalid (hruntime call (by simp))
      exact ih _ hnext (fun c hc => hruntime c (List.mem_cons_of_mem _ hc)) exchange hmem
        nextExecutableStep envelope result haction hreply

/-- A player's command on an empty queue: the queue takes it, and the answer is true. -/
theorem transport_accepts_truthfully_sample :
    let server := create (CommandQueue.empty 10 (by decide))
    let call : TransportCall :=
      ⟨0, .handleEnvelope none (sampleEnvelope "client-1" "req-1" "TEST")⟩
    let result := server.handleEnvelope sampleOptions 0 none
      (sampleEnvelope "client-1" "req-1" "TEST")
    (Truthful server (result.1, (server.exchange sampleOptions call).after) ↔
        QueueTakes sampleOptions 0 (sampleEnvelope "client-1" "req-1" "TEST") server) ∧
      result.1.toOption.map (·.status) = some .accepted ∧ result.2.commandQueue.size = 1 := by
  intro server call result
  refine ⟨?_, by decide +kernel, by decide +kernel⟩
  exact transport_accepts_truthfully_iff (fun _ _ => rfl) [call] server
    (CommandQueue.valid_empty 10 (by decide)) (by simp [call])
    (server.exchange sampleOptions call) (by simp [exchanges]) none _ result.1 rfl rfl

/-- A migration sent by a player is refused by the queue and answered "accepted", now and, as the
record says, for every retry. So is a player's command when the queue is full of system commands. -/
theorem transport_accepts_unplaced :
    let empty := create (CommandQueue.empty 10 (by decide))
    let migration := sampleEnvelope "client-1" "req-1" "APPLY_MIGRATION"
    let full := create ((CommandQueue.empty 1 (by decide)).enqueue .ok
      { type := "TEST", priority := .system, payload := .null, timestamp := 0, step := .fin 0,
        requestId := none }).2
    let command := sampleEnvelope "client-1" "req-1" "TEST"
    let refused := empty.handleEnvelope sampleOptions 0 none migration
    let crowded := full.handleEnvelope sampleOptions 0 none command
    (refused.1.toOption.map (·.status) = some .accepted ∧ refused.2.commandQueue.size = 0 ∧
        (refused.2.handleEnvelope sampleOptions 1 none migration).1.toOption.map
          (fun response => (response.status, response.error.isSome)) = some (.duplicate, false)) ∧
      crowded.1.toOption.map (·.status) = some .accepted ∧
        crowded.2.commandQueue.queued.map (·.command.type) = ["TEST"] ∧
        crowded.2.commandQueue.queued.map (·.command.priority) = [.system] := by
  decide +kernel

end TransportServer

end IdleEngine
