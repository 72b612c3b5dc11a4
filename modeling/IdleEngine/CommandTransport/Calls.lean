import IdleEngine.CommandTransport.Server

/-!
# Calls to the transport server

A run is a list of calls with their clock readings, from any number of clients; between the calls
the runtime may do anything to the command queue. Every call leaves an **exchange**: the call, the
server before and after it, and the reply. What an exchange records is what it adds to the
registry, the responses with their keys.

The module says once what each call can do. A new pair gets exactly one record
(`TransportServer.handleNew_spec`), settling outcomes records exactly what it returns
(`TransportServer.settleOutcomes_induct`).
-/

namespace IdleEngine

open JsValue Except

/-! ### Calls and exchanges -/

/-- What a call asks for. `runtime` stands for all the runtime does to the queue between two calls
to the server. -/
inductive TransportAction
  | handleEnvelope (nextExecutableStep : Option JsNumber) (envelope : JsValue)
  | drainOutcomeResponses (outcomes : List CommandExecutionOutcome)
  | purgeExpired
  | runtime (commandQueue : CommandQueue JsValue)

/-- A call, with the clock reading of the moment. -/
structure TransportCall where
  atTime : ℚ
  action : TransportAction

/-- What a call returns; a drain returns responses, here with the keys they are recorded under. -/
inductive TransportReply
  | response (result : Except String CommandResponse)
  | settled (responses : List (String × CommandResponse))
  | silent

namespace TransportServer

/-- One call. -/
def perform (options : TransportOptions) (call : TransportCall) (server : TransportServer) :
    TransportReply × TransportServer :=
  match call.action with
  | .handleEnvelope nextExecutableStep envelope =>
      let (result, server) :=
        server.handleEnvelope options call.atTime nextExecutableStep envelope
      (.response result, server)
  | .drainOutcomeResponses outcomes =>
      let (responses, server) := server.drainOutcomeResponses options call.atTime outcomes
      (.settled responses, server)
  | .purgeExpired => (.silent, server.purgeExpired call.atTime)
  | .runtime commandQueue => (.silent, { server with commandQueue })

end TransportServer

/-- A call that was made, with the server around it. -/
structure TransportExchange where
  call : TransportCall
  before : TransportServer
  reply : TransportReply
  after : TransportServer

/-- The exchange of one call. -/
def TransportServer.exchange (options : TransportOptions) (call : TransportCall)
    (server : TransportServer) : TransportExchange :=
  { call
    before := server
    reply := (server.perform options call).1
    after := (server.perform options call).2 }

/-- The exchanges of a run. -/
def TransportServer.exchanges (options : TransportOptions) :
    List TransportCall → TransportServer → List TransportExchange
  | [], _ => []
  | call :: calls, server =>
      server.exchange options call :: exchanges options calls (server.perform options call).2

namespace TransportCall

/-- The client and the request of the envelope that a call delivers, if both identifiers pass their
checks. -/
def pair? (options : TransportOptions) (call : TransportCall) : Option (String × String) :=
  match call.action with
  | .handleEnvelope _ envelope => (TransportServer.identify options envelope).toOption
  | _ => none

end TransportCall

namespace TransportExchange

/-- What an exchange adds to the registry. A duplicate is answered from the registry and adds
nothing. -/
def records (options : TransportOptions) (exchange : TransportExchange) :
    List (String × CommandResponse) :=
  match exchange.reply, exchange.call.pair? options with
  | .response (.ok response), some (clientId, requestId) =>
      if response.status = .duplicate then []
      else [(createRegistryKey clientId requestId, response)]
  | .settled responses, _ => responses
  | _, _ => []

end TransportExchange

/-- The last response recorded under a key. -/
def lastRecord (key : String) (records : List (String × CommandResponse)) :
    Option CommandResponse :=
  records.foldl (fun held record => if record.1 = key then some record.2 else held) none

theorem lastRecord_append_singleton (key : String) (records : List (String × CommandResponse))
    (record : String × CommandResponse) :
    lastRecord key (records ++ [record]) =
      if record.1 = key then some record.2 else lastRecord key records := by
  simp [lastRecord]

/-! ### Samples -/

/-- An envelope with a player's command that passes every check if its identifiers do. -/
def sampleEnvelope (clientId requestId type : String) : JsValue :=
  record [("requestId", string requestId), ("clientId", string clientId), ("sentAt", number (.fin 100)),
    ("command", record [("type", string type), ("priority", number (.fin 1)),
      ("timestamp", number (.fin 100)), ("step", number (.fin 0)), ("payload", record [])])]

/-- A server that is set up with the defaults. -/
def sampleOptions : TransportOptions := TransportOptions.create none none .ok fun _ => ""

/-! ### What enqueueing an admitted command does -/

/-- What is documented of the platform's structured clone: it copies the values of JSON. -/
def TransportOptions.ClonesJson (options : TransportOptions) : Prop :=
  ∀ value, IsJson value → options.cloneStructured value = .ok value

variable {stringOf : JsValue → String} {requestId : String} {maxIdentifierLength : ℚ}
  {command : SerializedCommand}

theorem normalizeSerializedCommand_isJson {value : JsValue}
    (h : normalizeSerializedCommand stringOf value requestId maxIdentifierLength = .ok command) :
    IsJson command.payload := by
  unfold normalizeSerializedCommand at h
  simp only [bind, bind, pure, pure, throw, throwThe, MonadExceptOf.throw] at h
  split at h
  · cases h
  split at h
  swap
  · cases h
  split at h
  swap
  · cases h
  split at h
  swap
  · cases h
  split at h
  swap
  · cases h
  split at h
  · cases h
  next hclone =>
  have hjson := cloneJsonValueInner_isJson hclone
  -- the request id of the command does not touch the payload
  split at h
  · obtain rfl := ok.inj h
    exact hjson
  · split at h
    · cases h
    · obtain rfl := ok.inj h
      exact hjson

theorem admitCommand_isJson {envelope : JsValue}
    (h : admitCommand stringOf maxIdentifierLength requestId envelope = .ok command) :
    IsJson command.payload := by
  unfold admitCommand at h
  simp only [bind, Except.bind, pure, Except.pure, throw, throwThe, MonadExceptOf.throw] at h
  split at h
  · cases h
  split at h
  · cases h
  next admitted hadmitted =>
  split at h
  · cases h
  · obtain rfl := Except.ok.inj h
    exact normalizeSerializedCommand_isJson hadmitted

theorem CommandQueue.enqueue_ok {cloneStructured : JsValue → Except String JsValue}
    (q : CommandQueue JsValue) (command : Command JsValue) {payload : JsValue}
    (hclone : cloneStructured command.payload = .ok payload) :
    ∃ placed, (q.enqueue cloneStructured command).1 = .ok placed := by
  unfold CommandQueue.enqueue
  split
  · exact ⟨false, rfl⟩
  · rcases q.makeRoom command.priority with _ | ⟨dropped, roomy⟩
    · exact ⟨false, rfl⟩
    · exact ⟨true, by simp [hclone]⟩

namespace TransportServer

/-! ### What each call can do -/

variable {server : TransportServer} {requestId : String}

variable {key : String}

theorem handleNew_inUse (h : server.inUse requestId key = true) (options : TransportOptions)
    (atTime : ℚ) (nextExecutableStep : Option JsNumber) (envelope : JsValue) :
    ∃ response, response.status = .rejected ∧
      server.handleNew options atTime nextExecutableStep key requestId envelope =
        (.ok response,
          server.recordResponse key response (atTime + options.idempotencyTtlMs)) :=
  ⟨_, rfl, by rw [handleNew, if_pos h]⟩

variable {options : TransportOptions} {envelope : JsValue}

theorem handleNew_refused (h : server.inUse requestId key = false) {error : CommandResponseError}
    (hpasses : admitCommand options.stringOf options.maxIdentifierLength requestId envelope =
      .error error) (atTime : ℚ) (nextExecutableStep : Option JsNumber) :
    ∃ response, response.status = .rejected ∧
      server.handleNew options atTime nextExecutableStep key requestId envelope =
        (.ok response,
          (server.recordResponse key response (atTime + options.idempotencyTtlMs)).setPending
            requestId key (atTime + options.idempotencyTtlMs)) :=
  ⟨_, rfl, by rw [handleNew, if_neg (by simp [h]), hpasses]; rfl⟩

theorem handleNew_admitted (key : String) (h : server.inUse requestId key = false)
    (hclones : options.ClonesJson) {command : SerializedCommand}
    (hpasses : admitCommand options.stringOf options.maxIdentifierLength requestId envelope =
      .ok command) (atTime : ℚ) (nextExecutableStep : Option JsNumber) :
    let serverStep := resolveServerStep (some (.fin command.step)) nextExecutableStep
    let response := createAcceptedResponse requestId serverStep
    server.handleNew options atTime nextExecutableStep key requestId envelope =
      (.ok response,
        (({ server with
            commandQueue := (server.commandQueue.enqueue options.cloneStructured
              (stampedCommand command requestId serverStep)).2 }).recordResponse key response
                (atTime + options.idempotencyTtlMs)).setPending requestId key
                  (atTime + options.idempotencyTtlMs)) := by
  intro serverStep response
  have hpayload := hclones _ (admitCommand_isJson hpasses)
  obtain ⟨placed, hplaced⟩ := server.commandQueue.enqueue_ok
    (stampedCommand command requestId serverStep) hpayload
  rw [handleNew, if_neg (by simp [h]), hpasses]
  simp only [acceptCommand]
  split
  · next message _ henqueue =>
    rw [henqueue] at hplaced
    cases hplaced
  · next _ henqueue =>
    rw [henqueue]

/-- What the call for a new pair leaves behind: one record, and at most one command queued. -/
structure AnswersNew (options : TransportOptions) (atTime : ℚ) (key requestId : String)
    (before : TransportServer) (response : CommandResponse) (after : TransportServer) : Prop where
  status : response.status ≠ .duplicate
  registry : after.registry =
    before.registry.set key { response, expiresAt := atTime + options.idempotencyTtlMs }
  pending : (after.pendingKeys = before.pendingKeys ∧ before.inUse requestId key = true) ∨
    (after.pendingKeys = before.pendingKeys.set requestId
      { key, expiresAt := atTime + options.idempotencyTtlMs } ∧ before.inUse requestId key = false)
  queue : after.commandQueue = before.commandQueue ∨
    ∃ command : Command JsValue, command.requestId = some requestId ∧
      after.commandQueue = (before.commandQueue.enqueue options.cloneStructured command).2

/-- **One record for a new pair.** -/
theorem handleNew_spec (hclones : options.ClonesJson) (atTime : ℚ)
    (nextExecutableStep : Option JsNumber) (key requestId : String) (envelope : JsValue)
    (server : TransportServer) :
    ∃ response after,
      server.handleNew options atTime nextExecutableStep key requestId envelope =
        (.ok response, after) ∧
      AnswersNew options atTime key requestId server response after := by
  rcases huse : server.inUse requestId key with _ | _
  · rcases hpasses : admitCommand options.stringOf options.maxIdentifierLength requestId envelope
      with error | command
    · obtain ⟨response, hstatus, heq⟩ := handleNew_refused huse hpasses atTime nextExecutableStep
      exact ⟨response, _, heq, by simp [hstatus], rfl, .inr ⟨rfl, huse⟩, .inl rfl⟩
    · have heq := handleNew_admitted key huse hclones hpasses atTime nextExecutableStep
      refine ⟨_, _, heq, by simp [createAcceptedResponse], rfl, .inr ⟨rfl, huse⟩, .inr ⟨_, ?_, rfl⟩⟩
      rfl
  · obtain ⟨response, hstatus, heq⟩ :=
      handleNew_inUse huse options atTime nextExecutableStep envelope
    exact ⟨response, _, heq, by simp [hstatus], rfl, .inl ⟨rfl, huse⟩, .inl rfl⟩

/-- An envelope whose identifiers do not pass is turned away. -/
theorem handleEnvelope_malformed {refusal : String × CommandResponseError}
    (h : identify options envelope = .error refusal) (atTime : ℚ)
    (nextExecutableStep : Option JsNumber) (server : TransportServer) :
    server.handleEnvelope options atTime nextExecutableStep envelope =
      (.ok (createRejectedResponse refusal.1 (resolveServerStep none nextExecutableStep) refusal.2),
        server.purgeExpired atTime) := by
  simp only [handleEnvelope, h]

variable {clientId : String} {atTime : ℚ} {cached : RegistryEntry}

/-- A pair with a live record is answered from it, and nothing changes. -/
theorem handleEnvelope_cached (h : identify options envelope = .ok (clientId, requestId))
    (hcached : (server.purgeExpired atTime).registry.get? (createRegistryKey clientId requestId) =
      some cached) (nextExecutableStep : Option JsNumber) :
    server.handleEnvelope options atTime nextExecutableStep envelope =
      (.ok (toDuplicateResponse cached.response), server.purgeExpired atTime) := by
  simp only [handleEnvelope, h, hcached]

theorem handleEnvelope_new (h : identify options envelope = .ok (clientId, requestId))
    (hnew : (server.purgeExpired atTime).registry.get? (createRegistryKey clientId requestId) =
      none) (nextExecutableStep : Option JsNumber) :
    server.handleEnvelope options atTime nextExecutableStep envelope =
      (server.purgeExpired atTime).handleNew options atTime nextExecutableStep
        (createRegistryKey clientId requestId) requestId envelope := by
  simp only [handleEnvelope, h, hnew]

/-- What settling one outcome can do: nothing, or record the response under the key that waits and
forget that it waits. -/
theorem settleOutcome_cases (expiresAt : ℚ) (server : TransportServer)
    (outcome : CommandExecutionOutcome) :
    server.settleOutcome expiresAt outcome = (none, server) ∨
      ∃ requestId pending, outcome.requestId = some requestId ∧
        server.pendingKeys.get? requestId = some pending ∧
        server.settleOutcome expiresAt outcome =
          (some (pending.key, outcomeResponse requestId outcome),
            { server with
              registry := server.registry.set pending.key
                { response := outcomeResponse requestId outcome, expiresAt }
              pendingKeys := server.pendingKeys.erase requestId }) := by
  unfold settleOutcome
  split
  · exact .inl rfl
  · next requestId hrequest =>
    have hid : outcome.requestId = some requestId := (Option.filter_eq_some_iff.mp hrequest).1
    split
    · exact .inl rfl
    · next pending hpending =>
      exact .inr ⟨requestId, pending, hid, hpending, rfl⟩

/-- **Induction over a drain**: what recording one response keeps, the drain keeps, with the
responses it returns appended to the records so far. -/
theorem settleOutcomes_induct {P : List (String × CommandResponse) → TransportServer → Prop}
    {expiresAt : ℚ}
    (hstep : ∀ records server outcome requestId pending, P records server →
      server.pendingKeys.get? requestId = some pending →
      P (records ++ [(pending.key, outcomeResponse requestId outcome)])
        { server with
          registry := server.registry.set pending.key
            { response := outcomeResponse requestId outcome, expiresAt }
          pendingKeys := server.pendingKeys.erase requestId }) :
    ∀ (outcomes : List CommandExecutionOutcome) (records : List (String × CommandResponse))
      (server : TransportServer), P records server →
      P (records ++ (settleOutcomes expiresAt outcomes server).1)
        (settleOutcomes expiresAt outcomes server).2
  | [], records, server, h => by simpa [settleOutcomes] using h
  | outcome :: outcomes, records, server, h => by
    rcases settleOutcome_cases expiresAt server outcome with
      heq | ⟨requestId, pending, -, hpending, heq⟩
    · simpa [settleOutcomes, heq] using settleOutcomes_induct hstep outcomes records server h
    · have hnext := hstep records server outcome requestId pending h hpending
      have hrest := settleOutcomes_induct hstep outcomes _ _ hnext
      simpa [settleOutcomes, heq] using hrest

variable {call : TransportCall} {pair : String × String}

theorem identify_of_pair? (h : call.pair? options = some pair) :
    ∃ nextExecutableStep envelope, call = ⟨call.atTime, .handleEnvelope nextExecutableStep envelope⟩ ∧
      identify options envelope = .ok pair := by
  obtain ⟨atTime, action⟩ := call
  rcases action with ⟨nextExecutableStep, envelope⟩ | outcomes | _ | commandQueue
  · refine ⟨nextExecutableStep, envelope, rfl, ?_⟩
    rcases hid : identify options envelope with refusal | found
    · simp [TransportCall.pair?, hid, Except.toOption] at h
    · simp only [TransportCall.pair?, hid, Except.toOption, Option.some.injEq] at h
      rw [h]
  · cases h
  · cases h
  · cases h

/-- **A repeated pair.** While its record lives, a pair is answered from it, and nothing but what
expired changes. -/
theorem exchange_of_cached (h : call.pair? options = some pair)
    (hcached : (server.purgeExpired call.atTime).registry.get?
      (createRegistryKey pair.1 pair.2) = some cached) :
    (server.exchange options call).reply =
        .response (.ok (toDuplicateResponse cached.response)) ∧
      (server.exchange options call).records options = [] ∧
      (server.exchange options call).after = server.purgeExpired call.atTime := by
  obtain ⟨nextExecutableStep, envelope, hcall, hid⟩ := identify_of_pair? h
  have heq := handleEnvelope_cached hid hcached nextExecutableStep
  have hperform : server.perform options call =
      (.response (.ok (toDuplicateResponse cached.response)), server.purgeExpired call.atTime) := by
    rw [hcall]
    simp [perform, heq]
  refine ⟨by simp [exchange, hperform], ?_, by simp [exchange, hperform]⟩
  simp [TransportExchange.records, exchange, hperform, h, toDuplicateResponse]

/-- **A new pair.** Without a live record, a pair is answered afresh and recorded. -/
theorem exchange_of_new (hclones : options.ClonesJson) (h : call.pair? options = some pair)
    (hnew : (server.purgeExpired call.atTime).registry.get?
      (createRegistryKey pair.1 pair.2) = none) :
    ∃ response, (server.exchange options call).reply = .response (.ok response) ∧
      (server.exchange options call).records options =
        [(createRegistryKey pair.1 pair.2, response)] ∧
      AnswersNew options call.atTime (createRegistryKey pair.1 pair.2) pair.2
        (server.purgeExpired call.atTime) response (server.exchange options call).after := by
  obtain ⟨nextExecutableStep, envelope, hcall, hid⟩ := identify_of_pair? h
  obtain ⟨response, after, hanswer, hspec⟩ := handleNew_spec hclones call.atTime nextExecutableStep
    (createRegistryKey pair.1 pair.2) pair.2 envelope (server.purgeExpired call.atTime)
  have heq := (handleEnvelope_new hid hnew nextExecutableStep).trans hanswer
  have hperform : server.perform options call = (.response (.ok response), after) := by
    rw [hcall]
    simp [perform, heq]
  refine ⟨response, by simp [exchange, hperform], ?_, by simpa [exchange, hperform] using hspec⟩
  simp [TransportExchange.records, exchange, hperform, h, hspec.status]

/-- **What an exchange can be**: one that records nothing and at most drops what expired, the answer
to a new pair, or a drain. -/
theorem exchange_cases (hclones : options.ClonesJson) (call : TransportCall)
    (server : TransportServer) :
    ((server.exchange options call).records options = [] ∧
        ((server.exchange options call).after = server.purgeExpired call.atTime ∨
          call.pair? options = none ∧
            ∃ commandQueue, (server.exchange options call).after = { server with commandQueue })) ∨
      (∃ pair response, call.pair? options = some pair ∧
        (server.exchange options call).records options =
          [(createRegistryKey pair.1 pair.2, response)] ∧
        AnswersNew options call.atTime (createRegistryKey pair.1 pair.2) pair.2
          (server.purgeExpired call.atTime) response (server.exchange options call).after) ∨
      ∃ outcomes, call.pair? options = none ∧
        (server.exchange options call).records options =
          (settleOutcomes (call.atTime + options.idempotencyTtlMs) outcomes
            (server.purgeExpired call.atTime)).1 ∧
        (server.exchange options call).after =
          (settleOutcomes (call.atTime + options.idempotencyTtlMs) outcomes
            (server.purgeExpired call.atTime)).2 := by
  rcases hpair : call.pair? options with _ | pair
  · obtain ⟨atTime, action⟩ := call
    rcases action with ⟨nextExecutableStep, envelope⟩ | outcomes | _ | commandQueue
    · -- no pair: the identifiers do not pass
      rcases hid : identify options envelope with refusal | found
      · have heq := handleEnvelope_malformed hid atTime nextExecutableStep server
        refine .inl ⟨?_, .inl ?_⟩
        · simp [TransportExchange.records, exchange, perform, heq, TransportCall.pair?, hid,
            Except.toOption]
        · simp [exchange, perform, heq]
      · simp [TransportCall.pair?, hid, Except.toOption] at hpair
    · exact .inr (.inr ⟨outcomes, rfl, rfl, rfl⟩)
    · exact .inl ⟨rfl, .inl rfl⟩
    · exact .inl ⟨rfl, .inr ⟨rfl, commandQueue, rfl⟩⟩
  · rcases hcached : (server.purgeExpired call.atTime).registry.get?
      (createRegistryKey pair.1 pair.2) with _ | cached
    · obtain ⟨response, _, hrecords, hnew⟩ := exchange_of_new hclones hpair hcached
      exact .inr (.inl ⟨pair, response, rfl, hrecords, hnew⟩)
    · obtain ⟨_, hrecords, hafter⟩ := exchange_of_cached hpair hcached
      exact .inl ⟨hrecords, .inl hafter⟩

end TransportServer

end IdleEngine
