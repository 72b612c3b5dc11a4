import IdleEngine.Lib.JsonText
import IdleEngine.Command.Persistence

/-!
# The command transport server

Clients send commands in envelopes, and send them again when no answer comes. The server keeps two
maps. The **registry** holds the last response for every pair of client and request, under the JSON
text of the pair, until the response expires. The **pending map** holds, per request id alone, the
registry key that waits for an outcome. Both are purged at the start of every call, by the clock
reading of that call.

`handleEnvelope` validates the identifiers, answers from the registry, refuses a request id that
another client has pending, validates the command, queues it and records the answer.
`drainOutcomeResponses` records the outcomes of executed commands under the keys that wait for
them. What the callbacks of the server return (the next executable step, the drained outcomes, the
clock) is given with each call.
-/

namespace IdleEngine

open JsValue

/-! ### Responses -/

/-- `CommandResponseError`. -/
structure CommandResponseError where
  code : String
  message : String
  details : Option JsValue

inductive ResponseStatus
  | accepted
  | rejected
  | duplicate
  deriving DecidableEq, Repr

/-- `CommandResponse`. -/
structure CommandResponse where
  requestId : String
  status : ResponseStatus
  serverStep : JsNumber
  error : Option CommandResponseError

/-- A value that `if` takes for true. -/
def JsValue.isTruthy : JsValue → Bool
  | undefined => false
  | null => false
  | .bool value => value
  | number value => decide (value ≠ .fin 0 ∧ value ≠ .nan)
  | string value => decide (value ≠ "")
  | array _ => true
  | object _ _ => true
  | foreign _ => true

/-- `createResponseError`: details that are falsy are left out. -/
def createResponseError (code message : String) (details : Option JsValue) :
    CommandResponseError :=
  { code, message, details := details.filter JsValue.isTruthy }

def createAcceptedResponse (requestId : String) (serverStep : JsNumber) : CommandResponse :=
  { requestId, status := .accepted, serverStep, error := none }

def createRejectedResponse (requestId : String) (serverStep : JsNumber)
    (error : CommandResponseError) : CommandResponse :=
  { requestId, status := .rejected, serverStep, error := some error }

def toDuplicateResponse (cached : CommandResponse) : CommandResponse :=
  { requestId := cached.requestId
    status := .duplicate
    serverStep := cached.serverStep
    error := cached.error }

/-- `CommandError`, as a handler reports it. -/
structure CommandError where
  code : String
  message : String
  details : Option JsValue

/-- `toResponseError`: details that JSON cannot carry are left out. -/
def toResponseError (error : CommandError) : CommandResponseError :=
  createResponseError error.code error.message
    (error.details.bind fun details => (cloneJsonValue details).toOption)

/-! ### Identifiers and steps -/

/-- An option that has to be a positive finite number, rounded down, or else its default. -/
def normalizeLimit (default : ℚ) (value : Option JsNumber) : ℚ :=
  match value.bind JsNumber.finite? with
  | none => default
  | some value => if value ≤ 0 then default else ⌊value⌋

/-- `DEFAULT_IDEMPOTENCY_TTL_MS`. -/
def defaultIdempotencyTtlMs : ℚ := 5 * 60 * 1000

/-- `DEFAULT_MAX_IDENTIFIER_LENGTH`. -/
def defaultMaxIdentifierLength : ℚ := 128

def normalizeTtl (value : Option JsNumber) : ℚ := normalizeLimit defaultIdempotencyTtlMs value

def normalizeMaxIdentifierLength (value : Option JsNumber) : ℚ :=
  normalizeLimit defaultMaxIdentifierLength value

/-- The length of a text in UTF-16 code units. -/
def utf16Length (value : String) : ℕ :=
  (value.toList.map fun c => if c.toNat < 0x10000 then 1 else 2).sum

/-- `normalizeIdentifier`. -/
def normalizeIdentifier (value : JsValue) (maxLength : ℚ) : Except CommandResponseError String :=
  match value.string? with
  | none =>
      .error (createResponseError "INVALID_IDENTIFIER" "Identifier must be a string." none)
  | some value =>
      if isNonBlankString value = false then
        .error (createResponseError "INVALID_IDENTIFIER"
          "Identifier must be a non-empty string." none)
      else
        let trimmed := trim value
        if maxLength < (utf16Length trimmed : ℚ) then
          .error (createResponseError "IDENTIFIER_TOO_LONG"
            "Identifier exceeds the maximum length."
            (some (record [("maxLength", number (.fin maxLength)),
              ("length", number (.fin (utf16Length trimmed)))])))
        else if trimmed ≠ value then
          .error (createResponseError "INVALID_IDENTIFIER_FORMAT"
            "Identifier must not include leading or trailing whitespace." none)
        else .ok value

/-- `isNonNegativeInteger`, with the integer. -/
def nonNegativeInteger? (value : JsNumber) : Option ℚ :=
  value.finite?.filter fun value => decide (value.den = 1 ∧ 0 ≤ value)

/-- `resolveServerStep`: the runtime's next executable step if it is a step, else the fallback. -/
def resolveServerStep (fallbackStep : Option JsNumber) (nextExecutableStep : Option JsNumber) :
    JsNumber :=
  match nextExecutableStep.bind nonNegativeInteger? with
  | some step => .fin step
  | none =>
      match fallbackStep.bind nonNegativeInteger? with
      | some step => .fin step
      | none => .fin 0

/-- `createRegistryKey`: the JSON text of the pair. -/
def createRegistryKey (clientId requestId : String) : String :=
  JsonText.stringifyPair clientId requestId

/-! ### Commands in envelopes -/

/-- `SerializedCommand`, after the checks. -/
structure SerializedCommand where
  type : String
  priority : CommandPriority
  timestamp : ℚ
  step : ℚ
  payload : JsValue
  requestId : String

/-- `normalizeSerializedCommand`; `stringOf` is the text `String` makes of a value. -/
def normalizeSerializedCommand (stringOf : JsValue → String) (value : JsValue) (requestId : String)
    (maxIdentifierLength : ℚ) : Except CommandResponseError SerializedCommand := do
  if value.isRecord = false then
    throw (createResponseError "INVALID_COMMAND" "Command payload must be an object." none)
  let some type := (value.get "type").string?.filter isNonBlankString
    | throw (createResponseError "INVALID_COMMAND_TYPE"
        "Command type must be a non-empty string." none)
  let some priority := (value.get "priority").finite?.bind CommandPriority.ofNumber?
    | throw (createResponseError "INVALID_COMMAND_PRIORITY" "Command priority is invalid."
        (some (record [("priority",
          match (value.get "priority").finite? with
          | some priority => number (.fin priority)
          | none => string (stringOf (value.get "priority")))])))
  let some timestamp := (value.get "timestamp").finite?
    | throw (createResponseError "INVALID_COMMAND_TIMESTAMP"
        "Command timestamp must be a finite number." none)
  let some step := (value.get "step").number?.bind nonNegativeInteger?
    | throw (createResponseError "INVALID_COMMAND_STEP"
        "Command step must be a non-negative integer." none)
  match cloneJsonValue (value.get "payload") with
  | .error message => throw (createResponseError "INVALID_COMMAND_PAYLOAD" message none)
  | .ok payload =>
      match value.get "requestId" with
      | undefined => return { type, priority, timestamp, step, payload, requestId }
      | commandRequestId =>
          match normalizeIdentifier commandRequestId maxIdentifierLength with
          | .error _ =>
              throw (createResponseError "INVALID_COMMAND_REQUEST_ID"
                "Command requestId is invalid." none)
          | .ok commandRequestId =>
              return { type, priority, timestamp, step, payload, requestId := commandRequestId }

/-- The checks of `handleEnvelope` on what the envelope carries besides its identifiers. -/
def admitCommand (stringOf : JsValue → String) (maxIdentifierLength : ℚ) (requestId : String)
    (envelope : JsValue) : Except CommandResponseError SerializedCommand := do
  if (envelope.get "sentAt").finite?.isNone then
    throw (createResponseError "INVALID_SENT_AT" "Envelope sentAt must be a finite number." none)
  let command ← normalizeSerializedCommand stringOf (envelope.get "command") requestId
    maxIdentifierLength
  if command.requestId ≠ requestId then
    throw (createResponseError "REQUEST_ID_MISMATCH"
      "Command requestId does not match envelope requestId."
      (some (record [("commandRequestId", string command.requestId),
        ("envelopeRequestId", string requestId)])))
  return command

/-! ### The server -/

/-- An entry of `InMemoryIdempotencyRegistry`. -/
structure RegistryEntry where
  response : CommandResponse
  expiresAt : ℚ

/-- `PendingKeyEntry`. -/
structure PendingKeyEntry where
  key : String
  expiresAt : ℚ

/-- The options of the server after `createCommandTransportServer` has normalized them. -/
structure TransportOptions where
  idempotencyTtlMs : ℚ
  maxIdentifierLength : ℚ
  cloneStructured : JsValue → Except String JsValue
  stringOf : JsValue → String

/-- The options of a server. -/
def TransportOptions.create (idempotencyTtlMs maxIdentifierLength : Option JsNumber)
    (cloneStructured : JsValue → Except String JsValue) (stringOf : JsValue → String) :
    TransportOptions :=
  { idempotencyTtlMs := normalizeTtl idempotencyTtlMs
    maxIdentifierLength := normalizeMaxIdentifierLength maxIdentifierLength
    cloneStructured
    stringOf }

/-- What the server holds; the command queue is shared with the runtime. -/
structure TransportServer where
  registry : OrderedMap String RegistryEntry
  pendingKeys : OrderedMap String PendingKeyEntry
  commandQueue : CommandQueue JsValue

/-- `CommandExecutionOutcome`: without an error the command succeeded. -/
structure CommandExecutionOutcome where
  requestId : Option String
  serverStep : JsNumber
  error : Option CommandError

namespace TransportServer

/-- `createCommandTransportServer` on a queue. -/
def create (commandQueue : CommandQueue JsValue) : TransportServer :=
  { registry := .empty, pendingKeys := .empty, commandQueue }

/-- `registry.record`. -/
def recordResponse (server : TransportServer) (key : String) (response : CommandResponse)
    (expiresAt : ℚ) : TransportServer :=
  { server with registry := server.registry.set key { response, expiresAt } }

/-- `pendingKeys.set`. -/
def setPending (server : TransportServer) (requestId key : String) (expiresAt : ℚ) :
    TransportServer :=
  { server with pendingKeys := server.pendingKeys.set requestId { key, expiresAt } }

/-- `purgeExpired`, of the registry and of the pending map. -/
def purgeExpired (atTime : ℚ) (server : TransportServer) : TransportServer :=
  { server with
    registry := server.registry.filterValues fun entry => !decide (entry.expiresAt ≤ atTime)
    pendingKeys := server.pendingKeys.filterValues fun entry => !decide (entry.expiresAt ≤ atTime) }

/-- `recordRejectedResponse`. -/
def recordRejectedResponse (server : TransportServer) (key requestId : String)
    (serverStep : JsNumber) (error : CommandResponseError) (expiresAt : ℚ) :
    CommandResponse × TransportServer :=
  let response := createRejectedResponse requestId serverStep error
  (response, (server.recordResponse key response expiresAt).setPending requestId key expiresAt)

/-- The request id waits for the outcome of another key. -/
def inUse (server : TransportServer) (requestId key : String) : Bool :=
  (server.pendingKeys.get? requestId).any fun pending => decide (pending.key ≠ key)

/-- The command that is queued for an admitted envelope. -/
def stampedCommand (command : SerializedCommand) (requestId : String) (serverStep : JsNumber) :
    Command JsValue :=
  { type := command.type
    priority := command.priority
    payload := command.payload
    timestamp := ((command.timestamp : WithTop ℚ) : Timestamp)
    step := serverStep
    requestId := some requestId }

/-- The end of `handleEnvelope`: queue the command and record it as accepted. What `enqueue`
returns is not looked at. -/
def acceptCommand (options : TransportOptions) (atTime : ℚ) (nextExecutableStep : Option JsNumber)
    (key requestId : String) (command : SerializedCommand) (server : TransportServer) :
    Except String CommandResponse × TransportServer :=
  let serverStep := resolveServerStep (some (.fin command.step)) nextExecutableStep
  match server.commandQueue.enqueue options.cloneStructured
      (stampedCommand command requestId serverStep) with
  | (.error message, commandQueue) => (.error message, { server with commandQueue })
  | (.ok _, commandQueue) =>
      let response := createAcceptedResponse requestId serverStep
      let expiresAt := atTime + options.idempotencyTtlMs
      (.ok response,
        (({ server with commandQueue }).recordResponse key response expiresAt).setPending requestId
          key expiresAt)

/-- The part of `handleEnvelope` behind the lookup: the pair is new to the registry. -/
def handleNew (options : TransportOptions) (atTime : ℚ) (nextExecutableStep : Option JsNumber)
    (key requestId : String) (envelope : JsValue) (server : TransportServer) :
    Except String CommandResponse × TransportServer :=
  let expiresAt := atTime + options.idempotencyTtlMs
  let serverStep := resolveServerStep none nextExecutableStep
  if server.inUse requestId key then
    let response := createRejectedResponse requestId serverStep
      (createResponseError "REQUEST_ID_IN_USE"
        "Envelope requestId is already in use by another client." none)
    (.ok response, server.recordResponse key response expiresAt)
  else
    match admitCommand options.stringOf options.maxIdentifierLength requestId envelope with
    | .error error =>
        let (response, server) :=
          server.recordRejectedResponse key requestId serverStep error expiresAt
        (.ok response, server)
    | .ok command =>
        server.acceptCommand options atTime nextExecutableStep key requestId command

/-- The identifiers of an envelope, or the error and the request id to answer with. -/
def identify (options : TransportOptions) (envelope : JsValue) :
    Except (String × CommandResponseError) (String × String) :=
  match normalizeIdentifier (envelope.get "requestId") options.maxIdentifierLength with
  | .error error => .error (((envelope.get "requestId").string?).getD "", error)
  | .ok requestId =>
      match normalizeIdentifier (envelope.get "clientId") options.maxIdentifierLength with
      | .error error => .error (requestId, error)
      | .ok clientId => .ok (clientId, requestId)

/-- `handleEnvelope`; it throws only when `enqueue` does. -/
def handleEnvelope (options : TransportOptions) (atTime : ℚ)
    (nextExecutableStep : Option JsNumber) (envelope : JsValue) (server : TransportServer) :
    Except String CommandResponse × TransportServer :=
  let server := server.purgeExpired atTime
  match identify options envelope with
  | .error (requestId, error) =>
      (.ok (createRejectedResponse requestId (resolveServerStep none nextExecutableStep) error),
        server)
  | .ok (clientId, requestId) =>
      let key := createRegistryKey clientId requestId
      match server.registry.get? key with
      | some cached => (.ok (toDuplicateResponse cached.response), server)
      | none => server.handleNew options atTime nextExecutableStep key requestId envelope

/-- The response of an outcome. -/
def outcomeResponse (requestId : String) (outcome : CommandExecutionOutcome) : CommandResponse :=
  match outcome.error with
  | none => createAcceptedResponse requestId outcome.serverStep
  | some error => createRejectedResponse requestId outcome.serverStep (toResponseError error)

/-- One outcome: recorded under the key that waits for its request id, if there is one. The key
is returned beside the response. -/
def settleOutcome (expiresAt : ℚ) (server : TransportServer) (outcome : CommandExecutionOutcome) :
    Option (String × CommandResponse) × TransportServer :=
  match outcome.requestId.filter fun requestId => decide (requestId ≠ "") with
  | none => (none, server)
  | some requestId =>
      match server.pendingKeys.get? requestId with
      | none => (none, server)
      | some pending =>
          let response := outcomeResponse requestId outcome
          let server := server.recordResponse pending.key response expiresAt
          (some (pending.key, response),
            { server with pendingKeys := server.pendingKeys.erase requestId })

/-- The outcomes one after the other. -/
def settleOutcomes (expiresAt : ℚ) :
    List CommandExecutionOutcome → TransportServer →
      List (String × CommandResponse) × TransportServer
  | [], server => ([], server)
  | outcome :: outcomes, server =>
      let (settled, server) := server.settleOutcome expiresAt outcome
      let (rest, server) := settleOutcomes expiresAt outcomes server
      (settled.toList ++ rest, server)

/-- `drainOutcomeResponses`; the responses come with the keys they are recorded under. -/
def drainOutcomeResponses (options : TransportOptions) (atTime : ℚ)
    (outcomes : List CommandExecutionOutcome) (server : TransportServer) :
    List (String × CommandResponse) × TransportServer :=
  settleOutcomes (atTime + options.idempotencyTtlMs) outcomes (server.purgeExpired atTime)

end TransportServer

end IdleEngine
