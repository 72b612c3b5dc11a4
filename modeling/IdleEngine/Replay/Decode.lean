import IdleEngine.Replay.Text

/-!
# Reading sim replay files

`decodeSimReplayJsonLines` reads a file line by line. The first four records are fixed; then come
chunks of commands and of frames in any order, up to the end record, whose counts have to agree with
what was read. Commands may come in any order, frames have to come in increasing order, and the index
of a chunk is not read.
-/

namespace IdleEngine

open JsValue JsonText

namespace JsValue

/-- `value === undefined`. -/
def isUndefined : JsValue → Bool
  | undefined => true
  | _ => false

/-- `value === null`. -/
def isNull : JsValue → Bool
  | null => true
  | _ => false

/-- `Boolean(value)`. -/
def truthy : JsValue → Bool
  | undefined => false
  | null => false
  | .bool value => value
  | .number value => decide (value ≠ .fin 0 ∧ value ≠ .nan)
  | .string value => decide (value ≠ "")
  | _ => true

end JsValue

namespace SimReplay

/-! ### Reading fields -/

def readNonEmptyString (value : JsValue) (label : String) : Except String String :=
  match value.string? with
  | none => .error (label ++ " must be a non-empty string.")
  | some text =>
      if isNonBlankString text = true then .ok text
      else .error (label ++ " must be a non-empty string.")

def readFiniteNumber (value : JsValue) (label : String) : Except String ℚ :=
  match value.finite? with
  | none => .error (label ++ " must be a finite number.")
  | some numeric => .ok numeric

def readPositiveFiniteNumber (value : JsValue) (label : String) : Except String ℚ := do
  let numeric ← readFiniteNumber value label
  if numeric ≤ 0 then throw (label ++ " must be a positive number.")
  return numeric

def readNonNegativeInt (value : JsValue) (label : String) : Except String ℚ := do
  let numeric ← readFiniteNumber value label
  if numeric.den ≠ 1 ∨ numeric < 0 then throw (label ++ " must be a non-negative integer.")
  return numeric

/-- A check that throws. -/
def ensure (condition : Prop) [Decidable condition] (message : String) : Except String Unit :=
  if condition then .ok () else .error message

def normalizeDigest (value : JsValue) : Except String SimReplayContentDigest := do
  ensure (value.isRecord = true) "content.digest must be an object."
  let hash ← readNonEmptyString (value.get "hash") "content.digest.hash"
  match value.get "version" with
  | .number version => return { version := .number version, hash }
  | .string version => return { version := .text version, hash }
  | _ => throw "content.digest.version must be a number or string."

/-- The request id of a command; there need not be one. -/
def readRequestId (value : JsValue) : Except String (Option String) :=
  if value.isUndefined = true then .ok none
  else (readNonEmptyString value "command.requestId").map some

def normalizeCommand (candidate : JsValue) : Except String (Command JsValue) := do
  ensure (candidate.isRecord = true) "Command must be an object."
  let type ← readNonEmptyString (candidate.get "type") "command.type"
  let priorityValue ← readFiniteNumber (candidate.get "priority") "command.priority"
  let timestamp ← readFiniteNumber (candidate.get "timestamp") "command.timestamp"
  let step ← readNonNegativeInt (candidate.get "step") "command.step"
  match CommandPriority.ofNumber? priorityValue with
  | none => throw "command.priority must be a valid CommandPriority value."
  | some priority =>
      let payload ← cloneJsonValue (candidate.get "payload")
      let requestId ← readRequestId (candidate.get "requestId")
      return { type, priority, payload, timestamp := ((timestamp : WithTop ℚ) : Timestamp),
               step := .fin step, requestId }

def normalizeViewModelFrame (candidate : JsValue) : Except String SimReplayViewModelFrame := do
  ensure (candidate.isRecord = true) "ViewModel frame must be an object."
  let step ← readNonNegativeInt (candidate.get "step") "viewModelFrame.step"
  let hash ← readNonEmptyString (candidate.get "hash") "viewModelFrame.hash"
  let viewModel ← cloneJsonValue (candidate.get "viewModel")
  ensure (viewModel.isRecord = true) "viewModelFrame.viewModel must be an object."
  ensure ((viewModel.get "frame").isRecord = true)
    "viewModelFrame.viewModel.frame must be an object."
  let payloadStep ← readNonNegativeInt ((viewModel.get "frame").get "step")
    "viewModelFrame.viewModel.frame.step"
  ensure (payloadStep = step) "viewModelFrame.step does not match viewModel.frame.step."
  return { step := .fin step, hash, viewModel }

def normalizeRcbFrame (candidate : JsValue) : Except String SimReplayRenderCommandBufferFrame := do
  ensure (candidate.isRecord = true) "RenderCommandBuffer frame must be an object."
  let renderFrame ← readNonNegativeInt (candidate.get "renderFrame") "rcbFrame.renderFrame"
  let step ← readNonNegativeInt (candidate.get "step") "rcbFrame.step"
  let hash ← readNonEmptyString (candidate.get "hash") "rcbFrame.hash"
  let rcb ← cloneJsonValue (candidate.get "rcb")
  ensure (rcb.isRecord = true) "rcbFrame.rcb must be an object."
  ensure ((rcb.get "frame").isRecord = true) "rcbFrame.rcb.frame must be an object."
  let payloadStep ← readNonNegativeInt ((rcb.get "frame").get "step") "rcbFrame.rcb.frame.step"
  ensure (payloadStep = step) "rcbFrame.step does not match rcb.frame.step."
  ensure (((rcb.get "frame").get "renderFrame").number? = some (.fin renderFrame))
    "rcbFrame.renderFrame does not match rcb.frame.renderFrame."
  return { renderFrame := .fin renderFrame, step := .fin step, hash, rcb }

/-! ### Reading records -/

/-- `readSimReplayRecord`: the record, with its type. -/
def readSimReplayRecord {numbers : NumberText ℚ} (reader : NumberReader numbers) (line : String) :
    Except String (String × JsValue) := do
  let parsed ← parseJson reader line
  ensure (parsed.isRecord = true) "Replay record must be an object."
  let type ← readNonEmptyString (parsed.get "type") "record.type"
  return (type, parsed)

def readRequiredSimReplayRecord {numbers : NumberText ℚ} (reader : NumberReader numbers)
    (lines : List String) (index : ℕ) (expectedType errorMessage : String) :
    Except String JsValue :=
  match lines[index]? with
  | none => .error errorMessage
  | some line => do
      let (type, value) ← readSimReplayRecord reader line
      ensure (type = expectedType) errorMessage
      return value

/-! ### Reading the body -/

/-- What has been read of the elements of one kind, and the position of the last one. -/
structure CollectedStream (α : Type) where
  items : List α
  last : JsNumber

/-- How the elements of one kind are read: the check of one element, the position it takes behind the
last one, and what is said of too many of them. -/
structure ReplayStream (α : Type) where
  normalize : JsValue → Except String α
  advance : JsNumber → α → Except String JsNumber
  tooMany : String

namespace ReplayStream

variable {α : Type}

/-- Nothing has been read. -/
def start : CollectedStream α := { items := [], last := .fin (-1) }

/-- One element is checked, put in its place and appended. -/
def push (stream : ReplayStream α) (limit : ℕ) (collected : CollectedStream α)
    (candidate : JsValue) : Except String (CollectedStream α) := do
  let item ← stream.normalize candidate
  let last ← stream.advance collected.last item
  let items := collected.items ++ [item]
  ensure (items.length ≤ limit) stream.tooMany
  return { items, last }

/-- The elements of a chunk. -/
def append (stream : ReplayStream α) (limit : ℕ) (collected : CollectedStream α)
    (candidates : List JsValue) : Except String (CollectedStream α) :=
  candidates.foldlM (stream.push limit) collected

end ReplayStream

/-- `appendReplayCommandChunk`: commands may come in any order. -/
def commandStream : ReplayStream (Command JsValue) where
  normalize := normalizeCommand
  advance last _ := .ok last
  tooMany := "Replay command stream exceeds configured command limit."

/-- `handleReplayViewModelFramesRecord`: steps increase. -/
def viewModelStream : ReplayStream SimReplayViewModelFrame where
  normalize := normalizeViewModelFrame
  advance last frame :=
    if frame.step.le last = true then .error "Replay ViewModel frames must be sorted by step."
    else .ok frame.step
  tooMany := "Replay ViewModel frame stream exceeds configured frame limit."

/-- `handleReplayRcbFramesRecord`: render frames increase. -/
def rcbStream : ReplayStream SimReplayRenderCommandBufferFrame where
  normalize := normalizeRcbFrame
  advance last frame :=
    if frame.renderFrame.le last = true then
      .error "Replay RenderCommandBuffer frames must be sorted by renderFrame."
    else .ok frame.renderFrame
  tooMany := "Replay RenderCommandBuffer frame stream exceeds configured frame limit."

structure ReplayBodyParseState where
  commands : CollectedStream (Command JsValue)
  viewModelFrames : CollectedStream SimReplayViewModelFrame
  rcbFrames : CollectedStream SimReplayRenderCommandBufferFrame

/-- The limits of a decoder, after the options are checked. -/
structure ReplayLimits where
  maxCommands : ℕ
  maxLines : ℕ
  maxViewModelFrames : ℕ
  maxRcbFrames : ℕ
  deriving DecidableEq

/-- The elements of a chunk, which have to be an array. -/
def readChunk (value : JsValue) (message : String) : Except String (List JsValue) :=
  match value.array? with
  | none => .error message
  | some candidates => .ok candidates

/-- `handleReplayCommandsRecord`. -/
def handleReplayCommandsRecord (limits : ReplayLimits) (value : JsValue)
    (state : ReplayBodyParseState) : Except String ReplayBodyParseState := do
  let candidates ← readChunk (value.get "commands")
    "Replay command chunk must contain commands array."
  let commands ← commandStream.append limits.maxCommands state.commands candidates
  return { state with commands }

def handleReplayViewModelFramesRecord (limits : ReplayLimits) (schemaVersion : ℕ) (value : JsValue)
    (state : ReplayBodyParseState) : Except String ReplayBodyParseState := do
  ensure (schemaVersion = 2) "Replay schemaVersion does not support viewModelFrames records."
  let candidates ← readChunk (value.get "frames")
    "Replay viewModelFrames record must contain frames array."
  let viewModelFrames ←
    viewModelStream.append limits.maxViewModelFrames state.viewModelFrames candidates
  return { state with viewModelFrames }

def handleReplayRcbFramesRecord (limits : ReplayLimits) (schemaVersion : ℕ) (value : JsValue)
    (state : ReplayBodyParseState) : Except String ReplayBodyParseState := do
  ensure (schemaVersion = 2) "Replay schemaVersion does not support rcbFrames records."
  let candidates ← readChunk (value.get "frames")
    "Replay rcbFrames record must contain frames array."
  let rcbFrames ← rcbStream.append limits.maxRcbFrames state.rcbFrames candidates
  return { state with rcbFrames }

/-- What the body and the end record say. -/
structure ReplayBody where
  commands : List (Command JsValue)
  viewModelFrames : List SimReplayViewModelFrame
  rcbFrames : List SimReplayRenderCommandBufferFrame
  endStep : ℚ
  endStateChecksum : String

/-- A count of frames; the first version of the format has none. -/
def readFrameCount (schemaVersion : ℕ) (value : JsValue) (label : String) : Except String ℚ :=
  if schemaVersion = 2 then readNonNegativeInt value label else .ok 0

/-- `finalizeReplayBodyParse`, with `parseReplayEndRecord`. -/
def finalizeReplayBodyParse (schemaVersion : ℕ) (value : JsValue) (state : ReplayBodyParseState) :
    Except String ReplayBody := do
  let expectedViewModelFrameCount ←
    readFrameCount schemaVersion (value.get "viewModelFrameCount") "end.viewModelFrameCount"
  let expectedRcbFrameCount ←
    readFrameCount schemaVersion (value.get "rcbFrameCount") "end.rcbFrameCount"
  let endStep ← readNonNegativeInt (value.get "endStep") "end.endStep"
  let endStateChecksum ← readNonEmptyString (value.get "endStateChecksum") "end.endStateChecksum"
  let expectedCommandCount ← readNonNegativeInt (value.get "commandCount") "end.commandCount"
  ensure (expectedCommandCount = state.commands.items.length)
    "Replay command count does not match footer."
  ensure (schemaVersion = 2 → expectedViewModelFrameCount = state.viewModelFrames.items.length)
    "Replay ViewModel frame count does not match footer."
  ensure (schemaVersion = 2 → expectedRcbFrameCount = state.rcbFrames.items.length)
    "Replay RenderCommandBuffer frame count does not match footer."
  return {
    commands := state.commands.items
    viewModelFrames := state.viewModelFrames.items
    rcbFrames := state.rcbFrames.items
    endStep, endStateChecksum }

/-- `readReplayBodyAndEndRecord`: what stands behind the end record is not read. -/
def readReplayBodyAndEndRecord {numbers : NumberText ℚ} (reader : NumberReader numbers)
    (limits : ReplayLimits) (schemaVersion : ℕ) :
    List String → ReplayBodyParseState → Except String ReplayBody
  | [], _ => .error "Replay is missing end record."
  | line :: lines, state => do
      let (type, value) ← readSimReplayRecord reader line
      if type = "commands" then
        let state ← handleReplayCommandsRecord limits value state
        readReplayBodyAndEndRecord reader limits schemaVersion lines state
      else if type = "viewModelFrames" then
        let state ← handleReplayViewModelFramesRecord limits schemaVersion value state
        readReplayBodyAndEndRecord reader limits schemaVersion lines state
      else if type = "rcbFrames" then
        let state ← handleReplayRcbFramesRecord limits schemaVersion value state
        readReplayBodyAndEndRecord reader limits schemaVersion lines state
      else if type = "end" then finalizeReplayBodyParse schemaVersion value state
      else throw ("Unexpected replay record type: " ++ type)

/-! ### Reading a file -/

def normalizeReplayWiringConfig (value : JsValue) : Except String SimReplayWiringConfig := do
  ensure (value.isRecord = true) "sim.wiring must be an object."
  return {
    enableProduction := (value.get "enableProduction").truthy
    enableAutomation := (value.get "enableAutomation").truthy
    enableTransforms := (value.get "enableTransforms").truthy
    enableEntities := (value.get "enableEntities").truthy }

def readReplayInitialSnapshot (value : JsValue) : Except String JsValue := do
  ensure (value.isRecord = true) "sim.initialSnapshot must be an object."
  return value

/-- The manifest hash: a missing one is null. -/
def readManifestHash (value : JsValue) : Except String (Option String) :=
  if value.isUndefined = true ∨ value.isNull = true then .ok none
  else (readNonEmptyString value "assets.manifestHash").map some

structure DecodeSimReplayOptions where
  maxCommands : Option JsNumber
  maxLines : Option JsNumber
  maxViewModelFrames : Option JsNumber
  maxRcbFrames : Option JsNumber

/-- The limits, by default those of the format. -/
def DecodeSimReplayOptions.limits (options : DecodeSimReplayOptions) :
    Except String ReplayLimits := do
  let maxCommands ← assertPositiveInteger (options.maxCommands.getD (.fin 1000000)) "maxCommands"
  let maxLines ← assertPositiveInteger (options.maxLines.getD (.fin 2000000)) "maxLines"
  let maxViewModelFrames ← assertPositiveInteger
    (options.maxViewModelFrames.getD (.fin 100000)) "maxViewModelFrames"
  let maxRcbFrames ← assertPositiveInteger (options.maxRcbFrames.getD (.fin 100000)) "maxRcbFrames"
  return { maxCommands, maxLines, maxViewModelFrames, maxRcbFrames }

/-- The schema version of a header. -/
def readSchemaVersion (value : JsValue) : Except String ℕ :=
  if value.number? = some (.fin 1) then .ok 1
  else if value.number? = some (.fin 2) then .ok 2
  else .error "Replay schemaVersion is not supported."

/-- The checks of the first four records, which come after the body, and the replay. -/
def assembleReplay (schemaVersion : ℕ) (header content assets sim : JsValue) (body : ReplayBody) :
    Except String SimReplay := do
  let wiring ← normalizeReplayWiringConfig (sim.get "wiring")
  let initialSnapshot ← readReplayInitialSnapshot (sim.get "initialSnapshot")
  let stepSizeMs ← readPositiveFiniteNumber (sim.get "stepSizeMs") "sim.stepSizeMs"
  let startStep ← readNonNegativeInt (sim.get "startStep") "sim.startStep"
  let packId ← readNonEmptyString (content.get "packId") "content.packId"
  let packVersion ← readNonEmptyString (content.get "packVersion") "content.packVersion"
  let digest ← normalizeDigest (content.get "digest")
  let recordedAt ← readFiniteNumber (header.get "recordedAt") "header.recordedAt"
  let runtimeVersion ← readNonEmptyString (header.get "runtimeVersion") "header.runtimeVersion"
  let manifestHash ← readManifestHash (assets.get "manifestHash")
  return {
    header := { recordedAt := .fin recordedAt, runtimeVersion }
    schema := if schemaVersion = 1 then .v1 else .v2 (some ⟨body.viewModelFrames, body.rcbFrames⟩)
    content := { packId, packVersion, digest }
    assets := { manifestHash := some manifestHash }
    sim := {
      wiring, stepSizeMs := .fin stepSizeMs, startStep := .fin startStep
      endStep := .fin body.endStep, initialSnapshot, commands := body.commands
      endStateChecksum := body.endStateChecksum } }

/-- `decodeSimReplayJsonLines`. -/
def decodeSimReplayJsonLines {numbers : NumberText ℚ} (reader : NumberReader numbers)
    (input : String) (options : DecodeSimReplayOptions) : Except String SimReplay := do
  let limits ← options.limits
  let lines ← splitReplayLines input limits.maxLines
  let header ←
    readRequiredSimReplayRecord reader lines 0 "header" "Replay header record must appear first."
  ensure ((header.get "fileType").string? = some simReplayFileType)
    "Replay fileType is not supported."
  let schemaVersion ← readSchemaVersion (header.get "schemaVersion")
  let content ← readRequiredSimReplayRecord reader lines 1 "content"
    "Replay content record must appear second."
  let assets ← readRequiredSimReplayRecord reader lines 2 "assets"
    "Replay assets record must appear third."
  let sim ←
    readRequiredSimReplayRecord reader lines 3 "sim" "Replay sim record must appear fourth."
  let body ← readReplayBodyAndEndRecord reader limits schemaVersion (lines.drop 4)
    { commands := ReplayStream.start, viewModelFrames := ReplayStream.start
      rcbFrames := ReplayStream.start }
  assembleReplay schemaVersion header content assets sim body

end SimReplay

end IdleEngine
