import IdleEngine.StateSync.Canonical

/-!
# Sim replay files

A sim replay is a start snapshot with the commands of a run and, from the second version of the
format on, the frames that were shown. `encodeSimReplayJsonLines` writes it as one JSON record a
line: the header, the content, the assets and the start of the simulation, then the commands and the
frames in chunks, and at the end the counts of what was written.

The fields of a replay hold what their declared types allow, so its numbers need not be finite and a
payload may be anything; what JSON makes of such values is left to `JSON.stringify`.
-/

namespace IdleEngine

open JsValue

/-! ### Replays -/

/-- The version of a content digest. -/
inductive DigestVersion
  | number (value : JsNumber)
  | text (value : String)
  deriving DecidableEq

structure SimReplayContentDigest where
  version : DigestVersion
  hash : String
  deriving DecidableEq

structure SimReplayWiringConfig where
  enableProduction : Bool
  enableAutomation : Bool
  enableTransforms : Bool
  enableEntities : Bool
  deriving DecidableEq

/-- The header less the file type and the version of the format. -/
structure SimReplayHeader where
  recordedAt : JsNumber
  runtimeVersion : String
  deriving DecidableEq

structure SimReplayContent where
  packId : String
  packVersion : String
  digest : SimReplayContentDigest
  deriving DecidableEq

/-- The manifest hash may be missing or null. -/
structure SimReplayAssets where
  manifestHash : Option (Option String)
  deriving DecidableEq

structure SimReplaySim where
  wiring : SimReplayWiringConfig
  stepSizeMs : JsNumber
  startStep : JsNumber
  endStep : JsNumber
  initialSnapshot : JsValue
  commands : List (Command JsValue)
  endStateChecksum : String

structure SimReplayViewModelFrame where
  step : JsNumber
  hash : String
  viewModel : JsValue

structure SimReplayRenderCommandBufferFrame where
  renderFrame : JsNumber
  step : JsNumber
  hash : String
  rcb : JsValue

structure SimReplayFrames where
  viewModels : List SimReplayViewModelFrame
  rcbs : List SimReplayRenderCommandBufferFrame

/-- The version of the format, with what only that version has: the frames of the second one, which
may be missing or null. -/
inductive SimReplaySchema
  | v1
  | v2 (frames : Option SimReplayFrames)

structure SimReplay where
  header : SimReplayHeader
  schema : SimReplaySchema
  content : SimReplayContent
  assets : SimReplayAssets
  sim : SimReplaySim

/-- `schemaVersion`. -/
def SimReplaySchema.schemaVersion : SimReplaySchema → ℕ
  | v1 => 1
  | v2 _ => 2

/-- `isSimReplayV2(replay) ? replay.frames?.viewModels ?? [] : []`, and the same for the render
command buffers. -/
def SimReplaySchema.frames : SimReplaySchema → SimReplayFrames
  | v1 => ⟨[], []⟩
  | v2 frames => frames.getD ⟨[], []⟩

/-! ### Values of a replay -/

def DigestVersion.value : DigestVersion → JsValue
  | number value => .number value
  | text value => .string value

def SimReplayContentDigest.value (digest : SimReplayContentDigest) : JsValue :=
  record [("version", digest.version.value), ("hash", string digest.hash)]

def SimReplayWiringConfig.value (wiring : SimReplayWiringConfig) : JsValue :=
  record [("enableProduction", .bool wiring.enableProduction),
    ("enableAutomation", .bool wiring.enableAutomation),
    ("enableTransforms", .bool wiring.enableTransforms),
    ("enableEntities", .bool wiring.enableEntities)]

/-- A command as a value; a request id is a field only when there is one. -/
def commandValue (command : Command JsValue) : JsValue :=
  record ([("type", string command.type), ("priority", number (.fin command.priority.toNat)),
    ("timestamp", number command.timestamp.toJs), ("step", number command.step),
    ("payload", command.payload)] ++
      command.requestId.toList.map fun requestId => ("requestId", string requestId))

def SimReplayViewModelFrame.value (frame : SimReplayViewModelFrame) : JsValue :=
  record [("step", number frame.step), ("hash", string frame.hash), ("viewModel", frame.viewModel)]

def SimReplayRenderCommandBufferFrame.value (frame : SimReplayRenderCommandBufferFrame) : JsValue :=
  record [("renderFrame", number frame.renderFrame), ("step", number frame.step),
    ("hash", string frame.hash), ("rcb", frame.rcb)]

/-! ### Records -/

/-- `SIM_REPLAY_FILE_TYPE`. -/
def simReplayFileType : String := "idle-engine-sim-replay"

def SimReplay.headerRecord (replay : SimReplay) : JsValue :=
  record [("type", string "header"), ("fileType", string simReplayFileType),
    ("schemaVersion", number (.fin replay.schema.schemaVersion)),
    ("recordedAt", number replay.header.recordedAt),
    ("runtimeVersion", string replay.header.runtimeVersion)]

def SimReplay.contentRecord (replay : SimReplay) : JsValue :=
  record [("type", string "content"), ("packId", string replay.content.packId),
    ("packVersion", string replay.content.packVersion),
    ("digest", replay.content.digest.value)]

def SimReplay.assetsRecord (replay : SimReplay) : JsValue :=
  record (("type", string "assets") ::
    replay.assets.manifestHash.toList.map fun hash => ("manifestHash", hash.elim null string))

def SimReplay.simRecord (replay : SimReplay) : JsValue :=
  record [("type", string "sim"), ("wiring", replay.sim.wiring.value),
    ("stepSizeMs", number replay.sim.stepSizeMs), ("startStep", number replay.sim.startStep),
    ("initialSnapshot", replay.sim.initialSnapshot)]

/-- A chunk of commands or of frames, numbered among the chunks of its kind. -/
inductive ReplayChunk
  | commands (chunkIndex : ℕ) (commands : List (Command JsValue))
  | viewModelFrames (chunkIndex : ℕ) (frames : List SimReplayViewModelFrame)
  | rcbFrames (chunkIndex : ℕ) (frames : List SimReplayRenderCommandBufferFrame)

namespace ReplayChunk

def record : ReplayChunk → JsValue
  | commands chunkIndex list =>
      .record [("type", string "commands"), ("chunkIndex", number (.fin chunkIndex)),
        ("commands", array (list.map commandValue))]
  | viewModelFrames chunkIndex frames =>
      .record [("type", string "viewModelFrames"), ("chunkIndex", number (.fin chunkIndex)),
        ("frames", array (frames.map SimReplayViewModelFrame.value))]
  | rcbFrames chunkIndex frames =>
      .record [("type", string "rcbFrames"), ("chunkIndex", number (.fin chunkIndex)),
        ("frames", array (frames.map SimReplayRenderCommandBufferFrame.value))]

/-- The commands of a chunk. -/
def commandsOf : ReplayChunk → List (Command JsValue)
  | commands _ list => list
  | _ => []

/-- The view-model frames of a chunk. -/
def viewModelsOf : ReplayChunk → List SimReplayViewModelFrame
  | viewModelFrames _ frames => frames
  | _ => []

/-- The render-command-buffer frames of a chunk. -/
def rcbsOf : ReplayChunk → List SimReplayRenderCommandBufferFrame
  | rcbFrames _ frames => frames
  | _ => []

end ReplayChunk

/-- The counts at the end; those of the frames are written from the second version on. -/
def SimReplay.endRecord (replay : SimReplay) : JsValue :=
  record ([("type", string "end"), ("endStep", number replay.sim.endStep),
    ("endStateChecksum", string replay.sim.endStateChecksum),
    ("commandCount", number (.fin replay.sim.commands.length))] ++
      if replay.schema.schemaVersion = 2 then
        [("viewModelFrameCount", number (.fin replay.schema.frames.viewModels.length)),
          ("rcbFrameCount", number (.fin replay.schema.frames.rcbs.length))]
      else [])

/-! ### Encoding -/

/-- `for (let i = 0; i < list.length; i += size) … list.slice(i, i + size)`, where `fuel` bounds the
rounds. -/
def slices {α : Type} (size : ℕ) : ℕ → List α → List (List α)
  | 0, _ => []
  | fuel + 1, list =>
      if list = [] then [] else list.take size :: slices size fuel (list.drop size)

/-- The slices of a list with their numbers. -/
def numberedSlices {α : Type} (size : ℕ) (list : List α) : List (List α × ℕ) :=
  (slices size list.length list).zipIdx

structure EncodeSimReplayOptions where
  maxCommandsPerChunk : Option JsNumber
  maxViewModelFramesPerChunk : Option JsNumber
  maxRcbFramesPerChunk : Option JsNumber

/-- The sizes of the chunks, after the options are checked. -/
structure ReplayChunkSizes where
  commands : ℕ
  viewModelFrames : ℕ
  rcbFrames : ℕ
  deriving DecidableEq

/-- The positive integer, of a positive integer. -/
def positiveInteger? : JsNumber → Option ℕ
  | .fin value => if value.den = 1 ∧ 0 < value then some value.num.toNat else none
  | _ => none

/-- `assertPositiveInteger`, with the integer. -/
def assertPositiveInteger (value : JsNumber) (label : String) : Except String ℕ :=
  match positiveInteger? value with
  | none => .error (label ++ " must be a positive integer.")
  | some value => .ok value

def EncodeSimReplayOptions.sizes (options : EncodeSimReplayOptions) :
    Except String ReplayChunkSizes := do
  let commands ←
    assertPositiveInteger (options.maxCommandsPerChunk.getD (.fin 1000)) "maxCommandsPerChunk"
  let viewModelFrames ← assertPositiveInteger
    (options.maxViewModelFramesPerChunk.getD (.fin 250)) "maxViewModelFramesPerChunk"
  let rcbFrames ←
    assertPositiveInteger (options.maxRcbFramesPerChunk.getD (.fin 250)) "maxRcbFramesPerChunk"
  return { commands, viewModelFrames, rcbFrames }

namespace SimReplay

/-- The chunks of a replay in the order in which they are written. -/
def chunks (replay : SimReplay) (sizes : ReplayChunkSizes) : List ReplayChunk :=
  ((numberedSlices sizes.commands replay.sim.commands).map fun slice =>
      .commands slice.2 slice.1) ++
    (((numberedSlices sizes.viewModelFrames replay.schema.frames.viewModels).map fun slice =>
        .viewModelFrames slice.2 slice.1) ++
      ((numberedSlices sizes.rcbFrames replay.schema.frames.rcbs).map fun slice =>
        .rcbFrames slice.2 slice.1))

/-- The records of a replay around some chunks. -/
def recordsAround (replay : SimReplay) (chunks : List ReplayChunk) : List JsValue :=
  [replay.headerRecord, replay.contentRecord, replay.assetsRecord, replay.simRecord] ++
    (chunks.map ReplayChunk.record ++ [replay.endRecord])

end SimReplay

variable (numbers : JsonText.NumberText ℚ)

/-- `JSON.stringify` of a record: a big integer is an error, and an object has a text. -/
def stringifyRecord (value : JsValue) : Except String String :=
  match jsonTransport value with
  | .error message => .error message
  | .ok _ => .ok ((value.stringify numbers).getD "undefined")

/-- `records.map((record) => JSON.stringify(record)).join('\n')`, and a line feed. -/
def joinRecords (records : List JsValue) : Except String String := do
  let lines ← records.mapM (stringifyRecord numbers)
  return "\n".intercalate lines ++ "\n"

/-- `encodeSimReplayJsonLines`. -/
def encodeSimReplayJsonLines (replay : SimReplay) (options : EncodeSimReplayOptions) :
    Except String String := do
  let sizes ← options.sizes
  let frames := replay.schema.frames
  if replay.schema.schemaVersion = 1 ∧ (0 < frames.viewModels.length ∨ 0 < frames.rcbs.length) then
    throw "Replay schemaVersion 1 does not support visual frames."
  joinRecords numbers (replay.recordsAround (replay.chunks sizes))

end IdleEngine
