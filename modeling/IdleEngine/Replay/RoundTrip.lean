import IdleEngine.Replay.Files

/-!
# Encoding and decoding a replay

The encoder writes every replay of JSON values, whatever its chunks, and the decoder gives it back
exactly when the replay keeps the rules of the format that the decoder checks
(`decode_encode_iff`). Frames have to come in increasing order; commands have not, and the index of a
chunk is not read. A file whose command lines are exchanged is therefore read as a replay with other
commands, unless the chunks in their new order spell the same commands (`decode_permuted_iff`).
-/

namespace IdleEngine

open JsValue JsonText Outcome List ReplayChunk SimReplaySchema

/-! ### Slices -/

variable {α : Type} {size : ℕ}

theorem flatten_slices (hsize : 0 < size) :
    ∀ (fuel : ℕ) (list : List α), list.length ≤ fuel → (slices size fuel list).flatten = list := by
  intro fuel
  induction fuel with
  | zero =>
    intro list hlist
    rw [length_eq_zero_iff.mp (Nat.le_zero.mp hlist)]
    rfl
  | succ fuel ih =>
    intro list hlist
    rw [slices]
    by_cases hnil : list = []
    · rw [if_pos hnil, hnil]
      rfl
    · have hpos : 0 < list.length := length_pos_iff.mpr hnil
      rw [if_neg hnil, flatten_cons, ih, take_append_drop]
      rw [length_drop]
      omega

/-- **The slices of a list are the list**, read one after the other. -/
theorem flatMap_numberedSlices (hsize : 0 < size) (list : List α) :
    ((numberedSlices size list).flatMap fun slice => slice.1) = list := by
  have hfst : ((numberedSlices size list).map fun slice => slice.1) =
      slices size list.length list :=
    zipIdx_map_fst 0 _
  rw [flatMap_def, hfst, flatten_slices hsize _ _ le_rfl]

theorem assertPositiveInteger_pos {value : JsNumber} {label : String} {n : ℕ}
    (h : assertPositiveInteger value label = .ok n) : 0 < n := by
  unfold assertPositiveInteger at h
  split at h
  · cases h
  · next m hm =>
    obtain rfl : m = n := Except.ok.inj h
    cases value with
    | fin q =>
      rw [positiveInteger?] at hm
      split at hm
      · next hq =>
        obtain rfl := Option.some.inj hm
        have hnum : 0 < q.num := Rat.num_pos.mpr hq.2
        omega
      · cases hm
    | _ => cases hm

namespace SimReplay

variable {numbers : NumberText ℚ}

/-- Chunks are not empty-sized. -/
structure PositiveSizes (sizes : ReplayChunkSizes) : Prop where
  commands : 0 < sizes.commands
  viewModelFrames : 0 < sizes.viewModelFrames
  rcbFrames : 0 < sizes.rcbFrames

variable {sizes : ReplayChunkSizes}

variable {options : EncodeSimReplayOptions}

theorem positiveSizes (hsizes : options.sizes = .ok sizes) :
    PositiveSizes sizes := by
  obtain ⟨commands, hcommands, hrest⟩ := bind_ok hsizes
  obtain ⟨viewModels, hviewModels, hrest⟩ := bind_ok hrest
  obtain ⟨rcbs, hrcbs, hout⟩ := bind_ok hrest
  obtain rfl := Except.ok.inj hout
  exact ⟨assertPositiveInteger_pos hcommands, assertPositiveInteger_pos hviewModels,
    assertPositiveInteger_pos hrcbs⟩

section Chunks

variable {sizes : ReplayChunkSizes} (hpos : PositiveSizes sizes) (replay : SimReplay)

variable {β : Type}

theorem flatMap_chunks (f : ReplayChunk → List β) :
    (replay.chunks sizes).flatMap f =
      ((numberedSlices sizes.commands replay.sim.commands).flatMap fun slice =>
          f (.commands slice.2 slice.1)) ++
        (((numberedSlices sizes.viewModelFrames replay.schema.frames.viewModels).flatMap fun slice =>
            f (.viewModelFrames slice.2 slice.1)) ++
          (numberedSlices sizes.rcbFrames replay.schema.frames.rcbs).flatMap fun slice =>
            f (.rcbFrames slice.2 slice.1)) := by
  rw [chunks, flatMap_append, flatMap_append, flatMap_map, flatMap_map,
    flatMap_map]

theorem flatMap_none {α : Type} {f : α → List β} (hf : ∀ a, f a = []) (l : List α) :
    l.flatMap f = [] :=
  flatMap_eq_nil_iff.mpr fun a _ => hf a

include hpos

theorem commandsOf_chunks :
    (replay.chunks sizes).flatMap commandsOf = replay.sim.commands := by
  have hviewModels : (numberedSlices sizes.viewModelFrames replay.schema.frames.viewModels).flatMap
      (fun slice => commandsOf (.viewModelFrames slice.2 slice.1)) = [] :=
    flatMap_none (fun _ => rfl) _
  have hrcbs : (numberedSlices sizes.rcbFrames replay.schema.frames.rcbs).flatMap
      (fun slice => commandsOf (.rcbFrames slice.2 slice.1)) = [] :=
    flatMap_none (fun _ => rfl) _
  rw [flatMap_chunks, hviewModels, hrcbs, append_nil, append_nil]
  exact flatMap_numberedSlices hpos.commands _

theorem viewModelsOf_chunks :
    (replay.chunks sizes).flatMap viewModelsOf = replay.schema.frames.viewModels := by
  have hcommands : (numberedSlices sizes.commands replay.sim.commands).flatMap
      (fun slice => viewModelsOf (.commands slice.2 slice.1)) = [] :=
    flatMap_none (fun _ => rfl) _
  have hrcbs : (numberedSlices sizes.rcbFrames replay.schema.frames.rcbs).flatMap
      (fun slice => viewModelsOf (.rcbFrames slice.2 slice.1)) = [] :=
    flatMap_none (fun _ => rfl) _
  rw [flatMap_chunks, hcommands, hrcbs, append_nil, nil_append]
  exact flatMap_numberedSlices hpos.viewModelFrames _

theorem rcbsOf_chunks :
    (replay.chunks sizes).flatMap rcbsOf = replay.schema.frames.rcbs := by
  have hcommands : (numberedSlices sizes.commands replay.sim.commands).flatMap
      (fun slice => rcbsOf (.commands slice.2 slice.1)) = [] :=
    flatMap_none (fun _ => rfl) _
  have hviewModels : (numberedSlices sizes.viewModelFrames replay.schema.frames.viewModels).flatMap
      (fun slice => rcbsOf (.viewModelFrames slice.2 slice.1)) = [] :=
    flatMap_none (fun _ => rfl) _
  rw [flatMap_chunks, hcommands, hviewModels, nil_append, nil_append]
  exact flatMap_numberedSlices hpos.rcbFrames _

omit hpos in
theorem visual_chunks {chunk : ReplayChunk} (hchunk : chunk ∈ replay.chunks sizes)
    (hvisual : chunk.visual = true) : replay.schema.schemaVersion = 2 := by
  rcases hschema : replay.schema with _ | frames
  · have hslices : ∀ {α : Type} (size : ℕ), numberedSlices size ([] : List α) = [] :=
      fun _ => rfl
    rw [chunks, hschema, frames, hslices, hslices, map_nil, map_nil,
      append_nil, append_nil, mem_map] at hchunk
    obtain ⟨slice, -, rfl⟩ := hchunk
    cases hvisual
  · rfl

end Chunks

/-! ### Replays of JSON values -/

/-- A number that JSON can write. -/
def IsFinite (value : JsNumber) : Prop := ∃ q : ℚ, value = .fin q

/-- Everything in a replay is a value of JSON. -/
structure JsonSafe (replay : SimReplay) : Prop where
  recordedAt : IsFinite replay.header.recordedAt
  digestVersion : ∀ version, replay.content.digest.version = .number version → IsFinite version
  stepSizeMs : IsFinite replay.sim.stepSizeMs
  startStep : IsFinite replay.sim.startStep
  endStep : IsFinite replay.sim.endStep
  initialSnapshot : IsJson replay.sim.initialSnapshot
  commands : ∀ command ∈ replay.sim.commands,
    IsFinite command.timestamp.toJs ∧ IsFinite command.step ∧ IsJson command.payload
  viewModels : ∀ frame ∈ replay.schema.frames.viewModels,
    IsFinite frame.step ∧ IsJson frame.viewModel
  rcbs : ∀ frame ∈ replay.schema.frames.rcbs,
    IsFinite frame.renderFrame ∧ IsFinite frame.step ∧ IsJson frame.rcb

theorem isJson_record {fields : List (String × JsValue)} (hnodup : (fields.map Prod.fst).Nodup)
    (hfields : fields.Forall fun field => IsJson field.2) : IsJson (record fields) :=
  .object hnodup (fun _ _ => trivial) (forall_iff_forall_mem.mp hfields)

theorem isJson_number {value : JsNumber} (h : IsFinite value) : IsJson (number value) := by
  obtain ⟨q, rfl⟩ := h
  exact .number q

variable {α : Type} {items : List α}

theorem isJson_array {value : α → JsValue} (h : ∀ item ∈ items, IsJson (value item)) :
    IsJson (array (items.map value)) := by
  refine .array fun element helement => ?_
  obtain ⟨item, hitem, rfl⟩ := mem_map.mp helement
  exact h item hitem

variable {command : Command JsValue}

theorem isJson_commandValue (htimestamp : IsFinite command.timestamp.toJs)
    (hstep : IsFinite command.step) (hpayload : IsJson command.payload) :
    IsJson (commandValue command) := by
  refine isJson_record (by cases command.requestId <;> simp) (forall_append.mpr
    ⟨⟨.string _, .number _, isJson_number htimestamp, isJson_number hstep, hpayload⟩, ?_⟩)
  refine forall_iff_forall_mem.mpr fun field hfield => ?_
  obtain ⟨requestId, -, rfl⟩ := mem_map.mp hfield
  exact .string requestId

variable {frame : SimReplayViewModelFrame}

theorem isJson_viewModelFrame (hstep : IsFinite frame.step) (hviewModel : IsJson frame.viewModel) :
    IsJson frame.value :=
  isJson_record (by simp) ⟨isJson_number hstep, .string _, hviewModel⟩

theorem isJson_rcbFrame {frame : SimReplayRenderCommandBufferFrame}
    (hrenderFrame : IsFinite frame.renderFrame) (hstep : IsFinite frame.step)
    (hrcb : IsJson frame.rcb) : IsJson frame.value :=
  isJson_record (by simp) ⟨isJson_number hrenderFrame, isJson_number hstep, .string _, hrcb⟩

variable {replay : SimReplay}

/-- Every chunk of a replay of JSON values, in whatever order, is a value of JSON. -/
theorem JsonSafe.chunk (hsafe : replay.JsonSafe) {chunk : ReplayChunk}
    (hcommands : ∀ command ∈ chunk.commandsOf, command ∈ replay.sim.commands)
    (hviewModels : ∀ frame ∈ chunk.viewModelsOf, frame ∈ replay.schema.frames.viewModels)
    (hrcbs : ∀ frame ∈ chunk.rcbsOf, frame ∈ replay.schema.frames.rcbs) :
    IsJson chunk.record := by
  cases chunk with
  | commands chunkIndex list =>
    refine isJson_record (by simp) ⟨.string _, .number _, isJson_array fun command hcommand => ?_⟩
    obtain ⟨htimestamp, hstep, hpayload⟩ := hsafe.commands command (hcommands command hcommand)
    exact isJson_commandValue htimestamp hstep hpayload
  | viewModelFrames chunkIndex frames =>
    refine isJson_record (by simp) ⟨.string _, .number _, isJson_array fun frame hframe => ?_⟩
    obtain ⟨hstep, hviewModel⟩ := hsafe.viewModels frame (hviewModels frame hframe)
    exact isJson_viewModelFrame hstep hviewModel
  | rcbFrames chunkIndex frames =>
    refine isJson_record (by simp) ⟨.string _, .number _, isJson_array fun frame hframe => ?_⟩
    obtain ⟨hrenderFrame, hstep, hrcb⟩ := hsafe.rcbs frame (hrcbs frame hframe)
    exact isJson_rcbFrame hrenderFrame hstep hrcb

theorem JsonSafe.records (hsafe : replay.JsonSafe) :
    IsJson replay.headerRecord ∧ IsJson replay.contentRecord ∧ IsJson replay.assetsRecord ∧
      IsJson replay.simRecord ∧ IsJson replay.endRecord := by
  refine ⟨?_, ?_, ?_, ?_, ?_⟩
  · exact isJson_record (by simp) ⟨.string _, .string _, .number _, isJson_number hsafe.recordedAt,
      .string _⟩
  · have hversion : IsJson replay.content.digest.version.value := by
      rcases hdigest : replay.content.digest.version with version | text
      · exact isJson_number (hsafe.digestVersion version hdigest)
      · exact .string text
    have hdigest : IsJson replay.content.digest.value :=
      isJson_record (by simp) ⟨hversion, .string _⟩
    exact isJson_record (by simp) ⟨.string _, .string _, .string _, hdigest⟩
  · refine isJson_record (by cases replay.assets.manifestHash <;> simp) ?_
    refine forall_iff_forall_mem.mpr (forall_mem_cons.mpr ⟨.string _, ?_⟩)
    intro field hfield
    obtain ⟨hash, -, rfl⟩ := mem_map.mp hfield
    rcases hash with _ | hash
    · exact .null
    · exact .string hash
  · have hwiring : IsJson replay.sim.wiring.value :=
      isJson_record (by simp) ⟨.bool _, .bool _, .bool _, .bool _⟩
    exact isJson_record (by simp) ⟨.string _, hwiring, isJson_number hsafe.stepSizeMs,
      isJson_number hsafe.startStep, hsafe.initialSnapshot⟩
  · refine isJson_record (by cases replay.schema <;> simp [schemaVersion]) ?_
    refine forall_append.mpr
      ⟨⟨.string _, isJson_number hsafe.endStep, .string _, .number _⟩, ?_⟩
    split
    · exact ⟨.number _, .number _⟩
    · trivial

variable {value : JsValue}

theorem stringifyRecord_isJson (hjson : IsJson value) :
    ∃ line, stringifyRecord numbers value = .ok line :=
  ⟨_, by rw [stringifyRecord, hjson.transport]⟩

variable {chunks : List ReplayChunk}

/-- **The chunks of a replay of JSON values can be written in any order.** -/
theorem JsonSafe.exists_text (hsafe : replay.JsonSafe)
    (hcommands : chunks.flatMap commandsOf ⊆ replay.sim.commands)
    (hviewModels : chunks.flatMap viewModelsOf ⊆ replay.schema.frames.viewModels)
    (hrcbs : chunks.flatMap rcbsOf ⊆ replay.schema.frames.rcbs) :
    ∃ text, joinRecords numbers (replay.recordsAround chunks) = .ok text := by
  have hjson : ∀ value ∈ replay.recordsAround chunks, IsJson value := by
    obtain ⟨hheader, hcontent, hassets, hsim, hend⟩ := hsafe.records
    rw [recordsAround, forall_mem_append, forall_mem_append]
    refine ⟨?_, ?_, ?_⟩
    · simp only [forall_mem_cons, not_mem_nil, false_imp_iff, implies_true, and_true]
      exact ⟨hheader, hcontent, hassets, hsim⟩
    · intro value hvalue
      obtain ⟨chunk, hchunk, rfl⟩ := mem_map.mp hvalue
      exact hsafe.chunk (fun c hc => hcommands (mem_flatMap.mpr ⟨chunk, hchunk, hc⟩))
        (fun f hf => hviewModels (mem_flatMap.mpr ⟨chunk, hchunk, hf⟩))
        fun f hf => hrcbs (mem_flatMap.mpr ⟨chunk, hchunk, hf⟩)
    · rw [forall_mem_singleton]
      exact hend
  have hwritten : ∀ value ∈ replay.recordsAround chunks,
      ∃ line, stringifyRecord numbers value = .ok line :=
    fun value hvalue => stringifyRecord_isJson (hjson value hvalue)
  obtain ⟨lines, hlines⟩ := exists_mapM_ok hwritten
  exact ⟨_, bind_eq_ok.mpr ⟨lines, hlines, rfl⟩⟩

theorem JsonSafe.exists_text_perm (hsafe : replay.JsonSafe) (hpos : PositiveSizes sizes)
    (hperm : chunks.Perm (replay.chunks sizes)) :
    ∃ text, joinRecords numbers (replay.recordsAround chunks) = .ok text :=
  hsafe.exists_text
    ((hperm.flatMap_right _).trans (.of_eq (commandsOf_chunks hpos replay))).subset
    ((hperm.flatMap_right _).trans (.of_eq (viewModelsOf_chunks hpos replay))).subset
    ((hperm.flatMap_right _).trans (.of_eq (rcbsOf_chunks hpos replay))).subset

/-! ### The round trip -/

/-- Frames are read from the second version of the format only, so the encoder never refuses them. -/
theorem encode_eq_ok {text : String} (hsizes : options.sizes = .ok sizes) :
    encodeSimReplayJsonLines numbers replay options = .ok text ↔
      joinRecords numbers (replay.recordsAround (replay.chunks sizes)) = .ok text := by
  have hnone : ¬ (replay.schema.schemaVersion = 1 ∧
      (0 < replay.schema.frames.viewModels.length ∨ 0 < replay.schema.frames.rcbs.length)) := by
    rcases replay.schema with _ | frames
    · simp [frames]
    · simp [schemaVersion]
  have hencode : encodeSimReplayJsonLines numbers replay options =
      joinRecords numbers (replay.recordsAround (replay.chunks sizes)) := by
    rw [encodeSimReplayJsonLines, hsizes]
    exact if_neg hnone
  rw [hencode]

/-- The documented normalisation: a missing manifest hash is null, and a missing list of frames is
empty. -/
def normalized (replay : SimReplay) : SimReplay :=
  { replay with
    schema := if replay.schema.schemaVersion = 1 then .v1 else .v2 (some replay.schema.frames)
    assets := { manifestHash := some replay.assets.manifestHash.join } }

/-- A command keeps the rules of the format. No field of its payload is called `__proto__`, which
cloning would drop. -/
structure CommandWellFormed (command : Command JsValue) : Prop where
  type : isNonBlankString command.type = true
  step : IsNonNegativeInt command.step
  requestId : ∀ requestId ∈ command.requestId, isNonBlankString requestId = true
  payload : Json (· ≠ "__proto__") command.payload

structure ViewModelWellFormed (frame : SimReplayViewModelFrame) : Prop where
  step : IsNonNegativeInt frame.step
  hash : isNonBlankString frame.hash = true
  viewModel : Json (· ≠ "__proto__") frame.viewModel
  viewModelRecord : frame.viewModel.isRecord = true
  header : (frame.viewModel.get "frame").isRecord = true
  headerStep : (frame.viewModel.get "frame").get "step" = number frame.step

structure RcbWellFormed (frame : SimReplayRenderCommandBufferFrame) : Prop where
  renderFrame : IsNonNegativeInt frame.renderFrame
  step : IsNonNegativeInt frame.step
  hash : isNonBlankString frame.hash = true
  rcb : Json (· ≠ "__proto__") frame.rcb
  rcbRecord : frame.rcb.isRecord = true
  header : (frame.rcb.get "frame").isRecord = true
  headerStep : (frame.rcb.get "frame").get "step" = number frame.step
  headerRenderFrame : (frame.rcb.get "frame").get "renderFrame" = number frame.renderFrame

/-- A replay keeps the rules of the format. -/
structure WellFormed (replay : SimReplay) : Prop where
  records : replay.RecordsPass
  commands : ∀ command ∈ replay.sim.commands, CommandWellFormed command
  viewModels : ∀ frame ∈ replay.schema.frames.viewModels, ViewModelWellFormed frame
  viewModelsInOrder : InOrder SimReplayViewModelFrame.step replay.schema.frames.viewModels
  rcbs : ∀ frame ∈ replay.schema.frames.rcbs, RcbWellFormed frame
  rcbsInOrder : InOrder SimReplayRenderCommandBufferFrame.renderFrame replay.schema.frames.rcbs

/-- A replay, cut into chunks of some sizes, keeps the limits of a decoder. -/
structure WithinLimits (replay : SimReplay) (sizes : ReplayChunkSizes) (limits : ReplayLimits) :
    Prop where
  commands : replay.sim.commands.length ≤ limits.maxCommands
  viewModels : replay.schema.frames.viewModels.length ≤ limits.maxViewModelFrames
  rcbs : replay.schema.frames.rcbs.length ≤ limits.maxRcbFrames
  lines : (replay.chunks sizes).length + 5 ≤ limits.maxLines

theorem cloneJsonValue_self :
    cloneJsonValue value = .ok value ↔ Json (· ≠ "__proto__") value :=
  ⟨cloneJsonValueInner_json, Json.clone⟩

theorem rereadField_isJson (hjson : IsJson value) : rereadField value = value := by
  rw [rereadField, reread_isJson hjson, Option.getD_some]

/-- A command of JSON values comes back as it is exactly when it keeps the rules. -/
theorem readCommand_self (htimestamp : IsFinite command.timestamp.toJs)
    (hpayload : IsJson command.payload) :
    readCommand command = .ok command ↔ CommandWellFormed command := by
  rw [readCommand_eq_ok, rereadField_isJson hpayload]
  constructor
  · rintro ⟨htype, -, hstep, hids, payload, hclone, hsame⟩
    have hself : payload = command.payload := (congrArg Command.payload hsame).symm
    rw [hself, cloneJsonValue_self] at hclone
    exact ⟨htype, hstep, hids, hclone⟩
  · rintro ⟨htype, hstep, hids, hclone⟩
    exact ⟨htype, htimestamp, hstep, hids, _, cloneJsonValue_self.mpr hclone, rfl⟩

theorem readViewModelFrame_self (hviewModel : IsJson frame.viewModel) :
    readViewModelFrame frame = .ok frame ↔ ViewModelWellFormed frame := by
  rw [readViewModelFrame_eq_ok, rereadField_isJson hviewModel]
  constructor
  · rintro ⟨hstep, hhash, viewModel, hclone, hrecord, hheader, hheaderStep, hsame⟩
    obtain rfl : frame.viewModel = viewModel := congrArg SimReplayViewModelFrame.viewModel hsame
    exact ⟨hstep, hhash, cloneJsonValue_self.mp hclone, hrecord, hheader, hheaderStep⟩
  · rintro ⟨hstep, hhash, hclone, hrecord, hheader, hheaderStep⟩
    exact ⟨hstep, hhash, _, cloneJsonValue_self.mpr hclone, hrecord, hheader, hheaderStep, rfl⟩

theorem readRcbFrame_self {frame : SimReplayRenderCommandBufferFrame} (hrcb : IsJson frame.rcb) :
    readRcbFrame frame = .ok frame ↔ RcbWellFormed frame := by
  rw [readRcbFrame_eq_ok, rereadField_isJson hrcb]
  constructor
  · rintro ⟨hrenderFrame, hstep, hhash, rcb, hclone, hrecord, hheader, hheaderStep,
      hheaderRenderFrame, hsame⟩
    obtain rfl : frame.rcb = rcb := congrArg SimReplayRenderCommandBufferFrame.rcb hsame
    exact ⟨hrenderFrame, hstep, hhash, cloneJsonValue_self.mp hclone, hrecord, hheader,
      hheaderStep, hheaderRenderFrame⟩
  · rintro ⟨hrenderFrame, hstep, hhash, hclone, hrecord, hheader, hheaderStep,
      hheaderRenderFrame⟩
    exact ⟨hrenderFrame, hstep, hhash, _, cloneJsonValue_self.mpr hclone, hrecord, hheader,
      hheaderStep, hheaderRenderFrame, rfl⟩

theorem mapM_self {read : α → Except String α} :
    items.mapM read = .ok items ↔ ∀ item ∈ items, read item = .ok item := by
  rw [mapM_eq_ok]
  exact map_inj_left

/-- The frames of a result are those that were read. -/
theorem frames_eq_of_readAs {schema : SimReplaySchema} {viewModels : List SimReplayViewModelFrame}
    {rcbs : List SimReplayRenderCommandBufferFrame}
    (hviewModels : schema.frames.viewModels.mapM readViewModelFrame = .ok viewModels)
    (hrcbs : schema.frames.rcbs.mapM readRcbFrame = .ok rcbs)
    (hschema : (if schema.schemaVersion = 1 then .v1 else .v2 (some ⟨viewModels, rcbs⟩)) =
      if schema.schemaVersion = 1 then v1 else .v2 (some schema.frames)) :
    (⟨viewModels, rcbs⟩ : SimReplayFrames) = schema.frames := by
  rcases schema with _ | frames
  · obtain rfl : [] = viewModels := Except.ok.inj hviewModels
    obtain rfl : [] = rcbs := Except.ok.inj hrcbs
    rfl
  · exact Option.some.inj (v2.inj hschema)

/-- **The round trip of a replay file.** For every replay of JSON values and every split into chunks,
decoding what was encoded gives the replay back, up to the documented normalisation, exactly when the
replay keeps the rules of the format and the limits of the decoder. -/
theorem decode_encode_iff (reader : NumberReader numbers) {replay : SimReplay}
    (hsafe : replay.JsonSafe) {options : EncodeSimReplayOptions} {sizes : ReplayChunkSizes}
    (hsizes : options.sizes = .ok sizes) {decodeOptions : DecodeSimReplayOptions}
    {limits : ReplayLimits} (hlimits : decodeOptions.limits = .ok limits) :
    (∃ text, encodeSimReplayJsonLines numbers replay options = .ok text ∧
        decodeSimReplayJsonLines reader text decodeOptions = .ok replay.normalized) ↔
      replay.WellFormed ∧ replay.WithinLimits sizes limits := by
  have hpos := positiveSizes hsizes
  have hsnapshot := rereadField_isJson hsafe.initialSnapshot
  obtain ⟨text, htext⟩ : ∃ text,
      joinRecords numbers (replay.recordsAround (replay.chunks sizes)) = .ok text :=
    hsafe.exists_text_perm hpos (List.Perm.refl _)
  have hencode := (encode_eq_ok hsizes).mpr htext
  -- the encoder returns this text only
  have honly : (∃ text, encodeSimReplayJsonLines numbers replay options = .ok text ∧
      decodeSimReplayJsonLines reader text decodeOptions = .ok replay.normalized) ↔
        decodeSimReplayJsonLines reader text decodeOptions = .ok replay.normalized := by
    rw [hencode]
    simp
  rw [honly, decode_joined_iff htext]
  constructor
  · rintro ⟨limits', hlimits', hlines, hpass, commands, viewModels, rcbs, hreads, -, -, hresult⟩
    obtain rfl : limits = limits' := Except.ok.inj (hlimits.symm.trans hlimits')
    obtain rfl : replay.sim.commands = commands :=
      congrArg (fun result => result.sim.commands) hresult
    have hcommandsRead := hreads.commandsRead
    have hviewModelsRead := hreads.viewModelsRead
    have hviewModelsInOrder := hreads.viewModelsInOrder
    have hrcbsRead := hreads.rcbsRead
    have hrcbsInOrder := hreads.rcbsInOrder
    rw [commandsOf_chunks hpos] at hcommandsRead
    rw [viewModelsOf_chunks hpos] at hviewModelsRead hviewModelsInOrder
    rw [rcbsOf_chunks hpos] at hrcbsRead hrcbsInOrder
    have hframes : (⟨viewModels, rcbs⟩ : SimReplayFrames) = replay.schema.frames :=
      frames_eq_of_readAs hviewModelsRead hrcbsRead (congrArg SimReplay.schema hresult).symm
    obtain rfl : viewModels = replay.schema.frames.viewModels :=
      congrArg SimReplayFrames.viewModels hframes
    obtain rfl : rcbs = replay.schema.frames.rcbs := congrArg SimReplayFrames.rcbs hframes
    refine ⟨⟨hpass, fun command hcommand => ?_, fun frame hframe => ?_, hviewModelsInOrder,
      fun frame hframe => ?_, hrcbsInOrder⟩,
      hreads.commandLimit, hreads.viewModelLimit, hreads.rcbLimit, hlines⟩
    · obtain ⟨htimestamp, -, hpayload⟩ := hsafe.commands command hcommand
      exact (readCommand_self htimestamp hpayload).mp (mapM_self.mp hcommandsRead command hcommand)
    · exact (readViewModelFrame_self (hsafe.viewModels frame hframe).2).mp
        (mapM_self.mp hviewModelsRead frame hframe)
    · exact (readRcbFrame_self (hsafe.rcbs frame hframe).2.2).mp
        (mapM_self.mp hrcbsRead frame hframe)
  · rintro ⟨hwell, hwithin⟩
    refine ⟨limits, hlimits, hwithin.lines, hwell.records, replay.sim.commands,
      replay.schema.frames.viewModels, replay.schema.frames.rcbs, ⟨?_, ?_, hwithin.commands, ?_, ?_,
        hwithin.viewModels, ?_, ?_, hwithin.rcbs⟩, rfl, fun _ => ⟨rfl, rfl⟩, ?_⟩
    · exact fun chunk hchunk hvisual => visual_chunks replay hchunk hvisual
    · rw [commandsOf_chunks hpos, mapM_self]
      intro command hcommand
      obtain ⟨htimestamp, -, hpayload⟩ := hsafe.commands command hcommand
      exact (readCommand_self htimestamp hpayload).mpr (hwell.commands command hcommand)
    · rw [viewModelsOf_chunks hpos, mapM_self]
      intro frame hframe
      exact (readViewModelFrame_self (hsafe.viewModels frame hframe).2).mpr
        (hwell.viewModels frame hframe)
    · rw [viewModelsOf_chunks hpos]
      exact hwell.viewModelsInOrder
    · rw [rcbsOf_chunks hpos, mapM_self]
      intro frame hframe
      exact (readRcbFrame_self (hsafe.rcbs frame hframe).2.2).mpr (hwell.rcbs frame hframe)
    · rw [rcbsOf_chunks hpos]
      exact hwell.rcbsInOrder
    · rw [readAs, hsnapshot]
      rfl

/-- A short replay with some commands and view-model frames. -/
def short (commands : List (Command JsValue)) (viewModels : List SimReplayViewModelFrame) :
    SimReplay where
  header := ⟨.fin 0, "1.0.0"⟩
  schema := .v2 (some ⟨viewModels, []⟩)
  content := ⟨"pack", "1", ⟨.text "1", "digest"⟩⟩
  assets := ⟨none⟩
  sim := ⟨⟨true, true, true, true⟩, .fin 100, .fin 0, .fin 2, record [], commands, "checksum"⟩

/-- A command without a payload. -/
def plainCommand (type : String) : Command JsValue :=
  ⟨type, .player, .null, ((0 : ℚ) : WithTop ℚ), .fin 1, none⟩

/-- A view-model frame with nothing but its header. -/
def plainFrame (step : ℚ) : SimReplayViewModelFrame :=
  ⟨.fin step, "hash", record [("frame", record [("step", number (.fin step))])]⟩

/-- Chunks of one element, and the limits of the format. -/
def singleOptions : EncodeSimReplayOptions := ⟨some (.fin 1), some (.fin 1), some (.fin 1)⟩

def defaultOptions : DecodeSimReplayOptions := ⟨none, none, none, none⟩

theorem sizes_singleOptions : singleOptions.sizes = .ok ⟨1, 1, 1⟩ := by
  decide +kernel

theorem limits_defaultOptions :
    defaultOptions.limits = .ok ⟨1000000, 2000000, 100000, 100000⟩ := by
  decide +kernel

theorem isJson_plainFrame (step : ℚ) : Json (· ≠ "__proto__") (plainFrame step).viewModel := by
  have hheader : Json (· ≠ "__proto__") (record [("step", number (.fin step))]) :=
    .object (by simp) (by simp) (by simpa using Json.number step)
  exact .object (by simp) (by simp) (by simpa using hheader)

theorem jsonSafe_short (types : List String) (steps : List ℚ) :
    (short (types.map plainCommand) (steps.map plainFrame)).JsonSafe where
  recordedAt := ⟨0, rfl⟩
  digestVersion version h := by cases h
  stepSizeMs := ⟨100, rfl⟩
  startStep := ⟨0, rfl⟩
  endStep := ⟨2, rfl⟩
  initialSnapshot := isJson_record (by simp) (by simp)
  commands := by
    intro command hcommand
    obtain ⟨type, -, rfl⟩ := mem_map.mp hcommand
    exact ⟨⟨0, rfl⟩, ⟨1, rfl⟩, .null⟩
  viewModels := by
    intro frame hframe
    obtain ⟨step, -, rfl⟩ := mem_map.mp hframe
    exact ⟨⟨step, rfl⟩, (isJson_plainFrame step).isJson⟩
  rcbs frame h := by cases h

theorem recordsPass_short (commands : List (Command JsValue))
    (viewModels : List SimReplayViewModelFrame) : (short commands viewModels).RecordsPass where
  stepSizeMs := ⟨100, rfl, by decide +kernel⟩
  startStep := ⟨0, rfl, rfl, le_rfl⟩
  initialSnapshot := by
    have hjson : IsJson (record []) := isJson_record (by simp) (by simp)
    rw [short, rereadField_isJson hjson]
    rfl
  packId := (by decide : isNonBlankString "pack" = true)
  packVersion := (by decide : isNonBlankString "1" = true)
  digestHash := (by decide : isNonBlankString "digest" = true)
  digestVersion version h := by cases h
  recordedAt := ⟨0, rfl⟩
  runtimeVersion := (by decide : isNonBlankString "1.0.0" = true)
  manifestHash hash h := by cases h
  endStep := ⟨2, rfl, rfl, by decide +kernel⟩
  endStateChecksum := (by decide : isNonBlankString "checksum" = true)

theorem commandWellFormed_plain {type : String} (htype : isNonBlankString type = true) :
    CommandWellFormed (plainCommand type) where
  type := htype
  step := ⟨1, rfl, rfl, by decide +kernel⟩
  requestId _ h := by cases h
  payload := .null

theorem viewModelWellFormed_plain {step : ℚ} (hden : step.den = 1) (hpos : 0 ≤ step) :
    ViewModelWellFormed (plainFrame step) where
  step := ⟨step, rfl, hden, hpos⟩
  hash := (by decide : isNonBlankString "hash" = true)
  viewModel := isJson_plainFrame step
  viewModelRecord := rfl
  header := rfl
  headerStep := rfl

theorem decode_encode_two : ∃ text,
    encodeSimReplayJsonLines fractionText
        (short (["A", "B"].map plainCommand) ([0, 1].map plainFrame)) singleOptions = .ok text ∧
      decodeSimReplayJsonLines fractionReader text defaultOptions =
        .ok (short (["A", "B"].map plainCommand) ([0, 1].map plainFrame)).normalized := by
  refine (decode_encode_iff fractionReader (jsonSafe_short _ _) sizes_singleOptions
    limits_defaultOptions).mpr ⟨⟨recordsPass_short _ _, ?_, ?_, ?_, ?_, ?_⟩, ?_⟩
  · simp only [short, List.map_cons, List.map_nil, List.forall_mem_cons, List.not_mem_nil,
      false_imp_iff, implies_true, and_true]
    exact ⟨commandWellFormed_plain (by decide), commandWellFormed_plain (by decide)⟩
  · simp only [short, SimReplaySchema.frames, Option.getD_some, List.map_cons, List.map_nil,
      List.forall_mem_cons, List.not_mem_nil, false_imp_iff, implies_true, and_true]
    exact ⟨viewModelWellFormed_plain rfl le_rfl,
      viewModelWellFormed_plain rfl (by decide +kernel)⟩
  · simp [short, SimReplaySchema.frames, InOrder, plainFrame, JsNumber.lt, JsNumber.le]
  · exact fun frame h => by cases h
  · exact List.Pairwise.nil
  · exact ⟨by decide, by decide, by decide, by decide +kernel⟩

/-- **The encoder writes what the decoder refuses**: frames out of order. -/
theorem encode_accepts_unordered_frames : ∃ text,
    (short [] ([1, 0].map plainFrame)).JsonSafe ∧
      encodeSimReplayJsonLines fractionText (short [] ([1, 0].map plainFrame)) singleOptions =
        .ok text ∧
      ∀ result, decodeSimReplayJsonLines fractionReader text defaultOptions ≠ .ok result := by
  have hpos := positiveSizes sizes_singleOptions
  have hsafe := jsonSafe_short [] [1, 0]
  obtain ⟨text, htext⟩ : ∃ text, joinRecords fractionText ((short [] ([1, 0].map
      plainFrame)).recordsAround ((short [] ([1, 0].map plainFrame)).chunks ⟨1, 1, 1⟩)) =
        .ok text :=
    hsafe.exists_text_perm hpos (List.Perm.refl _)
  refine ⟨text, hsafe, (encode_eq_ok sizes_singleOptions).mpr htext, fun result hresult => ?_⟩
  obtain ⟨limits, -, -, -, commands, viewModels, rcbs, hreads, -⟩ :=
    (decode_joined_iff htext).mp hresult
  have horder := hreads.viewModelsInOrder
  rw [viewModelsOf_chunks hpos] at horder
  simp [short, SimReplaySchema.frames, InOrder, plainFrame, JsNumber.lt, JsNumber.le] at horder

end SimReplay

end IdleEngine
