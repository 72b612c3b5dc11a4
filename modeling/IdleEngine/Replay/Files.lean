import IdleEngine.Replay.Reading

/-!
# Files of a replay

The records of a replay, joined around its chunks in any order: what the decoder makes of each line,
of the body, and of the whole file (`decode_joined_iff`).
-/

namespace IdleEngine

open JsValue JsonText Outcome List OrderedMap Except Option

/-- A chunk of frames. -/
def ReplayChunk.visual : ReplayChunk → Bool
  | commands _ _ => false
  | _ => true

namespace SimReplay

variable {numbers : NumberText ℚ} {reader : NumberReader numbers}

/-! ### Lines -/

variable {line type : String}

/-- The line of a record is read as the record, with its type. -/
theorem readSimReplayRecord_line (reader : NumberReader numbers) {fields : List (String × JsValue)}
    (hline : stringifyRecord numbers (record fields) = .ok line)
    (hnodup : (fields.map Prod.fst).Nodup)
    (htype : find "type" fields = some (string type))
    (hblank : isNonBlankString type = true) :
    ∃ value, readSimReplayRecord reader line = .ok (type, value) ∧
      ∀ key, value.get key = ((find key fields).map rereadField).getD undefined := by
  obtain ⟨fields', hreread, -⟩ := reread_record hnodup
  have hparse : parseJson reader line = .ok (rereadElement (record fields)) := by
    rw [rereadElement, hreread, getD_some]
    exact parseJson_stringifyRecord reader hline hreread
  obtain ⟨hrecord, hget⟩ := rereadElement_record fields hnodup
  have hread : readNonEmptyString ((rereadElement (record fields)).get "type") "record.type" =
      .ok type := by
    rw [readNonEmptyString_eq_ok, hget, htype, map_some, getD_some,
      rereadField_string]
    exact ⟨rfl, hblank⟩
  exact ⟨_, bind_eq_ok.mpr ⟨_, hparse, bind_eq_ok.mpr
    ⟨(), ensure_eq_ok.mpr hrecord, bind_eq_ok.mpr ⟨type, hread, rfl⟩⟩⟩, hget⟩

variable {α : Type}

theorem readChunk_array (value : α → JsValue) (items : List α) (message : String) :
    readChunk (rereadField (array (items.map value))) message =
      .ok (items.map fun item => rereadElement (value item)) := by
  rw [rereadField, reread_array, getD_some, List.map_map]
  rfl

/-! ### The body -/

/-- The state after some chunks: each stream has read the elements of its kind, one chunk after the
other. -/
structure Absorbs (limits : ReplayLimits) (schemaVersion : ℕ) (chunks : List ReplayChunk)
    (state state' : ReplayBodyParseState) : Prop where
  visual : ∀ chunk ∈ chunks, chunk.visual = true → schemaVersion = 2
  commands : commandStream.append limits.maxCommands state.commands
    ((chunks.flatMap ReplayChunk.commandsOf).map fun command =>
      rereadElement (commandValue command)) = .ok state'.commands
  viewModels : viewModelStream.append limits.maxViewModelFrames state.viewModelFrames
    ((chunks.flatMap ReplayChunk.viewModelsOf).map fun frame => rereadElement frame.value) =
      .ok state'.viewModelFrames
  rcbs : rcbStream.append limits.maxRcbFrames state.rcbFrames
    ((chunks.flatMap ReplayChunk.rcbsOf).map fun frame => rereadElement frame.value) =
      .ok state'.rcbFrames

theorem append_nil_eq_ok {stream : ReplayStream α} {limit : ℕ}
    {collected collected' : CollectedStream α} :
    stream.append limit collected [] = .ok collected' ↔ collected' = collected := by
  rw [ReplayStream.append, foldlM_nil]
  exact ⟨fun h => (ok.inj h).symm, fun h => h ▸ rfl⟩

variable {limits : ReplayLimits} {schemaVersion : ℕ} {state : ReplayBodyParseState}

variable {state' : ReplayBodyParseState}

theorem absorbs_nil :
    Absorbs limits schemaVersion [] state state' ↔ state' = state := by
  constructor
  · rintro ⟨-, hcommands, hviewModels, hrcbs⟩
    obtain ⟨commands, viewModels, rcbs⟩ := state'
    obtain rfl : commands = state.commands := append_nil_eq_ok.mp hcommands
    obtain rfl : viewModels = state.viewModelFrames := append_nil_eq_ok.mp hviewModels
    obtain rfl : rcbs = state.rcbFrames := append_nil_eq_ok.mp hrcbs
    rfl
  · rintro rfl
    exact ⟨fun chunk hchunk => (by cases hchunk), rfl, rfl, rfl⟩

variable {chunks : List ReplayChunk}

variable {chunk : ReplayChunk}

theorem absorbs_cons :
    Absorbs limits schemaVersion (chunk :: chunks) state state' ↔
      ∃ next, Absorbs limits schemaVersion [chunk] state next ∧
        Absorbs limits schemaVersion chunks next state' := by
  constructor
  · rintro ⟨hvisual, hcommands, hviewModels, hrcbs⟩
    rw [flatMap_cons, map_append, ReplayStream.append_append, bind_eq_ok]
      at hcommands hviewModels hrcbs
    obtain ⟨commands, hc, hcommands⟩ := hcommands
    obtain ⟨viewModels, hv, hviewModels⟩ := hviewModels
    obtain ⟨rcbs, hr, hrcbs⟩ := hrcbs
    rw [forall_mem_cons] at hvisual
    refine ⟨⟨commands, viewModels, rcbs⟩, ⟨?_, ?_, ?_, ?_⟩,
      hvisual.2, hcommands, hviewModels, hrcbs⟩
    · rw [forall_mem_singleton]
      exact hvisual.1
    · rw [flatMap_singleton]
      exact hc
    · rw [flatMap_singleton]
      exact hv
    · rw [flatMap_singleton]
      exact hr
  · rintro ⟨next, ⟨hhead, hc, hv, hr⟩, ⟨hvisual, hcommands, hviewModels, hrcbs⟩⟩
    rw [flatMap_singleton] at hc hv hr
    rw [forall_mem_singleton] at hhead
    refine ⟨forall_mem_cons.mpr ⟨hhead, hvisual⟩, ?_, ?_, ?_⟩
    · rw [flatMap_cons, map_append, ReplayStream.append_append, bind_eq_ok]
      exact ⟨_, hc, hcommands⟩
    · rw [flatMap_cons, map_append, ReplayStream.append_append, bind_eq_ok]
      exact ⟨_, hv, hviewModels⟩
    · rw [flatMap_cons, map_append, ReplayStream.append_append, bind_eq_ok]
      exact ⟨_, hr, hrcbs⟩

variable {chunkIndex : ℕ} {next : ReplayBodyParseState}

variable {commands : List (Command JsValue)}

theorem absorbs_commands :
    Absorbs limits schemaVersion [.commands chunkIndex commands] state next ↔
      ∃ collected, commandStream.append limits.maxCommands state.commands
        (commands.map fun command => rereadElement (commandValue command)) = .ok collected ∧
        next = { state with commands := collected } := by
  constructor
  · rintro ⟨-, hcommands, hviewModels, hrcbs⟩
    rw [flatMap_singleton] at hcommands
    obtain ⟨collected, viewModels, rcbs⟩ := next
    obtain rfl : viewModels = state.viewModelFrames := append_nil_eq_ok.mp hviewModels
    obtain rfl : rcbs = state.rcbFrames := append_nil_eq_ok.mp hrcbs
    exact ⟨collected, hcommands, rfl⟩
  · rintro ⟨collected, hcollected, rfl⟩
    refine ⟨?_, ?_, rfl, rfl⟩
    · rw [forall_mem_singleton]
      exact fun h => by cases h
    · rw [flatMap_singleton]
      exact hcollected

theorem absorbs_viewModelFrames {frames : List SimReplayViewModelFrame} :
    Absorbs limits schemaVersion [.viewModelFrames chunkIndex frames] state next ↔
      schemaVersion = 2 ∧ ∃ collected, viewModelStream.append limits.maxViewModelFrames
        state.viewModelFrames (frames.map fun frame => rereadElement frame.value) = .ok collected ∧
        next = { state with viewModelFrames := collected } := by
  constructor
  · rintro ⟨hvisual, hcommands, hviewModels, hrcbs⟩
    rw [flatMap_singleton] at hviewModels
    obtain ⟨commands, collected, rcbs⟩ := next
    obtain rfl : commands = state.commands := append_nil_eq_ok.mp hcommands
    obtain rfl : rcbs = state.rcbFrames := append_nil_eq_ok.mp hrcbs
    exact ⟨hvisual _ mem_cons_self rfl, collected, hviewModels, rfl⟩
  · rintro ⟨hschema, collected, hcollected, rfl⟩
    refine ⟨fun _ _ _ => hschema, rfl, ?_, rfl⟩
    rw [flatMap_singleton]
    exact hcollected

theorem absorbs_rcbFrames {frames : List SimReplayRenderCommandBufferFrame} :
    Absorbs limits schemaVersion [.rcbFrames chunkIndex frames] state next ↔
      schemaVersion = 2 ∧ ∃ collected, rcbStream.append limits.maxRcbFrames
        state.rcbFrames (frames.map fun frame => rereadElement frame.value) = .ok collected ∧
        next = { state with rcbFrames := collected } := by
  constructor
  · rintro ⟨hvisual, hcommands, hviewModels, hrcbs⟩
    rw [flatMap_singleton] at hrcbs
    obtain ⟨commands, viewModels, collected⟩ := next
    obtain rfl : commands = state.commands := append_nil_eq_ok.mp hcommands
    obtain rfl : viewModels = state.viewModelFrames := append_nil_eq_ok.mp hviewModels
    exact ⟨hvisual _ mem_cons_self rfl, collected, hrcbs, rfl⟩
  · rintro ⟨hschema, collected, hcollected, rfl⟩
    refine ⟨fun _ _ _ => hschema, rfl, rfl, ?_⟩
    rw [flatMap_singleton]
    exact hcollected

theorem stored_eq_ok {stored : Except String (CollectedStream α)}
    {store : CollectedStream α → ReplayBodyParseState} :
    (stored >>= fun collected => .ok (store collected)) = .ok next ↔
      ∃ collected, stored = .ok collected ∧ next = store collected := by
  rw [bind_eq_ok]
  exact exists_congr fun collected => and_congr_right fun _ =>
    ⟨fun h => (ok.inj h).symm, fun h => h ▸ rfl⟩

variable {message : String}

theorem ensured_eq_ok {condition : Prop} [Decidable condition] (rest : Except String α)
    {result : α} :
    (ensure condition message >>= fun _ => rest) = .ok result ↔
      condition ∧ rest = .ok result := by
  rw [bind_eq_ok]
  constructor
  · rintro ⟨u, hcondition, hrest⟩
    exact ⟨ensure_eq_ok.mp hcondition, hrest⟩
  · rintro ⟨hcondition, hrest⟩
    exact ⟨(), ensure_eq_ok.mpr hcondition, hrest⟩

variable {lines : List String}

variable {value : JsValue}

theorem readBody_line (hread : readSimReplayRecord reader line = .ok (type, value)) :
    readReplayBodyAndEndRecord reader limits schemaVersion (line :: lines) state =
      if type = "commands" then
        handleReplayCommandsRecord limits value state >>=
          readReplayBodyAndEndRecord reader limits schemaVersion lines
      else if type = "viewModelFrames" then
        handleReplayViewModelFramesRecord limits schemaVersion value state >>=
          readReplayBodyAndEndRecord reader limits schemaVersion lines
      else if type = "rcbFrames" then
        handleReplayRcbFramesRecord limits schemaVersion value state >>=
          readReplayBodyAndEndRecord reader limits schemaVersion lines
      else if type = "end" then finalizeReplayBodyParse schemaVersion value state
      else .error ("Unexpected replay record type: " ++ type) := by
  rw [readReplayBodyAndEndRecord, hread]
  rfl

variable {body : ReplayBody}

/-- **One line of the body.** -/
theorem readBody_chunk (hline : stringifyRecord numbers chunk.record = .ok line) :
    readReplayBodyAndEndRecord reader limits schemaVersion (line :: lines) state = .ok body ↔
      ∃ next, Absorbs limits schemaVersion [chunk] state next ∧
        readReplayBodyAndEndRecord reader limits schemaVersion lines next = .ok body := by
  cases chunk with
  | commands chunkIndex commands =>
    obtain ⟨value, hread, hget⟩ := readSimReplayRecord_line reader hline (by simp) rfl (by decide)
    have helements : readChunk (value.get "commands")
        "Replay command chunk must contain commands array." =
          .ok (commands.map fun command => rereadElement (commandValue command)) := by
      rw [hget]
      exact readChunk_array commandValue commands _
    rw [readBody_line hread, if_pos rfl, bind_eq_ok]
    refine exists_congr fun next => and_congr_left fun _ => ?_
    rw [absorbs_commands, handleReplayCommandsRecord, helements]
    exact stored_eq_ok
  | viewModelFrames chunkIndex frames =>
    obtain ⟨value, hread, hget⟩ := readSimReplayRecord_line reader hline (by simp) rfl (by decide)
    have helements : readChunk (value.get "frames")
        "Replay viewModelFrames record must contain frames array." =
          .ok (frames.map fun frame => rereadElement frame.value) := by
      rw [hget]
      exact readChunk_array SimReplayViewModelFrame.value frames _
    rw [readBody_line hread, if_neg (by decide), if_pos rfl, bind_eq_ok]
    refine exists_congr fun next => and_congr_left fun _ => ?_
    rw [absorbs_viewModelFrames, handleReplayViewModelFramesRecord, helements]
    exact (ensured_eq_ok _).trans (and_congr_right fun _ => stored_eq_ok)
  | rcbFrames chunkIndex frames =>
    obtain ⟨value, hread, hget⟩ := readSimReplayRecord_line reader hline (by simp) rfl (by decide)
    have helements : readChunk (value.get "frames")
        "Replay rcbFrames record must contain frames array." =
          .ok (frames.map fun frame => rereadElement frame.value) := by
      rw [hget]
      exact readChunk_array SimReplayRenderCommandBufferFrame.value frames _
    rw [readBody_line hread, if_neg (by decide), if_neg (by decide), if_pos rfl,
      bind_eq_ok]
    refine exists_congr fun next => and_congr_left fun _ => ?_
    rw [absorbs_rcbFrames, handleReplayRcbFramesRecord, helements]
    exact (ensured_eq_ok _).trans (and_congr_right fun _ => stored_eq_ok)

variable {rest : List String}

/-- **The chunks of a body are absorbed line by line.** -/
theorem readBody_chunks
    (hlines : (chunks.map ReplayChunk.record).mapM (stringifyRecord numbers) = .ok lines) :
    readReplayBodyAndEndRecord reader limits schemaVersion (lines ++ rest) state = .ok body ↔
      ∃ state', Absorbs limits schemaVersion chunks state state' ∧
        readReplayBodyAndEndRecord reader limits schemaVersion rest state' = .ok body := by
  induction chunks generalizing lines state with
  | nil =>
    obtain rfl : [] = lines := ok.inj hlines
    rw [nil_append]
    constructor
    · exact fun h => ⟨state, absorbs_nil.mpr rfl, h⟩
    · rintro ⟨state', hstate, h⟩
      rwa [absorbs_nil.mp hstate] at h
  | cons chunk chunks ih =>
    rw [mapM_eq_ok, map_cons, map_cons] at hlines
    rcases lines with _ | ⟨line, lines⟩
    · cases hlines
    obtain ⟨hline, hrest⟩ := cons.inj hlines
    rw [cons_append, readBody_chunk hline]
    constructor
    · rintro ⟨next, hnext, h⟩
      obtain ⟨state', hstate, h⟩ := (ih (mapM_eq_ok.mpr hrest)).mp h
      exact ⟨state', absorbs_cons.mpr ⟨next, hnext, hstate⟩, h⟩
    · rintro ⟨state', hstate, h⟩
      obtain ⟨next, hnext, hstate⟩ := absorbs_cons.mp hstate
      exact ⟨next, hnext, (ih (mapM_eq_ok.mpr hrest)).mpr ⟨state', hstate, h⟩⟩

/-! ### The end record -/

theorem readNonNegativeInt_count {n : ℕ} {label : String} :
    readNonNegativeInt (number (.fin n)) label = .ok (n : ℚ) :=
  readNonNegativeInt_eq_ok.mpr ⟨rfl, Rat.den_natCast n, Nat.cast_nonneg n⟩

/-- What was read has the counts of a replay. -/
structure Counted (replay : SimReplay) (state : ReplayBodyParseState) : Prop where
  commands : state.commands.items.length = replay.sim.commands.length
  viewModels : replay.schema.schemaVersion = 2 →
    state.viewModelFrames.items.length = replay.schema.frames.viewModels.length
  rcbs : replay.schema.schemaVersion = 2 →
    state.rcbFrames.items.length = replay.schema.frames.rcbs.length

variable {replay : SimReplay}

/-- **The end record closes the body**, whatever stands behind it. -/
theorem readBody_end (hline : stringifyRecord numbers replay.endRecord = .ok line) :
    readReplayBodyAndEndRecord reader limits replay.schema.schemaVersion (line :: rest) state =
        .ok body ↔
      ∃ q : ℚ, (replay.sim.endStep = .fin q ∧ q.den = 1 ∧ 0 ≤ q) ∧
        isNonBlankString replay.sim.endStateChecksum = true ∧ Counted replay state ∧
        body = ⟨state.commands.items, state.viewModelFrames.items, state.rcbFrames.items, q,
          replay.sim.endStateChecksum⟩ := by
  obtain ⟨value, hread, hget⟩ := readSimReplayRecord_line reader hline
    (by cases replay.schema <;> simp [SimReplaySchema.schemaVersion]) rfl (by decide)
  have hendStep : value.get "endStep" = rereadField (number replay.sim.endStep) := by
    simp [hget, find]
  have hchecksum : value.get "endStateChecksum" = string replay.sim.endStateChecksum := by
    simp [hget, find]
  have hcommands : value.get "commandCount" = number (.fin replay.sim.commands.length) := by
    simp [hget, find]
  -- only files of version 2 count their frames
  have hviewModels : ∃ count : ℚ, readFrameCount replay.schema.schemaVersion
      (value.get "viewModelFrameCount") "end.viewModelFrameCount" = .ok count ∧
        (replay.schema.schemaVersion = 2 →
          count = replay.schema.frames.viewModels.length) := by
    by_cases hschema : replay.schema.schemaVersion = 2
    · refine ⟨replay.schema.frames.viewModels.length, ?_, fun _ => rfl⟩
      have hfield : value.get "viewModelFrameCount" =
          number (.fin replay.schema.frames.viewModels.length) := by
        simp [hget, find, hschema]
      rw [readFrameCount, if_pos hschema, hfield, readNonNegativeInt_count]
    · exact ⟨0, if_neg hschema, fun h => absurd h hschema⟩
  have hrcbs : ∃ count : ℚ, readFrameCount replay.schema.schemaVersion
      (value.get "rcbFrameCount") "end.rcbFrameCount" = .ok count ∧
        (replay.schema.schemaVersion = 2 → count = replay.schema.frames.rcbs.length) := by
    by_cases hschema : replay.schema.schemaVersion = 2
    · refine ⟨replay.schema.frames.rcbs.length, ?_, fun _ => rfl⟩
      have hfield : value.get "rcbFrameCount" =
          number (.fin replay.schema.frames.rcbs.length) := by
        simp [hget, find, hschema]
      rw [readFrameCount, if_pos hschema, hfield, readNonNegativeInt_count]
    · exact ⟨0, if_neg hschema, fun h => absurd h hschema⟩
  obtain ⟨viewModelCount, hviewModels, hviewModelCount⟩ := hviewModels
  obtain ⟨rcbCount, hrcbs, hrcbCount⟩ := hrcbs
  rw [readBody_line hread, if_neg (by decide), if_neg (by decide), if_neg (by decide), if_pos rfl]
  simp only [finalizeReplayBodyParse, hviewModels, hrcbs, bind_eq_ok, ensure_eq_ok,
    hendStep, hchecksum, hcommands, readNonNegativeInt_count, readNonEmptyString_eq_ok,
    readNonNegativeInt_eq_ok, rereadField_number_eq, JsValue.string.injEq, ok.injEq]
  constructor
  · rintro ⟨_, rfl, _, rfl, q, hq, _, ⟨rfl, hblank⟩, _, rfl, -, hcount, -, hv, -, hr, hbody⟩
    refine ⟨q, hq, hblank, ⟨?_, fun h => ?_, fun h => ?_⟩, (ok.inj hbody).symm⟩
    · exact_mod_cast hcount.symm
    · have hcounts := hv h
      rw [hviewModelCount h] at hcounts
      exact_mod_cast hcounts.symm
    · have hcounts := hr h
      rw [hrcbCount h] at hcounts
      exact_mod_cast hcounts.symm
  · rintro ⟨q, hq, hblank, ⟨hc, hv, hr⟩, rfl⟩
    refine ⟨_, rfl, _, rfl, q, hq, _, ⟨rfl, hblank⟩, _, rfl, (), by rw [hc], (), fun h => ?_, (),
      fun h => ?_, rfl⟩
    · rw [hviewModelCount h, hv h]
    · rw [hrcbCount h, hr h]

/-! ### The first four records -/

/-- The records around the body pass their checks. -/
structure RecordsPass (replay : SimReplay) : Prop where
  stepSizeMs : ∃ q : ℚ, replay.sim.stepSizeMs = .fin q ∧ 0 < q
  startStep : IsNonNegativeInt replay.sim.startStep
  initialSnapshot : (rereadField replay.sim.initialSnapshot).isRecord = true
  packId : isNonBlankString replay.content.packId = true
  packVersion : isNonBlankString replay.content.packVersion = true
  digestHash : isNonBlankString replay.content.digest.hash = true
  digestVersion : ∀ version, replay.content.digest.version = .number version →
    ∃ q : ℚ, version = .fin q
  recordedAt : ∃ q : ℚ, replay.header.recordedAt = .fin q
  runtimeVersion : isNonBlankString replay.header.runtimeVersion = true
  manifestHash : ∀ hash, replay.assets.manifestHash = some (some hash) →
    isNonBlankString hash = true
  endStep : IsNonNegativeInt replay.sim.endStep
  endStateChecksum : isNonBlankString replay.sim.endStateChecksum = true

/-- The replay that is returned for some commands and frames: a missing manifest hash is null,
missing frames are empty lists, and the snapshot is what was read of it. -/
def readAs (replay : SimReplay) (commands : List (Command JsValue))
    (viewModels : List SimReplayViewModelFrame) (rcbs : List SimReplayRenderCommandBufferFrame) :
    SimReplay where
  header := replay.header
  schema := if replay.schema.schemaVersion = 1 then .v1 else .v2 (some ⟨viewModels, rcbs⟩)
  content := replay.content
  assets := { manifestHash := some replay.assets.manifestHash.join }
  sim := { replay.sim with
    initialSnapshot := rereadField replay.sim.initialSnapshot, commands := commands }

theorem rereadField_record (fields : List (String × JsValue))
    (hnodup : (fields.map Prod.fst).Nodup) :
    (rereadField (record fields)).isRecord = true ∧
      ∀ key, (rereadField (record fields)).get key =
        ((find key fields).map rereadField).getD undefined := by
  obtain ⟨fields', hreread, -⟩ := reread_record hnodup
  have hsame : rereadField (record fields) = rereadElement (record fields) := by
    rw [rereadField, rereadElement, hreread, getD_some, getD_some]
  rw [hsame]
  exact rereadElement_record fields hnodup

theorem normalizeReplayWiringConfig_value (wiring : SimReplayWiringConfig) :
    normalizeReplayWiringConfig (rereadField wiring.value) = .ok wiring := by
  obtain ⟨hrecord, hget⟩ := rereadField_record wiring.value.fields
    (by simp [SimReplayWiringConfig.value])
  change (rereadField wiring.value).isRecord = true at hrecord
  change ∀ key, (rereadField wiring.value).get key = _ at hget
  obtain ⟨production, automation, transforms, entities⟩ := wiring
  refine bind_eq_ok.mpr ⟨(), ensure_eq_ok.mpr hrecord, ?_⟩
  simp only [hget]
  rfl

theorem normalizeDigest_eq_ok {digest digest' : SimReplayContentDigest} :
    normalizeDigest (rereadField digest.value) = .ok digest' ↔
      isNonBlankString digest.hash = true ∧
        (∀ version, digest.version = .number version → ∃ q : ℚ, version = .fin q) ∧
        digest' = digest := by
  obtain ⟨hrecord, hget⟩ := rereadField_record digest.value.fields
    (by simp [SimReplayContentDigest.value])
  change (rereadField digest.value).isRecord = true at hrecord
  change ∀ key, (rereadField digest.value).get key = _ at hget
  obtain ⟨version, hash⟩ := digest
  have hhash : (rereadField (SimReplayContentDigest.value ⟨version, hash⟩)).get "hash" =
      string hash := by
    rw [hget]
    simp [SimReplayContentDigest.value, find]
  have hversion : (rereadField (SimReplayContentDigest.value ⟨version, hash⟩)).get "version" =
      rereadField version.value := by
    rw [hget]
    simp [SimReplayContentDigest.value, find]
  simp only [normalizeDigest, bind_eq_ok, ensure_eq_ok, hrecord, hhash, hversion,
    readNonEmptyString_eq_ok, JsValue.string.injEq]
  have hdrop : ∀ {P : String → Prop}, (∃ _ : Unit, True ∧ ∃ text, (hash = text ∧
      isNonBlankString text = true) ∧ P text) ↔ isNonBlankString hash = true ∧ P hash := by
    intro P
    constructor
    · rintro ⟨-, -, _, ⟨rfl, hblank⟩, hP⟩
      exact ⟨hblank, hP⟩
    · rintro ⟨hblank, hP⟩
      exact ⟨(), trivial, hash, ⟨rfl, hblank⟩, hP⟩
  rw [hdrop]
  refine and_congr_right fun _ => ?_
  rcases version with value | text
  · -- a version that is not finite is written as null, which is neither number nor text
    rcases hfinite : value.finite? with _ | q
    · have hnull : rereadField (DigestVersion.number value).value = null := by
        rw [DigestVersion.value, rereadField, reread_number hfinite, getD_some]
      rw [hnull]
      refine iff_of_false (fun h => by cases h) fun h => ?_
      obtain ⟨q, rfl⟩ := h.1 value rfl
      cases hfinite
    · obtain rfl : value = .fin q := by
        cases value with
        | fin value => exact congrArg JsNumber.fin (some.inj hfinite)
        | _ => cases hfinite
      rw [DigestVersion.value, rereadField_fin]
      constructor
      · intro h
        refine ⟨fun version hversion => ⟨q, ?_⟩, (ok.inj h).symm⟩
        exact (DigestVersion.number.inj hversion).symm
      · rintro ⟨-, rfl⟩
        rfl
  · rw [DigestVersion.value, rereadField_string]
    constructor
    · intro h
      exact ⟨fun version hversion => (by cases hversion), (ok.inj h).symm⟩
    · rintro ⟨-, rfl⟩
      rfl

theorem readManifestHash_eq_ok {manifestHash : Option (Option String)}
    {manifestHash' : Option String} :
    readManifestHash ((manifestHash.map fun hash => rereadField (hash.elim null string)).getD
        undefined) = .ok manifestHash' ↔
      (∀ hash, manifestHash = some (some hash) → isNonBlankString hash = true) ∧
        manifestHash' = manifestHash.join := by
  have hmissing : ∀ value : JsValue, value = undefined ∨ value = null →
      (readManifestHash value = .ok manifestHash' ↔ manifestHash' = none) := by
    intro value hvalue
    have habsent : value.isUndefined = true ∨ value.isNull = true := by
      rcases hvalue with rfl | rfl
      · exact .inl rfl
      · exact .inr rfl
    rw [readManifestHash, if_pos habsent]
    exact ⟨fun h => (Except.ok.inj h).symm, fun h => h ▸ rfl⟩
  rcases manifestHash with _ | _ | hash
  · rw [map_none, getD_none, hmissing _ (.inl rfl)]
    exact (and_iff_right fun hash h => by cases h).symm
  · have hnull : rereadField null = null := by
      rw [rereadField, reread_null, getD_some]
    rw [map_some, elim_none, hnull, getD_some, hmissing _ (.inr rfl)]
    exact (and_iff_right fun hash h => by cases h).symm
  · rw [map_some, elim_some, rereadField_string, getD_some, readManifestHash,
      if_neg (by simp [isUndefined, isNull])]
    by_cases hblank : isNonBlankString hash = true
    · have hread : readNonEmptyString (string hash) "assets.manifestHash" = .ok hash :=
        readNonEmptyString_eq_ok.mpr ⟨rfl, hblank⟩
      rw [hread]
      constructor
      · intro h
        refine ⟨fun text htext => ?_, (Except.ok.inj h).symm⟩
        rw [← some.inj (some.inj htext)]
        exact hblank
      · rintro ⟨-, rfl⟩
        rfl
    · refine iff_of_false ?_ fun h => hblank (h.1 hash rfl)
      simp [readNonEmptyString, string?, hblank, Except.map]

/-- The first four records as they are read. -/
structure HeadRead (replay : SimReplay) (header content assets sim : JsValue) : Prop where
  recordedAt : header.get "recordedAt" = rereadField (number replay.header.recordedAt)
  runtimeVersion : header.get "runtimeVersion" = string replay.header.runtimeVersion
  packId : content.get "packId" = string replay.content.packId
  packVersion : content.get "packVersion" = string replay.content.packVersion
  digest : content.get "digest" = rereadField replay.content.digest.value
  manifestHash : assets.get "manifestHash" = (replay.assets.manifestHash.map fun hash =>
    rereadField (hash.elim null string)).getD undefined
  wiring : sim.get "wiring" = rereadField replay.sim.wiring.value
  stepSizeMs : sim.get "stepSizeMs" = rereadField (number replay.sim.stepSizeMs)
  startStep : sim.get "startStep" = rereadField (number replay.sim.startStep)
  initialSnapshot : sim.get "initialSnapshot" = rereadField replay.sim.initialSnapshot

variable {result : SimReplay}

/-- **The checks behind the body**, for the end step that the body has read. -/
theorem assembleReplay_eq_ok {header content assets sim : JsValue}
    (hhead : HeadRead replay header content assets sim) :
    (∃ q : ℚ, (replay.sim.endStep = .fin q ∧ q.den = 1 ∧ 0 ≤ q) ∧
        isNonBlankString replay.sim.endStateChecksum = true ∧
        assembleReplay replay.schema.schemaVersion header content assets sim
          ⟨state.commands.items, state.viewModelFrames.items, state.rcbFrames.items, q,
            replay.sim.endStateChecksum⟩ = .ok result) ↔
      replay.RecordsPass ∧ result = replay.readAs state.commands.items
        state.viewModelFrames.items state.rcbFrames.items := by
  simp only [assembleReplay, bind_eq_ok, hhead.wiring, hhead.initialSnapshot,
    hhead.stepSizeMs, hhead.startStep, hhead.packId, hhead.packVersion, hhead.digest,
    hhead.recordedAt, hhead.runtimeVersion, hhead.manifestHash, normalizeReplayWiringConfig_value,
    readReplayInitialSnapshot, ensure_eq_ok, readPositiveFiniteNumber_eq_ok,
    readNonNegativeInt_eq_ok, readFiniteNumber_eq_ok, readNonEmptyString_eq_ok,
    rereadField_number_eq, normalizeDigest_eq_ok, readManifestHash_eq_ok, JsValue.string.injEq]
  constructor
  · rintro ⟨q, hend, hchecksum, _, hwiring, _, ⟨-, hsnapshot, hvalue⟩, size, ⟨hsize, hpos⟩, start,
      ⟨hstart, hint⟩, _, ⟨rfl, hpackId⟩, _, ⟨rfl, hpackVersion⟩, _, ⟨hhash, hversion, rfl⟩, at', hat,
      _, ⟨rfl, hruntime⟩, _, ⟨hmanifest, rfl⟩, hresult⟩
    obtain rfl := ok.inj hwiring
    obtain rfl := ok.inj hvalue
    refine ⟨⟨⟨size, hsize, hpos⟩, ⟨start, hstart, hint⟩, hsnapshot, hpackId, hpackVersion, hhash,
      hversion, ⟨at', hat⟩, hruntime, hmanifest, ⟨q, hend⟩, hchecksum⟩, ?_⟩
    rw [← ok.inj hresult, readAs, ← hat, ← hsize, ← hstart, ← hend.1]
  · rintro ⟨hpass, rfl⟩
    obtain ⟨size, hsize, hpos⟩ := hpass.stepSizeMs
    obtain ⟨start, hstart, hint⟩ := hpass.startStep
    obtain ⟨at', hat⟩ := hpass.recordedAt
    obtain ⟨q, hend⟩ := hpass.endStep
    refine ⟨q, hend, hpass.endStateChecksum, _, rfl, _, ⟨(), hpass.initialSnapshot, rfl⟩, size,
      ⟨hsize, hpos⟩, start, ⟨hstart, hint⟩, _, ⟨rfl, hpass.packId⟩, _, ⟨rfl, hpass.packVersion⟩, _,
      ⟨hpass.digestHash, hpass.digestVersion, rfl⟩, at', hat, _, ⟨rfl, hpass.runtimeVersion⟩, _,
      ⟨hpass.manifestHash, rfl⟩, ?_⟩
    rw [readAs, ← hat, ← hsize, ← hstart, ← hend.1]
    rfl

/-! ### The file -/

/-- What a file with some chunks is read as: every command and every frame passes its checks, frames
come in increasing order, and the limits are kept. -/
structure ReadsChunks (limits : ReplayLimits) (schemaVersion : ℕ) (chunks : List ReplayChunk)
    (commands : List (Command JsValue)) (viewModels : List SimReplayViewModelFrame)
    (rcbs : List SimReplayRenderCommandBufferFrame) : Prop where
  visual : ∀ chunk ∈ chunks, chunk.visual = true → schemaVersion = 2
  commandsRead : (chunks.flatMap ReplayChunk.commandsOf).mapM readCommand = .ok commands
  commandLimit : commands.length ≤ limits.maxCommands
  viewModelsRead : (chunks.flatMap ReplayChunk.viewModelsOf).mapM readViewModelFrame = .ok viewModels
  viewModelsInOrder : InOrder SimReplayViewModelFrame.step
    (chunks.flatMap ReplayChunk.viewModelsOf)
  viewModelLimit : viewModels.length ≤ limits.maxViewModelFrames
  rcbsRead : (chunks.flatMap ReplayChunk.rcbsOf).mapM readRcbFrame = .ok rcbs
  rcbsInOrder : InOrder SimReplayRenderCommandBufferFrame.renderFrame
    (chunks.flatMap ReplayChunk.rcbsOf)
  rcbLimit : rcbs.length ≤ limits.maxRcbFrames

/-- The streams before the first chunk. -/
def startState : ReplayBodyParseState :=
  { commands := ReplayStream.start, viewModelFrames := ReplayStream.start
    rcbFrames := ReplayStream.start }

theorem exists_absorbs_start {viewModels : List SimReplayViewModelFrame}
    {rcbs : List SimReplayRenderCommandBufferFrame} :
    (∃ state, Absorbs limits schemaVersion chunks startState state ∧
        state.commands.items = commands ∧ state.viewModelFrames.items = viewModels ∧
        state.rcbFrames.items = rcbs) ↔
      ReadsChunks limits schemaVersion chunks commands viewModels rcbs := by
  constructor
  · rintro ⟨state, ⟨hvisual, hcommands, hviewModels, hrcbs⟩, rfl, rfl, rfl⟩
    obtain ⟨hc, hclimit⟩ := commandStream_append_start.mp ⟨_, hcommands, rfl⟩
    obtain ⟨hv, hvorder, hvlimit⟩ := viewModelStream_append_start.mp ⟨_, hviewModels, rfl⟩
    obtain ⟨hr, hrorder, hrlimit⟩ := rcbStream_append_start.mp ⟨_, hrcbs, rfl⟩
    exact ⟨hvisual, hc, hclimit, hv, hvorder, hvlimit, hr, hrorder, hrlimit⟩
  · rintro ⟨hvisual, hc, hclimit, hv, hvorder, hvlimit, hr, hrorder, hrlimit⟩
    obtain ⟨c, hcommands, rfl⟩ := commandStream_append_start.mpr ⟨hc, hclimit⟩
    obtain ⟨v, hviewModels, rfl⟩ := viewModelStream_append_start.mpr ⟨hv, hvorder, hvlimit⟩
    obtain ⟨r, hrcbs, rfl⟩ := rcbStream_append_start.mpr ⟨hr, hrorder, hrlimit⟩
    exact ⟨⟨c, v, r⟩, ⟨hvisual, hcommands, hviewModels, hrcbs⟩, rfl, rfl, rfl⟩

theorem exists_fields_record (chunk : ReplayChunk) : ∃ fields, chunk.record = .record fields := by
  cases chunk <;> exact ⟨_, rfl⟩

variable {text : String}

/-- The lines of a file. -/
theorem exists_lines (htext : joinRecords numbers (replay.recordsAround chunks) = .ok text) :
    ∃ header content assets sim body ending,
      stringifyRecord numbers replay.headerRecord = .ok header ∧
      stringifyRecord numbers replay.contentRecord = .ok content ∧
      stringifyRecord numbers replay.assetsRecord = .ok assets ∧
      stringifyRecord numbers replay.simRecord = .ok sim ∧
      (chunks.map ReplayChunk.record).mapM (stringifyRecord numbers) = .ok body ∧
      stringifyRecord numbers replay.endRecord = .ok ending ∧
      text = "\n".intercalate (header :: content :: assets :: sim :: (body ++ [ending])) ++ "\n" := by
  obtain ⟨lines, hlines, hjoin⟩ := bind_ok htext
  have hmap := (mapM_eq_ok.mp hlines).symm
  rw [recordsAround, map_append, map_append, map_cons, map_cons,
    map_cons, map_cons, map_nil, map_singleton, cons_append,
    cons_append, cons_append, cons_append, nil_append] at hmap
  obtain ⟨header, lines, rfl, hheader, hmap⟩ := map_eq_cons_iff.mp hmap
  obtain ⟨content, lines, rfl, hcontent, hmap⟩ := map_eq_cons_iff.mp hmap
  obtain ⟨assets, lines, rfl, hassets, hmap⟩ := map_eq_cons_iff.mp hmap
  obtain ⟨sim, lines, rfl, hsim, hmap⟩ := map_eq_cons_iff.mp hmap
  obtain ⟨body, last, rfl, hbody, hlast⟩ := map_eq_append_iff.mp hmap
  obtain ⟨ending, rest, rfl, hending, hrest⟩ := map_eq_cons_iff.mp hlast
  obtain rfl : rest = [] := map_eq_nil_iff.mp hrest
  exact ⟨header, content, assets, sim, body, ending, hheader.symm, hcontent.symm, hassets.symm,
    hsim.symm, mapM_eq_ok.mpr hbody.symm, hending.symm, (ok.inj hjoin).symm⟩

theorem readRequired_line {index : ℕ} (hline : lines[index]? = some line)
    (hread : readSimReplayRecord reader line = .ok (type, value)) :
    readRequiredSimReplayRecord reader lines index type message = .ok value := by
  rw [readRequiredSimReplayRecord, hline]
  exact bind_eq_ok.mpr ⟨_, hread, bind_eq_ok.mpr ⟨(), ensure_eq_ok.mpr rfl, rfl⟩⟩

theorem readSchemaVersion_value (schema : SimReplaySchema) :
    readSchemaVersion (number (.fin schema.schemaVersion)) = .ok schema.schemaVersion := by
  cases schema
  · rfl
  · rw [readSchemaVersion, if_neg (by simp [number?, SimReplaySchema.schemaVersion])]
    rfl

/-- **What a file is read as.** The file of a replay, with some chunks in the order of the lines, is
accepted exactly when the limits are kept, every record passes its checks and the counts agree; the
result is the replay with the commands and the frames of the chunks. -/
theorem decode_joined_iff (htext : joinRecords numbers (replay.recordsAround chunks) = .ok text)
    {options : DecodeSimReplayOptions} :
    decodeSimReplayJsonLines reader text options = .ok result ↔
      ∃ limits, options.limits = .ok limits ∧ chunks.length + 5 ≤ limits.maxLines ∧
        replay.RecordsPass ∧ ∃ commands viewModels rcbs,
          ReadsChunks limits replay.schema.schemaVersion chunks commands viewModels rcbs ∧
          commands.length = replay.sim.commands.length ∧
          (replay.schema.schemaVersion = 2 →
            viewModels.length = replay.schema.frames.viewModels.length ∧
              rcbs.length = replay.schema.frames.rcbs.length) ∧
          result = replay.readAs commands viewModels rcbs := by
  obtain ⟨header, content, assets, sim, body, ending, hheader, hcontent, hassets, hsim, hbody,
    hending, rfl⟩ := exists_lines htext
  obtain ⟨headerValue, hreadHeader, hgetHeader⟩ :=
    readSimReplayRecord_line reader hheader (by simp) rfl (by decide)
  obtain ⟨contentValue, hreadContent, hgetContent⟩ :=
    readSimReplayRecord_line reader hcontent (by simp) rfl (by decide)
  obtain ⟨assetsValue, hreadAssets, hgetAssets⟩ := readSimReplayRecord_line reader hassets
    (by cases replay.assets.manifestHash <;> simp) rfl (by decide)
  obtain ⟨simValue, hreadSim, hgetSim⟩ :=
    readSimReplayRecord_line reader hsim (by simp) rfl (by decide)
  have hhead : HeadRead replay headerValue contentValue assetsValue simValue := by
    refine ⟨?_, ?_, ?_, ?_, ?_, ?_, ?_, ?_, ?_, ?_⟩
    · simp [hgetHeader, find]
    · simp [hgetHeader, find]
    · simp [hgetContent, find]
    · simp [hgetContent, find]
    · simp [hgetContent, find]
    · rw [hgetAssets]
      cases replay.assets.manifestHash <;> simp [find]
    · simp [hgetSim, find]
    · simp [hgetSim, find]
    · simp [hgetSim, find]
    · simp [hgetSim, find]
  have hfileType : (headerValue.get "fileType").string? = some simReplayFileType := by
    simp [hgetHeader, find, string?]
  have hschema : headerValue.get "schemaVersion" =
      number (.fin replay.schema.schemaVersion) := by
    simp [hgetHeader, find]
  set lines := header :: content :: assets :: sim :: (body ++ [ending]) with hlines
  have hlength : lines.length = chunks.length + 5 := by
    have hbodyLength : body.length = chunks.length := by
      have hmap := congrArg length (mapM_eq_ok.mp hbody)
      simpa using hmap.symm
    simp only [hlines, length_cons, length_append, length_nil, hbodyLength]
  have hobjects : ∀ line ∈ lines, ObjectLine line := by
    have hbodyLines : ∀ line ∈ body, ObjectLine line := by
      intro line hline
      have hmem : (.ok line : Except String String) ∈
          (chunks.map ReplayChunk.record).map (stringifyRecord numbers) := by
        rw [mapM_eq_ok.mp hbody]
        exact mem_map_of_mem hline
      obtain ⟨value, hvalue, hok⟩ := mem_map.mp hmem
      obtain ⟨chunk, -, rfl⟩ := mem_map.mp hvalue
      obtain ⟨fields, hfields⟩ := exists_fields_record chunk
      rw [hfields] at hok
      exact objectLine_stringifyRecord reader hok
    rw [hlines]
    refine forall_mem_cons.mpr ⟨objectLine_stringifyRecord reader hheader, ?_⟩
    refine forall_mem_cons.mpr ⟨objectLine_stringifyRecord reader hcontent, ?_⟩
    refine forall_mem_cons.mpr ⟨objectLine_stringifyRecord reader hassets, ?_⟩
    refine forall_mem_cons.mpr ⟨objectLine_stringifyRecord reader hsim, ?_⟩
    refine forall_mem_append.mpr ⟨hbodyLines, ?_⟩
    rw [forall_mem_singleton]
    exact objectLine_stringifyRecord reader hending
  have hnonempty : lines ≠ [] := cons_ne_nil _ _
  have hsplit := splitReplayLines_join hnonempty hobjects
  have hfirst : readRequiredSimReplayRecord reader lines 0 "header"
      "Replay header record must appear first." = .ok headerValue :=
    readRequired_line rfl hreadHeader
  have hsecond : readRequiredSimReplayRecord reader lines 1 "content"
      "Replay content record must appear second." = .ok contentValue :=
    readRequired_line rfl hreadContent
  have hthird : readRequiredSimReplayRecord reader lines 2 "assets"
      "Replay assets record must appear third." = .ok assetsValue :=
    readRequired_line rfl hreadAssets
  have hfourth : readRequiredSimReplayRecord reader lines 3 "sim"
      "Replay sim record must appear fourth." = .ok simValue :=
    readRequired_line rfl hreadSim
  -- the four records in front of the body are those of the replay
  have hdecode : decodeSimReplayJsonLines reader ("\n".intercalate lines ++ "\n") options =
        .ok result ↔
      ∃ limits, options.limits = .ok limits ∧ chunks.length + 5 ≤ limits.maxLines ∧
        ∃ readBody, readReplayBodyAndEndRecord reader limits replay.schema.schemaVersion
          (body ++ [ending]) startState = .ok readBody ∧
          assembleReplay replay.schema.schemaVersion headerValue contentValue assetsValue simValue
            readBody = .ok result := by
    rw [decodeSimReplayJsonLines, bind_eq_ok]
    refine exists_congr fun limits => and_congr_right fun _ => ?_
    rw [hsplit, hlength]
    by_cases hlimit : limits.maxLines < chunks.length + 5
    · rw [if_pos hlimit]
      exact iff_of_false (by simp [bind, Except.bind]) fun h => absurd h.1 (not_le.mpr hlimit)
    · rw [if_neg hlimit, and_iff_right (not_lt.mp hlimit), bind_eq_ok]
      simp only [ok.injEq, exists_eq_left', bind_eq_ok, ensure_eq_ok, hfirst,
        hsecond, hthird, hfourth, hfileType, hschema, readSchemaVersion_value]
      constructor
      · rintro ⟨-, -, readBody, hread, hresult⟩
        exact ⟨readBody, hread, hresult⟩
      · rintro ⟨readBody, hread, hresult⟩
        exact ⟨(), trivial, readBody, hread, hresult⟩
  rw [hdecode]
  refine exists_congr fun limits => and_congr_right fun _ => and_congr_right fun _ => ?_
  constructor
  · rintro ⟨readBody, hread, hresult⟩
    obtain ⟨state, habsorbs, hend⟩ := (readBody_chunks hbody).mp hread
    obtain ⟨q, hq, hchecksum, hcounted, rfl⟩ := (readBody_end hending).mp hend
    obtain ⟨hpass, rfl⟩ := (assembleReplay_eq_ok hhead).mp ⟨q, hq, hchecksum, hresult⟩
    exact ⟨hpass, _, _, _, exists_absorbs_start.mp ⟨state, habsorbs, rfl, rfl, rfl⟩,
      hcounted.commands, fun h => ⟨hcounted.viewModels h, hcounted.rcbs h⟩, rfl⟩
  · rintro ⟨hpass, commands, viewModels, rcbs, hreads, hcommands, hframes, rfl⟩
    obtain ⟨state, habsorbs, rfl, rfl, rfl⟩ := exists_absorbs_start.mpr hreads
    obtain ⟨q, hq, hchecksum, hresult⟩ := (assembleReplay_eq_ok hhead).mpr ⟨hpass, rfl⟩
    exact ⟨_, (readBody_chunks hbody).mpr ⟨state, habsorbs, (readBody_end hending).mpr
      ⟨q, hq, hchecksum, ⟨hcommands, fun h => (hframes h).1, fun h => (hframes h).2⟩, rfl⟩⟩,
      hresult⟩

end SimReplay

end IdleEngine
