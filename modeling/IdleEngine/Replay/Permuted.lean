import IdleEngine.Replay.RoundTrip

/-!
# Replay files with their lines exchanged

The decoder does not read the index of a chunk. Exchanged lines are noticed when they bring frames out
of order; commands have no order to check, so a file with exchanged command lines is read as a replay
with the commands of the new order. `decode_permuted_iff` says when that is harmless.
-/

namespace IdleEngine

open JsValue JsonText Outcome ReplayChunk

namespace SimReplay

variable {numbers : NumberText ℚ}

/-- The frames of some chunks, read one chunk after the other, come in increasing order. -/
structure FramesInOrder (chunks : List ReplayChunk) : Prop where
  viewModels : InOrder SimReplayViewModelFrame.step (chunks.flatMap ReplayChunk.viewModelsOf)
  rcbs : InOrder SimReplayRenderCommandBufferFrame.renderFrame
    (chunks.flatMap ReplayChunk.rcbsOf)

/-- Everything in the file of a replay but the order of its frames passes the checks. -/
structure Acceptable (replay : SimReplay) (sizes : ReplayChunkSizes) (limits : ReplayLimits) :
    Prop where
  records : replay.RecordsPass
  commands : ∀ command ∈ replay.sim.commands, ∃ command', readCommand command = .ok command'
  viewModels : ∀ frame ∈ replay.schema.frames.viewModels,
    ∃ frame', readViewModelFrame frame = .ok frame'
  rcbs : ∀ frame ∈ replay.schema.frames.rcbs, ∃ frame', readRcbFrame frame = .ok frame'
  within : replay.WithinLimits sizes limits

theorem InOrder.eq_of_perm {α : Type} {position : α → JsNumber} {items items' : List α}
    (hperm : items.Perm items') (h : InOrder position items) (h' : InOrder position items') :
    items = items' := by
  refine List.Perm.eq_of_pairwise (fun a b _ _ hab hba => ?_) h h' hperm
  rw [JsNumber.lt, Bool.and_eq_true] at hab hba
  rw [hba.1] at hab
  exact absurd hab.2 (by decide)

/-- The same lines in another order make the same number of lines and the same counts. -/
theorem mapM_length {α β : Type} {f : α → Except String β} {l : List α} {out : List β}
    (h : l.mapM f = .ok out) : out.length = l.length := by
  have hmap := congrArg List.length (mapM_eq_ok.mp h)
  rw [List.length_map, List.length_map] at hmap
  exact hmap.symm

section Permuted

variable {replay : SimReplay} {sizes : ReplayChunkSizes} {chunks : List ReplayChunk}
  {limits : ReplayLimits}

/-- **What a file with exchanged lines is read as.** It is accepted exactly when its frames are in
order and everything else passes the checks. -/
theorem exists_readsChunks_iff (hpos : PositiveSizes sizes)
    (hperm : chunks.Perm (replay.chunks sizes)) :
    (chunks.length + 5 ≤ limits.maxLines ∧ replay.RecordsPass ∧ ∃ commands viewModels rcbs,
        ReadsChunks limits replay.schema.schemaVersion chunks commands viewModels rcbs) ↔
      replay.Acceptable sizes limits ∧ FramesInOrder chunks := by
  -- exchanged lines hold the same records in another order
  have hcommands : (chunks.flatMap commandsOf).Perm replay.sim.commands := by
    rw [← commandsOf_chunks hpos]
    exact hperm.flatMap_right _
  have hviewModels : (chunks.flatMap viewModelsOf).Perm
      replay.schema.frames.viewModels := by
    rw [← viewModelsOf_chunks hpos]
    exact hperm.flatMap_right _
  have hrcbs : (chunks.flatMap rcbsOf).Perm replay.schema.frames.rcbs := by
    rw [← rcbsOf_chunks hpos]
    exact hperm.flatMap_right _
  constructor
  · rintro ⟨hlines, hpass, commands, viewModels, rcbs, hreads⟩
    have hc := mapM_length hreads.commandsRead
    have hv := mapM_length hreads.viewModelsRead
    have hr := mapM_length hreads.rcbsRead
    rw [hcommands.length_eq] at hc
    rw [hviewModels.length_eq] at hv
    rw [hrcbs.length_eq] at hr
    refine ⟨⟨hpass, fun command hmem => ?_, fun frame hmem => ?_, fun frame hmem => ?_,
      ⟨hc ▸ hreads.commandLimit, hv ▸ hreads.viewModelLimit, hr ▸ hreads.rcbLimit,
        hperm.length_eq ▸ hlines⟩⟩, hreads.viewModelsInOrder, hreads.rcbsInOrder⟩
    · obtain ⟨out, -, hok⟩ :=
        exists_ok_of_mapM hreads.commandsRead (hcommands.mem_iff.mpr hmem)
      exact ⟨out, hok⟩
    · obtain ⟨out, -, hok⟩ :=
        exists_ok_of_mapM hreads.viewModelsRead (hviewModels.mem_iff.mpr hmem)
      exact ⟨out, hok⟩
    · obtain ⟨out, -, hok⟩ :=
        exists_ok_of_mapM hreads.rcbsRead (hrcbs.mem_iff.mpr hmem)
      exact ⟨out, hok⟩
  · rintro ⟨haccept, horder⟩
    obtain ⟨commands, hc⟩ := exists_mapM_ok fun command hmem =>
      haccept.commands command (hcommands.mem_iff.mp hmem)
    obtain ⟨viewModels, hv⟩ := exists_mapM_ok fun frame hmem =>
      haccept.viewModels frame (hviewModels.mem_iff.mp hmem)
    obtain ⟨rcbs, hr⟩ := exists_mapM_ok fun frame hmem =>
      haccept.rcbs frame (hrcbs.mem_iff.mp hmem)
    have hclength := (mapM_length hc).trans hcommands.length_eq
    have hvlength := (mapM_length hv).trans hviewModels.length_eq
    have hrlength := (mapM_length hr).trans hrcbs.length_eq
    refine ⟨hperm.length_eq ▸ haccept.within.lines, haccept.records, commands, viewModels, rcbs,
      fun chunk hchunk hvisual => visual_chunks replay (hperm.mem_iff.mp hchunk) hvisual,
      hc, hclength ▸ haccept.within.commands, hv, horder.viewModels,
      hvlength ▸ haccept.within.viewModels, hr, horder.rcbs, hrlength ▸ haccept.within.rcbs⟩

/-- The counts of the end record agree, whatever the order of the lines. -/
theorem ReadsChunks.counts {commands : List (Command JsValue)}
    {viewModels : List SimReplayViewModelFrame} {rcbs : List SimReplayRenderCommandBufferFrame}
    (hpos : PositiveSizes sizes) (hperm : chunks.Perm (replay.chunks sizes))
    (hreads : ReadsChunks limits replay.schema.schemaVersion chunks commands viewModels rcbs) :
    commands.length = replay.sim.commands.length ∧
      viewModels.length = replay.schema.frames.viewModels.length ∧
      rcbs.length = replay.schema.frames.rcbs.length := by
  refine ⟨?_, ?_, ?_⟩
  · rw [mapM_length hreads.commandsRead, (hperm.flatMap_right _).length_eq, commandsOf_chunks hpos]
  · rw [mapM_length hreads.viewModelsRead, (hperm.flatMap_right _).length_eq,
      viewModelsOf_chunks hpos]
  · rw [mapM_length hreads.rcbsRead, (hperm.flatMap_right _).length_eq, rcbsOf_chunks hpos]

end Permuted

/-- If everything passes the checks and the frames of the exchanged lines are in order, then the frames
of the file itself are in order too, and the commands of the exchanged lines, one line after the
other, are read as those of the file. -/
def KeepsRun (replay : SimReplay) (sizes : ReplayChunkSizes) (chunks : List ReplayChunk)
    (options : DecodeSimReplayOptions) : Prop :=
  ∀ limits, options.limits = .ok limits → replay.Acceptable sizes limits → FramesInOrder chunks →
    FramesInOrder (replay.chunks sizes) ∧
      (chunks.flatMap ReplayChunk.commandsOf).map readCommand =
        replay.sim.commands.map readCommand

/-- **When exchanged lines are harmless.** -/
theorem decode_permuted_iff (reader : NumberReader numbers) {replay : SimReplay}
    {encodeOptions : EncodeSimReplayOptions} {sizes : ReplayChunkSizes}
    (hsizes : encodeOptions.sizes = .ok sizes) {original : String}
    (hencode : encodeSimReplayJsonLines numbers replay encodeOptions = .ok original)
    {chunks : List ReplayChunk} (hperm : chunks.Perm (replay.chunks sizes)) {permuted : String}
    (hpermuted : joinRecords numbers (replay.recordsAround chunks) = .ok permuted)
    (options : DecodeSimReplayOptions) :
    (∀ result, decodeSimReplayJsonLines reader permuted options = .ok result →
        decodeSimReplayJsonLines reader original options = .ok result) ↔
      replay.KeepsRun sizes chunks options := by
  have hpos := positiveSizes hsizes
  have horiginal := (encode_eq_ok hsizes).mp hencode
  constructor
  · intro hsame limits hlimits haccept horder
    obtain ⟨hlines, hpass, commands, viewModels, rcbs, hreads⟩ :=
      (exists_readsChunks_iff hpos hperm).mpr ⟨haccept, horder⟩
    obtain ⟨hc, hv, hr⟩ := hreads.counts hpos hperm
    have hdecoded := hsame _ ((decode_joined_iff hpermuted).mpr ⟨limits, hlimits, hlines, hpass,
      commands, viewModels, rcbs, hreads, hc, fun _ => ⟨hv, hr⟩, rfl⟩)
    obtain ⟨limits', hlimits', -, -, commands', viewModels', rcbs', hreads', -, -, hresult⟩ :=
      (decode_joined_iff horiginal).mp hdecoded
    obtain rfl : commands = commands' := congrArg (fun result => result.sim.commands) hresult
    have hread' := hreads'.commandsRead
    rw [commandsOf_chunks hpos, mapM_eq_ok] at hread'
    refine ⟨⟨hreads'.viewModelsInOrder, hreads'.rcbsInOrder⟩, ?_⟩
    rw [mapM_eq_ok.mp hreads.commandsRead, hread']
  · intro hkeeps result hresult
    obtain ⟨limits, hlimits, hlines, hpass, commands, viewModels, rcbs, hreads, hc, hframes, rfl⟩ :=
      (decode_joined_iff hpermuted).mp hresult
    obtain ⟨haccept, horder⟩ :=
      (exists_readsChunks_iff hpos hperm).mp ⟨hlines, hpass, commands, viewModels, rcbs, hreads⟩
    obtain ⟨horder', hcommands⟩ := hkeeps limits hlimits haccept horder
    -- frames in order are the same list, so only the commands could differ
    have hviewModels := InOrder.eq_of_perm (hperm.flatMap_right _) horder.viewModels
      horder'.viewModels
    have hrcbs := InOrder.eq_of_perm (hperm.flatMap_right _) horder.rcbs horder'.rcbs
    have hcommandsRead := mapM_eq_ok.mp hreads.commandsRead
    rw [hcommands, ← commandsOf_chunks hpos, ← mapM_eq_ok] at hcommandsRead
    refine (decode_joined_iff horiginal).mpr ⟨limits, hlimits, hperm.length_eq ▸ hlines, hpass,
      commands, viewModels, rcbs, ⟨fun chunk hchunk => hreads.visual chunk
        (hperm.mem_iff.mpr hchunk), hcommandsRead, hreads.commandLimit, ?_, horder'.viewModels,
        hreads.viewModelLimit, ?_, horder'.rcbs, hreads.rcbLimit⟩, hc, hframes, rfl⟩
    · rw [← hviewModels]
      exact hreads.viewModelsRead
    · rw [← hrcbs]
      exact hreads.rcbsRead

theorem readCommands_plain {types : List String}
    (htypes : ∀ type ∈ types, isNonBlankString type = true) :
    (types.map plainCommand).mapM readCommand = .ok (types.map plainCommand) := by
  rw [mapM_self]
  intro command hcommand
  obtain ⟨type, htype, rfl⟩ := List.mem_map.mp hcommand
  exact (readCommand_self ⟨0, rfl⟩ .null).mpr (commandWellFormed_plain (htypes type htype))

theorem decode_permuted_frames_first : ∃ original permuted,
    encodeSimReplayJsonLines fractionText
        (short (["A"].map plainCommand) ([0].map plainFrame)) singleOptions = .ok original ∧
      joinRecords fractionText ((short (["A"].map plainCommand) ([0].map plainFrame)).recordsAround
        [.viewModelFrames 0 [plainFrame 0], .commands 0 [plainCommand "A"]]) = .ok permuted ∧
      ∀ result, decodeSimReplayJsonLines fractionReader permuted defaultOptions = .ok result →
        decodeSimReplayJsonLines fractionReader original defaultOptions = .ok result := by
  have hsafe := jsonSafe_short ["A"] [0]
  obtain ⟨original, horiginal⟩ : ∃ text, joinRecords fractionText
      ((short (["A"].map plainCommand) ([0].map plainFrame)).recordsAround
        [.commands 0 [plainCommand "A"], .viewModelFrames 0 [plainFrame 0]]) = .ok text :=
    hsafe.exists_text (List.Subset.refl _) (List.Subset.refl _) (List.Subset.refl _)
  obtain ⟨permuted, hpermuted⟩ : ∃ text, joinRecords fractionText
      ((short (["A"].map plainCommand) ([0].map plainFrame)).recordsAround
        [.viewModelFrames 0 [plainFrame 0], .commands 0 [plainCommand "A"]]) = .ok text :=
    hsafe.exists_text (List.Subset.refl _) (List.Subset.refl _) (List.Subset.refl _)
  have hencode := (encode_eq_ok sizes_singleOptions).mpr horiginal
  refine ⟨original, permuted, hencode, hpermuted, ?_⟩
  refine (decode_permuted_iff fractionReader sizes_singleOptions hencode (List.Perm.swap _ _ [])
    hpermuted defaultOptions).mpr fun limits _ _ horder =>
      ⟨⟨horder.viewModels, horder.rcbs⟩, rfl⟩

/-- **Exchanged command lines are accepted** and read as another run. -/
theorem exchanged_commands_accepted : ∃ original permuted,
    encodeSimReplayJsonLines fractionText (short (["A", "B"].map plainCommand) []) singleOptions =
        .ok original ∧
      [ReplayChunk.commands 1 [plainCommand "B"], .commands 0 [plainCommand "A"]].Perm
        ((short (["A", "B"].map plainCommand) []).chunks ⟨1, 1, 1⟩) ∧
      joinRecords fractionText ((short (["A", "B"].map plainCommand) []).recordsAround
        [.commands 1 [plainCommand "B"], .commands 0 [plainCommand "A"]]) = .ok permuted ∧
      decodeSimReplayJsonLines fractionReader permuted defaultOptions =
        .ok (short (["B", "A"].map plainCommand) []).normalized ∧
      decodeSimReplayJsonLines fractionReader original defaultOptions =
        .ok (short (["A", "B"].map plainCommand) []).normalized ∧
      (short (["B", "A"].map plainCommand) []).normalized ≠
        (short (["A", "B"].map plainCommand) []).normalized := by
  have hsafe := jsonSafe_short ["A", "B"] []
  have hpos := positiveSizes sizes_singleOptions
  have hsnapshot : rereadField (record []) = record [] :=
    rereadField_isJson (isJson_record (by simp) (by simp))
  -- whatever the order of the two lines, the file is read with the commands in that order
  have hread : ∀ {first second : String} {chunks : List ReplayChunk} {text : String},
      isNonBlankString first = true → isNonBlankString second = true →
      chunks.length = 2 → (∀ chunk ∈ chunks, chunk.visual = false) →
      chunks.flatMap ReplayChunk.commandsOf = [first, second].map plainCommand →
      chunks.flatMap ReplayChunk.viewModelsOf = [] → chunks.flatMap ReplayChunk.rcbsOf = [] →
      joinRecords fractionText ((short (["A", "B"].map plainCommand) []).recordsAround chunks) =
        .ok text →
      decodeSimReplayJsonLines fractionReader text defaultOptions =
        .ok (short ([first, second].map plainCommand) []).normalized := by
    intro first second chunks text hfirst hsecond hlength hvisual hcommands hviewModels hrcbs htext
    refine (decode_joined_iff htext).mpr ⟨_, limits_defaultOptions, by rw [hlength]; decide +kernel,
      recordsPass_short _ _, [first, second].map plainCommand, [], [], ⟨?_, ?_, by simp, ?_, ?_,
        by simp, ?_, ?_, by simp⟩, by simp [short], fun _ => ⟨rfl, rfl⟩, ?_⟩
    · intro chunk hchunk h
      rw [hvisual chunk hchunk] at h
      cases h
    · rw [hcommands]
      refine readCommands_plain ?_
      simp only [List.forall_mem_cons, List.not_mem_nil, false_imp_iff, implies_true, and_true]
      exact ⟨hfirst, hsecond⟩
    · rw [hviewModels]
      rfl
    · rw [hviewModels]
      exact List.Pairwise.nil
    · rw [hrcbs]
      rfl
    · rw [hrcbs]
      exact List.Pairwise.nil
    · simp only [readAs, short, hsnapshot]
      rfl
  have hswap : [ReplayChunk.commands 1 [plainCommand "B"], .commands 0 [plainCommand "A"]].Perm
      ((short (["A", "B"].map plainCommand) []).chunks ⟨1, 1, 1⟩) :=
    List.Perm.swap _ _ []
  obtain ⟨original, horiginal⟩ := hsafe.exists_text_perm hpos (List.Perm.refl _)
  obtain ⟨permuted, hpermuted⟩ := hsafe.exists_text_perm hpos hswap
  refine ⟨original, permuted, (encode_eq_ok sizes_singleOptions).mpr horiginal, hswap, hpermuted,
    ?_, ?_, ?_⟩
  · exact hread (by decide) (by decide) rfl (by simp [ReplayChunk.visual]) rfl rfl rfl hpermuted
  · have hvisual : ∀ chunk ∈ (short (["A", "B"].map plainCommand) []).chunks ⟨1, 1, 1⟩,
        chunk.visual = false := by
      intro chunk hchunk
      have hmem := hswap.mem_iff.mpr hchunk
      simp only [List.mem_cons, List.not_mem_nil, or_false] at hmem
      rcases hmem with rfl | rfl
      · rfl
      · rfl
    exact hread (by decide) (by decide) rfl hvisual rfl rfl rfl horiginal
  · intro hsame
    have htypes := congrArg (fun replay => replay.sim.commands.map Command.type) hsame
    simp [normalized, short, plainCommand] at htypes

end SimReplay

end IdleEngine
