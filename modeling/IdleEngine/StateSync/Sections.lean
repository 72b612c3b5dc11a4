import IdleEngine.StateSync.Agreement

/-!
# The sections of two snapshots

For each section of a captured snapshot: it is written alike in two snapshots exactly when the
snapshots agree in what is compared of the section and in what is left out of the comparison. The
ids of a section that is sorted by id follow from which ids there are, so nothing is left out there;
the order of the resources follows from their digest.
-/

namespace IdleEngine

open JsValue SortedEntries RecordOf List OrderedMap SerializedTransform Option SnapshotKeys

/-! ### Entries with an id -/

theorem SerializedGenerator.recordWith (generator : SerializedGenerator) :
    RecordWith ("id" :: SnapshotKeys.generator) generator.toJs :=
  .of_keys rfl (by decide) (by decide)

theorem SerializedUpgrade.recordWith (upgrade : SerializedUpgrade) :
    RecordWith ("id" :: SnapshotKeys.upgrade) upgrade.toJs :=
  .of_keys rfl (by decide) (by decide)

theorem SerializedAchievement.recordWith (achievement : SerializedAchievement) :
    RecordWith ("id" :: SnapshotKeys.achievement) achievement.toJs :=
  .of_keys rfl (by decide) (by decide)

theorem SerializedAutomation.recordWith (automation : SerializedAutomation) :
    RecordWith ("id" :: SnapshotKeys.automation) automation.toJs :=
  .of_keys rfl (by decide) (by decide)

theorem SerializedEntity.recordWith (entity : SerializedEntity) :
    RecordWith ("id" :: SnapshotKeys.entity) entity.toJs :=
  .of_keys rfl (by decide) (by decide)

theorem SerializedEntityInstance.recordWith (entry : SerializedEntityInstance) :
    RecordWith ("instanceId" :: entityInstance) entry.toJs :=
  .of_keys rfl (by decide) (by decide)

theorem SerializedEntityInstanceList.recordWith (list : SerializedEntityInstanceList) :
    RecordWith ("entityId" :: entityInstanceList) list.toJs :=
  .of_keys rfl (by decide) (by decide)

theorem TransformBatchOutput.recordWith (output : TransformBatchOutput) :
    RecordWith SnapshotKeys.output output.toJs :=
  .of_keys rfl (by decide) (by decide)

theorem PRDState.recordWith (state : PRDState) : RecordWith prd state.toJs :=
  .of_keys rfl (by decide) (by decide)

/-! ### Sorted sections -/

/-- **Ascending ids are determined by which ids there are.** -/
theorem Ascending.eq_of_mem_iff {ids ids' : List String} (h : Ascending ids) (h' : Ascending ids')
    (hmem : ∀ id, id ∈ ids ↔ id ∈ ids') : ids = ids' := by
  have hirrefl : Std.Irrefl fun a b : String => codeUnits a < codeUnits b := ⟨fun a => lt_irrefl _⟩
  have hanti : Std.Antisymm fun a b : String => codeUnits a < codeUnits b :=
    ⟨fun a b hab hba => absurd hab hba.asymm⟩
  exact List.Pairwise.eq_of_mem_iff h h' hmem

theorem Ascending.nodup {ids : List String} (h : Ascending ids) : ids.Nodup := by
  refine .imp (fun {a b} hlt heq => ?_) h
  rw [heq] at hlt
  exact lt_irrefl _ hlt

theorem EntriesAgree.mem_ids_iff {E : JsValue → JsValue → Prop} {idKey : String}
    {keys : List String} {l r : List JsValue} (h : EntriesAgree E idKey keys l r) (id : String) :
    id ∈ idsOf idKey l ↔ id ∈ idsOf idKey r := by
  rw [← viewById_isSome_iff, ← viewById_isSome_iff, (h id).1]

/-- **Sections that are sorted by id are written alike exactly when they agree at every id.** -/
theorem sameWriting_ascending_iff {α : Type} {toJs : α → JsValue} {id : α → String}
    {idKey : String} {keys : List String} (hentry : ∀ a, RecordWith (idKey :: keys) (toJs a))
    (hid : ∀ a, (toJs a).get idKey = .string (id a)) {l r : List α} (hl : Ascending (l.map id))
    (hr : Ascending (r.map id)) :
    SameWriting (array (l.map toJs)) (array (r.map toJs)) ↔
      EntriesAgree SameWriting idKey keys (l.map toJs) (r.map toJs) := by
  rw [sameWriting_entries_iff hentry hid hl.nodup hr.nodup, and_iff_right_iff_imp]
  intro hagree
  refine hl.eq_of_mem_iff hr fun i => ?_
  rw [← idsOf_map hid, ← idsOf_map hid]
  exact hagree.mem_ids_iff i

/-! ### Records -/

namespace RecordOf

variable {α : Type} (r : RecordOf α) (value : α → JsValue)

theorem ownFields : OwnFields (r.fields.map fun field => (field.1, value field.2)) := by
  constructor
  · rw [List.map_map]
    exact r.nodup
  · intro field hfield
    obtain ⟨own, hown, rfl⟩ := mem_map.mp hfield
    exact r.proto own hown

theorem get_toJs (key : String) :
    (r.toJs value).get key = (find key r.fields).elim .undefined value := by
  rw [toJs, JsValue.get, fields_record, find_map]
  rcases find key r.fields with _ | x
  · rfl
  · rfl

/-- **Records are written alike exactly when their properties are.** -/
theorem sameWriting_iff (r' : RecordOf α) : SameWriting (r.toJs value) (r'.toJs value) ↔
    ∀ key, SameWriting ((r.toJs value).get key) ((r'.toJs value).get key) :=
  (r.ownFields value).writtenAs_eq_iff (r'.ownFields value)

end RecordOf

theorem sameWriting_undefined_iff {x : JsValue} :
    SameWriting .undefined x ↔ (x.writtenAs compareCodeUnits).isSome = false := by
  rw [SameWriting, isSome_eq_false_iff, isNone_iff_eq_none, eq_comm]
  rfl

theorem isSome_writtenAs_number (value : JsNumber) :
    ((JsValue.number value).writtenAs compareCodeUnits).isSome = true := by
  rcases value with _ | _ | _ | _
  all_goals rfl

theorem not_sameWriting_undefined {x : JsValue}
    (hx : (x.writtenAs compareCodeUnits).isSome = true) : ¬ SameWriting .undefined x := by
  rw [sameWriting_undefined_iff, hx]
  exact Bool.noConfusion

/-- The registry of pseudo-random distributions. -/
theorem sameWriting_prd_iff (l r : RecordOf PRDState) :
    SameWriting (l.toJs PRDState.toJs) (r.toJs PRDState.toJs) ↔ ∀ id,
      View.AgreeAt SameWriting prd (viewByKey (l.toJs PRDState.toJs))
        (viewByKey (r.toJs PRDState.toJs)) id := by
  rw [sameWriting_iff]
  refine forall_congr' fun id => ?_
  have hview : ∀ states : RecordOf PRDState, viewByKey (states.toJs PRDState.toJs) id =
      (find id states.fields).map fun state => state.toJs.get := by
    intro states
    rw [viewByKey, get_toJs]
    rcases find id states.fields with _ | state
    · rfl
    · rw [elim_some, state.recordWith.definedValue_eq]
      rfl
  rw [View.AgreeAt]
  simp only [View.value, hview, get_toJs]
  rcases find id l.fields with _ | state
  · rcases find id r.fields with _ | state'
    · simp [SameWriting.refl]
    · simp [not_sameWriting_undefined state'.recordWith.isSome_writtenAs]
  · rcases find id r.fields with _ | state'
    · have hne : ¬ SameWriting state.toJs .undefined := fun h =>
        not_sameWriting_undefined state.recordWith.isSome_writtenAs h.symm
      simp [hne]
    · simp [state.recordWith.sameWriting_iff state'.recordWith]

theorem sameWriting_accumulator_iff (l r : RecordOf JsNumber) (key : String) :
    SameWriting ((l.toJs .number).get key) ((r.toJs .number).get key) ↔
      View.AgreeAt SameWriting ["value"] (accumulatorView (l.toJs .number))
        (accumulatorView (r.toJs .number)) key := by
  have hview : ∀ accumulators : RecordOf JsNumber,
      accumulatorView (accumulators.toJs .number) key =
        (find key accumulators.fields).map fun value _ => .number value := by
    intro accumulators
    rw [accumulatorView, RecordOf.toJs, fields_record, find_map, Option.map_map]
    rfl
  rw [View.AgreeAt]
  simp only [View.value, hview, get_toJs]
  rcases find key l.fields with _ | value
  · rcases find key r.fields with _ | value'
    · simp [SameWriting.refl]
    · simp [not_sameWriting_undefined (isSome_writtenAs_number value')]
  · rcases find key r.fields with _ | value'
    · have hne : ¬ SameWriting (.number value) .undefined := fun h =>
        not_sameWriting_undefined (isSome_writtenAs_number value) h.symm
      simp [hne]
    · simp

/-- The production accumulators. -/
theorem sameWriting_accumulators_iff (l r : Option (RecordOf JsNumber)) :
    SameWriting (accumulatorsJs l) (accumulatorsJs r) ↔
      (definedValue (accumulatorsJs l)).isSome = (definedValue (accumulatorsJs r)).isSome ∧
      ∀ key, View.AgreeAt SameWriting ["value"]
        (accumulatorView ((accumulatorsJs l).get "accumulators"))
        (accumulatorView ((accumulatorsJs r).get "accumulators")) key := by
  have hrecord : ∀ accumulators : RecordOf JsNumber,
      RecordWith ["accumulators"] (accumulatorsJs (some accumulators)) :=
    fun _ => .of_keys rfl (by decide) (by decide)
  have hget : ∀ accumulators : RecordOf JsNumber,
      (accumulatorsJs (some accumulators)).get "accumulators" = accumulators.toJs .number :=
    fun _ => rfl
  rcases l with _ | l
  · rcases r with _ | r
    · refine iff_of_true (.refl _) ⟨rfl, fun key => ?_⟩
      exact View.agreeAt_of_absent (.refl _) rfl rfl
    · refine iff_of_false (not_sameWriting_undefined (hrecord r).isSome_writtenAs) fun h => ?_
      rw [(hrecord r).definedValue_eq] at h
      exact absurd h.1 (by simp [accumulatorsJs, definedValue])
  · rcases r with _ | r
    · refine iff_of_false (fun h => ?_) fun h => ?_
      · exact not_sameWriting_undefined (hrecord l).isSome_writtenAs h.symm
      · rw [(hrecord l).definedValue_eq] at h
        exact absurd h.1 (by simp [accumulatorsJs, definedValue])
    · rw [(hrecord l).sameWriting_iff (hrecord r), (hrecord l).definedValue_eq,
        (hrecord r).definedValue_eq, hget, hget]
      simp only [mem_singleton, forall_eq, hget, sameWriting_iff,
        sameWriting_accumulator_iff, isSome_some, true_and]

/-! ### Resources -/

/-- Pairs of elements that are related in several ways. -/
theorem forall₂_and_forall_iff {α β κ : Type} {P : α → β → Prop} {Q : κ → α → β → Prop}
    {labels : List κ} {l : List α} {r : List β} :
    List.Forall₂ (fun a b => P a b ∧ ∀ k ∈ labels, Q k a b) l r ↔
      List.Forall₂ P l r ∧ ∀ k ∈ labels, List.Forall₂ (Q k) l r := by
  constructor
  · intro h
    exact ⟨h.imp fun _ _ hab => hab.1, fun k hk => h.imp fun _ _ hab => hab.2 k hk⟩
  · rintro ⟨hP, hQ⟩
    induction hP with
    | nil => exact .nil
    | cons hab _ ih =>
      refine .cons ⟨hab, fun k hk => ?_⟩ (ih fun k hk => ?_)
      · exact (forall₂_cons.mp (hQ k hk)).1
      · exact (forall₂_cons.mp (hQ k hk)).2

/-- A resource as an entry with its id. -/
def CapturedResource.toJs (row : CapturedResource) : JsValue :=
  record [("id", string row.id), ("amount", row.property "amount"),
    ("capacity", row.property "capacity"), ("unlocked", row.property "unlocked"),
    ("visible", row.property "visible"), ("flags", row.property "flags")]

theorem CapturedResource.recordWith (row : CapturedResource) :
    RecordWith ("id" :: resource) row.toJs :=
  .of_keys rfl (by decide) (by decide)

theorem CapturedResource.get_toJs (row : CapturedResource) :
    ∀ key ∈ resource, row.toJs.get key = row.property key := by
  simp only [resource, forall_mem_cons, not_mem_nil, false_imp_iff,
    implies_true, and_true]
  exact ⟨rfl, rfl, rfl, rfl, rfl⟩

theorem CapturedResource.isSome_written_property (row : CapturedResource) :
    ∀ key ∈ resource,
      ((row.property key).writtenAs compareCodeUnits).isSome = true := by
  simp only [resource, forall_mem_cons, not_mem_nil, false_imp_iff,
    implies_true, and_true]
  refine ⟨isSome_writtenAs_number _, ?_, rfl, rfl, isSome_writtenAs_number _⟩
  rw [CapturedResource.property]
  rcases row.capacity with _ | capacity
  · rfl
  · exact isSome_writtenAs_number capacity

namespace CapturedResources

/-- **The arrays show the resource of an id like a list of entries would.** -/
theorem resourceView_value (resources : CapturedResources) (id : String) :
    (resourceView resources.toJs id).isSome =
        (viewById "id" (resources.rows.map CapturedResource.toJs) id).isSome ∧
      ∀ key ∈ resource, (resourceView resources.toJs).value id key =
        (viewById "id" (resources.rows.map CapturedResource.toJs)).value id key := by
  have hids : stringsOf (resources.toJs.get "ids") = resources.ids := by
    have hget : resources.toJs.get "ids" = array (resources.ids.map string) := rfl
    rw [hget, stringsOf, elementsOf, array?, Option.getD_some, filterMap_map]
    have hcomp : JsValue.string? ∘ string = some := rfl
    rw [hcomp, filterMap_some]
  have hentries : viewById "id" (resources.rows.map CapturedResource.toJs) id =
      ((resources.rows.findIdx? fun row => decide (row.id = id)).bind (resources.rows[·]?)).map
        fun row => row.toJs.get := by
    rw [← find?_eq_bind_findIdx?_getElem?, viewById, find?_map, Option.map_map]
    have hid : ∀ row : CapturedResource, (row.toJs.get "id").string? = some row.id := fun _ => rfl
    simp only [Function.comp_def, hid, Option.some_inj]
  have hindex : resourceView resources.toJs id =
      (resources.rows.findIdx? fun row => decide (row.id = id)).map fun index key =>
        (resourceColumns.lookup key).elim .undefined fun column =>
          (elementsOf (resources.toJs.get column))[index]?.getD .undefined := by
    rw [resourceView, hids, CapturedResources.ids, findIdx?_map]
    refine congrArg (Option.map · _) (funext fun index => funext fun key => ?_)
    rcases resourceColumns.lookup key with _ | column
    · rfl
    · rfl
  have hcolumn : ∀ (key : String) (index : ℕ) (row : CapturedResource),
      resources.rows[index]? = some row →
        (elementsOf (resources.column key))[index]?.getD .undefined = row.property key := by
    intro key index row hrow
    rw [column, elementsOf, array?, Option.getD_some, getElem?_map, hrow]
    rfl
  rcases hfind : resources.rows.findIdx? fun row => decide (row.id = id) with _ | index
  · rw [hfind] at hentries hindex
    simp [View.value, hentries, hindex]
  · obtain ⟨hlt, -⟩ := findIdx?_eq_some_iff_getElem.mp hfind
    have hrow : resources.rows[index]? = some resources.rows[index] := getElem?_eq_getElem hlt
    rw [hfind, Option.bind_some, hrow, Option.map_some] at hentries
    rw [hfind, Option.map_some] at hindex
    refine ⟨by rw [hentries, hindex]; rfl, fun key hkey => ?_⟩
    rw [View.value, View.value, hentries, hindex, Option.elim_some, Option.elim_some,
      CapturedResource.get_toJs _ key hkey, ← hcolumn key index _ hrow]
    simp only [resource, mem_cons, not_mem_nil, or_false] at hkey
    rcases hkey with rfl | rfl | rfl | rfl | rfl <;> rfl

theorem agreeAt_resourceView_iff {E : JsValue → JsValue → Prop} (l r : CapturedResources)
    (id : String) : View.AgreeAt E resource (resourceView l.toJs)
        (resourceView r.toJs) id ↔
      View.AgreeAt E resource (viewById "id" (l.rows.map CapturedResource.toJs))
        (viewById "id" (r.rows.map CapturedResource.toJs)) id := by
  obtain ⟨hl, hlvalues⟩ := l.resourceView_value id
  obtain ⟨hr, hrvalues⟩ := r.resourceView_value id
  rw [View.AgreeAt, View.AgreeAt, hl, hr]
  refine and_congr_right fun _ => forall₂_congr fun key hkey => ?_
  rw [hlvalues key hkey, hrvalues key hkey]

theorem recordWith (resources : CapturedResources) :
    RecordWith ["ids", "amounts", "capacities", "unlocked", "visible", "flags",
      "definitionDigest"] resources.toJs :=
  .of_keys rfl (by decide) (by decide)

theorem sameWriting_column_iff (l r : CapturedResources) {key : String}
    (hkey : key ∈ resource) : SameWriting (l.column key) (r.column key) ↔
      List.Forall₂ (fun a b => SameWriting (a.property key) (b.property key)) l.rows r.rows := by
  have hsome : ∀ resources : CapturedResources,
      ∀ x ∈ resources.rows.map fun row => row.property key,
        (x.writtenAs compareCodeUnits).isSome = true := by
    intro resources x hx
    obtain ⟨row, -, rfl⟩ := mem_map.mp hx
    exact row.isSome_written_property key hkey
  rw [column, column, sameWriting_array_iff (hsome l) (hsome r), forall₂_map_left_iff,
    forall₂_map_right_iff]

theorem sameWriting_rows_iff (l r : CapturedResources) :
    SameWriting (array (l.rows.map CapturedResource.toJs))
        (array (r.rows.map CapturedResource.toJs)) ↔
      l.ids = r.ids ∧ ∀ key ∈ resource, SameWriting (l.column key) (r.column key) := by
  have hrow : ∀ a b : CapturedResource, SameWriting a.toJs b.toJs ↔ a.id = b.id ∧
      ∀ key ∈ resource, SameWriting (a.property key) (b.property key) := by
    intro a b
    rw [a.recordWith.sameWriting_iff b.recordWith, forall_mem_cons]
    refine and_congr sameWriting_string_iff (forall₂_congr fun key hkey => ?_)
    rw [a.get_toJs key hkey, b.get_toJs key hkey]
  have hids : List.Forall₂ (fun a b : CapturedResource => a.id = b.id) l.rows r.rows ↔
      l.ids = r.ids := by
    rw [ids, ids, ← forall₂_eq_eq_eq, forall₂_map_left_iff, forall₂_map_right_iff]
  have hsome : ∀ resources : CapturedResources, ∀ x ∈ resources.rows.map CapturedResource.toJs,
      (x.writtenAs compareCodeUnits).isSome = true := by
    intro resources x hx
    obtain ⟨row, -, rfl⟩ := mem_map.mp hx
    exact row.recordWith.isSome_writtenAs
  rw [sameWriting_array_iff (hsome l) (hsome r), forall₂_map_left_iff,
    forall₂_map_right_iff]
  simp only [hrow]
  rw [forall₂_and_forall_iff, hids]
  refine and_congr_right fun _ => forall₂_congr fun key hkey => ?_
  exact (sameWriting_column_iff l r hkey).symm

theorem sameWriting_digest_iff (l r : CapturedResources) :
    SameWriting (l.toJs.get "definitionDigest") (r.toJs.get "definitionDigest") ↔
      l.ids = r.ids := by
  have hget : ∀ resources : CapturedResources, resources.toJs.get "definitionDigest" =
      (createDefinitionDigest resources.ids).toJs := fun _ => rfl
  have hrecord : ∀ digest : DefinitionDigest,
      RecordWith ["ids", "version", "hash"] digest.toJs :=
    fun _ => .of_keys rfl (by decide) (by decide)
  rw [hget, hget]
  constructor
  · intro h
    exact sameWriting_strings_iff.mp
      (((hrecord _).sameWriting_iff (hrecord _)).mp h "ids" (by decide))
  · intro h
    rw [h]
    exact .refl _

/-- **Resources are written alike exactly when they agree**, digest included. -/
theorem sameWriting_iff (l r : CapturedResources) :
    SameWriting l.toJs r.toJs ↔ ResourcesAgree SameWriting l.toJs r.toJs := by
  have hentries := sameWriting_entries_iff CapturedResource.recordWith (fun _ => rfl) l.nodup
    r.nodup
  have hrows := sameWriting_rows_iff l r
  have hcolumns : SameWriting l.toJs r.toJs ↔ l.ids = r.ids ∧
      ∀ key ∈ resource, SameWriting (l.column key) (r.column key) := by
    have hids : SameWriting (l.toJs.get "ids") (r.toJs.get "ids") ↔ l.ids = r.ids :=
      sameWriting_strings_iff
    rw [l.recordWith.sameWriting_iff r.recordWith]
    simp only [resource, forall_mem_cons, not_mem_nil, false_imp_iff,
      implies_true, and_true]
    rw [sameWriting_digest_iff, hids]
    constructor
    · rintro ⟨hids, hamount, hcapacity, hunlocked, hvisible, hflags, -⟩
      exact ⟨hids, hamount, hcapacity, hunlocked, hvisible, hflags⟩
    · rintro ⟨hids, hamount, hcapacity, hunlocked, hvisible, hflags⟩
      exact ⟨hids, hamount, hcapacity, hunlocked, hvisible, hflags, hids⟩
  rw [hcolumns, ← hrows, hentries]
  constructor
  · rintro ⟨hids, hagree⟩
    exact ⟨fun id => (agreeAt_resourceView_iff l r id).mpr (hagree id),
      (sameWriting_digest_iff l r).mpr hids⟩
  · intro h
    exact ⟨(sameWriting_digest_iff l r).mp h.definitionDigest,
      fun id => (agreeAt_resourceView_iff l r id).mp (h.resources id)⟩

end CapturedResources

/-! ### The runtime section -/

/-- Fields that are set one after the other, over fields that are there. -/
theorem find_foldl_setEntries {l : List (String × JsValue)} (hl : (l.map Prod.fst).Nodup)
    (fields : List (String × JsValue)) (key : String) :
    find key
        (l.foldl (fun fields field => setEntries field.1 field.2 fields) fields) =
      (find key l).or (find key fields) := by
  induction l generalizing fields with
  | nil => rfl
  | cons field l ih =>
    obtain ⟨key', value⟩ := field
    obtain ⟨hnew, hnodup⟩ := nodup_cons.mp hl
    rw [foldl_cons, ih hnodup, find_setEntries, find]
    by_cases hkey : key' = key
    · subst hkey
      rw [find_eq_none hnew, if_pos rfl, if_pos rfl, none_or, some_or]
    · rw [if_neg hkey, if_neg hkey]

theorem get_normalizeRuntimeForChecksum (runtime : JsValue) (key : String) :
    (normalizeRuntimeForChecksum runtime).get key = runtimeProperty runtime key := by
  have hkeys : ((normalizeRuntimeBacklogFields runtime).map Prod.fst).Nodup := by
    change ["accumulatorBacklogMs", "hostFrameBacklogMs", "creditedBacklogMs"].Nodup
    decide
  rw [normalizeRuntimeForChecksum, runtimeProperty, JsValue.get, fields_record,
    find_foldl_setEntries hkeys, JsValue.get]
  rcases find key (normalizeRuntimeBacklogFields runtime) with _ | value
  · rfl
  · rfl

theorem CapturedRuntime.recordWith (runtime : CapturedRuntime) :
    RecordWith SnapshotKeys.runtime (normalizeRuntimeForChecksum runtime.toJs) := by
  have hkeys : runtime.toJs.fields.map Prod.fst = SnapshotKeys.runtime := rfl
  have hset : ∀ (key : String) (value : JsValue) (fields : List (String × JsValue)),
      key ∈ SnapshotKeys.runtime → fields.map Prod.fst = SnapshotKeys.runtime →
        (setEntries key value fields).map Prod.fst = SnapshotKeys.runtime := by
    intro key value fields hkey hfields
    rw [keys_setEntries, hfields, if_pos hkey]
  rw [normalizeRuntimeForChecksum]
  refine .of_keys ?_ (by decide) (by decide)
  have htotal : "accumulatorBacklogMs" ∈ SnapshotKeys.runtime := by decide
  have hhost : "hostFrameBacklogMs" ∈ SnapshotKeys.runtime := by decide
  have hcredited : "creditedBacklogMs" ∈ SnapshotKeys.runtime := by decide
  exact hset _ _ _ hcredited (hset _ _ _ hhost (hset _ _ _ htotal hkeys))

theorem sameWriting_runtime_iff (l r : CapturedRuntime) :
    SameWriting (normalizeRuntimeForChecksum l.toJs) (normalizeRuntimeForChecksum r.toJs) ↔
      ∀ key ∈ SnapshotKeys.runtime,
        SameWriting (runtimeProperty l.toJs key) (runtimeProperty r.toJs key) := by
  rw [l.recordWith.sameWriting_iff r.recordWith]
  simp only [get_normalizeRuntimeForChecksum]

/-! ### The command queue -/

theorem exportForSave_eq (q : CommandQueue JsValue) : ∃ entries, q.exportForSave =
    serializedQueue entries ∧ ∀ entry ∈ entries, ∃ command, exportEntry command = some entry := by
  rw [CommandQueue.exportForSave]
  split
  · exact ⟨[], rfl, by simp⟩
  · refine ⟨_, rfl, fun entry hentry => ?_⟩
    obtain ⟨priority, -, hmem⟩ := mem_flatMap.mp hentry
    obtain ⟨queued, -, hexport⟩ := mem_filterMap.mp hmem
    exact ⟨queued.command, hexport⟩

theorem recordWith_of_exportEntry {command : Command JsValue} {entry : JsValue}
    (h : exportEntry command = some entry) : RecordWith SnapshotKeys.command entry := by
  rw [exportEntry] at h
  split at h
  · cases h
  · obtain rfl := some.inj h
    exact .of_keys rfl (by decide) (by decide)

theorem sameWriting_queue_iff (l r : CommandQueue JsValue) :
    SameWriting l.exportForSave r.exportForSave ↔
      QueuesAgree SameWriting l.exportForSave r.exportForSave := by
  obtain ⟨entries, hl, hentries⟩ := exportForSave_eq l
  obtain ⟨entries', hr, hentries'⟩ := exportForSave_eq r
  have hrecord : ∀ entries, RecordWith ["schemaVersion", "entries"] (serializedQueue entries) :=
    fun _ => .of_keys rfl (by decide) (by decide)
  have helements : ∀ entries, elementsOf ((serializedQueue entries).get "entries") = entries :=
    fun _ => rfl
  have hwith : ∀ entry ∈ entries, RecordWith command entry := by
    intro entry hentry
    obtain ⟨command, hexport⟩ := hentries entry hentry
    exact recordWith_of_exportEntry hexport
  have hwith' : ∀ entry ∈ entries', RecordWith command entry := by
    intro entry hentry
    obtain ⟨command, hexport⟩ := hentries' entry hentry
    exact recordWith_of_exportEntry hexport
  have hplaces := sameWriting_places_iff hwith hwith'
  have hlength : SameWriting (array entries) (array entries') → entries.length = entries'.length :=
    fun h => ((sameWriting_array_iff (fun x hx => (hwith x hx).isSome_writtenAs)
      fun x hx => (hwith' x hx).isSome_writtenAs).mp h).length_eq
  rw [hl, hr, (hrecord entries).sameWriting_iff (hrecord entries')]
  simp only [forall_mem_cons, not_mem_nil, false_imp_iff, implies_true, and_true]
  constructor
  · rintro ⟨hversion, harray⟩
    exact ⟨hversion, hlength harray, hplaces.mp harray⟩
  · intro h
    exact ⟨h.schemaVersion, hplaces.mpr h.entries⟩

/-! ### Transforms -/

/-- The batches of a transform, or nothing. -/
def batchesJs : Option (List SerializedTransformBatch) → JsValue
  | none => .undefined
  | some batches => array (batches.map SerializedTransformBatch.toJs)

/-- The plan of the mission of a batch, or nothing. -/
def missionJs (batch : Option SerializedTransformBatch) : JsValue :=
  (batch.bind SerializedTransformBatch.mission).elim .undefined Subtype.val

/-- What the comparison leaves out of batches is the same: their batch ids and mission plans. -/
def SameBatchDetails (l r : Option (List SerializedTransformBatch)) : Prop :=
  ∀ index : ℕ, (l.bind (·[index]?)).bind SerializedTransformBatch.batchId =
      (r.bind (·[index]?)).bind SerializedTransformBatch.batchId ∧
    SameWriting (missionJs (l.bind (·[index]?))) (missionJs (r.bind (·[index]?)))

/-- The keys of a batch. -/
def SnapshotKeys.wholeBatch : List String :=
  ["completeAtStep", "outputs", "batchId", "entityInstanceIds", "entityExperience", "mission"]

theorem SerializedTransformBatch.recordWith (batch : SerializedTransformBatch) :
    RecordWith wholeBatch batch.toJs :=
  .of_keys rfl (by decide) (by decide)

theorem sameWriting_optionalString_iff {a b : Option String} :
    SameWriting (a.elim .undefined .string) (b.elim .undefined .string) ↔ a = b := by
  have hsome : ∀ s : String,
      ((JsValue.string s).writtenAs compareCodeUnits).isSome = true := fun _ => rfl
  rcases a with _ | a
  · rcases b with _ | b
    · exact iff_of_true (.refl _) rfl
    · exact iff_of_false (not_sameWriting_undefined (hsome b)) nofun
  · rcases b with _ | b
    · exact iff_of_false (fun h => not_sameWriting_undefined (hsome a) h.symm) nofun
    · rw [elim_some, elim_some, sameWriting_string_iff, some_inj]

/-- The outputs of two batches. -/
theorem sameWriting_outputs_iff (l r : List TransformBatchOutput) :
    SameWriting (array (l.map TransformBatchOutput.toJs))
        (array (r.map TransformBatchOutput.toJs)) ↔
      PlacesAgree SameWriting output (l.map TransformBatchOutput.toJs)
        (r.map TransformBatchOutput.toJs) := by
  have hwith : ∀ l : List TransformBatchOutput, ∀ x ∈ l.map TransformBatchOutput.toJs,
      RecordWith output x := by
    intro l x hx
    obtain ⟨output, -, rfl⟩ := mem_map.mp hx
    exact output.recordWith
  exact sameWriting_places_iff (hwith l) (hwith r)

/-- **Two batches are written alike exactly when what is compared and what is not is.** -/
theorem SerializedTransformBatch.sameWriting_iff (a b : SerializedTransformBatch) :
    SameWriting a.toJs b.toJs ↔
      ((∀ key ∈ batch, SameWriting (a.toJs.get key) (b.toJs.get key)) ∧
        PlacesAgree SameWriting output (a.outputs.map TransformBatchOutput.toJs)
          (b.outputs.map TransformBatchOutput.toJs)) ∧
      a.batchId = b.batchId ∧ SameWriting (missionJs (some a)) (missionJs (some b)) := by
  rw [a.recordWith.sameWriting_iff b.recordWith, ← sameWriting_outputs_iff,
    ← sameWriting_optionalString_iff]
  simp only [wholeBatch, batch, forall_mem_cons, not_mem_nil,
    false_imp_iff, implies_true, and_true]
  constructor
  · rintro ⟨hstep, houtputs, hid, hinstances, hexperience, hmission⟩
    exact ⟨⟨⟨hstep, hinstances, hexperience⟩, houtputs⟩, hid, hmission⟩
  · rintro ⟨⟨⟨hstep, hinstances, hexperience⟩, houtputs⟩, hid, hmission⟩
    exact ⟨hstep, houtputs, hid, hinstances, hexperience, hmission⟩

theorem outputsAt_cons_zero (batch : SerializedTransformBatch) (l : List JsValue) :
    outputsAt (batch.toJs :: l) 0 = batch.outputs.map TransformBatchOutput.toJs := by
  rw [outputsAt, View.value, viewByIndex_cons_zero batch.recordWith]
  rfl

theorem batchesAgree_cons_iff {a b : SerializedTransformBatch} {l r : List JsValue} :
    BatchesAgree SameWriting (a.toJs :: l) (b.toJs :: r) ↔
      ((∀ key ∈ batch, SameWriting (a.toJs.get key) (b.toJs.get key)) ∧
        PlacesAgree SameWriting output (a.outputs.map TransformBatchOutput.toJs)
          (b.outputs.map TransformBatchOutput.toJs)) ∧ BatchesAgree SameWriting l r := by
  have hsucc : ∀ (batch : SerializedTransformBatch) (l : List JsValue) (index : ℕ),
      outputsAt (batch.toJs :: l) (index + 1) = outputsAt l index := by
    intro batch l index
    rw [outputsAt, outputsAt, View.value, View.value, viewByIndex_cons_succ]
  have hplaces : PlacesAgree SameWriting batch (a.toJs :: l) (b.toJs :: r) ↔
      (∀ key ∈ batch, SameWriting (a.toJs.get key) (b.toJs.get key)) ∧
        PlacesAgree SameWriting batch l r :=
    placesAgree_cons_iff a.recordWith b.recordWith
  constructor
  · intro h
    obtain ⟨hhead, htail⟩ := hplaces.mp fun index => (h index).1
    refine ⟨⟨hhead, ?_⟩, fun index => ⟨htail index, ?_⟩⟩
    · rw [← outputsAt_cons_zero a l, ← outputsAt_cons_zero b r]
      exact (h 0).2
    · rw [← hsucc a, ← hsucc b]
      exact (h (index + 1)).2
  · rintro ⟨⟨hhead, houtputs⟩, htail⟩ index
    refine ⟨hplaces.mpr ⟨hhead, fun place => (htail place).1⟩ index, ?_⟩
    rcases index with _ | index
    · rw [outputsAt_cons_zero, outputsAt_cons_zero]
      exact houtputs
    · rw [hsucc, hsucc]
      exact (htail index).2

theorem sameBatchDetails_cons_iff {a b : SerializedTransformBatch}
    {l r : List SerializedTransformBatch} :
    SameBatchDetails (some (a :: l)) (some (b :: r)) ↔
      (a.batchId = b.batchId ∧ SameWriting (missionJs (some a)) (missionJs (some b))) ∧
        SameBatchDetails (some l) (some r) := by
  constructor
  · intro h
    exact ⟨h 0, fun index => h (index + 1)⟩
  · rintro ⟨hhead, htail⟩ (_ | index)
    · exact hhead
    · exact htail index

/-- **Batches are written alike exactly when what is compared and what is not is.** -/
theorem sameWriting_batches_iff (l r : List SerializedTransformBatch) :
    SameWriting (array (l.map SerializedTransformBatch.toJs))
        (array (r.map SerializedTransformBatch.toJs)) ↔
      BatchesAgree SameWriting (l.map SerializedTransformBatch.toJs)
          (r.map SerializedTransformBatch.toJs) ∧ SameBatchDetails (some l) (some r) := by
  have hsome : ∀ l : List SerializedTransformBatch,
      ∀ x ∈ l.map SerializedTransformBatch.toJs,
        (x.writtenAs compareCodeUnits).isSome = true := by
    intro l x hx
    obtain ⟨batch, -, rfl⟩ := mem_map.mp hx
    exact batch.recordWith.isSome_writtenAs
  -- a batch on one side only is seen by the comparison
  have hpresent : ∀ (batch : SerializedTransformBatch) (l : List JsValue),
      (viewByIndex (batch.toJs :: l) 0).isSome = true := by
    intro batch l
    rw [viewByIndex_cons_zero batch.recordWith]
    rfl
  rw [sameWriting_array_iff (hsome l) (hsome r)]
  induction l generalizing r with
  | nil =>
    rcases r with _ | ⟨b, r⟩
    · refine iff_of_true .nil ⟨fun index => ⟨?_, fun place => ?_⟩, fun index => ⟨rfl, ?_⟩⟩
      · exact View.agreeAt_of_absent (.refl _) rfl rfl
      · exact View.agreeAt_of_absent (.refl _) rfl rfl
      · exact .refl _
    · refine iff_of_false nofun fun h => ?_
      have hpresent' := hpresent b (r.map SerializedTransformBatch.toJs)
      rw [← map_cons, ← ((h.1 0).1).1] at hpresent'
      cases hpresent'
  | cons a l ih =>
    rcases r with _ | ⟨b, r⟩
    · refine iff_of_false nofun fun h => ?_
      have hpresent' := hpresent a (l.map SerializedTransformBatch.toJs)
      rw [← map_cons, ((h.1 0).1).1] at hpresent'
      cases hpresent'
    · have hrest := ih r
      rw [map_cons, map_cons, forall₂_cons, a.sameWriting_iff b,
        batchesAgree_cons_iff, sameBatchDetails_cons_iff]
      constructor
      · rintro ⟨⟨hcompared, hdetails⟩, htails⟩
        obtain ⟨hcomparedTail, hdetailsTail⟩ := hrest.mp htails
        exact ⟨⟨hcompared, hcomparedTail⟩, hdetails, hdetailsTail⟩
      · rintro ⟨⟨hcompared, hcomparedTail⟩, hdetails, hdetailsTail⟩
        exact ⟨⟨hcompared, hdetails⟩, hrest.mpr ⟨hcomparedTail, hdetailsTail⟩⟩

/-- The same of the batches of transforms, which may have none. -/
theorem sameWriting_batchesJs_iff (l r : Option (List SerializedTransformBatch)) :
    SameWriting (batchesJs l) (batchesJs r) ↔
      ((definedValue (batchesJs l)).isSome = (definedValue (batchesJs r)).isSome ∧
        BatchesAgree SameWriting (elementsOf (batchesJs l)) (elementsOf (batchesJs r))) ∧
      SameBatchDetails l r := by
  have hsome : ∀ l : List SerializedTransformBatch,
      ((batchesJs (some l)).writtenAs compareCodeUnits).isSome = true := by
    intro l
    rw [batchesJs, writtenAs_array]
    rfl
  have hdefined : ∀ l : List SerializedTransformBatch,
      (definedValue (batchesJs (some l))).isSome = true := fun _ => rfl
  have hundefined : (definedValue (batchesJs none)).isSome = false := rfl
  rcases l with _ | l
  · rcases r with _ | r
    · refine iff_of_true (.refl _) ⟨⟨rfl, fun index => ⟨?_, fun place => ?_⟩⟩, ?_⟩
      · exact View.agreeAt_of_absent (.refl _) rfl rfl
      · exact View.agreeAt_of_absent (.refl _) rfl rfl
      · exact fun index => ⟨rfl, .refl _⟩
    · refine iff_of_false (not_sameWriting_undefined (hsome r)) fun h => ?_
      have hpresent := h.1.1
      rw [hundefined, hdefined] at hpresent
      cases hpresent
  · rcases r with _ | r
    · refine iff_of_false (fun h => not_sameWriting_undefined (hsome l) h.symm) fun h => ?_
      have hpresent := h.1.1
      rw [hundefined, hdefined] at hpresent
      cases hpresent
    · rw [hdefined, hdefined, and_iff_right rfl]
      exact sameWriting_batches_iff l r

theorem SerializedTransform.recordWith (transform : SerializedTransform) :
    RecordWith ("id" :: (SnapshotKeys.transform ++ ["batches"])) transform.toJs :=
  .of_keys rfl (by decide) (by decide)

/-- The batches of the transform of an id. -/
def findBatches (transforms : List SerializedTransform) (id : String) :
    Option (List SerializedTransformBatch) :=
  (transforms.find? fun transform => decide (transform.id = id)).bind SerializedTransform.batches

theorem batchesOf_map (transforms : List SerializedTransform) (id : String) :
    batchesOf (transforms.map toJs) id =
      batchesJs (findBatches transforms id) := by
  have hpredicate : (fun entry : JsValue => decide ((entry.get "id").string? = some id)) ∘
      toJs = fun transform => decide (transform.id = id) := by
    funext transform
    have hid : (transform.toJs.get "id").string? = some transform.id := rfl
    rw [Function.comp_apply, decide_eq_decide, hid, some_inj]
  have hview : viewById "id" (transforms.map toJs) id =
      (transforms.find? fun transform => decide (transform.id = id)).map
        fun transform => transform.toJs.get := by
    rw [viewById, find?_map, Option.map_map, hpredicate]
    rfl
  rw [batchesOf, View.value, hview, findBatches]
  generalize transforms.find? (fun transform => decide (transform.id = id)) = found
  rcases found with _ | transform
  · rfl
  · have hget : transform.toJs.get "batches" = transform.batches.elim .undefined fun batches =>
        array (batches.map SerializedTransformBatch.toJs) := rfl
    rw [map_some, elim_some, hget, bind_some]
    rcases transform.batches with _ | batches
    · rfl
    · rfl

/-- **Transforms are written alike exactly when they agree and their batches have the same
details.** -/
theorem sameWriting_transforms_iff {l r : List SerializedTransform}
    (hl : Ascending (l.map SerializedTransform.id)) (hr : Ascending (r.map SerializedTransform.id)) :
    SameWriting (array (l.map toJs))
        (array (r.map toJs)) ↔
      TransformsAgree SameWriting (l.map toJs)
          (r.map toJs) ∧
        ∀ id, SameBatchDetails (findBatches l id) (findBatches r id) := by
  rw [sameWriting_ascending_iff recordWith (fun _ => rfl) hl hr,
    TransformsAgree, ← forall_and]
  refine forall_congr' fun id => ?_
  have hbatches := sameWriting_batchesJs_iff (findBatches l id) (findBatches r id)
  rw [← batchesOf_map, ← batchesOf_map] at hbatches
  rw [View.AgreeAt, View.AgreeAt, forall_mem_append, forall_mem_singleton]
  constructor
  · rintro ⟨hpresent, hvalues, hwritten⟩
    obtain ⟨hcompared, hdetails⟩ := hbatches.mp hwritten
    exact ⟨⟨⟨hpresent, hvalues⟩, hcompared⟩, hdetails⟩
  · rintro ⟨⟨⟨hpresent, hvalues⟩, hcompared⟩, hdetails⟩
    exact ⟨hpresent, hvalues, hbatches.mpr ⟨hcompared, hdetails⟩⟩

end IdleEngine
