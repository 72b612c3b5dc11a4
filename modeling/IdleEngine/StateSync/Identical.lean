import IdleEngine.StateSync.Compare

/-!
# When two snapshots are identical

`compareStates` calls two snapshots identical exactly when all pairs of values that it compares are
equal for `valuesEqual` and no entry is missing on one side (`compareStates_identical`). An id that
no side lists has an entry on no side, so the loops over the listed ids speak about all ids.
-/

namespace IdleEngine

open JsValue View List SnapshotKeys Option

/-! ### Reading sections -/

variable {entries : List JsValue} {id : String}

variable {idKey : String}

/-- **A list has an entry at an id exactly when it lists the id.** -/
theorem viewById_isSome_iff :
    (viewById idKey entries id).isSome = true ↔ id ∈ idsOf idKey entries := by
  rw [viewById, isSome_map, find?_isSome, idsOf, mem_filterMap]
  simp only [decide_eq_true_eq]

theorem resourceView_isSome_iff {resources : JsValue} :
    (resourceView resources id).isSome = true ↔ id ∈ stringsOf (resources.get "ids") := by
  rw [resourceView, isSome_map, findIdx?_isSome, List.any_eq_true]
  simp

variable {key : String}

theorem find_isSome_iff {fields : List (String × JsValue)} :
    (OrderedMap.find key fields).isSome = true ↔ key ∈ fields.map Prod.fst := by
  induction fields with
  | nil => simp [OrderedMap.find]
  | cons field rest ih =>
    obtain ⟨key', value⟩ := field
    rw [OrderedMap.find, map_cons, mem_cons]
    by_cases hkey : key' = key
    · simp [hkey]
    · have hne : key ≠ key' := Ne.symm hkey
      rw [if_neg hkey, ih]
      simp [hne]

theorem accumulatorView_isSome_iff {accumulators : JsValue} :
    (accumulatorView accumulators key).isSome = true ↔ key ∈ accumulators.fields.map Prod.fst := by
  rw [accumulatorView, isSome_map, find_isSome_iff]

theorem mem_fields_of_viewByKey {states : JsValue} (h : (viewByKey states id).isSome = true) :
    id ∈ states.fields.map Prod.fst := by
  by_contra hnot
  have hget : states.get id = .undefined := by
    rw [JsValue.get, OrderedMap.find_eq_none hnot]
    rfl
  rw [viewByKey, hget] at h
  cases h

variable {index : ℕ}

theorem viewByIndex_of_le (h : entries.length ≤ index) :
    viewByIndex entries index = none := by
  rw [viewByIndex, getElem?_eq_none h]
  rfl

/-! ### Agreement at a label -/

variable {ι : Type} {E : JsValue → JsValue → Prop} {keys : List String} {l r : View ι}

/-- Entries that are missing on both sides agree. -/
theorem View.agreeAt_of_absent {label : ι} (hundefined : E .undefined .undefined)
    (hl : l label = none) (hr : r label = none) : View.AgreeAt E keys l r label := by
  constructor
  · rw [hl, hr]
  · intro key _
    rw [View.value, View.value, hl, hr]
    exact hundefined

/-- Sections that agree at the labels of both sides agree everywhere. -/
theorem View.agreeAt_of_listed (hundefined : E .undefined .undefined) {labels : List ι}
    (hl : ∀ label, (l label).isSome = true → label ∈ labels)
    (hr : ∀ label, (r label).isSome = true → label ∈ labels)
    (h : ∀ label ∈ labels, View.AgreeAt E keys l r label) (label : ι) :
    View.AgreeAt E keys l r label := by
  by_cases hlabel : label ∈ labels
  · exact h label hlabel
  · have habsent : ∀ view : View ι, (∀ label, (view label).isSome = true → label ∈ labels) →
        view label = none := by
      intro view hview
      rw [← not_isSome_iff_eq_none]
      exact fun hsome => hlabel (hview label hsome)
    exact agreeAt_of_absent hundefined (habsent l hl) (habsent r hr)

theorem viewByIndex_value_of_le (h : entries.length ≤ index) (key : String) :
    (viewByIndex entries).value index key = .undefined := by
  rw [View.value, viewByIndex_of_le h]
  rfl

theorem viewById_value_of_notMem (h : id ∉ idsOf idKey entries) (key : String) :
    (viewById idKey entries).value id key = .undefined := by
  have habsent : viewById idKey entries id = none := by
    rw [← not_isSome_iff_eq_none, viewById_isSome_iff]
    exact h
  rw [View.value, habsent]
  rfl

/-! ### The loops -/

namespace TextHost

variable (host : TextHost)

/-- Equality for `valuesEqual`. -/
def Equal (left right : JsValue) : Prop := host.valuesEqual left right = true

theorem equal_undefined : host.Equal .undefined .undefined := rfl

variable {id : String}

theorem mem_collectSortedIds {localIds remoteIds : List String} :
    id ∈ host.collectSortedIds localIds remoteIds ↔ id ∈ localIds ∨ id ∈ remoteIds := by
  rw [collectSortedIds, mem_insertionSort, mem_eraseDups, mem_append]

variable {left right : JsValue}

theorem recordValueDiff_eq_none_iff (key : String) :
    host.recordValueDiff key left right = none ↔ host.Equal left right := by
  rw [recordValueDiff, Equal]
  split
  · next h => simp [h]
  · next h => simp [h]

theorem recordMissingDiff_eq_none_iff {localPresent remotePresent : Bool} :
    recordMissingDiff localPresent remotePresent = none ↔ localPresent = remotePresent := by
  rw [recordMissingDiff]
  split
  · next h => simp [h]
  · next h => simp [h]

theorem definedDiff_eq_none_iff :
    definedDiff left right = none ↔ (definedValue left).isSome = (definedValue right).isSome := by
  unfold definedDiff
  dsimp only
  split
  · next h => simp [h]
  · next h => simp [h]

variable {keys : List String}

variable {ι : Type}

/-- **An entry has no difference exactly when the sections agree at its label.** -/
theorem hasDiff_entryDiff_iff {l r : View ι} {label : ι} :
    (host.entryDiff keys l r label).hasDiff = false ↔ View.AgreeAt host.Equal keys l r label := by
  rw [EntryDiff.hasDiff, Bool.or_eq_false_iff, isSome_eq_false_iff, isNone_iff_eq_none,
    Bool.not_eq_false', List.isEmpty_iff, entryDiff, recordMissingDiff_eq_none_iff,
    filterMap_eq_nil_iff]
  simp only [recordValueDiff_eq_none_iff]
  rfl

theorem compareViews_isEmpty_iff {labels : List ι} {l r : View ι} :
    (host.compareViews labels keys l r).isEmpty = true ↔
      ∀ label ∈ labels, View.AgreeAt host.Equal keys l r label := by
  rw [compareViews, List.isEmpty_iff, filter_eq_nil_iff, List.forall_mem_map]
  simp only [Bool.not_eq_true, hasDiff_entryDiff_iff]

variable {l r : List JsValue} {idKey : String}

/-- The ids that the loop over two lists goes through. -/
theorem mem_collected :
    id ∈ host.collectSortedIds (idsOf idKey l).eraseDups (idsOf idKey r).eraseDups ↔
      id ∈ idsOf idKey l ∨ id ∈ idsOf idKey r := by
  rw [mem_collectSortedIds, mem_eraseDups, mem_eraseDups]

theorem compareById_isEmpty_iff :
    (host.compareById idKey keys l r).isEmpty = true ↔
      EntriesAgree host.Equal idKey keys l r := by
  rw [compareById, compareViews_isEmpty_iff]
  constructor
  · intro h
    refine agreeAt_of_listed host.equal_undefined ?_ ?_ h
    · exact fun id hid => host.mem_collected.mpr (.inl (viewById_isSome_iff.mp hid))
    · exact fun id hid => host.mem_collected.mpr (.inr (viewById_isSome_iff.mp hid))
  · exact fun h id _ => h id

theorem compareByIndex_isEmpty_iff :
    (host.compareByIndex keys l r).isEmpty = true ↔ PlacesAgree host.Equal keys l r := by
  have hplace : ∀ {entries : List JsValue} {index : ℕ}, (viewByIndex entries index).isSome = true →
      index < entries.length := by
    intro entries index h
    by_contra hnot
    rw [viewByIndex_of_le (not_lt.mp hnot)] at h
    cases h
  rw [compareByIndex, compareViews_isEmpty_iff]
  constructor
  · intro h
    refine agreeAt_of_listed host.equal_undefined ?_ ?_ h
    · exact fun index hindex => mem_range.mpr (lt_max_of_lt_left (hplace hindex))
    · exact fun index hindex => mem_range.mpr (lt_max_of_lt_right (hplace hindex))
  · exact fun h index _ => h index

/-! ### The sections -/

variable {l r : JsValue}

theorem compareRuntime_isEmpty_iff : (host.compareRuntime l r).isEmpty = true ↔
    ∀ key ∈ runtime, host.Equal (runtimeProperty l key) (runtimeProperty r key) := by
  rw [compareRuntime, List.isEmpty_iff, filterMap_eq_nil_iff]
  simp only [recordValueDiff_eq_none_iff]

theorem compareResourceState_isEmpty_iff :
    (host.compareDefinitionDigest l r = none ∧ (host.compareResourceState l r).isEmpty = true) ↔
      ResourcesAgree host.Equal l r := by
  rw [compareResourceState, compareViews_isEmpty_iff, compareDefinitionDigest,
    recordValueDiff_eq_none_iff]
  constructor
  · rintro ⟨hdigest, hresources⟩
    refine ⟨agreeAt_of_listed host.equal_undefined ?_ ?_ hresources, hdigest⟩
    · exact fun id hid => host.mem_collectSortedIds.mpr (.inl (resourceView_isSome_iff.mp hid))
    · exact fun id hid => host.mem_collectSortedIds.mpr (.inr (resourceView_isSome_iff.mp hid))
  · exact fun h => ⟨h.definitionDigest, fun id _ => h.resources id⟩

theorem compareProductionAccumulators_isEmpty_iff :
    (host.compareProductionAccumulators l r).isEmpty = true ↔
      ∀ key, View.AgreeAt host.Equal ["value"] (accumulatorView l) (accumulatorView r) key := by
  rw [compareProductionAccumulators, compareViews_isEmpty_iff]
  constructor
  · intro h
    refine agreeAt_of_listed host.equal_undefined ?_ ?_ h
    · exact fun key hkey => host.mem_collectSortedIds.mpr (.inl (accumulatorView_isSome_iff.mp hkey))
    · exact fun key hkey => host.mem_collectSortedIds.mpr (.inr (accumulatorView_isSome_iff.mp hkey))
  · exact fun h key _ => h key

theorem comparePrdRegistry_isEmpty_iff :
    (host.comparePrdRegistry l r).isEmpty = true ↔
      ∀ id, View.AgreeAt host.Equal prd (viewByKey l) (viewByKey r) id := by
  rw [comparePrdRegistry, compareViews_isEmpty_iff]
  constructor
  · intro h
    refine agreeAt_of_listed host.equal_undefined ?_ ?_ h
    · exact fun id hid => host.mem_collectSortedIds.mpr (.inl (mem_fields_of_viewByKey hid))
    · exact fun id hid => host.mem_collectSortedIds.mpr (.inr (mem_fields_of_viewByKey hid))
  · exact fun h id _ => h id

theorem compareProgression_eq_none_iff :
    host.compareProgression l r = none ↔ ProgressionAgree host.Equal l r := by
  have hparts : host.compareProgression l r = none ↔
      host.Equal (l.get "schemaVersion") (r.get "schemaVersion") ∧
      host.Equal (l.get "step") (r.get "step") ∧
      ResourcesAgree host.Equal (l.get "resources") (r.get "resources") ∧
      EntriesAgree host.Equal "id" generator (elementsOf (l.get "generators"))
        (elementsOf (r.get "generators")) ∧
      EntriesAgree host.Equal "id" upgrade (elementsOf (l.get "upgrades"))
        (elementsOf (r.get "upgrades")) ∧
      EntriesAgree host.Equal "id" achievement (elementsOf (l.get "achievements"))
        (elementsOf (r.get "achievements")) ∧
      (definedValue (l.get "productionAccumulators")).isSome =
        (definedValue (r.get "productionAccumulators")).isSome ∧
      ∀ key, View.AgreeAt host.Equal ["value"]
        (accumulatorView ((l.get "productionAccumulators").get "accumulators"))
        (accumulatorView ((r.get "productionAccumulators").get "accumulators")) key := by
    rw [← host.compareProductionAccumulators_isEmpty_iff,
      ← host.compareResourceState_isEmpty_iff, ← host.compareById_isEmpty_iff,
      ← host.compareById_isEmpty_iff, ← host.compareById_isEmpty_iff,
      ← host.recordValueDiff_eq_none_iff "schemaVersion",
      ← host.recordValueDiff_eq_none_iff "step", ← definedDiff_eq_none_iff]
    have hnone : ∀ diff : ProgressionDiff,
        (if diff.hasDiff then some diff else none) = none ↔ diff.hasDiff = false := by
      intro diff
      rcases diff.hasDiff with _ | _
      · simp
      · simp
    rw [compareProgression, hnone]
    simp only [ProgressionDiff.hasDiff, Bool.or_eq_false_iff, isSome_eq_false_iff,
      isNone_iff_eq_none, Bool.not_eq_false', compareGenerators, compareUpgrades,
      compareAchievements, and_assoc]
  rw [hparts]
  constructor
  · rintro ⟨hversion, hstep, hresources, hgenerators, hupgrades, hachievements, hdefined, hvalues⟩
    exact ⟨hversion, hstep, hresources, hgenerators, hupgrades, hachievements, hdefined, hvalues⟩
  · rintro ⟨hversion, hstep, hresources, hgenerators, hupgrades, hachievements, hdefined, hvalues⟩
    exact ⟨hversion, hstep, hresources, hgenerators, hupgrades, hachievements, hdefined, hvalues⟩

/-- Batches are compared at the places of either side; behind them there is nothing. -/
theorem compareTransformBatches_isEmpty_iff {l r : List JsValue} :
    (host.compareTransformBatches l r).isEmpty = true ↔ BatchesAgree host.Equal l r := by
  have hplaces : (host.compareTransformBatches l r).isEmpty = true ↔
      ∀ index ∈ range (max l.length r.length),
        View.AgreeAt host.Equal batch (viewByIndex l) (viewByIndex r) index ∧
          PlacesAgree host.Equal output (outputsAt l index) (outputsAt r index) := by
    rw [compareTransformBatches, List.isEmpty_iff, filter_eq_nil_iff, List.forall_mem_map]
    refine forall₂_congr fun index _ => ?_
    rw [Bool.not_eq_true, TransformBatchDiff.hasDiff, Bool.or_eq_false_iff, Bool.not_eq_false',
      hasDiff_entryDiff_iff, compareTransformOutputs, compareByIndex_isEmpty_iff]
    rfl
  rw [hplaces]
  constructor
  · intro h index
    by_cases hindex : index < max l.length r.length
    · exact h index (mem_range.mpr hindex)
    · have hle := not_lt.mp hindex
      have hl : l.length ≤ index := (le_max_left _ _).trans hle
      have hr : r.length ≤ index := (le_max_right _ _).trans hle
      refine ⟨agreeAt_of_absent host.equal_undefined (viewByIndex_of_le hl)
        (viewByIndex_of_le hr), fun place => ?_⟩
      rw [outputsAt, outputsAt, viewByIndex_value_of_le hl, viewByIndex_value_of_le hr]
      exact agreeAt_of_absent host.equal_undefined rfl rfl
  · exact fun h index _ => h index

theorem compareTransforms_isEmpty_iff {l r : List JsValue} :
    (host.compareTransforms l r).isEmpty = true ↔ TransformsAgree host.Equal l r := by
  have hids : (host.compareTransforms l r).isEmpty = true ↔
      ∀ id ∈ host.collectSortedIds (idsOf "id" l).eraseDups (idsOf "id" r).eraseDups,
        View.AgreeAt host.Equal transform (viewById "id" l) (viewById "id" r) id ∧
        (definedValue (batchesOf l id)).isSome = (definedValue (batchesOf r id)).isSome ∧
        BatchesAgree host.Equal (elementsOf (batchesOf l id)) (elementsOf (batchesOf r id)) := by
    rw [compareTransforms, List.isEmpty_iff, filter_eq_nil_iff, List.forall_mem_map]
    refine forall₂_congr fun id _ => ?_
    rw [Bool.not_eq_true, TransformDiff.hasDiff, Bool.or_eq_false_iff, Bool.or_eq_false_iff,
      Bool.not_eq_false', hasDiff_entryDiff_iff, isSome_eq_false_iff,
      isNone_iff_eq_none, definedDiff_eq_none_iff, compareTransformBatches_isEmpty_iff,
      and_assoc]
    rfl
  rw [hids]
  constructor
  · intro h id
    by_cases hid : id ∈ idsOf "id" l ∨ id ∈ idsOf "id" r
    · exact h id (host.mem_collected.mpr hid)
    · obtain ⟨hl, hr⟩ := not_or.mp hid
      refine ⟨agreeAt_of_absent host.equal_undefined ?_ ?_, ?_, ?_⟩
      · rw [← not_isSome_iff_eq_none, viewById_isSome_iff]
        exact hl
      · rw [← not_isSome_iff_eq_none, viewById_isSome_iff]
        exact hr
      · rw [batchesOf, batchesOf, viewById_value_of_notMem hl, viewById_value_of_notMem hr]
      · rw [batchesOf, batchesOf, viewById_value_of_notMem hl, viewById_value_of_notMem hr,
          ← compareTransformBatches_isEmpty_iff]
        rfl
  · exact fun h id _ => h id

theorem compareCommandQueue_eq_none_iff :
    host.compareCommandQueue l r = none ↔ QueuesAgree host.Equal l r := by
  have hparts : host.compareCommandQueue l r = none ↔
      host.Equal (l.get "schemaVersion") (r.get "schemaVersion") ∧
      (elementsOf (l.get "entries")).length = (elementsOf (r.get "entries")).length ∧
      PlacesAgree host.Equal command (elementsOf (l.get "entries"))
        (elementsOf (r.get "entries")) := by
    rw [← host.compareByIndex_isEmpty_iff, ← host.recordValueDiff_eq_none_iff "schemaVersion"]
    unfold compareCommandQueue
    dsimp only
    rw [ite_eq_right_iff]
    simp [and_assoc]
  rw [hparts]
  exact ⟨fun ⟨hversion, hlength, hentries⟩ => ⟨hversion, hlength, hentries⟩,
    fun h => ⟨h.schemaVersion, h.length, h.entries⟩⟩

/-- **`compareStates` calls two snapshots identical exactly when all values that it compares are
equal.** -/
theorem compareStates_identical :
    (host.compareStates l r).identical = true ↔ Agree host.Equal l r := by
  have hparts : (host.compareStates l r).identical = true ↔
      host.Equal (l.get "version") (r.get "version") ∧
      (∀ key ∈ runtime,
        host.Equal (runtimeProperty (l.get "runtime") key) (runtimeProperty (r.get "runtime") key)) ∧
      ResourcesAgree host.Equal (l.get "resources") (r.get "resources") ∧
      ProgressionAgree host.Equal (l.get "progression") (r.get "progression") ∧
      EntriesAgree host.Equal "id" automation (elementsOf (l.get "automation"))
        (elementsOf (r.get "automation")) ∧
      TransformsAgree host.Equal (elementsOf (l.get "transforms"))
        (elementsOf (r.get "transforms")) ∧
      EntriesAgree host.Equal "id" entity
        (elementsOf ((l.get "entities").get "entities"))
        (elementsOf ((r.get "entities").get "entities")) ∧
      EntriesAgree host.Equal "instanceId" entityInstance
        (elementsOf ((l.get "entities").get "instances"))
        (elementsOf ((r.get "entities").get "instances")) ∧
      EntriesAgree host.Equal "entityId" entityInstanceList
        (elementsOf ((l.get "entities").get "entityInstances"))
        (elementsOf ((r.get "entities").get "entityInstances")) ∧
      (∀ id, View.AgreeAt host.Equal prd (viewByKey (l.get "prd"))
        (viewByKey (r.get "prd")) id) ∧
      QueuesAgree host.Equal (l.get "commandQueue") (r.get "commandQueue") := by
    rw [← host.compareRuntime_isEmpty_iff, ← host.compareResourceState_isEmpty_iff,
      ← host.compareProgression_eq_none_iff, ← host.compareTransforms_isEmpty_iff,
      ← host.comparePrdRegistry_isEmpty_iff, ← host.compareCommandQueue_eq_none_iff,
      ← host.recordValueDiff_eq_none_iff "version"]
    simp only [← host.compareById_isEmpty_iff]
    unfold compareStates
    dsimp only
    simp only [Bool.and_eq_true, isNone_iff_eq_none, compareAutomation, compareEntities,
      compareEntityInstances, compareEntityInstanceLists, and_assoc]
  rw [hparts]
  constructor
  · rintro ⟨hversion, hruntime, hresources, hprogression, hautomation, htransforms, hentities,
      hinstances, hlists, hprd, hqueue⟩
    exact ⟨hversion, hruntime, hresources, hprogression, hautomation, htransforms, hentities,
      hinstances, hlists, hprd, hqueue⟩
  · rintro ⟨hversion, hruntime, hresources, hprogression, hautomation, htransforms, hentities,
      hinstances, hlists, hprd, hqueue⟩
    exact ⟨hversion, hruntime, hresources, hprogression, hautomation, htransforms, hentities,
      hinstances, hlists, hprd, hqueue⟩

end TextHost

end IdleEngine
