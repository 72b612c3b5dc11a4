import Mathlib.Data.List.Lex
import IdleEngine.Lib.JsonTree
import IdleEngine.Lib.SortedEntries
import IdleEngine.StateSync.Prediction

/-!
# Canonical JSON

The checksum of a snapshot and the comparison of two snapshots both turn values into text after
sorting the keys of every object: the checksum by the code units of the keys, the comparison by
`localeCompare`. `normalizeKeys` is the sorting, for any comparison of keys; `written` is what
`JSON.stringify` puts into its text, and `writtenAs` is one after the other.

Code units order the keys totally, so what the checksum writes of an object depends on nothing but
what its keys have (`writtenAs_eq_iff_get`). `localeCompare` may call two keys equivalent that are
different, and then the text depends on the order in which the keys were assigned; still, two values
that are written alike with one comparison are written alike by the checksum
(`SameWriting.of_writtenAs`).
-/

namespace IdleEngine

open JsValue SortedEntries List

/-! ### Comparisons of keys -/

/-- `compareDeterministicKeys` of the checksum. -/
def compareCodeUnits (left right : String) : ℤ :=
  if left = right then 0 else if utf16Lt left right then -1 else 1

/-- A comparison function does not put a key behind another. -/
def KeyLe (compare : String → String → ℤ) (left right : String) : Prop := compare left right ≤ 0

instance (compare : String → String → ℤ) : DecidableRel (KeyLe compare) :=
  fun left right => inferInstanceAs (Decidable (compare left right ≤ 0))

theorem keyLe_compareCodeUnits {left right : String} :
    KeyLe compareCodeUnits left right ↔ codeUnits left ≤ codeUnits right := by
  unfold KeyLe compareCodeUnits
  by_cases heq : left = right
  · subst heq
    simp
  · have hne : codeUnits left ≠ codeUnits right := fun h => heq (codeUnits_injective h)
    have hle : codeUnits left ≤ codeUnits right ↔ codeUnits left < codeUnits right :=
      ⟨fun h => lt_of_le_of_ne h hne, le_of_lt⟩
    rw [if_neg heq, hle]
    by_cases hlt : codeUnits left < codeUnits right
    · have hunits : utf16Lt left right = true := decide_eq_true hlt
      simp [hunits, hlt]
    · have hunits : utf16Lt left right = false := decide_eq_false hlt
      simp [hunits, hlt]

instance : Std.Total (KeyLe compareCodeUnits) where
  total left right := by
    rw [keyLe_compareCodeUnits, keyLe_compareCodeUnits]
    exact le_total _ _

instance : IsTrans String (KeyLe compareCodeUnits) where
  trans a b c hab hbc := by
    rw [keyLe_compareCodeUnits] at hab hbc ⊢
    exact hab.trans hbc

instance : Std.Antisymm (KeyLe compareCodeUnits) where
  antisymm a b hab hba := by
    rw [keyLe_compareCodeUnits] at hab hba
    exact codeUnits_injective (le_antisymm hab hba)

/-! ### Normalizing and writing -/

/-- The fields as the source assigns them to a new object, one after the other. -/
def assignAll (fields : List (String × JsValue)) : List (String × JsValue) :=
  fields.foldl (fun result field => assignField result field.1 field.2) []

namespace JsValue

mutual

/-- The normalization of both files, for a comparison of keys: the keys of every object sorted. -/
def normalizeKeys (compare : String → String → ℤ) : JsValue → JsValue
  | array elements => array (normalizeElements compare elements)
  | object _ fields =>
      record (assignAll (sortEntries (KeyLe compare) (normalizeFields compare fields)))
  | value => value

def normalizeElements (compare : String → String → ℤ) : List JsValue → List JsValue
  | [] => []
  | element :: rest => normalizeKeys compare element :: normalizeElements compare rest

def normalizeFields (compare : String → String → ℤ) :
    List (String × JsValue) → List (String × JsValue)
  | [] => []
  | (key, value) :: rest => (key, normalizeKeys compare value) :: normalizeFields compare rest

end

/-- `normalizeForDeterministicJson`. -/
def normalizeForDeterministicJson (value : JsValue) : JsValue :=
  value.normalizeKeys compareCodeUnits

mutual

/-- What `JSON.stringify` puts into its text, nothing for a value without a text. A big integer,
for which it throws, is not met here. -/
def written : JsValue → Option (JsonTree ℚ)
  | undefined => none
  | null => some .null
  | .bool value => some (.bool value)
  | number value =>
      match value.finite? with
      | none => some .null
      | some value => some (.number value)
  | string value => some (.string value)
  | array elements => some (.array (writtenElements elements))
  | object _ fields => some (.object (writtenFields fields))
  | foreign _ => none

def writtenElements : List JsValue → List (JsonTree ℚ)
  | [] => []
  | element :: rest => (written element).getD .null :: writtenElements rest

def writtenFields : List (String × JsValue) → List (String × JsonTree ℚ)
  | [] => []
  | (key, value) :: rest =>
      ((written value).map fun tree => (key, tree)).toList ++ writtenFields rest

end

/-- `JSON.stringify`, over a way to write numbers. -/
def stringify (numbers : JsonText.NumberText ℚ) (value : JsValue) : Option String :=
  value.written.map fun tree => String.ofList (tree.write numbers)

/-- What is written of a value after its keys are sorted. -/
def writtenAs (compare : String → String → ℤ) (value : JsValue) : Option (JsonTree ℚ) :=
  (value.normalizeKeys compare).written

/-- **Values have one text exactly when one thing is written of them.** -/
theorem stringify_eq_iff (numbers : JsonText.NumberText ℚ) {x y : JsValue} :
    x.stringify numbers = y.stringify numbers ↔ x.written = y.written := by
  constructor
  · intro h
    refine Option.map_injective ?_ h
    intro a b hab
    exact JsonTree.write_injective numbers (String.ofList_injective hab)
  · intro h
    rw [stringify, stringify, h]

/-! ### What is written of arrays and objects -/

theorem normalizeElements_eq (compare : String → String → ℤ) (elements : List JsValue) :
    normalizeElements compare elements = elements.map (normalizeKeys compare) := by
  induction elements with
  | nil => rw [normalizeElements, map_nil]
  | cons element rest ih => rw [normalizeElements, ih, map_cons]

theorem normalizeFields_eq (compare : String → String → ℤ) (fields : List (String × JsValue)) :
    normalizeFields compare fields =
      fields.map fun field => (field.1, field.2.normalizeKeys compare) := by
  induction fields with
  | nil => rw [normalizeFields, map_nil]
  | cons field rest ih =>
    obtain ⟨key, value⟩ := field
    rw [normalizeFields, ih, map_cons]

theorem writtenElements_eq (elements : List JsValue) :
    writtenElements elements = elements.map fun element => element.written.getD .null := by
  induction elements with
  | nil => rw [writtenElements, map_nil]
  | cons element rest ih => rw [writtenElements, ih, map_cons]

theorem writtenFields_eq (fields : List (String × JsValue)) :
    writtenFields fields = collect written fields := by
  induction fields with
  | nil =>
    rw [writtenFields]
    rfl
  | cons field rest ih =>
    obtain ⟨key, value⟩ := field
    rw [writtenFields, ih, collect_cons]

/-- The fields of an object: no name twice, and none that names the prototype. -/
structure OwnFields (fields : List (String × JsValue)) : Prop where
  nodup : (fields.map Prod.fst).Nodup
  proto : ∀ field ∈ fields, field.1 ≠ "__proto__"

variable {fields : List (String × JsValue)}

theorem OwnFields.assignAll (h : OwnFields fields) :
    assignAll fields = fields := by
  have hfold : ∀ (rest result : List (String × JsValue)),
      ((result ++ rest).map Prod.fst).Nodup → (∀ field ∈ rest, field.1 ≠ "__proto__") →
      rest.foldl (fun result field => assignField result field.1 field.2) result =
        result ++ rest := by
    intro rest
    induction rest with
    | nil =>
      intro result _ _
      rw [foldl_nil, append_nil]
    | cons field rest ih =>
      intro result hnodup hproto
      have hnew : field.1 ∉ result.map Prod.fst := by
        intro hmem
        rw [map_append, nodup_append] at hnodup
        exact hnodup.2.2 field.1 hmem field.1 (by simp) rfl
      have hassign : assignField result field.1 field.2 = result ++ [field] := by
        rw [assignField, if_neg (hproto field (by simp)), OrderedMap.setEntries_of_notMem hnew]
      rw [foldl_cons, hassign, ih (result ++ [field]) (by simpa using hnodup)
        fun f hf => hproto f (mem_cons_of_mem _ hf), append_assoc, singleton_append]
  exact hfold fields [] h.nodup h.proto

theorem OwnFields.normalize (h : OwnFields fields) (compare : String → String → ℤ) :
    OwnFields (sortEntries (KeyLe compare)
      (fields.map fun field => (field.1, field.2.normalizeKeys compare))) := by
  have hkeys : (fields.map fun field => (field.1, field.2.normalizeKeys compare)).map Prod.fst =
      fields.map Prod.fst := by
    rw [map_map]
    rfl
  constructor
  · exact nodup_sortEntries _ (hkeys ▸ h.nodup)
  · intro field hfield
    obtain ⟨own, hown, rfl⟩ := mem_map.mp ((sortEntries_perm _ _).mem_iff.mp hfield)
    exact h.proto own hown

theorem writtenAs_array (compare : String → String → ℤ) (elements : List JsValue) :
    (array elements).writtenAs compare =
      some (.array (elements.map fun element => (element.writtenAs compare).getD .null)) := by
  rw [writtenAs, normalizeKeys, written, writtenElements_eq, normalizeElements_eq, map_map]
  rfl

theorem OwnFields.writtenAs (h : OwnFields fields) (kind : ObjectKind)
    (compare : String → String → ℤ) :
    (object kind fields).writtenAs compare =
      some (.object (collect (JsValue.writtenAs compare) (sortEntries (KeyLe compare) fields))) := by
  rw [JsValue.writtenAs, normalizeKeys, normalizeFields_eq, (h.normalize compare).assignAll, record,
    written, writtenFields_eq, sortEntries_map, collect_map]
  rfl

theorem writtenAs_get (compare : String → String → ℤ) (fields : List (String × JsValue))
    (key : String) : ((record fields).get key).writtenAs compare =
      (OrderedMap.find key fields).bind (JsValue.writtenAs compare) := by
  rw [get, fields_record]
  rcases OrderedMap.find key fields with _ | value
  · rfl
  · rfl

variable {compare : String → String → ℤ}

/-- **What is written of an object with sorted keys is what is written of its properties.** -/
theorem OwnFields.writtenAs_eq_iff [Std.Total (KeyLe compare)] [IsTrans String (KeyLe compare)]
    [Std.Antisymm (KeyLe compare)] {fields' : List (String × JsValue)} (h : OwnFields fields)
    (h' : OwnFields fields') :
    (record fields).writtenAs compare = (record fields').writtenAs compare ↔
      ∀ key, ((record fields).get key).writtenAs compare =
        ((record fields').get key).writtenAs compare := by
  rw [record, record, h.writtenAs, h'.writtenAs, Option.some_inj, JsonTree.object.injEq,
    collect_sortEntries_eq_iff (KeyLe compare) _ h.nodup h'.nodup]
  refine forall_congr' fun key => ?_
  rw [← record, ← record, writtenAs_get, writtenAs_get]

/-! ### One comparison and another -/

/-- The values that a snapshot is made of: trees of plain objects, with any numbers and with fields
that are undefined. -/
inductive Plain : JsValue → Prop
  | undefined : Plain undefined
  | null : Plain null
  | bool (value : Bool) : Plain (.bool value)
  | number (value : JsNumber) : Plain (number value)
  | string (value : String) : Plain (string value)
  | array {elements : List JsValue} (helements : ∀ element ∈ elements, Plain element) :
      Plain (array elements)
  | object {fields : List (String × JsValue)} (hown : OwnFields fields)
      (hfields : ∀ field ∈ fields, Plain field.2) : Plain (object .plain fields)

/-- What is written is an array or an object. -/
def isContainer : JsonTree ℚ → Bool
  | .array _ => true
  | .object _ => true
  | _ => false

/-- Only arrays and objects are normalized. -/
theorem writtenAs_of_not_isRecord {value : JsValue} (h : value.isRecord = false) :
    value.writtenAs compare = value.written := by
  rcases value with _ | _ | _ | _ | _ | _ | _ | _
  case array => exact absurd h (by simp [isRecord])
  case object => exact absurd h (by simp [isRecord])
  all_goals rfl

theorem isRecord_eq (compare : String → String → ℤ) (value : JsValue) :
    value.isRecord = (value.writtenAs compare).any isContainer := by
  rcases value with _ | _ | _ | (_ | _ | _ | _) | _ | _ | _ | _
  all_goals rfl

/-- Lists with the same images under one function have the same images under a coarser one. -/
theorem map_eq_of_map_eq {α β γ : Type} {f : α → β} {g : α → γ} : ∀ {l l' : List α},
    (∀ a ∈ l, ∀ b ∈ l', f a = f b → g a = g b) → l.map f = l'.map f → l.map g = l'.map g
  | [], [], _, _ => rfl
  | a :: l, b :: l', h, heq => by
    obtain ⟨hhead, htail⟩ := cons.inj heq
    rw [map_cons, map_cons, h a (by simp) b (by simp) hhead, map_eq_of_map_eq
      (fun a ha b hb => h a (mem_cons_of_mem _ ha) b (mem_cons_of_mem _ hb)) htail]

/-- An absent text stands as null, which is no array and no object. -/
theorem getD_isContainer {a b : Option (JsonTree ℚ)} (h : a.getD .null = b.getD .null) :
    a.any isContainer = b.any isContainer := by
  have hany : ∀ a : Option (JsonTree ℚ), a.any isContainer = isContainer (a.getD .null) := by
    rintro (_ | tree)
    · rfl
    · rfl
  rw [hany, hany, h]

theorem eq_of_getD_of_isContainer {a b : Option (JsonTree ℚ)} (h : a.getD .null = b.getD .null)
    (ha : a.any isContainer = true) (hb : b.any isContainer = true) : a = b := by
  rcases a with _ | tree
  · cases ha
  · rcases b with _ | tree'
    · cases hb
    · exact congrArg some h

theorem Plain.get (h : Plain (record fields)) (key : String) :
    Plain ((record fields).get key) := by
  cases h with
  | object hown hfields =>
    rw [JsValue.get, fields_record]
    rcases hfind : OrderedMap.find key fields with _ | value
    · exact .undefined
    · exact hfields (key, value) ((find_eq_some_iff hown.nodup).mp hfind)

/-- **A value is written alike with a total comparison of keys if it is with any.** -/
theorem writtenAs_transfer {compare' : String → String → ℤ} [Std.Total (KeyLe compare')]
    [IsTrans String (KeyLe compare')] [Std.Antisymm (KeyLe compare')] {x : JsValue} (hx : Plain x) :
    ∀ {y : JsValue}, Plain y → x.writtenAs compare = y.writtenAs compare →
      x.writtenAs compare' = y.writtenAs compare' := by
  have hleaf : ∀ {x y : JsValue}, x.isRecord = false → x.writtenAs compare = y.writtenAs compare →
      x.writtenAs compare' = y.writtenAs compare' := by
    intro x y hx h
    have hy : y.isRecord = false := by rw [isRecord_eq compare, ← h, ← isRecord_eq, hx]
    rw [writtenAs_of_not_isRecord hx, writtenAs_of_not_isRecord hy] at h ⊢
    exact h
  induction hx with
  | undefined => exact fun _ => hleaf rfl
  | null => exact fun _ => hleaf rfl
  | bool value => exact fun _ => hleaf rfl
  | number value => exact fun _ => hleaf rfl
  | string value => exact fun _ => hleaf rfl
  | @array elements helements ih =>
    intro y hy h
    have hrecord : y.isRecord = true := by
      rw [isRecord_eq compare, ← h, ← isRecord_eq]
      rfl
    cases hy with
    | @array elements' helements' =>
      rw [writtenAs_array, writtenAs_array] at h ⊢
      have hmap : elements.map (fun element => (element.writtenAs compare).getD .null) =
          elements'.map fun element => (element.writtenAs compare).getD .null := by
        simpa using h
      refine congrArg (fun trees => some (JsonTree.array trees)) (map_eq_of_map_eq ?_ hmap)
      intro element hmem element' hmem' heq
      -- an element that is not written stands as null, like the values that are written so
      rcases hleaf' : element.isRecord with _ | _
      · have hother : element'.isRecord = false := by
          rw [isRecord_eq compare] at hleaf' ⊢
          exact (getD_isContainer heq).symm.trans hleaf'
        rw [writtenAs_of_not_isRecord hleaf', writtenAs_of_not_isRecord hother] at heq ⊢
        exact heq
      · have hother : element'.isRecord = true := by
          rw [isRecord_eq compare] at hleaf' ⊢
          exact (getD_isContainer heq).symm.trans hleaf'
        rw [ih element hmem (helements' element' hmem')
          (eq_of_getD_of_isContainer heq ((isRecord_eq compare _).symm.trans hleaf')
            ((isRecord_eq compare _).symm.trans hother))]
    | @object fields hown hfields =>
      rw [writtenAs_array, hown.writtenAs] at h
      simp at h
    | _ => cases hrecord
  | @object fields hown hfields ih =>
    intro y hy h
    have hrecord : y.isRecord = true := by
      rw [isRecord_eq compare, ← h, ← isRecord_eq]
      rfl
    cases hy with
    | @array elements helements =>
      rw [writtenAs_array, hown.writtenAs] at h
      simp at h
    | @object fields' hown' hfields' =>
      refine (hown.writtenAs_eq_iff hown').mpr fun key => ?_
      have hkey : ((record fields).get key).writtenAs compare =
          ((record fields').get key).writtenAs compare := by
        rw [writtenAs_get, writtenAs_get,
          ← find_collect_sortEntries (KeyLe compare) _ hown.nodup,
          ← find_collect_sortEntries (KeyLe compare) _ hown'.nodup]
        rw [hown.writtenAs, hown'.writtenAs] at h
        rw [JsonTree.object.inj (Option.some.inj h)]
      have hother : Plain ((record fields').get key) := Plain.get (.object hown' hfields') key
      rcases hfind : OrderedMap.find key fields with _ | value
      · refine hleaf ?_ hkey
        rw [get, fields_record, hfind]
        rfl
      · have hvalue : (record fields).get key = value := by
          rw [get, fields_record, hfind]
          rfl
        rw [hvalue] at hkey ⊢
        exact ih (key, value) ((find_eq_some_iff hown.nodup).mp hfind) hother hkey
    | _ => cases hrecord

end JsValue

end IdleEngine
