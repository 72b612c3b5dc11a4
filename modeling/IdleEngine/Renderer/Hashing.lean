import Mathlib.Data.List.GetD
import IdleEngine.StateSync.Canonical

/-!
# Canonical text for hashing

Views and render commands are hashed by their canonical text: `normalizeNumbersForHash` refuses what
JSON cannot write and takes the sign off zero, and `rfc8785Serialize` writes what is left, the keys
of every object sorted by code units. Two accepted values have one text exactly when they are the
same up to the order of keys, properties that are undefined, undefined elements read as null, and
the sign of zero (`canonicalizeForHash_eq_iff`).
-/

namespace IdleEngine

open SortedEntries JsonText Outcome List Except JsonTree

/-! ### Values and their text -/

/-- A number, negative zero told apart. -/
inductive HashNumber
  | negZero
  | of (value : JsNumber)

/-- A value to be hashed. An object is plain if its prototype is that of object literals or none. -/
inductive HashValue
  | undefined
  | null
  | bool (value : Bool)
  | number (value : HashNumber)
  | string (value : String)
  | bigint
  | symbol
  | function
  | map
  | set
  | array (elements : List HashValue)
  | object (plain : Bool) (fields : List (String × HashValue))

/-- The comparison of keys. -/
def compareStrings (a b : String) : ℤ := if utf16Lt a b then -1 else if utf16Lt b a then 1 else 0

namespace HashNumber

/-- The number without the sign of zero. -/
def unsigned : HashNumber → JsNumber
  | negZero => .fin 0
  | of value => value

/-- `JSON.stringify` of a number, over a way to write finite ones. -/
def stringify (numbers : NumberText ℚ) (value : HashNumber) : List Char :=
  match value.unsigned with
  | .fin q => numbers.text q
  | _ => ['n', 'u', 'l', 'l']

def normalize (value : HashNumber) : Except String HashNumber :=
  match value with
  | negZero => .ok (of (.fin 0))
  | of .nan => .error "Failed to hash value: encountered NaN."
  | of .posInf | of .negInf => .error "Failed to hash value: encountered Infinity."
  | of (.fin q) => .ok (of (.fin q))

end HashNumber

namespace HashValue

mutual

def normalizeNumbersForHash : HashValue → Except String HashValue
  | undefined => .ok undefined
  | null => .ok null
  | bool value => .ok (bool value)
  | number value => value.normalize.map number
  | string value => .ok (string value)
  | bigint => .error "Failed to hash value: encountered bigint."
  | symbol => .error "Failed to hash value: encountered symbol."
  | function => .error "Failed to hash value: encountered function."
  | map => .error "Failed to hash value: encountered Map."
  | set => .error "Failed to hash value: encountered Set."
  | array elements => (normalizeElements elements).map array
  | object false _ => .error "Failed to hash value: encountered non-plain object."
  | object true fields => (normalizeFields fields).map (object true)

def normalizeElements : List HashValue → Except String (List HashValue)
  | [] => .ok []
  | element :: rest => do
      let element ← normalizeNumbersForHash element
      let rest ← normalizeElements rest
      .ok (element :: rest)

def normalizeFields : List (String × HashValue) → Except String (List (String × HashValue))
  | [] => .ok []
  | (key, value) :: rest => do
      let value ← normalizeNumbersForHash value
      let rest ← normalizeFields rest
      .ok ((key, value) :: rest)

end

variable (numbers : NumberText ℚ)

/-- The pairs of an object whose value has a text, in the order of the sorted keys. -/
def sortedPairs {W : Type} (fields : List (String × Option W)) : List (String × W) :=
  collect id (sortEntries (KeyLe compareStrings) fields)

mutual

def rfc8785Serialize : HashValue → Option (List Char)
  | null => some ['n', 'u', 'l', 'l']
  | bool true => some ['t', 'r', 'u', 'e']
  | bool false => some ['f', 'a', 'l', 's', 'e']
  | number value => some (value.stringify numbers)
  | string value => some (quote value.toList)
  | array elements =>
      some ('[' :: ([','].intercalate (serializeElements elements) ++ [']']))
  | object _ fields =>
      some ('{' :: ([','].intercalate ((sortedPairs (serializeFields fields)).map fun pair =>
        quote pair.1.toList ++ ':' :: pair.2) ++ ['}']))
  -- these have no keys of their own
  | map | set => some ['{', '}']
  | undefined | bigint | symbol | function => none

def serializeElements : List HashValue → List (List Char)
  | [] => []
  | element :: rest =>
      (rfc8785Serialize element).getD ['n', 'u', 'l', 'l'] :: serializeElements rest

def serializeFields : List (String × HashValue) → List (String × Option (List Char))
  | [] => []
  | (key, value) :: rest => (key, rfc8785Serialize value) :: serializeFields rest

end

def canonicalizeForHash (value : HashValue) : Except String String := do
  let normalized ← value.normalizeNumbersForHash
  match normalized.rfc8785Serialize numbers with
  | none => .error "Failed to canonicalize value for hashing."
  | some result => .ok (String.ofList result)

/-! ### The same values -/

/-- The property of an object, undefined if it has none. -/
def getField (fields : List (String × HashValue)) (key : String) : HashValue :=
  (OrderedMap.find key fields).getD undefined

/-- An undefined element is read as null. -/
def orNull : HashValue → HashValue
  | undefined => null
  | value => value

/-- **The same value**, up to the order of keys, properties that are undefined, undefined elements
read as null, and the sign of zero. -/
inductive Same : HashValue → HashValue → Prop
  | undefined : Same undefined undefined
  | null : Same null null
  | bool (value : Bool) : Same (bool value) (bool value)
  | number {x y : HashNumber} (h : x.unsigned = y.unsigned) : Same (number x) (number y)
  | string (value : String) : Same (string value) (string value)
  | array {l l' : List HashValue} (hlength : l.length = l'.length)
      (h : ∀ i, Same (l.getD i undefined).orNull (l'.getD i undefined).orNull) :
      Same (array l) (array l')
  | object {fields fields' : List (String × HashValue)}
      (h : ∀ key, Same (getField fields key) (getField fields' key)) :
      Same (object true fields) (object true fields')

mutual

/-- No object of the value has a key twice. -/
def OwnKeys : HashValue → Prop
  | array elements => OwnKeysEach elements
  | object _ fields => (fields.map Prod.fst).Nodup ∧ OwnKeysFields fields
  | _ => True

def OwnKeysEach : List HashValue → Prop
  | [] => True
  | element :: rest => OwnKeys element ∧ OwnKeysEach rest

def OwnKeysFields : List (String × HashValue) → Prop
  | [] => True
  | (_, value) :: rest => OwnKeys value ∧ OwnKeysFields rest

end

/-! ### What is written -/

mutual

/-- What is written of a value, nothing for one without a text. -/
def tree : HashValue → Option (JsonTree ℚ)
  | null => some .null
  | bool value => some (.bool value)
  | number value => some (.number (value.unsigned.finite?.getD 0))
  | string value => some (.string value)
  | array elements => some (.array (treeElements elements))
  | object _ fields => some (.object (sortedPairs (treeFields fields)))
  | _ => none

def treeElements : List HashValue → List (JsonTree ℚ)
  | [] => []
  | element :: rest => (tree element).getD .null :: treeElements rest

def treeFields : List (String × HashValue) → List (String × Option (JsonTree ℚ))
  | [] => []
  | (key, value) :: rest => (key, tree value) :: treeFields rest

end

theorem treeElements_eq (elements : List HashValue) :
    treeElements elements = elements.map fun element => element.tree.getD .null := by
  induction elements with
  | nil => rw [treeElements, map_nil]
  | cons element rest ih => rw [treeElements, ih, map_cons]

theorem treeFields_eq (fields : List (String × HashValue)) :
    treeFields fields = fields.map fun field => (field.1, field.2.tree) := by
  induction fields with
  | nil => rw [treeFields, map_nil]
  | cons field rest ih =>
    obtain ⟨key, value⟩ := field
    rw [treeFields, ih, map_cons]

theorem sortedPairs_map {V W : Type} (f : V → W) (fields : List (String × Option V)) :
    sortedPairs (fields.map fun field => (field.1, field.2.map f)) =
      (sortedPairs fields).map fun pair => (pair.1, f pair.2) := by
  rw [sortedPairs, sortedPairs, sortEntries_map, collect_map, collect, collect, map_filterMap]
  refine congrArg (filterMap · _) (funext fun field => ?_)
  rcases field.2 with _ | value
  · rfl
  · rfl

mutual

/-- **The two passes write the tree of a value.** -/
theorem serialize_of_normalize : ∀ {value normalized : HashValue},
    value.normalizeNumbersForHash = .ok normalized →
      normalized.rfc8785Serialize numbers = value.tree.map (write numbers)
  | undefined, _, h => by
    obtain rfl := ok.inj h
    rfl
  | null, _, h => by
    obtain rfl := ok.inj h
    rfl
  | bool value, _, h => by
    obtain rfl := ok.inj h
    rcases value with _ | _
    · rfl
    · rfl
  | number value, _, h => by
    obtain ⟨finite, hfinite, rfl⟩ := map_ok h
    rcases value with _ | (q | _ | _ | _)
    case negZero => obtain rfl := ok.inj hfinite; rfl
    case of.fin => obtain rfl := ok.inj hfinite; rfl
    all_goals cases hfinite
  | string value, _, h => by
    obtain rfl := ok.inj h
    rfl
  | array elements, _, h => by
    obtain ⟨normalized, helements, rfl⟩ := map_ok h
    rw [rfc8785Serialize, serializeElements_of_normalize helements, tree, Option.map_some,
      write, writeElements_eq]
  | object true fields, _, h => by
    obtain ⟨normalized, hfields, rfl⟩ := map_ok h
    rw [rfc8785Serialize, serializeFields_of_normalize hfields, sortedPairs_map, tree,
      Option.map_some, write, writeMembers_eq, map_map]
    rfl

theorem serializeElements_of_normalize : ∀ {elements normalized : List HashValue},
    normalizeElements elements = .ok normalized →
      serializeElements numbers normalized = (treeElements elements).map (write numbers)
  | [], _, h => by
    obtain rfl := ok.inj h
    rfl
  | element :: rest, _, h => by
    obtain ⟨first, hfirst, h⟩ := bind_ok h
    obtain ⟨others, hothers, h⟩ := bind_ok h
    obtain rfl := ok.inj h
    rw [serializeElements, serialize_of_normalize hfirst, serializeElements_of_normalize hothers,
      treeElements, map_cons]
    rcases element.tree with _ | written
    · rfl
    · rfl

theorem serializeFields_of_normalize : ∀ {fields normalized : List (String × HashValue)},
    normalizeFields fields = .ok normalized →
      serializeFields numbers normalized =
        (treeFields fields).map fun field => (field.1, field.2.map (write numbers))
  | [], _, h => by
    obtain rfl := ok.inj h
    rfl
  | (key, value) :: rest, _, h => by
    obtain ⟨first, hfirst, h⟩ := bind_ok h
    obtain ⟨others, hothers, h⟩ := bind_ok h
    obtain rfl := ok.inj h
    rw [serializeFields, serialize_of_normalize hfirst, serializeFields_of_normalize hothers,
      treeFields, map_cons]

end

variable {value : HashValue}

theorem exists_tree_of_canonicalize {text : String}
    (h : value.canonicalizeForHash numbers = .ok text) :
    ∃ written, value.tree = some written ∧ text = String.ofList (written.write numbers) ∧
      ∃ normalized, value.normalizeNumbersForHash = .ok normalized := by
  obtain ⟨normalized, hnormalized, h⟩ := bind_ok h
  rw [serialize_of_normalize numbers hnormalized] at h
  rcases htree : value.tree with _ | written
  · rw [htree] at h
    cases h
  · rw [htree] at h
    exact ⟨written, rfl, (ok.inj h).symm, normalized, hnormalized⟩

/-! ### Equal trees -/

/-- A value that passes the first pass, without a key twice. -/
inductive Hashable : HashValue → Prop
  | undefined : Hashable undefined
  | null : Hashable null
  | bool (value : Bool) : Hashable (bool value)
  | number {value : HashNumber} {q : ℚ} (h : value.unsigned = .fin q) : Hashable (number value)
  | string (value : String) : Hashable (string value)
  | array {elements : List HashValue} (h : ∀ element ∈ elements, Hashable element) :
      Hashable (array elements)
  | object {fields : List (String × HashValue)} (hnodup : (fields.map Prod.fst).Nodup)
      (h : ∀ field ∈ fields, Hashable field.2) : Hashable (object true fields)

mutual

theorem hashable_of_normalize : ∀ {value normalized : HashValue}, value.OwnKeys →
    value.normalizeNumbersForHash = .ok normalized → value.Hashable
  | undefined, _, _, _ => .undefined
  | null, _, _, _ => .null
  | bool value, _, _, _ => .bool value
  | number value, _, _, h => by
    obtain ⟨finite, hfinite, -⟩ := map_ok h
    rcases value with _ | (q | _ | _ | _)
    case negZero => exact .number rfl
    case of.fin => exact .number rfl
    all_goals cases hfinite
  | string value, _, _, _ => .string value
  | array elements, _, hown, h => by
    obtain ⟨normalized, helements, -⟩ := map_ok h
    exact .array (hashable_of_normalizeElements (by rwa [OwnKeys] at hown) helements)
  | object true fields, _, hown, h => by
    obtain ⟨normalized, hfields, -⟩ := map_ok h
    rw [OwnKeys] at hown
    exact .object hown.1 (hashable_of_normalizeFields hown.2 hfields)

theorem hashable_of_normalizeElements : ∀ {elements normalized : List HashValue},
    OwnKeysEach elements → normalizeElements elements = .ok normalized →
      ∀ element ∈ elements, Hashable element
  | [], _, _, _ => by simp
  | element :: rest, _, hown, h => by
    obtain ⟨first, hfirst, h⟩ := bind_ok h
    obtain ⟨others, hothers, -⟩ := bind_ok h
    rw [OwnKeysEach] at hown
    exact forall_mem_cons.mpr ⟨hashable_of_normalize hown.1 hfirst,
      hashable_of_normalizeElements hown.2 hothers⟩

theorem hashable_of_normalizeFields : ∀ {fields normalized : List (String × HashValue)},
    OwnKeysFields fields → normalizeFields fields = .ok normalized →
      ∀ field ∈ fields, Hashable field.2
  | [], _, _, _ => by simp
  | (key, value) :: rest, _, hown, h => by
    obtain ⟨first, hfirst, h⟩ := bind_ok h
    obtain ⟨others, hothers, -⟩ := bind_ok h
    rw [OwnKeysFields] at hown
    exact forall_mem_cons.mpr ⟨hashable_of_normalize hown.1 hfirst,
      hashable_of_normalizeFields hown.2 hothers⟩

end

theorem Hashable.tree_orNull (h : value.Hashable) :
    value.orNull.tree = some (value.tree.getD .null) := by
  cases h <;> simp [tree, orNull]

theorem hashable_orNull (h : value.Hashable) : value.orNull.Hashable := by
  cases h <;> first | exact .null | exact .bool _ | exact .string _ | skip
  case number h => exact .number h
  case array h => exact .array h
  case object hnodup h => exact .object hnodup h

theorem tree_getField (fields : List (String × HashValue)) (key : String) :
    (getField fields key).tree = (OrderedMap.find key fields).bind tree := by
  rw [getField]
  rcases OrderedMap.find key fields with _ | value
  · rfl
  · rfl

/-- The two comparisons of keys in the engine agree. -/
theorem compareStrings_eq : compareStrings = compareCodeUnits := by
  funext a b
  have hlt : ∀ a b : String, utf16Lt a b = true ↔ codeUnits a < codeUnits b :=
    fun a b => decide_eq_true_iff
  rw [compareStrings, compareCodeUnits]
  rcases lt_trichotomy (codeUnits a) (codeUnits b) with hless | hequal | hmore
  · have hne : a ≠ b := fun h => hless.ne (congrArg codeUnits h)
    rw [if_pos ((hlt a b).mpr hless), if_neg hne, if_pos ((hlt a b).mpr hless)]
  · obtain rfl := codeUnits_injective hequal
    rw [if_pos rfl, if_neg fun h => lt_irrefl _ ((hlt a a).mp h),
      if_neg fun h => lt_irrefl _ ((hlt a a).mp h)]
  · have hne : a ≠ b := fun h => hmore.ne' (congrArg codeUnits h)
    have hnot : ¬utf16Lt a b = true := fun h => lt_asymm hmore ((hlt a b).mp h)
    rw [if_neg hnot, if_pos ((hlt b a).mpr hmore), if_neg hne, if_neg hnot]

variable {fields fields' : List (String × HashValue)}

/-- What is written of two objects is the same exactly when it is for each key. -/
theorem sortedPairs_eq_iff (hnodup : (fields.map Prod.fst).Nodup)
    (hnodup' : (fields'.map Prod.fst).Nodup) :
    sortedPairs (treeFields fields) = sortedPairs (treeFields fields') ↔
      ∀ key, (getField fields key).tree = (getField fields' key).tree := by
  have hsorted : ∀ l : List (String × HashValue), sortedPairs (treeFields l) =
      collect tree (sortEntries (KeyLe compareStrings) l) := by
    intro l
    rw [sortedPairs, treeFields_eq, sortEntries_map, collect_map]
    rfl
  simp only [hsorted, tree_getField, compareStrings_eq]
  exact collect_sortEntries_eq_iff (KeyLe compareCodeUnits) tree hnodup hnodup'

theorem same_array_iff {l l' : List HashValue} : Same (array l) (array l') ↔ l.length = l'.length ∧
    ∀ i, Same (l.getD i undefined).orNull (l'.getD i undefined).orNull :=
  ⟨fun h => by cases h with | array hlength h => exact ⟨hlength, h⟩, fun h => .array h.1 h.2⟩

theorem same_object_iff :
    Same (object true fields) (object true fields') ↔
      ∀ key, Same (getField fields key) (getField fields' key) :=
  ⟨fun h => by cases h with | object h => exact h, .object⟩

theorem hashable_getD {elements : List HashValue} (h : ∀ element ∈ elements, Hashable element)
    (i : ℕ) : (elements.getD i HashValue.undefined).Hashable := by
  rw [getD_eq_getElem?_getD]
  rcases hi : elements[i]? with _ | element
  · exact .undefined
  · exact h element (mem_of_getElem? hi)

theorem hashable_getField (hnodup : (fields.map Prod.fst).Nodup)
    (h : ∀ field ∈ fields, Hashable field.2) (key : String) : (getField fields key).Hashable := by
  rw [getField]
  rcases hfind : OrderedMap.find key fields with _ | value
  · exact .undefined
  · exact h (key, value) ((find_eq_some_iff hnodup).mp hfind)

variable {a : HashValue}

theorem same_of_tree_eq {b : HashValue} (ha : a.Hashable) (hb : b.Hashable)
    (harray : ∀ l, a ≠ array l) (hobject : ∀ fields, a ≠ object true fields) (h : a.tree = b.tree) :
    a.Same b := by
  cases ha <;> cases hb <;> simp only [tree, Option.some.injEq, reduceCtorEq, JsonTree.bool.injEq,
    JsonTree.string.injEq, JsonTree.number.injEq] at h
  case array.array => exact absurd rfl (harray _)
  case object.object => exact absurd rfl (hobject _)
  case number.number x q hx y q' hy =>
    rw [hx, hy] at h
    exact .number (by rw [hx, hy, show q = q' from h])
  case undefined.undefined => exact .undefined
  case null.null => exact .null
  case bool.bool => exact h ▸ .bool _
  case string.string => exact h ▸ .string _

theorem map_eq_map_iff {α β : Type} (f : α → β) (d : α) {l l' : List α} :
    l.map f = l'.map f ↔ l.length = l'.length ∧ ∀ i, f (l.getD i d) = f (l'.getD i d) := by
  constructor
  · intro h
    have hplace : ∀ (l : List α) (i : ℕ), (l.map f).getD i (f d) = f (l.getD i d) :=
      fun l i => getD_map l d f
    refine ⟨by simpa using congrArg length h, fun i => ?_⟩
    rw [← hplace, h, hplace]
  · rintro ⟨hlength, h⟩
    refine ext_getElem (by simpa using hlength) fun i hi hi' => ?_
    rw [length_map] at hi hi'
    rw [getElem_map, getElem_map, ← getD_eq_getElem l d hi, h i,
      getD_eq_getElem l' d hi']

/-- **Accepted values have one tree exactly when they are the same.** -/
theorem tree_eq_iff (ha : a.Hashable) :
    ∀ {b : HashValue}, b.Hashable → (a.tree = b.tree ↔ a.Same b) := by
  -- a value that is no array and no plain object is settled by its tree alone
  have hleaf : ∀ {a b : HashValue}, a.Hashable → b.Hashable → (∀ l, a ≠ array l) →
      (∀ fields, a ≠ object true fields) → (a.tree = b.tree ↔ a.Same b) := by
    intro a b ha hb harray hobject
    refine ⟨same_of_tree_eq ha hb harray hobject, fun h => ?_⟩
    cases h with
    | number h => rw [tree, tree, h]
    | array => exact absurd rfl (harray _)
    | object => exact absurd rfl (hobject _)
    | _ => rfl
  induction ha with
  | undefined => exact fun hb => hleaf .undefined hb (by simp) (by simp)
  | null => exact fun hb => hleaf .null hb (by simp) (by simp)
  | bool value => exact fun hb => hleaf (.bool value) hb (by simp) (by simp)
  | number h => exact fun hb => hleaf (.number h) hb (by simp) (by simp)
  | string value => exact fun hb => hleaf (.string value) hb (by simp) (by simp)
  | @array l hl ih =>
    intro b hb
    cases hb with
    | @array l' hl' =>
      -- inside an array undefined is written as null: elements are compared as written
      have hplace : ∀ i, (l.getD i undefined).tree.getD .null =
          (l'.getD i undefined).tree.getD .null ↔
            Same (l.getD i undefined).orNull (l'.getD i undefined).orNull := by
        intro i
        have hi := hashable_getD hl i
        have hi' := hashable_getD hl' i
        rw [← Option.some_inj, ← hi.tree_orNull, ← hi'.tree_orNull]
        rw [getD_eq_getElem?_getD] at hi ⊢
        rcases hget : l[i]? with _ | element
        · exact hleaf .null (hashable_orNull hi') (by simp [orNull]) (by simp [orNull])
        · by_cases hundefined : element = undefined
          · subst hundefined
            exact hleaf .null (hashable_orNull hi') (by simp [orNull]) (by simp [orNull])
          · have hsame : element.orNull = element := by
              cases element <;> first | rfl | exact absurd rfl hundefined
            rw [Option.getD_some, hsame]
            exact ih element (mem_of_getElem? hget) (hashable_orNull hi')
      rw [same_array_iff, ← forall_congr' hplace, tree, tree, Option.some_inj,
        JsonTree.array.injEq, treeElements_eq, treeElements_eq, map_eq_map_iff _ undefined]
    | _ => exact iff_of_false (by simp [tree]) fun h => by cases h
  | @object fields hnodup hfields ih =>
    intro b hb
    cases hb with
    | @object fields' hnodup' hfields' =>
      rw [same_object_iff, tree, tree, Option.some_inj, JsonTree.object.injEq,
        sortedPairs_eq_iff hnodup hnodup']
      refine forall_congr' fun key => ?_
      have hkey := hashable_getField hnodup' hfields' key
      rw [getField]
      rcases hfind : OrderedMap.find key fields with _ | value
      · exact hleaf .undefined hkey (by simp) (by simp)
      · exact ih (key, value) ((find_eq_some_iff hnodup).mp hfind) hkey
    | _ => exact iff_of_false (by simp [tree]) fun h => by cases h

/-- **Canonical texts.** Two accepted values have one canonical text exactly when they are the same
up to the order of keys, undefined properties, undefined elements read as null, and the sign of
zero. -/
theorem canonicalizeForHash_eq_iff {a b : HashValue} (ha : a.OwnKeys) (hb : b.OwnKeys)
    {text text' : String} (htext : a.canonicalizeForHash numbers = .ok text)
    (htext' : b.canonicalizeForHash numbers = .ok text') : text = text' ↔ a.Same b := by
  obtain ⟨written, htree, rfl, _, hpass⟩ := exists_tree_of_canonicalize numbers htext
  obtain ⟨written', htree', rfl, _, hpass'⟩ := exists_tree_of_canonicalize numbers htext'
  rw [← tree_eq_iff (hashable_of_normalize ha hpass) (hashable_of_normalize hb hpass'), htree,
    htree', Option.some_inj]
  constructor
  · exact fun h => JsonTree.write_injective numbers (String.ofList_injective h)
  · exact fun h => by rw [h]

/-- An object with a negative zero and an undefined property. -/
def signedZero : HashValue :=
  object true [("zoom", number .negZero), ("tags", array [undefined]), ("tint", undefined)]

/-- The same object as it is read back. -/
def plainZero : HashValue :=
  object true [("tags", array [null]), ("zoom", number (.of (.fin 0)))]

theorem canonicalizeForHash_eq_iff_zero : signedZero.Same plainZero := by
  have htext : signedZero.canonicalizeForHash JsonText.fractionText =
      .ok "\x7b\"tags\":[null],\"zoom\":0\x7d" := by
    decide +kernel
  have htext' : plainZero.canonicalizeForHash JsonText.fractionText =
      .ok "\x7b\"tags\":[null],\"zoom\":0\x7d" := by
    decide +kernel
  exact (canonicalizeForHash_eq_iff JsonText.fractionText (by simp [signedZero, OwnKeys,
    OwnKeysFields, OwnKeysEach]) (by simp [plainZero, OwnKeys, OwnKeysFields, OwnKeysEach]) htext
    htext').mp rfl

end HashValue

end IdleEngine
