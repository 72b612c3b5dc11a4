import IdleEngine.Lib.JsonParse
import IdleEngine.Replay.Format

/-!
# The lines of a replay file

`parseJson` is `JSON.parse`, over a way to read numbers, and `reread` is what the text of a value is
read back as: the identity on the values of JSON. The text of a record is one line, so splitting the
joined lines gives them back (`splitReplayLines_join`).
-/

namespace IdleEngine

open JsValue JsonText SortedEntries List Option String

variable {numbers : NumberText ℚ} (reader : NumberReader numbers)

namespace JsValue

/-! ### Values of a text -/

mutual

/-- The value of a JSON text. -/
def ofTree : JsonTree ℚ → JsValue
  | .null => null
  | .bool value => .bool value
  | .number value => number (.fin value)
  | .string value => string value
  | .array elements => array (ofElements elements)
  | .object members => record (ofMembers [] members)

def ofElements : List (JsonTree ℚ) → List JsValue
  | [] => []
  | element :: rest => ofTree element :: ofElements rest

/-- The members of an object become its fields one after the other; the last of two members with
one name counts. -/
def ofMembers (result : List (String × JsValue)) :
    List (String × JsonTree ℚ) → List (String × JsValue)
  | [] => result
  | (key, value) :: rest => ofMembers (OrderedMap.setEntries key (ofTree value) result) rest

end

/-- `JSON.parse`. -/
def parseJson (text : String) : Except String JsValue :=
  match JsonTree.parse reader text.toList with
  | none => .error "Unexpected token in JSON"
  | some tree => .ok (ofTree tree)

/-- What the text of a value is read back as; nothing for a value without a text. -/
def reread (value : JsValue) : Option JsValue := value.written.map ofTree

/-- What a value becomes as an element of an array. -/
def rereadElement (value : JsValue) : JsValue := value.reread.getD null

theorem ofElements_eq (elements : List (JsonTree ℚ)) : ofElements elements = elements.map ofTree := by
  induction elements with
  | nil => rw [ofElements, map_nil]
  | cons element rest ih => rw [ofElements, ih, map_cons]

variable {members : List (String × JsonTree ℚ)}

/-- Members with names of their own become the fields in their order. -/
theorem ofMembers_append :
    ∀ result : List (String × JsValue),
      ((result.map Prod.fst) ++ (members.map Prod.fst)).Nodup →
        ofMembers result members = result ++ members.map fun member => (member.1, ofTree member.2) := by
  induction members with
  | nil =>
    intro result _
    rw [ofMembers, map_nil, append_nil]
  | cons member rest ih =>
    intro result hnodup
    obtain ⟨key, value⟩ := member
    have hnew : key ∉ result.map Prod.fst := by
      intro hmem
      exact (nodup_append.mp hnodup).2.2 key hmem key (by simp) rfl
    rw [ofMembers, OrderedMap.setEntries_of_notMem hnew, ih]
    · simp
    · simpa using hnodup

theorem ofMembers_eq (hnodup : (members.map Prod.fst).Nodup) :
    ofMembers [] members = members.map fun member => (member.1, ofTree member.2) := by
  rw [ofMembers_append [] (by simpa using hnodup), nil_append]

variable {fields : List (String × JsValue)}

/-- **The fields of an object are read back one by one.** -/
theorem reread_record (hnodup : (fields.map Prod.fst).Nodup) :
    ∃ fields', reread (record fields) = some (record fields') ∧
      ∀ key, (record fields').get key =
        ((OrderedMap.find key fields).bind reread).getD undefined := by
  have hkeys : ((SortedEntries.collect written fields).map Prod.fst).Nodup :=
    hnodup.sublist (keys_collect_sublist written fields)
  refine ⟨(SortedEntries.collect written fields).map fun member => (member.1, ofTree member.2), ?_,
    fun key => ?_⟩
  · rw [reread, record, written, writtenFields_eq, map_some, ofTree, ofMembers_eq hkeys]
  · rw [JsValue.get, fields_record, OrderedMap.find_map, find_collect written hnodup]
    rcases OrderedMap.find key fields with _ | value
    · rfl
    · rfl

theorem reread_array (elements : List JsValue) :
    reread (array elements) = some (array (elements.map rereadElement)) := by
  rw [reread, written, writtenElements_eq, map_some, ofTree, ofElements_eq, List.map_map]
  refine congrArg (fun elements => some (array elements)) (map_congr_left fun element _ => ?_)
  rw [Function.comp_apply, rereadElement, reread]
  rcases element.written with _ | tree
  · rw [map_none, getD_none, getD_none, ofTree]
  · rfl

@[simp]
theorem reread_string (value : String) : reread (string value) = some (string value) := by
  rw [reread, written, map_some, ofTree]

@[simp]
theorem reread_bool (value : Bool) : reread (.bool value) = some (.bool value) := by
  rw [reread, written, map_some, ofTree]

@[simp]
theorem reread_null : reread null = some null := by
  rw [reread, written, map_some, ofTree]

@[simp]
theorem reread_fin (value : ℚ) : reread (number (.fin value)) = some (number (.fin value)) := by
  have hwritten : written (number (.fin value)) = some (.number value) := by
    rw [written]
    rfl
  rw [reread, hwritten, map_some, ofTree]

theorem reread_number {value : JsNumber} (h : value.finite? = none) :
    reread (number value) = some null := by
  have hwritten : written (number value) = some .null := by
    rw [written, h]
  rw [reread, hwritten, map_some, ofTree]

/-- Fields whose values are read back as they are. -/
theorem map_collect_self (h : ∀ field ∈ fields, reread field.2 = some field.2) :
    (SortedEntries.collect written fields).map (fun member => (member.1, ofTree member.2)) =
      fields := by
  induction fields with
  | nil => rfl
  | cons field fields ih =>
    obtain ⟨key, value⟩ := field
    obtain ⟨tree, htree, hback⟩ := map_eq_some_iff.mp (h (key, value) (by simp))
    have hhead : written value = some tree := htree
    rw [collect_cons, hhead, map_some, toList_some, cons_append,
      nil_append, map_cons, hback, ih fun field hfield => h field (by simp [hfield])]

variable {value : JsValue}

/-- **A value of JSON is read back as itself.** -/
theorem reread_isJson (hjson : IsJson value) : reread value = some value := by
  induction hjson with
  | null => exact reread_null
  | bool value => exact reread_bool value
  | number value => exact reread_fin value
  | string value => exact reread_string value
  | @array elements _ ih =>
    have hself : elements.map rereadElement = elements.map id := by
      refine map_congr_left fun element helement => ?_
      rw [rereadElement, ih element helement, getD_some, id]
    rw [reread_array, hself, List.map_id]
  | @object fields hnodup _ _ ih =>
    have hkeys : ((SortedEntries.collect written fields).map Prod.fst).Nodup :=
      hnodup.sublist (keys_collect_sublist written fields)
    rw [reread, written, writtenFields_eq, map_some, ofTree, ofMembers_eq hkeys,
      map_collect_self ih]
    rfl

theorem parseJson_stringifyRecord {line : String}
    (hline : stringifyRecord numbers (record fields) = .ok line)
    (hvalue : reread (record fields) = some value) : parseJson reader line = .ok value := by
  obtain ⟨tree, htree, rfl⟩ := map_eq_some_iff.mp hvalue
  have htext : line = ofList (tree.write numbers) := by
    unfold stringifyRecord at hline
    split at hline
    · cases hline
    · rw [stringify, htree, map_some, getD_some] at hline
      exact (Except.ok.inj hline).symm
  rw [parseJson, htext, toList_ofList, JsonTree.parse_write]

end JsValue

/-! ### Lines -/

/-- `input.split(/\r?\n/u)`. -/
def splitLineBreaks (text : List Char) : List (List Char) :=
  let parts := text.splitOn '\n'
  parts.dropLast.map (fun part => if part.getLast? = some '\r' then part.dropLast else part) ++
    parts.getLast?.toList

/-- `splitReplayLines`. -/
def splitReplayLines (input : String) (maxLines : ℕ) : Except String (List String) :=
  let lines := ((splitLineBreaks input.toList).map fun line => trim (String.ofList line)).filter
    fun line => line ≠ ""
  if lines = [] then .error "Replay input is empty."
  else if maxLines < lines.length then .error "Replay input exceeds configured line limit."
  else .ok lines

/-- The text of an object: between braces, and without control characters. -/
structure ObjectLine (line : String) : Prop where
  braces : line.toList.head? = some '{' ∧ line.toList.getLast? = some '}'
  printable : ∀ c ∈ line.toList, 32 ≤ c.toNat

theorem objectLine_stringifyRecord (reader : NumberReader numbers)
    {fields : List (String × JsValue)} {line : String}
    (hline : stringifyRecord numbers (record fields) = .ok line) : ObjectLine line := by
  have htext : line = ofList ((JsonTree.object (writtenFields fields)).write numbers) := by
    unfold stringifyRecord at hline
    split at hline
    · cases hline
    · rw [record, stringify, written, map_some, getD_some] at hline
      exact (Except.ok.inj hline).symm
  obtain ⟨body, hbody, hlast⟩ := JsonTree.write_object numbers (writtenFields fields)
  refine ⟨?_, ?_⟩
  · rw [htext, toList_ofList, hbody, getLast?_cons, hlast]
    exact ⟨rfl, rfl⟩
  · rw [htext, toList_ofList]
    exact JsonTree.printable_write reader _

theorem dropWhile_isTrimmed {l : List Char} {c : Char} (hhead : l.head? = some c)
    (hc : isTrimmed c = false) : l.dropWhile isTrimmed = l := by
  rw [eq_cons_of_mem_head? hhead, dropWhile_cons_of_neg (by simp [hc])]

namespace ObjectLine

variable {line : String}

theorem trim_eq (h : ObjectLine line) : trim line = line := by
  obtain ⟨hfirst, hlast⟩ := h.braces
  rw [trim, dropWhile_isTrimmed hfirst (by decide), dropWhile_isTrimmed (c := '}') ?_ (by decide),
    reverse_reverse, ofList_toList]
  rw [head?_reverse, hlast]

theorem ne_empty (h : ObjectLine line) : line ≠ "" := by
  rintro rfl
  cases h.braces.1

theorem noLineFeed (h : ObjectLine line) : '\n' ∉ line.toList := by
  intro hmem
  exact absurd (h.printable _ hmem) (by decide)

theorem noCarriageReturn (h : ObjectLine line) : line.toList.getLast? ≠ some '\r' := by
  rw [h.braces.2]
  decide

end ObjectLine

variable {lines : List String}

theorem splitOn_join (hne : lines ≠ []) (hlines : ∀ line ∈ lines, '\n' ∉ line.toList) :
    ("\n".intercalate lines ++ "\n").toList.splitOn '\n' = lines.map String.toList ++ [[]] := by
  have hjoin : ("\n".intercalate lines ++ "\n").toList =
      ['\n'].intercalate (lines.map String.toList ++ [[]]) := by
    have hfeed : "\n".toList = ['\n'] := rfl
    rw [String.toList_append, String.toList_intercalate, hfeed]
    clear hlines
    induction lines with
    | nil => exact absurd rfl hne
    | cons line rest ih =>
      rcases rest with _ | ⟨next, rest⟩
      · simp [List.intercalate_cons_cons]
      · have htail := ih (cons_ne_nil _ _)
        rw [map_cons] at htail
        rw [map_cons, map_cons, cons_append, cons_append,
          List.intercalate_cons_cons, List.intercalate_cons_cons, List.append_assoc, htail,
          cons_append]
  rw [hjoin, splitOn_intercalate '\n' ?_ (by simp)]
  intro l hl
  rcases mem_append.mp hl with hl | hl
  · obtain ⟨line, hline, rfl⟩ := mem_map.mp hl
    exact hlines line hline
  · rw [mem_singleton.mp hl]
    exact not_mem_nil

/-- **The lines of joined records come back.** -/
theorem splitReplayLines_join (hne : lines ≠ []) (hlines : ∀ line ∈ lines, ObjectLine line)
    (maxLines : ℕ) :
    splitReplayLines ("\n".intercalate lines ++ "\n") maxLines =
      if maxLines < lines.length then .error "Replay input exceeds configured line limit."
      else .ok lines := by
  have hparts : splitLineBreaks ("\n".intercalate lines ++ "\n").toList =
      lines.map String.toList ++ [[]] := by
    have hkept : (lines.map String.toList).map
        (fun part => if part.getLast? = some '\r' then part.dropLast else part) =
          lines.map String.toList := by
      rw [List.map_map]
      refine map_congr_left fun line hline => ?_
      rw [Function.comp_apply, if_neg (hlines line hline).noCarriageReturn]
    rw [splitLineBreaks, splitOn_join hne fun line hline => (hlines line hline).noLineFeed]
    simp only [dropLast_concat, getLast?_concat, hkept, toList_some]
  have htrimmed : ((lines.map String.toList ++ [[]]).map fun line =>
      trim (String.ofList line)) = lines ++ [""] := by
    rw [map_append, List.map_map]
    refine congrArg₂ (· ++ ·) ?_ ?_
    · refine (map_congr_left fun line hline => ?_).trans (map_id lines)
      rw [Function.comp_apply, String.ofList_toList, (hlines line hline).trim_eq, id]
    · rfl
  have hfilter : (lines ++ [""]).filter (fun line => decide (line ≠ "")) = lines := by
    rw [filter_append, filter_eq_self.mpr fun line hline =>
      decide_eq_true (hlines line hline).ne_empty]
    simp
  rw [splitReplayLines, hparts, htrimmed, hfilter, if_neg hne]

end IdleEngine
