import IdleEngine.Command.Delivery
import IdleEngine.JsValue

/-!
# Saving and restoring the command queue

`exportForSave` writes the queued commands lane after lane, without their sequence numbers;
`restoreFromSave` reads them back through the checks of `normalizeSerializedCommandEntry` and queues
them again, so every command gets a new sequence number and passes authorization and the overflow
policy once more. A payload is cloned on both ways by `cloneJsonValue`, which accepts what JSON can
carry.
-/

namespace IdleEngine

open JsValue Except

/-! ### Cloning payloads -/

/-- `result[key] = value`. Assigning to `__proto__` calls the setter of that name, which leaves no
own field behind. -/
def assignField (result : List (String × JsValue)) (key : String) (value : JsValue) :
    List (String × JsValue) :=
  if key = "__proto__" then result else OrderedMap.setEntries key value result

mutual

/-- `cloneJsonValueInner`. -/
def cloneJsonValueInner : JsValue → Except String JsValue
  | null => .ok null
  | string value => .ok (string value)
  | .bool value => .ok (.bool value)
  | number value =>
      match value.finite? with
      | none => .error "Command payload contains non-finite number"
      | some _ => .ok (number value)
  | array elements =>
      match cloneElements elements with
      | .error message => .error message
      | .ok cloned => .ok (array cloned)
  | object .classInstance _ => .error "Command payload must be a plain JSON object"
  | object .symbolKeys _ => .error "Command payload contains symbol keys"
  | object .plain fields =>
      match cloneFields [] fields with
      | .error message => .error message
      | .ok result => .ok (object .plain result)
  | undefined => .error "Command payload contains unsupported JSON type: undefined"
  | foreign typeName => .error ("Command payload contains unsupported JSON type: " ++ typeName)

/-- The elements of an array, cloned one after the other. -/
def cloneElements : List JsValue → Except String (List JsValue)
  | [] => .ok []
  | element :: rest =>
      match cloneJsonValueInner element with
      | .error message => .error message
      | .ok cloned =>
          match cloneElements rest with
          | .error message => .error message
          | .ok rest => .ok (cloned :: rest)

/-- The fields of an object, cloned and assigned one after the other. -/
def cloneFields (result : List (String × JsValue)) :
    List (String × JsValue) → Except String (List (String × JsValue))
  | [] => .ok result
  | (_, undefined) :: _ => .error "Command payload contains undefined value"
  | (key, entry) :: rest =>
      match cloneJsonValueInner entry with
      | .error message => .error message
      | .ok cloned => cloneFields (assignField result key cloned) rest

end

/-- `cloneJsonValue`. -/
def cloneJsonValue (value : JsValue) : Except String JsValue := cloneJsonValueInner value

/-! ### What a clone is -/

theorem cloneElements_self {elements : List JsValue}
    (h : ∀ element ∈ elements, cloneJsonValueInner element = .ok element) :
    cloneElements elements = .ok elements := by
  induction elements with
  | nil => simp [cloneElements]
  | cons element rest ih =>
    have hhead := h element (by simp)
    have htail := ih fun e he => h e (List.mem_cons_of_mem _ he)
    simp [cloneElements, hhead, htail]

/-- Fields with distinct ordinary names are cloned behind the fields assigned so far. -/
theorem cloneFields_self {fields : List (String × JsValue)} :
    ∀ result : List (String × JsValue), ((result ++ fields).map Prod.fst).Nodup →
      (∀ field ∈ fields, field.1 ≠ "__proto__") →
      (∀ field ∈ fields, cloneJsonValueInner field.2 = .ok field.2) →
      cloneFields result fields = .ok (result ++ fields) := by
  induction fields with
  | nil =>
    intro result _ _ _
    simp [cloneFields]
  | cons field rest ih =>
    intro result hnodup hkeys hclone
    obtain ⟨key, entry⟩ := field
    have hentry : cloneJsonValueInner entry = .ok entry := hclone (key, entry) (by simp)
    have hkey : key ≠ "__proto__" := hkeys (key, entry) (by simp)
    -- the name is new, so the assignment appends the field
    have hnew : key ∉ result.map Prod.fst := by
      intro hmem
      rw [List.map_append, List.nodup_append] at hnodup
      exact hnodup.2.2 key hmem key (by simp) rfl
    have hassign : assignField result key entry = result ++ [(key, entry)] := by
      rw [assignField, if_neg hkey, OrderedMap.setEntries_of_notMem hnew]
    have hrest := ih (result ++ [(key, entry)]) (by simpa using hnodup)
      (fun f hf => hkeys f (List.mem_cons_of_mem _ hf))
      fun f hf => hclone f (List.mem_cons_of_mem _ hf)
    -- an undefined entry has no clone
    cases entry with
    | undefined => simp [cloneJsonValueInner] at hentry
    | _ =>
      simp only [cloneFields, hentry, hassign, hrest]
      simp

/-- **A clone of a JSON value is that value**, unless a field is named `__proto__`. -/
theorem JsValue.Json.clone {value : JsValue} (hjson : Json (· ≠ "__proto__") value) :
    cloneJsonValue value = .ok value := by
  rw [cloneJsonValue]
  induction hjson with
  | null => simp [cloneJsonValueInner]
  | bool value => simp [cloneJsonValueInner]
  | number value => simp [cloneJsonValueInner, JsNumber.finite?]
  | string value => simp [cloneJsonValueInner]
  | array _ ih => simp [cloneJsonValueInner, cloneElements_self ih]
  | object hnodup hkeys _ ih =>
    have hfields := cloneFields_self [] (by simpa using hnodup) hkeys ih
    simp [cloneJsonValueInner, hfields]

/-- Fields that make a JSON object without a field named `__proto__`. -/
structure JsonFields (fields : List (String × JsValue)) : Prop where
  nodup : (fields.map Prod.fst).Nodup
  keys : ∀ field ∈ fields, field.1 ≠ "__proto__"
  values : ∀ field ∈ fields, Json (· ≠ "__proto__") field.2

theorem JsonFields.assignField {result : List (String × JsValue)} (h : JsonFields result)
    (key : String) {value : JsValue} (hvalue : Json (· ≠ "__proto__") value) :
    JsonFields (assignField result key value) := by
  rw [IdleEngine.assignField]
  split
  · exact h
  · next hkey =>
    refine ⟨((OrderedMap.mk result h.nodup).set key value).nodup, ?_,
      OrderedMap.forall_setEntries hvalue h.values⟩
    intro field hfield
    have hmem : field.1 ∈ (OrderedMap.setEntries key value result).map Prod.fst :=
      List.mem_map_of_mem hfield
    rw [OrderedMap.keys_setEntries] at hmem
    have hold : ∀ name ∈ result.map Prod.fst, name ≠ "__proto__" := by
      intro name hname
      obtain ⟨old, hold, rfl⟩ := List.mem_map.mp hname
      exact h.keys old hold
    split at hmem
    · exact hold _ hmem
    · rcases List.mem_append.mp hmem with hmem | hmem
      · exact hold _ hmem
      · rw [List.mem_singleton.mp hmem]
        exact hkey

mutual

/-- **Every clone is a JSON value**, without a field named `__proto__`. -/
theorem cloneJsonValueInner_json : ∀ {value cloned : JsValue},
    cloneJsonValueInner value = .ok cloned → Json (· ≠ "__proto__") cloned
  | .null, cloned, h => by
    simp only [cloneJsonValueInner, ok.injEq] at h
    exact h ▸ .null
  | .bool value, cloned, h => by
    simp only [cloneJsonValueInner, ok.injEq] at h
    exact h ▸ .bool value
  | .string value, cloned, h => by
    simp only [cloneJsonValueInner, ok.injEq] at h
    exact h ▸ .string value
  | .number value, cloned, h => by
    cases value with
    | fin value =>
      simp only [cloneJsonValueInner, JsNumber.finite?, ok.injEq] at h
      exact h ▸ .number value
    | _ => simp [cloneJsonValueInner, JsNumber.finite?] at h
  | .undefined, cloned, h => by simp [cloneJsonValueInner] at h
  | .foreign _, cloned, h => by simp [cloneJsonValueInner] at h
  | .array elements, cloned, h => by
    rw [cloneJsonValueInner] at h
    split at h
    · cases h
    · next out hout =>
      obtain rfl := ok.inj h
      exact .array (cloneElements_json hout)
  | .object .classInstance _, cloned, h => by simp [cloneJsonValueInner] at h
  | .object .symbolKeys _, cloned, h => by simp [cloneJsonValueInner] at h
  | .object .plain fields, cloned, h => by
    rw [cloneJsonValueInner] at h
    split at h
    · cases h
    · next out hout =>
      obtain rfl := ok.inj h
      have hnone : JsonFields [] := ⟨by simp, by simp, by simp⟩
      have hfields : JsonFields out := cloneFields_json hnone hout
      exact .object hfields.nodup hfields.keys hfields.values

theorem cloneElements_json : ∀ {elements cloned : List JsValue},
    cloneElements elements = .ok cloned → ∀ element ∈ cloned, Json (· ≠ "__proto__") element
  | [], cloned, h => by
    simp only [cloneElements, ok.injEq] at h
    simp [← h]
  | element :: rest, cloned, h => by
    rw [cloneElements] at h
    split at h
    · cases h
    · next head hhead =>
      split at h
      · cases h
      · next tail htail =>
        obtain rfl := ok.inj h
        exact List.forall_mem_cons.mpr
          ⟨cloneJsonValueInner_json hhead, cloneElements_json htail⟩

theorem cloneFields_json : ∀ {fields result cloned : List (String × JsValue)},
    JsonFields result → cloneFields result fields = .ok cloned → JsonFields cloned
  | [], result, cloned, hresult, h => by
    simp only [cloneFields, ok.injEq] at h
    exact h ▸ hresult
  | (key, entry) :: rest, result, cloned, hresult, h => by
    cases entry with
    | undefined => simp [cloneFields] at h
    | _ =>
      rw [cloneFields] at h
      · split at h
        · cases h
        · next head hhead =>
          exact cloneFields_json
            (hresult.assignField key (cloneJsonValueInner_json hhead)) h
      · exact nofun

end

theorem cloneJsonValueInner_isJson {value cloned : JsValue}
    (h : cloneJsonValueInner value = .ok cloned) : IsJson cloned :=
  (cloneJsonValueInner_json h).isJson

/-! ### Export -/

/-- A timestamp as a number. -/
def Timestamp.toJs : Timestamp → JsNumber
  | none => .negInf
  | some none => .posInf
  | some (some value) => .fin value

/-- `COMMAND_QUEUE_SAVE_SCHEMA_VERSION`. -/
def commandQueueSaveSchemaVersion : ℚ := 1

/-- The save entry of a command with a cloned payload. -/
def serializedEntry (command : Command JsValue) (timestamp step payload : JsValue) : JsValue :=
  record [("type", string command.type), ("priority", number (.fin command.priority.toNat)),
    ("timestamp", timestamp), ("step", step), ("payload", payload)]

/-- The save of some entries. -/
def serializedQueue (entries : List JsValue) : JsValue :=
  record [("schemaVersion", number (.fin commandQueueSaveSchemaVersion)), ("entries", array entries)]

/-- The save entry of a queued command; a command whose payload cannot be cloned is skipped. -/
def exportEntry (command : Command JsValue) : Option JsValue :=
  match cloneJsonValue command.payload with
  | .error _ => none
  | .ok payload =>
      some (serializedEntry command (number command.timestamp.toJs) (number command.step) payload)

/-- `exportForSave`. -/
def CommandQueue.exportForSave (q : CommandQueue JsValue) : JsValue :=
  if q.totalSize = 0 then serializedQueue []
  else
    serializedQueue (commandPriorityOrder.flatMap fun priority =>
      (q.lanes priority).filterMap fun entry => exportEntry entry.command)

/-! ### Restore -/

/-- `options.rebaseStep`. -/
structure RebaseStep where
  savedStep : JsNumber
  currentStep : JsNumber

/-- `RestoreCommandQueueOptions`. -/
structure RestoreCommandQueueOptions where
  isCommandTypeSupported : Option (String → Bool)
  rebaseStep : Option RebaseStep

/-- A restore without options. -/
def RestoreCommandQueueOptions.default : RestoreCommandQueueOptions :=
  { isCommandTypeSupported := none, rebaseStep := none }

namespace RestoreCommandQueueOptions

/-- A saved step, shifted when both ends of the rebase are finite. -/
def rebased (options : RestoreCommandQueueOptions) (step : ℚ) : ℚ :=
  match options.rebaseStep with
  | none => step
  | some rebase =>
      match rebase.savedStep.finite?, rebase.currentStep.finite? with
      | some savedStep, some currentStep => max 0 (step + (currentStep - savedStep))
      | _, _ => step

/-- Whether commands of a type are restored. -/
def supports (options : RestoreCommandQueueOptions) (type : String) : Bool :=
  match options.isCommandTypeSupported with
  | none => true
  | some isCommandTypeSupported => isCommandTypeSupported type

end RestoreCommandQueueOptions

/-- The lane of a numeric priority. -/
def CommandPriority.ofNumber? (value : ℚ) : Option CommandPriority :=
  commandPriorityOrder.find? fun priority => decide (value = priority.toNat)

theorem CommandPriority.ofNumber?_toNat (priority : CommandPriority) :
    CommandPriority.ofNumber? priority.toNat = some priority := by
  cases priority <;> rfl

/-- `normalizeSerializedCommandEntry`: a value that is no object has no type. -/
def normalizeSerializedCommandEntry (options : RestoreCommandQueueOptions) (entry : JsValue) :
    Option (Command JsValue) := do
  let type ← (entry.get "type").string?
  guard (isNonBlankString type = true)
  let priority ← (entry.get "priority").finite?.bind CommandPriority.ofNumber?
  let timestamp ← (entry.get "timestamp").finite?
  let step ← (entry.get "step").finite?
  guard (step.den = 1 ∧ 0 ≤ step)
  let normalizedPayload ← (cloneJsonValue (entry.get "payload")).toOption
  return { type, priority, payload := normalizedPayload, timestamp := ((timestamp : WithTop ℚ) : Timestamp),
           step := .fin (options.rebased step), requestId := none }

namespace CommandQueue

/-- Queue saved entries again, counting those that made the queue longer. -/
def restoreEntries (cloneStructured : JsValue → Except String JsValue)
    (options : RestoreCommandQueueOptions) :
    List JsValue → ℕ → ℕ → CommandQueue JsValue → Except String (ℕ × ℕ) × CommandQueue JsValue
  | [], restored, skipped, q => (.ok (restored, skipped), q)
  | entry :: entries, restored, skipped, q =>
      match normalizeSerializedCommandEntry options entry with
      | none => restoreEntries cloneStructured options entries restored (skipped + 1) q
      | some command =>
          if options.supports command.type = false then
            restoreEntries cloneStructured options entries restored (skipped + 1) q
          else
            match q.enqueue cloneStructured command with
            | (.error message, q) => (.error message, q)
            | (.ok _, r) =>
                if q.totalSize < r.totalSize then
                  restoreEntries cloneStructured options entries (restored + 1) skipped r
                else restoreEntries cloneStructured options entries restored (skipped + 1) r

/-- `restoreFromSave`: a save of another schema, and no save at all, leave an empty queue. -/
def restoreFromSave (cloneStructured : JsValue → Except String JsValue) (q : CommandQueue JsValue)
    (serialized : JsValue) (options : RestoreCommandQueueOptions) :
    Except String (ℕ × ℕ) × CommandQueue JsValue :=
  if (serialized.get "schemaVersion").number? = some (.fin commandQueueSaveSchemaVersion) then
    restoreEntries cloneStructured options ((serialized.get "entries").array?.getD []) 0 0 q.clear
  else (.ok (0, 0), q.clear)

end CommandQueue

end IdleEngine
