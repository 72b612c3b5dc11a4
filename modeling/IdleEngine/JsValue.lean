import IdleEngine.Lib.OrderedMap
import IdleEngine.Number

/-!
# The values that cross the engine's boundary

Commands, saves and snapshots are handed to the engine as unchecked values. `JsValue` keeps what
the checks of the source can see: the type tag, the elements of an array, the own fields of an
object in order, and whether the object is a plain one. Values are trees, so a value that contains
itself is left out.

`jsonTransport` is `JSON.parse` after `JSON.stringify`. It is the identity on the values of JSON
(`JsValue.IsJson.transport`), drops the fields that JSON cannot write and turns a number that is
not finite into `null`.
-/

namespace IdleEngine

/-- What an object is, besides its fields. -/
inductive ObjectKind
  | plain
  | symbolKeys
  | classInstance
  deriving DecidableEq, Repr

/-- An unchecked value. A `foreign` value is a function, a symbol or a big integer. -/
inductive JsValue
  | undefined
  | null
  | bool (value : Bool)
  | number (value : JsNumber)
  | string (value : String)
  | array (elements : List JsValue)
  | object (kind : ObjectKind) (fields : List (String × JsValue))
  | foreign (typeName : String)

namespace JsValue

/-- `typeof`. -/
def typeof : JsValue → String
  | undefined => "undefined"
  | null => "object"
  | bool _ => "boolean"
  | number _ => "number"
  | string _ => "string"
  | array _ => "object"
  | object _ _ => "object"
  | foreign typeName => typeName

/-- The own enumerable fields of a value; those of an array are its positions. -/
def fields : JsValue → List (String × JsValue)
  | object _ fields => fields
  | array elements => elements.zipIdx.map fun (element, i) => (toString i, element)
  | _ => []

/-- Read a property; a missing one is undefined. -/
def get (value : JsValue) (key : String) : JsValue :=
  (OrderedMap.find key value.fields).getD undefined

/-- `key in value`. -/
def has (value : JsValue) (key : String) : Bool := (OrderedMap.find key value.fields).isSome

/-- The number, of a number. -/
def number? : JsValue → Option JsNumber
  | number value => some value
  | _ => none

/-- The string, of a string. -/
def string? : JsValue → Option String
  | string value => some value
  | _ => none

/-- The elements, of an array. -/
def array? : JsValue → Option (List JsValue)
  | array elements => some elements
  | _ => none

/-- The finite number, of a finite number. -/
def finite? (value : JsValue) : Option ℚ := value.number?.bind JsNumber.finite?

/-- The value is an object or an array: `typeof value === 'object' && value !== null`. -/
def isRecord : JsValue → Bool
  | object _ _ => true
  | array _ => true
  | _ => false

/-- A plain object. -/
def record (fields : List (String × JsValue)) : JsValue := object .plain fields

@[simp]
theorem fields_record (fields : List (String × JsValue)) : (record fields).fields = fields := rfl

/-! ### Writing values as JSON -/

mutual

/-- `JSON.parse(JSON.stringify(value))`; nothing when there is no text for the value. -/
def jsonTransport : JsValue → Except String (Option JsValue)
  | undefined => .ok none
  | null => .ok (some null)
  | bool value => .ok (some (bool value))
  | number value =>
      match value.finite? with
      | none => .ok (some null)
      | some value => .ok (some (number (.fin value)))
  | string value => .ok (some (string value))
  | array elements =>
      match transportElements elements with
      | .error message => .error message
      | .ok elements => .ok (some (array elements))
  | object _ fields =>
      match transportFields fields with
      | .error message => .error message
      | .ok fields => .ok (some (object .plain fields))
  | foreign typeName =>
      if typeName = "bigint" then .error "Do not know how to serialize a BigInt" else .ok none

/-- The elements of an array; an element without a text is written as `null`. -/
def transportElements : List JsValue → Except String (List JsValue)
  | [] => .ok []
  | element :: rest =>
      match jsonTransport element, transportElements rest with
      | .error message, _ => .error message
      | _, .error message => .error message
      | .ok element, .ok rest => .ok (element.getD null :: rest)

/-- The fields of an object; a field without a text is left out. -/
def transportFields : List (String × JsValue) → Except String (List (String × JsValue))
  | [] => .ok []
  | (key, entry) :: rest =>
      match jsonTransport entry, transportFields rest with
      | .error message, _ => .error message
      | _, .error message => .error message
      | .ok none, .ok rest => .ok rest
      | .ok (some entry), .ok rest => .ok ((key, entry) :: rest)

end

/-- The values of JSON, over the field names that `allowed` admits: finite numbers, and plain
objects with distinct field names. -/
inductive Json (allowed : String → Prop) : JsValue → Prop
  | null : Json allowed null
  | bool (value : Bool) : Json allowed (bool value)
  | number (value : ℚ) : Json allowed (number (.fin value))
  | string (value : String) : Json allowed (string value)
  | array {elements : List JsValue} (helements : ∀ element ∈ elements, Json allowed element) :
      Json allowed (array elements)
  | object {fields : List (String × JsValue)} (hnodup : (fields.map Prod.fst).Nodup)
      (hkeys : ∀ field ∈ fields, allowed field.1) (hfields : ∀ field ∈ fields, Json allowed field.2) :
      Json allowed (object .plain fields)

/-- The values of JSON. -/
abbrev IsJson : JsValue → Prop := Json fun _ => True

theorem Json.mono {allowed allowed' : String → Prop} (h : ∀ key, allowed key → allowed' key)
    {value : JsValue} (hjson : Json allowed value) : Json allowed' value := by
  induction hjson with
  | null => exact .null
  | bool value => exact .bool value
  | number value => exact .number value
  | string value => exact .string value
  | array _ ih => exact .array ih
  | object hnodup hkeys _ ih => exact .object hnodup (fun field hfield => h _ (hkeys field hfield)) ih

theorem Json.isJson {allowed : String → Prop} {value : JsValue} (hjson : Json allowed value) :
    IsJson value :=
  hjson.mono fun _ _ => trivial

theorem transportElements_self {elements : List JsValue}
    (h : ∀ element ∈ elements, jsonTransport element = .ok (some element)) :
    transportElements elements = .ok elements := by
  induction elements with
  | nil => simp [transportElements]
  | cons element rest ih =>
    have hhead := h element (by simp)
    have htail := ih fun e he => h e (List.mem_cons_of_mem _ he)
    simp [transportElements, hhead, htail]

theorem transportFields_self {fields : List (String × JsValue)}
    (h : ∀ field ∈ fields, jsonTransport field.2 = .ok (some field.2)) :
    transportFields fields = .ok fields := by
  induction fields with
  | nil => simp [transportFields]
  | cons field rest ih =>
    obtain ⟨key, entry⟩ := field
    have hhead : jsonTransport entry = .ok (some entry) := h (key, entry) (by simp)
    have htail := ih fun e he => h e (List.mem_cons_of_mem _ he)
    simp [transportFields, hhead, htail]

theorem transportFields_cons {key : String} {entry entry' : JsValue}
    {rest rest' : List (String × JsValue)} (hentry : jsonTransport entry = .ok (some entry'))
    (hrest : transportFields rest = .ok rest') :
    transportFields ((key, entry) :: rest) = .ok ((key, entry') :: rest') := by
  rw [transportFields, hentry, hrest]

theorem transport_record {fields fields' : List (String × JsValue)}
    (h : transportFields fields = .ok fields') :
    jsonTransport (record fields) = .ok (some (record fields')) := by
  rw [record, jsonTransport, h]
  rfl

/-- **JSON carries its own values.** Writing a value of JSON and reading it back changes nothing. -/
theorem Json.transport {allowed : String → Prop} {value : JsValue} (hjson : Json allowed value) :
    jsonTransport value = .ok (some value) := by
  induction hjson with
  | null => simp [jsonTransport]
  | bool value => simp [jsonTransport]
  | number value => simp [jsonTransport, JsNumber.finite?]
  | string value => simp [jsonTransport]
  | array _ ih => simp [jsonTransport, transportElements_self ih]
  | object _ _ _ ih => simp [jsonTransport, transportFields_self ih]

end JsValue

/-! ### Text -/

/-- The characters that `trim` removes. -/
def isTrimmed (c : Char) : Bool :=
  let code := c.toNat
  (9 ≤ code && code ≤ 13) || code == 0x20 || code == 0xa0 || code == 0x1680 ||
    (0x2000 ≤ code && code ≤ 0x200a) || code == 0x2028 || code == 0x2029 || code == 0x202f ||
    code == 0x205f || code == 0x3000 || code == 0xfeff

/-- `trim`. -/
def trim (value : String) : String :=
  String.ofList ((value.toList.dropWhile isTrimmed).reverse.dropWhile isTrimmed).reverse

/-- `isNonBlankString`. -/
def isNonBlankString (value : String) : Bool := value.toList.any fun c => !isTrimmed c

end IdleEngine
