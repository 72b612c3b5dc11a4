import IdleEngine.Command.Recorder
import IdleEngine.JsValue
import IdleEngine.Lib.FirstFit
import IdleEngine.Lib.JsonTree

/-!
# Commands that handlers queue in a replay

In a replay the commands that handlers queue are not executed: each of them has to stand further
back in the log, where it claims the first equal command that no other one has claimed. Payloads are
compared by `payloadsMatch`, by the own keys of objects and the elements of arrays. Two payloads
that are trees match when they have the same leaves at the same paths (`payloadsMatch_iff`), so what
equals a command equals whatever else equals it, and taking the first equal command is never worse
than any other choice (`replayLoop_ok_iff`).

The log and the handlers are those of `IdleEngine.Command.Recorder`, where payloads are of any type
with a decidable equality. Shared references, maps, sets, dates and byte arrays in payloads are left
out.
-/

namespace IdleEngine

open OrderedMap List Option

/-! ### Equal payloads -/

namespace JsValue

/-- The own properties of a value; an array has its length among them. -/
def ownProperties : JsValue → List (String × JsValue)
  | array elements => (array elements).fields ++ [("length", number (.fin elements.length))]
  | value => value.fields

/-- `Object.is` or `===`, for values that are not objects. -/
def sameLeaf : JsValue → JsValue → Bool
  | undefined, undefined => true
  | null, null => true
  | bool a, bool b => a = b
  | number a, number b => a = b
  | string a, string b => a = b
  | _, _ => false

mutual

def payloadsMatch : JsValue → JsValue → Bool
  | array elements, right =>
      match right with
      | array others => elements.length == others.length && elementsMatch elements others
      | _ => right.isRecord &&
          (array elements).ownProperties.length == right.ownProperties.length &&
          positionsMatch 0 elements right &&
          (find "length" right.ownProperties).any fun other =>
            sameLeaf (number (.fin elements.length)) other
  | object _ fields, right =>
      right.isRecord && fields.length == right.ownProperties.length && propertiesMatch fields right
  | left, right => sameLeaf left right

/-- The elements of two arrays. -/
def elementsMatch : List JsValue → List JsValue → Bool
  | element :: rest, other :: others => payloadsMatch element other && elementsMatch rest others
  | _, _ => true

/-- The positions of an array, against an object. -/
def positionsMatch : ℕ → List JsValue → JsValue → Bool
  | _, [], _ => true
  | position, element :: rest, right =>
      (find (toString position) right.ownProperties).any (payloadsMatch element ·) &&
        positionsMatch (position + 1) rest right

/-- The properties of an object, against an object or an array. -/
def propertiesMatch : List (String × JsValue) → JsValue → Bool
  | [], _ => true
  | (key, value) :: rest, right =>
      (find key right.ownProperties).any (payloadsMatch value ·) && propertiesMatch rest right

end

/-- What stands at the end of a path: a value that is no object, or the mark of an object. -/
def leafAt : JsValue → List String → Option JsValue
  | value, [] => some (if value.isRecord then record [] else value)
  | value, key :: path => (find key value.ownProperties).bind (·.leafAt path)

theorem leafAt_nil (value : JsValue) :
    value.leafAt [] = some (if value.isRecord then record [] else value) := rfl

theorem leafAt_cons (value : JsValue) (key : String) (path : List String) :
    value.leafAt (key :: path) = (find key value.ownProperties).bind (·.leafAt path) := rfl

/-! ### The own properties of an array -/

theorem position_injective : Function.Injective (toString : ℕ → String) := by
  intro m n h
  have hdigits := congrArg String.toList h
  simp only [Nat.toString_eq_repr, Nat.toList_repr] at hdigits
  exact JsonText.digits_injective hdigits

theorem position_ne_length (position : ℕ) : toString position ≠ "length" := by
  intro h
  have hdigit := JsonText.isDigit_of_mem_digits (n := position) (c := 'l') (by
    rw [← Nat.toList_repr, ← Nat.toString_eq_repr, h]
    decide)
  exact absurd hdigit (by decide)

variable {elements : List JsValue} {key : String} {value : JsValue}

theorem mem_fields_array :
    (key, value) ∈ (array elements).fields ↔
      ∃ position : ℕ, elements[position]? = some value ∧ key = toString position := by
  simp only [fields, List.mem_map, Prod.exists, mk_mem_zipIdx_iff_getElem?, Prod.mk.injEq]
  constructor
  · rintro ⟨element, position, helement, rfl, rfl⟩
    exact ⟨position, helement, rfl⟩
  · rintro ⟨position, helement, rfl⟩
    exact ⟨value, position, helement, rfl, rfl⟩

theorem mem_ownProperties_array :
    (key, value) ∈ (array elements).ownProperties ↔
      (∃ position : ℕ, elements[position]? = some value ∧ key = toString position) ∨
        (key = "length" ∧ value = number (.fin elements.length)) := by
  rw [ownProperties, mem_append, mem_fields_array, mem_singleton, Prod.mk.injEq]

theorem nodup_keys_array (elements : List JsValue) :
    ((array elements).ownProperties.map Prod.fst).Nodup := by
  have hkeys : (array elements).fields.map Prod.fst =
      (range elements.length).map fun position => toString position :=
    ext_getElem (by simp [fields]) fun i h₁ h₂ => by simp [fields]
  rw [ownProperties, map_append, hkeys, nodup_append']
  refine ⟨nodup_range.map position_injective, nodup_singleton _, ?_⟩
  intro key hkey hlength
  obtain ⟨position, -, rfl⟩ := mem_map.mp hkey
  exact position_ne_length position (by simpa using hlength)

theorem IsJson.nodup_keys (hjson : IsJson value) :
    (value.ownProperties.map Prod.fst).Nodup := by
  cases hjson with
  | array _ => exact nodup_keys_array _
  | object hnodup _ _ => exact hnodup
  | _ => exact nodup_nil

variable {other : JsValue}

theorem IsJson.find_iff (hjson : IsJson value) :
    find key value.ownProperties = some other ↔ (key, other) ∈ value.ownProperties :=
  get?_eq_some_iff (m := ⟨value.ownProperties, hjson.nodup_keys⟩)

theorem IsJson.of_mem (hjson : IsJson value) (hmem : (key, other) ∈ value.ownProperties) :
    IsJson other := by
  cases hjson with
  | array helements =>
    obtain ⟨position, hother, -⟩ | ⟨-, rfl⟩ := mem_ownProperties_array.mp hmem
    · exact helements other (mem_of_getElem? hother)
    · exact .number _
  | object _ _ hfields => exact hfields (key, other) hmem
  | _ => cases hmem

/-! ### Matching by keys -/

theorem elementsMatch_iff {others : List JsValue} (hlength : elements.length = others.length) :
    elementsMatch elements others = true ↔
      ∀ (position : ℕ) value, elements[position]? = some value →
        ∃ other, others[position]? = some other ∧ payloadsMatch value other = true := by
  induction elements generalizing others with
  | nil => simp [elementsMatch]
  | cons element rest ih =>
    obtain _ | ⟨other, others⟩ := others
    · cases hlength
    · rw [elementsMatch, Bool.and_eq_true, ih (Nat.succ.inj hlength)]
      constructor
      · rintro ⟨hfirst, hrest⟩ (_ | position) value hvalue
        · obtain rfl : element = value := some.inj hvalue
          exact ⟨other, rfl, hfirst⟩
        · exact hrest position value hvalue
      · intro h
        obtain ⟨_, hother, hfirst⟩ := h 0 element rfl
        cases hother
        exact ⟨hfirst, fun position => h (position + 1)⟩

variable {right : JsValue}

theorem positionsMatch_iff {start : ℕ} :
    positionsMatch start elements right = true ↔
      ∀ position value, elements[position]? = some value →
        ∃ other, find (toString (start + position)) right.ownProperties = some other ∧
          payloadsMatch value other = true := by
  induction elements generalizing start with
  | nil => simp [positionsMatch]
  | cons element rest ih =>
    rw [positionsMatch, Bool.and_eq_true, ih, Option.any_eq_true]
    constructor
    · rintro ⟨hfirst, hrest⟩ (_ | position) value hvalue
      · obtain rfl : element = value := some.inj hvalue
        exact hfirst
      · have hother := hrest position value hvalue
        rwa [Nat.add_right_comm] at hother
    · intro h
      refine ⟨h 0 element rfl, fun position value hvalue => ?_⟩
      rw [Nat.add_right_comm]
      exact h (position + 1) value hvalue

theorem propertiesMatch_iff {properties : List (String × JsValue)} :
    propertiesMatch properties right = true ↔
      ∀ key value, (key, value) ∈ properties →
        ∃ other, find key right.ownProperties = some other ∧ payloadsMatch value other = true := by
  induction properties with
  | nil => simp [propertiesMatch]
  | cons property rest ih =>
    obtain ⟨key, value⟩ := property
    rw [propertiesMatch, Bool.and_eq_true, ih, Option.any_eq_true]
    constructor
    · rintro ⟨hfirst, hrest⟩ key' value' hmem
      rcases mem_cons.mp hmem with heq | hmem
      · cases heq
        exact hfirst
      · exact hrest key' value' hmem
    · intro h
      exact ⟨h key value (by simp),
        fun key' value' hmem => h key' value' (mem_cons_of_mem _ hmem)⟩

variable {left : JsValue}

theorem payloadsMatch_of_not_isRecord (h : left.isRecord = false) (right : JsValue) :
    payloadsMatch left right = sameLeaf left right := by
  cases left <;> first | (simp [payloadsMatch]; done) | cases h

/-- Objects and arrays match by their own keys. -/
theorem payloadsMatch_record_iff (hright : IsJson right) (hrecord : left.isRecord = true) :
    payloadsMatch left right = true ↔
      right.isRecord = true ∧ left.ownProperties.length = right.ownProperties.length ∧
        ∀ key value, (key, value) ∈ left.ownProperties →
          ∃ other, (key, other) ∈ right.ownProperties ∧ payloadsMatch value other = true := by
  have hlengths (n : ℕ) (other : JsValue) : payloadsMatch (number (.fin n)) other =
      sameLeaf (number (.fin n)) other := payloadsMatch_of_not_isRecord rfl other
  cases left with
  | object kind properties =>
    rw [payloadsMatch, Bool.and_eq_true, Bool.and_eq_true, beq_iff_eq, propertiesMatch_iff,
      and_assoc]
    simp only [hright.find_iff]
    rfl
  | array elements =>
    -- the own keys of an array are its positions and its length
    have hkeys : (∀ key value, (key, value) ∈ (array elements).ownProperties →
        ∃ other, (key, other) ∈ right.ownProperties ∧ payloadsMatch value other = true) ↔
        (∀ (position : ℕ) value, elements[position]? = some value →
          ∃ other, (toString position, other) ∈ right.ownProperties ∧
            payloadsMatch value other = true) ∧
        ∃ other, ("length", other) ∈ right.ownProperties ∧
          sameLeaf (number (.fin elements.length)) other = true := by
      simp only [mem_ownProperties_array, ← hlengths]
      constructor
      · intro h
        exact ⟨fun position value hvalue => h _ value (.inl ⟨position, hvalue, rfl⟩),
          h _ _ (.inr ⟨rfl, rfl⟩)⟩
      · rintro ⟨hpositions, hlength⟩ key value (⟨position, hvalue, rfl⟩ | ⟨rfl, rfl⟩)
        · exact hpositions position value hvalue
        · exact hlength
    rw [hkeys]
    cases right with
    | array others =>
      rw [payloadsMatch, Bool.and_eq_true, beq_iff_eq]
      constructor
      · rintro ⟨hlength, helements⟩
        refine ⟨rfl, by simp [ownProperties, fields, hlength], fun position value hvalue => ?_, ?_⟩
        · obtain ⟨other, hother, hmatch⟩ :=
            (elementsMatch_iff hlength).mp helements position value hvalue
          exact ⟨other, mem_ownProperties_array.mpr (.inl ⟨position, hother, rfl⟩), hmatch⟩
        · exact ⟨_, mem_ownProperties_array.mpr (.inr ⟨rfl, rfl⟩), by simp [sameLeaf, hlength]⟩
      · rintro ⟨-, hlength, hpositions, -⟩
        have hlength : elements.length = others.length := by
          simpa [ownProperties, fields] using hlength
        refine ⟨hlength, (elementsMatch_iff hlength).mpr fun position value hvalue => ?_⟩
        obtain ⟨other, hother, hmatch⟩ := hpositions position value hvalue
        obtain ⟨position', hother, hsame⟩ | ⟨hsame, -⟩ := mem_ownProperties_array.mp hother
        · cases position_injective hsame
          exact ⟨other, hother, hmatch⟩
        · exact absurd hsame (position_ne_length position)
    | _ =>
      simp only [payloadsMatch, Bool.and_eq_true, beq_iff_eq, positionsMatch_iff, Nat.zero_add,
        Option.any_eq_true, hright.find_iff, and_assoc]
  | _ => cases hrecord

/-- Payloads match that have the same leaves at the same paths. -/
abbrev SameLeaves (left right : JsValue) : Prop := ∀ path, left.leafAt path = right.leafAt path

theorem IsJson.sameLeaf_iff (hleft : IsJson left) (hrecord : left.isRecord = false) :
    sameLeaf left right = true ↔ left = right := by
  cases hleft with
  | array _ => cases hrecord
  | object _ _ _ => cases hrecord
  | _ => cases right <;> simp [sameLeaf]

theorem leaf_match_iff (hleft : IsJson left) (hrecord : left.isRecord = false) :
    payloadsMatch left right = true ↔ SameLeaves left right := by
  rw [payloadsMatch_of_not_isRecord hrecord, hleft.sameLeaf_iff hrecord]
  constructor
  · rintro rfl path
    rfl
  · intro h
    have hroot := h []
    rw [leafAt_nil, leafAt_nil, if_neg (by simp [hrecord]), some.injEq] at hroot
    split at hroot
    · rw [hroot] at hrecord
      cases hrecord
    · exact hroot

theorem IsJson.leafAt_of_mem (hjson : IsJson value) (hmem : (key, other) ∈ value.ownProperties)
    (path : List String) :
    value.leafAt (key :: path) = other.leafAt path := by
  rw [leafAt_cons, hjson.find_iff.mpr hmem, bind_some]

theorem IsJson.mem_keys_iff (hjson : IsJson value) :
    key ∈ value.ownProperties.map Prod.fst ↔ (value.leafAt [key]).isSome := by
  constructor
  · intro hmem
    obtain ⟨⟨_, other⟩, hother, rfl⟩ := mem_map.mp hmem
    rw [hjson.leafAt_of_mem hother, leafAt_nil, isSome_some]
  · intro hsome
    by_contra hmem
    rw [leafAt_cons, find_eq_none hmem] at hsome
    cases hsome

theorem record_match_iff (hleft : IsJson left) (hright : IsJson right)
    (hrecord : left.isRecord = true)
    (hkeys : ∀ key value, (key, value) ∈ left.ownProperties → ∀ other, IsJson other →
      (payloadsMatch value other = true ↔ SameLeaves value other)) :
    payloadsMatch left right = true ↔ SameLeaves left right := by
  rw [payloadsMatch_record_iff hright hrecord]
  constructor
  · rintro ⟨hrecord', hlength, hmatch⟩ (_ | ⟨key, path⟩)
    · rw [leafAt_nil, leafAt_nil, if_pos hrecord, if_pos hrecord']
    · by_cases hkey : key ∈ left.ownProperties.map Prod.fst
      · obtain ⟨⟨_, value⟩, hvalue, rfl⟩ := mem_map.mp hkey
        obtain ⟨other, hother, hmatch⟩ := hmatch _ value hvalue
        rw [hleft.leafAt_of_mem hvalue, hright.leafAt_of_mem hother]
        exact (hkeys _ value hvalue other (hright.of_mem hother)).mp hmatch path
      · -- as many keys, and all of the left among those of the right: they are the same
        have hsubset : left.ownProperties.map Prod.fst ⊆ right.ownProperties.map Prod.fst := by
          intro key hkey
          obtain ⟨⟨_, value⟩, hvalue, rfl⟩ := mem_map.mp hkey
          obtain ⟨other, hother, -⟩ := hmatch _ value hvalue
          exact mem_map.mpr ⟨_, hother, rfl⟩
        have hperm := (subperm_of_subset hleft.nodup_keys hsubset).perm_of_length_le
          (by simp [hlength])
        have hkey' : key ∉ right.ownProperties.map Prod.fst := fun h => hkey (hperm.mem_iff.mpr h)
        rw [leafAt_cons, leafAt_cons, find_eq_none hkey, find_eq_none hkey']
  · intro hsame
    refine ⟨?_, ?_, fun key value hvalue => ?_⟩
    · have hroot := hsame []
      rw [leafAt_nil, leafAt_nil, if_pos hrecord, some.injEq] at hroot
      by_contra hleaf
      rw [if_neg hleaf] at hroot
      exact hleaf (hroot ▸ rfl)
    · have hperm :=
        (perm_ext_iff_of_nodup hleft.nodup_keys hright.nodup_keys).mpr fun key => by
          rw [hleft.mem_keys_iff, hright.mem_keys_iff, hsame]
      simpa using hperm.length_eq
    · have hkey : key ∈ right.ownProperties.map Prod.fst := by
        rw [hright.mem_keys_iff, ← hsame, ← hleft.mem_keys_iff]
        exact mem_map.mpr ⟨_, hvalue, rfl⟩
      obtain ⟨⟨_, other⟩, hother, rfl⟩ := mem_map.mp hkey
      refine ⟨other, hother, (hkeys _ value hvalue other (hright.of_mem hother)).mpr fun path => ?_⟩
      rw [← hleft.leafAt_of_mem hvalue, ← hright.leafAt_of_mem hother, hsame]

/-- **Payloads match that have the same leaves at the same paths.** -/
theorem payloadsMatch_iff (hleft : IsJson left) (hright : IsJson right) :
    payloadsMatch left right = true ↔ SameLeaves left right := by
  induction hleft generalizing right with
  | array helements ih =>
    refine record_match_iff (.array helements) hright rfl fun key value hvalue other hother => ?_
    obtain ⟨position, hvalue, -⟩ | ⟨-, rfl⟩ := mem_ownProperties_array.mp hvalue
    · exact ih value (mem_of_getElem? hvalue) hother
    · exact leaf_match_iff (.number _) rfl
  | object hnodup hallowed hproperties ih =>
    exact record_match_iff (.object hnodup hallowed hproperties) hright rfl
      fun key value hvalue other hother => ih (key, value) hvalue hother
  | null => exact leaf_match_iff .null rfl
  | bool value => exact leaf_match_iff (.bool value) rfl
  | number value => exact leaf_match_iff (.number value) rfl
  | string value => exact leaf_match_iff (.string value) rfl

end JsValue

/-- `===` on numbers. -/
def JsNumber.strictEq (left right : JsNumber) : Bool := left.le right && right.le left

theorem JsNumber.strictEq_iff {left right : JsNumber} :
    left.strictEq right = true ↔ left = right ∧ left ≠ .nan := by
  cases left <;> cases right <;> simp [strictEq, le]
  exact le_antisymm_iff.symm

/-! ### The check of the replay -/

namespace Sandbox

open JsValue CommandRecorder

variable {EventPayload World : Type}

def commandsEqual (left right : Command JsValue) : Bool :=
  left.type = right.type && left.priority = right.priority && left.step.strictEq right.step &&
    left.timestamp = right.timestamp && payloadsMatch left.payload right.payload

def findMatchingFutureCommandIndex (commands : List (Command JsValue)) (candidate : Command JsValue)
    (startIndex : ℕ) (claimedIndices : List ℕ) : Option ℕ :=
  (List.range commands.length).find? fun i =>
    decide (startIndex ≤ i) && !claimedIndices.contains i &&
      (commands[i]?).any fun command => commandsEqual command candidate

/-- The indices that are claimed afterwards; nothing when a command is missing. -/
def verifyReplaySandboxedEnqueues (commands : List (Command JsValue)) (currentIndex : ℕ) :
    List (Command JsValue) → List ℕ → Option (List ℕ)
  | [], claimedIndices => some claimedIndices
  | queued :: rest, claimedIndices =>
      (findMatchingFutureCommandIndex commands queued (currentIndex + 1) claimedIndices).bind
        fun matchIndex =>
          verifyReplaySandboxedEnqueues commands currentIndex rest (claimedIndices ++ [matchIndex])

/-- The loop of `replay` over a log with unchecked payloads. -/
def replayLoop (dispatcher : RecordedDispatcher JsValue EventPayload World)
    (host : SessionHost JsValue EventPayload) (commands : List (Command JsValue)) :
    ℕ → List (Command JsValue) → List ℕ → RecordedSession JsValue World → Except String Unit
  | _, [], _, _ => .ok ()
  | index, command :: rest, claimedIndices, s =>
      let s := executeRecorded dispatcher host command s
      match verifyReplaySandboxedEnqueues commands index s.enqueued claimedIndices with
      | none => .error missingFollowupMessage
      | some claimedIndices => replayLoop dispatcher host commands (index + 1) rest claimedIndices s

/-- The commands that were queued, each with the index of the command that queued it. -/
def sandboxed : ℕ → List (List (Command JsValue)) → List (ℕ × Command JsValue)
  | _, [] => []
  | index, queued :: rest =>
      queued.map (fun command => (index, command)) ++ sandboxed (index + 1) rest

/-- The command at the place equals the one that was queued, and stands further back in the log than
the command that queued it. -/
def Answers (commands : List (Command JsValue)) (queued : ℕ × Command JsValue) (place : ℕ) : Prop :=
  queued.1 < place ∧
    ∃ command, commands[place]? = some command ∧ commandsEqual command queued.2 = true

variable {dispatcher : RecordedDispatcher JsValue EventPayload World}
  {host : SessionHost JsValue EventPayload} {commands : List (Command JsValue)}

theorem commandsEqual_iff {left right : Command JsValue} (hleft : IsJson left.payload)
    (hright : IsJson right.payload) :
    commandsEqual left right = true ↔ left.type = right.type ∧ left.priority = right.priority ∧
      (left.step = right.step ∧ left.step ≠ .nan) ∧ left.timestamp = right.timestamp ∧
        SameLeaves left.payload right.payload := by
  simp only [commandsEqual, Bool.and_eq_true, decide_eq_true_eq, JsNumber.strictEq_iff,
    payloadsMatch_iff hleft hright, and_assoc]

theorem exchangeable (hlog : ∀ command ∈ commands, IsJson command.payload) :
    FirstFit.Exchangeable commandsEqual commands fun queued => IsJson queued.payload := by
  intro command hcommand command' hcommand' queued queued' hqueued hqueued' hfits hfits' hneeds
  have hjson := hlog command hcommand
  have hjson' := hlog command' hcommand'
  obtain ⟨htype, hpriority, ⟨hstep, -⟩, htimestamp, hleaves⟩ :=
    (commandsEqual_iff hjson hqueued).mp hfits
  obtain ⟨htype', hpriority', ⟨hstep', hnumber⟩, htimestamp', hleaves'⟩ :=
    (commandsEqual_iff hjson' hqueued).mp hfits'
  obtain ⟨htype'', hpriority'', ⟨hstep'', -⟩, htimestamp'', hleaves''⟩ :=
    (commandsEqual_iff hjson hqueued').mp hneeds
  refine (commandsEqual_iff hjson' hqueued').mpr ⟨?_, ?_, ⟨?_, hnumber⟩, ?_, fun path => ?_⟩
  · rw [htype', ← htype, htype'']
  · rw [hpriority', ← hpriority, hpriority'']
  · rw [hstep', ← hstep, hstep'']
  · rw [htimestamp', ← htimestamp, htimestamp'']
  · rw [hleaves' path, ← hleaves path, hleaves'' path]

theorem verifyReplaySandboxedEnqueues_eq (index : ℕ) (queued : List (Command JsValue))
    (claimedIndices : List ℕ) :
    verifyReplaySandboxedEnqueues commands index queued claimedIndices =
      FirstFit.assign commandsEqual commands (queued.map fun command => (index + 1, command))
        claimedIndices := by
  induction queued generalizing claimedIndices with
  | nil => rfl
  | cons command rest ih =>
    simp only [verifyReplaySandboxedEnqueues, map_cons, FirstFit.assign, ih]
    rfl

/-- The replay goes through when first fit finds a place for every command that is queued. -/
theorem replayLoop_eq_assign {index : ℕ} {rest : List (Command JsValue)} {claimedIndices : List ℕ}
    {s : RecordedSession JsValue World} :
    replayLoop dispatcher host commands index rest claimedIndices s = .ok () ↔
      (FirstFit.assign commandsEqual commands
        ((sandboxed index (queuedBy dispatcher host rest s)).map fun queued =>
          (queued.1 + 1, queued.2)) claimedIndices).isSome := by
  induction rest generalizing index claimedIndices s with
  | nil => simp [replayLoop, queuedBy, sandboxed, FirstFit.assign]
  | cons command rest ih =>
    rw [replayLoop, queuedBy, sandboxed, map_append, List.map_map, FirstFit.assign_append,
      verifyReplaySandboxedEnqueues_eq]
    rcases hclaimed : FirstFit.assign commandsEqual commands
      ((executeRecorded dispatcher host command s).enqueued.map fun command => (index + 1, command))
        claimedIndices with _ | claimedIndices'
    · simp only [Function.comp_def, hclaimed, bind_none, isSome_none]
      exact ⟨fun h => (by cases h), fun h => (by cases h)⟩
    · simp only [Function.comp_def, hclaimed, bind_some]
      exact ih

theorem forall_sandboxed {P : Command JsValue → Prop} {index : ℕ}
    {lists : List (List (Command JsValue))} (h : ∀ queued ∈ lists, ∀ command ∈ queued, P command) :
    ∀ queued ∈ sandboxed index lists, P queued.2 := by
  induction lists generalizing index with
  | nil => exact forall_mem_nil _
  | cons queued rest ih =>
    obtain ⟨hfirst, hrest⟩ := forall_mem_cons.mp h
    refine forall_mem_append.mpr ⟨?_, ih hrest⟩
    exact forall_mem_map.mpr hfirst

/-- **The first equal command is the best choice**: a replay accepts what its handlers queue exactly
when the queued commands can be assigned to different commands of the log, each equal to its own and
further back than the command that queued it. -/
theorem replayLoop_ok_iff (hlog : ∀ command ∈ commands, IsJson command.payload)
    {s : RecordedSession JsValue World}
    (hqueued : ∀ queued ∈ queuedBy dispatcher host commands s, ∀ command ∈ queued,
      IsJson command.payload) :
    replayLoop dispatcher host commands 0 commands [] s = .ok () ↔
      ∃ places : List ℕ,
        List.Forall₂ (Answers commands) (sandboxed 0 (queuedBy dispatcher host commands s)) places ∧
          places.Nodup := by
  rw [replayLoop_eq_assign, FirstFit.assign_isSome_iff (exchangeable hlog)]
  · simp only [List.forall₂_map_left_iff, List.not_mem_nil, not_false_eq_true, implies_true,
      and_true]
    rfl
  · intro job hjob
    obtain ⟨queued, hmem, rfl⟩ := List.mem_map.mp hjob
    exact forall_sandboxed hqueued queued hmem

/-- A handler that queues the next command of the log. -/
theorem replayLoop_ok_iff_two :
    let follow : Command JsValue :=
      ⟨"COLLECT", .player, record [("ids", array [.string "gold"])], 0, .fin 1, none⟩
    let start : Command JsValue := { follow with type := "START", step := .fin 0 }
    replayLoop
      (fun type => if type = "START" then some fun _ _ => .enqueue follow fun _ => .done else none)
      ⟨fun _ (_ : Unit) => .ok (), fun _ => true, 0⟩ [start, follow] 0 [start, follow] []
      (⟨(), ⟨none, none⟩, []⟩ : RecordedSession JsValue Unit) = .ok () := by
  intro follow start
  have hjson : IsJson (record [("ids", array [.string "gold"])]) := by
    refine .object (by simp) (by simp) ?_
    simpa using Json.array (by simpa using Json.string "gold")
  have hequal : commandsEqual follow follow = true :=
    (commandsEqual_iff hjson hjson).mpr ⟨rfl, rfl, ⟨rfl, by simp [follow]⟩, rfl, fun _ => rfl⟩
  refine (replayLoop_ok_iff ?_ ?_).mpr
    ⟨[1], .cons ⟨Nat.zero_lt_one, follow, rfl, hequal⟩ .nil, List.nodup_singleton 1⟩
  · exact List.forall_mem_cons.mpr ⟨hjson, List.forall_mem_cons.mpr ⟨hjson, List.forall_mem_nil _⟩⟩
  · intro queued hqueued command hcommand
    have hqueued : queued ∈ [[follow], []] := hqueued
    obtain rfl | rfl : queued = [follow] ∨ queued = [] := by simpa using hqueued
    · obtain rfl := List.mem_singleton.mp hcommand
      exact hjson
    · cases hcommand

end Sandbox

end IdleEngine
