import IdleEngine.StateSync.Snapshot

/-!
# Values that are written alike

`SameWriting` says that the checksum writes two values alike. For objects with known keys this is a
statement about each key (`RecordWith.sameWriting_iff`), for arrays about each place. A list of
entries with unique ids is written alike exactly when the ids stand in the same order and the entries
of one id are written alike (`sameWriting_entries_iff`), which is how the diff looks at them; a list
that is compared place by place needs no ids (`sameWriting_places_iff`).
-/

namespace IdleEngine

open JsValue SortedEntries List Option

/-! ### Values that are written alike -/

/-- Two values are written alike by the checksum. -/
def SameWriting (x y : JsValue) : Prop :=
  x.writtenAs compareCodeUnits = y.writtenAs compareCodeUnits

theorem SameWriting.refl (x : JsValue) : SameWriting x x := rfl

/-- A plain object whose fields are among some keys. -/
def RecordWith (keys : List String) (value : JsValue) : Prop :=
  ∃ fields, value = record fields ∧ OwnFields fields ∧ ∀ field ∈ fields, field.1 ∈ keys

variable {keys : List String}

theorem RecordWith.of_keys {fields : List (String × JsValue)} (hkeys : fields.map Prod.fst = keys)
    (hnodup : keys.Nodup) (hproto : "__proto__" ∉ keys) :
    RecordWith keys (record fields) := by
  have hmem : ∀ field ∈ fields, field.1 ∈ keys := by
    intro field hfield
    rw [← hkeys]
    exact mem_map_of_mem hfield
  refine ⟨fields, rfl, ⟨hkeys ▸ hnodup, fun field hfield hkey => hproto ?_⟩, hmem⟩
  rw [← hkey]
  exact hmem field hfield

namespace RecordWith

variable {keys keys' : List String} {x y : JsValue}

theorem get_of_notMem (h : RecordWith keys x) {key : String} (hkey : key ∉ keys) :
    x.get key = .undefined := by
  obtain ⟨fields, rfl, hown, hkeys⟩ := h
  have habsent : key ∉ fields.map Prod.fst := by
    intro hmem
    obtain ⟨field, hfield, rfl⟩ := mem_map.mp hmem
    exact hkey (hkeys field hfield)
  rw [JsValue.get, fields_record, OrderedMap.find_eq_none habsent]
  rfl

/-- **Two objects are written alike exactly when their properties are.** -/
theorem sameWriting_iff (hx : RecordWith keys x) (hy : RecordWith keys y) :
    SameWriting x y ↔ ∀ key ∈ keys, SameWriting (x.get key) (y.get key) := by
  obtain ⟨fields, hfields, hown, -⟩ := id hx
  obtain ⟨fields', hfields', hown', -⟩ := id hy
  have hall : SameWriting x y ↔ ∀ key, SameWriting (x.get key) (y.get key) := by
    rw [hfields, hfields']
    exact hown.writtenAs_eq_iff hown'
  rw [hall]
  constructor
  · exact fun h key _ => h key
  · intro h key
    by_cases hkey : key ∈ keys
    · exact h key hkey
    · rw [hx.get_of_notMem hkey, hy.get_of_notMem hkey]
      exact .refl _

theorem isSome_writtenAs (h : RecordWith keys x) :
    (x.writtenAs compareCodeUnits).isSome = true := by
  obtain ⟨fields, rfl, hown, -⟩ := h
  rw [record, hown.writtenAs]
  rfl

theorem definedValue_eq (h : RecordWith keys x) : definedValue x = some x := by
  obtain ⟨fields, rfl, -, -⟩ := h
  rfl

end RecordWith

variable {l r : List JsValue}

/-- **Two arrays are written alike exactly when their elements are**, as long as every element is
written as something. -/
theorem sameWriting_array_iff (hl : ∀ x ∈ l, (x.writtenAs compareCodeUnits).isSome = true)
    (hr : ∀ x ∈ r, (x.writtenAs compareCodeUnits).isSome = true) :
    SameWriting (array l) (array r) ↔ List.Forall₂ SameWriting l r := by
  rw [SameWriting, writtenAs_array, writtenAs_array, some_inj, JsonTree.array.injEq]
  induction l generalizing r with
  | nil =>
    rcases r with _ | ⟨y, r⟩
    · simp
    · simp
  | cons x l ih =>
    rcases r with _ | ⟨y, r⟩
    · simp
    · have hrest := ih (fun a ha => hl a (mem_cons_of_mem _ ha))
        fun b hb => hr b (mem_cons_of_mem _ hb)
      obtain ⟨tree, htree⟩ := isSome_iff_exists.mp (hl x mem_cons_self)
      obtain ⟨tree', htree'⟩ := isSome_iff_exists.mp (hr y mem_cons_self)
      rw [map_cons, map_cons, cons.injEq, hrest, forall₂_cons, SameWriting,
        htree, htree', getD_some, getD_some, some_inj]

theorem sameWriting_string_iff {a b : String} :
    SameWriting (.string a) (.string b) ↔ a = b := by
  rw [SameWriting, writtenAs_of_not_isRecord rfl, writtenAs_of_not_isRecord rfl, written, written]
  simp

theorem sameWriting_strings_iff {l r : List String} :
    SameWriting (array (l.map .string)) (array (r.map .string)) ↔ l = r := by
  have hsome : ∀ l : List String, ∀ x ∈ l.map JsValue.string,
      (x.writtenAs compareCodeUnits).isSome = true := by
    intro l x hx
    obtain ⟨text, -, rfl⟩ := mem_map.mp hx
    rfl
  rw [sameWriting_array_iff (hsome l) (hsome r), forall₂_map_left_iff,
    forall₂_map_right_iff]
  simp only [sameWriting_string_iff, forall₂_eq_eq_eq]

/-! ### Equal values are written alike -/

variable {x y : JsValue}

theorem objectIs_eq (h : objectIs x y = true) : x = y := by
  unfold objectIs at h
  split at h
  · rfl
  · rfl
  · rw [eq_of_beq h]
  · rw [of_decide_eq_true h]
  · rw [eq_of_beq h]
  · cases h

/-- **Values that are equal for `valuesEqual` are written alike.** -/
theorem TextHost.Equal.sameWriting {host : TextHost} (hx : Plain x) (hy : Plain y)
    (h : host.Equal x y) : SameWriting x y := by
  rw [TextHost.Equal, TextHost.valuesEqual, Bool.or_eq_true, Bool.and_eq_true] at h
  rcases h with hsame | ⟨-, htext⟩
  · rw [objectIs_eq hsame]
    exact .refl _
  · have hwritten : x.writtenAs host.localeCompare = y.writtenAs host.localeCompare :=
      (stringify_eq_iff host.numbers).mp (of_decide_eq_true htext)
    exact writtenAs_transfer hx hy hwritten

/-! ### Lists of entries -/

theorem viewById_cons {idKey : String} {entry : JsValue} {entries : List JsValue} {id : String} :
    viewById idKey (entry :: entries) id =
      if (entry.get idKey).string? = some id then some entry.get
      else viewById idKey entries id := by
  rw [viewById, find?_cons]
  by_cases hid : (entry.get idKey).string? = some id
  · simp [hid]
  · simp [hid, viewById]

section Entries

variable {α : Type} {toJs : α → JsValue} {id : α → String} {idKey : String} {keys : List String}

theorem idsOf_map (hid : ∀ a, (toJs a).get idKey = .string (id a)) (l : List α) :
    idsOf idKey (l.map toJs) = l.map id := by
  rw [idsOf, filterMap_map]
  have hcomp : ((fun entry : JsValue => (entry.get idKey).string?) ∘ toJs) = some ∘ id := by
    funext a
    rw [Function.comp_apply, hid]
    rfl
  rw [hcomp, filterMap_eq_map]

/-- **Lists of entries are written alike exactly when they have the same ids in the same order and
agree at every id.** -/
theorem sameWriting_entries_iff (hentry : ∀ a, RecordWith (idKey :: keys) (toJs a))
    (hid : ∀ a, (toJs a).get idKey = .string (id a)) {l r : List α} (hl : (l.map id).Nodup)
    (hr : (r.map id).Nodup) :
    SameWriting (array (l.map toJs)) (array (r.map toJs)) ↔
      l.map id = r.map id ∧ EntriesAgree SameWriting idKey keys (l.map toJs) (r.map toJs) := by
  have hsome : ∀ l : List α, ∀ x ∈ l.map toJs,
      (x.writtenAs compareCodeUnits).isSome = true := by
    intro l x hx
    obtain ⟨a, -, rfl⟩ := mem_map.mp hx
    exact (hentry a).isSome_writtenAs
  have hhead : ∀ a b, SameWriting (toJs a) (toJs b) ↔
      id a = id b ∧ ∀ key ∈ keys, SameWriting ((toJs a).get key) ((toJs b).get key) := by
    intro a b
    rw [(hentry a).sameWriting_iff (hentry b), forall_mem_cons, hid, hid,
      sameWriting_string_iff]
  have hview : ∀ (a : α) (l : List α) (i : String), viewById idKey (toJs a :: l.map toJs) i =
      if id a = i then some (toJs a).get else viewById idKey (l.map toJs) i := by
    intro a l i
    rw [viewById_cons, hid]
    simp only [string?, some_inj]
  rw [sameWriting_array_iff (hsome l) (hsome r)]
  induction l generalizing r with
  | nil =>
    rcases r with _ | ⟨b, r⟩
    · simp only [map_nil, List.Forall₂.nil, true_and, true_iff]
      exact fun i => View.agreeAt_of_absent (.refl _) rfl rfl
    · simp
  | cons a l ih =>
    rcases r with _ | ⟨b, r⟩
    · simp
    · obtain ⟨hnew, hl⟩ := nodup_cons.mp hl
      obtain ⟨hnew', hr⟩ := nodup_cons.mp hr
      have hrest := ih hl hr
      rw [map_cons, map_cons, forall₂_cons, hhead, map_cons, map_cons,
        cons.injEq]
      constructor
      · rintro ⟨⟨hab, hkeys⟩, htails⟩
        obtain ⟨hids, hagree⟩ := hrest.mp htails
        refine ⟨⟨hab, hids⟩, fun i => ?_⟩
        by_cases hi : id a = i
        · have hi' : id b = i := hab ▸ hi
          rw [View.AgreeAt]
          simp only [View.value, hview, if_pos hi, if_pos hi']
          exact ⟨rfl, hkeys⟩
        · have hi' : id b ≠ i := hab ▸ hi
          have htail := hagree i
          rw [View.AgreeAt] at htail ⊢
          simp only [View.value, hview, if_neg hi, if_neg hi'] at htail ⊢
          exact htail
      · rintro ⟨⟨hab, hids⟩, hagree⟩
        refine ⟨⟨hab, ?_⟩, hrest.mpr ⟨hids, ?_⟩⟩
        · intro key hkey
          have hvalues := (hagree (id a)).2 key hkey
          rw [View.value, View.value, hview, hview, if_pos rfl, if_pos hab.symm] at hvalues
          exact hvalues
        · intro i
          by_cases hi : id a = i
          · -- the rest of neither list lists the id of its head
            subst hi
            refine View.agreeAt_of_absent (.refl _) ?_ ?_
            · rw [← not_isSome_iff_eq_none, viewById_isSome_iff, idsOf_map hid]
              exact hnew
            · rw [← not_isSome_iff_eq_none, viewById_isSome_iff, idsOf_map hid, hab]
              exact hnew'
          · have hi' : id b ≠ i := hab ▸ hi
            have hboth := hagree i
            rw [View.AgreeAt] at hboth ⊢
            simp only [View.value, hview, if_neg hi, if_neg hi'] at hboth ⊢
            exact hboth

end Entries

/-! ### Arrays of entries -/

theorem viewByIndex_cons_zero (hx : RecordWith keys x) (l : List JsValue) :
    viewByIndex (x :: l) 0 = some x.get := by
  rw [viewByIndex, getElem?_cons_zero, bind_some, hx.definedValue_eq, map_some]

theorem viewByIndex_cons_succ (x : JsValue) (l : List JsValue) (index : ℕ) :
    viewByIndex (x :: l) (index + 1) = viewByIndex l index := by
  rw [viewByIndex, viewByIndex, getElem?_cons_succ]

/-- Arrays that begin with objects agree exactly when these objects and the rests do. -/
theorem placesAgree_cons_iff {E : JsValue → JsValue → Prop} {keys' : List String}
    (hx : RecordWith keys' x) (hy : RecordWith keys' y) :
    PlacesAgree E keys (x :: l) (y :: r) ↔
      (∀ key ∈ keys, E (x.get key) (y.get key)) ∧ PlacesAgree E keys l r := by
  constructor
  · intro h
    constructor
    · intro key hkey
      have hzero := (h 0).2 key hkey
      rw [View.value, View.value, viewByIndex_cons_zero hx, viewByIndex_cons_zero hy] at hzero
      exact hzero
    · intro index
      have hsucc := h (index + 1)
      rw [View.AgreeAt] at hsucc ⊢
      simp only [View.value, viewByIndex_cons_succ] at hsucc ⊢
      exact hsucc
  · rintro ⟨hhead, htail⟩ (_ | index)
    · rw [View.AgreeAt]
      simp only [View.value, viewByIndex_cons_zero hx, viewByIndex_cons_zero hy]
      exact ⟨rfl, hhead⟩
    · have hrest := htail index
      rw [View.AgreeAt] at hrest ⊢
      simp only [View.value, viewByIndex_cons_succ]
      exact hrest

/-- **Arrays of objects are written alike exactly when they agree place by place.** -/
theorem sameWriting_places_iff (hl : ∀ x ∈ l, RecordWith keys x) (hr : ∀ x ∈ r, RecordWith keys x) :
    SameWriting (array l) (array r) ↔ PlacesAgree SameWriting keys l r := by
  rw [sameWriting_array_iff (fun x hx => (hl x hx).isSome_writtenAs)
    fun x hx => (hr x hx).isSome_writtenAs]
  induction l generalizing r with
  | nil =>
    rcases r with _ | ⟨y, r⟩
    · simp only [List.Forall₂.nil, true_iff]
      exact fun index => View.agreeAt_of_absent (.refl _) rfl rfl
    · have hy := hr y mem_cons_self
      refine iff_of_false (by simp) fun h => ?_
      have hpresent := (h 0).1
      rw [viewByIndex_cons_zero hy] at hpresent
      cases hpresent
  | cons x l ih =>
    have hx := hl x mem_cons_self
    rcases r with _ | ⟨y, r⟩
    · refine iff_of_false (by simp) fun h => ?_
      have hpresent := (h 0).1
      rw [viewByIndex_cons_zero hx] at hpresent
      cases hpresent
    · have hy := hr y mem_cons_self
      have hrest : List.Forall₂ SameWriting l r ↔ PlacesAgree SameWriting keys l r :=
        ih (fun a ha => hl a (mem_cons_of_mem _ ha))
          fun b hb => hr b (mem_cons_of_mem _ hb)
      rw [forall₂_cons, placesAgree_cons_iff hx hy, hx.sameWriting_iff hy, hrest]

end IdleEngine
