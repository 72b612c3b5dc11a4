import Mathlib.Data.List.Induction
import Mathlib.Data.List.Nodup
import Mathlib.Data.List.ReduceOption

/-!
# Places in a list of rows

The entries of a list of rows are reached by places, a row and a column. The places read row by row
give the entries in order (`Grid.filterMap_places`); they depend on the lengths of the rows only
(`Grid.places_congr`). Where rows have optional entries, `Grid.clear` empties one place and leaves
the others (`Grid.value?_clear`).
-/

namespace Grid

open List

variable {α β : Type*}

/-- The places of the rows, row by row. -/
def places (rows : List (List α)) : List (ℕ × ℕ) :=
  rows.zipIdx.flatMap fun row => (List.range row.1.length).map fun column => (row.2, column)

/-- What is at a place. -/
def cell? (rows : List (List α)) (place : ℕ × ℕ) : Option α :=
  rows[place.1]?.bind (·[place.2]?)

theorem places_concat (rows : List (List α)) (row : List α) :
    places (rows ++ [row]) =
      places rows ++ (range row.length).map fun column => (rows.length, column) := by
  rw [places, places, zipIdx_append, flatMap_append, Nat.zero_add]
  simp

theorem places_congr {rows : List (List α)} {rows' : List (List β)}
    (h : rows.map length = rows'.map length) : places rows = places rows' := by
  induction rows using reverseRecOn generalizing rows' with
  | nil =>
    obtain rfl := map_eq_nil_iff.mp h.symm
    rfl
  | append_singleton rows row ih =>
    obtain rfl | ⟨rows', row', rfl⟩ := rows'.eq_nil_or_concat
    · rw [map_nil, map_eq_nil_iff] at h
      exact absurd h (append_ne_nil_of_right_ne_nil _ (cons_ne_nil _ _))
    · rw [concat_eq_append, map_append, map_append] at h
      obtain ⟨hrows, hrow⟩ := append_inj' h rfl
      have hlength : rows.length = rows'.length := by
        simpa using congrArg length hrows
      rw [places_concat, concat_eq_append, places_concat, ih hrows, hlength,
        (cons.inj hrow).1]

theorem mem_places {rows : List (List α)} {place : ℕ × ℕ} :
    place ∈ places rows ↔ (cell? rows place).isSome := by
  obtain ⟨row, column⟩ := place
  rw [places, cell?, mem_flatMap]
  constructor
  · rintro ⟨⟨entries, i⟩, hentries, hplace⟩
    obtain ⟨j, hj, heq⟩ := mem_map.mp hplace
    obtain ⟨rfl, rfl⟩ := Prod.mk.inj heq
    rw [mk_mem_zipIdx_iff_getElem?.mp hentries, Option.bind_some,
      getElem?_eq_getElem (mem_range.mp hj)]
    rfl
  · intro h
    obtain ⟨entry, hentry⟩ := Option.isSome_iff_exists.mp h
    obtain ⟨entries, hrow, hcolumn⟩ := Option.bind_eq_some_iff.mp hentry
    refine ⟨(entries, row), mk_mem_zipIdx_iff_getElem?.mpr hrow,
      mem_map.mpr ⟨column, mem_range.mpr ?_, rfl⟩⟩
    exact (List.getElem?_eq_some_iff.mp hcolumn).1

theorem nodup_places (rows : List (List α)) : (places rows).Nodup := by
  induction rows using reverseRecOn with
  | nil => exact nodup_nil
  | append_singleton rows row ih =>
    rw [places_concat]
    refine nodup_append.mpr ⟨ih, ?_, ?_⟩
    · exact nodup_range.map fun i j h => (Prod.mk.inj h).2
    · rintro place hplace other hother rfl
      obtain ⟨column, -, rfl⟩ := mem_map.mp hother
      rw [mem_places, cell?, getElem?_eq_none (Nat.le_refl _)] at hplace
      cases hplace

/-- **Reading the places row by row** gives the entries of the rows in order. -/
theorem filterMap_places (rows : List (List α)) :
    (places rows).filterMap (cell? rows) = rows.flatten := by
  induction rows using reverseRecOn with
  | nil => rfl
  | append_singleton rows row ih =>
    have hold : ∀ place ∈ places rows, cell? (rows ++ [row]) place = cell? rows place := by
      intro place hplace
      have hlt : place.1 < rows.length := by
        by_contra hge
        rw [mem_places, cell?, getElem?_eq_none (Nat.le_of_not_lt hge)] at hplace
        cases hplace
      rw [cell?, cell?, getElem?_append_left hlt]
    have hnew : (cell? (rows ++ [row])) ∘ (fun column => (rows.length, column)) =
        fun column => row[column]? := by
      funext column
      rw [Function.comp_apply, cell?, getElem?_concat_length, Option.bind_some]
    have hmap : (range row.length).map (fun column => row[column]?) = row.map some :=
      ext_getElem (by simp) fun i _ _ => by simp
    have hrow : (range row.length).filterMap (fun column => row[column]?) = row := by
      have hfilter : (row.map some).filterMap id = row := by simp [filterMap_map]
      rw [← hmap, filterMap_map] at hfilter
      exact hfilter
    rw [places_concat, filterMap_append, filterMap_congr hold, ih, filterMap_map,
      hnew, hrow, flatten_append]
    simp

/-! ### Rows with empty places -/

/-- The entry at a place, if there is one. -/
def value? (rows : List (List (Option α))) (place : ℕ × ℕ) : Option α := (cell? rows place).join

/-- Empty a place. -/
def clear (rows : List (List (Option α))) (place : ℕ × ℕ) : List (List (Option α)) :=
  rows.modify place.1 fun row => row.set place.2 none

variable (rows : List (List (Option α)))

theorem map_length_clear (place : ℕ × ℕ) :
    (clear rows place).map length = rows.map length := by
  refine ext_getElem? fun i => ?_
  rw [clear, getElem?_map, getElem?_map, getElem?_modify]
  cases rows[i]? with
  | none => rfl
  | some row =>
    by_cases hi : place.1 = i
    · simp [hi]
    · simp [hi]

theorem value?_clear (place other : ℕ × ℕ) :
    value? (clear rows place) other = if other = place then none else value? rows other := by
  obtain ⟨row, column⟩ := place
  obtain ⟨row', column'⟩ := other
  rw [value?, value?, cell?, cell?, clear, getElem?_modify]
  by_cases hrow : row = row'
  · subst hrow
    cases rows[row]? with
    | none => simp
    | some entries =>
      by_cases hcolumn : column = column'
      · subst hcolumn
        by_cases hlt : column < entries.length
        · simp [hlt]
        · simp [hlt]
      · simp [hcolumn, Ne.symm hcolumn]
  · have hne : (row', column') ≠ (row, column) := fun h => hrow (Prod.mk.inj h).1.symm
    rw [if_neg hne]
    simp [hrow]

theorem filterMap_value? :
    (places rows).filterMap (value? rows) = rows.flatten.reduceOption := by
  rw [← filterMap_places rows, reduceOption, filterMap_filterMap]
  rfl

end Grid
