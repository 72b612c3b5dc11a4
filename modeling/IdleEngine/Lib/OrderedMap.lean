import Mathlib.Data.List.Nodup

/-!
# Insertion-ordered maps

A map that iterates in the order in which its keys were first set: setting a key that is there
changes its value in place. The entries carry the proof that no key occurs twice, so a map that is written
out entry by entry and set again from them holds the same values, with or without the entries of a
default value.
-/

/-- A map with its entries in insertion order. -/
structure OrderedMap (K V : Type) where
  entries : List (K × V)
  nodup : (entries.map Prod.fst).Nodup

namespace OrderedMap

open List

variable {K V : Type} [DecidableEq K]

def empty : OrderedMap K V := ⟨[], List.nodup_nil⟩

/-- The value of a key among some entries. -/
def find (k : K) : List (K × V) → Option V
  | [] => none
  | (k', v) :: entries => if k' = k then some v else find k entries

/-- The value of a key. -/
def get? (m : OrderedMap K V) (k : K) : Option V := find k m.entries

/-- The entries with one key set. -/
def setEntries (k : K) (v : V) : List (K × V) → List (K × V)
  | [] => [(k, v)]
  | (k', v') :: entries => if k' = k then (k, v) :: entries else (k', v') :: setEntries k v entries

theorem keys_setEntries (k : K) (v : V) (entries : List (K × V)) :
    (setEntries k v entries).map Prod.fst =
      if k ∈ entries.map Prod.fst then entries.map Prod.fst else entries.map Prod.fst ++ [k] := by
  induction entries with
  | nil => rfl
  | cons entry entries ih =>
    obtain ⟨k', v'⟩ := entry
    rw [setEntries]
    by_cases hk : k' = k
    · simp [hk]
    · have hk' : k ≠ k' := fun h => hk h.symm
      rw [if_neg hk, map_cons, ih]
      by_cases hmem : k ∈ entries.map Prod.fst
      · simp [hk', hmem]
      · simp [hk', hmem]

theorem find_setEntries (k j : K) (v : V) (entries : List (K × V)) :
    find j (setEntries k v entries) = if k = j then some v else find j entries := by
  induction entries with
  | nil => rfl
  | cons entry entries ih =>
    obtain ⟨k', v'⟩ := entry
    rw [setEntries]
    by_cases hk : k' = k
    · subst hk
      by_cases hj : k' = j <;> simp [find, hj]
    · rw [if_neg hk, find, find, ih]
      by_cases hj : k' = j
      · subst hj
        have hk' : k ≠ k' := fun h => hk h.symm
        simp [hk']
      · simp [hj]

variable {k : K} {entries : List (K × V)}

/-- A new key is set at the end. -/
theorem setEntries_of_notMem (h : k ∉ entries.map Prod.fst) (v : V) :
    setEntries k v entries = entries ++ [(k, v)] := by
  induction entries with
  | nil => rfl
  | cons entry entries ih =>
    obtain ⟨k', v'⟩ := entry
    have hk : k' ≠ k := fun hk => h (by simp [hk])
    have hrest : k ∉ entries.map Prod.fst := fun hmem => h (mem_cons_of_mem _ hmem)
    rw [setEntries, if_neg hk, ih hrest, cons_append]

variable {v : V}

/-- What holds of the old values and of the new one holds of all values. -/
theorem forall_setEntries {P : V → Prop} (hv : P v) (h : ∀ entry ∈ entries, P entry.2) :
    ∀ entry ∈ setEntries k v entries, P entry.2 := by
  induction entries with
  | nil => simpa [setEntries] using hv
  | cons entry entries ih =>
    obtain ⟨k', v'⟩ := entry
    have hhead : P v' := h (k', v') (by simp)
    have hrest : ∀ entry ∈ entries, P entry.2 := fun e he => h e (mem_cons_of_mem _ he)
    rw [setEntries]
    split
    · exact forall_mem_cons.mpr ⟨hv, hrest⟩
    · exact forall_mem_cons.mpr ⟨hhead, ih hrest⟩

/-- Set the value of a key. -/
def set (m : OrderedMap K V) (k : K) (v : V) : OrderedMap K V where
  entries := setEntries k v m.entries
  nodup := by
    rw [keys_setEntries]
    split
    · exact m.nodup
    · next hk => exact List.nodup_append.mpr ⟨m.nodup, List.nodup_singleton k, by grind⟩

/-- Forget a key. -/
def erase (m : OrderedMap K V) (k : K) : OrderedMap K V where
  entries := m.entries.filter fun entry => entry.1 ≠ k
  nodup := m.nodup.sublist (List.filter_sublist.map Prod.fst)

@[simp]
theorem get?_empty (k : K) : (empty : OrderedMap K V).get? k = none := rfl

theorem get?_set (m : OrderedMap K V) (k j : K) (v : V) :
    (m.set k v).get? j = if k = j then some v else m.get? j :=
  find_setEntries k j v m.entries

/-- Looking a key up after another key was dropped. -/
theorem find_erase (k j : K) (entries : List (K × V)) :
    find j (entries.filter fun entry => entry.1 ≠ k) = if k = j then none else find j entries := by
  induction entries with
  | nil => simp [find]
  | cons entry entries ih =>
    obtain ⟨k', v⟩ := entry
    by_cases hk : k' = k
    · subst hk
      rw [filter_cons_of_neg (by simp), ih, find]
      by_cases hj : k' = j <;> simp [hj]
    · rw [filter_cons_of_pos (by simpa using hk), find, find, ih]
      by_cases hj : k' = j
      · subst hj
        simp [Ne.symm hk]
      · simp [hj]

theorem get?_erase (m : OrderedMap K V) (k j : K) :
    (m.erase k).get? j = if k = j then none else m.get? j :=
  find_erase k j m.entries

/-- Keep the entries whose value passes a test. -/
def filterValues (m : OrderedMap K V) (p : V → Bool) : OrderedMap K V where
  entries := m.entries.filter fun entry => p entry.2
  nodup := m.nodup.sublist (List.filter_sublist.map Prod.fst)

/-- Every value is changed in place. -/
def mapValues {W : Type} (f : V → W) (m : OrderedMap K V) : OrderedMap K W where
  entries := m.entries.map fun entry => (entry.1, f entry.2)
  nodup := by
    rw [List.map_map]
    exact m.nodup

theorem find_map {W : Type} (f : V → W) (entries : List (K × V)) (k : K) :
    find k (entries.map fun entry => (entry.1, f entry.2)) = (find k entries).map f := by
  induction entries with
  | nil => rfl
  | cons entry entries ih =>
    obtain ⟨j, v⟩ := entry
    rw [map_cons, find, find]
    split
    · rfl
    · exact ih

theorem get?_mapValues {W : Type} (f : V → W) (m : OrderedMap K V) (k : K) :
    (m.mapValues f).get? k = (m.get? k).map f := find_map f m.entries k

variable {m : OrderedMap K V}

theorem get?_eq_some_iff :
    m.get? k = some v ↔ (k, v) ∈ m.entries := by
  obtain ⟨entries, hnodup⟩ := m
  induction entries with
  | nil => simp [get?, find]
  | cons entry entries ih =>
    obtain ⟨k', v'⟩ := entry
    obtain ⟨hnew, hnodup⟩ := nodup_cons.mp hnodup
    have hrest := ih hnodup
    simp only [get?] at hrest ⊢
    rw [find]
    by_cases hk : k' = k
    · subst hk
      have hmem : (k', v) ∉ entries := fun h => hnew (mem_map.mpr ⟨_, h, rfl⟩)
      simp [hmem, eq_comm]
    · have hk' : k ≠ k' := fun h => hk h.symm
      simp [hk, hk', hrest]

theorem get?_filterValues_eq_some {p : V → Bool} :
    (m.filterValues p).get? k = some v ↔ m.get? k = some v ∧ p v = true := by
  rw [get?_eq_some_iff, get?_eq_some_iff]
  simp [filterValues]

/-- A key that was there is gone only if its value fails the test. -/
theorem get?_filterValues (m : OrderedMap K V) (p : V → Bool) (k : K) :
    (m.filterValues p).get? k = (m.get? k).filter p := by
  ext v
  rw [get?_filterValues_eq_some, Option.filter_eq_some_iff]

/-- The keys are those that have a value. -/
theorem mem_keys_iff :
    k ∈ m.entries.map Prod.fst ↔ (m.get? k).isSome := by
  rw [Option.isSome_iff_exists]
  constructor
  · intro hk
    obtain ⟨⟨k', v⟩, hentry, rfl⟩ := mem_map.mp hk
    exact ⟨v, get?_eq_some_iff.mpr hentry⟩
  · rintro ⟨v, hv⟩
    exact mem_map.mpr ⟨(k, v), get?_eq_some_iff.mp hv, rfl⟩

/-- Setting a key that is there leaves the keys as they are. -/
theorem keys_set (h : k ∈ m.entries.map Prod.fst) (v : V) :
    (m.set k v).entries.map Prod.fst = m.entries.map Prod.fst := by
  rw [set, keys_setEntries, if_pos h]

theorem find_eq_none (h : k ∉ entries.map Prod.fst) :
    find k entries = none := by
  induction entries with
  | nil => rfl
  | cons entry entries ih =>
    rw [map_cons, mem_cons, not_or] at h
    rw [find, if_neg (Ne.symm h.1), ih h.2]

/-- A key has at most one entry. -/
theorem filter_key_of_get? (h : m.get? k = some v) :
    m.entries.filter (fun entry => decide (entry.1 = k)) = [(k, v)] := by
  obtain ⟨entries, hnodup⟩ := m
  change find k entries = some v at h
  change entries.filter _ = [(k, v)]
  induction entries with
  | nil => cases h
  | cons entry entries ih =>
    obtain ⟨k', v'⟩ := entry
    obtain ⟨hnew, hnodup⟩ := nodup_cons.mp hnodup
    rw [find] at h
    by_cases hk : k' = k
    · subst hk
      rw [if_pos rfl] at h
      obtain rfl := Option.some.inj h
      rw [filter_cons_of_pos (by simp), filter_eq_nil_iff.mpr]
      rintro entry hentry hkey
      exact hnew (mem_map.mpr ⟨entry, hentry, of_decide_eq_true hkey⟩)
    · rw [if_neg hk] at h
      rw [filter_cons_of_neg (by simpa using hk), ih hnodup h]

/-- The values under a key: one or none. -/
theorem filterMap_key (m : OrderedMap K V) (k : K) :
    m.entries.filterMap (fun entry => if entry.1 = k then some entry.2 else none) =
      (m.get? k).toList := by
  cases hget : m.get? k with
  | none =>
    refine filterMap_eq_nil_iff.mpr fun entry hentry => if_neg fun hkey => ?_
    have hmem : k ∈ m.entries.map Prod.fst := mem_map.mpr ⟨entry, hentry, hkey⟩
    rw [mem_keys_iff, hget] at hmem
    cases hmem
  | some v =>
    have hfilter := congrArg (map Prod.snd) (filter_key_of_get? hget)
    rw [← filterMap_eq_map, filterMap_filter] at hfilter
    simpa [Option.guard] using hfilter

/-- Setting listed entries of distinct keys. -/
theorem get?_foldl_set {l : List (K × V)} (hl : (l.map Prod.fst).Nodup) (m : OrderedMap K V)
    (k : K) : (l.foldl (fun m entry => m.set entry.1 entry.2) m).get? k =
      (find k l).or (m.get? k) := by
  induction l generalizing m with
  | nil => rfl
  | cons entry l ih =>
    obtain ⟨k', v⟩ := entry
    obtain ⟨hnew, hnodup⟩ := nodup_cons.mp hl
    rw [foldl_cons, ih hnodup, get?_set, find]
    by_cases hk : k' = k
    · subst hk
      rw [find_eq_none hnew]
      simp
    · simp [hk]

end OrderedMap
