import Mathlib.Data.List.Sort
import IdleEngine.Lib.OrderedMap

/-!
# Entries sorted by key

A record that is written entry by entry has the same text whenever its entries are sorted first.
`sortEntries` sorts by key, `collect` passes on the entries whose value has an image. If the order
is total and antisymmetric, the result depends on nothing but the images that the keys have
(`collect_sortEntries_eq_iff`); whatever the order, sorting does not change what a key has
(`find_sortEntries`).
-/

open List

open Prod

namespace SortedEntries

open OrderedMap

variable {K V W : Type}

/-- Entries sorted by their keys; entries with equivalent keys keep their order. -/
def sortEntries (r : K → K → Prop) [DecidableRel r] (entries : List (K × V)) : List (K × V) :=
  entries.insertionSort fun a b => r a.1 b.1

/-- The entries whose value has an image, with it. -/
def collect (f : V → Option W) (entries : List (K × V)) : List (K × W) :=
  entries.filterMap fun entry => (f entry.2).map fun image => (entry.1, image)

theorem collect_cons (f : V → Option W) (k : K) (v : V) (entries : List (K × V)) :
    collect f ((k, v) :: entries) =
      ((f v).map fun image => (k, image)).toList ++ collect f entries := by
  rw [collect, filterMap_cons]
  rcases f v with _ | image
  · rfl
  · rfl

/-- Entries that are mapped first. -/
theorem collect_map {U : Type} (f : V → Option W) (g : U → V) (entries : List (K × U)) :
    collect f (entries.map fun entry => (entry.1, g entry.2)) = collect (f ∘ g) entries := by
  rw [collect, collect, filterMap_map]
  rfl

/-- The keys that are left stand in the order in which they stood. -/
theorem keys_collect_sublist (f : V → Option W) (entries : List (K × V)) :
    List.Sublist ((collect f entries).map fst) (entries.map fst) := by
  induction entries with
  | nil => exact List.Sublist.refl _
  | cons entry entries ih =>
    obtain ⟨k, v⟩ := entry
    rw [collect_cons, map_append, map_cons]
    rcases f v with _ | image
    · exact ih.cons k
    · exact ih.cons_cons k

section Find

variable [DecidableEq K]

theorem find_eq_some_iff {entries : List (K × V)} (hnodup : (entries.map fst).Nodup) {k : K}
    {v : V} : find k entries = some v ↔ (k, v) ∈ entries :=
  get?_eq_some_iff (m := ⟨entries, hnodup⟩)

/-- Entries in another order have the same values. -/
theorem find_perm {l l' : List (K × V)} (hperm : l.Perm l') (hnodup : (l.map fst).Nodup)
    (k : K) : find k l = find k l' := by
  have hnodup' : (l'.map fst).Nodup := (hperm.map fst).nodup_iff.mp hnodup
  ext v
  rw [find_eq_some_iff hnodup, find_eq_some_iff hnodup', hperm.mem_iff]

theorem find_collect (f : V → Option W) {entries : List (K × V)}
    (hnodup : (entries.map fst).Nodup) (k : K) :
    find k (collect f entries) = (find k entries).bind f := by
  induction entries with
  | nil => rfl
  | cons entry entries ih =>
    obtain ⟨k', v⟩ := entry
    obtain ⟨hnew, hrest⟩ := nodup_cons.mp hnodup
    rw [collect_cons, find]
    by_cases hk : k' = k
    · subst hk
      have hgone : find k' (collect f entries) = none := by
        refine find_eq_none fun hmem => hnew ?_
        exact (keys_collect_sublist f entries).subset hmem
      rw [if_pos rfl, Option.bind_some]
      rcases f v with _ | image
      · exact hgone
      · exact if_pos rfl
    · rw [if_neg hk, ← ih hrest]
      rcases f v with _ | image
      · rfl
      · exact if_neg hk

end Find

/-! ### Sorting -/

variable (r : K → K → Prop) [DecidableRel r]

theorem sortEntries_perm (entries : List (K × V)) : (sortEntries r entries).Perm entries :=
  perm_insertionSort _ entries

theorem keys_sortEntries (entries : List (K × V)) :
    (sortEntries r entries).map fst = (entries.map fst).insertionSort r :=
  map_insertionSort _ r fst entries fun _ _ _ _ => Iff.rfl

theorem nodup_sortEntries {entries : List (K × V)} (hnodup : (entries.map fst).Nodup) :
    ((sortEntries r entries).map fst).Nodup :=
  ((sortEntries_perm r entries).map fst).nodup_iff.mpr hnodup

/-- Sorting looks at the keys only. -/
theorem sortEntries_map (f : V → W) (entries : List (K × V)) :
    sortEntries r (entries.map fun entry => (entry.1, f entry.2)) =
      (sortEntries r entries).map fun entry => (entry.1, f entry.2) :=
  (map_insertionSort _ _ (fun entry : K × V => (entry.1, f entry.2)) entries
    fun _ _ _ _ => Iff.rfl).symm

/-- **Sorting does not change what a key has.** -/
theorem find_collect_sortEntries [DecidableEq K] (f : V → Option W) {entries : List (K × V)}
    (hnodup : (entries.map fst).Nodup) (k : K) :
    find k (collect f (sortEntries r entries)) = (find k entries).bind f := by
  rw [find_collect f (nodup_sortEntries r hnodup),
    find_perm (sortEntries_perm r entries) (nodup_sortEntries r hnodup)]

theorem nodup_collect_sortEntries (f : V → Option W) {entries : List (K × V)}
    (hnodup : (entries.map fst).Nodup) :
    ((collect f (sortEntries r entries)).map fst).Nodup :=
  (nodup_sortEntries r hnodup).sublist (keys_collect_sublist f _)

/-- **What is written after sorting depends on nothing but what the keys have.** -/
theorem collect_sortEntries_eq_iff [DecidableEq K] [Std.Total r] [IsTrans K r] [Std.Antisymm r]
    (f : V → Option W) {l l' : List (K × V)} (hl : (l.map fst).Nodup)
    (hl' : (l'.map fst).Nodup) :
    collect f (sortEntries r l) = collect f (sortEntries r l') ↔
      ∀ k, (find k l).bind f = (find k l').bind f := by
  constructor
  · intro h k
    rw [← find_collect_sortEntries r f hl, h, find_collect_sortEntries r f hl']
  · intro h
    have hnodup := nodup_collect_sortEntries r f hl
    have hnodup' := nodup_collect_sortEntries r f hl'
    have hmem : ∀ entry, entry ∈ collect f (sortEntries r l) ↔
        entry ∈ collect f (sortEntries r l') := by
      rintro ⟨k, image⟩
      rw [← find_eq_some_iff hnodup, ← find_eq_some_iff hnodup', find_collect_sortEntries r f hl,
        find_collect_sortEntries r f hl', h k]
    have hsorted : ∀ entries : List (K × V),
        ((collect f (sortEntries r entries)).map fst).Pairwise r := by
      intro entries
      refine List.Pairwise.sublist (keys_collect_sublist f _) ?_
      rw [keys_sortEntries]
      exact pairwise_insertionSort r _
    -- both lists are sorted and have the same entries, and an entry is determined by its key
    refine List.Perm.eq_of_pairwise ?_ (pairwise_map.mp (hsorted l))
      (pairwise_map.mp (hsorted l'))
      ((perm_ext_iff_of_nodup hnodup.of_map hnodup'.of_map).mpr hmem)
    rintro ⟨k, image⟩ ⟨k', image'⟩ hin hin' hle hge
    obtain rfl : k = k' := antisymm hle hge
    have himage := (find_eq_some_iff hnodup).mpr hin
    rw [(find_eq_some_iff hnodup).mpr ((hmem _).mpr hin')] at himage
    rw [Option.some.inj himage]

end SortedEntries
