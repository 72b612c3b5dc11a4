import Mathlib.Data.Int.ModEq
import Mathlib.Data.List.DropRight
import Mathlib.Data.List.ReduceOption
import Mathlib.Data.List.Rotate

/-!
# Rings

A ring of slots with a write position keeps the last entries of a growing list. `Ring.Holds` says
which: read around the ring from the write position, the slots are first those still free and then
the entries, oldest first. Writing an entry keeps this (`Ring.Holds.write` while slots are free,
`Ring.Holds.overwrite` when none is, which gives up the oldest entry); both are one fact about
rotations, `List.rotate_set`.

`List.rtake` takes the last entries; what a full ring holds of `l` is `l.rtake capacity`.

A ring may also be read from a head, with a count of its entries, and lose entries at the head
(`Ring.Queued`).
-/

open List

open Nat

namespace List

variable {α : Type*}

/-- Reading on from the slot after the one just written: the slot read first is now read last. -/
theorem rotate_set (slots : List α) {i : ℕ} (hi : i < slots.length) (a : α) :
    (slots.set i a).rotate ((i + 1) % slots.length) = (slots.rotate i).tail ++ [a] := by
  have hlength : (slots.set i a).length = slots.length := length_set
  rw [← hlength, rotate_mod, rotate_eq_drop_append_take (by omega),
    rotate_eq_drop_append_take hi.le, drop_set_of_lt (lt_succ_self i),
    drop_eq_getElem_cons hi, cons_append, tail_cons, append_assoc,
    take_set, take_add_one]
  have hgone : (slots.take i).length ≤ i := by
    rw [length_take]
    omega
  rw [getElem?_eq_getElem hi, Option.toList_some, set_append_right _ _ hgone]
  have hzero : i - (slots.take i).length = 0 := by
    rw [length_take]
    omega
  rw [hzero, set_cons_zero]

/-- The slot that is read first. -/
theorem head?_rotate_of_lt (slots : List α) {i : ℕ} (hi : i < slots.length) :
    (slots.rotate i).head? = slots[i]? := by
  rw [rotate_eq_drop_append_take hi.le, drop_eq_getElem_cons hi,
    getElem?_eq_getElem hi]
  rfl

/-- Taking the last entries first changes nothing if no more are taken later. -/
theorem rtake_append_rtake (l m : List α) (n : ℕ) :
    (l.rtake n ++ m).rtake n = (l ++ m).rtake n := by
  rw [rtake_eq_reverse_take_reverse, rtake_eq_reverse_take_reverse,
    rtake_eq_reverse_take_reverse, reverse_append, reverse_append,
    reverse_reverse, take_append, take_append, take_take,
    min_eq_left (sub_le n _)]

theorem rtake_of_length_le {l : List α} {n : ℕ} (h : l.length ≤ n) : l.rtake n = l := by
  rw [rtake, Nat.sub_eq_zero_of_le h, drop_zero]

theorem length_rtake_le (l : List α) (n : ℕ) : (l.rtake n).length ≤ n := by
  rw [rtake, length_drop]
  omega

theorem map_rtake {β : Type*} (f : α → β) (l : List α) (n : ℕ) :
    (l.rtake n).map f = (l.map f).rtake n := by
  rw [rtake, rtake, map_drop, length_map]

/-! ### Lists with increasing keys -/

section Increasing

variable {β : Type*} [LinearOrder β] {key : α → β} {l : List α}

/-- Elements that are too small are in front. -/
theorem dropWhile_lt_eq_filter (h : l.Pairwise (key · < key ·)) (least : β) :
    l.dropWhile (fun a => decide (key a < least)) = l.filter fun a => decide (least ≤ key a) := by
  induction l with
  | nil => rfl
  | cons a l ih =>
    obtain ⟨ha, hl⟩ := pairwise_cons.mp h
    by_cases hless : key a < least
    · rw [dropWhile_cons_of_pos (by simpa using hless), ih hl, filter_cons_of_neg]
      simpa using hless
    · -- and so is everything behind `a` large enough
      have hall : ∀ b ∈ a :: l, decide (least ≤ key b) = true := by
        intro b hb
        rcases mem_cons.mp hb with rfl | hb
        · simpa using hless
        · have hle := (not_lt.mp hless).trans (ha b hb).le
          simpa using hle
      rw [dropWhile_cons_of_neg (by simpa using hless), filter_eq_self.mpr hall]

/-- Of the elements that are large enough, the last are large enough elements of the last. -/
theorem rtake_filter_le (h : l.Pairwise (key · < key ·)) (least : β) (n : ℕ) :
    (l.filter fun a => decide (least ≤ key a)).rtake n =
      (l.rtake n).filter fun a => decide (least ≤ key a) := by
  induction l with
  | nil => simp
  | cons a l ih =>
    obtain ⟨ha, hl⟩ := pairwise_cons.mp h
    by_cases hle : least ≤ key a
    · have hall : ∀ b ∈ a :: l, decide (least ≤ key b) = true := by
        intro b hb
        rcases mem_cons.mp hb with rfl | hb
        · simpa using hle
        · simpa using hle.trans (ha b hb).le
      rw [filter_eq_self.mpr hall, filter_eq_self.mpr]
      exact fun b hb => hall b (mem_of_mem_drop hb)
    · have hgone : (a :: l).filter (fun b => decide (least ≤ key b)) =
          l.filter fun b => decide (least ≤ key b) :=
        filter_cons_of_neg (by simpa using hle)
      rw [hgone]
      by_cases hfits : l.length < n
      · rw [rtake_of_length_le (l := a :: l) hfits, hgone]
        exact rtake_of_length_le ((length_filter_le _ _).trans hfits.le)
      · have hshort : (a :: l).rtake n = l.rtake n := by
          rw [rtake, rtake, length_cons, succ_sub (not_lt.mp hfits),
            drop_succ_cons]
        rw [hshort, ih hl]

end Increasing

end List

namespace Ring

variable {α : Type*} {slots : List (Option α)} {i : ℕ} {entries : List α}

/-- The slots hold the entries, oldest first, and the next entry goes to slot `i`. -/
structure Holds (slots : List (Option α)) (i : ℕ) (entries : List α) : Prop where
  lt : i < slots.length
  fits : entries.length ≤ slots.length
  rotate : slots.rotate i =
    List.replicate (slots.length - entries.length) none ++ entries.map some

theorem Holds.empty {capacity : ℕ} (hpos : 0 < capacity) :
    Holds (replicate capacity (none : Option α)) 0 [] where
  lt := hpos.trans_eq length_replicate.symm
  fits := zero_le _
  rotate := by simp

/-- The entries are those in the slots. -/
theorem Holds.mem_iff (h : Holds slots i entries) (a : α) : some a ∈ slots ↔ a ∈ entries := by
  rw [← mem_rotate (n := i), h.rotate]
  simp

/-- The filled slots are the entries in some order. -/
theorem Holds.perm (h : Holds slots i entries) : slots.reduceOption.Perm entries := by
  have hrotate : (slots.rotate i).reduceOption = entries := by
    rw [h.rotate, reduceOption_append, reduceOption_replicate_none, nil_append]
    simp [reduceOption, filterMap_map]
  rw [← hrotate]
  exact (rotate_perm slots i).symm.filterMap id

/-- **Writing to a free slot** keeps every entry. -/
theorem Holds.write (h : Holds slots i entries) (hfree : entries.length < slots.length) (a : α) :
    Holds (slots.set i (some a)) ((i + 1) % slots.length) (entries ++ [a]) where
  lt := (mod_lt _ (zero_lt_of_lt h.lt)).trans_eq length_set.symm
  fits := by
    rw [length_append, length_set]
    exact hfree
  rotate := by
    obtain ⟨free, hcount⟩ : ∃ free, slots.length - entries.length = free + 1 :=
      ⟨slots.length - entries.length - 1, by omega⟩
    have hrest : slots.length - (entries.length + 1) = free := by omega
    rw [rotate_set slots h.lt, h.rotate, hcount, replicate_succ, cons_append,
      tail_cons, length_set, length_append, length_singleton, hrest,
      map_append, append_assoc]
    rfl

/-- **Writing to a full ring** overwrites the oldest entry. -/
theorem Holds.overwrite {oldest : α} (h : Holds slots i (oldest :: entries))
    (hfull : entries.length + 1 = slots.length) (a : α) :
    slots[i]? = some (some oldest) ∧
      Holds (slots.set i (some a)) ((i + 1) % slots.length) (entries ++ [a]) := by
  have hrotate : slots.rotate i = some oldest :: entries.map some := by
    rw [h.rotate, length_cons, hfull, Nat.sub_self]
    rfl
  refine ⟨?_, (Nat.mod_lt _ (Nat.zero_lt_of_lt h.lt)).trans_eq length_set.symm, ?_, ?_⟩
  · rw [← head?_rotate_of_lt slots h.lt, hrotate]
    rfl
  · rw [length_append, length_set]
    exact hfull.le
  · rw [rotate_set slots h.lt, hrotate, tail_cons, length_set, length_append,
      length_singleton, hfull, Nat.sub_self, map_append]
    rfl

/-! ### Reading from a head -/

/-- The entries, oldest first, are in the slots from `head` on; the slots after them are free. -/
structure Queued (slots : List (Option α)) (head : ℕ) (entries : List α) : Prop where
  lt : head < slots.length
  fits : entries.length ≤ slots.length
  rotate : slots.rotate head =
    entries.map some ++ List.replicate (slots.length - entries.length) none

theorem Queued.empty {capacity : ℕ} (hpos : 0 < capacity) :
    Queued (replicate capacity (none : Option α)) 0 [] where
  lt := hpos.trans_eq length_replicate.symm
  fits := zero_le _
  rotate := by simp

/-- The slot of an entry. -/
theorem Queued.read {head : ℕ} (h : Queued slots head entries) {offset : ℕ}
    (hoffset : offset < entries.length) :
    slots[(head + offset) % slots.length]? = some (some entries[offset]) := by
  have hlt : offset < (slots.rotate head).length := by
    rw [length_rotate]
    exact hoffset.trans_le h.fits
  have hslot : (slots.rotate head)[offset]? = some (some entries[offset]) := by
    rw [h.rotate, getElem?_append_left (by rwa [length_map]), getElem?_map,
      getElem?_eq_getElem hoffset]
    rfl
  rw [getElem?_eq_getElem hlt, getElem_rotate] at hslot
  rw [add_comm head offset,
    getElem?_eq_getElem (mod_lt _ (zero_lt_of_lt h.lt)), hslot]

/-- **Writing behind the entries** keeps every one, while a slot is free. -/
theorem Queued.push {head : ℕ} (h : Queued slots head entries)
    (hfree : entries.length < slots.length) (a : α) :
    Queued (slots.set ((head + entries.length) % slots.length) (some a)) head
      (entries ++ [a]) where
  lt := h.lt.trans_eq length_set.symm
  fits := by
    rw [length_append, length_set]
    exact hfree
  rotate := by
    have hset : (slots.set ((head + entries.length) % slots.length) (some a)).rotate head =
        (slots.rotate head).set entries.length (some a) := by
      refine ext_getElem (by simp) fun j hj _ => ?_
      have hj : j < slots.length := by simpa using hj
      rw [getElem_rotate, getElem_set, getElem_set, getElem_rotate]
      simp only [length_set]
      -- both positions are below the length, so that equal slots are equal positions
      have hsame : (head + entries.length) % slots.length = (j + head) % slots.length ↔
          entries.length = j := by
        rw [Nat.add_comm j head]
        refine ⟨fun hmod => ?_, fun heq => heq ▸ rfl⟩
        have hmod := Nat.ModEq.add_left_cancel' head hmod
        exact Nat.ModEq.eq_of_lt_of_lt hmod hfree hj
      simp only [hsame]
    obtain ⟨free, hcount⟩ : ∃ free, slots.length - entries.length = free + 1 :=
      ⟨slots.length - entries.length - 1, by omega⟩
    have hrest : slots.length - (entries.length + 1) = free := by omega
    rw [hset, h.rotate, set_append_right _ _ (by rw [length_map]), length_map,
      Nat.sub_self, hcount, replicate_succ, set_cons_zero, length_set,
      length_append, length_singleton, hrest, map_append, append_assoc]
    rfl

/-- **Writing to a full ring** overwrites the oldest entry, and the head moves on. -/
theorem Queued.overwrite {head : ℕ} {oldest : α} (h : Queued slots head (oldest :: entries))
    (hfull : entries.length + 1 = slots.length) (a : α) :
    Queued (slots.set head (some a)) ((head + 1) % slots.length) (entries ++ [a]) where
  lt := (Nat.mod_lt _ (Nat.zero_lt_of_lt h.lt)).trans_eq length_set.symm
  fits := by
    rw [length_append, length_set]
    exact hfull.le
  rotate := by
    rw [rotate_set slots h.lt, h.rotate, map_cons, cons_append, tail_cons,
      length_cons, hfull, length_set, length_append, length_singleton, hfull,
      Nat.sub_self, map_append, replicate_zero, append_nil, append_nil]
    rfl

/-- **Freeing the slot at the head** gives up the oldest entry. -/
theorem Queued.drop {head : ℕ} {oldest : α} (h : Queued slots head (oldest :: entries)) :
    Queued (slots.set head none) ((head + 1) % slots.length) entries where
  lt := (mod_lt _ (zero_lt_of_lt h.lt)).trans_eq length_set.symm
  fits := (le_succ _).trans (h.fits.trans_eq length_set.symm)
  rotate := by
    have hfits := h.fits
    rw [length_cons] at hfits
    obtain ⟨free, hcount⟩ : ∃ free, slots.length - entries.length = free + 1 :=
      ⟨slots.length - entries.length - 1, by omega⟩
    have hrest : slots.length - (entries.length + 1) = free := by omega
    rw [rotate_set slots h.lt, h.rotate, map_cons, cons_append, tail_cons,
      length_cons, hrest, length_set, hcount, replicate_succ', append_assoc]

end Ring
