import Mathlib.Data.List.Basic
import Mathlib.Data.Nat.Basic

/-!
# Code units

Strings are compared by their UTF-16 code units, so that a character outside the first plane counts
as its two surrogates. Different strings have different code units (`codeUnits_injective`).
-/

namespace IdleEngine

open List

/-- The UTF-16 code units of a character. -/
def utf16Units (char : Char) : List ℕ :=
  let code := char.toNat
  if code < 0x10000 then [code]
  else [0xd800 + (code - 0x10000) / 0x400, 0xdc00 + (code - 0x10000) % 0x400]

/-- The order of strings by their UTF-16 code units. -/
def utf16Lt (left right : String) : Bool :=
  decide (left.toList.flatMap utf16Units < right.toList.flatMap utf16Units)

/-- The UTF-16 code units of a string. -/
def codeUnits (s : String) : List ℕ := s.toList.flatMap utf16Units

/-- A character can be told from its code units, whatever follows them. -/
theorem utf16Units_append_inj {c d : Char} {s t : List ℕ}
    (h : utf16Units c ++ s = utf16Units d ++ t) : c = d ∧ s = t := by
  have hvalid : ∀ c : Char, c.toNat < 0xd800 ∨ (0xdfff < c.toNat ∧ c.toNat < 0x110000) :=
    fun c => c.valid
  have hc := hvalid c
  have hd := hvalid d
  have hnat : c.toNat = d.toNat ∧ s = t := by
    unfold utf16Units at h
    dsimp only at h
    split at h
    · split at h
      · simpa using h
      · -- one unit against two: a half of a pair is no character
        obtain ⟨hunit, -⟩ := cons.inj h
        omega
    · split at h
      · obtain ⟨hunit, -⟩ := cons.inj h
        omega
      · obtain ⟨hhigh, hrest⟩ := cons.inj h
        obtain ⟨hlow, hrest⟩ := cons.inj hrest
        exact ⟨by omega, hrest⟩
  exact ⟨Char.toNat_inj.mp hnat.1, hnat.2⟩

theorem utf16Units_ne_nil (c : Char) : utf16Units c ≠ [] := by
  unfold utf16Units
  dsimp only
  split
  · exact cons_ne_nil _ _
  · exact cons_ne_nil _ _

/-- **Different strings have different code units.** -/
theorem codeUnits_injective : Function.Injective codeUnits := by
  have hchars : ∀ l l' : List Char, l.flatMap utf16Units = l'.flatMap utf16Units → l = l' := by
    intro l
    induction l with
    | nil =>
      rintro (_ | ⟨d, l'⟩) h
      · rfl
      · rw [flatMap_nil, flatMap_cons] at h
        exact absurd (append_eq_nil_iff.mp h.symm).1 (utf16Units_ne_nil d)
    | cons c l ih =>
      rintro (_ | ⟨d, l'⟩) h
      · rw [flatMap_nil, flatMap_cons] at h
        exact absurd (append_eq_nil_iff.mp h).1 (utf16Units_ne_nil c)
      · rw [flatMap_cons, flatMap_cons] at h
        obtain ⟨rfl, hrest⟩ := utf16Units_append_inj h
        rw [ih l' hrest]
  intro s t h
  exact String.toList_injective (hchars _ _ h)

end IdleEngine
