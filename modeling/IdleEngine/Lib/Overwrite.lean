import Mathlib.Data.List.Basic
import Mathlib.Data.List.Nodup
import Mathlib.Logic.Function.Basic

/-!
# Overwriting a table along a list of indices

`overwrite g l f` visits the indices of `l` and rewrites each entry of the table `f` by `g`. When
rewriting twice is the same as rewriting once, the order and the multiplicity of the visits do
not matter (`overwrite_apply`).

`patch base changes` writes listed values into a table. A table that is patched with the
entries in which a new table differs from the old one becomes the new table
(`patch_agrees`).

A loop whose steps each touch one place is seen at a single place as the one step that touches it
(`foldl_view_once`).
-/

open List

namespace Overwrite

variable {ι ρ : Type*} [DecidableEq ι]

/-- Rewrite the entries at the indices of a list. -/
def overwrite (g : ι → ρ → ρ) (l : List ι) (f : ι → ρ) : ι → ρ :=
  l.foldl (fun f i => Function.update f i (g i (f i))) f

theorem overwrite_apply {g : ι → ρ → ρ} (hg : ∀ i r, g i (g i r) = g i r) (l : List ι)
    (f : ι → ρ) (i : ι) : overwrite g l f i = if i ∈ l then g i (f i) else f i := by
  induction l generalizing f with
  | nil => simp [overwrite]
  | cons j l ih =>
    have hstep : overwrite g (j :: l) f = overwrite g l (Function.update f j (g j (f j))) := rfl
    rw [hstep, ih]
    by_cases hij : i = j
    · subst hij
      simp [hg]
    · simp [hij]

/-- Write listed values into a table. -/
def patch (base : ι → ρ) (changes : List (ι × ρ)) : ι → ρ :=
  changes.foldl (fun f change => Function.update f change.1 change.2) base

/-- A patch with the entries of `next` at the indices of `l` reads `next` there. -/
theorem patch_map (base next : ι → ρ) (l : List ι) (i : ι) :
    patch base (l.map fun j => (j, next j)) i = if i ∈ l then next i else base i := by
  induction l generalizing base with
  | nil => simp [patch]
  | cons j l ih =>
    have hstep : patch base ((j :: l).map fun j => (j, next j)) =
        patch (Function.update base j (next j)) (l.map fun j => (j, next j)) := rfl
    rw [hstep, ih]
    by_cases hij : i = j
    · subst hij
      simp
    · simp [hij]

/-- **Patch law.** If a copy agrees with the old table, and the new table agrees with the old one
off the list, then the copy patched along the list agrees with the new table. -/
theorem patch_agrees {R : ρ → ρ → Prop} [Std.Refl R] [IsTrans ρ R] {copy old next : ι → ρ}
    {l : List ι} (hcopy : ∀ i, R (copy i) (old i)) (hnext : ∀ i, i ∉ l → R (old i) (next i))
    (i : ι) : R (patch copy (l.map fun j => (j, next j)) i) (next i) := by
  rw [patch_map]
  split
  · exact Std.Refl.refl _
  · next hi => exact IsTrans.trans _ _ _ (hcopy i) (hnext i hi)

/-! ### A loop seen at one place -/

section Views

variable {σ α ν : Type*} {I : σ → Prop} {v : σ → ν} {f : σ → α → σ}

/-- A loop none of whose steps touches the place leaves it as it is. -/
theorem foldl_view_off {l : List α} (hI : ∀ s, I s → ∀ a ∈ l, I (f s a))
    (hoff : ∀ s, I s → ∀ a ∈ l, v (f s a) = v s) {s : σ} (hs : I s) :
    v (l.foldl f s) = v s := by
  induction l generalizing s with
  | nil => rfl
  | cons a l ih =>
    rw [foldl_cons, ih (fun s hs b hb => hI s hs b (mem_cons_of_mem a hb))
      (fun s hs b hb => hoff s hs b (mem_cons_of_mem a hb)) (hI s hs a mem_cons_self)]
    exact hoff s hs a mem_cons_self

/-- A loop one of whose steps touches the place acts on it as that step. -/
theorem foldl_view_once {P : α → Bool} {l : List α} {r : α} {g : ν → ν} (hl : l.filter P = [r])
    (hI : ∀ s, I s → ∀ a ∈ l, I (f s a))
    (hoff : ∀ s, I s → ∀ a ∈ l, P a = false → v (f s a) = v s)
    (hon : ∀ s, I s → v (f s r) = g (v s)) {s : σ} (hs : I s) :
    v (l.foldl f s) = g (v s) := by
  induction l generalizing s with
  | nil => cases hl
  | cons a l ih =>
    have hrest : ∀ s, I s → ∀ b ∈ l, I (f s b) :=
      fun s hs b hb => hI s hs b (mem_cons_of_mem a hb)
    rw [foldl_cons]
    cases hP : P a with
    | true =>
      rw [filter_cons_of_pos hP] at hl
      obtain ⟨rfl, hnone⟩ := cons.inj hl
      have hlater : ∀ b ∈ l, P b = false := fun b hb => by
        by_contra hb'
        exact ne_nil_of_mem (mem_filter.mpr ⟨hb, by simpa using hb'⟩) hnone
      calc v (l.foldl f (f s a))
          = v (f s a) := foldl_view_off hrest
            (fun s hs b hb => hoff s hs b (mem_cons_of_mem a hb) (hlater b hb))
            (hI s hs a mem_cons_self)
        _ = g (v s) := hon s hs
    | false =>
      rw [filter_cons_of_neg (by simp [hP])] at hl
      rw [ih hl hrest (fun s hs b hb => hoff s hs b (mem_cons_of_mem a hb))
        (hI s hs a mem_cons_self), hoff s hs a mem_cons_self hP]

end Views

end Overwrite
