import Mathlib.Data.List.Basic

/-!
# Computations that may fail

Inversion and iteration rules for `Except`: what a sequence that succeeds says about its parts.
-/

namespace Outcome

open List

variable {ε α β : Type}

variable {x : Except ε α} {f : α → Except ε β} {b : β}

/-- A sequence that succeeds is two successes. -/
theorem bind_ok (h : x >>= f = .ok b) :
    ∃ a, x = .ok a ∧ f a = .ok b := by
  cases x with
  | error e => cases h
  | ok a => exact ⟨a, rfl, h⟩

variable {a : α}

theorem toOption_eq_some_iff : x.toOption = some a ↔ x = .ok a := by
  cases x <;> simp [Except.toOption]

/-- The image of a result is the image of a success. -/
theorem map_ok {f : α → β} (h : x.map f = .ok b) :
    ∃ a, x = .ok a ∧ f a = b := by
  cases x with
  | error e => cases h
  | ok a => exact ⟨a, rfl, Except.ok.inj h⟩

variable {l : List α}

/-- **Iteration rule.** What every step that succeeds preserves, a loop that succeeds preserves. -/
theorem foldlM_ok {f : β → α → Except ε β} {P : β → Prop} {b' : β} (hb : P b)
    (hstep : ∀ b, P b → ∀ a ∈ l, ∀ b', f b a = .ok b' → P b') (h : l.foldlM f b = .ok b') :
    P b' := by
  induction l generalizing b with
  | nil =>
    obtain rfl := Except.ok.inj h
    exact hb
  | cons a l ih =>
    rw [foldlM_cons] at h
    obtain ⟨c, hc, hrest⟩ := bind_ok h
    exact ih (hstep b hb a mem_cons_self c hc)
      (fun b hb a ha => hstep b hb a (mem_cons_of_mem _ ha)) hrest

variable {out : List β}

/-- A successful map has, at each place, the result of that place. -/
theorem mapM_getElem? (h : l.mapM f = .ok out) {k : ℕ} (hk : l[k]? = some a) :
    ∃ b, out[k]? = some b ∧ f a = .ok b := by
  induction l generalizing out k with
  | nil => cases hk
  | cons a' l ih =>
    rw [mapM_cons] at h
    obtain ⟨b, hb, hrest⟩ := bind_ok h
    obtain ⟨rest, hl, hout⟩ := bind_ok hrest
    obtain rfl : b :: rest = out := Except.ok.inj hout
    cases k with
    | zero =>
      obtain rfl := Option.some.inj hk
      exact ⟨b, rfl, hb⟩
    | succ k => exact ih hl hk

/-- Where a loop succeeds, each of its steps does. -/
theorem forM_ok {f : α → Except ε PUnit} (h : l.forM f = .ok ()) (ha : a ∈ l) : f a = .ok () := by
  induction l with
  | nil => cases ha
  | cons a' l ih =>
    change (f a' >>= fun _ => l.forM f) = .ok () at h
    obtain ⟨u, hfirst, hrest⟩ := bind_ok h
    rcases mem_cons.mp ha with rfl | hmem
    · exact hfirst
    · exact ih hrest hmem

/-- A loop of successes succeeds. -/
theorem forM_eq_ok {f : α → Except ε PUnit} (h : ∀ a ∈ l, f a = .ok ()) :
    l.forM f = .ok () := by
  induction l with
  | nil => rfl
  | cons a l ih =>
    change (f a >>= fun _ => l.forM f) = .ok ()
    rw [h a mem_cons_self]
    exact ih fun b hb => h b (mem_cons_of_mem a hb)

/-- A test of a result that holds is a success. -/
theorem exists_ok {p : α → Bool} (h : x.toOption.any p = true) :
    ∃ a, x = .ok a ∧ p a = true := by
  cases x with
  | error e => cases h
  | ok a => exact ⟨a, rfl, h⟩

/-- A sequence succeeds exactly when both of its parts do. -/
theorem bind_eq_ok :
    x >>= f = .ok b ↔ ∃ a, x = .ok a ∧ f a = .ok b := by
  constructor
  · exact bind_ok
  · rintro ⟨a, rfl, hf⟩
    exact hf

theorem exists_bind_ok :
    (∃ b, x >>= f = .ok b) ↔ ∃ a, x = .ok a ∧ ∃ b, f a = .ok b := by
  constructor
  · rintro ⟨b, h⟩
    obtain ⟨a, hx, hf⟩ := bind_eq_ok.mp h
    exact ⟨a, hx, b, hf⟩
  · rintro ⟨a, hx, b, hf⟩
    exact ⟨b, bind_eq_ok.mpr ⟨a, hx, hf⟩⟩

theorem exists_map_ok {f : α → β} :
    (∃ b, x.map f = .ok b) ↔ ∃ a, x = .ok a := by
  constructor
  · rintro ⟨b, h⟩
    obtain ⟨a, hx, -⟩ := map_ok h
    exact ⟨a, hx⟩
  · rintro ⟨a, rfl⟩
    exact ⟨f a, rfl⟩

/-- A check whose result is not used, and what follows it. -/
theorem check_bind_eq_ok {x : Except ε Unit} {f : Unit → Except ε β} :
    x >>= f = .ok b ↔ x = .ok () ∧ f () = .ok b := by
  rw [bind_eq_ok]
  exact ⟨fun ⟨_, hx, hf⟩ => ⟨hx, hf⟩, fun ⟨hx, hf⟩ => ⟨(), hx, hf⟩⟩

/-- **A map succeeds exactly when it does at every place.** -/
theorem mapM_eq_ok :
    l.mapM f = .ok out ↔ l.map f = out.map .ok := by
  induction l generalizing out with
  | nil =>
    rcases out with _ | ⟨b, out⟩
    · exact ⟨fun _ => rfl, fun _ => rfl⟩
    · exact ⟨fun h => (cons_ne_nil b out (Except.ok.inj h).symm).elim, fun h => by cases h⟩
  | cons a l ih =>
    rw [mapM_cons, bind_eq_ok]
    constructor
    · rintro ⟨b, hb, hrest⟩
      obtain ⟨rest, hl, hout⟩ := bind_ok hrest
      obtain rfl : b :: rest = out := Except.ok.inj hout
      rw [map_cons, map_cons, hb, ih.mp hl]
    · intro h
      rcases out with _ | ⟨b, out⟩
      · cases h
      · rw [map_cons, map_cons] at h
        obtain ⟨hb, hl⟩ := cons.inj h
        refine ⟨b, hb, ?_⟩
        rw [ih.mpr hl]
        rfl

/-- A map succeeds as soon as it does on every element. -/
theorem exists_mapM_ok (h : ∀ a ∈ l, ∃ b, f a = .ok b) :
    ∃ out, l.mapM f = .ok out := by
  induction l with
  | nil => exact ⟨[], rfl⟩
  | cons a l ih =>
    obtain ⟨b, hb⟩ := h a mem_cons_self
    obtain ⟨out, hout⟩ := ih fun a ha => h a (mem_cons_of_mem _ ha)
    refine ⟨b :: out, ?_⟩
    rw [mapM_cons, hb, hout]
    rfl

/-- Every element of a map that succeeds has a result. -/
theorem exists_ok_of_mapM (h : l.mapM f = .ok out) (ha : a ∈ l) : ∃ b ∈ out, f a = .ok b := by
  have hmem : f a ∈ out.map .ok := by
    rw [← mapM_eq_ok.mp h]
    exact mem_map_of_mem ha
  obtain ⟨b, hb, hfb⟩ := mem_map.mp hmem
  exact ⟨b, hb, hfb.symm⟩

/-- A fold whose steps all return returns. -/
theorem foldlM_returns {f : β → α → Except ε β} (h : ∀ b, ∀ a ∈ l, ∃ b', f b a = .ok b') (b : β) :
    ∃ b', l.foldlM f b = .ok b' := by
  induction l generalizing b with
  | nil => exact ⟨b, rfl⟩
  | cons a l ih =>
    obtain ⟨b', hb'⟩ := h b a mem_cons_self
    rw [foldlM_cons, hb']
    exact ih (fun b a ha => h b a (mem_cons_of_mem _ ha)) b'

/-- A loop whose passes agree with another loop wherever they return agrees with it when it
returns. -/
theorem foldlM_eq_foldl {f : β → α → Except ε β} {g : β → α → β}
    (hstep : ∀ b a b', f b a = .ok b' → b' = g b a) {b' : β} (h : l.foldlM f b = .ok b') :
    b' = l.foldl g b := by
  induction l generalizing b with
  | nil => exact (Except.ok.inj h).symm
  | cons a l ih =>
    rw [foldlM_cons] at h
    obtain ⟨t, hfirst, hrest⟩ := bind_ok h
    rw [foldl_cons, ← hstep b a t hfirst]
    exact ih hrest

end Outcome
