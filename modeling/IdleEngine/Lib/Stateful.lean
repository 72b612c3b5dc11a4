import Mathlib.Logic.Relation

/-!
# Computations that change a state and may throw

A computation in `EStateM` that throws keeps what it has done to the state. Three judgements on
such computations, each with one rule per way of composing them:

* `Performs step m`: what `m` does to the state, whether it returns or throws, is a sequence of
  steps of a relation. What every step preserves, `m` then preserves (`Performs.keeps`).
* `Yields P m`: whatever a run of `m` returns satisfies `P`.
* `Lockstep R m m'`: from related states the two computations end alike, with the same value or
  the same error, in related states.

`zoom` runs a computation on a part of the state; its steps are steps of the whole
(`Performs.zoom_at`).
-/

namespace Stateful

open Relation

variable {ε σ τ α β : Type}

/-- The state a computation ends in. -/
def final : EStateM.Result ε σ α → σ
  | .ok _ s => s
  | .error _ s => s

/-- What a computation returns, with the state; what it throws, without. -/
def outcome : EStateM.Result ε σ α → Except ε (α × σ)
  | .ok a s => .ok (a, s)
  | .error e _ => .error e

variable {s : σ}

theorem outcome_ok {r : EStateM.Result ε σ α} {a : α} (h : outcome r = .ok (a, s)) :
    r = .ok a s := by
  cases r with
  | ok a' s' =>
    obtain ⟨rfl, rfl⟩ := Prod.mk.inj (Except.ok.inj h)
    rfl
  | error e s' => cases h

/-- A computation on a part of the state. -/
def zoom (get : σ → τ) (set : τ → σ → σ) (m : EStateM ε τ α) : EStateM ε σ α := fun s =>
  match m (get s) with
  | .ok a t => .ok a (set t s)
  | .error e t => .error e (set t s)

variable {m : EStateM ε σ α}

/-- What two computations in a row return, the second returns. -/
theorem bind_ok {f : α → EStateM ε σ β} {t : σ} {b : β} (h : (m >>= f) s = .ok b t) :
    ∃ a s', m s = .ok a s' ∧ f a s' = .ok b t := by
  change EStateM.bind m f s = .ok b t at h
  rw [EStateM.bind] at h
  cases hrun : m s with
  | ok a s' =>
    rw [hrun] at h
    exact ⟨a, s', rfl, h⟩
  | error e s' =>
    rw [hrun] at h
    cases h

/-- Where the first computation returns, the second goes on. -/
theorem run_bind_ok {s' : σ} {a : α} (h : m s = .ok a s') (f : α → EStateM ε σ β) :
    (m >>= f) s = f a s' := by
  change EStateM.bind m f s = f a s'
  rw [EStateM.bind, h]

/-- Where the first computation throws, both do. -/
theorem run_bind_error {s' : σ} {e : ε} (h : m s = .error e s') (f : α → EStateM ε σ β) :
    (m >>= f) s = .error e s' := by
  change EStateM.bind m f s = .error e s'
  rw [EStateM.bind, h]

/-- A computation whose value is only looked at ends where it does. -/
theorem final_bind_pure (m : EStateM ε σ α) (f : α → β) (s : σ) :
    final ((m >>= fun a => pure (f a)) s) = final (m s) := by
  change final (EStateM.bind m (fun a => pure (f a)) s) = _
  rw [EStateM.bind]
  cases m s <;> rfl

/-- A computation that reads the state first goes on with the state it starts from. -/
theorem run_get_bind (f : σ → EStateM ε σ β) (s : σ) :
    ((MonadState.get : EStateM ε σ σ) >>= f) s = f s s := rfl

/-! ### Sequences of steps -/

/-- The effect of every run of `m` is a sequence of steps. -/
def Performs (step : σ → σ → Prop) (m : EStateM ε σ α) : Prop :=
  ∀ s, ReflTransGen step s (final (m s))

namespace Performs

variable {step : σ → σ → Prop}

theorem pure (a : α) : Performs step (Pure.pure a : EStateM ε σ α) := fun _ => .refl

theorem throw (e : ε) : Performs step (MonadExcept.throw e : EStateM ε σ α) := fun _ => .refl

theorem get : Performs step (MonadState.get : EStateM ε σ σ) := fun _ => .refl

theorem modify {f : σ → σ} (h : ∀ s, ReflTransGen step s (f s)) :
    Performs step (modify f : EStateM ε σ PUnit) := h

variable {m : EStateM ε σ α}

/-- The second of two computations starts where the first ends. -/
theorem bind_from {f : α → EStateM ε σ β} {s : σ} (hm : ReflTransGen step s (final (m s)))
    (hf : ∀ a t, m s = .ok a t → ReflTransGen step t (final (f a t))) :
    ReflTransGen step s (final ((m >>= f) s)) := by
  change ReflTransGen step s (final (EStateM.bind m f s))
  rw [EStateM.bind]
  cases hrun : m s with
  | ok a t =>
    rw [hrun] at hm
    exact hm.trans (hf a t hrun)
  | error e t =>
    rw [hrun] at hm
    exact hm

theorem bind {f : α → EStateM ε σ β} (hm : Performs step m) (hf : ∀ a, Performs step (f a)) :
    Performs step (m >>= f) :=
  fun s => bind_from (hm s) fun a t _ => hf a t

theorem forM {l : List α} {f : α → EStateM ε σ PUnit} (hf : ∀ a ∈ l, Performs step (f a)) :
    Performs step (l.forM f) := by
  induction l with
  | nil => exact pure _
  | cons a l ih =>
    exact bind (hf a List.mem_cons_self) fun _ =>
      ih fun b hb => hf b (List.mem_cons_of_mem a hb)

theorem modifyGet {f : σ → α × σ} (h : ∀ s, ReflTransGen step s (f s).2) :
    Performs step (modifyGet f : EStateM ε σ α) := h

theorem foldlM {l : List α} {f : β → α → EStateM ε σ β} (hf : ∀ b, ∀ a ∈ l, Performs step (f b a))
    (b : β) : Performs step (l.foldlM f b) := by
  induction l generalizing b with
  | nil => exact pure b
  | cons a l ih =>
    rw [List.foldlM_cons]
    exact bind (hf b a List.mem_cons_self) fun b' =>
      ih (fun b a' ha => hf b a' (List.mem_cons_of_mem a ha)) b'

/-- Steps of one kind are steps of a wider kind. -/
theorem mono {step' : σ → σ → Prop} (hm : Performs step m) (h : ∀ s s', step s s' → step' s s') :
    Performs step' m :=
  fun s => ReflTransGen.mono h _ _ (hm s)

/-- Steps of a part are steps of the whole. -/
theorem zoom_at {get : τ → σ} {set : σ → τ → τ} {step' : τ → τ → Prop} {t : τ}
    (h : ReflTransGen step (get t) (final (m (get t)))) (hself : set (get t) t = t)
    (hstep : ∀ s s', step s s' → step' (set s t) (set s' t)) :
    ReflTransGen step' t (final (Stateful.zoom get set m t)) := by
  have hrun : ReflTransGen step' (set (get t) t) (set (final (m (get t))) t) :=
    h.lift (fun s => set s t) hstep
  rw [hself] at hrun
  rw [Stateful.zoom]
  cases hpart : m (get t) with
  | ok a s => rwa [hpart] at hrun
  | error e s => rwa [hpart] at hrun

/-- **Invariant rule.** What every step preserves, a computation made of steps preserves. -/
theorem keeps (h : Performs step m) {P : σ → Prop} (hstep : ∀ s s', P s → step s s' → P s') {s : σ}
    (hs : P s) : P (final (m s)) := by
  have hrun := h s
  generalize final (m s) = s' at hrun
  induction hrun with
  | refl => exact hs
  | tail _ hlast ih => exact hstep _ _ ih hlast

end Performs

/-! ### What is returned -/

/-- Whatever a run of `m` returns has a property. -/
def Yields (P : α → Prop) (m : EStateM ε σ α) : Prop := ∀ s a s', m s = .ok a s' → P a

namespace Yields

variable {P : α → Prop} {Q : β → Prop}

theorem pure {a : α} (h : P a) : Yields P (Pure.pure a : EStateM ε σ α) := by
  intro s b s' hrun
  obtain ⟨rfl, -⟩ := EStateM.Result.ok.inj hrun
  exact h

/-- What the second of two computations returns, may depend on what is known of the first. -/
theorem bind {m : EStateM ε σ α} {f : α → EStateM ε σ β} (hm : Yields P m)
    (hf : ∀ a, P a → Yields Q (f a)) : Yields Q (m >>= f) := by
  intro s b t hrun
  obtain ⟨a, s', hfirst, hsecond⟩ := bind_ok hrun
  exact hf a (hm s a s' hfirst) s' b t hsecond

/-- What the second of two computations returns, whatever the first one does. -/
theorem of_bind {m : EStateM ε σ α} {f : α → EStateM ε σ β} (hf : ∀ a, Yields Q (f a)) :
    Yields Q (m >>= f) := by
  intro s b t hrun
  obtain ⟨a, s', -, hsecond⟩ := bind_ok hrun
  exact hf a s' b t hsecond

end Yields

/-! ### Runs side by side -/

/-- The same value or the same error, in related states. -/
inductive Alike (R : σ → τ → Prop) : EStateM.Result ε σ α → EStateM.Result ε τ α → Prop
  | ok (a : α) {s : σ} {t : τ} (h : R s t) : Alike R (.ok a s) (.ok a t)
  | error (e : ε) {s : σ} {t : τ} (h : R s t) : Alike R (.error e s) (.error e t)

/-- From related states the two computations end alike. -/
def Lockstep (R : σ → τ → Prop) (m : EStateM ε σ α) (m' : EStateM ε τ α) : Prop :=
  ∀ s t, R s t → Alike R (m s) (m' t)

namespace Lockstep

variable {R : σ → τ → Prop}

theorem pure (a : α) :
    Lockstep R (Pure.pure a : EStateM ε σ α) (Pure.pure a : EStateM ε τ α) :=
  fun _ _ h => .ok a h

theorem throw (e : ε) :
    Lockstep R (MonadExcept.throw e : EStateM ε σ α) (MonadExcept.throw e : EStateM ε τ α) :=
  fun _ _ h => .error e h

theorem modify {f : σ → σ} {g : τ → τ} (h : ∀ s t, R s t → R (f s) (g t)) :
    Lockstep R (modify f : EStateM ε σ PUnit) (modify g : EStateM ε τ PUnit) :=
  fun s t hst => .ok _ (h s t hst)

theorem modifyGet {f : σ → α × σ} {g : τ → α × τ}
    (h : ∀ s t, R s t → (f s).1 = (g t).1 ∧ R (f s).2 (g t).2) :
    Lockstep R (modifyGet f : EStateM ε σ α) (modifyGet g : EStateM ε τ α) := by
  intro s t hst
  obtain ⟨hvalue, hstate⟩ := h s t hst
  change Alike R (.ok (f s).1 (f s).2) (.ok (g t).1 (g t).2)
  rw [hvalue]
  exact .ok _ hstate

/-- Both sides read the state; what they do next may depend on it. -/
theorem get_bind {f : σ → EStateM ε σ β} {f' : τ → EStateM ε τ β}
    (h : ∀ s t, R s t → Lockstep R (f s) (f' t)) :
    Lockstep R (MonadState.get >>= f : EStateM ε σ β) (MonadState.get >>= f' : EStateM ε τ β) :=
  fun s t hst => h s t hst s t hst

variable {m : EStateM ε σ α}

theorem bind {m' : EStateM ε τ α} {f : α → EStateM ε σ β} {f' : α → EStateM ε τ β}
    (hm : Lockstep R m m') (hf : ∀ a, Lockstep R (f a) (f' a)) :
    Lockstep R (m >>= f) (m' >>= f') := by
  intro s t hst
  have hfirst := hm s t hst
  change Alike R (EStateM.bind m f s) (EStateM.bind m' f' t)
  rw [EStateM.bind, EStateM.bind]
  generalize m s = r at hfirst
  generalize m' t = r' at hfirst
  cases hfirst with
  | ok a h => exact hf a _ _ h
  | error e h => exact .error e h

theorem forM {l : List α} {f : α → EStateM ε σ PUnit} {f' : α → EStateM ε τ PUnit}
    (hf : ∀ a ∈ l, Lockstep R (f a) (f' a)) : Lockstep R (l.forM f) (l.forM f') := by
  induction l with
  | nil => exact pure _
  | cons a l ih =>
    exact bind (hf a List.mem_cons_self) fun _ =>
      ih fun b hb => hf b (List.mem_cons_of_mem a hb)

theorem foldlM {l : List α} {f : β → α → EStateM ε σ β} {f' : β → α → EStateM ε τ β}
    (hf : ∀ b, ∀ a ∈ l, Lockstep R (f b a) (f' b a)) (b : β) :
    Lockstep R (l.foldlM f b) (l.foldlM f' b) := by
  induction l generalizing b with
  | nil => exact pure b
  | cons a l ih =>
    rw [List.foldlM_cons, List.foldlM_cons]
    exact bind (hf b a List.mem_cons_self) fun b' =>
      ih (fun b a' ha => hf b a' (List.mem_cons_of_mem a ha)) b'

/-- A part of the state that no step changes may be added to the relation. -/
theorem with_kept {ρ : Type} {R : σ → σ → Prop} {step : σ → σ → Prop} {part : σ → ρ}
    (h : Lockstep R m m) (hm : Performs step m) (hpart : ∀ s s', step s s' → part s' = part s) :
    Lockstep (fun s t => R s t ∧ part s = part t) m m := by
  intro s t hst
  have hkept : ∀ s, part (final (m s)) = part s := fun s =>
    hm.keeps (P := fun s' => part s' = part s) (fun a b ha hab => (hpart a b hab).trans ha) rfl
  have hs := hkept s
  have ht := hkept t
  have hrun := h s t hst.1
  generalize m s = r at hrun hs
  generalize m t = r' at hrun ht
  cases hrun with
  | ok a hR => exact .ok a ⟨hR, hs.trans (hst.2.trans ht.symm)⟩
  | error e hR => exact .error e ⟨hR, hs.trans (hst.2.trans ht.symm)⟩

end Lockstep

end Stateful
