import IdleEngine.Lib.Stateful

/-!
# Computations with the events of their runs

A `Traced` computation is a computation that changes a state and may throw, together with the
list of events that a run from a given state makes. The computation itself is kept as it is, so
events are an observation and nothing can depend on them.

`Holds P m Q E` is the judgement about such computations: from a state and a history of events
that satisfy `P`, a run that returns ends in a state and a longer history that satisfy `Q`, and
one that throws in a state and a history that satisfy `E`. There is one rule for each way of
composing computations.
-/

open Stateful

variable {ε σ ω α β : Type}

/-- A computation and the events of each of its runs. -/
structure Traced (ε σ ω α : Type) where
  run : EStateM ε σ α
  trace : σ → List ω

open List

namespace Traced

/-- A computation that makes no event. -/
def silent (m : EStateM ε σ α) : Traced ε σ ω α := { run := m, trace := fun _ => [] }

/-- Events that depend on the state, and nothing else. -/
def emit (f : σ → List ω) : Traced ε σ ω PUnit := { run := pure ⟨⟩, trace := f }

/-- The events of the first part, and if it returns those of the second. -/
protected def bind (m : Traced ε σ ω α) (f : α → Traced ε σ ω β) : Traced ε σ ω β :=
  { run := m.run >>= fun a => (f a).run
    trace := fun s =>
      m.trace s ++
        match m.run s with
        | .ok a s' => (f a).trace s'
        | .error _ _ => [] }

instance : Monad (Traced ε σ ω) where
  pure a := silent (pure a)
  bind := Traced.bind

/-- The events of the body, and if it throws those of the handler. -/
def tryCatch (m : Traced ε σ ω α) (handler : ε → Traced ε σ ω α) : Traced ε σ ω α :=
  { run := tryCatchThe ε m.run fun e => (handler e).run
    trace := fun s =>
      m.trace s ++
        match m.run s with
        | .ok _ _ => []
        | .error e s' => (handler e).trace s' }

/-! ### The computation behind a traced one -/

@[simp]
theorem run_silent (m : EStateM ε σ α) : (silent m : Traced ε σ ω α).run = m := rfl

@[simp]
theorem run_emit (f : σ → List ω) : (emit f : Traced ε σ ω PUnit).run = pure ⟨⟩ := rfl

@[simp]
theorem run_pure (a : α) : (pure a : Traced ε σ ω α).run = pure a := rfl

@[simp]
theorem run_bind (m : Traced ε σ ω α) (f : α → Traced ε σ ω β) :
    (m >>= f).run = m.run >>= fun a => (f a).run := rfl

@[simp]
theorem run_tryCatch (m : Traced ε σ ω α) (handler : ε → Traced ε σ ω α) :
    (m.tryCatch handler).run = tryCatchThe ε m.run fun e => (handler e).run := rfl

/-- Events in front of a computation leave it as it is. -/
@[simp]
theorem run_emit_bind (f : σ → List ω) (m : PUnit → Traced ε σ ω α) :
    (emit f >>= m).run = (m ⟨⟩).run := rfl

theorem run_forM {γ : Type} {l : List γ} {f : γ → Traced ε σ ω PUnit}
    {g : γ → EStateM ε σ PUnit} (h : ∀ c ∈ l, (f c).run = g c) :
    (l.forM f).run = l.forM g := by
  induction l with
  | nil => rfl
  | cons c l ih =>
    change (f c).run >>= (fun _ => (l.forM f).run) = g c >>= fun _ => l.forM g
    rw [h c mem_cons_self, ih fun c' hc' => h c' (mem_cons_of_mem c hc')]

/-! ### What a run leaves behind -/

/-- From `P`, runs of `m` that return end in `Q` and runs that throw end in `E`. -/
def Holds (P : σ → List ω → Prop) (m : Traced ε σ ω α) (Q : α → σ → List ω → Prop)
    (E : σ → List ω → Prop) : Prop :=
  ∀ s history, P s history →
    match m.run s with
    | .ok a s' => Q a s' (history ++ m.trace s)
    | .error _ s' => E s' (history ++ m.trace s)

variable {P : σ → List ω → Prop} {Q : α → σ → List ω → Prop} {E : σ → List ω → Prop}

variable {m : Traced ε σ ω α} {s : σ} {history : List ω}

theorem Holds.ok (h : Holds P m Q E) {s' : σ} {a : α} (hs : P s history)
    (hrun : m.run s = .ok a s') : Q a s' (history ++ m.trace s) := by
  have hm := h s history hs
  rwa [hrun] at hm

theorem Holds.error (h : Holds P m Q E) {s' : σ} {e : ε} (hs : P s history)
    (hrun : m.run s = .error e s') : E s' (history ++ m.trace s) := by
  have hm := h s history hs
  rwa [hrun] at hm

/-- What holds however the run ends. -/
theorem Holds.final {R : σ → List ω → Prop} (h : Holds P m (fun _ => R) R) (hs : P s history) :
    R (Stateful.final (m.run s)) (history ++ m.trace s) := by
  have hm := h s history hs
  cases hrun : m.run s with
  | ok a s' => rwa [hrun] at hm
  | error e s' => rwa [hrun] at hm

theorem Holds.mono (h : Holds P m Q E) {P' : σ → List ω → Prop} {Q' : α → σ → List ω → Prop}
    {E' : σ → List ω → Prop} (hP : ∀ s history, P' s history → P s history)
    (hQ : ∀ a s history, Q a s history → Q' a s history)
    (hE : ∀ s history, E s history → E' s history) : Holds P' m Q' E' := by
  intro s history hs
  cases hrun : m.run s with
  | ok a s' => exact hQ _ _ _ (h.ok (hP _ _ hs) hrun)
  | error e s' => exact hE _ _ (h.error (hP _ _ hs) hrun)

/-- What is known besides may be forgotten. -/
theorem Holds.forget (h : Holds P m Q E) {R : σ → List ω → Prop} :
    Holds (fun s history => R s history ∧ P s history) m Q E :=
  h.mono (fun _ _ hs => hs.2) (fun _ _ _ hs => hs) fun _ _ hs => hs

theorem Holds.pure {a : α} (h : ∀ s history, P s history → Q a s history) :
    Holds P (Pure.pure a : Traced ε σ ω α) Q E := by
  intro s history hs
  change Q a s (history ++ [])
  rw [append_nil]
  exact h s history hs

theorem Holds.emit {f : σ → List ω} {Q : PUnit → σ → List ω → Prop}
    (h : ∀ s history, P s history → Q ⟨⟩ s (history ++ f s)) :
    Holds P (Traced.emit f : Traced ε σ ω PUnit) Q E := h

theorem Holds.silent_modify {f : σ → σ} {Q : PUnit → σ → List ω → Prop}
    (h : ∀ s history, P s history → Q ⟨⟩ (f s) history) :
    Holds P (silent (modify f) : Traced ε σ ω PUnit) Q E := by
  intro s history hs
  change Q ⟨⟩ (f s) (history ++ [])
  rw [append_nil]
  exact h s history hs

theorem Holds.silent_throw {e : ε} (h : ∀ s history, P s history → E s history) :
    Holds P (silent (throw e) : Traced ε σ ω α) Q E := by
  intro s history hs
  change E s (history ++ [])
  rw [append_nil]
  exact h s history hs

theorem Holds.silent_get {Q : σ → σ → List ω → Prop}
    (h : ∀ s history, P s history → Q s s history) :
    Holds P (silent get : Traced ε σ ω σ) Q E := by
  intro s history hs
  change Q s s (history ++ [])
  rw [append_nil]
  exact h s history hs

theorem Holds.bind {f : α → Traced ε σ ω β} {M : α → σ → List ω → Prop} {Q : β → σ → List ω → Prop}
    (hm : Holds P m M E) (hf : ∀ a, Holds (M a) (f a) Q E) : Holds P (m >>= f) Q E := by
  intro s history hs
  change match EStateM.bind m.run (fun a => (f a).run) s with
    | .ok b s' => Q b s' (history ++ (m.bind f).trace s)
    | .error _ s' => E s' (history ++ (m.bind f).trace s)
  rw [EStateM.bind]
  cases hrun : m.run s with
  | error e s' =>
    simp only [Traced.bind, hrun, append_nil]
    exact hm.error hs hrun
  | ok a s' =>
    have hmid := hm.ok hs hrun
    simp only [Traced.bind, hrun, ← append_assoc]
    exact hf a s' _ hmid

/-- A read: what follows may use what was read. -/
theorem Holds.get_bind {f : σ → Traced ε σ ω β} {Q : β → σ → List ω → Prop}
    (h : ∀ t, Holds (fun s history => s = t ∧ P s history) (f t) Q E) :
    Holds P (silent get >>= f) Q E :=
  Holds.bind (M := fun t s history => s = t ∧ P s history)
    (Holds.silent_get fun _ _ hs => ⟨rfl, hs⟩) h

theorem Holds.tryCatch {handler : ε → Traced ε σ ω α} {X : σ → List ω → Prop} (hm : Holds P m Q X)
    (hh : ∀ e, Holds X (handler e) Q E) :
    Holds P (m.tryCatch handler) Q E := by
  intro s history hs
  change match EStateM.tryCatch m.run (fun e => (handler e).run) s with
    | .ok b s' => Q b s' (history ++ (m.tryCatch handler).trace s)
    | .error _ s' => E s' (history ++ (m.tryCatch handler).trace s)
  unfold EStateM.tryCatch
  cases hrun : m.run s with
  | ok a s' =>
    simp only [Traced.tryCatch, hrun, append_nil]
    exact hm.ok hs hrun
  | error e s' =>
    have hmid := hm.error hs hrun
    simp only [Traced.tryCatch, hrun, ← append_assoc]
    exact hh e s' _ hmid

/-- **Loop rule.** An invariant that may depend on the elements still to come. -/
theorem Holds.forM {γ : Type} {f : γ → Traced ε σ ω PUnit}
    {I : List γ → σ → List ω → Prop} {l : List γ}
    (h : ∀ c rest, (c :: rest) <:+ l → Holds (I (c :: rest)) (f c) (fun _ => I rest) E) :
    Holds (I l) (l.forM f) (fun _ => I []) E := by
  induction l with
  | nil => exact Holds.pure fun _ _ hs => hs
  | cons c l ih =>
    refine Holds.bind (h c l (suffix_refl _)) fun _ => ih fun c' rest hsuffix => ?_
    exact h c' rest (hsuffix.trans (suffix_cons c l))

end Traced
