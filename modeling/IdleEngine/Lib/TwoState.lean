import Mathlib.Order.Defs.Unbundled

/-!
# Two-state specifications of imperative programs

A program of `EStateM ε σ α` reads and writes a state and may throw; a throw keeps the state
reached. `Spec m Q E` relates the state a run starts in to the result and the state it ends in,
`Q` for runs that return and `E` for runs that throw. `Within R m` is the case of one relation
for both, which the program's steps compose when `R` is reflexive and transitive.
-/

namespace TwoState

variable {ε σ α β : Type}

/-- Every run of `m` that returns satisfies `Q`, every run that throws satisfies `E`. -/
def Spec (m : EStateM ε σ α) (Q : σ → α → σ → Prop) (E : σ → ε → σ → Prop) : Prop :=
  ∀ s, match m s with
    | .ok a s' => Q s a s'
    | .error e s' => E s e s'

/-- Every run of `m`, returning or throwing, moves the state along `R`. -/
def Within (R : σ → σ → Prop) (m : EStateM ε σ α) : Prop :=
  Spec m (fun s _ s' => R s s') fun s _ s' => R s s'

section Rules

variable {m : EStateM ε σ α} {k : α → EStateM ε σ β} {Q Q' : σ → α → σ → Prop}
  {E F : σ → ε → σ → Prop}

theorem Spec.ok (h : Spec m Q E) {s s' : σ} {a : α} (hm : m s = .ok a s') : Q s a s' := by
  have hs := h s
  rw [hm] at hs
  exact hs

theorem Spec.error (h : Spec m Q E) {s s' : σ} {e : ε} (hm : m s = .error e s') : E s e s' := by
  have hs := h s
  rw [hm] at hs
  exact hs

theorem Spec.mono (h : Spec m Q E) (hQ : ∀ s a s', Q s a s' → Q' s a s')
    (hE : ∀ s e s', E s e s' → F s e s') : Spec m Q' F := by
  intro s
  cases hm : m s with
  | ok a s' => exact hQ _ _ _ (h.ok hm)
  | error e s' => exact hE _ _ _ (h.error hm)

theorem Spec.of_forall (hQ : ∀ s a s', Q s a s') (hE : ∀ s e s', E s e s') : Spec m Q E := by
  intro s
  cases m s with
  | ok a s' => exact hQ s a s'
  | error e s' => exact hE s e s'

theorem Spec.pure {a : α} (h : ∀ s, Q s a s) : Spec (pure a : EStateM ε σ α) Q E := h

theorem Spec.throw {e : ε} (h : ∀ s, E s e s) : Spec (throw e : EStateM ε σ α) Q E := h

theorem Spec.modify {f : σ → σ} {Q : σ → PUnit → σ → Prop} (h : ∀ s, Q s ⟨⟩ (f s)) :
    Spec (modify f : EStateM ε σ PUnit) Q E := h

/-- A read hands the state it read to the rest of the program. -/
theorem Spec.get_bind {k : σ → EStateM ε σ β} {Q : σ → β → σ → Prop}
    (h : ∀ t, Spec (k t) (fun s b s' => s = t → Q s b s') fun s e s' => s = t → E s e s') :
    Spec (get >>= k) Q E := by
  intro s
  have hs := h s s
  change match k s s with
    | .ok b s' => Q s b s'
    | .error e s' => E s e s'
  cases hk : k s s with
  | ok b s' =>
    rw [hk] at hs
    exact hs rfl
  | error e s' =>
    rw [hk] at hs
    exact hs rfl

/-- Sequencing: the first part's postcondition meets the second part's precondition in the
state between them. -/
theorem Spec.bind {M : σ → α → σ → Prop} {K : α → σ → β → σ → Prop}
    {X : α → σ → ε → σ → Prop} {Q : σ → β → σ → Prop}
    (hm : Spec m M E) (hk : ∀ a, Spec (k a) (K a) (X a))
    (hQ : ∀ s a s₁ b s₂, M s a s₁ → K a s₁ b s₂ → Q s b s₂)
    (hE : ∀ s a s₁ e s₂, M s a s₁ → X a s₁ e s₂ → E s e s₂) : Spec (m >>= k) Q E := by
  intro s
  change match EStateM.bind m k s with
    | .ok b s' => Q s b s'
    | .error e s' => E s e s'
  unfold EStateM.bind
  cases hms : m s with
  | error e s' => exact hm.error hms
  | ok a s₁ =>
    simp only
    cases hks : k a s₁ with
    | ok b s₂ => exact hQ _ _ _ _ _ (hm.ok hms) ((hk a).ok hks)
    | error e s₂ => exact hE _ _ _ _ _ (hm.ok hms) ((hk a).error hks)

/-- Sequencing, where the first part returns one value only. -/
theorem Spec.bind_known {a₀ : α} {M : σ → σ → Prop} {K : σ → β → σ → Prop} {X : σ → ε → σ → Prop}
    {Q : σ → β → σ → Prop} (hm : Spec m (fun s a s' => a = a₀ ∧ M s s') E) (hk : Spec (k a₀) K X)
    (hQ : ∀ s s₁ b s₂, M s s₁ → K s₁ b s₂ → Q s b s₂)
    (hE : ∀ s s₁ e s₂, M s s₁ → X s₁ e s₂ → E s e s₂) : Spec (m >>= k) Q E := by
  refine hm.bind (K := fun a s b s' => a = a₀ → K s b s') (X := fun a s e s' => a = a₀ → X s e s')
    (fun a => ?_) (fun s a s₁ b s₂ h hrest => hQ s s₁ b s₂ h.2 (hrest h.1))
    fun s a s₁ e s₂ h hrest => hE s s₁ e s₂ h.2 (hrest h.1)
  by_cases ha : a = a₀
  · subst ha
    exact hk.mono (fun _ _ _ h _ => h) fun _ _ _ h _ => h
  · exact .of_forall (fun _ _ _ h => absurd h ha) fun _ _ _ h => absurd h ha

/-- A handler continues in the state the throw left. -/
theorem Spec.tryCatch {handler : ε → EStateM ε σ α} {E₁ : σ → ε → σ → Prop}
    {Qh : ε → σ → α → σ → Prop} {Eh : ε → σ → ε → σ → Prop}
    (hm : Spec m Q E₁) (hh : ∀ e, Spec (handler e) (Qh e) (Eh e))
    (hQ : ∀ s e s₁ a s₂, E₁ s e s₁ → Qh e s₁ a s₂ → Q s a s₂)
    (hE : ∀ s e s₁ e' s₂, E₁ s e s₁ → Eh e s₁ e' s₂ → E s e' s₂) :
    Spec (tryCatchThe ε m handler) Q E := by
  intro s
  change match EStateM.tryCatch m handler s with
    | .ok a s' => Q s a s'
    | .error e s' => E s e s'
  unfold EStateM.tryCatch
  cases hms : m s with
  | ok a s' => exact hm.ok hms
  | error e s₁ =>
    change match handler e s₁ with
      | .ok a s' => Q s a s'
      | .error e s' => E s e s'
    cases hhs : handler e s₁ with
    | ok a s₂ => exact hQ _ _ _ _ _ (hm.error hms) ((hh e).ok hhs)
    | error e' s₂ => exact hE _ _ _ _ _ (hm.error hms) ((hh e).error hhs)

end Rules

/-! ### One relation for a whole program -/

section Within

variable {R : σ → σ → Prop}
  {m : EStateM ε σ α} {k : α → EStateM ε σ β}

theorem Within.pure [Std.Refl R] (a : α) : Within R (pure a : EStateM ε σ α) :=
  Spec.pure fun s => Std.Refl.refl s

theorem Within.throw [Std.Refl R] (e : ε) : Within R (throw e : EStateM ε σ α) :=
  Spec.throw fun s => Std.Refl.refl s

theorem Within.modify {f : σ → σ} (h : ∀ s, R s (f s)) :
    Within R (modify f : EStateM ε σ PUnit) :=
  Spec.modify h

theorem Within.get_bind {k : σ → EStateM ε σ β} (h : ∀ t, Within R (k t)) :
    Within R (get >>= k) :=
  Spec.get_bind fun t => (h t).mono (fun _ _ _ hR _ => hR) fun _ _ _ hR _ => hR

theorem Within.bind [IsTrans σ R] (hm : Within R m) (hk : ∀ a, Within R (k a)) : Within R (m >>= k) :=
  Spec.bind hm hk (fun _ _ _ _ _ h₁ h₂ => IsTrans.trans _ _ _ h₁ h₂)
    fun _ _ _ _ _ h₁ h₂ => IsTrans.trans _ _ _ h₁ h₂

theorem Within.tryCatch [IsTrans σ R] {handler : ε → EStateM ε σ α} (hm : Within R m)
    (hh : ∀ e, Within R (handler e)) : Within R (tryCatchThe ε m handler) :=
  Spec.tryCatch hm hh (fun _ _ _ _ _ h₁ h₂ => IsTrans.trans _ _ _ h₁ h₂)
    fun _ _ _ _ _ h₁ h₂ => IsTrans.trans _ _ _ h₁ h₂

/-- A loop stays within `R` when its body does. -/
theorem Within.forM [Std.Refl R] [IsTrans σ R] {γ : Type} {f : γ → EStateM ε σ PUnit} (l : List γ)
    (h : ∀ x ∈ l, Within R (f x)) : Within R (l.forM f) := by
  induction l with
  | nil => exact Within.pure _
  | cons x xs ih =>
    exact Within.bind (h x List.mem_cons_self) fun _ =>
      ih fun y hy => h y (List.mem_cons_of_mem _ hy)

end Within

/-! ### Runs by evaluation -/

/-- The run throws, and the p accepts what it throws and the state it leaves. -/
def throwsAnd (r : EStateM.Result ε σ α) (p : ε → σ → Bool) : Bool :=
  match r with
  | .ok _ _ => false
  | .error e s => p e s

theorem exists_of_throwsAnd {r : EStateM.Result ε σ α} {p : ε → σ → Bool}
    (h : throwsAnd r p = true) : ∃ e s, r = .error e s ∧ p e s = true := by
  cases r with
  | ok a s => cases h
  | error e s => exact ⟨e, s, rfl, h⟩

/-- The run returns, and the p accepts the state it leaves. -/
def endsAnd (r : EStateM.Result ε σ α) (p : σ → Bool) : Bool :=
  match r with
  | .ok _ s => p s
  | .error _ _ => false

theorem exists_of_endsAnd {r : EStateM.Result ε σ α} {p : σ → Bool} (h : endsAnd r p = true) :
    ∃ a s, r = .ok a s ∧ p s = true := by
  cases r with
  | ok a s => exact ⟨a, s, rfl, h⟩
  | error e s => cases h

/-- The result is a value, and the p accepts it. -/
def returnsAnd (r : Except ε α) (p : α → Bool) : Bool :=
  match r with
  | .ok a => p a
  | .error _ => false

theorem exists_of_returnsAnd {r : Except ε α} {p : α → Bool}
    (h : returnsAnd r p = true) : ∃ a, r = .ok a ∧ p a = true := by
  cases r with
  | ok a => exact ⟨a, rfl, h⟩
  | error e => cases h

end TwoState
