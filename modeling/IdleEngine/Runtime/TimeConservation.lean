import IdleEngine.Runtime.StepRules

/-!
# Conservation of game time

`timeMs` is the time a runtime holds against the time it accepted: completed steps plus backlog
minus acceptance. Two potentials frame every action. `timeMs` never grows, so no time is
created; `graceMs`, which counts the epsilons still to be lost and those already granted by an
acceptance, never shrinks, so at most one epsilon per acceptance is lost. A batch is debited
before it runs and earns its time back step by step; `Debits` carries the amount outstanding.
-/

namespace IdleEngine

open TwoState Accumulators RuntimeState

variable {Payload EventPayload World : Type}

/-! ### The potentials -/

/-- Time held minus time accepted. -/
def RuntimeState.timeMs (stepSizeMs : ℚ) (s : RuntimeState Payload EventPayload World) : ℚ :=
  stepSizeMs * s.currentStep + s.accumulators.totalMs - s.acceptedMs.sum

/-- Time held minus time accepted, less what may still be lost to normalization, plus one
epsilon for every acceptance. -/
def RuntimeState.graceMs (stepSizeMs : ℚ) (s : RuntimeState Payload EventPayload World) : ℚ :=
  s.timeMs stepSizeMs - accumulatorEpsilonMs * s.accumulators.openCount +
    accumulatorEpsilonMs * s.acceptedMs.length

/-- From `s` to `s'`, `debit` was taken out, and nothing else but what normalization may lose. -/
structure Debits (stepSizeMs debit : ℚ) (s s' : RuntimeState Payload EventPayload World) :
    Prop where
  time_le : s'.timeMs stepSizeMs ≤ s.timeMs stepSizeMs - debit
  grace_le : s.graceMs stepSizeMs - debit ≤ s'.graceMs stepSizeMs

variable {stepSizeMs : ℚ}

theorem Debits.trans {d₁ d₂ d : ℚ} {s₁ s₂ s₃ : RuntimeState Payload EventPayload World}
    (h₁ : Debits stepSizeMs d₁ s₁ s₂) (h₂ : Debits stepSizeMs d₂ s₂ s₃) (hd : d = d₁ + d₂) :
    Debits stepSizeMs d s₁ s₃ where
  time_le := by linarith [h₁.time_le, h₂.time_le]
  grace_le := by linarith [h₁.grace_le, h₂.grace_le]

theorem Debits.refl (s : RuntimeState Payload EventPayload World) : Debits stepSizeMs 0 s s where
  time_le := by simp
  grace_le := by simp

/-- Nothing was debited and the step counter did not move. -/
def Idles (stepSizeMs : ℚ) (s s' : RuntimeState Payload EventPayload World) : Prop :=
  Debits stepSizeMs 0 s s' ∧ s'.currentStep = s.currentStep

instance : Std.Refl (Idles stepSizeMs : RuntimeState Payload EventPayload World → _ → Prop) :=
  ⟨fun s => ⟨Debits.refl s, rfl⟩⟩

instance : IsTrans (RuntimeState Payload EventPayload World) (Idles stepSizeMs) :=
  ⟨fun _ _ _ h₁ h₂ => ⟨h₁.1.trans h₂.1 (by simp), h₂.2.trans h₁.2⟩⟩

variable {s s' : RuntimeState Payload EventPayload World}

/-- What is not part of the clock may change freely. -/
theorem Idles.of_clock_eq (haccumulators : s'.accumulators = s.accumulators)
    (hstep : s'.currentStep = s.currentStep) (haccepted : s'.acceptedMs = s.acceptedMs) :
    Idles stepSizeMs s s' := by
  refine ⟨⟨?_, ?_⟩, hstep⟩ <;>
    simp [graceMs, timeMs, haccumulators, hstep, haccepted]

/-- Accepting time into one accumulator debits nothing. -/
theorem debits_accept {deltaMs : ℚ} (hpos : 0 < deltaMs)
    (haccumulators : s'.accumulators = s.accumulators.addHostFrame deltaMs ∨
      s'.accumulators = s.accumulators.addCredited deltaMs) (hstep : s'.currentStep = s.currentStep)
    (haccepted : s'.acceptedMs = deltaMs :: s.acceptedMs) :
    Idles stepSizeMs s s' := by
  obtain ⟨hhost, hhost'⟩ := normalizeBacklogMs_add s.accumulators.hostFrame hpos
  obtain ⟨hcredit, hcredit'⟩ := normalizeBacklogMs_add s.accumulators.credited hpos
  rcases haccumulators with h | h
  all_goals
    refine ⟨⟨?_, ?_⟩, hstep⟩ <;>
      simp only [graceMs, timeMs, h, hstep, haccepted,
        Accumulators.addHostFrame, Accumulators.addCredited, totalMs_eq,
        Accumulators.openCount, List.sum_cons, List.length_cons] <;>
      push_cast <;> linarith

/-- Consuming available time debits exactly that time. -/
theorem debits_consume {amountMs : ℚ} (source : BacklogSource) (hnonneg : 0 ≤ amountMs)
    (hle : amountMs ≤ s.accumulators.availableMs source)
    (haccumulators : s'.accumulators = s.accumulators.consumeAccumulatorBacklog amountMs source)
    (hstep : s'.currentStep = s.currentStep) (haccepted : s'.acceptedMs = s.acceptedMs) :
    Debits stepSizeMs amountMs s s' := by
  obtain ⟨hup, hlow⟩ := s.accumulators.consumeAccumulatorBacklog_spec hnonneg hle
  constructor <;>
    simp only [graceMs, timeMs, haccumulators, hstep, haccepted] <;>
    linarith

/-- Moving the step counter earns the time of the steps back. -/
theorem debits_advance (steps : ℚ) (haccumulators : s'.accumulators = s.accumulators)
    (hstep : s'.currentStep = s.currentStep + steps) (haccepted : s'.acceptedMs = s.acceptedMs) :
    Debits stepSizeMs (-(steps * stepSizeMs)) s s' := by
  constructor <;>
    simp only [graceMs, timeMs, haccumulators, hstep, haccepted] <;>
    linarith

/-! ### Handlers idle -/

/-- Whatever runs within a step debits nothing and leaves the step counter alone. -/
theorem stepRules_idles : StepRules (Idles stepSizeMs :
    RuntimeState Payload EventPayload World → RuntimeState Payload EventPayload World → Prop) where
  credit _ _ hpos := debits_accept hpos (.inr rfl) rfl rfl
  queue _ _ _ := Idles.of_clock_eq rfl rfl rfl
  publish _ _ _ _ := Idles.of_clock_eq rfl rfl rfl
  write _ _ := Idles.of_clock_eq rfl rfl rfl
  dispatched _ := Idles.of_clock_eq rfl rfl rfl

namespace RuntimeConfig

variable (config : RuntimeConfig Payload EventPayload World)

/-- Everything before the counter moves idles, also when it throws. -/
theorem runStepBody_idles (resetOutbound : Bool) :
    Within (Idles stepSizeMs) (config.runStepBody resetOutbound) :=
  Within.bind (Within.modify fun _ => Idles.of_clock_eq rfl rfl rfl) fun _ =>
    (stepRules_idles.respects config).afterBegin

/-! ### Steps and batches -/

/-- The step counter moved by `steps`, and `debit` is outstanding. -/
structure Advances (stepSizeMs debit : ℚ) (steps : ℕ)
    (s s' : RuntimeState Payload EventPayload World) : Prop where
  debits : Debits stepSizeMs debit s s'
  step : s'.currentStep = s.currentStep + steps

theorem Advances.trans {d₁ d₂ d : ℚ} {n₁ n₂ n : ℕ}
    {s₁ s₂ s₃ : RuntimeState Payload EventPayload World}
    (h₁ : Advances stepSizeMs d₁ n₁ s₁ s₂) (h₂ : Advances stepSizeMs d₂ n₂ s₂ s₃)
    (hd : d = d₁ + d₂) (hn : n = n₁ + n₂) : Advances stepSizeMs d n s₁ s₃ where
  debits := h₁.debits.trans h₂.debits hd
  step := by
    rw [h₂.step, h₁.step, hn]
    push_cast
    ring

variable {s : RuntimeState Payload EventPayload World}

theorem Advances.of_idles {s' : RuntimeState Payload EventPayload World}
    (h : Idles stepSizeMs s s') : Advances stepSizeMs 0 0 s s' where
  debits := h.1
  step := by simpa using h.2

/-- A completed step earns one step size and moves the counter by one; a step that throws does
neither. -/
theorem runTickStep_spec (resetOutbound : Bool) :
    Spec (config.runTickStep resetOutbound)
      (fun s _ s' => Advances config.stepSizeMs (-config.stepSizeMs) 1 s s')
      (fun s _ s' => Advances config.stepSizeMs 0 0 s s') := by
  have hidles : Within (Idles config.stepSizeMs) (config.runStepBody resetOutbound) :=
    config.runStepBody_idles resetOutbound
  have hbody := hidles.mono
    (fun _ _ _ h => Advances.of_idles h) (fun _ _ _ h => Advances.of_idles h)
  refine .bind hbody
    (K := fun _ s _ s' => Advances config.stepSizeMs (-config.stepSizeMs) 1 s s')
    (X := fun _ _ _ _ => False) (fun _ => ?_)
    (fun _ _ _ _ _ h₁ h₂ => h₁.trans h₂ (by simp) (by simp)) (fun _ _ _ _ _ _ h₂ => h₂.elim)
  intro s
  have hadvance : Debits config.stepSizeMs (-((1 : ℚ) * config.stepSizeMs)) s
      { s with currentStep := s.currentStep + 1, nextExecutableStep := s.currentStep + 1 } :=
    debits_advance 1 rfl rfl rfl
  exact ⟨by simpa using hadvance, by simp⟩

/-- A batch earns one step size for every completed step. When a step throws, the steps
completed before it, fewer than the batch has, are all it earned. -/
theorem runTickBatchLoop_spec (stepCount : ℕ) (resetOutbound : Bool) (processedSteps : ℕ) :
    Spec (config.runTickBatchLoop stepCount resetOutbound processedSteps)
      (fun s ran s' => ran = processedSteps + stepCount ∧
        Advances config.stepSizeMs (-(stepCount * config.stepSizeMs)) stepCount s s')
      (fun s _ s' => ∃ completed, completed < stepCount ∧
        Advances config.stepSizeMs (-(completed * config.stepSizeMs)) completed s s') := by
  induction stepCount generalizing resetOutbound processedSteps with
  | zero =>
    refine .pure fun s => ⟨rfl, ?_⟩
    simpa using Advances.of_idles (Std.Refl.refl (r := Idles config.stepSizeMs) s)
  | succ stepCount ih =>
    have hstep := (config.runTickStep_spec resetOutbound).mono (fun _ _ _ h => h)
      (F := fun s _ s' => ∃ completed, completed < stepCount + 1 ∧
        Advances config.stepSizeMs (-(completed * config.stepSizeMs)) completed s s')
      (fun s _ s' h => ⟨0, Nat.succ_pos _, by simpa using h⟩)
    refine .bind hstep (fun reset => ih reset (processedSteps + 1)) ?_ ?_
    · rintro s _ s₁ ran s₂ h₁ ⟨hran, h₂⟩
      refine ⟨by omega, h₁.trans h₂ ?_ (Nat.add_comm _ _)⟩
      push_cast
      ring
    · rintro s _ s₁ e s₂ h₁ ⟨completed, hlt, h₂⟩
      refine ⟨completed + 1, by omega, h₁.trans h₂ ?_ (Nat.add_comm _ _)⟩
      push_cast
      ring

/-- A throw left a batch of `batch` steps after `completed` of them, with `earlier` steps
completed in earlier batches: the time of the remaining steps of the batch is gone. -/
structure Strands (stepSizeMs : ℚ) (batch completed earlier : ℕ)
    (s s' : RuntimeState Payload EventPayload World) : Prop where
  incomplete : completed < batch
  advances : Advances stepSizeMs ((batch - completed) * stepSizeMs) (earlier + completed) s s'

/-- A batch that is debited out of available time owes nothing once it has run. -/
theorem runDebitedBatch_spec (source : BacklogSource) (steps : ℕ) :
    Spec (config.runDebitedBatch source steps)
      (fun s ran s' => steps * config.stepSizeMs ≤ s.accumulators.availableMs source →
        ran = steps ∧ Advances config.stepSizeMs 0 steps s s')
      (fun s _ s' => steps * config.stepSizeMs ≤ s.accumulators.availableMs source →
        ∃ completed, Strands config.stepSizeMs steps completed 0 s s') := by
  have hamount : (0 : ℚ) ≤ steps * config.stepSizeMs :=
    mul_nonneg (Nat.cast_nonneg _) config.stepSizeMs_pos.le
  refine .bind
    (M := fun s _ s₁ => steps * config.stepSizeMs ≤ s.accumulators.availableMs source →
      Advances config.stepSizeMs (steps * config.stepSizeMs) 0 s s₁)
    (Spec.modify fun s h => ⟨debits_consume source hamount h rfl rfl rfl, by simp⟩)
    (fun _ => config.runTickBatchLoop_spec steps true 0) ?_ ?_
  · rintro s _ s₁ ran s₂ h₁ ⟨hran, h₂⟩ havailable
    exact ⟨by omega, (h₁ havailable).trans h₂ (by ring) (by omega)⟩
  · rintro s _ s₁ e s₂ h₁ ⟨completed, hlt, h₂⟩ havailable
    exact ⟨completed, hlt, (h₁ havailable).trans h₂ (by ring) (by omega)⟩

theorem available_lt_of_drainSteps_eq_zero {source : BacklogSource} {remaining : ℕ}
    (h : config.drainSteps s source remaining = 0) :
    remaining = 0 ∨ s.accumulators.availableMs source < config.stepSizeMs := by
  rw [drainSteps, Int.toNat_eq_zero, min_le_iff] at h
  rcases h with h | h
  · refine .inr ?_
    have hlt : ⌊s.accumulators.availableMs source / config.stepSizeMs⌋ < 1 := by omega
    have hlt' : s.accumulators.availableMs source / config.stepSizeMs < 1 := by
      simpa using Int.floor_lt.mp hlt
    exact (div_lt_one config.stepSizeMs_pos).mp hlt'
  · exact .inl (by omega)

/-- The steps of a batch are available and within the budget. -/
theorem drainSteps_le {source : BacklogSource} {remaining : ℕ}
    (hne : config.drainSteps s source remaining ≠ 0) :
    (config.drainSteps s source remaining : ℚ) * config.stepSizeMs ≤
        s.accumulators.availableMs source ∧
      config.drainSteps s source remaining ≤ remaining := by
  have hle : (config.drainSteps s source remaining : ℤ) ≤
      ⌊s.accumulators.availableMs source / config.stepSizeMs⌋ := by
    rw [drainSteps] at hne ⊢
    omega
  have hcast : (config.drainSteps s source remaining : ℚ) ≤
      s.accumulators.availableMs source / config.stepSizeMs :=
    le_trans (by exact_mod_cast hle) (Int.floor_le _)
  refine ⟨(le_div_iff₀ config.stepSizeMs_pos).mp hcast, ?_⟩
  rw [drainSteps]
  omega

theorem Strands.after {c : ℚ} {batch completed earlier m : ℕ}
    {s₁ s' : RuntimeState Payload EventPayload World} (h₁ : Advances c 0 m s s₁)
    (h₂ : Strands c batch completed earlier s₁ s') :
    Strands c batch completed (m + earlier) s s' :=
  ⟨h₂.incomplete, h₁.trans h₂.advances (by ring) (by omega)⟩

/-- A drain that returns ran `m` steps within its budget, owes nothing, and spent the budget or
left less than a step. A drain that throws strands a batch. -/
theorem drainLoop_spec (source : BacklogSource) (fuel remaining processedSteps : ℕ)
    (hfuel : remaining ≤ fuel) :
    Spec (config.drainLoop source fuel remaining processedSteps)
      (fun s ran s' => ∃ m, ran = processedSteps + m ∧ m ≤ remaining ∧
        Advances config.stepSizeMs 0 m s s' ∧
        (m = remaining ∨ s'.accumulators.availableMs source < config.stepSizeMs))
      (fun s _ s' => ∃ batch completed earlier,
        Strands config.stepSizeMs batch completed earlier s s') := by
  induction fuel generalizing remaining processedSteps with
  | zero =>
    refine .pure fun s => ⟨0, rfl, Nat.zero_le _, ?_, .inl (by omega)⟩
    exact Advances.of_idles (Std.Refl.refl (r := Idles config.stepSizeMs) s)
  | succ fuel ih =>
    refine .get_bind fun t => ?_
    by_cases hzero : config.drainSteps t source remaining = 0
    · simp only [hzero, if_true]
      refine .pure fun s hst => ⟨0, rfl, Nat.zero_le _, ?_, ?_⟩
      · exact Advances.of_idles (Std.Refl.refl (r := Idles config.stepSizeMs) s)
      · subst hst
        exact (config.available_lt_of_drainSteps_eq_zero hzero).imp Eq.symm id
    · simp only [hzero, if_false]
      obtain ⟨havailable, hle⟩ := config.drainSteps_le hzero
      generalize config.drainSteps t source remaining = steps at *
      -- one debited batch, then the rounds that follow
      refine .bind
        ((config.runDebitedBatch_spec source steps).mono (fun _ _ _ h => h)
          (fun s _ s' h hst => ?_))
        (fun ran => ih (remaining - steps) (processedSteps + ran) (by omega)) ?_ ?_
      · subst hst
        obtain ⟨completed, h⟩ := h havailable
        exact ⟨steps, completed, 0, h⟩
      · rintro s ran s₁ total s₂ h₁ ⟨m, hm, hmle, h₂, hend⟩ hst
        subst hst
        obtain ⟨hran, hfirst⟩ := h₁ havailable
        exact ⟨steps + m, by omega, by omega, hfirst.trans h₂ (by simp) rfl,
          hend.imp (fun h => by omega) id⟩
      · rintro s ran s₁ e s₂ h₁ ⟨batch, completed, earlier, h₂⟩ hst
        subst hst
        exact ⟨batch, completed, _, Strands.after (h₁ havailable).2 h₂⟩

/-! ### Calls from the host -/

theorem drainAccumulator_spec (stepBudget : ℚ) (source : BacklogSource) :
    Spec (config.drainAccumulator stepBudget source)
      (fun s ran s' => Advances config.stepSizeMs 0 ran s s' ∧
        (ran = ⌊stepBudget⌋.toNat ∨ s'.accumulators.availableMs source < config.stepSizeMs))
      (fun s _ s' => ∃ batch completed earlier,
        Strands config.stepSizeMs batch completed earlier s s') := by
  unfold drainAccumulator
  split
  · next hbudget =>
    refine .pure fun s => ⟨Advances.of_idles (Std.Refl.refl (r := Idles _) s), .inl ?_⟩
    have hfloor : ⌊stepBudget⌋ ≤ 0 := by exact_mod_cast (Int.floor_le stepBudget).trans hbudget
    omega
  · refine (config.drainLoop_spec source _ _ 0 le_rfl).mono ?_ fun _ _ _ h => h
    rintro s ran s' ⟨m, hran, -, h, hend⟩
    obtain rfl : ran = m := by omega
    exact ⟨h, hend⟩

/-- **A tick** that returns owes nothing, reports its steps, and spent its frame budget or left
less than a step; one that throws strands a batch. -/
theorem tick_spec {deltaMs : ℚ} (hpos : 0 < deltaMs) :
    Spec (config.tick (.fin deltaMs))
      (fun s ran s' => Advances config.stepSizeMs 0 ran s s' ∧
        (ran = ⌊config.maxStepsPerFrame⌋.toNat ∨ s'.accumulators.totalMs < config.stepSizeMs))
      (fun s _ s' => ∃ batch completed earlier,
        Strands config.stepSizeMs batch completed earlier s s') := by
  simp only [tick, JsNumber.finite?, not_le.mpr hpos, if_false]
  -- accepting host time cannot throw, so any precondition of its throw will do
  refine .bind (M := fun s _ s₁ => Idles config.stepSizeMs s s₁)
    (Spec.modify fun _ => debits_accept hpos (.inl rfl) rfl rfl)
    (fun _ => config.drainAccumulator_spec _ .any) ?_ ?_
  · rintro s _ s₁ ran s₂ h₁ ⟨h₂, hend⟩
    exact ⟨(Advances.of_idles h₁).trans h₂ (by simp) (by simp), hend⟩
  · rintro s _ s₁ e s₂ h₁ ⟨batch, completed, earlier, h₂⟩
    exact ⟨batch, completed, _, Strands.after (Advances.of_idles h₁) h₂⟩

theorem fastForward_spec (deltaMs : JsNumber) :
    Spec (config.fastForward deltaMs :
        RuntimeM Payload EventPayload World ℕ)
      (fun s steps s' => Advances config.stepSizeMs 0 steps s s') (fun _ _ _ => False) := by
  unfold fastForward
  have hidle : ∀ s : RuntimeState Payload EventPayload World,
      Advances config.stepSizeMs 0 0 s s :=
    fun s => Advances.of_idles (Std.Refl.refl (r := Idles _) s)
  split
  · exact .pure hidle
  · split
    · exact .pure hidle
    · next hpos =>
      refine .bind (M := fun s _ s₁ => Idles config.stepSizeMs s s₁)
        (K := fun _ s steps s' => Advances config.stepSizeMs 0 steps s s')
        (X := fun _ _ _ _ => False)
        (Spec.modify fun _ => debits_accept (not_le.mp hpos) (.inl rfl) rfl rfl)
        (fun _ => Spec.get_bind fun t => ?_)
        (fun _ _ _ _ _ h₁ h₂ => (Advances.of_idles h₁).trans h₂ (by simp) (by simp))
        (fun _ _ _ _ _ _ h => h)
      generalize hsteps : ⌊t.accumulators.totalMs / config.stepSizeMs⌋.toNat = steps
      simp only
      split
      · next hzero => exact .pure fun s _ => hzero ▸ hidle s
      · next hzero =>
        intro s hst
        subst hst
        have hle : (steps : ℤ) ≤ ⌊s.accumulators.totalMs / config.stepSizeMs⌋ := by omega
        have hcast : (steps : ℚ) ≤ s.accumulators.totalMs / config.stepSizeMs :=
          le_trans (by exact_mod_cast hle) (Int.floor_le _)
        have hconsume : Debits config.stepSizeMs (steps * config.stepSizeMs) s
            { s with accumulators :=
                s.accumulators.consumeAccumulatorBacklog (steps * config.stepSizeMs) .any } :=
          debits_consume .any (mul_nonneg (Nat.cast_nonneg _) config.stepSizeMs_pos.le)
            ((le_div_iff₀ config.stepSizeMs_pos).mp hcast) rfl rfl rfl
        exact ⟨hconsume.trans (debits_advance (steps : ℚ) rfl rfl rfl) (by ring), rfl⟩

/-- What a call that returns does to the clock. -/
def CallRecord.Sound (record : CallRecord Payload EventPayload World) : Prop :=
  record.after.currentStep = record.before.currentStep + record.returned ∧
    ∀ deltaMs, record.call = .tick (.fin deltaMs) → 0 < deltaMs →
      record.returned = ⌊config.maxStepsPerFrame⌋.toNat ∨
        record.after.accumulators.totalMs < config.stepSizeMs

/-- **Step lemma.** A call that returns owes nothing and moves the step counter by what it
returns. -/
theorem perform_spec (call : Call) :
    Spec (config.perform call)
      (fun s returned s' => Advances config.stepSizeMs 0 returned s s' ∧
        ∀ deltaMs, call = .tick (.fin deltaMs) → 0 < deltaMs →
          returned = ⌊config.maxStepsPerFrame⌋.toNat ∨
            s'.accumulators.totalMs < config.stepSizeMs)
      (fun _ _ _ => True) := by
  have hidle : ∀ s : RuntimeState Payload EventPayload World,
      Advances config.stepSizeMs 0 0 s s :=
    fun s => Advances.of_idles (Std.Refl.refl (r := Idles _) s)
  cases call with
  | tick deltaMs =>
    by_cases haccept : ∃ d, deltaMs = .fin d ∧ 0 < d
    · obtain ⟨d, rfl, hpos⟩ := haccept
      exact (config.tick_spec hpos).mono (fun _ _ _ h => ⟨h.1, fun _ _ _ => h.2⟩)
        fun _ _ _ _ => trivial
    · -- a tick that accepts no time returns at once
      have hnone : config.tick deltaMs = pure 0 := by
        unfold tick
        cases deltaMs with
        | fin d =>
          have hle : d ≤ 0 := not_lt.mp fun hlt => haccept ⟨d, rfl, hlt⟩
          simp [JsNumber.finite?, hle]
        | _ => rfl
      rw [perform, hnone]
      refine .pure fun s => ⟨hidle s, fun d hd hpos => ?_⟩
      exact absurd ⟨d, Call.tick.inj hd, hpos⟩ haccept
  | fastForward deltaMs =>
    exact (config.fastForward_spec deltaMs).mono
      (fun _ _ _ h => ⟨h, fun _ hd => by cases hd⟩) fun _ _ _ h => h.elim
  | creditTime deltaMs =>
    have hcredit : Within (Idles config.stepSizeMs)
        (IdleEngine.creditTime deltaMs : RuntimeM Payload EventPayload World PUnit) :=
      stepRules_idles.creditTime deltaMs
    refine .bind (hcredit.mono (fun _ _ _ h => h) fun _ _ _ _ => trivial)
      (K := fun _ s returned s' => s' = s ∧ returned = 0) (X := fun _ _ _ _ => True)
      (fun _ => Spec.pure fun _ => ⟨rfl, rfl⟩) ?_ fun _ _ _ _ _ _ _ => trivial
    rintro s _ s₁ returned s₂ h ⟨rfl, rfl⟩
    exact ⟨Advances.of_idles h, fun _ hd => by cases hd⟩
  | drainCreditedBacklog maxSteps =>
    exact (config.drainAccumulator_spec _ _).mono
      (fun _ _ _ h => ⟨h.1, fun _ hd => by cases hd⟩) fun _ _ _ _ => trivial

/-- **Run lemma.** A sequence of calls owes nothing, moves the step counter by the sum of what
they return, and each of its calls is sound. -/
theorem performAll_spec (calls : List Call) :
    ∀ (s s' : RuntimeState Payload EventPayload World)
      (records : List (CallRecord Payload EventPayload World)),
      config.performAll calls s = .ok (records, s') →
        Advances config.stepSizeMs 0 (records.map (·.returned)).sum s s' ∧
          ∀ record ∈ records, CallRecord.Sound config record := by
  induction calls with
  | nil =>
    intro s s' records h
    obtain ⟨rfl, rfl⟩ : [] = records ∧ s = s' := by simpa [performAll] using h
    exact ⟨Advances.of_idles (Std.Refl.refl (r := Idles _) s), by simp⟩
  | cons call calls ih =>
    intro s s' records h
    rw [performAll] at h
    cases hcall : config.perform call s with
    | error error after => simp [hcall] at h
    | ok returned after =>
      cases hrest : config.performAll calls after with
      | error error => simp [hcall, hrest] at h
      | ok out =>
        obtain ⟨rest, last⟩ := out
        simp only [hcall, hrest, Except.ok.injEq, Prod.mk.injEq] at h
        obtain ⟨rfl, rfl⟩ := h
        obtain ⟨hfirst, hframe⟩ := (config.perform_spec call).ok hcall
        obtain ⟨hlater, hsound⟩ := ih after last rest hrest
        refine ⟨hfirst.trans hlater (by simp) (by simp), ?_⟩
        rintro record (_ | ⟨_, hmem⟩)
        · exact ⟨hfirst.step, hframe⟩
        · exact hsound record hmem

/-! ### Conservation over runs -/

/-- A new runtime without restored backlog has nothing to lose yet. -/
theorem create_clock (commandQueue : CommandQueue Payload) (eventBus : EventBus EventPayload)
    (world : World) (initialStep : Option JsNumber) :
    let first := create commandQueue eventBus world initialStep none none
    first.accumulators.totalMs = 0 ∧ first.accumulators.openCount = 0 ∧ first.acceptedMs = [] := by
  simp [create, Accumulators.restore, normalizeBacklogValue, Accumulators.openCount,
    BacklogMs.openCount]

/-- **Time conservation.** Over any calls to a new runtime none of which throws, the accepted
time is the completed steps plus the two backlogs, less at most one epsilon for every
acceptance. The step counter moves by exactly the steps returned, and after a tick that accepts
time the frame budget was spent or less than a step is left. -/
theorem time_conserved (commandQueue : CommandQueue Payload) (eventBus : EventBus EventPayload)
    (world : World) (initialStep : Option JsNumber) (calls : List Call)
    (records : List (CallRecord Payload EventPayload World))
    (last : RuntimeState Payload EventPayload World)
    (h : config.performAll calls (create commandQueue eventBus world initialStep none none) =
      .ok (records, last)) :
    let first := create commandQueue eventBus world initialStep none none
    let held := config.stepSizeMs * (last.currentStep - first.currentStep) +
      last.accumulators.hostFrameMs + last.accumulators.creditedMs
    (held ≤ last.acceptedMs.sum ∧
        last.acceptedMs.sum - accumulatorEpsilonMs * last.acceptedMs.length ≤ held) ∧
      last.currentStep = first.currentStep + (records.map (·.returned)).sum ∧
      ∀ record ∈ records, CallRecord.Sound config record := by
  intro first held
  obtain ⟨htotal, hopen, haccepted⟩ := create_clock commandQueue eventBus world initialStep
  obtain ⟨⟨⟨htime, hgrace⟩, hstep⟩, hsound⟩ := config.performAll_spec calls _ _ _ h
  have hheld : held = last.timeMs config.stepSizeMs - first.timeMs config.stepSizeMs +
      last.acceptedMs.sum := by
    simp only [held, first, RuntimeState.timeMs, htotal, haccepted, totalMs_eq,
      hostFrameMs_eq, creditedMs_eq, List.sum_nil]
    ring
  have hnonneg : 0 ≤ accumulatorEpsilonMs * last.accumulators.openCount := by
    refine mul_nonneg accumulatorEpsilonMs_pos.le ?_
    simp only [Accumulators.openCount, BacklogMs.openCount]
    split <;> split <;> norm_num
  refine ⟨⟨by rw [hheld]; linarith, ?_⟩, hstep, hsound⟩
  simp only [RuntimeState.graceMs, hopen, haccepted, List.length_nil] at hgrace
  rw [hheld]
  push_cast at hgrace
  linarith

end RuntimeConfig

/-- A runtime of 100 ms steps and at most 50 steps a frame, with nothing registered. -/
def idleConfig : RuntimeConfig Unit Unit Unit where
  stepSizeMs := 100
  stepSizeMs_pos := defaultStepMs_pos
  maxStepsPerFrame := 50
  cloneStructured := .ok
  commandHandlers := fun _ => none
  eventHandlers := fun _ _ => .done
  systems := []

/-- A bus without channels. -/
def silentBus : EventBus Unit where
  channels := []
  currentTick := 0
  dispatchCounter := 0
  tickAborted := false
  lastOverflowError := none
  now := 0

/-- The state a runtime of that configuration starts in. -/
def idleStart : RuntimeState Unit Unit Unit :=
  RuntimeConfig.create (CommandQueue.empty 1 one_pos) silentBus () none none none

/-- A frame, then credited time, then a frame that drains both. -/
theorem time_conserved_two_frames : ∃ records last,
    idleConfig.performAll [.tick (.fin 250), .creditTime (.fin 130), .tick (.fin 40)] idleStart =
        .ok (records, last) ∧
      records.map (fun r => (r.returned, r.after.accumulators.totalMs)) =
        [(2, 50), (0, 180), (2, 20)] ∧
      last.currentStep = idleStart.currentStep + (records.map (·.returned)).sum ∧
      ∀ record ∈ records, RuntimeConfig.CallRecord.Sound idleConfig record := by
  obtain ⟨⟨records, last⟩, hrun, hcheck⟩ := exists_of_returnsAnd
    (r := idleConfig.performAll
      [.tick (.fin 250), .creditTime (.fin 130), .tick (.fin 40)] idleStart)
    (p := fun out => decide (out.1.map (fun r => (r.returned, r.after.accumulators.totalMs)) =
      [(2, 50), (0, 180), (2, 20)])) (by decide +kernel)
  exact ⟨records, last, hrun, of_decide_eq_true hcheck,
    (idleConfig.time_conserved (CommandQueue.empty 1 one_pos) silentBus () none _ _ _ hrun).2⟩

/-- A tick of zero accepts no time and runs nothing: two steps of credited backlog stay. -/
theorem tick_zero_leaves_backlog : ∃ records last,
    idleConfig.performAll [.creditTime (.fin 200), .tick (.fin 0)] idleStart =
        .ok (records, last) ∧
      ∃ record ∈ records, record.call = .tick (.fin 0) ∧
        (record.returned : ℚ) ≠ idleConfig.maxStepsPerFrame ∧
        ¬record.after.accumulators.totalMs < idleConfig.stepSizeMs := by
  refine ⟨_, _, rfl, _, List.mem_cons_of_mem _ (List.mem_singleton_self _), rfl, ?_, ?_⟩
  · decide +kernel
  · decide +kernel

/-! ### Errors lose time -/

/-- From `s` to `s'` the completed steps and the backlog account for all time accepted. -/
def ConservesTime (stepSizeMs : ℚ) (s s' : RuntimeState Payload EventPayload World) : Prop :=
  stepSizeMs * (s'.currentStep - s.currentStep) + s'.accumulators.totalMs =
    s.accumulators.totalMs + (s'.acceptedMs.sum - s.acceptedMs.sum)

/-- **A tick that throws never conserves time.** The error left a batch of `batch` steps after
`completed` of them; the time of all the others is gone, from the step counter and from the
backlog. -/
theorem RuntimeConfig.tick_error_loses_time (config : RuntimeConfig Payload EventPayload World)
    (s s' : RuntimeState Payload EventPayload World) (deltaMs : JsNumber) (error : String)
    (h : config.tick deltaMs s = .error error s') :
    (∃ batch completed earlier : ℕ, completed < batch ∧
        s'.currentStep = s.currentStep + (earlier + completed) ∧
        config.stepSizeMs * (s'.currentStep - s.currentStep) + s'.accumulators.totalMs ≤
          s.accumulators.totalMs + (s'.acceptedMs.sum - s.acceptedMs.sum) -
            (batch - completed) * config.stepSizeMs) ∧
      ¬ConservesTime config.stepSizeMs s s' := by
  have hstrand : ∃ batch completed earlier,
      Strands config.stepSizeMs batch completed earlier s s' := by
    cases deltaMs with
    | fin d =>
      by_cases hpos : 0 < d
      · exact (config.tick_spec hpos).error h
      · -- a tick that accepts no time cannot throw
        simp only [tick, JsNumber.finite?, not_lt.mp hpos, if_true] at h
        cases h
    | _ => cases h
  obtain ⟨batch, completed, earlier, hincomplete, ⟨⟨htime, -⟩, hstep⟩⟩ := hstrand
  simp only [RuntimeState.timeMs] at htime
  have hheld : config.stepSizeMs * (s'.currentStep - s.currentStep) + s'.accumulators.totalMs ≤
      s.accumulators.totalMs + (s'.acceptedMs.sum - s.acceptedMs.sum) -
        (batch - completed) * config.stepSizeMs := by
    linarith
  refine ⟨⟨batch, completed, earlier, hincomplete, by exact_mod_cast hstep, hheld⟩,
    fun hconserves => ?_⟩
  have hgap : (0 : ℚ) < (batch - completed) * config.stepSizeMs :=
    mul_pos (sub_pos.mpr (by exact_mod_cast hincomplete)) config.stepSizeMs_pos
  rw [ConservesTime] at hconserves
  linarith

/-- A system publishes an event in step 1 and the event's handler throws. -/
def failingConfig : RuntimeConfig Unit Unit Unit :=
  { idleConfig with
    eventHandlers := fun _ _ => .raise "handler failed"
    systems := [fun step => if step = 1 then .publish "failure" () none fun _ => .done else .done] }

/-- A new runtime with the event's channel and one subscriber. -/
def failingStart : RuntimeState Unit Unit Unit :=
  { idleStart with
    eventBus :=
      { silentBus with
        channels := [
          { type := "failure"
            capacity := 4
            capacity_pos := by norm_num
            validator := fun _ => none
            internalBuffer := []
            outboundBuffer := []
            subscribers := [{ active := true, handler := 0 }] }] } }

/-- A batch of three steps whose second throws: one step counted, no backlog, 200 ms gone. -/
theorem tick_error_second_of_three : ∃ s',
    failingConfig.tick (.fin 300) failingStart = .error "handler failed" s' ∧
      s'.currentStep = 1 ∧ s'.accumulators.totalMs = 0 ∧ s'.acceptedMs = [300] ∧
      ¬ConservesTime failingConfig.stepSizeMs failingStart s' := by
  obtain ⟨error, s', hrun, hcheck⟩ := exists_of_throwsAnd
    (r := failingConfig.tick (.fin 300) failingStart)
    (p := fun error s' => decide (error = "handler failed" ∧ s'.currentStep = 1 ∧
      s'.accumulators.totalMs = 0 ∧ s'.acceptedMs = [300])) (by decide +kernel)
  obtain ⟨rfl, hstep, htotal, haccepted⟩ := of_decide_eq_true hcheck
  refine ⟨s', hrun, hstep, htotal, haccepted, ?_⟩
  rw [ConservesTime, hstep, htotal, haccepted]
  decide +kernel

/-- The same tick, by the general theorem. -/
theorem tick_error_loses_time_second_of_three : ∃ error s',
    failingConfig.tick (.fin 300) failingStart = .error error s' ∧
      ¬ConservesTime failingConfig.stepSizeMs failingStart s' := by
  obtain ⟨error, s', hrun, -⟩ := exists_of_throwsAnd
    (r := failingConfig.tick (.fin 300) failingStart) (p := fun _ _ => true)
    (by decide +kernel)
  exact ⟨error, s', hrun,
    (failingConfig.tick_error_loses_time failingStart s' (.fin 300) error hrun).2⟩

end IdleEngine
