import Mathlib.Algebra.Order.Group.Multiset
import Mathlib.Data.Multiset.Filter
import Mathlib.Tactic.Abel
import IdleEngine.Runtime.CommandDispatch

/-!
# Every queued command, whoever stamped it

`IdleEngine.Runtime.CommandDispatch` is about runs whose commands are all stamped with the step that
the runtime announces. A queue that was restored from a save, and to which a client adds commands
with steps of its own, holds others too. Here the commands are divided in two: the **timely** ones,
whose step is the announced one or whole steps behind it, and the rest. A timely command is never
skipped, whatever the others do: it is dispatched in its step, dropped to make room, or waits
(`Divided`).
-/

namespace IdleEngine

open CommandQueue QueueLedger Multiset

variable {Payload EventPayload World : Type}

/-- The step of a command is `step` or a whole number of steps behind it. -/
def Timely (command : Command Payload) (step : ℚ) : Prop :=
  ∃ k : ℕ, command.step = .fin (step + k)

instance (command : Command Payload) (step : ℚ) : Decidable (Timely command step) :=
  decidable_of_iff (∃ value ∈ command.step.finite?, (⌊value - step⌋₊ : ℚ) = value - step) <| by
    constructor
    · rintro ⟨value, hvalue, hwhole⟩
      refine ⟨⌊value - step⌋₊, ?_⟩
      rcases hstep : command.step with finite | _ | _ | _
      · rw [hstep] at hvalue
        obtain rfl := Option.some.inj hvalue
        rw [hwhole, add_sub_cancel]
      · rw [hstep] at hvalue
        cases hvalue
      · rw [hstep] at hvalue
        cases hvalue
      · rw [hstep] at hvalue
        cases hvalue
    · rintro ⟨k, hk⟩
      refine ⟨step + k, ?_, ?_⟩
      · rw [hk]
        rfl
      · rw [add_sub_cancel_left, Nat.floor_natCast]

/-- The commands that a history accepted in time. -/
def timelyIn (history : List (CommandEvent Payload)) : List (Command Payload) :=
  history.filterMap fun
    | .accepted command step => if Timely command step then some command else none
    | _ => none

/-- The commands that a history accepted with a step that is past or between steps. -/
def untimelyIn (history : List (CommandEvent Payload)) : List (Command Payload) :=
  history.filterMap fun
    | .accepted command step => if Timely command step then none else some command
    | _ => none

/-- The commands that a history skipped. -/
def skippedIn (history : List (CommandEvent Payload)) : List (Command Payload) :=
  history.filterMap fun
    | .skipped command _ => some command
    | _ => none

/-- Where some commands went. -/
structure Shares (Payload : Type) where
  dispatched : Multiset (Command Payload)
  dropped : Multiset (Command Payload)
  skipped : Multiset (Command Payload)
  queued : Multiset (Command Payload)
  pending : Multiset (Command Payload)

/-- All of them. -/
def Shares.all (shares : Shares Payload) : Multiset (Command Payload) :=
  shares.dispatched + shares.dropped + shares.skipped + shares.queued + shares.pending

/-- The commands of a run, divided: `timely` and `others` say where each command went that was
queued at the start (`timely₀` and `others₀`) or accepted since. -/
structure Divides (timely₀ others₀ : Multiset (Command Payload)) (timely others : Shares Payload)
    (lag : ℕ) (pending : List (Command Payload)) (s : RuntimeState Payload EventPayload World)
    (history : List (CommandEvent Payload)) : Prop where
  valid : s.commandQueue.Valid
  ahead : ∃ k : ℕ, s.nextExecutableStep = s.currentStep + (lag + k : ℕ)
  timely_all : timely.all = timely₀ + timelyIn history
  others_all : others.all = others₀ + untimelyIn history
  never_skipped : timely.skipped = 0
  dispatched : timely.dispatched + others.dispatched = dispatchedIn history
  dropped : timely.dropped + others.dropped = droppedIn history
  skipped : timely.skipped + others.skipped = skippedIn history
  queued : timely.queued + others.queued = s.commandQueue.queued.map (·.command)
  pending : timely.pending + others.pending = pending
  queued_ahead : ∀ command ∈ timely.queued, Timely command (s.currentStep + lag)
  pending_now : ∀ command ∈ timely.pending, command.step = .fin s.currentStep
  on_time : ∀ command step, CommandEvent.dispatched command step ∈ history →
    command.step = .fin step

/-- The commands of a run can be divided. -/
def Divided (timely₀ others₀ : Multiset (Command Payload)) (lag : ℕ)
    (pending : List (Command Payload)) (s : RuntimeState Payload EventPayload World)
    (history : List (CommandEvent Payload)) : Prop :=
  ∃ timely others, Divides timely₀ others₀ timely others lag pending s history

namespace Divides

variable {timely₀ others₀ : Multiset (Command Payload)} {timely others : Shares Payload} {lag : ℕ}
  {pending : List (Command Payload)} {s s' : RuntimeState Payload EventPayload World}
  {history : List (CommandEvent Payload)}

theorem of_eq (h : Divides timely₀ others₀ timely others lag pending s history)
    (hqueue : s'.commandQueue = s.commandQueue) (hstep : s'.currentStep = s.currentStep)
    (hnext : s'.nextExecutableStep = s.nextExecutableStep) :
    Divides timely₀ others₀ timely others lag pending s' history where
  valid := by
    rw [hqueue]
    exact h.valid
  ahead := by
    rw [hstep, hnext]
    exact h.ahead
  timely_all := h.timely_all
  others_all := h.others_all
  never_skipped := h.never_skipped
  dispatched := h.dispatched
  dropped := h.dropped
  skipped := h.skipped
  queued := by
    rw [hqueue]
    exact h.queued
  pending := h.pending
  queued_ahead := by
    rw [hstep]
    exact h.queued_ahead
  pending_now := by
    rw [hstep]
    exact h.pending_now
  on_time := h.on_time

/-- The first of two owners gives one item away, or the second does. -/
theorem take_cons {α : Type} {a b rest : Multiset α} {item : α} (h : a + b = item ::ₘ rest) :
    (∃ a', a = item ::ₘ a' ∧ a' + b = rest) ∨ ∃ b', b = item ::ₘ b' ∧ a + b' = rest := by
  have hmem : item ∈ a + b := h ▸ mem_cons_self item rest
  rcases mem_add.mp hmem with ha | hb
  · obtain ⟨a', rfl⟩ := exists_cons_of_mem ha
    refine .inl ⟨a', rfl, ?_⟩
    rw [cons_add] at h
    exact (cons_inj_right item).mp h
  · obtain ⟨b', rfl⟩ := exists_cons_of_mem hb
    refine .inr ⟨b', rfl, ?_⟩
    rw [add_cons] at h
    exact (cons_inj_right item).mp h

/-- Nothing is pending, so in neither share. -/
theorem pending_eq_zero (h : Divides timely₀ others₀ timely others lag [] s history) :
    timely.pending = 0 ∧ others.pending = 0 := by
  have hsum : timely.pending + others.pending = 0 := h.pending
  constructor
  · exact le_zero.mp (hsum ▸ le_add_right _ _)
  · exact le_zero.mp (hsum ▸ le_add_left _ _)

variable (h : Divides timely₀ others₀ timely others lag pending s history)
include h

theorem drop {r : CommandQueue Payload} {victim : CommandQueueEntry Payload} (hr : r.Valid)
    (hperm : s.commandQueue.queued.Perm (victim :: r.queued)) :
    Divided timely₀ others₀ lag pending { s with commandQueue := r }
      (history ++ [.dropped victim.command]) := by
  have hqueue : timely.queued + others.queued =
      victim.command ::ₘ (r.queued.map (·.command) : Multiset (Command Payload)) := by
    rw [h.queued, cons_coe]
    exact coe_eq_coe.mpr (hperm.map _)
  have hdropped : (droppedIn (history ++ [.dropped victim.command]) : Multiset _) =
      victim.command ::ₘ (droppedIn history : Multiset (Command Payload)) := by
    rw [droppedIn, List.filterMap_append, ← coe_add, add_comm]
    rfl
  have htimely : timelyIn (history ++ [.dropped victim.command]) = timelyIn history := by
    simp [timelyIn]
  have huntimely : untimelyIn (history ++ [.dropped victim.command]) = untimelyIn history := by
    simp [untimelyIn]
  have hdispatched : dispatchedIn (history ++ [.dropped victim.command]) = dispatchedIn history := by
    simp [dispatchedIn]
  have hskipped : skippedIn (history ++ [.dropped victim.command]) = skippedIn history := by
    simp [skippedIn]
  have hontime : ∀ command step,
      CommandEvent.dispatched command step ∈ history ++ [.dropped victim.command] →
        command.step = .fin step := by
    simpa using h.on_time
  rcases take_cons hqueue with ⟨rest, hrest, hleft⟩ | ⟨rest, hrest, hleft⟩
  · refine ⟨{ timely with dropped := victim.command ::ₘ timely.dropped, queued := rest }, others,
      hr, h.ahead, ?_, ?_, h.never_skipped, ?_, ?_, ?_, hleft, h.pending, ?_, h.pending_now,
      hontime⟩
    · rw [htimely, ← h.timely_all, Shares.all, Shares.all, hrest]
      simp only [← singleton_add]
      abel
    · rw [huntimely, h.others_all]
    · rw [hdispatched, h.dispatched]
    · rw [hdropped, ← h.dropped, cons_add]
    · rw [hskipped, h.skipped]
    · intro command hmem
      exact h.queued_ahead command (hrest ▸ mem_cons_of_mem hmem)
  · refine ⟨timely, { others with dropped := victim.command ::ₘ others.dropped, queued := rest },
      hr, h.ahead, ?_, ?_, h.never_skipped, ?_, ?_, ?_, hleft, h.pending, h.queued_ahead,
      h.pending_now, hontime⟩
    · rw [htimely, h.timely_all]
    · rw [huntimely, ← h.others_all, Shares.all, Shares.all, hrest]
      simp only [← singleton_add]
      abel
    · rw [hdispatched, h.dispatched]
    · rw [hdropped, ← h.dropped, add_cons]
    · rw [hskipped, h.skipped]

theorem accept (command : Command Payload) :
    Divided timely₀ others₀ lag pending { s with commandQueue := s.commandQueue.insert command }
      (history ++ [.accepted command s.nextExecutableStep]) := by
  have hqueue : ((s.commandQueue.insert command).queued.map (·.command) : Multiset _) =
      command ::ₘ (s.commandQueue.queued.map (·.command) : Multiset (Command Payload)) := by
    rw [cons_coe]
    exact coe_eq_coe.mpr ((insert_queued h.valid command).map _)
  have hdispatched : dispatchedIn (history ++ [.accepted command s.nextExecutableStep]) =
      dispatchedIn history := by
    simp [dispatchedIn]
  have hdropped : droppedIn (history ++ [.accepted command s.nextExecutableStep]) =
      droppedIn history := by
    simp [droppedIn]
  have hskipped : skippedIn (history ++ [.accepted command s.nextExecutableStep]) =
      skippedIn history := by
    simp [skippedIn]
  have hontime : ∀ other step, CommandEvent.dispatched other step ∈
      history ++ [.accepted command s.nextExecutableStep] → other.step = .fin step := by
    simpa using h.on_time
  -- a timely command joins the one share, any other command the second
  by_cases htime : Timely command s.nextExecutableStep
  · have htimely : (timelyIn (history ++ [.accepted command s.nextExecutableStep]) : Multiset _) =
        command ::ₘ (timelyIn history : Multiset (Command Payload)) := by
      rw [timelyIn, List.filterMap_append, ← coe_add, add_comm]
      simp [htime, timelyIn]
    have huntimely : untimelyIn (history ++ [.accepted command s.nextExecutableStep]) =
        untimelyIn history := by
      simp [untimelyIn, htime]
    refine ⟨{ timely with queued := command ::ₘ timely.queued }, others, h.valid.insert command,
      h.ahead, ?_, ?_, h.never_skipped, ?_, ?_, ?_, ?_, h.pending, ?_, h.pending_now, hontime⟩
    · rw [htimely, add_cons, ← h.timely_all, Shares.all, Shares.all]
      simp only [← singleton_add]
      abel
    · rw [huntimely, h.others_all]
    · rw [hdispatched, h.dispatched]
    · rw [hdropped, h.dropped]
    · rw [hskipped, h.skipped]
    · rw [hqueue, ← h.queued, cons_add]
    · intro other hmem
      rcases mem_cons.mp hmem with rfl | hmem
      · obtain ⟨j, hj⟩ := h.ahead
        obtain ⟨k, hk⟩ := htime
        refine ⟨j + k, hk.trans (congrArg JsNumber.fin ?_)⟩
        rw [hj]
        push_cast
        ring
      · exact h.queued_ahead other hmem
  · have htimely : timelyIn (history ++ [.accepted command s.nextExecutableStep]) =
        timelyIn history := by
      simp [timelyIn, htime]
    have huntimely :
        (untimelyIn (history ++ [.accepted command s.nextExecutableStep]) : Multiset _) =
          command ::ₘ (untimelyIn history : Multiset (Command Payload)) := by
      rw [untimelyIn, List.filterMap_append, ← coe_add, add_comm]
      simp [htime, untimelyIn]
    refine ⟨timely, { others with queued := command ::ₘ others.queued }, h.valid.insert command,
      h.ahead, ?_, ?_, h.never_skipped, ?_, ?_, ?_, ?_, h.pending, h.queued_ahead, h.pending_now,
      hontime⟩
    · rw [htimely, h.timely_all]
    · rw [huntimely, add_cons, ← h.others_all, Shares.all, Shares.all]
      simp only [← singleton_add]
      abel
    · rw [hdispatched, h.dispatched]
    · rw [hdropped, h.dropped]
    · rw [hskipped, h.skipped]
    · rw [hqueue, ← h.queued, add_cons]

theorem makeRoom {priority : CommandPriority}
    {out : Option (CommandQueueEntry Payload) × CommandQueue Payload}
    (hroom : s.commandQueue.makeRoom priority = some out) :
    Divided timely₀ others₀ lag pending { s with commandQueue := out.2 }
      (history ++ ((CommandQueue.dropped out).map (·.command)).map .dropped) := by
  obtain ⟨hvalid, -, hperm⟩ := h.valid.makeRoom hroom
  obtain ⟨victim, r⟩ := out
  rcases victim with _ | victim
  · refine ⟨timely, others, hvalid, h.ahead, ?_, ?_, h.never_skipped, ?_, ?_, ?_, ?_, h.pending,
      h.queued_ahead, h.pending_now, ?_⟩
    · simpa [CommandQueue.dropped] using h.timely_all
    · simpa [CommandQueue.dropped] using h.others_all
    · simpa [CommandQueue.dropped] using h.dispatched
    · simpa [CommandQueue.dropped] using h.dropped
    · simpa [CommandQueue.dropped] using h.skipped
    · rw [h.queued]
      exact coe_eq_coe.mpr (hperm.map _)
    · simpa [CommandQueue.dropped] using h.on_time
  · exact h.drop hvalid hperm

end Divides

namespace Divided

variable {timely₀ others₀ : Multiset (Command Payload)} {lag : ℕ}
  {pending : List (Command Payload)} {s : RuntimeState Payload EventPayload World}
  {history : List (CommandEvent Payload)}

/-- **Enqueueing.** Whatever the queue does with a command, the commands can be divided again. -/
theorem enqueue (h : Divided timely₀ others₀ lag pending s history)
    (cloneStructured : Payload → Except String Payload) (command : Command Payload) :
    Divided timely₀ others₀ lag pending
      { s with commandQueue := (s.commandQueue.enqueue cloneStructured command).2 }
      (history ++ enqueueEvents cloneStructured command s) := by
  obtain ⟨timely, others, hdivides⟩ := h
  rw [enqueueEvents]
  rcases enqueue_cases cloneStructured s.commandQueue command with
    ⟨hqueue, hsnapshot, hvictim⟩ | ⟨out, hroom, hvictim, hrest⟩
  · rw [hqueue, hsnapshot, hvictim]
    refine ⟨timely, others, ?_⟩
    simpa using hdivides
  · have hroomy := hdivides.makeRoom hroom
    rcases hrest with ⟨hqueue, hsnapshot⟩ | ⟨accepted, hqueue, hsnapshot⟩
    · rw [hqueue, hsnapshot, hvictim]
      simpa using hroomy
    · rw [hqueue, hsnapshot, hvictim]
      obtain ⟨timely', others', hdivides'⟩ := hroomy
      simpa using hdivides'.accept accepted

/-- The commands of a queue that are due at a step, and the others. -/
theorem coe_filter_due (entries : List (CommandQueueEntry Payload)) (step : JsNumber)
    (keep : Bool → Bool) :
    ((entries.filter fun entry => keep (due step entry)).map (·.command) : Multiset _) =
      filter (fun command => keep (command.step.le step) = true)
        (entries.map (·.command) : Multiset (Command Payload)) := by
  rw [filter_coe, List.filter_map]
  simp only [Function.comp_def, Bool.decide_eq_true]
  rfl

/-- **Capture.** Of the timely commands exactly those of the current step are captured, and the
others lie at least one step ahead. -/
theorem capture (h : Divided timely₀ others₀ 0 [] s history) :
    Divided timely₀ others₀ 1 (s.commandQueue.dequeueUpToStep (.fin s.currentStep)).1
      { s with
        commandQueue := (s.commandQueue.dequeueUpToStep (.fin s.currentStep)).2
        nextExecutableStep := s.currentStep + 1 } history := by
  obtain ⟨timely, others, h⟩ := h
  obtain ⟨hnone, hnone'⟩ := h.pending_eq_zero
  let isDue : Command Payload → Prop := fun command =>
    command.step.le (.fin s.currentStep) = true
  have hcaptured : (((s.commandQueue.dequeueUpToStep (.fin s.currentStep)).1 : List _) :
      Multiset (Command Payload)) =
        filter isDue (timely.queued + others.queued) := by
    rw [(dequeueUpToStep_spec h.valid _).1, h.queued]
    exact coe_filter_due _ _ id
  have hleft : ((s.commandQueue.dequeueUpToStep (.fin s.currentStep)).2.queued.map (·.command) :
      Multiset (Command Payload)) =
        filter (fun command => ¬ isDue command) (timely.queued + others.queued) := by
    rw [dequeueUpToStep_queued h.valid, h.queued]
    refine (coe_filter_due _ _ not).trans (filter_congr fun command _ => ?_)
    simp only [isDue, Bool.not_eq_true', Bool.not_eq_true]
  -- taking the captured ones out of a share leaves its sum
  have hshare : ∀ shares : Shares Payload, shares.pending = 0 →
      Shares.all { shares with
        queued := shares.queued.filter fun command => ¬ isDue command
        pending := shares.queued.filter isDue } = shares.all := by
    intro shares hpending
    simp only [Shares.all, hpending, add_zero]
    rw [add_assoc, add_comm (filter _ _), filter_add_not]
  refine ⟨_, _, h.valid.dequeueUpToStep _, ⟨0, by simp⟩, (hshare timely hnone).trans h.timely_all,
    (hshare others hnone').trans h.others_all, h.never_skipped, h.dispatched, h.dropped, h.skipped,
    ?_, ?_, ?_, ?_, h.on_time⟩
  · exact (filter_add _ _ _).symm.trans hleft.symm
  · exact (filter_add _ _ _).symm.trans hcaptured.symm
  · intro command hmem
    obtain ⟨hqueued, hlater⟩ := mem_filter.mp hmem
    obtain ⟨k, hk⟩ := h.queued_ahead command hqueued
    have hpos : k ≠ 0 := by
      rintro rfl
      refine hlater ?_
      simp only [isDue, hk]
      simp [JsNumber.le]
    obtain ⟨j, rfl⟩ := Nat.exists_eq_succ_of_ne_zero hpos
    refine ⟨j, hk.trans (congrArg JsNumber.fin ?_)⟩
    push_cast
    ring
  · intro command hmem
    obtain ⟨hqueued, hdue⟩ := mem_filter.mp hmem
    obtain ⟨k, hk⟩ := h.queued_ahead command hqueued
    have hle : (k : ℚ) ≤ 0 := by
      simpa [isDue, hk, JsNumber.le] using hdue
    have hzero : k = 0 := Nat.le_zero.mp (by exact_mod_cast hle)
    rw [hk, hzero]
    simp

theorem skip {command : Command Payload}
    (h : Divided timely₀ others₀ lag (command :: pending) s history)
    (hne : command.step ≠ .fin s.currentStep) :
    Divided timely₀ others₀ lag pending s (history ++ [.skipped command s.currentStep]) := by
  obtain ⟨timely, others, h⟩ := h
  have hpending := h.pending
  rw [← cons_coe] at hpending
  rcases Divides.take_cons hpending with ⟨rest, hrest, -⟩ | ⟨rest, hrest, hleft⟩
  · exact absurd (h.pending_now command (hrest ▸ mem_cons_self command rest)) hne
  · have hskipped : (skippedIn (history ++ [.skipped command s.currentStep]) : Multiset _) =
        command ::ₘ (skippedIn history : Multiset (Command Payload)) := by
      rw [skippedIn, List.filterMap_append, ← coe_add, add_comm]
      rfl
    refine ⟨timely, { others with skipped := command ::ₘ others.skipped, pending := rest },
      h.valid, h.ahead, ?_, ?_, h.never_skipped, ?_, ?_, ?_, h.queued, hleft, h.queued_ahead,
      h.pending_now, ?_⟩
    · simpa [timelyIn] using h.timely_all
    · have hsame : untimelyIn (history ++ [.skipped command s.currentStep]) =
          untimelyIn history := by
        simp [untimelyIn]
      rw [hsame, ← h.others_all, Shares.all, Shares.all, hrest]
      simp only [← singleton_add]
      abel
    · simpa [dispatchedIn] using h.dispatched
    · simpa [droppedIn] using h.dropped
    · rw [hskipped, ← h.skipped, add_cons]
    · simpa using h.on_time

theorem dispatch {command : Command Payload}
    (h : Divided timely₀ others₀ lag (command :: pending) s history)
    (hnow : command.step = .fin s.currentStep) :
    Divided timely₀ others₀ lag pending s (history ++ [.dispatched command s.currentStep]) := by
  obtain ⟨timely, others, h⟩ := h
  have hpending := h.pending
  rw [← cons_coe] at hpending
  have hdispatched : (dispatchedIn (history ++ [.dispatched command s.currentStep]) : Multiset _) =
      command ::ₘ (dispatchedIn history : Multiset (Command Payload)) := by
    rw [dispatchedIn, List.filterMap_append, ← coe_add, add_comm]
    rfl
  have htimely : timelyIn (history ++ [.dispatched command s.currentStep]) = timelyIn history := by
    simp [timelyIn]
  have huntimely : untimelyIn (history ++ [.dispatched command s.currentStep]) =
      untimelyIn history := by
    simp [untimelyIn]
  have hdropped : droppedIn (history ++ [.dispatched command s.currentStep]) = droppedIn history := by
    simp [droppedIn]
  have hskipped : skippedIn (history ++ [.dispatched command s.currentStep]) = skippedIn history := by
    simp [skippedIn]
  have hontime : ∀ other step, CommandEvent.dispatched other step ∈
      history ++ [.dispatched command s.currentStep] → other.step = .fin step := by
    intro other step hmem
    rcases List.mem_append.mp hmem with hold | hnew
    · exact h.on_time other step hold
    · obtain ⟨rfl, rfl⟩ := CommandEvent.dispatched.inj (List.mem_singleton.mp hnew)
      exact hnow
  -- the command leaves the pending ones of whichever share holds it
  rcases Divides.take_cons hpending with ⟨rest, hrest, hleft⟩ | ⟨rest, hrest, hleft⟩
  · refine ⟨{ timely with dispatched := command ::ₘ timely.dispatched, pending := rest }, others,
      h.valid, h.ahead, ?_, ?_, h.never_skipped, ?_, ?_, ?_, h.queued, hleft, h.queued_ahead, ?_,
      hontime⟩
    · rw [htimely, ← h.timely_all, Shares.all, Shares.all, hrest]
      simp only [← singleton_add]
      abel
    · rw [huntimely, h.others_all]
    · rw [hdispatched, ← h.dispatched, cons_add]
    · rw [hdropped, h.dropped]
    · rw [hskipped, h.skipped]
    · intro other hmem
      exact h.pending_now other (hrest ▸ mem_cons_of_mem hmem)
  · refine ⟨timely, { others with dispatched := command ::ₘ others.dispatched, pending := rest },
      h.valid, h.ahead, ?_, ?_, h.never_skipped, ?_, ?_, ?_, h.queued, hleft, h.queued_ahead,
      h.pending_now, hontime⟩
    · rw [htimely, h.timely_all]
    · rw [huntimely, ← h.others_all, Shares.all, Shares.all, hrest]
      simp only [← singleton_add]
      abel
    · rw [hdispatched, ← h.dispatched, add_cons]
    · rw [hdropped, h.dropped]
    · rw [hskipped, h.skipped]

theorem advance (h : Divided timely₀ others₀ 1 [] s history) :
    Divided timely₀ others₀ 0 []
      { s with currentStep := s.currentStep + 1, nextExecutableStep := s.currentStep + 1 }
      history := by
  obtain ⟨timely, others, h⟩ := h
  obtain ⟨hnone, -⟩ := h.pending_eq_zero
  refine ⟨timely, others, h.valid, ⟨0, by simp⟩, h.timely_all, h.others_all, h.never_skipped,
    h.dispatched, h.dropped, h.skipped, h.queued, h.pending, ?_, ?_, h.on_time⟩
  · intro command hmem
    obtain ⟨k, hk⟩ := h.queued_ahead command hmem
    refine ⟨k, hk.trans (congrArg JsNumber.fin ?_)⟩
    push_cast
    ring
  · intro command hmem
    rw [hnone] at hmem
    exact absurd hmem (notMem_zero command)

/-- A step that threw leaves the counter; what is queued lies even further ahead. -/
theorem relax (h : Divided timely₀ others₀ 1 [] s history) :
    Divided timely₀ others₀ 0 [] s history := by
  obtain ⟨timely, others, h⟩ := h
  refine ⟨timely, others, h.valid, ?_, h.timely_all, h.others_all, h.never_skipped, h.dispatched,
    h.dropped, h.skipped, h.queued, h.pending, ?_, h.pending_now, h.on_time⟩
  · obtain ⟨k, hk⟩ := h.ahead
    exact ⟨1 + k, by simpa using hk⟩
  · intro command hmem
    obtain ⟨k, hk⟩ := h.queued_ahead command hmem
    refine ⟨1 + k, hk.trans (congrArg JsNumber.fin ?_)⟩
    push_cast
    ring

end Divided

/-- **The division is an account**: every handler, step and tick keeps it. -/
theorem divided_account (cloneStructured : Payload → Except String Payload)
    (timely₀ others₀ : Multiset (Command Payload)) :
    CommandAccount cloneStructured
      (Divided timely₀ others₀ : ℕ → List (Command Payload) →
        RuntimeState Payload EventPayload World → List (CommandEvent Payload) → Prop) where
  of_eq := fun ⟨timely, others, h⟩ hqueue hstep hnext =>
    ⟨timely, others, h.of_eq hqueue hstep hnext⟩
  enqueue := fun h command => h.enqueue cloneStructured command
  capture := fun h => h.capture
  skip := fun h hne => h.skip hne
  dispatch := fun h hnow => h.dispatch hnow
  advance := fun h => h.advance
  relax := fun h => h.relax

end IdleEngine
