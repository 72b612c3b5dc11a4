import Mathlib.Algebra.Order.BigOperators.Group.List
import Mathlib.Tactic.Linarith
import IdleEngine.Number

/-!
# The time backlog of the runtime

Game time waits in two accumulators: host-frame time from `tick` and `fastForward`, and
credited time from `creditTime`. Every write goes through `normalizeBacklogMs`, which turns
anything up to `accumulatorEpsilonMs` into zero, so a stored accumulator carries the proof that
it is zero or above the epsilon.

Normalization is where time can be lost. `normalizeBacklogMs_add` and
`normalizeBacklogMs_sub` bound the loss by a potential: an accumulator that is not zero may
still lose one epsilon, an empty one nothing.
-/

namespace IdleEngine

/-- `ACCUMULATOR_EPSILON_MS`. -/
def accumulatorEpsilonMs : ℚ := 1 / 1000000000

theorem accumulatorEpsilonMs_pos : 0 < accumulatorEpsilonMs := by
  norm_num [accumulatorEpsilonMs]

/-- A stored accumulator value. -/
structure BacklogMs where
  val : ℚ
  normalized : val = 0 ∨ accumulatorEpsilonMs < val

theorem BacklogMs.ext {a b : BacklogMs} (h : a.val = b.val) : a = b := by
  cases a
  cases b
  simpa using h

theorem BacklogMs.nonneg (b : BacklogMs) : 0 ≤ b.val := by
  rcases b.normalized with h | h
  · exact h.ge
  · exact (accumulatorEpsilonMs_pos.trans h).le

/-- `normalizeBacklogMs` on a finite number. -/
def normalizeBacklogMs (value : ℚ) : BacklogMs :=
  if h : accumulatorEpsilonMs < value then ⟨value, .inr h⟩ else ⟨0, .inl rfl⟩

/-- `normalizeBacklogMs` on an unchecked value: what is not a finite number counts as zero. -/
def normalizeBacklogValue (value : Option JsNumber) : BacklogMs :=
  match value.bind JsNumber.finite? with
  | none => ⟨0, .inl rfl⟩
  | some value => normalizeBacklogMs value

/-- A stored value is a fixed point of the normalization. -/
@[simp]
theorem normalizeBacklogMs_val (b : BacklogMs) : normalizeBacklogMs b.val = b := by
  refine BacklogMs.ext ?_
  rw [normalizeBacklogMs]
  split
  · rfl
  · next h => exact (b.normalized.resolve_right h).symm

/-- Whether an accumulator still has an epsilon to lose. -/
def BacklogMs.openCount (b : BacklogMs) : ℚ := if b.val = 0 then 0 else 1

/-- Adding time loses at most an epsilon, and only into an empty accumulator. -/
theorem normalizeBacklogMs_add (b : BacklogMs) {deltaMs : ℚ} (hpos : 0 < deltaMs) :
    (normalizeBacklogMs (b.val + deltaMs)).val ≤ b.val + deltaMs ∧
      b.val + deltaMs - accumulatorEpsilonMs * b.openCount - accumulatorEpsilonMs ≤
        (normalizeBacklogMs (b.val + deltaMs)).val -
          accumulatorEpsilonMs * (normalizeBacklogMs (b.val + deltaMs)).openCount := by
  have heps := accumulatorEpsilonMs_pos
  have hb := b.nonneg
  rw [normalizeBacklogMs]
  split
  · next h =>
    refine ⟨le_rfl, ?_⟩
    have hne : b.val + deltaMs ≠ 0 := by linarith
    simp only [BacklogMs.openCount, hne, if_false]
    split <;> linarith
  · next h =>
    refine ⟨by simp only; linarith, ?_⟩
    simp only [BacklogMs.openCount, if_true]
    split <;> linarith

/-- Taking time out loses at most the epsilon the accumulator had to lose. -/
theorem normalizeBacklogMs_sub (b : BacklogMs) {amountMs : ℚ} (hnonneg : 0 ≤ amountMs)
    (hle : amountMs ≤ b.val) :
    (normalizeBacklogMs (b.val - amountMs)).val ≤ b.val - amountMs ∧
      b.val - amountMs - accumulatorEpsilonMs * b.openCount ≤
        (normalizeBacklogMs (b.val - amountMs)).val -
          accumulatorEpsilonMs * (normalizeBacklogMs (b.val - amountMs)).openCount := by
  have heps := accumulatorEpsilonMs_pos
  rw [normalizeBacklogMs]
  split
  · next h =>
    refine ⟨le_rfl, ?_⟩
    have hne : b.val - amountMs ≠ 0 := by linarith
    have hne' : b.val ≠ 0 := by linarith
    simp only [BacklogMs.openCount, hne, hne', if_false, le_refl]
  · next h =>
    refine ⟨by simp only; linarith, ?_⟩
    simp only [BacklogMs.openCount, if_true]
    split <;> linarith

/-- The two accumulators. -/
structure Accumulators where
  hostFrame : BacklogMs
  credited : BacklogMs

namespace Accumulators

/-- `restoreAccumulatorBacklog`: both values are checked and normalized. -/
def restore (hostFrameMs creditedMs : Option JsNumber) : Accumulators :=
  { hostFrame := normalizeBacklogValue hostFrameMs, credited := normalizeBacklogValue creditedMs }

/-- `getAccumulatorBacklogState().creditedMs`. -/
def creditedMs (a : Accumulators) : ℚ := (normalizeBacklogMs a.credited.val).val

/-- `getAccumulatorBacklogState().hostFrameMs`. -/
def hostFrameMs (a : Accumulators) : ℚ := (normalizeBacklogMs a.hostFrame.val).val

/-- `getAccumulatorBacklogState().totalMs`. -/
def totalMs (a : Accumulators) : ℚ := (normalizeBacklogMs (a.hostFrameMs + a.creditedMs)).val

@[simp]
theorem creditedMs_eq (a : Accumulators) : a.creditedMs = a.credited.val := by simp [creditedMs]

@[simp]
theorem hostFrameMs_eq (a : Accumulators) : a.hostFrameMs = a.hostFrame.val := by
  simp [hostFrameMs]

/-- The total backlog is the plain sum: normalizing it changes nothing. -/
@[simp]
theorem totalMs_eq (a : Accumulators) : a.totalMs = a.hostFrame.val + a.credited.val := by
  have hh := a.hostFrame.nonneg
  have hc := a.credited.nonneg
  rw [totalMs, hostFrameMs_eq, creditedMs_eq, normalizeBacklogMs]
  split
  · rfl
  · next h =>
    rcases a.hostFrame.normalized with h₁ | h₁ <;> rcases a.credited.normalized with h₂ | h₂
    · simp [h₁, h₂]
    all_goals exact absurd (by linarith) h

/-- The epsilons the accumulators still have to lose. -/
def openCount (a : Accumulators) : ℚ := a.hostFrame.openCount + a.credited.openCount

/-- Add accepted host-frame time. -/
def addHostFrame (a : Accumulators) (deltaMs : ℚ) : Accumulators :=
  { a with hostFrame := normalizeBacklogMs (a.hostFrame.val + deltaMs) }

/-- Add accepted credited time. -/
def addCredited (a : Accumulators) (deltaMs : ℚ) : Accumulators :=
  { a with credited := normalizeBacklogMs (a.credited.val + deltaMs) }

end Accumulators

/-- Which accumulators a drain may use. -/
inductive BacklogSource
  | any
  | credited
  deriving DecidableEq, Repr

namespace Accumulators

/-- The time a drain may use. -/
def availableMs (a : Accumulators) : BacklogSource → ℚ
  | .credited => a.creditedMs
  | .any => a.totalMs

/-- `consumeAccumulatorBacklog`: host-frame time goes first, credited time pays the rest. -/
def consumeAccumulatorBacklog (a : Accumulators) (amountMs : ℚ) : BacklogSource → Accumulators
  | .credited =>
      if amountMs ≤ 0 then a
      else { a with credited := normalizeBacklogMs (a.credited.val - amountMs) }
  | .any =>
      if amountMs ≤ 0 then a
      else
        let hostFrameConsumedMs := min a.hostFrame.val amountMs
        let hostFrame := normalizeBacklogMs (a.hostFrame.val - hostFrameConsumedMs)
        let remainingMs := amountMs - hostFrameConsumedMs
        if 0 < remainingMs then
          { hostFrame, credited := normalizeBacklogMs (a.credited.val - remainingMs) }
        else { a with hostFrame }

theorem consumeAccumulatorBacklog_of_nonpos (a : Accumulators) {amountMs : ℚ}
    (h : amountMs ≤ 0) (source : BacklogSource) :
    a.consumeAccumulatorBacklog amountMs source = a := by
  cases source <;> simp [consumeAccumulatorBacklog, h]

/-- Consuming available time takes exactly that time out, up to the epsilons there were. -/
theorem consumeAccumulatorBacklog_spec (a : Accumulators) {amountMs : ℚ} {source : BacklogSource}
    (hnonneg : 0 ≤ amountMs) (hle : amountMs ≤ a.availableMs source) :
    (a.consumeAccumulatorBacklog amountMs source).totalMs ≤ a.totalMs - amountMs ∧
      a.totalMs - amountMs - accumulatorEpsilonMs * a.openCount ≤
        (a.consumeAccumulatorBacklog amountMs source).totalMs -
          accumulatorEpsilonMs * (a.consumeAccumulatorBacklog amountMs source).openCount := by
  rcases hnonneg.eq_or_lt with rfl | hpos
  · rw [consumeAccumulatorBacklog_of_nonpos a le_rfl]
    simp
  cases source with
  | credited =>
    rw [availableMs, creditedMs_eq] at hle
    obtain ⟨hup, hlow⟩ := normalizeBacklogMs_sub a.credited hpos.le hle
    simp only [consumeAccumulatorBacklog, not_le.mpr hpos, if_false, totalMs_eq, openCount]
    constructor <;> linarith
  | any =>
    rw [availableMs, totalMs_eq] at hle
    have hmin : min a.hostFrame.val amountMs ≤ a.hostFrame.val := min_le_left _ _
    have hmin' : min a.hostFrame.val amountMs ≤ amountMs := min_le_right _ _
    have hmin0 : 0 ≤ min a.hostFrame.val amountMs := le_min a.hostFrame.nonneg hpos.le
    obtain ⟨hup, hlow⟩ := normalizeBacklogMs_sub a.hostFrame hmin0 hmin
    simp only [consumeAccumulatorBacklog, not_le.mpr hpos, if_false, totalMs_eq, openCount]
    split
    · next hrem =>
      have hhost : min a.hostFrame.val amountMs = a.hostFrame.val :=
        min_eq_left (by
          by_contra hlt
          rw [min_eq_right (not_le.mp hlt).le] at hrem
          simp at hrem)
      rw [hhost] at hup hlow hrem ⊢
      obtain ⟨hup', hlow'⟩ := normalizeBacklogMs_sub a.credited hrem.le (by linarith)
      simp only
      constructor <;> linarith
    · next hrem =>
      have hall : min a.hostFrame.val amountMs = amountMs := by linarith
      rw [hall] at hup hlow ⊢
      constructor <;> linarith

end Accumulators

end IdleEngine
