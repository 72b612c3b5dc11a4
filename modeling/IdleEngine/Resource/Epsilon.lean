import Mathlib.Algebra.Order.Group.Abs
import Mathlib.Order.WithBot
import IdleEngine.Number

/-!
# Dirty tolerances

Two values count as equal for publishing when they differ by no more than a tolerance: an
absolute floor, a relative part under a ceiling, and, for a resource that overrides the ceiling,
at least the override itself. A `Precision` carries the order of its four constants, which
`resolvePrecisionConfig` establishes.
-/

namespace IdleEngine

/-- `EngineConfig['precision']`, resolved. -/
structure Precision where
  dirtyEpsilonAbsolute : ℚ
  dirtyEpsilonRelative : ℚ
  dirtyEpsilonCeiling : ℚ
  dirtyEpsilonOverrideMax : ℚ
  absolute_nonneg : 0 ≤ dirtyEpsilonAbsolute
  relative_nonneg : 0 ≤ dirtyEpsilonRelative
  absolute_le_ceiling : dirtyEpsilonAbsolute ≤ dirtyEpsilonCeiling
  ceiling_le_overrideMax : dirtyEpsilonCeiling ≤ dirtyEpsilonOverrideMax

namespace Precision

/-- `toNonNegativeNumber`, with the default it falls back to. -/
def nonNegativeOr (value : Option JsNumber) (default : ℚ) : ℚ :=
  match value.bind JsNumber.finite? with
  | none => default
  | some value => if 0 ≤ value then value else default

theorem nonNegativeOr_nonneg {value : Option JsNumber} {default : ℚ} (h : 0 ≤ default) :
    0 ≤ nonNegativeOr value default := by
  unfold nonNegativeOr
  split
  · exact h
  · split
    · assumption
    · exact h

/-- `resolvePrecisionConfig`. -/
def resolve (absolute relative ceiling overrideMax : Option JsNumber) : Precision :=
  let dirtyEpsilonAbsolute := nonNegativeOr absolute (1 / 1000000000)
  let dirtyEpsilonRelative := nonNegativeOr relative (1 / 1000000000)
  let dirtyEpsilonCeiling := max dirtyEpsilonAbsolute (nonNegativeOr ceiling (1 / 1000))
  let dirtyEpsilonOverrideMax := max dirtyEpsilonCeiling (nonNegativeOr overrideMax (1 / 2))
  { dirtyEpsilonAbsolute, dirtyEpsilonRelative, dirtyEpsilonCeiling, dirtyEpsilonOverrideMax
    absolute_nonneg := nonNegativeOr_nonneg (by norm_num)
    relative_nonneg := nonNegativeOr_nonneg (by norm_num)
    absolute_le_ceiling := le_max_left _ _
    ceiling_le_overrideMax := le_max_left _ _ }

/-- The precision of an engine that is not configured. -/
def default : Precision := resolve none none none none

/-- `clampDirtyTolerance`. -/
def clampDirtyTolerance (p : Precision) (value : JsNumber) : ℚ :=
  match value.finite? with
  | none => p.dirtyEpsilonCeiling
  | some value =>
      if value < p.dirtyEpsilonAbsolute then p.dirtyEpsilonAbsolute
      else if p.dirtyEpsilonOverrideMax < value then p.dirtyEpsilonOverrideMax
      else value

theorem clampDirtyTolerance_le (p : Precision) (value : JsNumber) :
    p.clampDirtyTolerance value ≤ p.dirtyEpsilonOverrideMax := by
  unfold clampDirtyTolerance
  split
  · exact p.ceiling_le_overrideMax
  · split
    · exact p.absolute_le_ceiling.trans p.ceiling_le_overrideMax
    · split
      · exact le_refl _
      · next hle => exact not_lt.mp hle

/-- The effective tolerance of `epsilonEquals`. -/
def tolerance (p : Precision) (a b toleranceCeiling : ℚ) (floorOverride : Bool) : ℚ :=
  let magnitude := max |a| |b|
  let relativeTolerance := p.dirtyEpsilonRelative * magnitude
  let tolerance := max p.dirtyEpsilonAbsolute (min toleranceCeiling relativeTolerance)
  if floorOverride then max tolerance toleranceCeiling else tolerance

theorem tolerance_le (p : Precision) {t : ℚ} (ht : t ≤ p.dirtyEpsilonOverrideMax) (a b : ℚ)
    (o : Bool) : p.tolerance a b t o ≤ p.dirtyEpsilonOverrideMax := by
  have habsolute := p.absolute_le_ceiling.trans p.ceiling_le_overrideMax
  have hbase : max p.dirtyEpsilonAbsolute (min t (p.dirtyEpsilonRelative * max |a| |b|)) ≤
      p.dirtyEpsilonOverrideMax := max_le habsolute ((min_le_left _ _).trans ht)
  unfold tolerance
  cases o with
  | false => exact hbase
  | true => exact max_le hbase ht

/-- `epsilonEquals` on finite numbers. -/
def epsilonEquals (p : Precision) (a b toleranceCeiling : ℚ) (floorOverride : Bool) : Bool :=
  decide (a = b) || decide (|a - b| ≤ p.tolerance a b toleranceCeiling floorOverride)

/-- `epsilonEquals` where a side may be infinite: infinity equals only itself. -/
def epsilonEqualsTop (p : Precision) (a b : WithTop ℚ) (toleranceCeiling : ℚ)
    (floorOverride : Bool) : Bool :=
  match a, b with
  | none, none => true
  | some a, some b => p.epsilonEquals a b toleranceCeiling floorOverride
  | _, _ => false

@[simp]
theorem epsilonEquals_self (p : Precision) (a t : ℚ) (o : Bool) :
    p.epsilonEquals a a t o = true := by
  simp [epsilonEquals]

@[simp]
theorem epsilonEqualsTop_self (p : Precision) (a : WithTop ℚ) (t : ℚ) (o : Bool) :
    p.epsilonEqualsTop a a t o = true := by
  cases a <;> simp [epsilonEqualsTop]

end Precision

end IdleEngine
