import IdleEngine.Lib.OrderedMap
import IdleEngine.Rng

/-!
# Pseudo-random distributions

A distribution makes the next success more likely with each failure. The constant by which it does
so is computed from the stated probability with square roots and the circle number, so that
computation is given from outside (`PrdMath`).
-/

namespace IdleEngine

/-- `normalizeProbability`, of a finite number. -/
def normalizeProbability (value : ℚ) : ℚ := if value ≤ 0 then 0 else if 1 ≤ value then 1 else value

/-- `calculatePRDConstant`. -/
abbrev PrdMath := ℚ → ℚ

/-- `PseudoRandomDistribution`. -/
structure PseudoRandomDistribution where
  attempts : ℕ
  constant : ℚ
  baseProbability : ℚ
  deriving DecidableEq

namespace PseudoRandomDistribution

/-- The constructor. -/
def create (calculatePRDConstant : PrdMath) (baseProbability : ℚ) : PseudoRandomDistribution :=
  { attempts := 0
    constant := calculatePRDConstant (normalizeProbability baseProbability)
    baseProbability := normalizeProbability baseProbability }

/-- `PRD_BASE_RATE_REL_EPSILON`. -/
def baseRateRelEpsilon : ℚ := 1 / 10 ^ 6

/-- `PRD_BASE_RATE_ABS_EPSILON`. -/
def baseRateAbsEpsilon : ℚ := 1 / 10 ^ 12

/-- The difference of probabilities that counts as a change. -/
def changeThreshold (maxBase : ℚ) : ℚ :=
  if maxBase ≤ baseRateAbsEpsilon then 0 else max (baseRateRelEpsilon * maxBase) baseRateAbsEpsilon

/-- `updateBaseProbability`. -/
def updateBaseProbability (calculatePRDConstant : PrdMath) (baseProbability : ℚ)
    (prd : PseudoRandomDistribution) : PseudoRandomDistribution :=
  let normalized := normalizeProbability baseProbability
  let delta := |normalized - prd.baseProbability|
  if delta = 0 then prd
  else if delta ≤ changeThreshold (max normalized prd.baseProbability) then prd
  else
    let constant := calculatePRDConstant normalized
    { attempts :=
        if prd.constant = 0 ∨ prd.constant = 1 ∨ constant = 0 ∨ constant = 1 then 0
        else prd.attempts
      constant
      baseProbability := normalized }

/-- `roll`, with the number that was drawn. -/
def roll (drawn : ℚ) (prd : PseudoRandomDistribution) : Bool × PseudoRandomDistribution :=
  let attempts := prd.attempts + 1
  if drawn < min 1 (prd.constant * attempts) then (true, { prd with attempts := 0 })
  else (false, { prd with attempts })

end PseudoRandomDistribution

/-- `PRDRegistry`. -/
abbrev PRDRegistry := OrderedMap String PseudoRandomDistribution

/-- `getOrCreate`. -/
def PRDRegistry.getOrCreate (calculatePRDConstant : PrdMath) (registry : PRDRegistry) (id : String)
    (baseProbability : ℚ) : PseudoRandomDistribution :=
  match OrderedMap.get? registry id with
  | some existing => existing.updateBaseProbability calculatePRDConstant baseProbability
  | none => PseudoRandomDistribution.create calculatePRDConstant baseProbability

end IdleEngine
