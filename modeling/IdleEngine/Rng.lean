import Mathlib.Data.Int.ModEq
import IdleEngine.Number

/-!
# The random numbers

One generator for the whole process: the seed it was last given and its position, a 32-bit number
that every draw moves on by a constant. The numbers drawn are a mix of the bits of the position
(`Rng.mix`). A draw from a generator that was never seeded takes a seed from the host first. The
constant is odd, so that the draws stand at every 32-bit number in turn (`Rng.draws_full_period`).
-/

namespace IdleEngine

open Option

/-- The conversion of a number to an unsigned 32-bit integer; what is not finite counts as zero. -/
def JsNumber.toUint32 (value : JsNumber) : UInt32 :=
  match value.finite? with
  | none => 0
  | some value =>
      let truncated : ℤ := if 0 ≤ value then ⌊value⌋ else ⌈value⌉
      UInt32.ofNat (truncated % 2 ^ 32).toNat

/-- A number that is an unsigned 32-bit integer is converted to itself. -/
theorem JsNumber.toUint32_toNat (value : UInt32) : (JsNumber.fin value.toNat).toUint32 = value := by
  have hlt : value.toNat < 2 ^ 32 := value.toNat_lt
  have hnonneg : (0 : ℚ) ≤ (value.toNat : ℚ) := Nat.cast_nonneg _
  have hmod : ((value.toNat : ℤ) % 2 ^ 32).toNat = value.toNat := by
    omega
  rw [toUint32]
  simp only [finite?, if_pos hnonneg, Int.floor_natCast, hmod, UInt32.ofNat_toNat]

/-- `toInt32`, on a whole number. -/
def toInt32 (value : ℤ) : ℤ :=
  let mod := value % 2 ^ 32
  if 2 ^ 31 ≤ mod then mod - 2 ^ 32 else mod

/-- `currentSeed` and `rngState`. -/
structure Rng where
  currentSeed : Option UInt32
  rngState : Option ℤ
  deriving DecidableEq

namespace Rng

/-- The position that a seed starts from. -/
def startState (seed : UInt32) : ℤ := if seed = 0 then 1 else seed.toNat

/-- `setRNGSeed`. -/
def setRNGSeed (seed : UInt32) : Rng :=
  { currentSeed := some seed, rngState := some (startState seed) }

/-- `resetRNG`. -/
def resetRNG : Rng := { currentSeed := none, rngState := none }

/-- `STATE_INCREMENT`. -/
def stateIncrement : ℤ := 0x6d2b79f5

/-- The number between zero and one that is drawn at a position. -/
def mix (state : ℤ) : ℚ :=
  let s := BitVec.ofInt 32 state
  let t := (s ^^^ (s >>> 15)) * (1 ||| s)
  let t := (t + (t ^^^ (t >>> 7)) * (61 ||| t)) ^^^ t
  ((t ^^^ (t >>> 14)).toNat : ℚ) / 4294967296

/-- The position after a draw. -/
def nextState (state : ℤ) : ℤ := toInt32 (state + stateIncrement)

/-- `seededRandom`; `fallbackSeed` is the seed that the host's own random numbers give. -/
def seededRandom (fallbackSeed : UInt32) (rng : Rng) : ℚ × Rng :=
  let rng := if rng.rngState = none then setRNGSeed fallbackSeed else rng
  let state := nextState (rng.rngState.getD 0)
  (mix state, { rng with rngState := some state })

/-! ### What a draw does -/

variable (fallbackSeed : UInt32)

theorem rngState_seededRandom (rng : Rng) :
    (rng.seededRandom fallbackSeed).2.rngState =
      some (nextState (rng.rngState.getD (startState fallbackSeed))) := by
  rcases rng with ⟨seed, _ | state⟩
  · rfl
  · rfl

theorem seededRandom_fst (rng : Rng) :
    (rng.seededRandom fallbackSeed).1 =
      mix (nextState (rng.rngState.getD (startState fallbackSeed))) := by
  rcases rng with ⟨seed, _ | state⟩
  · rfl
  · rfl

/-- What draws can make of a generator: one with a position keeps its seed, and one without is left
alone or takes the seed of the host. -/
structure Reaches (fallbackSeed : UInt32) (rng rng' : Rng) : Prop where
  kept : rng.rngState ≠ none → rng'.rngState ≠ none ∧ rng'.currentSeed = rng.currentSeed
  unseeded : rng.rngState = none →
    rng' = rng ∨ rng'.rngState ≠ none ∧ rng'.currentSeed = some fallbackSeed

theorem Reaches.refl (rng : Rng) : Reaches fallbackSeed rng rng :=
  ⟨fun h => ⟨h, rfl⟩, fun _ => .inl rfl⟩

theorem Reaches.trans {fallbackSeed : UInt32} {rng rng₁ rng₂ : Rng}
    (h₁ : Reaches fallbackSeed rng rng₁) (h₂ : Reaches fallbackSeed rng₁ rng₂) :
    Reaches fallbackSeed rng rng₂ := by
  refine ⟨?_, ?_⟩
  · intro hsome
    obtain ⟨hsome₁, hseed₁⟩ := h₁.kept hsome
    obtain ⟨hsome₂, hseed₂⟩ := h₂.kept hsome₁
    exact ⟨hsome₂, hseed₂.trans hseed₁⟩
  · intro hnone
    rcases h₁.unseeded hnone with rfl | ⟨hsome₁, hseed₁⟩
    · exact h₂.unseeded hnone
    · obtain ⟨hsome₂, hseed₂⟩ := h₂.kept hsome₁
      exact .inr ⟨hsome₂, hseed₂.trans hseed₁⟩

theorem reaches_seededRandom (rng : Rng) :
    Reaches fallbackSeed rng (rng.seededRandom fallbackSeed).2 := by
  rcases rng with ⟨seed, _ | state⟩
  · exact ⟨fun h => absurd rfl h, fun _ => .inr ⟨some_ne_none _, rfl⟩⟩
  · exact ⟨fun _ => ⟨some_ne_none _, rfl⟩, fun h => absurd h (some_ne_none _)⟩

/-! ### The period -/

/-- `toInt32` keeps a number up to multiples of its range. -/
theorem toInt32_emod (value : ℤ) : toInt32 value % 2 ^ 32 = value % 2 ^ 32 := by
  unfold toInt32
  dsimp only
  split
  · omega
  · omega

theorem toInt32_eq_iff {a b : ℤ} : toInt32 a = toInt32 b ↔ a % 2 ^ 32 = b % 2 ^ 32 := by
  refine ⟨fun h => ?_, fun h => ?_⟩
  · rw [← toInt32_emod a, h, toInt32_emod]
  · unfold toInt32
    rw [h]

/-- The generator after some draws. -/
def draws (n : ℕ) (rng : Rng) : Rng := (fun rng => (rng.seededRandom fallbackSeed).2)^[n] rng

theorem rngState_draws (rng : Rng) (n : ℕ) :
    (rng.draws fallbackSeed (n + 1)).rngState =
      some (toInt32 (rng.rngState.getD (startState fallbackSeed) + (n + 1 : ℕ) * stateIncrement)) := by
  induction n with
  | zero =>
    rw [draws, Function.iterate_one, rngState_seededRandom, nextState, zero_add, Nat.cast_one, one_mul]
  | succ n ih =>
    rw [draws, Function.iterate_succ_apply', ← draws, rngState_seededRandom, ih, getD_some,
      nextState, some_inj, toInt32_eq_iff, Int.add_emod, toInt32_emod, ← Int.add_emod]
    push_cast
    ring_nf

/-- **The generator has its full period**: from any position on, two draws stand at one position
if and only if their distance is a multiple of `2 ^ 32`, and the first `2 ^ 32` draws stand at every
32-bit number. -/
theorem draws_full_period (rng : Rng) :
    (∀ m n : ℕ, (rng.draws fallbackSeed (m + 1)).rngState =
        (rng.draws fallbackSeed (n + 1)).rngState ↔ m % 2 ^ 32 = n % 2 ^ 32) ∧
      ∀ state : ℤ, -2 ^ 31 ≤ state → state < 2 ^ 31 →
        ∃ n < 2 ^ 32, (rng.draws fallbackSeed (n + 1)).rngState = some state := by
  refine ⟨fun m n => ?_, fun state hlow hhigh => ?_⟩
  · rw [rngState_draws, rngState_draws, some_inj, toInt32_eq_iff]
    refine ⟨fun h => ?_, fun h => ?_⟩
    · -- the increment is odd
      have hsteps := Int.ModEq.cancel_right_div_gcd (by norm_num) (Int.ModEq.add_left_cancel' _ h)
      rw [show Int.gcd (2 ^ 32) stateIncrement = 1 from rfl] at hsteps
      change _ % _ = _ % _ at hsteps
      omega
    · have hsteps : ((m + 1 : ℕ) : ℤ) ≡ (n + 1 : ℕ) [ZMOD 2 ^ 32] := by
        change _ % _ = _ % _
        omega
      exact (hsteps.mul_right _).add_left _
  · have hcount : ∀ count : ℤ, ∃ n < 2 ^ 32, ((n + 1 : ℕ) : ℤ) ≡ count [ZMOD 2 ^ 32] := by
      intro count
      refine ⟨((count - 1) % 2 ^ 32).toNat, by omega, ?_⟩
      change _ % _ = _ % _
      omega
    -- the inverse of the increment counts the draws
    obtain ⟨n, hn, hdraws⟩ :=
      hcount ((state - rng.rngState.getD (startState fallbackSeed)) * 3696798301)
    have hinverse : (3696798301 : ℤ) * stateIncrement ≡ 1 [ZMOD 2 ^ 32] := rfl
    refine ⟨n, hn, ?_⟩
    have hstate := ((hdraws.mul_right stateIncrement).trans
      (mul_assoc _ _ stateIncrement ▸ hinverse.mul_left _)).add_left
        (rng.rngState.getD (startState fallbackSeed))
    rw [mul_one, add_sub_cancel] at hstate
    rw [rngState_draws, some_inj, toInt32_eq_iff.mpr hstate, toInt32]
    split
    · omega
    · omega

/-! ### Save and restore -/

/-- `setRNGState`, on a finite number. -/
def setRNGState (rng : Rng) (state : ℚ) : Rng :=
  { rng with rngState := some (toInt32 (if 0 ≤ state then ⌊state⌋ else ⌈state⌉)) }

/-- `rngSeed` and `rngState` of a save: the position goes with the current seed only. -/
def serialize (rngSeed : Option ℚ) (rng : Rng) : Option ℚ × Option ℚ :=
  let currentSeed := rng.currentSeed.map fun seed => (seed.toNat : ℚ)
  let rngSeed := rngSeed.or currentSeed
  (rngSeed, if rngSeed = currentSeed then rng.rngState.map Int.cast else none)

/-- What a load does with the two fields. -/
def hydrate (saved : Option ℚ × Option ℚ) (rng : Rng) : Rng :=
  let seeded := saved.1.elim rng fun seed => setRNGSeed (JsNumber.fin seed).toUint32
  saved.2.elim seeded seeded.setRNGState

/-- The number that the next draw gives. -/
theorem draws_fst (rng : Rng) (n : ℕ) :
    ((rng.draws fallbackSeed n).seededRandom fallbackSeed).1 = mix (toInt32
      (rng.rngState.getD (startState fallbackSeed) + (n + 1 : ℕ) * stateIncrement)) := by
  have hnext := rngState_draws fallbackSeed rng n
  rw [draws, Function.iterate_succ_apply', ← draws, rngState_seededRandom] at hnext
  rw [seededRandom_fst, some.inj hnext]

/-- **A saved position is drawn from again**: a generator that has a position, saved under its own
seed, and loaded over any other one, gives the same numbers from there on; under another seed it
starts anew. The position itself may come back as another number. -/
theorem draws_hydrate_serialize (rng other : Rng) {state : ℤ} (hstate : rng.rngState = some state)
    (rngSeed : Option ℚ) (otherSeed : UInt32) :
    if rngSeed = none ∨ rngSeed = rng.currentSeed.map fun seed => (seed.toNat : ℚ) then
      ∀ n, (((other.hydrate (rng.serialize rngSeed)).draws otherSeed n).seededRandom otherSeed).1 =
        ((rng.draws fallbackSeed n).seededRandom fallbackSeed).1
    else ∀ seed ∈ rngSeed,
      other.hydrate (rng.serialize rngSeed) = setRNGSeed (JsNumber.fin seed).toUint32 := by
  split
  · next hown =>
    intro n
    have hsaved : (rng.serialize rngSeed).2 = some (state : ℚ) := by
      rw [serialize, hstate]
      rcases hown with rfl | rfl
      · exact if_pos none_or
      · exact if_pos Option.or_self
    have hloaded : (other.hydrate (rng.serialize rngSeed)).rngState = some (toInt32 state) := by
      rw [hydrate, hsaved]
      simp only [elim_some, setRNGState, Int.floor_intCast, Int.ceil_intCast, ite_self]
    rw [draws_fst, draws_fst, hloaded, hstate, getD_some, getD_some]
    refine congrArg mix (toInt32_eq_iff.mpr ?_)
    rw [Int.add_emod, toInt32_emod, ← Int.add_emod]
  · next hforeign =>
    rintro seed rfl
    rw [not_or] at hforeign
    rw [serialize, some_or, hydrate, if_neg hforeign.2]
    rfl

/-- The position of a large seed comes back as a negative number. -/
theorem draws_hydrate_serialize_large :
    (resetRNG.hydrate ((setRNGSeed 4294967295).serialize none)).rngState = some (-1) ∧
      ∀ n, (((resetRNG.hydrate ((setRNGSeed 4294967295).serialize none)).draws 0 n).seededRandom 0).1 =
        (((setRNGSeed 4294967295).draws 0 n).seededRandom 0).1 := by
  have hresumes := draws_hydrate_serialize 0 (setRNGSeed 4294967295) resetRNG rfl none 0
  rw [if_pos (.inl rfl)] at hresumes
  exact ⟨rfl, hresumes⟩

end Rng

end IdleEngine
