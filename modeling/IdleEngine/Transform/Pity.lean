import IdleEngine.Transform.Prd
import Mathlib.Data.List.Infix
import Mathlib.Tactic.Linarith
import Mathlib.Tactic.NormNum

/-!
# The pity of a distribution

The failures of a distribution add up in its count of attempts, so no run of them gets as long as
the inverse of its constant. A registry shows for an id the rolls of one such count: looking the id
up again and saving the registry leave it alone.
-/

namespace IdleEngine

open OrderedMap PseudoRandomDistribution OrderedMap List

/-- `calculatePRDConstant` and `calculatePRDAverageProbability`. -/
structure PrdFunctions where
  calculatePRDConstant : PrdMath
  calculatePRDAverageProbability : PrdMath

variable (math : PrdFunctions) (id : String)

namespace PseudoRandomDistribution

/-- `getState`: the attempts and the constant. -/
def getState (prd : PseudoRandomDistribution) : ℕ × ℚ := (prd.attempts, prd.constant)

/-- `fromState`. -/
def fromState (state : ℕ × ℚ) : PseudoRandomDistribution :=
  { attempts := state.1
    constant := normalizeProbability state.2
    baseProbability := math.calculatePRDAverageProbability (normalizeProbability state.2) }

end PseudoRandomDistribution

/-- A call of the registry, or of the distribution it gave for an id. -/
inductive PRDCall where
  | getOrCreate (id : String) (baseProbability : ℚ)
  | roll (id : String) (drawn : ℚ)
  | saveRestore

namespace PRDRegistry

/-- `captureState`. Setting `__proto__` gives a plain object no key of its own. -/
def captureState (registry : PRDRegistry) : OrderedMap String (ℕ × ℚ) :=
  (OrderedMap.erase registry "__proto__").mapValues PseudoRandomDistribution.getState

/-- `restoreState`. -/
def restoreState (states : OrderedMap String (ℕ × ℚ)) : PRDRegistry :=
  states.mapValues (PseudoRandomDistribution.fromState math)

/-- The registry after a call. -/
def call (registry : PRDRegistry) : PRDCall → PRDRegistry
  | .getOrCreate id baseProbability =>
    OrderedMap.set registry id (registry.getOrCreate math.calculatePRDConstant id baseProbability)
  | .roll id drawn =>
    match OrderedMap.get? registry id with
    | some prd => OrderedMap.set registry id (prd.roll drawn).2
    | none => registry
  | .saveRestore => restoreState math registry.captureState

/-- What a call rolls for an id. -/
def result? (registry : PRDRegistry) : PRDCall → Option Bool
  | .roll rolled drawn =>
    if rolled = id then (OrderedMap.get? registry id).map fun prd => (prd.roll drawn).1 else none
  | _ => none

/-- The results that some calls roll for an id. -/
def resultsFor (registry : PRDRegistry) : List PRDCall → List Bool
  | [] => []
  | c :: calls => (registry.result? id c).toList ++
      resultsFor (registry.call math c) calls

end PRDRegistry

/-! ### One count of attempts -/

/-- The results of some draws, with a constant and a count of attempts. -/
def rollAll (constant : ℚ) : ℕ → List ℚ → List Bool
  | _, [] => []
  | attempts, drawn :: draws =>
    if drawn < min 1 (constant * (attempts + 1 : ℕ)) then true :: rollAll constant 0 draws
    else false :: rollAll constant (attempts + 1) draws

section

variable {c : ℚ} {draws : List ℚ} {attempts : ℕ}

theorem attempts_lt_of_failure (hc : 0 < c) {drawn : ℚ} (hdrawn : drawn < 1)
    (hfail : ¬ drawn < min 1 (c * (attempts + 1 : ℕ))) : attempts + 1 < ⌈1 / c⌉₊ := by
  have hthreshold : c * (attempts + 1 : ℕ) < 1 := by
    by_contra hge
    exact hfail (by rw [min_eq_left (not_lt.mp hge)]; exact hdrawn)
  rw [Nat.lt_ceil, lt_div_iff₀ hc]
  linarith

/-- A run of failures at the start stays below the bound together with the earlier attempts. -/
theorem add_lt_of_prefix (hc : 0 < c) (hdraws : ∀ drawn ∈ draws, drawn < 1) {n : ℕ} :
    replicate (n + 1) false <+: rollAll c attempts draws → attempts + (n + 1) < ⌈1 / c⌉₊ := by
  induction draws generalizing attempts n with
  | nil => simp [rollAll, replicate_succ]
  | cons drawn draws ih =>
    obtain ⟨hdrawn, hdraws⟩ := forall_mem_cons.mp hdraws
    rw [rollAll, replicate_succ]
    split_ifs with hwin
    · simp
    · have hlt := attempts_lt_of_failure hc hdrawn hwin
      intro hrun
      cases n with
      | zero => exact hlt
      | succ n =>
        have := ih hdraws (cons_prefix_cons.mp hrun).2
        omega

theorem not_infix_rollAll (hc : 0 < c) (hdraws : ∀ drawn ∈ draws, drawn < 1) :
    ¬ replicate ⌈1 / c⌉₊ false <:+: rollAll c attempts draws := by
  obtain ⟨n, hn⟩ := Nat.exists_eq_succ_of_ne_zero (Nat.ceil_pos.mpr (one_div_pos.mpr hc)).ne'
  rw [hn]
  induction draws generalizing attempts with
  | nil => simp [rollAll]
  | cons drawn draws ih =>
    have hstart : ¬ replicate (n + 1) false <+: rollAll c attempts (drawn :: draws) := by
      intro hrun
      have := add_lt_of_prefix hc hdraws hrun
      omega
    have hdraws' := (forall_mem_cons.mp hdraws).2
    rw [rollAll] at hstart ⊢
    split_ifs at hstart ⊢ <;>
      exact fun h => (infix_cons_iff.mp h).elim hstart (ih hdraws')

end

/-! ### The count that a registry shows -/

/-- The draws for an id once it is tracked. -/
def drawsFor : Bool → List PRDCall → List ℚ
  | _, [] => []
  | tracked, .getOrCreate found _ :: calls => drawsFor (tracked || found = id) calls
  | tracked, .roll rolled drawn :: calls =>
    if tracked ∧ rolled = id then drawn :: drawsFor tracked calls else drawsFor tracked calls
  | tracked, .saveRestore :: calls => drawsFor tracked calls

/-- The id is looked up with probabilities of the constant only. -/
def PRDCall.Keeps (c : ℚ) : PRDCall → Prop
  | .getOrCreate found baseProbability =>
    found = id → math.calculatePRDConstant (normalizeProbability baseProbability) = c
  | .roll _ drawn => drawn < 1
  | .saveRestore => True

/-- A distribution counts the attempts, which do not matter for the constants at the edges. -/
def Counts (c : ℚ) (attempts : ℕ) : Option PseudoRandomDistribution → Prop
  | none => attempts = 0
  | some prd => prd.constant = c ∧ (c = 0 ∨ c = 1 ∨ prd.attempts = attempts)

variable {math : PrdFunctions} {id : String} {c : ℚ}

namespace PseudoRandomDistribution

variable {attempts : ℕ} {prd : PseudoRandomDistribution}

theorem counts_updateBaseProbability (h : Counts c attempts (some prd)) {q : ℚ}
    (hq : math.calculatePRDConstant (normalizeProbability q) = c) :
    Counts c attempts (some (prd.updateBaseProbability math.calculatePRDConstant q)) := by
  obtain ⟨hconstant, hattempts⟩ := h
  unfold updateBaseProbability
  dsimp only
  split_ifs with _ _ hedge
  · exact ⟨hconstant, hattempts⟩
  · exact ⟨hconstant, hattempts⟩
  · exact ⟨hq, by grind⟩
  · exact ⟨hq, hattempts⟩

theorem counts_fromState (h : Counts c attempts (some prd)) (hc0 : 0 ≤ c) (hc1 : c ≤ 1) :
    Counts c attempts (some (fromState math prd.getState)) := by
  refine ⟨?_, h.2⟩
  change normalizeProbability prd.constant = c
  rw [h.1, normalizeProbability]
  split_ifs <;> linarith

theorem counts_roll (h : Counts c attempts (some prd)) {drawn : ℚ} (hdrawn : drawn < 1) :
    ∃ attempts', Counts c attempts' (some (prd.roll drawn).2) ∧ ∀ draws,
      rollAll c attempts (drawn :: draws) = (prd.roll drawn).1 :: rollAll c attempts' draws := by
  obtain ⟨rfl, hattempts⟩ := h
  have hsame : drawn < min 1 (prd.constant * (prd.attempts + 1 : ℕ)) ↔
      drawn < min 1 (prd.constant * (attempts + 1 : ℕ)) := by
    rcases hattempts with hnever | halways | hcount
    · rw [hnever, zero_mul, zero_mul]
    · -- one attempt is enough for the threshold to be 1
      have hcertain : ∀ n : ℕ, drawn < min 1 (prd.constant * (n + 1 : ℕ)) := fun n => lt_min hdrawn
        (hdrawn.trans_le (by rw [halways]; push_cast; linarith [n.cast_nonneg (α := ℚ)]))
      exact iff_of_true (hcertain _) (hcertain _)
    · rw [hcount]
  unfold roll
  dsimp only
  by_cases hwin : drawn < min 1 (prd.constant * (attempts + 1 : ℕ))
  · rw [if_pos (hsame.mpr hwin)]
    exact ⟨0, ⟨rfl, .inr (.inr rfl)⟩, fun draws => by rw [rollAll, if_pos hwin]⟩
  · rw [if_neg (mt hsame.mp hwin)]
    exact ⟨attempts + 1, ⟨rfl, hattempts.imp_right (.imp_right (congrArg (· + 1)))⟩,
      fun draws => by rw [rollAll, if_neg hwin]⟩

end PseudoRandomDistribution

namespace PRDRegistry

theorem get?_restoreState (registry : PRDRegistry) (hid : id ≠ "__proto__") :
    get? (restoreState math registry.captureState) id =
      (get? registry id).map fun prd =>
        .fromState math prd.getState := by
  rw [restoreState, get?_mapValues, captureState, get?_mapValues,
    get?_erase, if_neg (Ne.symm hid), Option.map_map]
  rfl

section

variable (hid : id ≠ "__proto__") (hc0 : 0 ≤ c) (hc1 : c ≤ 1)
include hid hc0 hc1

theorem counts_call {registry : PRDRegistry} {call : PRDCall}
    (hcall : call.Keeps math id c) {attempts : ℕ}
    (h : Counts c attempts (get? registry id)) : ∃ attempts',
      let after := registry.call math call
      Counts c attempts' (get? after id) ∧ ∀ calls,
        rollAll c attempts (drawsFor id (get? registry id).isSome (call :: calls)) =
          (registry.result? id call).toList ++
            rollAll c attempts' (drawsFor id (get? after id).isSome calls) := by
  cases call with
  | getOrCreate found baseProbability =>
    refine ⟨attempts, ?_⟩
    dsimp only [PRDRegistry.call]
    rw [get?_set]
    by_cases hfound : found = id
    · subst hfound
      have hq := hcall rfl
      cases hprd : get? registry found with
      | none =>
        rw [hprd] at h
        simpa [getOrCreate, hprd, drawsFor, result?] using ⟨hq, .inr (.inr h.symm)⟩
      | some prd =>
        have := counts_updateBaseProbability (hprd ▸ h) hq
        simpa [getOrCreate, hprd, drawsFor, result?] using this
    · simpa [hfound, drawsFor, result?] using h
  | roll rolled drawn =>
    by_cases hrolled : rolled = id
    · subst hrolled
      cases hprd : get? registry rolled with
      | none => exact ⟨attempts, by simpa [PRDRegistry.call, drawsFor, result?, hprd] using h⟩
      | some prd =>
        obtain ⟨attempts', hafter⟩ := counts_roll (hprd ▸ h) hcall
        refine ⟨attempts', ?_⟩
        simpa [PRDRegistry.call, hprd, get?_set, drawsFor, result?] using
          ⟨hafter.1, fun calls => hafter.2 _⟩
    · refine ⟨attempts, ?_⟩
      cases hprd : get? registry rolled <;>
        simpa [PRDRegistry.call, drawsFor, result?, hprd, get?_set, hrolled] using h
  | saveRestore =>
    refine ⟨attempts, ?_⟩
    dsimp only [PRDRegistry.call]
    rw [get?_restoreState registry hid]
    cases hprd : get? registry id with
    | none => simpa [drawsFor, result?, hprd] using h
    | some prd =>
      simpa [drawsFor, result?] using
        counts_fromState (hprd ▸ h) hc0 hc1

/-- The registry shows the rolls of one count of attempts. -/
theorem resultsFor_eq_rollAll {calls : List PRDCall}
    (hcalls : ∀ call ∈ calls, call.Keeps math id c) {registry : PRDRegistry}
    {attempts : ℕ} (h : Counts c attempts (get? registry id)) :
    resultsFor math id registry calls =
      rollAll c attempts (drawsFor id (get? registry id).isSome calls) := by
  induction calls generalizing registry attempts with
  | nil => rfl
  | cons call calls ih =>
    obtain ⟨hcall, hcalls⟩ := forall_mem_cons.mp hcalls
    obtain ⟨attempts', hafter, hstep⟩ := counts_call hid hc0 hc1 hcall h
    rw [resultsFor, hstep calls, ih hcalls hafter]

end

theorem lt_one_of_mem_drawsFor {calls : List PRDCall}
    (hcalls : ∀ call ∈ calls, call.Keeps math id c) {tracked : Bool} :
    ∀ drawn ∈ drawsFor id tracked calls, drawn < 1 := by
  induction calls generalizing tracked with
  | nil => simp [drawsFor]
  | cons call calls ih =>
    obtain ⟨hcall, hcalls⟩ := forall_mem_cons.mp hcalls
    cases call <;> grind [drawsFor, PRDCall.Keeps]

/-- A lookup changes the probability, and by more than the tolerance. -/
def Moves (baseProbability : ℚ) (prd : PseudoRandomDistribution) : Prop :=
  let normalized := normalizeProbability baseProbability
  let delta := |normalized - prd.baseProbability|
  delta ≠ 0 ∧
    ¬ delta ≤ PseudoRandomDistribution.changeThreshold (max normalized prd.baseProbability)

theorem constant_updateBaseProbability {prd : PseudoRandomDistribution} {q : ℚ}
    (hmoves : Moves q prd) : (prd.updateBaseProbability math.calculatePRDConstant q).constant =
      math.calculatePRDConstant (normalizeProbability q) := by
  unfold PseudoRandomDistribution.updateBaseProbability
  rw [if_neg hmoves.1, if_neg hmoves.2]

section

variable (hid : id ≠ "__proto__") (hc0 : 0 ≤ c) (hc1 : c ≤ 1)
include hid hc0 hc1

theorem pity_of_tracked {registry : PRDRegistry} {calls : List PRDCall}
    (hcalls : ∀ call ∈ calls, call.Keeps math id c)
    (htracked : ∀ prd, get? registry id = some prd → prd.constant = c) :
    (0 < c → ¬ replicate ⌈1 / c⌉₊ false <:+: resultsFor math id registry calls) ∧
      resultsFor math id (restoreState math registry.captureState) calls =
        resultsFor math id registry calls := by
  obtain ⟨attempts, h⟩ : ∃ attempts, Counts c attempts (get? registry id) := by
    cases hprd : get? registry id with
    | none => exact ⟨0, rfl⟩
    | some prd => exact ⟨prd.attempts, htracked prd hprd, .inr (.inr rfl)⟩
  have hcalls' : ∀ call ∈ .saveRestore :: calls, call.Keeps math id c :=
    forall_mem_cons.mpr ⟨trivial, hcalls⟩
  have hrolls := resultsFor_eq_rollAll hid hc0 hc1 hcalls h
  refine ⟨fun hc => ?_, (resultsFor_eq_rollAll hid hc0 hc1 hcalls' h).trans hrolls.symm⟩
  rw [hrolls]
  exact not_infix_rollAll hc (lt_one_of_mem_drawsFor hcalls)

/-- The failures of an id are bounded once it is tracked with the constant it is looked up with,
which the first lookup sees to if it moves the probability. A save then changes no later result. -/
theorem resultsFor_pity {registry : PRDRegistry} {calls : List PRDCall}
    (hcalls : ∀ call ∈ calls, call.Keeps math id c) :
    (0 < c → (∀ prd, OrderedMap.get? registry id = some prd → prd.constant = c ∨
        ∃ q rest, calls = .getOrCreate id q :: rest ∧ Moves q prd) →
      ¬ List.replicate ⌈1 / c⌉₊ false <:+: resultsFor math id registry calls) ∧
    ((∀ prd, OrderedMap.get? registry id = some prd → prd.constant = c) →
      resultsFor math id (restoreState math registry.captureState) calls =
        resultsFor math id registry calls) := by
  refine ⟨fun hc hstart => ?_, fun htracked => (pity_of_tracked hid hc0 hc1 hcalls htracked).2⟩
  by_cases htracked : ∀ prd, OrderedMap.get? registry id = some prd → prd.constant = c
  · exact (pity_of_tracked hid hc0 hc1 hcalls htracked).1 hc
  · push Not at htracked
    obtain ⟨prd, hprd, hother⟩ := htracked
    obtain ⟨q, rest, rfl, hmoves⟩ := (hstart prd hprd).resolve_left hother
    obtain ⟨hq, hrest⟩ := List.forall_mem_cons.mp hcalls
    refine (pity_of_tracked hid hc0 hc1 hrest fun found hfound => ?_).1 hc
    rw [PRDRegistry.call, get?_set, if_pos rfl, getOrCreate, hprd] at hfound
    cases hfound
    exact (constant_updateBaseProbability hmoves).trans (hq rfl)

end

/-- The functions as they are for probabilities of at least 2/3. -/
def twoAttempts : PrdFunctions := ⟨fun p => 2 - 1 / p, fun c => 1 / (2 - c)⟩

/-- Two attempts at a probability of 2/3, with a save between them. -/
def raids (id : String) : List PRDCall :=
  [.getOrCreate id (2 / 3), .roll id (9 / 10), .saveRestore, .getOrCreate id (2 / 3),
    .roll id (9 / 10)]

theorem resultsFor_pity_raids : ¬ List.replicate ⌈1 / (1 / 2 : ℚ)⌉₊ false <:+:
    resultsFor twoAttempts "raid" OrderedMap.empty (raids "raid") :=
  (resultsFor_pity (by decide) (by norm_num) (by norm_num)
    (by norm_num [raids, PRDCall.Keeps, normalizeProbability, twoAttempts])).1 (by norm_num)
    (fun _ h => (by cases h))

/-- A lookup within the tolerance keeps the constant of a lower probability, and a save forgets the
attempts of `__proto__`. -/
theorem resultsFor_longer :
    resultsFor twoAttempts "raid" (OrderedMap.empty.set "raid"
        (.create twoAttempts.calculatePRDConstant (1 - 5 / 10 ^ 7)))
        [.getOrCreate "raid" 1, .roll "raid" (1 - 1 / 10 ^ 7)] =
      List.replicate ⌈1 / twoAttempts.calculatePRDConstant 1⌉₊ false ∧
    resultsFor twoAttempts "__proto__" OrderedMap.empty (raids "__proto__") =
      List.replicate ⌈1 / twoAttempts.calculatePRDConstant (2 / 3)⌉₊ false := by
  norm_num [twoAttempts]
  decide +kernel

end PRDRegistry

end IdleEngine
