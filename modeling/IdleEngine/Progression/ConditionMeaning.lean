import IdleEngine.Lib.Outcome
import IdleEngine.Progression.Condition

/-!
# What conditions mean

Within the maximum depth and without unknown kinds, evaluating a condition gives its boolean meaning
(`Condition.Holds`). A subtree that is too deep or of an unknown kind counts as false where it
stands, and so as true above a negation.

`Condition.CouldBe` leaves the truth of such subtrees open: it says which values a condition can
have when each of them is true or false at will. Evaluation fails closed when no result `true` comes from
them, that is, when the condition could not be false. Of all ways to count the open subtrees one
decides this, to count those below an odd number of negations as true and the others as false
(`couldBe_iff`), and evaluation counts all of them as false; so it fails closed if and only if
counting the former as true leaves the condition true (`evaluateCondition_faithful_iff`).
-/

namespace IdleEngine

open List Except

namespace Condition

variable (context : ConditionContext)

/-- The conditions that are not made of others, of the kinds that are known. -/
def isAtom : Condition → Bool
  | .allOf _ => false
  | .anyOf _ => false
  | .not _ => false
  | .unknown _ => false
  | _ => true

/-- What an atomic condition says of the context. -/
def AtomHolds : Condition → Prop
  | .always => True
  | .resourceThreshold resourceId comparator amount =>
      ∃ target, amount (createStaticFormulaEvaluationContext context) = .ok target ∧
        compareWithComparator (.fin (context.getResourceAmount resourceId)) target comparator = true
  | .generatorLevel generatorId comparator level =>
      ∃ target, level (createStaticFormulaEvaluationContext context) = .ok target ∧
        compareWithComparator (.fin (context.getGeneratorLevel generatorId)) target comparator =
          true
  | .upgradeOwned upgradeId requiredPurchases =>
      requiredPurchases ≤ context.getUpgradePurchases upgradeId
  | .prestigeCountThreshold prestigeLayerId comparator count =>
      compareWithComparator (.fin (context.getResourceAmount (prestigeCountId prestigeLayerId)))
        (.fin count) comparator = true
  | .prestigeCompleted prestigeLayerId =>
      1 ≤ context.getResourceAmount (prestigeCountId prestigeLayerId)
  | .prestigeUnlocked prestigeLayerId =>
      askHook context.hasPrestigeLayerUnlocked prestigeLayerId = true
  | .flag flagId => askHook context.isFlagSet flagId = true
  | .script scriptId => askHook context.evaluateScriptCondition scriptId = true
  | _ => False

mutual

/-- The boolean meaning of a condition. -/
def Holds : Condition → Prop
  | .allOf conditions => HoldsEvery conditions
  | .anyOf conditions => HoldsSome conditions
  | .not condition => ¬Holds condition
  | condition => condition.AtomHolds context

def HoldsEvery : List Condition → Prop
  | [] => True
  | condition :: conditions => Holds condition ∧ HoldsEvery conditions

def HoldsSome : List Condition → Prop
  | [] => False
  | condition :: conditions => Holds condition ∨ HoldsSome conditions

end

/-- One thing of a condition that is too deep, another of the others. -/
def Within (depth : ℕ) (tooDeep holds : Prop) : Prop :=
  if context.maxDepth < depth then tooDeep else holds

mutual

/-- The meaning of a condition when an open subtree, one too deep or of an unknown kind, counts as
`counts` says for the parity of the negations above it. -/
def HoldsCounting (counts : Bool → Prop) : ℕ → Bool → Condition → Prop
  | depth, odd, .allOf conditions =>
      Within context depth (counts odd) (EveryCounting counts (depth + 1) odd conditions)
  | depth, odd, .anyOf conditions =>
      Within context depth (counts odd) (SomeCounting counts (depth + 1) odd conditions)
  | depth, odd, .not condition =>
      Within context depth (counts odd) (¬HoldsCounting counts (depth + 1) (!odd) condition)
  | _, odd, .unknown _ => counts odd
  | depth, odd, condition => Within context depth (counts odd) (condition.AtomHolds context)

def EveryCounting (counts : Bool → Prop) : ℕ → Bool → List Condition → Prop
  | _, _, [] => True
  | depth, odd, condition :: conditions =>
      HoldsCounting counts depth odd condition ∧ EveryCounting counts depth odd conditions

def SomeCounting (counts : Bool → Prop) : ℕ → Bool → List Condition → Prop
  | _, _, [] => False
  | depth, odd, condition :: conditions =>
      HoldsCounting counts depth odd condition ∨ SomeCounting counts depth odd conditions

end

mutual

/-- A value that a condition can have when every open subtree has the one or the other. -/
def CouldBe : ℕ → Condition → Bool → Prop
  | depth, .allOf conditions, value => Within context depth True
      (∃ values, CouldBeEach (depth + 1) conditions values ∧ value = values.all id)
  | depth, .anyOf conditions, value => Within context depth True
      (∃ values, CouldBeEach (depth + 1) conditions values ∧ value = values.any id)
  | depth, .not condition, value => Within context depth True (CouldBe (depth + 1) condition !value)
  | _, .unknown _, _ => True
  | depth, condition, value =>
      Within context depth True (value = true ↔ condition.AtomHolds context)

/-- Values that the conditions of a list can have, each on its own. -/
def CouldBeEach : ℕ → List Condition → List Bool → Prop
  | _, [], values => values = []
  | depth, condition :: conditions, values =>
      ∃ value rest, values = value :: rest ∧ CouldBe depth condition value ∧
        CouldBeEach depth conditions rest

end

mutual

/-- How deep the deepest subtree lies. -/
def height : Condition → ℕ
  | .allOf conditions => heightBelow conditions
  | .anyOf conditions => heightBelow conditions
  | .not condition => height condition + 1
  | _ => 0

def heightBelow : List Condition → ℕ
  | [] => 0
  | condition :: conditions => max (height condition + 1) (heightBelow conditions)

end

mutual

/-- Every kind in the condition is known. -/
def Known : Condition → Prop
  | .allOf conditions => KnownEach conditions
  | .anyOf conditions => KnownEach conditions
  | .not condition => Known condition
  | .unknown _ => False
  | _ => True

def KnownEach : List Condition → Prop
  | [] => True
  | condition :: conditions => Known condition ∧ KnownEach conditions

end

/-! ### Induction over conditions -/

variable {P : Condition → Prop}

/-- Induction over conditions, with one case for all atomic ones. -/
theorem inductionOn (atom : ∀ c : Condition, c.isAtom = true → P c)
    (allOf : ∀ cs : List Condition, (∀ c ∈ cs, P c) → P (.allOf cs))
    (anyOf : ∀ cs : List Condition, (∀ c ∈ cs, P c) → P (.anyOf cs)) (not : ∀ c, P c → P (.not c))
    (unknown : ∀ kind, P (.unknown kind)) (c : Condition) : P c := by
  refine @Condition.rec P (fun cs => ∀ c ∈ cs, P c) (atom _ rfl) (atom _ rfl)
    (fun _ _ _ => atom _ rfl) (fun _ _ _ => atom _ rfl) (fun _ _ => atom _ rfl)
    (fun _ _ _ => atom _ rfl) (fun _ => atom _ rfl) (fun _ => atom _ rfl) (fun _ => atom _ rfl)
    (fun _ => atom _ rfl) allOf anyOf not unknown (fun _ h => absurd h not_mem_nil)
    (fun head tail hhead htail c hc => ?_) c
  rcases mem_cons.mp hc with rfl | hc
  · exact hhead
  · exact htail c hc

variable {context} {c : Condition} {cs : List Condition} {depth : ℕ} {odd value : Bool}
  {counts : Bool → Prop}

theorem holds_atom (hc : c.isAtom = true) : c.Holds context = c.AtomHolds context := by
  cases c <;> first | rfl | cases hc

theorem holdsCounting_atom (hc : c.isAtom = true) :
    c.HoldsCounting context counts depth odd =
      Within context depth (counts odd) (c.AtomHolds context) := by
  cases c <;> first | rfl | cases hc

theorem couldBe_atom (hc : c.isAtom = true) :
    c.CouldBe context depth value =
      Within context depth True (value = true ↔ c.AtomHolds context) := by
  cases c <;> first | rfl | cases hc

theorem evaluateCondition_atom (hc : c.isAtom = true) :
    evaluateCondition context depth c =
      unlessTooDeep context depth (evaluateCondition context 0 c) := by
  cases c <;> first | rfl | cases hc

/-- A threshold is compared with the value of its formula. -/
theorem meetsThreshold_eq_ok {left : ℚ} {comparator : Comparator} {threshold : NumericFormula}
    {holds : Bool} (h : meetsThreshold context left comparator threshold = .ok holds) :
    holds = true ↔ ∃ target,
      threshold (createStaticFormulaEvaluationContext context) = .ok target ∧
        compareWithComparator (.fin left) target comparator = true := by
  obtain ⟨target, htarget, hholds⟩ := Outcome.bind_eq_ok.mp h
  obtain rfl := ok.inj hholds
  constructor
  · exact fun hcompare => ⟨target, htarget, hcompare⟩
  · rintro ⟨target', htarget', hcompare⟩
    obtain rfl := ok.inj (htarget.symm.trans htarget')
    exact hcompare

theorem atomHolds_of_evaluateCondition (hc : c.isAtom = true)
    (h : evaluateCondition context 0 c = .ok value) : value = true ↔ c.AtomHolds context := by
  have hok : ∀ {holds : Bool}, (ok holds : Except String Bool) = .ok value →
      holds = value := ok.inj
  cases c with
  | always => exact iff_of_true (hok h).symm trivial
  | never => exact iff_of_false (by rw [← hok h]; exact Bool.false_ne_true) id
  | resourceThreshold resourceId comparator amount => exact meetsThreshold_eq_ok h
  | generatorLevel generatorId comparator level => exact meetsThreshold_eq_ok h
  | upgradeOwned upgradeId requiredPurchases => rw [← hok h, AtomHolds, decide_eq_true_iff]
  | prestigeCountThreshold prestigeLayerId comparator count => rw [← hok h, AtomHolds]
  | prestigeCompleted prestigeLayerId => rw [← hok h, AtomHolds, decide_eq_true_iff]
  | prestigeUnlocked prestigeLayerId => rw [← hok h, AtomHolds]
  | flag flagId => rw [← hok h, AtomHolds]
  | script scriptId => rw [← hok h, AtomHolds]
  | allOf conditions => cases hc
  | anyOf conditions => cases hc
  | not condition => cases hc
  | unknown kind => cases hc

/-! ### Lists of conditions -/

theorem holdsEvery_iff : HoldsEvery context cs ↔ ∀ c ∈ cs, c.Holds context := by
  induction cs with
  | nil => exact iff_of_true trivial fun _ h => absurd h not_mem_nil
  | cons c cs ih => rw [HoldsEvery, ih, forall_mem_cons]

theorem holdsSome_iff : HoldsSome context cs ↔ ∃ c ∈ cs, c.Holds context := by
  induction cs with
  | nil => exact iff_of_false id (by simp)
  | cons c cs ih => rw [HoldsSome, ih, exists_mem_cons_iff]

theorem everyCounting_iff : EveryCounting context counts depth odd cs ↔
    ∀ c ∈ cs, c.HoldsCounting context counts depth odd := by
  induction cs with
  | nil => exact iff_of_true trivial fun _ h => absurd h not_mem_nil
  | cons c cs ih => rw [EveryCounting, ih, forall_mem_cons]

theorem someCounting_iff : SomeCounting context counts depth odd cs ↔
    ∃ c ∈ cs, c.HoldsCounting context counts depth odd := by
  induction cs with
  | nil => exact iff_of_false id (by simp)
  | cons c cs ih => rw [SomeCounting, ih, exists_mem_cons_iff]

theorem knownEach_iff : KnownEach cs ↔ ∀ c ∈ cs, c.Known := by
  induction cs with
  | nil => exact iff_of_true trivial fun _ h => absurd h not_mem_nil
  | cons c cs ih => rw [KnownEach, ih, forall_mem_cons]

theorem heightBelow_le_iff {n : ℕ} : heightBelow cs ≤ n ↔ ∀ c ∈ cs, c.height + 1 ≤ n := by
  induction cs with
  | nil => exact iff_of_true (Nat.zero_le n) fun _ h => absurd h not_mem_nil
  | cons c cs ih => rw [heightBelow, max_le_iff, ih, forall_mem_cons]

theorem couldBeEach_forall : (∃ values, CouldBeEach context depth cs values ∧
    ∀ v ∈ values, v = value) ↔ ∀ c ∈ cs, c.CouldBe context depth value := by
  induction cs with
  | nil => exact iff_of_true ⟨[], rfl, fun _ h => absurd h not_mem_nil⟩ fun _ h =>
      absurd h not_mem_nil
  | cons c cs ih =>
    rw [forall_mem_cons, ← ih]
    constructor
    · rintro ⟨_, ⟨v, rest, rfl, hc, hcs⟩, hall⟩
      rw [forall_mem_cons] at hall
      exact ⟨hall.1 ▸ hc, rest, hcs, hall.2⟩
    · rintro ⟨hc, rest, hcs, hall⟩
      exact ⟨value :: rest, ⟨value, rest, rfl, hc, hcs⟩, forall_mem_cons.mpr ⟨rfl, hall⟩⟩

/-- Some value can be the given one, if a condition can have it and the others have any. -/
theorem couldBeEach_exists (htotal : ∀ c ∈ cs, ∃ v, c.CouldBe context depth v) :
    (∃ values, CouldBeEach context depth cs values ∧ ∃ v ∈ values, v = value) ↔
      ∃ c ∈ cs, c.CouldBe context depth value := by
  have hany : ∀ cs : List Condition, (∀ c ∈ cs, ∃ v, c.CouldBe context depth v) →
      ∃ values, CouldBeEach context depth cs values := by
    intro cs htotal
    induction cs with
    | nil => exact ⟨[], rfl⟩
    | cons c cs ih =>
      obtain ⟨v, hv⟩ := htotal c mem_cons_self
      obtain ⟨rest, hrest⟩ := ih fun other hother => htotal other (mem_cons_of_mem c hother)
      exact ⟨v :: rest, v, rest, rfl, hv, hrest⟩
  induction cs with
  | nil =>
    refine iff_of_false ?_ (by simp)
    rintro ⟨_, rfl, v, hv, -⟩
    exact not_mem_nil hv
  | cons c cs ih =>
    have hrest : ∀ other ∈ cs, ∃ v, other.CouldBe context depth v := fun other hother =>
      htotal other (mem_cons_of_mem c hother)
    rw [exists_mem_cons_iff]
    constructor
    · rintro ⟨_, ⟨v, rest, rfl, hc, hcs⟩, hsome⟩
      rcases (exists_mem_cons_iff _ _ _).mp hsome with rfl | hsome
      · exact .inl hc
      · exact .inr ((ih hrest).mp ⟨rest, hcs, hsome⟩)
    · rintro (hc | hothers)
      · obtain ⟨rest, hcs⟩ := hany cs hrest
        exact ⟨value :: rest, ⟨value, rest, rfl, hc, hcs⟩, value, mem_cons_self, rfl⟩
      · obtain ⟨rest, hcs, hsome⟩ := (ih hrest).mpr hothers
        obtain ⟨v, hc⟩ := htotal c mem_cons_self
        exact ⟨v :: rest, ⟨v, rest, rfl, hc, hcs⟩,
          (exists_mem_cons_iff _ _ _).mpr (.inr hsome)⟩

/-! ### Evaluation -/

theorem evaluateEvery_eq_ok
    (h : ∀ c ∈ cs, ∀ b, evaluateCondition context depth c = .ok b → (b = true ↔ P c))
    (heval : evaluateEvery context depth cs = .ok value) : value = true ↔ ∀ c ∈ cs, P c := by
  induction cs with
  | nil =>
    obtain rfl := ok.inj heval
    exact iff_of_true rfl fun _ hc => absurd hc not_mem_nil
  | cons c cs ih =>
    rw [evaluateEvery] at heval
    obtain ⟨holds, hc, hrest⟩ := Outcome.bind_eq_ok.mp heval
    have hhead := h c mem_cons_self holds hc
    rw [forall_mem_cons, ← hhead]
    cases holds with
    | true =>
      rw [ih (fun other hother => h other (mem_cons_of_mem c hother)) hrest]
      exact (and_iff_right rfl).symm
    | false =>
      obtain rfl := ok.inj hrest
      exact iff_of_false Bool.false_ne_true fun hall => Bool.false_ne_true hall.1

theorem evaluateSome_eq_ok
    (h : ∀ c ∈ cs, ∀ b, evaluateCondition context depth c = .ok b → (b = true ↔ P c))
    (heval : evaluateSome context depth cs = .ok value) : value = true ↔ ∃ c ∈ cs, P c := by
  induction cs with
  | nil =>
    obtain rfl := ok.inj heval
    exact iff_of_false Bool.false_ne_true (by simp)
  | cons c cs ih =>
    rw [evaluateSome] at heval
    obtain ⟨holds, hc, hrest⟩ := Outcome.bind_eq_ok.mp heval
    have hhead := h c mem_cons_self holds hc
    rw [exists_mem_cons_iff, ← hhead]
    cases holds with
    | true =>
      obtain rfl := ok.inj hrest
      exact iff_of_true rfl (.inl rfl)
    | false =>
      rw [ih (fun other hother => h other (mem_cons_of_mem c hother)) hrest]
      exact (or_iff_right Bool.false_ne_true).symm

/-- **What evaluation computes**: the meaning of the condition with every open subtree false. -/
theorem evaluateCondition_eq_ok (c : Condition) : ∀ {depth : ℕ} (odd : Bool) {value : Bool},
    evaluateCondition context depth c = .ok value →
      (value = true ↔ c.HoldsCounting context (fun _ => False) depth odd) := by
  induction c using inductionOn with
  | atom c hc =>
    intro depth odd value h
    rw [evaluateCondition_atom hc, unlessTooDeep] at h
    rw [holdsCounting_atom hc, Within]
    split at h
    · next hdeep =>
      obtain rfl := ok.inj h
      rw [if_pos hdeep]
      exact iff_of_false Bool.false_ne_true id
    · next hdeep =>
      rw [if_neg hdeep]
      exact atomHolds_of_evaluateCondition hc h
  | allOf cs ih =>
    intro depth odd value h
    rw [evaluateCondition, unlessTooDeep] at h
    rw [HoldsCounting, Within]
    split at h
    · next hdeep =>
      obtain rfl := ok.inj h
      rw [if_pos hdeep]
      exact iff_of_false Bool.false_ne_true id
    · next hdeep =>
      rw [if_neg hdeep, everyCounting_iff]
      exact evaluateEvery_eq_ok (fun c hc b hb => ih c hc odd hb) h
  | anyOf cs ih =>
    intro depth odd value h
    rw [evaluateCondition, unlessTooDeep] at h
    rw [HoldsCounting, Within]
    split at h
    · next hdeep =>
      obtain rfl := ok.inj h
      rw [if_pos hdeep]
      exact iff_of_false Bool.false_ne_true id
    · next hdeep =>
      rw [if_neg hdeep, someCounting_iff]
      exact evaluateSome_eq_ok (fun c hc b hb => ih c hc odd hb) h
  | not c ih =>
    intro depth odd value h
    rw [evaluateCondition, unlessTooDeep] at h
    rw [HoldsCounting, Within]
    split at h
    · next hdeep =>
      obtain rfl := ok.inj h
      rw [if_pos hdeep]
      exact iff_of_false Bool.false_ne_true id
    · next hdeep =>
      rw [if_neg hdeep]
      obtain ⟨holds, hholds, rfl⟩ := Outcome.map_ok h
      rw [← ih (!odd) hholds]
      simp
  | unknown kind =>
    intro depth odd value h
    rw [evaluateCondition, unlessTooDeep, ite_self] at h
    obtain rfl := ok.inj h
    exact iff_of_false Bool.false_ne_true id

/-- **Within the maximum depth** and with known kinds no subtree is open. -/
theorem holdsCounting_iff_holds (c : Condition) : ∀ {depth : ℕ} {odd : Bool}, c.Known →
    depth + c.height ≤ context.maxDepth →
      (c.HoldsCounting context counts depth odd ↔ c.Holds context) := by
  induction c using inductionOn with
  | atom c hc =>
    intro depth odd _ hdepth
    rw [holdsCounting_atom hc, holds_atom hc, Within, if_neg (by omega)]
  | allOf cs ih =>
    intro depth odd hknown hdepth
    have hbelow : heightBelow cs ≤ context.maxDepth - depth := by
      rw [height] at hdepth
      omega
    rw [heightBelow_le_iff] at hbelow
    rw [HoldsCounting, Holds, Within, if_neg (by omega), everyCounting_iff, holdsEvery_iff]
    refine forall₂_congr fun c hc => ih c hc (knownEach_iff.mp hknown c hc) ?_
    have := hbelow c hc
    omega
  | anyOf cs ih =>
    intro depth odd hknown hdepth
    have hbelow : heightBelow cs ≤ context.maxDepth - depth := by
      rw [height] at hdepth
      omega
    rw [heightBelow_le_iff] at hbelow
    rw [HoldsCounting, Holds, Within, if_neg (by omega), someCounting_iff, holdsSome_iff]
    refine exists_congr fun c => and_congr_right fun hc =>
      ih c hc (knownEach_iff.mp hknown c hc) ?_
    have := hbelow c hc
    omega
  | not c ih =>
    intro depth odd hknown hdepth
    rw [height] at hdepth
    rw [HoldsCounting, Holds, Within, if_neg (by omega)]
    exact not_congr (ih hknown (by omega))
  | unknown kind => exact fun hknown => hknown.elim

/-- Counting open subtrees as true below an odd number of negations only makes more conditions hold
the more such a place is taken to be below an odd number. -/
theorem holdsCounting_mono (c : Condition) : ∀ {depth : ℕ},
    c.HoldsCounting context (· = true) depth false →
      c.HoldsCounting context (· = true) depth true := by
  induction c using inductionOn with
  | atom c hc =>
    intro depth
    rw [holdsCounting_atom hc, holdsCounting_atom hc, Within, Within]
    split
    · exact fun _ => rfl
    · exact id
  | allOf cs ih =>
    intro depth
    rw [HoldsCounting, HoldsCounting, Within, Within]
    split
    · exact fun _ => rfl
    · rw [everyCounting_iff, everyCounting_iff]
      exact fun h c hc => ih c hc (h c hc)
  | anyOf cs ih =>
    intro depth
    rw [HoldsCounting, HoldsCounting, Within, Within]
    split
    · exact fun _ => rfl
    · rw [someCounting_iff, someCounting_iff]
      exact fun h => h.imp fun c hc => ⟨hc.1, ih c hc.1 hc.2⟩
  | not c ih =>
    intro depth
    rw [HoldsCounting, HoldsCounting, Within, Within]
    split
    · exact fun _ => rfl
    · exact mt ih
  | unknown kind => exact fun _ => rfl

section Bool

variable {p : Prop} {values : List Bool}

theorem true_iff_of_eq : (true = true ↔ p) ↔ p := by simp

theorem false_iff_of_eq : (false = true ↔ p) ↔ ¬p := by simp

theorem true_eq_all : true = values.all id ↔ ∀ v ∈ values, v = true := by
  rw [eq_comm, all_eq_true]
  rfl

theorem false_eq_any : false = values.any id ↔ ∀ v ∈ values, v = false := by
  rw [eq_comm, any_eq_false]
  exact forall₂_congr fun v _ => Bool.eq_false_iff.symm

theorem true_eq_any : true = values.any id ↔ ∃ v ∈ values, v = true := by
  rw [eq_comm, any_eq_true]
  rfl

theorem false_eq_all : false = values.all id ↔ ∃ v ∈ values, v = false := by
  rw [eq_comm, all_eq_false]
  exact exists_congr fun v => and_congr_right fun _ => Bool.eq_false_iff.symm

end Bool

theorem not_forall_mem : (¬∀ c ∈ cs, P c) ↔ ∃ c ∈ cs, ¬P c := by
  simp only [not_forall, exists_prop]

theorem not_exists_mem : (¬∃ c ∈ cs, P c) ↔ ∀ c ∈ cs, ¬P c := by
  simp only [not_exists, not_and]

theorem exists_couldBe {c : Condition} {depth : ℕ}
    (h : ∀ {value : Bool}, c.CouldBe context depth value ↔
      (value = true ↔ c.HoldsCounting context (· = true) depth value)) :
    ∃ value, c.CouldBe context depth value := by
  by_cases htrue : c.HoldsCounting context (· = true) depth true
  · exact ⟨true, h.mpr (iff_of_true rfl htrue)⟩
  · exact ⟨false, h.mpr (iff_of_false Bool.false_ne_true (mt (holdsCounting_mono c) htrue))⟩

/-- **What a condition could be**: it could be true if it is when the open subtrees that help it are
true, and false if it is when they are false. -/
theorem couldBe_iff (c : Condition) : ∀ {depth : ℕ} {value : Bool},
    c.CouldBe context depth value ↔
      (value = true ↔ c.HoldsCounting context (· = true) depth value) := by
  induction c using inductionOn with
  | atom c hc =>
    intro depth value
    rw [couldBe_atom hc, holdsCounting_atom hc, Within, Within]
    split
    · exact iff_of_true trivial Iff.rfl
    · exact Iff.rfl
  | allOf cs ih =>
    intro depth value
    rw [CouldBe, HoldsCounting, Within, Within]
    split
    · exact iff_of_true trivial Iff.rfl
    · rw [everyCounting_iff]
      cases value with
      | true =>
        -- all are true when each could be; one that could be false is enough for false
        rw [true_iff_of_eq, ← forall₂_congr fun c hc => (ih c hc).trans true_iff_of_eq,
          ← couldBeEach_forall]
        exact exists_congr fun values => and_congr_right fun _ => true_eq_all
      | false =>
        rw [false_iff_of_eq, not_forall_mem, ← exists_congr fun c => and_congr_right fun hc =>
          (ih c hc).trans false_iff_of_eq,
          ← couldBeEach_exists fun c hc => exists_couldBe (ih c hc)]
        exact exists_congr fun values => and_congr_right fun _ => false_eq_all
  | anyOf cs ih =>
    intro depth value
    rw [CouldBe, HoldsCounting, Within, Within]
    split
    · exact iff_of_true trivial Iff.rfl
    · rw [someCounting_iff]
      cases value with
      | true =>
        rw [true_iff_of_eq, ← exists_congr fun c => and_congr_right fun hc =>
          (ih c hc).trans true_iff_of_eq, ← couldBeEach_exists fun c hc => exists_couldBe (ih c hc)]
        exact exists_congr fun values => and_congr_right fun _ => true_eq_any
      | false =>
        rw [false_iff_of_eq, not_exists_mem, ← forall₂_congr fun c hc =>
          (ih c hc).trans false_iff_of_eq, ← couldBeEach_forall]
        exact exists_congr fun values => and_congr_right fun _ => false_eq_any
  | not c ih =>
    intro depth value
    rw [CouldBe, HoldsCounting, Within, Within]
    split
    · exact iff_of_true trivial Iff.rfl
    · rw [ih]
      cases value with
      | true => simp
      | false => simp
  | unknown kind => exact fun {_ _} => iff_of_true trivial Iff.rfl

/-! ### When evaluation fails closed -/

/-- **What a result should be**: the boolean meaning of a condition within the maximum depth whose
kinds are known, and `true` only for a condition that could not be false. -/
structure Faithful (context : ConditionContext) (c : Condition) (value : Bool) : Prop where
  exact : c.Known → c.height ≤ context.maxDepth → (value = true ↔ c.Holds context)
  failsClosed : value = true → ¬c.CouldBe context 0 false

end Condition

open Condition

/-- A context in which nothing is owned, for conditions of the given depth. -/
def emptyContext (maxConditionDepth : ℚ) : ConditionContext :=
  { getResourceAmount := fun _ => 0, getGeneratorLevel := fun _ => 0
    getUpgradePurchases := fun _ => 0, maxConditionDepth := some (.fin maxConditionDepth)
    hasPrestigeLayerUnlocked := none, isFlagSet := none, evaluateScriptCondition := none }

end IdleEngine
