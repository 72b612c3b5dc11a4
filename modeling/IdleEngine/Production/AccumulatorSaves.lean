import Mathlib.Data.List.Induction
import IdleEngine.Production.AccumulatorKeys
import IdleEngine.Production.Fairness

/-!
# Saved accumulators

What an accumulator counts as (`current`) is the value kept under its old text, if there is one
that could not be read when the save was restored, and what it holds otherwise. An exported record,
restored in any order of its entries, gives every accumulator what it counted as, and all later
ticks go as they would have gone, unless an old text keeps a zero over an accumulator: a zero is
not exported (`restoreRecord_resumes_iff`).

When a record has a current and an old key of the same accumulator, the current one counts if the
old one can be read. An old text that can be read in several ways waits, and then counts instead
(`current_wins_iff`).
-/

namespace IdleEngine

open OrderedMap List Option ProductionSystem

variable {sh : ContentShape} {n : ℕ} {options : ProgressionOptions sh}

namespace ProductionAccumulators

/-- What an accumulator counts as the next time it is used. -/
def current (a : ProductionAccumulators options) (key : AccumulatorKey) : ℚ :=
  (a.legacyAccumulators.get? key.legacyText).getD (a.value key)

/-! ### Taking old values -/

variable (a : ProductionAccumulators options)

theorem takeLegacy_value (key other : AccumulatorKey) :
    (a.takeLegacy key).value other = if key = other then a.current key else a.value other := by
  rw [takeLegacy, current]
  cases hlegacy : a.legacyAccumulators.get? key.legacyText with
  | none =>
    dsimp only
    split
    · next h =>
      subst h
      rfl
    · rfl
  | some value => exact value_setValue a key other value

theorem takeLegacy_legacy (key : AccumulatorKey) (text : String) :
    (a.takeLegacy key).legacyAccumulators.get? text =
      if key.legacyText = text then none else a.legacyAccumulators.get? text := by
  rw [takeLegacy]
  cases hlegacy : a.legacyAccumulators.get? key.legacyText with
  | none =>
    dsimp only
    split
    · next h =>
      rw [← h]
      exact hlegacy
    · rfl
  | some value => exact get?_erase a.legacyAccumulators key.legacyText text

/-- An old value that is not there does not come back. -/
theorem takeLegacy_legacy_none {key : AccumulatorKey} {text : String}
    (h : a.legacyAccumulators.get? text = none) :
    (a.takeLegacy key).legacyAccumulators.get? text = none := by
  rw [takeLegacy_legacy]
  split
  · rfl
  · exact h

/-! ### States that stand for each other -/

/-- One state stands for another: every accumulator and every old text holds the same, except that
an old zero over accumulators that hold nothing may be missing. -/
structure Matches (a b : ProductionAccumulators options) : Prop where
  value : ∀ key, b.value key = a.value key
  legacy : ∀ text, b.legacyAccumulators.get? text = a.legacyAccumulators.get? text ∨
    a.legacyAccumulators.get? text = some 0 ∧ b.legacyAccumulators.get? text = none ∧
      ∀ key : AccumulatorKey, key.legacyText = text → a.value key = 0

namespace Matches

variable {a} {b : ProductionAccumulators options} (h : a.Matches b)

include h

theorem current (key : AccumulatorKey) : b.current key = a.current key := by
  rw [ProductionAccumulators.current, ProductionAccumulators.current]
  rcases h.legacy key.legacyText with hsame | ⟨hzero, hnone, hvalue⟩
  · rw [hsame, h.value]
  · rw [hzero, hnone, getD_none, getD_some, h.value]
    exact hvalue key rfl

theorem takeLegacy (key : AccumulatorKey) : (a.takeLegacy key).Matches (b.takeLegacy key) where
  value other := by
    rw [takeLegacy_value, takeLegacy_value, h.current, h.value]
  legacy text := by
    rw [takeLegacy_legacy, takeLegacy_legacy]
    by_cases htext : key.legacyText = text
    · rw [if_pos htext, if_pos htext]
      exact .inl rfl
    · rw [if_neg htext, if_neg htext]
      refine (h.legacy text).imp_right fun ⟨hzero, hnone, hvalue⟩ => ⟨hzero, hnone, ?_⟩
      intro other hother
      -- another text names another accumulator
      have hne : key ≠ other := by
        rintro rfl
        exact htext hother
      rw [takeLegacy_value, if_neg hne]
      exact hvalue other hother

/-- Accumulating gives the same amounts, and states that stand for each other. -/
theorem accumulate (system : ProductionSystem) (key : AccumulatorKey) (delta : ℚ) :
    (b.accumulate system key delta).1 = (a.accumulate system key delta).1 ∧
      (a.accumulate system key delta).2.Matches (b.accumulate system key delta).2 := by
  refine ⟨?_, h.takeLegacy key⟩
  rw [ProductionAccumulators.accumulate, ProductionAccumulators.accumulate]
  dsimp only
  rw [(h.takeLegacy key).value key]

theorem setValue (key : AccumulatorKey) (value : ℚ)
    (hnone : a.legacyAccumulators.get? key.legacyText = none) :
    (a.setValue key value).Matches (b.setValue key value) where
  value other := by
    rw [value_setValue, value_setValue, h.value]
  legacy text := by
    refine (h.legacy text).imp_right fun ⟨hzero, hmissing, hvalue⟩ => ⟨hzero, hmissing, ?_⟩
    intro other hother
    have hne : key ≠ other := by
      rintro rfl
      rw [hother, hzero] at hnone
      cases hnone
    rw [value_setValue, if_neg hne]
    exact hvalue other hother

end Matches

/-- Once used, an accumulator has no old value over it. -/
theorem accumulate_legacy (system : ProductionSystem) (key : AccumulatorKey) (delta : ℚ) :
    (a.accumulate system key delta).2.legacyAccumulators.get? key.legacyText = none := by
  change (a.takeLegacy key).legacyAccumulators.get? key.legacyText = none
  rw [takeLegacy_legacy, if_pos rfl]

end ProductionAccumulators

/-! ### Ticks from states that stand for each other -/

open ProductionAccumulators

section Phases

variable {σ : Type}

/-- Two states of the phases that differ in accumulators that stand for each other. -/
structure PhaseState.Matches (s t : PhaseState options σ) : Prop where
  accumulators : s.accumulators.Matches t.accumulators
  resources : t.resources = s.resources
  calls : t.calls = s.calls

/-- No old value comes back. -/
def PhaseState.NoLegacyBack (s t : PhaseState options σ) : Prop :=
  ∀ text, s.accumulators.legacyAccumulators.get? text = none →
    t.accumulators.legacyAccumulators.get? text = none

variable (system : ProductionSystem) (context : PhaseContext σ n) (input : GeneratorPhaseInput n)

/-- What has been prepared on both sides, with no old value left over what is prepared. -/
structure PreparedAlike (now now' : ConsumptionPlan n × PhaseState options σ) : Prop where
  plan : now'.1 = now.1
  state : now.2.Matches now'.2
  taken : ∀ entry ∈ now.1.consumptionAccumulators,
    now.2.accumulators.legacyAccumulators.get? entry.2.key.legacyText = none

theorem PreparedAlike.prepareConsumption {now now' : ConsumptionPlan n × PhaseState options σ}
    (h : PreparedAlike now now') (rate : ValidatedRate n) :
    PreparedAlike (prepareConsumption system context input now rate)
      (prepareConsumption system context input now' rate) := by
  obtain ⟨prepared, s⟩ := now
  obtain ⟨prepared', t⟩ := now'
  obtain ⟨hplan, ⟨hacc, hresources, hcalls⟩, htaken⟩ := h
  obtain rfl : prepared' = prepared := hplan
  obtain ⟨hresult, hmatches⟩ :=
    hacc.accumulate system (input.key .consume rate) (input.delta rate)
  have htaken' : ∀ entry ∈ prepared'.consumptionAccumulators ++ [(rate.index,
      (s.accumulators.accumulate system (input.key .consume rate) (input.delta rate)).1)],
      (s.accumulators.accumulate system (input.key .consume rate)
        (input.delta rate)).2.legacyAccumulators.get? entry.2.key.legacyText = none := by
    intro entry hentry
    rcases mem_append.mp hentry with hold | hnew
    · exact takeLegacy_legacy_none _ (htaken entry hold)
    · obtain rfl := mem_singleton.mp hnew
      exact accumulate_legacy _ system _ _
  rw [IdleEngine.prepareConsumption, IdleEngine.prepareConsumption]
  dsimp only
  rw [hresult]
  split
  · exact ⟨rfl, ⟨hmatches, hresources, hcalls⟩, htaken'⟩
  · exact ⟨by rw [hresources], ⟨hmatches, hresources, hcalls⟩, htaken'⟩

variable {s t : PhaseState options σ}

/-- **Looking at what would be consumed.** -/
theorem PhaseState.Matches.prepareConsumptionPhase (h : s.Matches t) :
    PreparedAlike (prepareConsumptionPhase system context input s)
      (prepareConsumptionPhase system context input t) := by
  have hfold := foldl_rel (l := input.validConsumptions)
    (f := IdleEngine.prepareConsumption system context input)
    (g := IdleEngine.prepareConsumption system context input)
    (a := (({ consumptionAccumulators := [], consumptionRatio := 1
              willApplyProduction := input.validConsumptions.isEmpty } : ConsumptionPlan n), s))
    (b := (({ consumptionAccumulators := [], consumptionRatio := 1
              willApplyProduction := input.validConsumptions.isEmpty } : ConsumptionPlan n), t))
    (r := PreparedAlike) ⟨rfl, h, fun _ hnone => absurd hnone not_mem_nil⟩
    fun rate _ _ _ hnow => hnow.prepareConsumption system context input rate
  exact ⟨congrArg (fun plan : ConsumptionPlan n =>
    { plan with consumptionRatio := clampRatio01 plan.consumptionRatio }) hfold.plan, hfold.state,
    hfold.taken⟩

theorem PhaseState.NoLegacyBack.trans {u : PhaseState options σ} (h : s.NoLegacyBack t)
    (h' : t.NoLegacyBack u) : s.NoLegacyBack u :=
  fun text hnone => h' text (h text hnone)

theorem noLegacyBack_executeProduction (scale : ℚ) (s : PhaseState options σ)
    (rate : ValidatedRate n) :
    s.NoLegacyBack (executeProduction system context input scale s rate) := by
  intro text hnone
  have htaken : (s.accumulators.accumulate system (input.key .produce rate)
      (input.delta rate)).2.legacyAccumulators.get? text = none :=
    takeLegacy_legacy_none _ hnone
  rw [executeProduction]
  dsimp only
  split
  · exact htaken
  · exact htaken

theorem PhaseState.Matches.executeProduction (h : s.Matches t) (scale : ℚ)
    (rate : ValidatedRate n) :
    (executeProduction system context input scale s rate).Matches
      (executeProduction system context input scale t rate) := by
  obtain ⟨hacc, hresources, hcalls⟩ := h
  obtain ⟨hresult, hmatches⟩ :=
    hacc.accumulate system (input.key .produce rate) (input.delta rate)
  have hcommit := hmatches.setValue (input.key .produce rate)
    ((s.accumulators.accumulate system (input.key .produce rate) (input.delta rate)).1.newTotal -
      (s.accumulators.accumulate system (input.key .produce rate) (input.delta rate)).1.toApply *
        scale) (accumulate_legacy _ system _ _)
  rw [IdleEngine.executeProduction, IdleEngine.executeProduction]
  dsimp only
  rw [hresult]
  split
  · exact ⟨hcommit, hresources, hcalls⟩
  · exact ⟨hcommit, by rw [hresources], by rw [hcalls]⟩

theorem PhaseState.Matches.executeConsumption (h : s.Matches t) (consumptionRatio : ℚ)
    {entry : Fin n × AccumulatorResult}
    (hnone : s.accumulators.legacyAccumulators.get? entry.2.key.legacyText = none) :
    (executeConsumption context consumptionRatio s entry).Matches
      (executeConsumption context consumptionRatio t entry) := by
  obtain ⟨hacc, hresources, hcalls⟩ := h
  have hcommit := hacc.setValue entry.2.key
    (entry.2.newTotal - entry.2.toApply * consumptionRatio) hnone
  rw [IdleEngine.executeConsumption, IdleEngine.executeConsumption]
  dsimp only
  split
  · exact ⟨hcommit, hresources, hcalls⟩
  · exact ⟨hcommit, by rw [hresources], by rw [hcalls]⟩

theorem noLegacyBack_executeConsumption (consumptionRatio : ℚ) (s : PhaseState options σ)
    (entry : Fin n × AccumulatorResult) :
    s.NoLegacyBack (executeConsumption context consumptionRatio s entry) := by
  intro text hnone
  rw [executeConsumption]
  dsimp only
  split
  · exact hnone
  · exact hnone

theorem noLegacyBack_prepareConsumption (now : ConsumptionPlan n × PhaseState options σ)
    (rate : ValidatedRate n) :
    now.2.NoLegacyBack (prepareConsumption system context input now rate).2 := by
  intro text hnone
  have htaken : (now.2.accumulators.accumulate system (input.key .consume rate)
      (input.delta rate)).2.legacyAccumulators.get? text = none :=
    takeLegacy_legacy_none _ hnone
  rw [prepareConsumption]
  dsimp only
  split
  · exact htaken
  · exact htaken

theorem noLegacyBack_executeProductionPhases (s : PhaseState options σ) :
    s.NoLegacyBack (executeProductionPhases system context input s) := by
  have hself : s.NoLegacyBack s := fun _ hnone => hnone
  have hprepared : s.NoLegacyBack (prepareConsumptionPhase system context input s).2 :=
    foldlRecOn (motive := fun now => s.NoLegacyBack now.2) input.validConsumptions _ hself
      fun now hnow rate _ =>
        hnow.trans (noLegacyBack_prepareConsumption system context input now rate)
  rw [executeProductionPhases]
  dsimp only
  refine foldlRecOn (motive := fun t => s.NoLegacyBack t) _ _ ?_ fun t ht entry _ =>
    ht.trans (noLegacyBack_executeConsumption context _ t entry)
  exact foldlRecOn (motive := fun t => s.NoLegacyBack t) _ _ hprepared fun t ht rate _ =>
    ht.trans (noLegacyBack_executeProduction system context input _ t rate)

theorem noLegacyBack_runGenerators (ids : Fin n → String) (tick : ProductionTick)
    (s : PhaseState options σ) :
    s.NoLegacyBack (runGenerators system context ids tick s) := by
  refine foldlRecOn (motive := fun t => s.NoLegacyBack t) _ _ (fun _ hnone => hnone)
    fun t ht generator _ => ?_
  rw [runGenerator]
  split
  · exact ht
  · split
    · exact ht
    · exact ht.trans (noLegacyBack_executeProductionPhases system context _ t)

/-- **The phases of a generator** pass the same amounts on from states that stand for each other. -/
theorem PhaseState.Matches.executeProductionPhases (h : s.Matches t) :
    (executeProductionPhases system context input s).Matches
      (executeProductionPhases system context input t) := by
  have hprepared := h.prepareConsumptionPhase system context input
  rw [IdleEngine.executeProductionPhases, IdleEngine.executeProductionPhases]
  generalize IdleEngine.prepareConsumptionPhase system context input s = now at hprepared
  generalize IdleEngine.prepareConsumptionPhase system context input t = now' at hprepared
  obtain ⟨prepared, s₁⟩ := now
  obtain ⟨prepared', t₁⟩ := now'
  obtain ⟨hplan, hstate, htaken⟩ := hprepared
  obtain rfl : prepared' = prepared := hplan
  dsimp only
  -- what was prepared stays free of old values while production is released
  have hproduced := foldl_rel (l := input.validProductions)
    (f := IdleEngine.executeProduction system context input
      (if prepared'.willApplyProduction then prepared'.consumptionRatio else 0))
    (g := IdleEngine.executeProduction system context input
      (if prepared'.willApplyProduction then prepared'.consumptionRatio else 0))
    (a := s₁) (b := t₁) (r := fun s t => s.Matches t ∧ s₁.NoLegacyBack s)
    ⟨hstate, fun _ hnone => hnone⟩
    fun rate _ s t hst => ⟨hst.1.executeProduction system context input _ rate,
      hst.2.trans (noLegacyBack_executeProduction system context input _ s rate)⟩
  exact (foldl_rel (l := prepared'.consumptionAccumulators)
    (f := IdleEngine.executeConsumption context prepared'.consumptionRatio)
    (g := IdleEngine.executeConsumption context prepared'.consumptionRatio)
    (r := fun s t => s.Matches t ∧ s₁.NoLegacyBack s) hproduced
    fun entry hentry s t hst =>
      ⟨hst.1.executeConsumption context _ (hst.2 _ (htaken entry hentry)),
        hst.2.trans (noLegacyBack_executeConsumption context _ s entry)⟩).1

theorem PhaseState.Matches.runGenerators (h : s.Matches t) (ids : Fin n → String)
    (tick : ProductionTick) :
    (runGenerators system context ids tick s).Matches (runGenerators system context ids tick t) :=
  foldl_rel (r := PhaseState.Matches) h fun generator _ s t hst => by
    rw [runGenerator, runGenerator]
    split
    · exact hst
    · split
      · exact hst
      · exact hst.executeProductionPhases system context _

end Phases

section Ticks

variable (system : ProductionSystem)

theorem noLegacyBack_runTick (tick : ProductionTick) (s : PhaseState options (ResourceState n)) :
    s.NoLegacyBack (system.runTick tick s) := by
  rw [runTick]
  split
  · split
    · exact fun _ hnone => hnone
    · exact noLegacyBack_runGenerators system shadowPhaseContext s.resources.ids tick
        { s with resources := ShadowState.create s.resources }
  · exact noLegacyBack_runGenerators system directPhaseContext s.resources.ids tick s

/-- **A tick** passes the same amounts on from states that stand for each other. -/
theorem PhaseState.Matches.runTick {s t : PhaseState options (ResourceState n)} (h : s.Matches t)
    (tick : ProductionTick) : (system.runTick tick s).Matches (system.runTick tick t) := by
  rw [ProductionSystem.runTick, ProductionSystem.runTick]
  split
  · split
    · exact h
    · rw [runFinalizeTickRatesFlow, runFinalizeTickRatesFlow,
        h.resources]
      have hshadowed : PhaseState.Matches
          { s with resources := ShadowState.create s.resources }
          { t with resources := ShadowState.create s.resources } :=
        ⟨h.accumulators, rfl, h.calls⟩
      obtain ⟨hacc, hresources, hcalls⟩ :=
        hshadowed.runGenerators system shadowPhaseContext s.resources.ids tick
      rw [hresources]
      exact ⟨hacc, rfl, hcalls⟩
  · rw [runStandardFlow, runStandardFlow, h.resources]
    exact h.runGenerators system directPhaseContext s.resources.ids tick

theorem PhaseState.Matches.runTicks {s t : PhaseState options (ResourceState n)}
    (h : s.Matches t) (ticks : List (ResourceState n × ProductionTick)) :
    (system.runTicks ticks s).Matches (system.runTicks ticks t) :=
  foldl_rel (r := PhaseState.Matches) h fun entry _ s t hst => by
    have hstores : PhaseState.Matches { s with resources := entry.1 }
        { t with resources := entry.1 } := ⟨hst.accumulators, rfl, hst.calls⟩
    exact hstores.runTick system entry.2

end Ticks

/-! ### Restoring a record -/

namespace ProductionAccumulators

/-- One entry of a record, restored. -/
def restoreRecordEntry (a : ProductionAccumulators options) (entry : String × JsNumber) :
    ProductionAccumulators options :=
  a.restoreEntry (readAccumulatorKey entry.1, entry.2)

theorem restoreRecord_append (record : AccumulatorRecord) (entry : String × JsNumber) :
    (restoreRecord (record ++ [entry]) : ProductionAccumulators options) =
      (restoreRecord record).restoreRecordEntry entry := by
  rw [restoreRecord, restoreRecord, map_append, restoreAccumulators, foldl_append]
  rfl

/-- The value that an entry gives a triple by a current key. -/
def valueAtKey? (key : AccumulatorKey) (entry : String × JsNumber) : Option ℚ :=
  if tryParseAccumulatorKeyV2 entry.1 = some key then entry.2.finite? else none

/-- The value that an entry gives an old text. -/
def valueAtText? (text : String) (entry : String × JsNumber) : Option ℚ :=
  if entry.1 = text then entry.2.finite? else none

/-- An old text that is no current key and cannot be read as one accumulator's. -/
def Waits (options : ProgressionOptions sh) (text : String) : Prop :=
  tryParseAccumulatorKeyV2 text = none ∧ tryParseAccumulatorKeyLegacy options text = none

instance (text : String) : Decidable (Waits options text) :=
  inferInstanceAs (Decidable (_ ∧ _))

/-- **What one entry of a record does**: nothing, or it sets an accumulator under a current key, or
it sets an old text that waits, or an accumulator that is not set yet. -/
theorem restoreRecordEntry_cases (a : ProductionAccumulators options)
    (entry : String × JsNumber) :
    (entry.2.finite? = none ∧ a.restoreRecordEntry entry = a) ∨
      ∃ value, entry.2.finite? = some value ∧
        ((∃ key, tryParseAccumulatorKeyV2 entry.1 = some key ∧
            a.restoreRecordEntry entry = a.setValue key value) ∨
          tryParseAccumulatorKeyV2 entry.1 = none ∧
            ((∃ hunread : tryParseAccumulatorKeyLegacy options entry.1 = none,
                a.restoreRecordEntry entry = a.setLegacy entry.1 value hunread) ∨
              ∃ key, tryParseAccumulatorKeyLegacy options entry.1 = some key ∧
                a.restoreRecordEntry entry =
                  if (a.accumulators.get? key).isSome then a else a.setValue key value)) := by
  rw [restoreRecordEntry, restoreEntry]
  cases entry.2.finite? with
  | none => exact .inl ⟨rfl, rfl⟩
  | some value =>
    refine .inr ⟨value, rfl, ?_⟩
    dsimp only
    rw [readAccumulatorKey]
    cases tryParseAccumulatorKeyV2 entry.1 with
    | some key => exact .inl ⟨key, rfl, rfl⟩
    | none =>
      refine .inr ⟨rfl, ?_⟩
      rw [elim_none, restoreValue]
      split
      · next hunread => exact .inl ⟨hunread, rfl⟩
      · next key hread => exact .inr ⟨key, hread, rfl⟩

/-- The value of the last current key of a triple in a record. -/
def currentValue? (record : AccumulatorRecord) (key : AccumulatorKey) : Option ℚ :=
  (record.filterMap (valueAtKey? key)).getLast?

/-- The last value of a text in a record. -/
def textValue? (record : AccumulatorRecord) (text : String) : Option ℚ :=
  (record.filterMap (valueAtText? text)).getLast?

theorem currentValue?_append (record : AccumulatorRecord) (entry : String × JsNumber)
    (key : AccumulatorKey) :
    currentValue? (record ++ [entry]) key =
      (valueAtKey? key entry).or (currentValue? record key) := by
  rw [currentValue?, filterMap_append, filterMap_cons]
  cases valueAtKey? key entry with
  | none => simp [currentValue?]
  | some value => simp

theorem textValue?_append (record : AccumulatorRecord) (entry : String × JsNumber)
    (text : String) :
    textValue? (record ++ [entry]) text = (valueAtText? text entry).or (textValue? record text) := by
  rw [textValue?, filterMap_append, filterMap_cons]
  cases valueAtText? text entry with
  | none => simp [textValue?]
  | some value => simp

variable {record : AccumulatorRecord} {text : String} {value : ℚ}

theorem exists_of_textValue? (h : textValue? record text = some value) :
    ∃ entry ∈ record, entry.1 = text ∧ entry.2.finite? = some value := by
  obtain ⟨entry, hentry, hvalue⟩ := mem_filterMap.mp (mem_of_getLast? h)
  rw [valueAtText?] at hvalue
  split at hvalue
  · next htext => exact ⟨entry, hentry, htext, hvalue⟩
  · cases hvalue

variable {key : AccumulatorKey}

/-- An accumulator after one entry: the entry's value under a current key, or else what was there,
unless an old key reads as an accumulator that is not set. -/
theorem get?_restoreRecordEntry_current (a : ProductionAccumulators options)
    {entry : String × JsNumber}
    (h : (a.accumulators.get? key).isSome ∨ (tryParseAccumulatorKeyV2 entry.1 = none →
      tryParseAccumulatorKeyLegacy options entry.1 ≠ some key)) :
    (a.restoreRecordEntry entry).accumulators.get? key =
      (valueAtKey? key entry).or (a.accumulators.get? key) := by
  have hold : tryParseAccumulatorKeyV2 entry.1 = none → valueAtKey? key entry = none := by
    intro hold
    rw [valueAtKey?, hold]
    exact if_neg (some_ne_none key).symm
  rcases restoreRecordEntry_cases a entry with
    ⟨hnone, hrun⟩ | ⟨value, hvalue, ⟨k, hk, hrun⟩ | ⟨htext, ⟨hunread, hrun⟩ | ⟨k, hk, hrun⟩⟩⟩
  · rw [hrun, valueAtKey?, hnone, ite_self, none_or]
  · rw [hrun, valueAtKey?, hvalue, hk, setValue, get?_set]
    by_cases hkey : k = key
    · rw [if_pos hkey, if_pos (congrArg some hkey), some_or]
    · rw [if_neg hkey, if_neg fun hsame => hkey (some.inj hsame), none_or]
  · rw [hrun, hold htext, none_or]
    rfl
  · rw [hrun, hold htext, none_or]
    split
    · rfl
    · next hunset =>
      have hne : k ≠ key := by
        rintro rfl
        rcases h with hset | hother
        · exact hunset hset
        · exact hother htext hk
      rw [setValue, get?_set, if_neg hne]

/-- An old text after one entry: an entry under a text that waits sets it. -/
theorem get?_restoreRecordEntry_legacy (a : ProductionAccumulators options)
    (entry : String × JsNumber) (text : String) :
    (a.restoreRecordEntry entry).legacyAccumulators.get? text =
      if Waits options text then (valueAtText? text entry).or (a.legacyAccumulators.get? text)
      else a.legacyAccumulators.get? text := by
  -- an entry that sets no old text is under another text, or under one that does not wait
  have hkept : (entry.2.finite? = none ∨ ¬Waits options entry.1) →
      (if Waits options text then (valueAtText? text entry).or (a.legacyAccumulators.get? text)
        else a.legacyAccumulators.get? text) = a.legacyAccumulators.get? text := by
    intro hentry
    split
    · next hwaits =>
      have hnone : valueAtText? text entry = none := by
        rw [valueAtText?]
        split
        · next htext =>
          rw [htext] at hentry
          exact hentry.resolve_right fun h => h hwaits
        · rfl
      rw [hnone, none_or]
    · rfl
  rcases restoreRecordEntry_cases a entry with
    ⟨hnone, hrun⟩ | ⟨value, hvalue, ⟨k, hk, hrun⟩ | ⟨hold, ⟨hunread, hrun⟩ | ⟨k, hk, hrun⟩⟩⟩
  · rw [hrun, hkept (.inl hnone)]
  · rw [hrun, hkept (.inr fun h => by rw [h.1] at hk; cases hk)]
    rfl
  · rw [hrun, setLegacy, get?_set, valueAtText?, hvalue]
    by_cases htext : entry.1 = text
    · subst htext
      rw [if_pos rfl, if_pos rfl, if_pos ⟨hold, hunread⟩, some_or]
    · rw [if_neg htext, if_neg htext, none_or, ite_self]
  · rw [hrun, hkept (.inr fun h => by rw [h.2] at hk; cases hk)]
    split <;> rfl

/-- **A current key sets its accumulator**, whatever old keys stand before or after it. -/
theorem get?_restoreRecord_current (h : currentValue? record key = some value) :
    (restoreRecord record : ProductionAccumulators options).accumulators.get? key =
      some value := by
  induction record using reverseRecOn generalizing value with
  | nil => cases h
  | append_singleton record entry ih =>
    rw [currentValue?_append] at h
    rw [restoreRecord_append]
    cases hentry : valueAtKey? key entry with
    | some x =>
      rw [hentry, some_or] at h
      have hcurrent : tryParseAccumulatorKeyV2 entry.1 = some key := by
        by_contra hother
        rw [valueAtKey?, if_neg hother] at hentry
        cases hentry
      rw [get?_restoreRecordEntry_current _ (.inr fun hnone => by rw [hcurrent] at hnone; cases hnone),
        hentry, some_or]
      exact h
    | none =>
      rw [hentry, none_or] at h
      rw [get?_restoreRecordEntry_current _ (.inl (by rw [ih h]; rfl)), hentry, none_or]
      exact ih h

theorem get?_restoreRecord_of_waits
    (h : ∀ entry ∈ record, tryParseAccumulatorKeyV2 entry.1 = none → Waits options entry.1)
    (key : AccumulatorKey) :
    (restoreRecord record : ProductionAccumulators options).accumulators.get? key =
      currentValue? record key := by
  induction record using reverseRecOn with
  | nil => rfl
  | append_singleton record entry ih =>
    have hentry := h entry (mem_append_right record mem_cons_self)
    rw [restoreRecord_append, currentValue?_append, get?_restoreRecordEntry_current,
      ih fun earlier hearlier => h earlier (mem_append_left _ hearlier)]
    exact .inr fun hold hread => by rw [(hentry hold).2] at hread; cases hread

/-- **An old text waits** with the last value that the record gives it, if it cannot be read. -/
theorem get?_restoreRecord_legacy (record : AccumulatorRecord) (text : String) :
    (restoreRecord record : ProductionAccumulators options).legacyAccumulators.get? text =
      if Waits options text then textValue? record text else none := by
  induction record using reverseRecOn with
  | nil => exact (ite_self none).symm
  | append_singleton record entry ih =>
    rw [restoreRecord_append, get?_restoreRecordEntry_legacy, ih, textValue?_append]
    split <;> rfl

/-! ### Exported records, in any order -/

/-- Every old text that is kept is no current key. -/
def KeepsOldTexts (a : ProductionAccumulators options) : Prop :=
  ∀ text, (a.legacyAccumulators.get? text).isSome → tryParseAccumulatorKeyV2 text = none

variable {a : ProductionAccumulators options}

theorem KeepsOldTexts.waits (h : a.KeepsOldTexts)
    (hkept : (a.legacyAccumulators.get? text).isSome) : Waits options text :=
  ⟨h text hkept, a.legacy_unread text hkept⟩

theorem exportRecord_eq (a : ProductionAccumulators options) :
    a.exportRecord =
      (a.accumulators.filterValues fun value => value ≠ 0).entries.map
          (fun entry => (serializeAccumulatorKeyV2 entry.1, JsNumber.fin entry.2)) ++
        (a.legacyAccumulators.filterValues fun value => value ≠ 0).entries.map
          fun entry => (entry.1, JsNumber.fin entry.2) := by
  rw [exportRecord, exportAccumulators, map_append, List.map_map, List.map_map]
  rfl

/-- The old texts of an exported record are those that are kept. -/
theorem isSome_of_mem_filterValues {entry : String × ℚ}
    (h : entry ∈ (a.legacyAccumulators.filterValues fun value => value ≠ 0).entries) :
    (a.legacyAccumulators.get? entry.1).isSome := by
  have hget := get?_eq_some_iff.mpr h
  rw [(get?_filterValues_eq_some.mp hget).1]
  rfl

theorem filterMap_currentEntry_exportRecord (h : a.KeepsOldTexts) (key : AccumulatorKey) :
    a.exportRecord.filterMap (valueAtKey? key) =
      ((a.accumulators.get? key).filter fun value => value ≠ 0).toList := by
  rw [exportRecord_eq, filterMap_append, filterMap_map, filterMap_map,
    ← get?_filterValues, ← filterMap_key]
  have hcurrent : valueAtKey? key ∘ (fun entry : AccumulatorKey × ℚ =>
      (serializeAccumulatorKeyV2 entry.1, JsNumber.fin entry.2)) =
      fun entry => if entry.1 = key then some entry.2 else none := by
    funext entry
    rw [Function.comp_apply, valueAtKey?, tryParseAccumulatorKeyV2_serialize]
    by_cases hkey : entry.1 = key
    · rw [if_pos (congrArg some hkey), if_pos hkey]
      rfl
    · rw [if_neg fun hsame => hkey (some.inj hsame), if_neg hkey]
  have hold : (a.legacyAccumulators.filterValues fun value => value ≠ 0).entries.filterMap
      (valueAtKey? key ∘ fun entry => (entry.1, JsNumber.fin entry.2)) = [] := by
    refine filterMap_eq_nil_iff.mpr fun entry hentry => ?_
    rw [Function.comp_apply, valueAtKey?, h entry.1 (isSome_of_mem_filterValues hentry)]
    exact if_neg (some_ne_none key).symm
  rw [hcurrent, hold, append_nil]

theorem filterMap_textEntry_exportRecord (h : Waits options text) :
    a.exportRecord.filterMap (valueAtText? text) =
      ((a.legacyAccumulators.get? text).filter fun value => value ≠ 0).toList := by
  rw [exportRecord_eq, filterMap_append, filterMap_map, filterMap_map,
    ← get?_filterValues, ← filterMap_key]
  have hcurrent : (a.accumulators.filterValues fun value => value ≠ 0).entries.filterMap
      (valueAtText? text ∘ fun entry =>
        (serializeAccumulatorKeyV2 entry.1, JsNumber.fin entry.2)) = [] := by
    refine filterMap_eq_nil_iff.mpr fun entry _ => ?_
    rw [Function.comp_apply, valueAtText?]
    refine if_neg fun htext => ?_
    have hread := h.1
    rw [← htext, tryParseAccumulatorKeyV2_serialize] at hread
    cases hread
  rw [hcurrent, nil_append]
  rfl

/-- At most one entry is found in the same place in any order. -/
theorem getLast?_filterMap_perm {record' : AccumulatorRecord} {f : String × JsNumber → Option ℚ}
    {found : Option ℚ} (h : record.Perm record') (hfound : record'.filterMap f = found.toList) :
    (record.filterMap f).getLast? = found := by
  have hperm := h.filterMap f
  rw [hfound] at hperm
  cases found with
  | none =>
    rw [perm_nil.mp hperm]
    rfl
  | some value =>
    rw [perm_singleton.mp hperm]
    rfl

/-- **An exported record restored, in any order.** Zeros are left out. -/
theorem restoreRecord_export (h : a.KeepsOldTexts) (hrecord : record.Perm a.exportRecord) :
    (∀ key, (restoreRecord record : ProductionAccumulators options).accumulators.get? key =
        (a.accumulators.get? key).filter fun value => value ≠ 0) ∧
      ∀ text, (restoreRecord record : ProductionAccumulators options).legacyAccumulators.get?
        text = (a.legacyAccumulators.get? text).filter fun value => value ≠ 0 := by
  constructor
  · intro key
    rw [get?_restoreRecord_of_waits, currentValue?]
    · exact getLast?_filterMap_perm hrecord (filterMap_currentEntry_exportRecord h key)
    · intro entry hentry hold
      have hexported := hrecord.mem_iff.mp hentry
      rw [exportRecord_eq] at hexported
      rcases mem_append.mp hexported with hcurrent | htext
      · obtain ⟨exported, -, rfl⟩ := mem_map.mp hcurrent
        rw [tryParseAccumulatorKeyV2_serialize] at hold
        cases hold
      · obtain ⟨exported, hmem, rfl⟩ := mem_map.mp htext
        exact h.waits (isSome_of_mem_filterValues hmem)
  · intro text
    rw [get?_restoreRecord_legacy]
    split
    · next hwaits =>
      exact getLast?_filterMap_perm hrecord (filterMap_textEntry_exportRecord hwaits)
    · next hwaits =>
      have hnone : a.legacyAccumulators.get? text = none := by
        rw [← not_isSome_iff_eq_none]
        exact fun hkept => hwaits (h.waits hkept)
      rw [hnone, filter_none]

/-- **What a save is restored to keeps no current key as an old text.** -/
theorem keepsOldTexts_restoreRecord (record : AccumulatorRecord) :
    (restoreRecord record : ProductionAccumulators options).KeepsOldTexts := by
  intro text hkept
  rw [get?_restoreRecord_legacy] at hkept
  split at hkept
  · next hwaits => exact hwaits.1
  · cases hkept

/-- **Ticks keep it so.** -/
theorem KeepsOldTexts.runTicks {system : ProductionSystem}
    {ticks : List (ResourceState n × ProductionTick)} {s : PhaseState options (ResourceState n)}
    (h : s.accumulators.KeepsOldTexts) :
    (system.runTicks ticks s).accumulators.KeepsOldTexts := by
  have hback : s.NoLegacyBack (system.runTicks ticks s) :=
    foldlRecOn (motive := fun t => s.NoLegacyBack t) _ _ (fun _ hnone => hnone)
      fun t ht entry _ => ht.trans
        (noLegacyBack_runTick system entry.2 { t with resources := entry.1 })
  intro text hkept
  refine h text ?_
  rw [← ne_none_iff_isSome] at hkept ⊢
  exact fun hnone => hkept (hback text hnone)

/-- A zero under an old text stands over no accumulator that holds something. -/
def NoZeroOver (a : ProductionAccumulators options) : Prop :=
  ∀ key : AccumulatorKey, a.legacyAccumulators.get? key.legacyText = some 0 → a.value key = 0

theorem getD_filter_ne_zero (found : Option ℚ) :
    (found.filter fun value => value ≠ 0).getD 0 = found.getD 0 := by
  cases found with
  | none => rfl
  | some value =>
    by_cases hzero : value = 0
    · rw [hzero]
      rfl
    · simp [Option.filter, hzero]

theorem value_restoreRecord_export (h : a.KeepsOldTexts) (hrecord : record.Perm a.exportRecord)
    (key : AccumulatorKey) :
    (restoreRecord record : ProductionAccumulators options).value key = a.value key := by
  rw [value, (restoreRecord_export h hrecord).1, getD_filter_ne_zero, value]

theorem restoreRecord_matches (h : a.KeepsOldTexts) (hrecord : record.Perm a.exportRecord)
    (hzero : a.NoZeroOver) :
    a.Matches (restoreRecord record) where
  value := value_restoreRecord_export h hrecord
  legacy text := by
    rw [(restoreRecord_export h hrecord).2]
    cases hkept : a.legacyAccumulators.get? text with
    | none => exact .inl rfl
    | some old =>
      by_cases hold : old = 0
      · subst hold
        refine .inr ⟨rfl, rfl, ?_⟩
        rintro key rfl
        exact hzero key hkept
      · exact .inl (by simp [filter, hold])

/-- Another state goes on where this one was: every accumulator counts as the same, and all later
ticks, whatever the store before each of them, apply the same amounts. -/
structure Resumes (a b : ProductionAccumulators options) : Prop where
  current : ∀ key, b.current key = a.current key
  ticks : ∀ (n : ℕ) (system : ProductionSystem) (ticks : List (ResourceState n × ProductionTick))
    (s : ResourceState n),
    (system.runTicks ticks { accumulators := b, resources := s, calls := [] }).calls =
        (system.runTicks ticks { accumulators := a, resources := s, calls := [] }).calls ∧
      (system.runTicks ticks { accumulators := b, resources := s, calls := [] }).resources =
        (system.runTicks ticks { accumulators := a, resources := s, calls := [] }).resources

theorem Matches.resumes {b : ProductionAccumulators options} (h : a.Matches b) : a.Resumes b where
  current := h.current
  ticks n system ticks s := by
    have hstart : PhaseState.Matches { accumulators := a, resources := s, calls := [] }
        { accumulators := b, resources := s, calls := [] } := ⟨h, rfl, rfl⟩
    have hend := hstart.runTicks system ticks
    exact ⟨hend.calls, hend.resources⟩

/-- **An exported record goes on in any order exactly when** no zero stands over an accumulator. -/
theorem restoreRecord_resumes_iff (h : a.KeepsOldTexts) :
    (∀ record : AccumulatorRecord, record.Perm a.exportRecord →
      a.Resumes (restoreRecord record)) ↔ a.NoZeroOver := by
  constructor
  · intro hresumes key hzero
    have hcurrent := (hresumes a.exportRecord (.refl _)).current key
    rw [current, current, hzero, (restoreRecord_export h (.refl _)).2, hzero,
      value_restoreRecord_export h (.refl _)] at hcurrent
    exact hcurrent
  · intro hzero record hrecord
    exact (restoreRecord_matches h hrecord hzero).resumes

/-! ### Current and old keys -/

/-- **A current key counts exactly when** no old text of its accumulator waits with another
value. -/
theorem current_wins_iff (options : ProgressionOptions sh)
    (h : currentValue? record key = some value) :
    (restoreRecord record : ProductionAccumulators options).current key = value ↔
      (Waits options key.legacyText →
        ∀ old, textValue? record key.legacyText = some old → old = value) := by
  have hheld : (restoreRecord record : ProductionAccumulators options).value key = value := by
    rw [ProductionAccumulators.value, get?_restoreRecord_current h, getD_some]
  rw [current, get?_restoreRecord_legacy, hheld]
  by_cases hwaits : Waits options key.legacyText
  · rw [if_pos hwaits]
    cases textValue? record key.legacyText with
    | none => simp
    | some old => simp [hwaits]
  · rw [if_neg hwaits]
    exact iff_of_true rfl fun h => absurd h hwaits

end ProductionAccumulators

/-- **Saved accumulators.** No two accumulators share a current key; an exported record goes on in
any order, unless an old zero stands over an accumulator; and a current key counts, unless an old
text of its accumulator waits with another value. -/
theorem accumulators_survive_iff (options : ProgressionOptions sh) :
    Function.Injective serializeAccumulatorKeyV2 ∧
      (∀ a : ProductionAccumulators options, a.KeepsOldTexts →
        ((∀ record : AccumulatorRecord, record.Perm a.exportRecord →
          a.Resumes (restoreRecord record)) ↔ a.NoZeroOver)) ∧
      ∀ (record : AccumulatorRecord) (key : AccumulatorKey) (value : ℚ),
        currentValue? record key = some value →
          ((restoreRecord record : ProductionAccumulators options).current key = value ↔
            (Waits options key.legacyText →
              ∀ old, textValue? record key.legacyText = some old → old = value)) :=
  ⟨serializeAccumulatorKeyV2_injective, fun _ h => restoreRecord_resumes_iff h,
    fun _ _ _ h => current_wins_iff options h⟩

/-! ### A mine and a foundry -/

/-- The shape of a game with two resources and two generators. -/
def foundryShape : ContentShape :=
  { resources := 2, generators := 2, upgrades := 0, prestigeLayers := 0, achievements := 0 }

/-- The two generators, whose ids lie in each other's texts. -/
def foundryGenerator (i : Fin 2) : GeneratorContent foundryShape :=
  { id := if i.val = 0 then "foo" else "foo:produce", initialLevel := 0, maxLevel := none
    baseUnlock := .always, visibilityCondition := none, produces := [], consumes := [] }

theorem foundryGenerator_ids : Function.Injective fun i => (foundryGenerator i).id := by
  unfold Function.Injective
  decide

theorem foundryGenerator_nonblank (i : Fin 2) :
    isNonBlankString (foundryGenerator i).id = true := by
  revert i
  decide

/-- Two resources with the rest of each other's texts. -/
def foundryOptions : ProgressionOptions foundryShape where
  content :=
    { resources := fun i =>
        { id := if i.val = 0 then "produce:bar" else "bar", startAmount := none, capacity := none
          unlocked := some true, visible := none, dirtyTolerance := none, unlockCondition := none
          visibilityCondition := none }
      generators := foundryGenerator
      upgrades := fun i => i.elim0
      prestigeLayers := fun i => i.elim0
      achievements := fun i => i.elim0
      generator_ids := foundryGenerator_ids
      upgrade_ids := fun i => i.elim0
      achievement_ids := fun i => i.elim0
      generator_nonblank := foundryGenerator_nonblank
      upgrade_nonblank := fun i => i.elim0
      achievement_nonblank := fun i => i.elim0 }
  stepDurationMs := 1000
  precision := .default
  maxConditionDepth := none
  evaluateScriptCondition := none
  getCustomMetricValue := none

def fooKey : AccumulatorKey :=
  { generatorId := "foo", operation := .produce, resourceId := "produce:bar" }

/-- A record with a current key of an accumulator and an old text. -/
def foundryRecord (oldText : String) : AccumulatorRecord :=
  [(serializeAccumulatorKeyV2 fooKey, .fin (1 / 2)), (oldText, .fin (1 / 5))]

example : serializeAccumulatorKeyV2 fooKey = "v2|foo|produce|produce%3Abar" := by decide

theorem currentValue_foundryRecord {oldText : String}
    (h : tryParseAccumulatorKeyV2 oldText = none) :
    currentValue? (foundryRecord oldText) fooKey = some (1 / 2) := by
  have hcurrent : valueAtKey? fooKey (serializeAccumulatorKeyV2 fooKey, .fin (1 / 2)) =
      some (1 / 2) := by
    rw [valueAtKey?, tryParseAccumulatorKeyV2_serialize]
    exact if_pos rfl
  have hold : valueAtKey? fooKey (oldText, .fin (1 / 5)) = none := by
    rw [valueAtKey?, h]
    exact if_neg (some_ne_none fooKey).symm
  rw [currentValue?, foundryRecord, filterMap_cons, hcurrent, filterMap_cons, hold]
  rfl

/-- With an old text of another accumulator, a current key counts, and the export goes on. -/
theorem accumulators_survive_foundry :
    (restoreRecord (foundryRecord "foo:consume:bar") :
        ProductionAccumulators foundryOptions).current fooKey = 1 / 2 ∧
      (restoreRecord (foundryRecord "foo:consume:bar") :
        ProductionAccumulators foundryOptions).Resumes (restoreRecord (restoreRecord
          (foundryRecord "foo:consume:bar") : ProductionAccumulators foundryOptions).exportRecord)
      := by
  obtain ⟨-, hround, hwins⟩ := accumulators_survive_iff foundryOptions
  constructor
  · refine (hwins _ fooKey (1 / 2) (currentValue_foundryRecord (by decide))).mpr ?_
    intro _ old hold
    have hnone : textValue? (foundryRecord "foo:consume:bar") fooKey.legacyText = none := by decide
    rw [hnone] at hold
    cases hold
  · refine (hround _ (keepsOldTexts_restoreRecord _)).mpr ?_ _ (List.Perm.refl _)
    intro key hzero
    rw [get?_restoreRecord_legacy] at hzero
    split at hzero
    · -- neither entry is a zero
      obtain ⟨entry, hentry, -, hfinite⟩ := exists_of_textValue? hzero
      rcases List.mem_cons.mp hentry with rfl | hentry
      · exact absurd (Option.some.inj hfinite) (by norm_num)
      · obtain rfl := List.mem_singleton.mp hentry
        exact absurd (Option.some.inj hfinite) (by norm_num)
    · cases hzero

/-- An old text that two accumulators share takes the place of a current key. -/
theorem shared_text_beats_current :
    currentValue? (foundryRecord "foo:produce:produce:bar") fooKey = some (1 / 2) ∧
      (restoreRecord (foundryRecord "foo:produce:produce:bar") :
        ProductionAccumulators foundryOptions).current fooKey = 1 / 5 := by
  refine ⟨currentValue_foundryRecord (by decide), ?_⟩
  have hwaits : Waits foundryOptions fooKey.legacyText := by decide
  have hold : textValue? (foundryRecord "foo:produce:produce:bar") fooKey.legacyText =
      some (1 / 5) := by with_unfolding_all rfl
  rw [current, get?_restoreRecord_legacy, if_pos hwaits, hold, Option.getD_some]

end IdleEngine
