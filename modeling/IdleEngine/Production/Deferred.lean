import IdleEngine.Production.Fairness
import IdleEngine.Resource.Rates

/-!
# Production through `finalizeTick`

The deferred mode runs the same phases over a shadow of the store, records the totals as rates and
lets `finalizeTick` settle them. The phases see the same amounts in both modes (`Simulates`), and
the totals of a shadow are exactly what its amounts differ by from the store (`Shadows`). So after
settlement a resource holds what direct production leaves it, plus what the rates that were there
before the tick are worth (`runFinalizeTickRatesFlow_stored`).
-/

namespace IdleEngine

open OrderedMap Function ResourceState

variable {sh : ContentShape} {n : ℕ} {options : ProgressionOptions sh} {σ τ : Type}

/-! ### Two contexts -/

/-- Two contexts that keep their states related and show the same amounts. -/
structure PhaseContext.Simulates (R : σ → τ → Prop) (context : PhaseContext σ n)
    (context' : PhaseContext τ n) : Prop where
  getAmount : ∀ {s t}, R s t → ∀ i, context.getAmount s i = context'.getAmount t i
  addProduction : ∀ {s t}, R s t → ∀ i {amount : ℚ}, 0 < amount →
    R (context.addProduction i amount s) (context'.addProduction i amount t)
  spendConsumption : ∀ {s t}, R s t → ∀ i {amount : ℚ}, 0 < amount →
    R (context.spendConsumption i amount s) (context'.spendConsumption i amount t)

/-- States of related resources with the same accumulators and calls. -/
structure PhaseState.Related (R : σ → τ → Prop) (a : PhaseState options σ)
    (b : PhaseState options τ) : Prop where
  accumulators : a.accumulators = b.accumulators
  resources : R a.resources b.resources
  calls : a.calls = b.calls

theorem PhaseState.Related.foldl {R : σ → τ → Prop} {α : Type} {f : PhaseState options σ → α → PhaseState options σ}
    {g : PhaseState options τ → α → PhaseState options τ}
    (hfg : ∀ {a b}, a.Related R b → ∀ x, (f a x).Related R (g b x)) (l : List α)
    {a : PhaseState options σ} {b : PhaseState options τ} (hab : a.Related R b) : (l.foldl f a).Related R (l.foldl g b) := by
  induction l generalizing a b with
  | nil => exact hab
  | cons x l ih => exact ih (hfg hab x)

namespace PhaseContext.Simulates

variable {R : σ → τ → Prop} {context : PhaseContext σ n} {context' : PhaseContext τ n}
  (h : context.Simulates R context') (system : ProductionSystem) (input : GeneratorPhaseInput n)
  {a : PhaseState options σ} {b : PhaseState options τ}

include h

theorem prepareConsumption (plan : ConsumptionPlan n) (hab : a.Related R b)
    (rate : ValidatedRate n) :
    (IdleEngine.prepareConsumption system context input (plan, a) rate).1 =
        (IdleEngine.prepareConsumption system context' input (plan, b) rate).1 ∧
      (IdleEngine.prepareConsumption system context input (plan, a) rate).2.Related R
        (IdleEngine.prepareConsumption system context' input (plan, b) rate).2 := by
  obtain ⟨accumulators, s, calls⟩ := a
  obtain ⟨_, t, _⟩ := b
  obtain ⟨rfl, hresources, rfl⟩ := hab
  simp only [IdleEngine.prepareConsumption, h.getAmount hresources]
  split
  · exact ⟨rfl, rfl, hresources, rfl⟩
  · exact ⟨rfl, rfl, hresources, rfl⟩

theorem foldl_prepareConsumption (rates : List (ValidatedRate n)) (plan : ConsumptionPlan n)
    (hab : a.Related R b) :
    (rates.foldl (IdleEngine.prepareConsumption system context input) (plan, a)).1 =
        (rates.foldl (IdleEngine.prepareConsumption system context' input) (plan, b)).1 ∧
      (rates.foldl (IdleEngine.prepareConsumption system context input) (plan, a)).2.Related R
        (rates.foldl (IdleEngine.prepareConsumption system context' input) (plan, b)).2 := by
  induction rates generalizing plan a b with
  | nil => exact ⟨rfl, hab⟩
  | cons rate rates ih =>
    obtain ⟨hplan, hstate⟩ := h.prepareConsumption system input plan hab rate
    rw [List.foldl_cons, List.foldl_cons]
    rw [← Prod.mk.eta (p := IdleEngine.prepareConsumption system context input (plan, a) rate),
      ← Prod.mk.eta (p := IdleEngine.prepareConsumption system context' input (plan, b) rate),
      hplan]
    exact ih _ hstate

theorem executeProduction (scale : ℚ) (hab : a.Related R b) (rate : ValidatedRate n) :
    (IdleEngine.executeProduction system context input scale a rate).Related R
      (IdleEngine.executeProduction system context' input scale b rate) := by
  obtain ⟨accumulators, s, calls⟩ := a
  obtain ⟨_, t, _⟩ := b
  obtain ⟨rfl, hresources, rfl⟩ := hab
  simp only [IdleEngine.executeProduction]
  split
  · exact ⟨rfl, hresources, rfl⟩
  · next hpos => exact ⟨rfl, h.addProduction hresources rate.index (not_le.mp hpos), rfl⟩

theorem executeConsumption (ratio : ℚ) (hab : a.Related R b)
    (entry : Fin n × AccumulatorResult) :
    (IdleEngine.executeConsumption context ratio a entry).Related R
      (IdleEngine.executeConsumption context' ratio b entry) := by
  obtain ⟨accumulators, s, calls⟩ := a
  obtain ⟨_, t, _⟩ := b
  obtain ⟨rfl, hresources, rfl⟩ := hab
  simp only [IdleEngine.executeConsumption]
  split
  · exact ⟨rfl, hresources, rfl⟩
  · next hpos => exact ⟨rfl, h.spendConsumption hresources entry.1 (not_le.mp hpos), rfl⟩

theorem executeProductionPhases (hab : a.Related R b) :
    (IdleEngine.executeProductionPhases system context input a).Related R
      (IdleEngine.executeProductionPhases system context' input b) := by
  obtain ⟨hplan, hstate⟩ := h.foldl_prepareConsumption system input input.validConsumptions
    { consumptionAccumulators := []
      consumptionRatio := 1
      willApplyProduction := input.validConsumptions.isEmpty } hab
  rw [IdleEngine.executeProductionPhases, IdleEngine.executeProductionPhases,
    prepareConsumptionPhase, prepareConsumptionPhase]
  simp only [hplan]
  refine PhaseState.Related.foldl (fun hab entry => h.executeConsumption _ hab entry) _ ?_
  exact PhaseState.Related.foldl (fun hab rate => h.executeProduction system input _ hab rate) _
    hstate

theorem runGenerators (ids : Fin n → String) (tick : ProductionTick) (hab : a.Related R b) :
    (IdleEngine.runGenerators system context ids tick a).Related R
      (IdleEngine.runGenerators system context' ids tick b) := by
  refine PhaseState.Related.foldl (fun hab generator => ?_) _ hab
  rw [IdleEngine.runGenerator, IdleEngine.runGenerator]
  split_ifs
  · exact hab
  · exact hab
  · exact h.executeProductionPhases system _ hab

end PhaseContext.Simulates

/-- What the operations of a context keep, the loop over the generators keeps. -/
theorem runGenerators_keeps {P : σ → Prop} {context : PhaseContext σ n}
    (hadd : ∀ s i (amount : ℚ), P s → 0 < amount → P (context.addProduction i amount s))
    (hspend : ∀ s i (amount : ℚ), P s → 0 < amount → P (context.spendConsumption i amount s))
    (system : ProductionSystem) (ids : Fin n → String) (tick : ProductionTick)
    {state : PhaseState options σ} (h : P state.resources) :
    P (runGenerators system context ids tick state).resources := by
  have hself : context.Simulates (fun s t => s = t ∧ P s) context :=
    { getAmount := by
        rintro s t ⟨rfl, -⟩ i
        rfl
      addProduction := by
        rintro s t ⟨rfl, hs⟩ i amount hamount
        exact ⟨rfl, hadd s i amount hs hamount⟩
      spendConsumption := by
        rintro s t ⟨rfl, hs⟩ i amount hamount
        exact ⟨rfl, hspend s i amount hs hamount⟩ }
  have hrun := hself.runGenerators system (a := state) (b := state) ids tick ⟨rfl, ⟨rfl, h⟩, rfl⟩
  exact hrun.resources.2

/-! ### A shadow and the store -/

/-- The total recorded for a resource. -/
def recordedTotal (totals : OrderedMap (Fin n) ℚ) (i : Fin n) : ℚ := (totals.get? i).getD 0

theorem recordedTotal_set (totals : OrderedMap (Fin n) ℚ) (i j : Fin n) (v : ℚ) :
    recordedTotal (totals.set i v) j = if i = j then v else recordedTotal totals j := by
  rw [recordedTotal, get?_set]
  split <;> rfl

namespace ShadowState

variable (shadow : ShadowState n) (i : Fin n)

/-- The shadow with a pending amount. -/
def put (amount : ℚ) : ShadowState n := { shadow with amounts := shadow.amounts.set i amount }

theorem put_getAmount (amount : ℚ) :
    (shadow.put i amount).getAmount = update shadow.getAmount i amount := by
  funext j
  rw [getAmount, put, get?_set, update_apply]
  by_cases hij : i = j
  · rw [if_pos hij, if_pos hij.symm]
    rfl
  · rw [if_neg hij, if_neg (Ne.symm hij)]
    rfl

variable {amount : ℚ}

theorem recordIncome_eq (h : 0 ≤ amount) :
    ∃ income, shadow.recordIncome i amount = { shadow with income } ∧ ∀ j,
      recordedTotal income j = recordedTotal shadow.income j + if i = j then amount else 0 := by
  rw [recordIncome]
  split
  · next hzero =>
    obtain rfl : amount = 0 := le_antisymm hzero h
    exact ⟨shadow.income, rfl, fun j => by simp⟩
  · refine ⟨_, rfl, fun j => ?_⟩
    rw [recordedTotal_set]
    split
    · next hij => rw [hij]; rfl
    · rw [add_zero]

theorem recordExpense_eq (h : 0 ≤ amount) :
    ∃ expense, shadow.recordExpense i amount = { shadow with expense } ∧ ∀ j,
      recordedTotal expense j = recordedTotal shadow.expense j + if i = j then amount else 0 := by
  rw [recordExpense]
  split
  · next hzero =>
    obtain rfl : amount = 0 := le_antisymm hzero h
    exact ⟨shadow.expense, rfl, fun j => by simp⟩
  · refine ⟨_, rfl, fun j => ?_⟩
    rw [recordedTotal_set]
    split
    · next hij => rw [hij]; rfl
    · rw [add_zero]

/-- An addition that does not lower the amount records the difference. -/
theorem addAmount_eq (h : shadow.getAmount i ≤
      clampAmount (shadow.getAmount i + amount) (shadow.getCapacity i)) :
    let next := clampAmount (shadow.getAmount i + amount) (shadow.getCapacity i)
    ∃ income, shadow.addAmount i amount = { shadow.put i next with income } ∧ ∀ j,
      recordedTotal income j = recordedTotal shadow.income j +
        if i = j then next - shadow.getAmount i else 0 := by
  intro next
  rw [addAmount]
  simp only
  split
  · exact (shadow.put i next).recordIncome_eq i (sub_nonneg.mpr h)
  · next hzero =>
    have hsame : next - shadow.getAmount i = 0 :=
      le_antisymm (not_lt.mp hzero) (sub_nonneg.mpr h)
    exact ⟨shadow.income, rfl, fun j => by rw [hsame]; simp⟩

end ShadowState

/-- A store that direct production changes, and the shadow of `s` that the same calls change. -/
structure Shadows (s t : ResourceState n) (shadow : ShadowState n) : Prop where
  origin : shadow.resourceState = s
  ids : t.ids = s.ids
  bounded : Bounded t.stored
  stored : ∀ i, t.stored i = { s.stored i with amount := shadow.getAmount i }
  totals : ∀ i, shadow.getAmount i = (s.stored i).amount +
    recordedTotal shadow.income i - recordedTotal shadow.expense i
  income_nonneg : ∀ i, 0 ≤ recordedTotal shadow.income i
  expense_nonneg : ∀ i, 0 ≤ recordedTotal shadow.expense i

variable {s t : ResourceState n}

theorem shadows_create (hids : t.ids = s.ids) (hstored : t.stored = s.stored)
    (h : Bounded s.stored) :
    Shadows s t (ShadowState.create s) where
  origin := rfl
  ids := hids
  bounded := hstored ▸ h
  stored i := congrFun hstored i
  totals i := by simp [ShadowState.create, recordedTotal, ShadowState.getAmount,
    stored, ResourceRow.stored]
  income_nonneg i := by simp [ShadowState.create, recordedTotal]
  expense_nonneg i := by simp [ShadowState.create, recordedTotal]

theorem ResourceState.after_addAmount (t : ResourceState n) (i : Fin n) {amount : ℚ}
    (h : 0 < amount) : t.after (t.addAmount i (.fin amount)) = (t.addPositive i amount).2 := by
  simp [addAmount, JsNumber.finite?, not_lt.mpr h.le, h.ne', after]

namespace Shadows

variable {s t : ResourceState n} {shadow : ShadowState n}

theorem amount (h : Shadows s t shadow) (i : Fin n) : (t.live i).amount = shadow.getAmount i :=
  congrArg StoredResource.amount (h.stored i)

theorem capacity (h : Shadows s t shadow) (i : Fin n) :
    (t.stored i).capacity = shadow.getCapacity i := by
  have hcapacity : (t.stored i).capacity = (s.live i).capacity :=
    congrArg StoredResource.capacity (h.stored i)
  have hnonneg := (h.bounded i).capacity_nonneg
  rw [ShadowState.getCapacity, h.origin]
  rw [hcapacity] at hnonneg ⊢
  cases hc : (s.live i).capacity with
  | top => rfl
  | coe c =>
    rw [hc] at hnonneg
    have hc0 : ¬ c < 0 := not_lt.mpr (by exact_mod_cast hnonneg)
    exact (if_neg hc0).symm

theorem put (h : Shadows s t shadow) {t' : ResourceState n} {i : Fin n} {next : ℚ}
    {income expense : OrderedMap (Fin n) ℚ} (hids : t'.ids = t.ids)
    (hstored : t'.stored = update t.stored i { t.stored i with amount := next })
    (hbounded : Bounded t'.stored) (hincome : ∀ j, 0 ≤ recordedTotal income j)
    (hexpense : ∀ j, 0 ≤ recordedTotal expense j)
    (htotals : ∀ j, recordedTotal income j - recordedTotal expense j =
      recordedTotal shadow.income j - recordedTotal shadow.expense j +
        if i = j then next - shadow.getAmount i else 0) :
    Shadows s t' { shadow.put i next with income, expense } := by
  have hamount : ∀ j, ({ shadow.put i next with income, expense } : ShadowState n).getAmount j =
      update shadow.getAmount i next j := fun j => congrFun (shadow.put_getAmount i next) j
  refine ⟨h.origin, hids.trans h.ids, hbounded, fun j => ?_, fun j => ?_, hincome, hexpense⟩
  · rw [hstored, hamount]
    by_cases hj : j = i
    · subst hj
      rw [update_self, update_self, h.stored]
    · rw [update_of_ne hj, update_of_ne hj]
      exact h.stored j
  · have htotal := h.totals j
    have hrecorded := htotals j
    rw [hamount]
    change _ = (s.stored j).amount + recordedTotal income j -
      recordedTotal expense j
    by_cases hj : j = i
    · subst hj
      rw [if_pos rfl] at hrecorded
      rw [update_self]
      linarith
    · rw [if_neg (Ne.symm hj)] at hrecorded
      rw [update_of_ne hj]
      linarith

variable {amount : ℚ}

theorem addAmount (h : Shadows s t shadow) (i : Fin n) (hamount : 0 < amount) :
    Shadows s (t.after (t.addAmount i (.fin amount))) (shadow.addAmount i amount) := by
  have hrun := t.after_addAmount i hamount
  have hnext : ((t.stored i).add amount).amount =
      clampAmount (shadow.getAmount i + amount) (shadow.getCapacity i) := by
    have hnonneg : ¬ shadow.getAmount i + amount < 0 := by
      rw [← h.amount, not_lt]
      exact add_nonneg (h.bounded i).nonneg hamount.le
    rw [clampAmount, if_neg hnonneg, ← h.capacity, ← h.amount]
    rfl
  have hle : shadow.getAmount i ≤
      clampAmount (shadow.getAmount i + amount) (shadow.getCapacity i) := by
    rw [← hnext, ← h.amount]
    exact le_clampToCapacity (le_add_of_nonneg_right hamount.le) (h.bounded i).le_capacity
  obtain ⟨income, hadd, hincome⟩ := shadow.addAmount_eq i hle
  rw [hrun, hadd]
  refine h.put ?_ ?_ ?_ (fun j => ?_) h.expense_nonneg fun j => ?_
  · rw [← hrun]
    exact (t.addAmount_writes (A := fun _ _ _ => True) i (.fin amount)).ids
  · rw [t.addPositive_stored, ← hnext]
    rfl
  · rw [t.addPositive_stored]
    exact h.bounded.update ((h.bounded i).add hamount.le)
  · rw [hincome]
    have hold := h.income_nonneg j
    split
    · linarith
    · linarith
  · rw [hincome]
    exact add_sub_right_comm _ _ _

theorem spendAmount (h : Shadows s t shadow) (i : Fin n) (hamount : 0 < amount) :
    Shadows s (t.after (t.spendAmount i (.fin amount))) (shadow.spendAmount i amount) := by
  have hids : (t.after (t.spendAmount i (.fin amount))).ids = t.ids :=
    (t.spendAmount_writes (A := fun _ _ _ => True) i (.fin amount)).ids
  -- the shadow refuses exactly the expenses that the state refuses
  have hcondition : ((t.live i).amount < amount) = (shadow.getAmount i < amount) := by
    rw [h.amount]
  rw [ShadowState.spendAmount]
  by_cases hshort : shadow.getAmount i < amount
  · have hrun : t.after (t.spendAmount i (.fin amount)) = t := by
      simp [ResourceState.spendAmount, JsNumber.finite?, not_lt.mpr hamount.le, hamount.ne',
        hcondition, hshort, ResourceState.after]
    rw [hrun, if_pos hshort]
    exact h
  · rw [if_neg hshort]
    cases hspend : t.spendAmount i (.fin amount) with
    | error message =>
      simp [ResourceState.spendAmount, JsNumber.finite?, not_lt.mpr hamount.le, hamount.ne',
        hcondition, hshort] at hspend
    | ok result =>
      obtain ⟨done, t'⟩ := result
      rw [hspend] at hids
      have hbounded := h.bounded.spendAmount hspend
      obtain ⟨x, hx, -, ⟨-, -, hless⟩ | ⟨-, -, hstored⟩⟩ := ResourceState.spendAmount_ok hspend
      · obtain rfl := JsNumber.fin.inj hx
        exact absurd (hcondition ▸ hless) hshort
      obtain rfl := JsNumber.fin.inj hx
      obtain ⟨expense, hrecord, hexpense⟩ :=
        (shadow.put i (shadow.getAmount i - amount)).recordExpense_eq i hamount.le
      have hput : ({ shadow with
          amounts := shadow.amounts.set i (shadow.getAmount i - amount) } : ShadowState n) =
          shadow.put i (shadow.getAmount i - amount) := rfl
      rw [hput, hrecord]
      refine h.put hids ?_ hbounded h.income_nonneg (fun j => ?_) fun j => ?_
      · rw [← h.amount]
        exact hstored
      · rw [hexpense]
        have hold := h.expense_nonneg j
        change 0 ≤ recordedTotal shadow.expense j + _
        split
        · linarith
        · linarith
      · rw [hexpense]
        change recordedTotal shadow.income j - (recordedTotal shadow.expense j + _) =
          recordedTotal shadow.income j - recordedTotal shadow.expense j + _
        split
        · ring
        · ring

end Shadows

theorem shadows_simulates (s : ResourceState n) :
    (directPhaseContext : PhaseContext (ResourceState n) n).Simulates (Shadows s)
      shadowPhaseContext where
  getAmount h i := h.amount i
  addProduction h i _ hamount := h.addAmount i hamount
  spendConsumption h i _ hamount := h.spendAmount i hamount

/-! ### The totals as rates -/

/-- A field of a row that is a rate, and what adding to it does to a rated resource. -/
structure RateField (field : RowField ℚ) (addRate : ℚ → RatedResource → RatedResource) : Prop where
  set_get : ∀ row, field.set (field.get row) row = row
  rated : ∀ x row, (field.set (field.get row + x) row).rated = addRate x row.rated
  zero : ∀ r, addRate 0 r = r

theorem rateField_income : RateField RowField.incomePerSecond
    fun x r => { r with incomePerSecond := r.incomePerSecond + x } where
  set_get _ := rfl
  rated _ _ := rfl
  zero r := by rw [add_zero]

theorem rateField_expense : RateField RowField.expensePerSecond
    fun x r => { r with expensePerSecond := r.expensePerSecond + x } where
  set_get _ := rfl
  rated _ _ := rfl
  zero r := by rw [add_zero]

variable {deltaSeconds : ℚ}

/-- Recorded totals are added to the rates, resource by resource. -/
theorem RateField.applyRates {field : RowField ℚ} {addRate : ℚ → RatedResource → RatedResource}
    (h : RateField field addRate) (fieldName : String) (hdelta : 0 < deltaSeconds)
    {totals : OrderedMap (Fin n) ℚ} (htotals : ∀ i, 0 ≤ recordedTotal totals i)
    (s : ResourceState n) (i : Fin n) :
    (IdleEngine.applyRates (fun s => s.applyRate field fieldName) deltaSeconds totals s).rated i =
      addRate (recordedTotal totals i / deltaSeconds) (s.rated i) := by
  have hoff : ∀ (s : ResourceState n) (entry : Fin n × ℚ), entry.1 ≠ i →
      ResourceState.rated (if 0 < entry.2 / deltaSeconds then
        s.afterUnit (s.applyRate field fieldName entry.1 (.fin (entry.2 / deltaSeconds))) else s) i =
      s.rated i := by
    intro s entry hne
    split
    · next hpos => rw [s.applyRate_rated h.set_get _ _ hpos, update_of_ne hne.symm]
    · rfl
  rw [IdleEngine.applyRates, recordedTotal]
  cases htotal : totals.get? i with
  | none =>
    have hnone : ∀ entry ∈ totals.entries, entry.1 ≠ i := by
      rintro ⟨j, v⟩ hentry rfl
      rw [get?_eq_some_iff.mpr hentry] at htotal
      cases htotal
    rw [Option.getD_none, zero_div, h.zero]
    exact Overwrite.foldl_view_off (I := fun _ => True)
      (v := fun s : ResourceState n => s.rated i) (fun _ _ _ _ => trivial)
      (fun s _ entry hentry => hoff s entry (hnone entry hentry)) trivial
  | some v =>
    have hv : 0 ≤ v / deltaSeconds := by
      have hnonneg := htotals i
      rw [recordedTotal, htotal] at hnonneg
      exact div_nonneg hnonneg hdelta.le
    refine Overwrite.foldl_view_once (I := fun _ => True)
      (v := fun s : ResourceState n => s.rated i) (g := addRate (v / deltaSeconds))
      (filter_key_of_get? htotal) (fun _ _ _ _ => trivial)
      (fun s _ entry _ hkey => hoff s entry (of_decide_eq_false hkey)) (fun s _ => ?_) trivial
    dsimp only
    split
    · next hpos =>
      rw [s.applyRate_rated h.set_get _ _ hpos, update_self]
      exact h.rated _ _
    · next hzero =>
      rw [le_antisymm (not_lt.mp hzero) hv, h.zero]

theorem applyRates_ids (field : RowField ℚ) (hfield : field ∈ numberFields) (fieldName : String)
    (deltaSeconds : ℚ) (totals : OrderedMap (Fin n) ℚ) (s : ResourceState n) :
    (applyRates (fun s => s.applyRate field fieldName) deltaSeconds totals s).ids = s.ids := by
  refine List.foldlRecOn (motive := fun t : ResourceState n => t.ids = s.ids) totals.entries _ rfl
    fun t ht entry _ => ?_
  dsimp only
  split
  · exact ((t.applyRate_writes (A := fun _ _ _ => True) hfield _ _ _).ids).trans ht
  · exact ht

/-- The totals of a shadow as rates of a store. -/
def recordRates (deltaSeconds : ℚ) (shadow : ShadowState n) (s : ResourceState n) :
    ResourceState n :=
  applyRates ResourceState.applyExpense deltaSeconds shadow.expense
    (applyRates ResourceState.applyIncome deltaSeconds shadow.income s)

theorem recordRates_ids (deltaSeconds : ℚ) (shadow : ShadowState n) (s : ResourceState n) :
    (recordRates deltaSeconds shadow s).ids = s.ids :=
  (applyRates_ids RowField.expensePerSecond (by simp [numberFields]) _ _ _ _).trans
    (applyRates_ids RowField.incomePerSecond (by simp [numberFields]) _ _ _ _)

variable {shadow : ShadowState n}

theorem Shadows.recordRates_rated (h : Shadows s t shadow) (hdelta : 0 < deltaSeconds) (i : Fin n) :
    (recordRates deltaSeconds shadow s).rated i =
      { stored := s.stored i
        incomePerSecond :=
          (s.rated i).incomePerSecond + recordedTotal shadow.income i / deltaSeconds
        expensePerSecond :=
          (s.rated i).expensePerSecond + recordedTotal shadow.expense i / deltaSeconds } := by
  have hincome := rateField_income.applyRates "income" hdelta h.income_nonneg s i
  have hexpense := rateField_expense.applyRates "expense" hdelta h.expense_nonneg
    (applyRates applyIncome deltaSeconds shadow.income s) i
  refine hexpense.trans ?_
  have hincome' : (applyRates applyIncome deltaSeconds shadow.income s).rated i = _ :=
    hincome
  rw [hincome']
  rfl

variable {deltaMs : ℚ}

/-- **Settling a shadow.** Each resource then holds what the store that the shadow follows holds,
and what the rates from before are worth, as far as its bounds allow. -/
theorem Shadows.settled (h : Shadows s t shadow) (hdelta : 0 < deltaMs) (i : Fin n) :
    ((recordRates (deltaMs / 1000) shadow s).finalizeAll deltaMs).stored i =
      { t.stored i with
        amount := clampAmount
          ((t.stored i).amount + (s.rated i).net (deltaMs / 1000)) (t.stored i).capacity } := by
  have hseconds : 0 < deltaMs / 1000 := by linarith
  have hsettled := congrArg RatedResource.stored
    ((recordRates (deltaMs / 1000) shadow s).finalizeAll_rated deltaMs i)
  rw [h.recordRates_rated hseconds] at hsettled
  have hnet : (s.stored i).amount +
      (((s.rated i).incomePerSecond + recordedTotal shadow.income i / (deltaMs / 1000)) *
          (deltaMs / 1000) -
        ((s.rated i).expensePerSecond + recordedTotal shadow.expense i / (deltaMs / 1000)) *
          (deltaMs / 1000)) =
      shadow.getAmount i + (s.rated i).net (deltaMs / 1000) := by
    rw [h.totals i, RatedResource.net, add_mul, add_mul, div_mul_cancel₀ _ hseconds.ne',
      div_mul_cancel₀ _ hseconds.ne']
    ring
  rw [h.stored i]
  simp only
  rw [← hnet]
  exact hsettled

/-! ### One tick in both modes -/

/-- **A deferred tick.** The accumulators are those of direct production, and after settlement
each resource holds what direct production leaves it and what the rates from before the tick are
worth, as far as its bounds allow. -/
theorem runFinalizeTickRatesFlow_agrees (system : ProductionSystem) (tick : ProductionTick)
    (hdelta : 0 < tick.deltaMs) (accumulators : ProductionAccumulators options)
    (calls : List (AccumulatorKey × ℚ)) (hids : t.ids = s.ids) (hstored : t.stored = s.stored)
    (hbounded : Bounded s.stored) :
    let deferred := system.runFinalizeTickRatesFlow tick { accumulators, resources := s, calls }
    let direct := system.runStandardFlow tick { accumulators, resources := t, calls }
    deferred.accumulators = direct.accumulators ∧ deferred.calls = direct.calls ∧
      direct.resources.ids = deferred.resources.ids ∧ Bounded direct.resources.stored ∧
      ∀ i, (deferred.resources.finalizeAll tick.deltaMs).stored i =
        { direct.resources.stored i with
          amount := clampAmount
            ((direct.resources.stored i).amount + (s.rated i).net (tick.deltaMs / 1000))
            (direct.resources.stored i).capacity } := by
  intro deferred direct
  obtain ⟨haccumulators, hshadows, hcalls⟩ :=
    (shadows_simulates s).runGenerators system t.ids tick
      (a := { accumulators, resources := t, calls })
      (b := { accumulators, resources := ShadowState.create s, calls })
      ⟨rfl, shadows_create hids hstored hbounded, rfl⟩
  change direct.accumulators = _ at haccumulators
  change direct.calls = _ at hcalls
  change Shadows s direct.resources _ at hshadows
  rw [hids] at haccumulators hshadows hcalls
  refine ⟨haccumulators.symm, hcalls.symm, ?_, hshadows.bounded, fun i => ?_⟩
  · exact hshadows.ids.trans (recordRates_ids _ _ s).symm
  · exact hshadows.settled hdelta i

/-- The system with its amounts applied through `finalizeTick`, or at once. -/
def ProductionSystem.inMode (system : ProductionSystem) (applyViaFinalizeTick : Bool) :
    ProductionSystem :=
  { system with applyViaFinalizeTick }

theorem runTick_deferred (system : ProductionSystem) {tick : ProductionTick}
    (hdelta : 0 < tick.deltaMs) (state : PhaseState options (ResourceState n)) :
    (system.inMode true).runTick tick state = system.runFinalizeTickRatesFlow tick state := by
  have hseconds : ¬ tick.deltaMs / 1000 ≤ 0 := by
    rw [not_le]
    linarith
  rw [ProductionSystem.runTick]
  exact (if_pos rfl).trans (if_neg hseconds)

theorem runTick_direct (system : ProductionSystem) (tick : ProductionTick)
    (state : PhaseState options (ResourceState n)) :
    (system.inMode false).runTick tick state = system.runStandardFlow tick state := by
  rw [ProductionSystem.runTick]
  rfl

theorem finalizeTick_eq (s : ResourceState n) (h : 0 < deltaMs) :
    s.finalizeTick (.fin deltaMs) = .ok (s.finalizeAll deltaMs) :=
  if_neg (not_lt.mpr h.le)

/-- **Deferred and direct production agree.** From amounts within capacity and no rates, a tick
through `finalizeTick` leaves the same amounts and the same accumulators as a direct one. -/
theorem deferred_agrees_with_direct (system : ProductionSystem) {s : ResourceState n}
    (hbounded : Bounded s.stored)
    (hrates : ∀ i, (s.live i).incomePerSecond = 0 ∧ (s.live i).expensePerSecond = 0)
    {tick : ProductionTick} (hdelta : 0 < tick.deltaMs)
    (accumulators : ProductionAccumulators options) (calls : List (AccumulatorKey × ℚ)) :
    let start : PhaseState options (ResourceState n) := { accumulators, resources := s, calls }
    let deferred := (system.inMode true).runTick tick start
    let direct := (system.inMode false).runTick tick start
    deferred.accumulators = direct.accumulators ∧
      ∃ s', deferred.resources.finalizeTick (.fin tick.deltaMs) = .ok s' ∧
        ∀ i, (s'.live i).amount = (direct.resources.live i).amount := by
  intro start deferred direct
  obtain ⟨haccumulators, -, -, hbounded', hsettled⟩ :=
    runFinalizeTickRatesFlow_agrees system tick hdelta accumulators calls rfl rfl hbounded
  have hdeferred : deferred = system.runFinalizeTickRatesFlow tick start :=
    runTick_deferred system hdelta start
  have hdirect : direct = system.runStandardFlow tick start := runTick_direct system tick start
  rw [hdeferred, hdirect]
  refine ⟨haccumulators, _, finalizeTick_eq _ hdelta, fun i => ?_⟩
  have hnet : (s.rated i).net (tick.deltaMs / 1000) = 0 := by
    change (s.live i).incomePerSecond * _ - (s.live i).expensePerSecond * _ = 0
    rw [(hrates i).1, (hrates i).2]
    ring
  have hamount := congrArg StoredResource.amount (hsettled i)
  rw [hnet, add_zero] at hamount
  exact hamount.trans (ResourceState.clampAmount_of_bounded (hbounded' i))

/-- Ten smiths over 150 seconds, with ore for a hundred. -/
theorem deferred_agrees_with_direct_smithy :
    ∃ stores, smithyStores = .ok stores ∧
      let tick := { smithyTick 1 with deltaMs := 150000 }
      let start := PhaseState.start (smithyOptions 1000) stores.1
      ∃ s', ((smithySystem.inMode true).runTick tick start).resources.finalizeTick (.fin 150000) =
          .ok s' ∧
        ∀ i, (s'.live i).amount =
          (((smithySystem.inMode false).runTick tick start).resources.live i).amount := by
  obtain ⟨stores, hstores, hrates⟩ := Outcome.exists_ok (x := smithyStores)
    (p := fun stores => decide (∀ i, (stores.1.live i).incomePerSecond = 0 ∧
      (stores.1.live i).expensePerSecond = 0)) (by decide +kernel)
  obtain ⟨s, hs, hrest⟩ := Outcome.bind_ok hstores
  obtain ⟨_, -, hpair⟩ := Outcome.bind_ok hrest
  obtain rfl := Except.ok.inj hpair
  have hdelta : 0 < { smithyTick 1 with deltaMs := 150000 }.deltaMs := by norm_num
  exact ⟨_, hstores, (deferred_agrees_with_direct smithySystem (bounded_createResourceState hs)
    (of_decide_eq_true hrates) hdelta (.empty : ProductionAccumulators (smithyOptions 1000))
    []).2⟩

end IdleEngine
