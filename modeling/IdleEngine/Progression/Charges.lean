import Mathlib.Algebra.BigOperators.Group.List.Basic
import Mathlib.Tactic.Linarith
import Mathlib.Tactic.Ring
import IdleEngine.Lib.Payment
import IdleEngine.Progression.Purchases
import IdleEngine.Resource.Stored

/-!
# Charges

What a list of costs asks of each resource. A purchase pays its costs one by one, and it succeeds
exactly when their charge can be paid at once (`spendGeneratorPurchaseCosts_pays`,
`payable_of_spendGeneratorPurchaseCosts`); so neither the order of the costs matters nor that one
resource appears in several of them. Adding costs up per resource keeps the charge
(`foldlM_addCost_adds`).
-/

namespace IdleEngine

open Payment OrderedMap List ResourceState

variable {n : ℕ}

/-! ### Charges -/

namespace ResourceState

/-- The amounts of a store. -/
def amounts (s : ResourceState n) (i : Fin n) : ℚ := (s.live i).amount

end ResourceState

/-- What a cost asks of each resource. -/
def chargeOf (ids : Fin n → String) (cost : GeneratorResourceCost) (i : Fin n) : ℚ :=
  if indexOfId ids cost.resourceId = some i then cost.amount else 0

/-- What a list of costs asks of each resource. -/
def charge (ids : Fin n → String) (costs : List GeneratorResourceCost) : Fin n → ℚ :=
  (costs.map (chargeOf ids)).sum

/-- What was spent of each resource. -/
def spentOn (spends : List (ResourceSpend n)) : Fin n → ℚ :=
  (spends.map fun spend => Pi.single spend.index spend.amount).sum

/-- Every cost names a resource. -/
def Known (ids : Fin n → String) (costs : List GeneratorResourceCost) : Prop :=
  ∀ cost ∈ costs, (indexOfId ids cost.resourceId).isSome

/-- No cost is negative. -/
def NonnegCosts (costs : List GeneratorResourceCost) : Prop := ∀ cost ∈ costs, 0 ≤ cost.amount

/-- The costs can be paid from the store. -/
def Payable (s : ResourceState n) (costs : List GeneratorResourceCost) : Prop :=
  Known s.ids costs ∧ Affordable s.amounts (charge s.ids costs)

theorem nonnegCosts_nil : NonnegCosts [] := fun _ h => absurd h not_mem_nil

variable (ids : Fin n → String)

theorem charge_cons (cost : GeneratorResourceCost) (costs : List GeneratorResourceCost) :
    charge ids (cost :: costs) = chargeOf ids cost + charge ids costs := by
  simp [charge]

theorem charge_append (costs costs' : List GeneratorResourceCost) :
    charge ids (costs ++ costs') = charge ids costs + charge ids costs' := by
  simp [charge]

theorem spentOn_append (spends spends' : List (ResourceSpend n)) :
    spentOn (spends ++ spends') = spentOn spends + spentOn spends' := by
  simp [spentOn]

variable {cost : GeneratorResourceCost}

theorem chargeOf_nonneg (h : 0 ≤ cost.amount) (i : Fin n) :
    0 ≤ chargeOf ids cost i := by
  rw [chargeOf]
  split
  · exact h
  · exact le_refl 0

variable {costs : List GeneratorResourceCost}

theorem charge_nonneg (h : NonnegCosts costs) (i : Fin n) :
    0 ≤ charge ids costs i := by
  induction costs with
  | nil => exact le_refl 0
  | cons cost costs ih =>
    rw [charge_cons]
    exact add_nonneg (chargeOf_nonneg ids (h cost mem_cons_self) i)
      (ih fun c hc => h c (mem_cons_of_mem cost hc))

theorem chargeOf_eq {ids : Fin n → String} {i : Fin n}
    (h : indexOfId ids cost.resourceId = some i) :
    chargeOf ids cost = Pi.single i cost.amount := by
  funext j
  rw [chargeOf, h]
  by_cases hj : j = i
  · subst hj
    simp
  · rw [Pi.single_eq_of_ne hj, if_neg]
    rintro hsame
    exact hj (Option.some.inj hsame).symm

/-! ### Paying -/

/-- The store after a charge: the amounts are less by it, and nothing else of a record changes. -/
structure Charged (price : Fin n → ℚ) (s s' : ResourceState n) : Prop where
  ids : s'.ids = s.ids
  stored : ∀ i, s'.stored i = { s.stored i with amount := (s.stored i).amount - price i }

namespace Charged

variable {s s' s'' : ResourceState n} {price price' : Fin n → ℚ}

theorem refl (s : ResourceState n) : Charged 0 s s :=
  ⟨rfl, fun i => by rw [Pi.zero_apply, sub_zero]⟩

theorem trans (h : Charged price s s') (h' : Charged price' s' s'') :
    Charged (price + price') s s'' where
  ids := h'.ids.trans h.ids
  stored i := by
    rw [h'.stored, h.stored, Pi.add_apply, sub_add_eq_sub_sub]

theorem amounts (h : Charged price s s') : s'.amounts = s.amounts - price :=
  funext fun i => congrArg StoredResource.amount (h.stored i)

end Charged

namespace ResourceState

theorem spendAmount_enough {s : ResourceState n} {i : Fin n} {amount : ℚ} (hpos : 0 < amount)
    (h : amount ≤ s.amounts i) :
    ∃ s', s.spendAmount i (.fin amount) = .ok (true, s') ∧
      Charged (Pi.single i amount) s s' := by
  have henough : ¬(s.live i).amount < amount := not_lt.mpr h
  have hrun : s.spendAmount i (.fin amount) = .ok (true,
      (s.writeField RowField.amount i ((s.live i).amount - amount)).accumulateTickDelta i
        (-amount)) := by
    rw [spendAmount]
    simp only [JsNumber.finite?]
    rw [if_neg hpos.not_gt, if_neg hpos.ne', if_neg henough]
  refine ⟨_, hrun, ?_, fun j => ?_⟩
  · have hids := (s.spendAmount_writes (A := fun _ _ _ => True) i (.fin amount)).ids
    rwa [hrun] at hids
  · obtain ⟨x, hx, -, ⟨hfalse, -, -⟩ | ⟨-, -, hstored⟩⟩ := spendAmount_ok hrun
    · cases hfalse
    · cases hx
      rw [hstored]
      by_cases hj : j = i
      · subst hj
        rw [Function.update_self, Pi.single_eq_same]
      · rw [Function.update_of_ne hj, Pi.single_eq_of_ne hj, sub_zero]

theorem spendAmount_short {s : ResourceState n} {i : Fin n} {amount : ℚ} (hpos : 0 < amount)
    (h : s.amounts i < amount) : s.spendAmount i (.fin amount) = .ok (false, s) := by
  have hshort : (s.live i).amount < amount := h
  rw [spendAmount]
  simp only [JsNumber.finite?]
  rw [if_neg hpos.not_gt, if_neg hpos.ne', if_pos hshort]

end ResourceState

variable {s s' : ResourceState n}

/-- The costs after the first are payable once the first is paid, and the other way round. -/
theorem payable_cons {i : Fin n} (hcost : 0 ≤ cost.amount) (hcosts : NonnegCosts costs)
    (hi : indexOfId s.ids cost.resourceId = some i)
    (hcharged : Charged (chargeOf s.ids cost) s s') :
    Payable s (cost :: costs) ↔ (0 < cost.amount → cost.amount ≤ s.amounts i) ∧ Payable s' costs := by
  have hone : Affordable s.amounts (chargeOf s.ids cost) ↔
      (0 < cost.amount → cost.amount ≤ s.amounts i) := by
    rw [chargeOf_eq hi]
    constructor
    · intro h hpos
      have hsingle := h i
      rw [Pi.single_eq_same] at hsingle
      exact hsingle hpos
    · intro h j
      by_cases hj : j = i
      · subst hj
        rwa [Pi.single_eq_same]
      · rw [Pi.single_eq_of_ne hj]
        exact fun hpos => absurd hpos (lt_irrefl 0)
  have hknown : Known s.ids (cost :: costs) ↔ Known s.ids costs := by
    rw [Known, forall_mem_cons, hi]
    exact and_iff_right rfl
  rw [Payable, charge_cons, affordable_add (chargeOf_nonneg _ hcost) (charge_nonneg _ hcosts),
    hone, hknown, Payable, hcharged.ids, hcharged.amounts]
  exact and_left_comm

variable (payload : PurchaseGeneratorPayload)

/-- **Costs that can be paid are paid.** -/
theorem spendGeneratorPurchaseCosts_pays (hcosts : NonnegCosts costs) (hpayable : Payable s costs)
    (spends : List (ResourceSpend n)) :
    ∃ spends' s', spendGeneratorPurchaseCostsOrFail payload costs spends s =
        (.success spends', s') ∧
      Charged (charge s.ids costs) s s' ∧
      spentOn spends' = spentOn spends + charge s.ids costs := by
  induction costs generalizing s spends with
  | nil => exact ⟨spends, s, rfl, Charged.refl s, (add_zero _).symm⟩
  | cons cost costs ih =>
    have hcost := hcosts cost mem_cons_self
    have hrest : NonnegCosts costs := fun c hc => hcosts c (mem_cons_of_mem cost hc)
    obtain ⟨i, hi⟩ := Option.isSome_iff_exists.mp (hpayable.1 cost mem_cons_self)
    rw [spendGeneratorPurchaseCostsOrFail, if_neg (not_lt.mpr hcost), requireIndex, hi]
    rcases hcost.eq_or_lt with hzero | hpos
    · -- a cost of nothing is passed over
      have hcharge : chargeOf s.ids cost = 0 := by rw [chargeOf_eq hi, ← hzero, Pi.single_zero]
      have hcharged : Charged (chargeOf s.ids cost) s s := by
        rw [hcharge]
        exact Charged.refl s
      have hnext := ((payable_cons hcost hrest hi hcharged).mp hpayable).2
      rw [charge_cons, hcharge, zero_add]
      dsimp only
      rw [if_pos hzero.symm]
      exact ih hrest hnext spends
    · have henough : cost.amount ≤ s.amounts i := by
        have hfirst := hpayable.2 i
        rw [charge_cons, Pi.add_apply, chargeOf_eq hi, Pi.single_eq_same] at hfirst
        have hothers := charge_nonneg s.ids hrest i
        have hle := hfirst (by linarith)
        linarith
      obtain ⟨s₁, hrun, hcharged⟩ := spendAmount_enough hpos henough
      rw [← chargeOf_eq hi] at hcharged
      have hnext := ((payable_cons hcost hrest hi hcharged).mp hpayable).2
      obtain ⟨spends', s', hloop, hpaid, hspent⟩ :=
        ih hrest hnext (spends ++ [{ index := i, amount := cost.amount }])
      refine ⟨spends', s', ?_, ?_, ?_⟩
      · dsimp only
        rw [if_neg hpos.ne', hrun]
        exact hloop
      · rw [charge_cons]
        rw [hcharged.ids] at hpaid
        exact hcharged.trans hpaid
      · have hlast : spentOn [({ index := i, amount := cost.amount } : ResourceSpend n)] =
            chargeOf s.ids cost := by
          rw [chargeOf_eq hi]
          simp [spentOn]
        rw [hspent, spentOn_append, hlast, hcharged.ids, charge_cons, add_assoc]

/-- **Costs that are paid could be paid.** -/
theorem payable_of_spendGeneratorPurchaseCosts (hcosts : NonnegCosts costs)
    {spends spends' : List (ResourceSpend n)}
    (h : (spendGeneratorPurchaseCostsOrFail payload costs spends s).1 = .success spends') :
    Payable s costs := by
  induction costs generalizing s spends with
  | nil => exact ⟨fun _ hc => absurd hc not_mem_nil, affordable_zero _⟩
  | cons cost costs ih =>
    have hcost := hcosts cost mem_cons_self
    have hrest : NonnegCosts costs := fun c hc => hcosts c (mem_cons_of_mem cost hc)
    rw [spendGeneratorPurchaseCostsOrFail, if_neg (not_lt.mpr hcost),
      requireIndex] at h
    cases hi : indexOfId s.ids cost.resourceId with
    | none =>
      rw [hi] at h
      cases h
    | some i =>
      rw [hi] at h
      dsimp only at h
      rcases hcost.eq_or_lt with hzero | hpos
      · rw [if_pos hzero.symm] at h
        have hcharged : Charged (chargeOf s.ids cost) s s := by
          rw [chargeOf_eq hi, ← hzero, Pi.single_zero]
          exact Charged.refl s
        refine (payable_cons hcost hrest hi hcharged).mpr ⟨fun hpos => ?_, ih hrest h⟩
        exact absurd hpos (by rw [← hzero]; exact lt_irrefl 0)
      · rw [if_neg hpos.ne'] at h
        rcases lt_or_ge (s.amounts i) cost.amount with hshort | henough
        · rw [spendAmount_short hpos hshort] at h
          cases h
        · obtain ⟨s₁, hrun, hcharged⟩ := spendAmount_enough hpos henough
          rw [← chargeOf_eq hi] at hcharged
          rw [hrun] at h
          exact (payable_cons hcost hrest hi hcharged).mpr ⟨fun _ => henough, ih hrest h⟩

variable {costs' : List GeneratorResourceCost}

theorem payable_append (hcosts : NonnegCosts costs) (hcosts' : NonnegCosts costs')
    (hids : s'.ids = s.ids) (hamounts : s'.amounts = s.amounts - charge s.ids costs) :
    Payable s (costs ++ costs') ↔ Payable s costs ∧ Payable s' costs' := by
  rw [Payable, charge_append, affordable_add (charge_nonneg _ hcosts) (charge_nonneg _ hcosts'),
    Known, forall_mem_append, Payable, Payable, hids, hamounts]
  exact and_and_and_comm

theorem Payable.of_append (hcosts : NonnegCosts costs) (hcosts' : NonnegCosts costs')
    (h : Payable s (costs ++ costs')) : Payable s costs := by
  have haffordable := h.2
  rw [charge_append, affordable_add (charge_nonneg _ hcosts) (charge_nonneg _ hcosts')]
    at haffordable
  exact ⟨fun cost hcost => h.1 cost (mem_append_left _ hcost), haffordable.1⟩

theorem payable_congr (hids : s'.ids = s.ids) (hamounts : s'.amounts = s.amounts)
    (costs : List GeneratorResourceCost) :
    Payable s' costs ↔ Payable s costs := by
  rw [Payable, Payable, hids, hamounts]

/-! ### Adding up -/

/-- The costs that a table of totals lists. -/
def listedCosts (entries : List (String × ℚ)) : List GeneratorResourceCost :=
  entries.map fun entry => { resourceId := entry.1, amount := entry.2 }

theorem chargeOf_add (resourceId : String) (x y : ℚ) :
    chargeOf ids { resourceId, amount := x + y } =
      chargeOf ids { resourceId, amount := x } + chargeOf ids { resourceId, amount := y } := by
  funext i
  rw [Pi.add_apply, chargeOf, chargeOf, chargeOf]
  dsimp only
  split
  · rfl
  · exact (add_zero 0).symm

/-- An amount added to the total of a resource is added to the charge. -/
theorem charge_setEntries (resourceId : String) (amount : ℚ) (entries : List (String × ℚ)) :
    charge ids (listedCosts (OrderedMap.setEntries resourceId
        ((OrderedMap.find resourceId entries).getD 0 + amount) entries)) =
      charge ids (listedCosts entries) + chargeOf ids { resourceId, amount } := by
  induction entries with
  | nil => simp [OrderedMap.setEntries, OrderedMap.find, listedCosts, charge]
  | cons entry entries ih =>
    obtain ⟨id, total⟩ := entry
    rw [OrderedMap.setEntries, OrderedMap.find]
    by_cases hid : id = resourceId
    · subst hid
      rw [if_pos rfl, if_pos rfl, Option.getD_some]
      change charge ids ({ resourceId := id, amount := total + amount } :: listedCosts entries) =
        charge ids ({ resourceId := id, amount := total } :: listedCosts entries) + _
      rw [charge_cons, charge_cons, chargeOf_add]
      abel
    · rw [if_neg hid, if_neg hid]
      change charge ids ({ resourceId := id, amount := total } :: listedCosts _) =
        charge ids ({ resourceId := id, amount := total } :: listedCosts entries) + _
      rw [charge_cons, charge_cons, ih, add_assoc]

/-- What adding costs to totals comes to. -/
structure Adds (totals : OrderedMap String ℚ) (costs : List GeneratorResourceCost)
    (totals' : OrderedMap String ℚ) : Prop where
  nonneg : NonnegCosts (listedCosts totals'.entries)
  charge {n : ℕ} (ids : Fin n → String) : charge ids (listedCosts totals'.entries) =
    charge ids (listedCosts totals.entries) + charge ids costs
  known {n : ℕ} (ids : Fin n → String) : Known ids (listedCosts totals'.entries) ↔
    Known ids (listedCosts totals.entries) ∧ Known ids costs
  listed : totals.entries ≠ [] ∨ costs ≠ [] → totals'.entries ≠ []

variable {totals : OrderedMap String ℚ}

theorem Adds.trans {totals' totals'' : OrderedMap String ℚ} (h : Adds totals costs totals')
    (h' : Adds totals' costs' totals'') : Adds totals (costs ++ costs') totals'' where
  nonneg := h'.nonneg
  charge ids := by rw [h'.charge, h.charge, charge_append, add_assoc]
  known ids := by
    rw [h'.known, h.known, and_assoc]
    exact and_congr_right fun _ => forall_mem_append.symm
  listed hne := by
    refine h'.listed ?_
    by_cases hcosts' : costs' = []
    · rw [hcosts', append_nil] at hne
      exact .inl (h.listed hne)
    · exact .inr hcosts'

theorem Adds.charge_eq (h : Adds OrderedMap.empty costs totals) (ids : Fin n → String) :
    IdleEngine.charge ids (listedCosts totals.entries) = IdleEngine.charge ids costs :=
  (h.charge ids).trans (zero_add _)

theorem Adds.payable_iff (h : Adds OrderedMap.empty costs totals) (s : ResourceState n) :
    Payable s (listedCosts totals.entries) ↔ Payable s costs := by
  rw [Payable, Payable, h.charge_eq, h.known]
  exact and_congr_left' (and_iff_right fun _ hc => absurd hc not_mem_nil)

theorem addCost_adds (htotals : NonnegCosts (listedCosts totals.entries))
    (hcost : 0 ≤ cost.amount) :
    ∃ totals', addCost totals cost = some totals' ∧ Adds totals [cost] totals' := by
  have hvalues : ∀ entry ∈ totals.entries, 0 ≤ entry.2 := fun entry hentry =>
    htotals _ (mem_map.mpr ⟨entry, hentry, rfl⟩)
  have hprevious : 0 ≤ (totals.get? cost.resourceId).getD 0 := by
    cases hget : totals.get? cost.resourceId with
    | none => exact le_refl 0
    | some total => exact hvalues _ (get?_eq_some_iff.mp hget)
  have hupdated : 0 ≤ (totals.get? cost.resourceId).getD 0 + cost.amount :=
    add_nonneg hprevious hcost
  refine ⟨_, by rw [addCost, if_neg (not_lt.mpr hupdated)], ?_⟩
  refine ⟨?_, fun ids => ?_, fun ids => ?_, fun _ hempty => ?_⟩
  · intro cost' hcost'
    obtain ⟨entry, hentry, rfl⟩ := mem_map.mp hcost'
    exact forall_setEntries (P := fun total => 0 ≤ total) hupdated hvalues entry hentry
  · have hset := charge_setEntries ids cost.resourceId cost.amount totals.entries
    rw [OrderedMap.set, OrderedMap.get?, hset, charge_cons]
    exact congrArg _ (add_zero _).symm
  · have hkeys : ∀ entries : List (String × ℚ), Known ids (listedCosts entries) ↔
        ∀ id ∈ entries.map Prod.fst, (indexOfId ids id).isSome := by
      intro entries
      rw [Known, listedCosts, forall_mem_map, forall_mem_map]
    rw [hkeys, hkeys, OrderedMap.set, keys_setEntries, Known, forall_mem_singleton]
    split
    · next hmem => exact ⟨fun h => ⟨h, h _ hmem⟩, And.left⟩
    · rw [forall_mem_append, forall_mem_singleton]
  · have hmem : cost.resourceId ∈ (totals.set cost.resourceId
        ((totals.get? cost.resourceId).getD 0 + cost.amount)).entries.map Prod.fst := by
      rw [mem_keys_iff, get?_set, if_pos rfl]
      rfl
    rw [hempty] at hmem
    exact absurd hmem not_mem_nil

theorem foldlM_addCost_adds (hcosts : NonnegCosts costs)
    (htotals : NonnegCosts (listedCosts totals.entries)) :
    ∃ totals', costs.foldlM addCost totals = some totals' ∧ Adds totals costs totals' := by
  induction costs generalizing totals with
  | nil =>
    refine ⟨totals, rfl, htotals, fun ids => (add_zero _).symm, fun ids => ?_, fun h => ?_⟩
    · exact ⟨fun h => ⟨h, fun _ hc => absurd hc not_mem_nil⟩, And.left⟩
    · exact h.elim id fun hne => absurd rfl hne
  | cons cost costs ih =>
    obtain ⟨totals₁, hadd, hone⟩ := addCost_adds htotals (hcosts cost mem_cons_self)
    obtain ⟨totals', hrest, hadds⟩ :=
      ih (fun c hc => hcosts c (mem_cons_of_mem cost hc)) hone.nonneg
    refine ⟨totals', ?_, hone.trans hadds⟩
    rw [foldlM_cons, hadd]
    exact hrest

end IdleEngine
