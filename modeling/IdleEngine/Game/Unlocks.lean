import IdleEngine.Game.Rewards

/-!
# What a prestige leaves unlocked

A prestige locks what it resets, then removes upgrades one after the other. Each removal applies
the effects of the upgrades that are left at that moment, those that are removed next included:
what one of these unlocks is unlocked again, and nothing locks it afterwards (`LateUnlocked`).

`prestige_wipes` says that this is the only way in which an unlock of a removed upgrade survives.
Resources and generators are treated alike, as `Unlockable`.
-/

namespace IdleEngine

open Relation Stateful Coordinator ResourceState Outcome Function

variable {sh : ContentShape}

/-! ### What can be unlocked -/

/-- A resource or a generator. -/
inductive Unlockable (sh : ContentShape)
  | resource (i : Fin sh.resources)
  | generator (i : Fin sh.generators)

namespace Unlockable

/-- The effect that unlocks it. -/
def effect : Unlockable sh → UpgradeEffect sh
  | resource i => .unlockResource i
  | generator i => .unlockGenerator i

variable (options : ProgressionOptions sh)

/-- The condition that unlocks it. -/
def condition : Unlockable sh → Option Condition
  | resource i => (options.content.resources i).unlockCondition
  | generator i => some (options.content.generators i).baseUnlock

/-- A resource says whether it starts unlocked; a generator does when it starts with a level. -/
def unlockedByDefault : Unlockable sh → Bool
  | resource i => (options.content.resources i).unlocked.getD false
  | generator i => decide (0 < (options.content.generators i).initialLevel)

/-- The layer resets it and does not retain it. -/
def IsReset (layer : Fin sh.prestigeLayers) : Unlockable sh → Prop
  | resource i => i ∈ resetResources options layer
  | generator i => i ∈ (options.content.prestigeLayers layer).resetGenerators ∧
      i ∉ retainedGenerators options layer

/-- An achievement grants it, which also unlocks it. -/
def GrantedByAchievement : Unlockable sh → Prop
  | resource i => ∃ a formula,
      (options.content.achievements a).reward = some (.grantResource i formula)
  | generator _ => False

end Unlockable

namespace Coordinator

/-- Whether something is unlocked. -/
def unlockedAt (c : Coordinator sh) : Unlockable sh → Bool
  | .resource i => (c.resources.live i).flags.unlocked
  | .generator i => (c.generators i).isUnlocked

/-- A purchased upgrade unlocks it. -/
def UnlockedByUpgrade (options : ProgressionOptions sh) (c : Coordinator sh)
    (x : Unlockable sh) : Prop :=
  x.effect ∈ purchasedEffects options c.inputs.purchases

end Coordinator

variable {options : ProgressionOptions sh}

theorem mem_purchasedEffects {purchases : Fin sh.upgrades → ℕ} {effect : UpgradeEffect sh} :
    effect ∈ purchasedEffects options purchases ↔
      ∃ w, purchases w ≠ 0 ∧ effect ∈ (options.content.upgrades w).effects := by
  rw [purchasedEffects, List.mem_flatMap]
  exact exists_congr fun w => and_congr_left fun _ => mem_purchasedUpgrades

/-! ### Effects and purchases -/

variable {c : Coordinator sh}

theorem unlockedAt_getUpgradeEffects (hc : Fresh options c) (step : ℕ) (x : Unlockable sh) :
    (c.getUpgradeEffects options step).2.unlockedAt x = true ↔
      c.unlockedAt x = true ∨ c.UnlockedByUpgrade options x := by
  obtain ⟨inputs, hpurchases, heffects⟩ := hc.effects step
  cases x with
  | generator i =>
    have hmem : i ∈ (c.cachedUpgradeEffects options step).unlockedGenerators ↔
        c.UnlockedByUpgrade options (.generator i) := by
      rw [heffects, mem_unlockedGenerators, hpurchases]
      exact Iff.rfl
    rw [unlockedAt, (c.getUpgradeEffects_applied step).isUnlocked, Bool.or_eq_true,
      decide_eq_true_eq, hmem]
    exact Iff.rfl
  | resource i =>
    have hmem : i ∈ (c.cachedUpgradeEffects options step).unlockedResources ↔
        c.UnlockedByUpgrade options (.resource i) := by
      rw [heffects, mem_unlockedResources, hpurchases]
      exact Iff.rfl
    have hcapacity : ∀ (r : StoredResource) capacity,
        (r.withSomeCapacity capacity).unlocked = r.unlocked := by
      intro r capacity
      cases capacity <;> rfl
    change (((c.applyUpgradeEffects options step _).resources.stored i).unlocked = true) ↔
      (c.resources.stored i).unlocked = true ∨ _
    rw [applyUpgradeEffects_stored, hcapacity, ← hmem]
    by_cases hi : i ∈ (c.cachedUpgradeEffects options step).unlockedResources
    · simp [hi, StoredResource.unlockAndShow]
    · simp [hi]

/-- Writing a number of purchases applies the effects of what is purchased then. -/
theorem unlockedAt_writePurchases (hc : Fresh options c) {u : Fin sh.upgrades} {purchases : ℕ}
    (hcap : capPurchases options u purchases = purchases) (x : Unlockable sh) :
    (c.writePurchases options u purchases).unlockedAt x = true ↔
      c.unlockedAt x = true ∨
        x.effect ∈ purchasedEffects options (update c.inputs.purchases u purchases) := by
  rw [writePurchases_eq, unlockedAt_getUpgradeEffects (hc.purchased hcap), UnlockedByUpgrade,
    purchases_purchased]
  cases x <;> exact Iff.rfl

theorem inputs_writePurchases (c : Coordinator sh) (u : Fin sh.upgrades) (purchases : ℕ) :
    (c.writePurchases options u purchases).inputs.purchases =
      update c.inputs.purchases u purchases := by
  rw [← purchases_purchased, writePurchases_eq]
  funext w
  change (((c.purchased u purchases).getUpgradeEffects options c.lastUpdatedStep).2.upgrades
    w).purchases = _
  rw [(getUpgradeEffects_applied _ _).upgrades]
  rfl

/-! ### Removing upgrades -/

/-- The upgrades that a layer removes, in turn. -/
def removedUpgrades (options : ProgressionOptions sh) (i : Fin sh.prestigeLayers) :
    List (Fin sh.upgrades) :=
  (options.content.prestigeLayers i).resetUpgrades.filter fun upgrade =>
    !(retainedUpgrades options i).contains upgrade

/-- What upgrades are left with after removals, and what is unlocked then. -/
structure Removed (options : ProgressionOptions sh) (l : List (Fin sh.upgrades))
    (c c' : Coordinator sh) : Prop where
  fresh : Fresh options c'
  purchases : c'.inputs.purchases = fun w => if w ∈ l then 0 else c.inputs.purchases w
  unlocked : ∀ x, c'.unlockedAt x = true ↔
    c.unlockedAt x = true ∨ ∃ first ∈ l.head?, ∃ w, w ≠ first ∧ c.inputs.purchases w ≠ 0 ∧
      x.effect ∈ (options.content.upgrades w).effects

/-- **Removals.** After the first removal all other purchased upgrades have had their effects
applied once more; the later removals find less to apply. -/
theorem removed_foldl (l : List (Fin sh.upgrades)) (hc : Fresh options c) :
    Removed options l c (l.foldl (fun c u => c.setUpgradePurchases options u 0) c) := by
  have hzero : ∀ u, capPurchases options u 0 = 0 := by
    intro u
    rw [capPurchases]
    split
    · exact Nat.zero_min _
    · rfl
  induction l generalizing c with
  | nil => exact ⟨hc, by simp, by simp⟩
  | cons u l ih =>
    have hcap : capPurchases options u 0 = 0 := hzero u
    have hset : c.setUpgradePurchases options u 0 = c.writePurchases options u 0 := by
      rw [setUpgradePurchases, hcap]
    rw [List.foldl_cons, hset]
    obtain ⟨hfresh, hpurchases, hunlocked⟩ := ih (hc.writePurchases hcap)
    rw [inputs_writePurchases] at hpurchases hunlocked
    refine ⟨hfresh, ?_, fun x => ?_⟩
    · rw [hpurchases]
      funext w
      by_cases hw : w = u
      · subst hw
        simp
      · simp [hw]
    · rw [hunlocked, unlockedAt_writePurchases hc hcap, mem_purchasedEffects]
      constructor
      · rintro ((hx | ⟨w, hw, heffect⟩) | ⟨first, -, w, -, hw, heffect⟩)
        · exact .inl hx
        · have hwu : w ≠ u := by
            rintro rfl
            simp at hw
          rw [update_of_ne hwu] at hw
          exact .inr ⟨u, by simp, w, hwu, hw, heffect⟩
        · have hwu : w ≠ u := by
            rintro rfl
            simp at hw
          rw [update_of_ne hwu] at hw
          exact .inr ⟨u, by simp, w, hwu, hw, heffect⟩
      · rintro (hx | ⟨first, hfirst, w, hwu, hw, heffect⟩)
        · exact .inl (.inl hx)
        · obtain rfl : u = first := by simpa using hfirst
          exact .inl (.inr ⟨w, by rwa [update_of_ne hwu], heffect⟩)

/-! ### Resets -/

/-- Something that a layer resets is unlocked by an upgrade that is purchased and that the same
prestige removes, but not first. -/
def LateUnlocked (options : ProgressionOptions sh) (purchases : Fin sh.upgrades → ℕ)
    (i : Fin sh.prestigeLayers) (x : Unlockable sh) : Prop :=
  ∃ first rest, removedUpgrades options i = first :: rest ∧ ∃ w ∈ rest, w ≠ first ∧
    purchases w ≠ 0 ∧ x.effect ∈ (options.content.upgrades w).effects

variable {i : Fin sh.prestigeLayers} {context : PrestigeResetContext sh.resources}

/-- The writes of a prestige lock the resources that it resets. -/
theorem applyPrestigeReset_unlocked
    (hflags : context.resetResourceFlags = computeResetFlags options i)
    (s : ResourceState sh.resources) {r : Fin sh.resources} (hr : r ∈ resetResources options i) :
    ((applyPrestigeReset context s).stored r).unlocked =
      (options.content.resources r).unlocked.getD false := by
  -- the last flag target of the resource decides, and all say the same
  have hloop : ∀ (l : List (Fin sh.resources)) (s : ResourceState sh.resources),
      (r ∈ l ∨ (s.stored r).unlocked = (options.content.resources r).unlocked.getD false) →
        ((s.applyPrestigeFlagTargets (l.map fun resource =>
          { resource
            unlocked := (options.content.resources resource).definition.unlocked.getD true
            visible := (options.content.resources resource).definition.visible.getD true }
          )).stored r).unlocked = (options.content.resources r).unlocked.getD false := by
    intro l
    induction l with
    | nil => exact fun s h => h.resolve_left List.not_mem_nil
    | cons j l ih =>
      intro s h
      refine ih _ ?_
      by_cases hj : r = j
      · subst hj
        refine .inr ?_
        rw [setVisibleFlag_stored, update_self,
          setUnlockedFlag_stored, update_self]
        rfl
      · refine h.imp (fun hmem => (List.mem_cons.mp hmem).resolve_left hj) fun hsame => ?_
        rw [setVisibleFlag_stored, update_of_ne hj,
          setUnlockedFlag_stored, update_of_ne hj]
        exact hsame
  rw [applyPrestigeReset, hflags]
  exact hloop _ _ (.inl hr)

/-- Resetting a generator locks it unless it starts with a level. -/
theorem applyGeneratorResets_isUnlocked (c : Coordinator sh) {g : Fin sh.generators}
    (hg : g ∈ (options.content.prestigeLayers i).resetGenerators)
    (hretained : g ∉ retainedGenerators options i) :
    ((c.applyGeneratorResets options i).generators g).isUnlocked =
      decide (0 < (options.content.generators g).initialLevel) := by
  have hloop : ∀ (step : ℕ) (l : List (Fin sh.generators)) (c : Coordinator sh),
      (g ∈ l ∨ (c.generators g).isUnlocked =
          decide (0 < (options.content.generators g).initialLevel)) →
        ((l.foldl (resetGeneratorForPrestige options step) c).generators g).isUnlocked =
          decide (0 < (options.content.generators g).initialLevel) := by
    intro step l
    induction l with
    | nil => exact fun c h => h.resolve_left List.not_mem_nil
    | cons j l ih =>
      intro c h
      refine ih _ ?_
      by_cases hj : g = j
      · subst hj
        exact .inr (by simp [resetGeneratorForPrestige, setGenerator])
      · refine h.imp (fun hmem => (List.mem_cons.mp hmem).resolve_left hj) fun hsame => ?_
        simpa [resetGeneratorForPrestige, setGenerator, hj] using hsame
  refine hloop _ _ _ (.inl (List.mem_filter.mpr ⟨hg, ?_⟩))
  simpa using hretained

/-- **The resets.** After its resets a prestige has something that it resets unlocked exactly if it
is so by default, an upgrade that it keeps unlocks it and one is removed, or it is unlocked late. -/
theorem unlockedAt_prestigeReset (hc : Fresh options c)
    (hflags : context.resetResourceFlags = computeResetFlags options i) {x : Unlockable sh}
    (hx : x.IsReset options i) :
    (c.prestigeReset options i context).unlockedAt x = true ↔
      x.unlockedByDefault options = true ∨
        (removedUpgrades options i ≠ [] ∧
          (c.prestigeReset options i context).UnlockedByUpgrade options x) ∨
        LateUnlocked options c.inputs.purchases i x := by
  set c₁ := { c with resources := applyPrestigeReset context c.resources }.applyGeneratorResets
    options i with hc₁
  obtain ⟨generators, hgenerators⟩ := applyGeneratorResets_rest options
    { c with resources := applyPrestigeReset context c.resources } i
  have hfresh : Fresh options c₁ := by
    rw [hc₁, hgenerators]
    exact ⟨hc.capped, hc.cached⟩
  have hpurchases : c₁.inputs.purchases = c.inputs.purchases := by
    rw [hc₁, hgenerators]
    rfl
  -- before any upgrade is removed, the flag is the default again
  have hstart : c₁.unlockedAt x = x.unlockedByDefault options := by
    cases x with
    | generator g => exact applyGeneratorResets_isUnlocked _ hx.1 hx.2
    | resource r =>
      have hresources : c₁.resources = applyPrestigeReset context c.resources := by
        rw [hc₁, hgenerators]
      change (c₁.resources.stored r).unlocked = _
      rw [hresources]
      exact applyPrestigeReset_unlocked hflags _ hx
  have hremoved : Removed options (removedUpgrades options i) c₁
      (c₁.applyUpgradeResets options i) := removed_foldl _ hfresh
  set c₂ := c₁.applyUpgradeResets options i with hc₂
  -- counting the prestige adds to a resource, which unlocks nothing
  have hcount : (c.prestigeReset options i context).inputs.purchases = c₂.inputs.purchases ∧
      (c.prestigeReset options i context).unlockedAt x = c₂.unlockedAt x := by
    rw [prestigeReset, incrementPrestigeCount]
    cases prestigeCountIndex options i with
    | none => exact ⟨rfl, rfl⟩
    | some count =>
      refine ⟨rfl, ?_⟩
      cases x with
      | generator g => rfl
      | resource r =>
        change ((c₂.resources.addPositive count 1).2.stored r).unlocked = (c₂.resources.stored
          r).unlocked
        rw [addPositive_stored]
        by_cases hr : r = count
        · subst hr
          rw [update_self]
          rfl
        · rw [update_of_ne hr]
  rw [hcount.2, UnlockedByUpgrade, hcount.1, hremoved.purchases, mem_purchasedEffects,
    hremoved.unlocked, hstart, hpurchases]
  -- the first removal applies the effects while the later upgrades are still purchased
  refine or_congr_right ⟨?_, ?_⟩
  · rintro ⟨first, hfirst, w, hwf, hw, heffect⟩
    obtain ⟨rest, hrest⟩ := List.head?_eq_some_iff.mp hfirst
    by_cases hmem : w ∈ rest
    · exact .inr ⟨first, rest, hrest, w, hmem, hwf, hw, heffect⟩
    · refine .inl ⟨by simp [hrest], w, ?_, heffect⟩
      rw [if_neg (by simp [hrest, hwf, hmem])]
      exact hw
  · rintro (⟨hne, w, hw, heffect⟩ | ⟨first, rest, hrest, w, hmem, hwf, hw, heffect⟩)
    · obtain ⟨first, rest, hrest⟩ := List.exists_cons_of_ne_nil hne
      by_cases hmem : w ∈ removedUpgrades options i
      · rw [if_pos hmem] at hw
        exact absurd rfl hw
      · rw [if_neg hmem] at hw
        refine ⟨first, by simp [hrest], w, ?_, hw, heffect⟩
        rintro rfl
        exact hmem (by simp [hrest])
    · exact ⟨first, by simp [hrest], w, hwf, hw, heffect⟩

/-! ### What an update unlocks -/

/-- Why something is unlocked after a change: it was, its condition held before the change, an
upgrade that is purchased unlocks it, or an achievement grants it. -/
def UnlockedBy (options : ProgressionOptions sh) (c c' : Coordinator sh) (x : Unlockable sh) :
    Prop :=
  c.unlockedAt x = true ∨
    (∃ condition, x.condition options = some condition ∧ c.Holds options condition) ∨
    c'.UnlockedByUpgrade options x ∨ x.GrantedByAchievement options

theorem unlockedAt_unlock (c : Coordinator sh) (i : Fin sh.resources) (x : Unlockable sh) :
    unlockedAt { c with resources := c.resources.unlock i } x = true ↔
      c.unlockedAt x = true ∨ x = .resource i := by
  cases x with
  | generator g => simp [unlockedAt]
  | resource r =>
    change ((c.resources.unlock i).stored r).unlocked = true ↔
      (c.resources.stored r).unlocked = true ∨ _
    rw [ResourceState.unlock, setUnlockedFlag_stored]
    by_cases hr : r = i
    · subst hr
      simp
    · simp [hr]

theorem unlockedAt_store (c : Coordinator sh) {s : ResourceState sh.resources}
    (h : ∀ r, (s.stored r).unlocked = (c.resources.stored r).unlocked) (x : Unlockable sh) :
    unlockedAt { c with resources := s } x = c.unlockedAt x := by
  cases x with
  | generator g => rfl
  | resource r => exact h r

variable {c' : Coordinator sh}

/-- **Step lemma.** A change locks nothing, and unlocks for one of the reasons. -/
theorem unlockedAt_change (h : Change options (PurchasedGenerator options) c c')
    (hc : Fresh options c) (x : Unlockable sh) :
    (c.unlockedAt x = true → c'.unlockedAt x = true) ∧
      (c'.unlockedAt x = true → UnlockedBy options c c' x) := by
  cases h with
  | effects step =>
    have hsame : (c.getUpgradeEffects options step).2.inputs.purchases = c.inputs.purchases :=
      funext fun u => by rw [inputs, (c.getUpgradeEffects_applied step).upgrades]; rfl
    rw [unlockedAt_getUpgradeEffects hc, UnlockedBy, UnlockedByUpgrade, UnlockedByUpgrade, hsame]
    exact ⟨.inl, fun h => h.imp_right fun h => .inr (.inl h)⟩
  | purchase u =>
    rw [incrementUpgradePurchases, unlockedAt_writePurchases hc (capPurchases_idem options u _),
      UnlockedBy, UnlockedByUpgrade, inputs_writePurchases]
    exact ⟨.inl, fun h => h.imp_right fun h => .inr (.inl h)⟩
  | unlock i hcondition hholds =>
    rw [unlockedAt_unlock]
    refine ⟨.inl, fun h => h.imp_right ?_⟩
    rintro rfl
    exact .inl ⟨_, hcondition, hholds⟩
  | «show» i =>
    have hsame := unlockedAt_store c (s := c.resources.grantVisibility i) (fun r => by
      rw [ResourceState.grantVisibility, setVisibleFlag_stored]
      by_cases hr : r = i
      · subst hr
        rw [update_self]
      · rw [update_of_ne hr]) x
    rw [hsame]
    exact ⟨id, .inl⟩
  | @grant a i formula hreward amount =>
    rw [grantAchievementResource]
    split
    · exact ⟨id, .inl⟩
    · -- a reward unlocks the resource it is paid in
      have hflag : unlockedAt
          { c with resources := ((c.resources.unlockAndShow i).addPositive i amount).2 } x = true ↔
            c.unlockedAt x = true ∨ x = .resource i := by
        cases x with
        | generator g => simp [unlockedAt]
        | resource r =>
          change (((c.resources.unlockAndShow i).addPositive i amount).2.stored r).unlocked = true ↔
            (c.resources.stored r).unlocked = true ∨ _
          rw [addPositive_stored, unlockAndShow_stored]
          by_cases hr : r = i
          · subst hr
            simp [StoredResource.add, StoredResource.unlockAndShow]
          · simp [hr]
      rw [hflag]
      refine ⟨.inl, fun h => h.imp_right ?_⟩
      rintro rfl
      exact .inr (.inr ⟨a, formula, hreward⟩)
  | unlockGenerator g unlock hunlock =>
    cases x with
    | resource r => exact ⟨id, .inl⟩
    | generator j =>
      have hflag : (c.unlockGenerator g unlock).unlockedAt (.generator j) = true ↔
          c.unlockedAt (.generator j) = true ∨ (j = g ∧ unlock = true) := by
        by_cases hj : j = g
        · subst hj
          simp [unlockedAt, Coordinator.unlockGenerator, setGenerator]
        · simp [unlockedAt, Coordinator.unlockGenerator, setGenerator, hj]
      rw [hflag]
      refine ⟨.inl, fun h => h.imp_right ?_⟩
      rintro ⟨rfl, htrue⟩
      exact (hunlock htrue).imp (fun hholds => ⟨_, rfl, hholds⟩) .inl
  | rest h =>
    have hsame : c'.unlockedAt x = c.unlockedAt x := by
      cases x with
      | generator g => exact h.isUnlocked g
      | resource r => rw [unlockedAt, unlockedAt, h.resources]
    rw [hsame]
    exact ⟨id, .inl⟩

/-- Why something is unlocked in the end of a sequence of changes. -/
def UnlockedSince (options : ProgressionOptions sh) (c c' : Coordinator sh) (x : Unlockable sh) :
    Prop :=
  (∃ t condition, Changes options (PurchasedGenerator options) c t ∧
    Changes options (PurchasedGenerator options) t c' ∧
    x.condition options = some condition ∧ t.Holds options condition) ∨
  c'.UnlockedByUpgrade options x

/-- **Run lemma.** -/
theorem unlockedAt_changes (h : Changes options (PurchasedGenerator options) c c')
    (hc : Fresh options c) (x : Unlockable sh) :
    (c.unlockedAt x = true → c'.unlockedAt x = true) ∧
      (c'.unlockedAt x = true → c.unlockedAt x = true ∨ UnlockedSince options c c' x ∨
        x.GrantedByAchievement options) := by
  induction h with
  | refl => exact ⟨id, .inl⟩
  | @tail t t' hsteps hstep ih =>
    have hfresh := Changes.fresh hsteps hc
    obtain ⟨hkept, hreason⟩ := unlockedAt_change hstep hfresh x
    refine ⟨hkept ∘ ih.1, fun h => ?_⟩
    rcases hreason h with hbefore | ⟨condition, hcondition, hholds⟩ | hupgrade | hgranted
    · rcases ih.2 hbefore with hstart | (⟨s, condition, hs, ht, hcondition⟩ | hupgrade) | hgranted
      · exact .inl hstart
      · exact .inr (.inl (.inl ⟨s, condition, hs, ht.tail hstep, hcondition⟩))
      · -- what is purchased stays purchased
        refine .inr (.inl (.inr ?_))
        exact purchasedEffects_mono (hstep.purchases_le hfresh) hupgrade
      · exact .inr (.inr hgranted)
    · exact .inr (.inl (.inl ⟨t, condition, hsteps, .single hstep, hcondition, hholds⟩))
    · exact .inr (.inl (.inr hupgrade))
    · exact .inr (.inr hgranted)

/-! ### A whole prestige -/

/-- What a prestige leaves of something that its layer resets. `reset` is the state between the
resets and the update, `c'` the state in the end. -/
structure Wiped (options : ProgressionOptions sh) (purchases : Fin sh.upgrades → ℕ)
    (i : Fin sh.prestigeLayers) (reset c' : Coordinator sh) (x : Unlockable sh) : Prop where
  /-- Unlocked only by default, by an upgrade still purchased, or by a condition that held after
  the resets. -/
  justified : ¬ LateUnlocked options purchases i x → ¬ x.GrantedByAchievement options →
    c'.unlockedAt x = true →
      x.unlockedByDefault options = true ∨ UnlockedSince options reset c' x
  /-- What is unlocked late stays unlocked. -/
  late : LateUnlocked options purchases i x → c'.unlockedAt x = true

theorem plannedPrestige_flags (h : c.plannedPrestige options i = .ok context) :
    context.resetResourceFlags = computeResetFlags options i := by
  obtain ⟨rewardAmount, -, h⟩ := bind_ok h
  obtain ⟨retentionTargets, -, h⟩ := bind_ok h
  obtain rfl := Except.ok.inj h
  rfl

/-- **Resets and update.** What they leave of something that the layer resets. -/
theorem wiped_finishPrestige (hc : Fresh options c) {u : Unit}
    (hflags : context.resetResourceFlags = computeResetFlags options i)
    (hfinish : finishPrestige options i context c = .ok u c') {x : Unlockable sh}
    (hx : x.IsReset options i) :
    Wiped options c.inputs.purchases i (c.prestigeReset options i context) c' x := by
  have hreset := unlockedAt_prestigeReset hc hflags hx
  have hmoves : Moves options Foreign c (c.prestigeReset options i context) := by
    rw [prestigeReset]
    exact .trans (.single (.store c (applyPrestigeReset_move context _)))
      ((moves_applyGeneratorResets _ i).trans
        ((moves_applyUpgradeResets _ i).trans (moves_incrementPrestigeCount _ i)))
  have hfresh := Moves.fresh hmoves hc
  rw [finishPrestige_eq] at hfinish
  have hupdate := changes_updateForStep options hfresh
    (c.prestigeReset options i context).lastUpdatedStep
  rw [hfinish] at hupdate
  obtain ⟨hkept, hreason⟩ := unlockedAt_changes hupdate hfresh x
  refine ⟨fun hlate hgranted h => ?_, fun hlate => hkept (hreset.mpr (.inr (.inr hlate)))⟩
  rcases hreason h with hstart | hsince | hgrant
  · rcases hreset.mp hstart with hdefault | ⟨-, hupgrade⟩ | hlate'
    · exact .inl hdefault
    · exact .inr (.inr (purchasedEffects_mono (Changes.purchases_le hupdate hfresh) hupgrade))
    · exact absurd hlate' hlate
  · exact .inr hsince
  · exact absurd hgrant hgranted

/-- The shape of a game with a gem, a count of ascensions, and two upgrades. -/
def gemShape : ContentShape :=
  { resources := 2, generators := 0, upgrades := 2, prestigeLayers := 1, achievements := 0 }

/-- The lamp. -/
def lamp : Fin gemShape.upgrades := (Fin.last 0).castSucc

/-- The pick. -/
def pick : Fin gemShape.upgrades := Fin.last 1

/-- The gem, after the count. -/
def gemIndex : Fin gemShape.resources := Fin.last 1

/-- An upgrade bought once. -/
def gemUpgrade (id : String) (effects : List (UpgradeEffect gemShape)) : UpgradeContent gemShape :=
  { id, repeatable := none, prerequisites := [], unlockCondition := none
    visibilityCondition := none, effects }

/-- The upgrades of the game. -/
def gemUpgrades (i : Fin gemShape.upgrades) : UpgradeContent gemShape :=
  if i.val = 0 then gemUpgrade "lamp" [] else gemUpgrade "pick" [.unlockResource gemIndex]

theorem gemUpgrades_injective :
    ∀ i j : Fin gemShape.upgrades, (gemUpgrades i).id = (gemUpgrades j).id → i = j := by
  decide +kernel

theorem gemUpgrades_nonblank :
    ∀ i : Fin gemShape.upgrades, isNonBlankString (gemUpgrades i).id = true := by
  decide +kernel

/-- The pick unlocks the gem; an ascension resets the gem and removes the lamp and the pick, in the
order that is given. -/
def gemContent (removed : List (Fin gemShape.upgrades)) : ContentPack gemShape :=
  { resources := fun i =>
      { id := if i.val = 0 then "ascension-prestige-count" else "gem", startAmount := none
        capacity := none, unlocked := none, visible := none, dirtyTolerance := none
        unlockCondition := none, visibilityCondition := none }
    generators := fun i => i.elim0
    upgrades := gemUpgrades
    prestigeLayers := fun _ =>
      { id := "ascension", unlockCondition := .always, resetTargets := [gemIndex]
        resetGenerators := [], resetUpgrades := removed
        reward := { resource := gemIndex, baseReward := .constant (.fin 0)
                    multiplierCurve := none }
        retention := [] }
    achievements := fun i => i.elim0
    generator_ids := fun i => i.elim0
    upgrade_ids := fun i j h => gemUpgrades_injective i j h
    achievement_ids := fun i => i.elim0
    generator_nonblank := fun i => i.elim0
    upgrade_nonblank := gemUpgrades_nonblank
    achievement_nonblank := fun i => i.elim0 }

def gemOptions (removed : List (Fin gemShape.upgrades)) : ProgressionOptions gemShape :=
  { content := gemContent removed, stepDurationMs := 100, precision := .default
    maxConditionDepth := none, evaluateScriptCondition := none, getCustomMetricValue := none }

/-- Both upgrades are bought. -/
def buyBoth (removed : List (Fin gemShape.upgrades)) :
    List (ProgressionAction (gemOptions removed)) :=
  [.incrementUpgrade lamp, .incrementUpgrade pick]

/-- A game in which both are bought, and its coordinator after an ascension. -/
structure Ascended (removed : List (Fin gemShape.upgrades)) where
  game : Progression (gemOptions removed)
  after : Coordinator gemShape

def ascended (removed : List (Fin gemShape.upgrades)) : Except String (Ascended removed) := do
  let game ← createProgression (gemOptions removed)
  let result ← outcome (applyPrestige (gemOptions removed) "ascension" (some "token") 0
    (game.run (buyBoth removed)).coordinator)
  return { game, after := result.2 }

theorem ascended_ok {removed : List (Fin gemShape.upgrades)} {a : Ascended removed}
    (h : ascended removed = .ok a) :
    createProgression (gemOptions removed) = .ok a.game ∧
      applyPrestige (gemOptions removed) "ascension" (some "token") 0
        (a.game.run (buyBoth removed)).coordinator = .ok () a.after := by
  obtain ⟨game, hgame, h⟩ := bind_ok h
  obtain ⟨result, hresult, h⟩ := bind_ok h
  obtain rfl := Except.ok.inj h
  exact ⟨hgame, outcome_ok hresult⟩

/-- The gem. -/
def gem : Unlockable gemShape := .resource gemIndex

end IdleEngine
