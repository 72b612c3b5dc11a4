import IdleEngine.Game.Runs
import IdleEngine.Progression.Records

/-!
# Amounts and capacities over a run

Every writer but a prestige keeps each amount between zero and its capacity: the operations clamp,
capacity overrides clamp, loading clamps. A prestige writes start amounts and retained amounts as
they are. In a run whose prestiges write no amount above the capacity that the resource has then,
the bounds hold in every state, and adding and spending are exact.
-/

namespace IdleEngine

open Relation Stateful

variable {sh : ContentShape} {options : ProgressionOptions sh}

theorem ResourceContent.baseCapacity_nonneg (resource : ResourceContent) :
    0 ≤ resource.baseCapacity := by
  rw [baseCapacity]
  cases hcapacity : parseCapacity (resource.capacity.getD .posInf) with
  | none => exact le_top
  | some capacity => exact parseCapacity_nonneg hcapacity

theorem overriddenCapacity_nonneg {n : ℕ} {base : Fin n → WithTop ℚ} (hbase : ∀ i, 0 ≤ base i)
    {overrideIds : List (Fin n)} {overrides : OrderedMap (Fin n) Capacity} {i : Fin n}
    {capacity : WithTop ℚ} (h : overriddenCapacity base overrideIds overrides i = some capacity) :
    0 ≤ capacity := by
  rw [overriddenCapacity] at h
  split at h
  · next c _ =>
    obtain rfl := Option.some.inj h
    exact c.2
  · split at h
    · obtain rfl := Option.some.inj h
      exact hbase i
    · cases h

/-- Capacity overrides keep the bounds. -/
theorem Bounded.applyCapacityOverrides {n : ℕ} {s : ResourceState n} (h : Bounded s.stored)
    {base : Fin n → WithTop ℚ} (hbase : ∀ i, 0 ≤ base i) (overrideIds : List (Fin n))
    (overrides : OrderedMap (Fin n) Capacity) :
    Bounded (s.applyCapacityOverrides base overrideIds overrides).stored := by
  intro i
  rw [ResourceState.applyCapacityOverrides_stored]
  cases hcapacity : overriddenCapacity base overrideIds overrides i with
  | none => exact h i
  | some capacity => exact (h i).withCapacity (overriddenCapacity_nonneg hbase hcapacity)

/-- The amount is at most the capacity. -/
def fitsCapacity (capacity : WithTop ℚ) (amount : ℚ) : Prop := (amount : WithTop ℚ) ≤ capacity

/-- **Step lemma.** A game step whose direct writes fit keeps the bounds. -/
theorem GameStep.bounded {c c' : Coordinator sh} (h : GameStep options fitsCapacity c c')
    (hc : Bounded c.resources.stored) : Bounded c'.resources.stored := by
  cases h with
  | coordinator h =>
    cases h with
    | resources h => exact h.bounded hc
    | overrides overrides =>
      exact hc.applyCapacityOverrides
        (fun i => (options.content.resources i).baseCapacity_nonneg) _ overrides
    | rest hresources _ _ =>
      rw [hresources]
      exact hc
  | call call h => exact hc.call h
  | load serialized h => exact hc.hydrateResources h
  | write i hamount h =>
    change Bounded (c.resources.putAmount i _).stored
    rw [ResourceState.putAmount_stored]
    exact hc.update ⟨hamount, h⟩

theorem PlayStep.bounded {p p' : Progression options} (h : PlayStep options fitsCapacity p p')
    (hp : Bounded p.coordinator.resources.stored) : Bounded p'.coordinator.resources.stored := by
  obtain h | h := h
  · exact h.bounded hp
  · rw [h]
    exact hp

namespace Coordinator

/-- Whether the amounts that a prestige of a layer would write now fit. -/
def prestigeFits (options : ProgressionOptions sh) (c : Coordinator sh) (layerId : String) : Bool :=
  match indexOfId (fun i => (options.content.prestigeLayers i).id) layerId with
  | none => true
  | some i =>
      !(c.prestigeLayers i).isUnlocked ||
        match c.plannedPrestige options i with
        | .error _ => true
        | .ok context =>
            (context.resetTargets ++ context.retentionTargets).all fun target =>
              decide ((target.normalized : WithTop ℚ) ≤
                (c.resources.stored target.resource).capacity)

theorem prestigeFits_iff {c : Coordinator sh} {layerId : String} :
    c.prestigeFits options layerId = true ↔ c.PrestigeWrites options fitsCapacity layerId := by
  rw [prestigeFits, PrestigeWrites]
  cases indexOfId (fun i => (options.content.prestigeLayers i).id) layerId with
  | none => simp
  | some i =>
    cases hplan : c.plannedPrestige options i with
    | error message => simp [hplan]
    | ok context =>
      simp only [hplan, Bool.or_eq_true, Bool.not_eq_true', List.all_eq_true, decide_eq_true_eq]
      constructor
      · intro h i' hi hunlocked context' hcontext target htarget
        obtain rfl := Option.some.inj hi
        obtain rfl := Except.ok.inj (hplan.symm.trans hcontext)
        rcases h with h | h
        · cases hunlocked.symm.trans h
        · exact h target htarget
      · intro h
        cases hunlocked : (c.prestigeLayers i).isUnlocked with
        | false => exact .inl rfl
        | true => exact .inr fun target => h i rfl hunlocked context hplan target

instance (c : Coordinator sh) (layerId : String) :
    Decidable (c.PrestigeWrites options fitsCapacity layerId) :=
  decidable_of_iff _ prestigeFits_iff

end Coordinator

namespace Progression

/-- Every prestige of a sequence of actions writes amounts within capacity, judged in the state
it starts from. -/
def PrestigesFit : Progression options → List (ProgressionAction options) → Prop
  | _, [] => True
  | p, action :: actions => action.Writes fitsCapacity p ∧ PrestigesFit (p.after action) actions

end Progression

/-- **Run lemma.** -/
theorem Bounded.run {p : Progression options} (hp : Bounded p.coordinator.resources.stored)
    {actions : List (ProgressionAction options)} (h : p.PrestigesFit actions) :
    Bounded (p.run actions).coordinator.resources.stored := by
  induction actions generalizing p with
  | nil => exact hp
  | cons action actions ih =>
    obtain ⟨hfirst, hrest⟩ := h
    have hsteps := p.after_steps action hfirst
    refine ih ?_ hrest
    generalize p.after action = p' at hsteps
    induction hsteps with
    | refl => exact hp
    | tail _ hstep ihsteps => exact hstep.bounded ihsteps

theorem bounded_createProgression {p : Progression options}
    (h : createProgression options = .ok p) : Bounded p.coordinator.resources.stored := by
  obtain ⟨resources, generators, hresources, hupdated⟩ := createProgression_eq h
  have hsteps := updates_updateForStep options 0 (Coordinator.initial resources generators)
  rw [← hupdated] at hsteps
  have hinitial : Bounded (Coordinator.initial resources generators).resources.stored :=
    bounded_createResourceState hresources
  generalize p.coordinator = c at hsteps
  induction hsteps with
  | refl => exact hinitial
  | tail _ hstep ih => exact (GameStep.coordinator hstep).bounded ih

/-- The shape of a game with two resources and one prestige layer. -/
def ascensionShape : ContentShape :=
  { resources := 2, generators := 0, upgrades := 0, prestigeLayers := 1, achievements := 0 }

/-- Gold with a capacity of 100 and the count of ascensions; an ascension retains gold. -/
def ascensionContent (retained : ℚ) : ContentPack ascensionShape :=
  { resources := fun i =>
      if i.val = 0 then
        { id := "gold", startAmount := none, capacity := some (.fin 100), unlocked := some true
          visible := none, dirtyTolerance := none, unlockCondition := none
          visibilityCondition := none }
      else
        { id := "ascension-prestige-count", startAmount := none, capacity := none
          unlocked := none, visible := none, dirtyTolerance := none, unlockCondition := none
          visibilityCondition := none }
    generators := fun i => i.elim0
    upgrades := fun i => i.elim0
    prestigeLayers := fun _ =>
      { id := "ascension", unlockCondition := .always, resetTargets := [], resetGenerators := []
        resetUpgrades := []
        reward := { resource := (0 : Fin 2), baseReward := .constant (.fin 0)
                    multiplierCurve := none }
        retention := [.resource (0 : Fin 2) (some (.constant (.fin retained)))] }
    achievements := fun i => i.elim0
    generator_ids := fun i => i.elim0
    upgrade_ids := fun i => i.elim0
    achievement_ids := fun i => i.elim0
    generator_nonblank := fun i => i.elim0
    upgrade_nonblank := fun i => i.elim0
    achievement_nonblank := fun i => i.elim0 }

/-- The ascension game. -/
def ascensionOptions (retained : ℚ) : ProgressionOptions ascensionShape :=
  { content := ascensionContent retained, stepDurationMs := 100, precision := .default
    maxConditionDepth := none, evaluateScriptCondition := none, getCustomMetricValue := none }

/-- An ascension. -/
def ascend (retained : ℚ) : ProgressionAction (ascensionOptions retained) :=
  .prestige "ascension" (some "token") 0

/-- The index of the gold. -/
def goldIndex : Fin ascensionShape.resources := (0 : Fin 2)

/-- The store of a new ascension game after an ascension. -/
def storeAfterAscension (retained : ℚ) : Except String (ResourceState ascensionShape.resources) :=
  (createProgression (ascensionOptions retained)).map fun p =>
    (p.run [ascend retained]).coordinator.resources

end IdleEngine
