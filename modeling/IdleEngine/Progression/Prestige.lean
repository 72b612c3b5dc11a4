import IdleEngine.Progression.Update
import IdleEngine.Resource.Publish

/-!
# Prestige

A prestige grants its reward, writes the reset resources back to their start amounts and the
retained ones to what their formulas say, resets flags, generators and upgrades, counts itself
and updates the progression. The amounts are written directly: nothing clamps them.

The formulas read a published snapshot, which quoting and applying a prestige take as a side
effect.
-/

namespace IdleEngine

variable {sh : ContentShape}

/-! ### Writes to the store -/

/-- `PrestigeResetTarget`, or `PrestigeRetentionTarget`: a resource and its raw amount. -/
structure PrestigeAmountTarget (n : ℕ) where
  resource : Fin n
  amount : JsNumber

/-- `PrestigeResourceFlagTarget`. -/
structure PrestigeFlagTarget (n : ℕ) where
  resource : Fin n
  unlocked : Bool
  visible : Bool

/-- `normalizeAmount`. -/
def normalizeAmount (amount : JsNumber) : ℚ :=
  match amount.finite? with
  | some amount => max 0 (⌊amount⌋ : ℤ)
  | none => 0

theorem normalizeAmount_nonneg (amount : JsNumber) : 0 ≤ normalizeAmount amount := by
  unfold normalizeAmount
  split
  · exact le_max_left _ _
  · exact le_refl 0

/-- The amount a target is written to. -/
def PrestigeAmountTarget.normalized {n : ℕ} (target : PrestigeAmountTarget n) : ℚ :=
  normalizeAmount target.amount

namespace ResourceState

variable {n : ℕ}

/-- `grantPrestigeReward`. -/
def grantPrestigeReward (s : ResourceState n) (resource : Fin n) (amount : ℚ) : ResourceState n :=
  if amount ≤ 0 then s else (s.addPositive resource amount).2

/-- `applyPrestigeResetTargets`, and `applyPrestigeRetentionTargets`. -/
def applyPrestigeTargets (s : ResourceState n) (targets : List (PrestigeAmountTarget n)) :
    ResourceState n :=
  targets.foldl (fun s target => s.putAmount target.resource target.normalized) s

/-- `applyPrestigeFlagTargets`. -/
def applyPrestigeFlagTargets (s : ResourceState n) (targets : List (PrestigeFlagTarget n)) :
    ResourceState n :=
  targets.foldl
    (fun s target =>
      (s.setUnlockedFlag target.resource target.unlocked).setVisibleFlag target.resource
        target.visible) s

end ResourceState

/-- `PrestigeResetContext`: what a prestige writes to the store. -/
structure PrestigeResetContext (n : ℕ) where
  rewardResource : Fin n
  rewardAmount : ℚ
  resetTargets : List (PrestigeAmountTarget n)
  retentionTargets : List (PrestigeAmountTarget n)
  resetResourceFlags : List (PrestigeFlagTarget n)

/-- `applyPrestigeReset`. -/
def applyPrestigeReset {n : ℕ} (context : PrestigeResetContext n) (s : ResourceState n) :
    ResourceState n :=
  (((s.grantPrestigeReward context.rewardResource context.rewardAmount).applyPrestigeTargets
    context.resetTargets).applyPrestigeTargets context.retentionTargets).applyPrestigeFlagTargets
      context.resetResourceFlags

/-! ### What a prestige computes -/

variable (options : ProgressionOptions sh)

/-- `buildFormulaContext`, after its publish: amounts are those of the snapshot, also under the
resource's id as a variable. -/
def Coordinator.prestigeFormulaContext (c : Coordinator sh) : FormulaContext :=
  let deltaTime := options.stepDurationMs / 1000
  let resourceLookup := fun id =>
    (indexOfId (fun i => (options.content.resources i).id) id).map fun i =>
      (c.resources.active.rows i).amount
  { variableValue := fun name =>
      (resourceLookup name).or (formulaVariables 1 (c.lastUpdatedStep * deltaTime) deltaTime name)
    resource := resourceLookup
    generator := fun id =>
      (indexOfId (fun i => (options.content.generators i).id) id).map fun i =>
        ((c.generators i).owned : ℚ)
    upgrade := fun id =>
      (indexOfId (fun i => (options.content.upgrades i).id) id).map fun i =>
        ((c.upgrades i).purchases : ℚ)
    automation := fun _ => none
    prestigeLayer := fun _ => none }

/-- `computeRewardPreview`. -/
def computeRewardPreview (reward : PrestigeReward sh) (context : FormulaContext) :
    Except String ℚ := do
  let baseRewardAmount ← reward.baseReward context
  let base := baseRewardAmount.finite?.getD 0
  match reward.multiplierCurve with
  | none => return max 0 (⌊base⌋ : ℤ)
  | some multiplierCurve =>
      let multiplier ← multiplierCurve context
      return max 0 (⌊base * multiplier.finite?.getD 1⌋ : ℤ)

/-- `collectRetainedIds`, of resources; a layer's count is always retained. -/
def retainedResources (i : Fin sh.prestigeLayers) : List (Fin sh.resources) :=
  (options.content.prestigeLayers i).retention.filterMap (fun entry =>
    match entry with
    | .resource resource _ => some resource
    | _ => none) ++ (prestigeCountIndex options i).toList

/-- `collectRetainedIds`, of generators. -/
def retainedGenerators (i : Fin sh.prestigeLayers) : List (Fin sh.generators) :=
  (options.content.prestigeLayers i).retention.filterMap fun entry =>
    match entry with
    | .generator generator => some generator
    | _ => none

/-- `collectRetainedIds`, of upgrades. -/
def retainedUpgrades (i : Fin sh.prestigeLayers) : List (Fin sh.upgrades) :=
  (options.content.prestigeLayers i).retention.filterMap fun entry =>
    match entry with
    | .upgrade upgrade => some upgrade
    | _ => none

/-- The resources a layer resets: those it does not retain. -/
def resetResources (i : Fin sh.prestigeLayers) : List (Fin sh.resources) :=
  (options.content.prestigeLayers i).resetTargets.filter fun resource =>
    !(retainedResources options i).contains resource

/-- `computeResetTargets`, the amounts. -/
def computeResetTargets (i : Fin sh.prestigeLayers) : List (PrestigeAmountTarget sh.resources) :=
  (resetResources options i).map fun resource =>
    let definition := (options.content.resources resource).definition
    { resource, amount := definition.startAmount.getD (.fin 0) }

/-- `computeResetTargets`, the flags. -/
def computeResetFlags (i : Fin sh.prestigeLayers) : List (PrestigeFlagTarget sh.resources) :=
  (resetResources options i).map fun resource =>
    let definition := (options.content.resources resource).definition
    { resource
      unlocked := definition.unlocked.getD true
      visible := definition.visible.getD true }

/-- `computeRetentionTargets`. -/
def computeRetentionTargets (context : FormulaContext) :
    List (RetentionEntry sh) → Except String (List (PrestigeAmountTarget sh.resources))
  | [] => .ok []
  | .resource resource (some formula) :: retention => do
      let amount ← formula context
      let later ← computeRetentionTargets context retention
      return { resource, amount } :: later
  | _ :: retention => computeRetentionTargets context retention

/-- Everything `applyPrestige` computes before it writes to the store. -/
def Coordinator.prestigeResetContext (c : Coordinator sh) (i : Fin sh.prestigeLayers) :
    Except String (PrestigeResetContext sh.resources) := do
  let layer := options.content.prestigeLayers i
  let context := c.prestigeFormulaContext options
  let rewardAmount ← computeRewardPreview layer.reward context
  let retentionTargets ← computeRetentionTargets context layer.retention
  return { rewardResource := layer.reward.resource, rewardAmount, retentionTargets
           resetTargets := computeResetTargets options i
           resetResourceFlags := computeResetFlags options i }

/-! ### Applying a prestige -/

/-- `TOKEN_EXPIRATION_MS`. -/
def tokenExpirationMs : ℚ := 60000

/-- The confirmation tokens that have not expired. -/
def Coordinator.dropExpiredTokens (c : Coordinator sh) (now : ℚ) : Coordinator sh :=
  { c with
    usedTokens := fun token =>
      (c.usedTokens token).filter fun timestamp => decide (now - timestamp ≤ tokenExpirationMs) }

/-- `reserveConfirmationToken`. -/
def reserveConfirmationToken (confirmationToken : String) (now : ℚ) : ProgressionM sh Unit := do
  modify (·.dropExpiredTokens now)
  let c ← get
  if (c.usedTokens confirmationToken).isSome then
    throw "Confirmation token has already been used"
  else
    modify fun c =>
      { c with usedTokens := Function.update c.usedTokens confirmationToken (some now) }

/-- `getUnlockedLayerRecord`. -/
def getUnlockedLayer (layerId : String) : ProgressionM sh (Fin sh.prestigeLayers) := do
  match indexOfId (fun i => (options.content.prestigeLayers i).id) layerId with
  | none => throw ("Prestige layer \"" ++ layerId ++ "\" not found")
  | some i => do
      let c ← get
      if (c.prestigeLayers i).isUnlocked then pure i
      else throw ("Prestige layer \"" ++ layerId ++ "\" is locked")

/-- `applyGeneratorResets`. -/
def Coordinator.applyGeneratorResets (c : Coordinator sh) (i : Fin sh.prestigeLayers) :
    Coordinator sh :=
  ((options.content.prestigeLayers i).resetGenerators.filter fun generator =>
    !(retainedGenerators options i).contains generator).foldl
      (Coordinator.resetGeneratorForPrestige options c.lastUpdatedStep) c

/-- `applyUpgradeResets`. -/
def Coordinator.applyUpgradeResets (c : Coordinator sh) (i : Fin sh.prestigeLayers) :
    Coordinator sh :=
  ((options.content.prestigeLayers i).resetUpgrades.filter fun upgrade =>
    !(retainedUpgrades options i).contains upgrade).foldl
      (fun c upgrade => c.setUpgradePurchases options upgrade 0) c

/-- `incrementPrestigeCount`. -/
def Coordinator.incrementPrestigeCount (c : Coordinator sh) (i : Fin sh.prestigeLayers) :
    Coordinator sh :=
  match prestigeCountIndex options i with
  | some resource => { c with resources := (c.resources.addPositive resource 1).2 }
  | none => c

/-- What `applyPrestige` does once everything is computed. -/
def finishPrestige (i : Fin sh.prestigeLayers) (context : PrestigeResetContext sh.resources) :
    ProgressionM sh Unit := do
  modifyResources (applyPrestigeReset context)
  modify (·.applyGeneratorResets options i)
  modify (·.applyUpgradeResets options i)
  modify (·.incrementPrestigeCount options i)
  let c ← get
  updateForStep options c.lastUpdatedStep

/-- `applyPrestige`; `now` is the time of day. -/
def applyPrestige (layerId : String) (confirmationToken : Option String) (now : ℚ) :
    ProgressionM sh Unit := do
  match confirmationToken.filter fun token => token != "" with
  | none => throw "Prestige operation requires a confirmation token"
  | some token => do
      reserveConfirmationToken token now
      let i ← getUnlockedLayer options layerId
      modifyResources (·.createPublishSnapshot)
      let context ← readState fun c => c.prestigeResetContext options i
      finishPrestige options i context

inductive PrestigeStatus
  | locked
  | available
  | completed
  deriving DecidableEq, Repr

/-- `PrestigeQuote`: the status and the reward. -/
structure PrestigeQuote where
  status : PrestigeStatus
  rewardAmount : ℚ

/-- `getPrestigeQuote`. -/
def getPrestigeQuote (layerId : String) : ProgressionM sh (Option PrestigeQuote) := do
  match indexOfId (fun i => (options.content.prestigeLayers i).id) layerId with
  | none => pure none
  | some i => do
      let c ← get
      let prestigeCount := c.inputs.getResourceAmount options (prestigeCountId layerId)
      let status : PrestigeStatus :=
        if (c.prestigeLayers i).isUnlocked then
          if 1 ≤ prestigeCount then .completed else .available
        else .locked
      modifyResources (·.createPublishSnapshot)
      let rewardAmount ← readState fun c =>
        computeRewardPreview (options.content.prestigeLayers i).reward
          (c.prestigeFormulaContext options)
      pure (some { status, rewardAmount })

end IdleEngine
