import IdleEngine.Game.Runs
import IdleEngine.Progression.Changes

/-!
# What actions are made of

Where `GameStep` bounds amounts, `Move` keeps account of what upgrades derive: whatever a game does
to its progression is made of the changes of updates, of purchases written, of generators reset, of
changes of the store that keep its capacities and tolerances, and of changes from outside, which
are calls on the store and loads. A prestige, its direct writes included, needs none of the last.

Along moves a state stays `Fresh`, and the store stays `Coherent`.
-/

namespace IdleEngine

open Relation Stateful Coordinator

variable {n : ℕ} {sh : ContentShape}

/-! ### Changes of the store -/

/-- The capacity and the tolerance of a row. -/
def limitsReading : RowReading (WithTop ℚ × ℚ) where
  read row := (row.capacity, row.dirtyTolerance)
  read_dirty _ _ := rfl

/-- A change of the store that keeps it coherent, its capacities and its tolerances. -/
structure StoreMove (s s' : ResourceState n) : Prop where
  coherent : Coherent s → Coherent s'
  limits : s'.readings limitsReading = s.readings limitsReading

theorem StoreMove.refl (s : ResourceState n) : StoreMove s s := ⟨id, rfl⟩

theorem StoreMove.trans {s₁ s₂ s₃ : ResourceState n} (h₁ : StoreMove s₁ s₂)
    (h₂ : StoreMove s₂ s₃) : StoreMove s₁ s₃ :=
  ⟨h₂.coherent ∘ h₁.coherent, h₂.limits.trans h₁.limits⟩

variable {α : Type}

theorem StoreMove.foldl {f : ResourceState n → α → ResourceState n} (h : ∀ s a, StoreMove s (f s a))
    (l : List α) (s : ResourceState n) :
    StoreMove s (l.foldl f s) :=
  List.foldlRecOn (motive := StoreMove s) l f (.refl s) fun t ht a _ => ht.trans (h t a)

namespace ResourceState

variable (s : ResourceState n)

theorem putAmount_move (i : Fin n) (amount : ℚ) :
    StoreMove s (s.putAmount i amount) where
  coherent h := (h.writes (s.writeAmount_writes (A := anyFlags) i amount)).coherent
  limits := s.writeOther_readings limitsReading RowField.amount (fun _ => rfl)
    (fun _ _ => rfl) i amount

theorem writeFlags_move (i : Fin n) {flags : ResourceFlags}
    (hdirty : flags.dirtyThisTick = (s.live i).flags.dirtyThisTick) :
    StoreMove s (s.writeField RowField.flags i flags) where
  coherent h := by
    have hwrites : WritesAt anyFlags i s (s.writeField RowField.flags i flags) :=
      ReflTransGen.single (Write.flags s flags hdirty trivial)
    exact (h.writes hwrites).coherent
  limits := s.writeOther_readings limitsReading RowField.flags (fun _ => rfl)
    (fun _ _ => rfl) i flags

theorem setUnlockedFlag_move (i : Fin n) (unlocked : Bool) :
    StoreMove s (s.setUnlockedFlag i unlocked) := s.writeFlags_move i rfl

theorem setVisibleFlag_move (i : Fin n) (visible : Bool) :
    StoreMove s (s.setVisibleFlag i visible) := s.writeFlags_move i rfl

theorem unlockAndShow_move (i : Fin n) :
    StoreMove s (s.unlockAndShow i) := by
  have hunlock : StoreMove s (s.unlockIfLocked i) := by
    rw [unlockIfLocked]
    split
    · exact .refl s
    · exact s.setUnlockedFlag_move i true
  refine hunlock.trans ?_
  rw [unlockAndShow, showIfHidden]
  split
  · exact .refl _
  · exact setVisibleFlag_move _ i true

theorem addPositive_move (i : Fin n) (amount : ℚ) :
    StoreMove s (s.addPositive i amount).2 where
  coherent h := (h.writes (s.addPositive_writes (A := anyFlags) i amount)).coherent
  limits := by
    have htick : ∀ (t : ResourceState n) delta,
        (t.accumulateTickDelta i delta).readings limitsReading = t.readings limitsReading := by
      intro t delta
      rw [accumulateTickDelta]
      split
      · rfl
      · exact t.writeOther_readings limitsReading RowField.tickDelta (fun _ => rfl)
          (fun _ _ => rfl) i _
    simp only [addPositive]
    split
    · rfl
    · rw [htick]
      exact (s.putAmount_move i _).limits

theorem createPublishSnapshot_move :
    StoreMove s s.createPublishSnapshot where
  coherent h := h.publish
  limits := by
    funext i
    simp only [readings, createPublishSnapshot, clearDirtyBits]
    rw [Overwrite.overwrite_apply (g := fun _ (row : ResourceRow) => row.clearDirty)
      fun _ _ => rfl]
    split <;> rfl

theorem grantPrestigeReward_move (i : Fin n) (amount : ℚ) :
    StoreMove s (s.grantPrestigeReward i amount) := by
  rw [grantPrestigeReward]
  split
  · exact .refl s
  · exact s.addPositive_move i amount

end ResourceState

open ResourceState in
/-- The writes of a prestige keep the capacities and the tolerances. -/
theorem applyPrestigeReset_move (context : PrestigeResetContext n) (s : ResourceState n) :
    StoreMove s (applyPrestigeReset context s) := by
  have htargets : ∀ (s : ResourceState n) targets, StoreMove s (s.applyPrestigeTargets targets) :=
    fun s targets => .foldl (fun s _ => s.putAmount_move _ _) targets s
  have hflags : ∀ (s : ResourceState n) targets,
      StoreMove s (s.applyPrestigeFlagTargets targets) :=
    fun s targets => .foldl (fun s _ => (s.setUnlockedFlag_move _ _).trans
      (setVisibleFlag_move _ _ _)) targets s
  exact (((s.grantPrestigeReward_move _ _).trans (htargets _ _)).trans (htargets _ _)).trans
    (hflags _ _)

/-- A change of the store from outside the progression. -/
inductive Foreign : ResourceState n → ResourceState n → Prop
  | call (s : ResourceState n) (call : ResourceCall n) : Foreign s (s.call call)
  | load {s s' : ResourceState n} {liveIds : Fin n → String}
      {serialized : SerializedResourceState}
      (h : s.hydrateResources liveIds serialized = .ok s') : Foreign s s'

/-- Loading is a sequence of writes and a publish. -/
theorem Coherent.hydrateResources {s s' : ResourceState n} (hs : Coherent s)
    {liveIds : Fin n → String} {serialized : SerializedResourceState}
    (h : s.hydrateResources liveIds serialized = .ok s') : Coherent s' := by
  obtain ⟨reconciliation, -, hrest⟩ := Outcome.bind_ok h
  obtain rfl := Except.ok.inj hrest
  have hflag : ∀ (t : ResourceState n) i (saved : Bool), Coherent t →
      Coherent (if saved then t.unlock i else t) ∧
        Coherent (if saved then t.grantVisibility i else t) := by
    intro t i saved ht
    cases saved
    · exact ⟨ht, ht⟩
    · exact ⟨(t.setUnlockedFlag_move i true).coherent ht,
        (t.setVisibleFlag_move i true).coherent ht⟩
  refine Coherent.publish (List.foldlRecOn (motive := Coherent) _ _ hs fun t ht entry _ => ?_)
  have hcapacity := (ht.writes (t.setCapacityTo_writes (A := anyFlags) entry.1
    (serialized.recordAt entry.2).capacity)).coherent
  have hmoved : Coherent ((t.setCapacityTo entry.1 (serialized.recordAt entry.2).capacity
      ).moveAmountTo entry.1 (serialized.recordAt entry.2).amount) := by
    rw [ResourceState.moveAmountTo]
    split
    · exact (ResourceState.addPositive_move _ _ _).coherent hcapacity
    · split
      · exact (hcapacity.writes (ResourceState.spendAmount_writes (A := anyFlags) _ _ _)).coherent
      · exact hcapacity
  exact (hflag _ _ _ (hflag _ _ _ hmoved).1).2

theorem Foreign.coherent {s s' : ResourceState n} (h : Foreign s s') (hs : Coherent s) :
    Coherent s' := by
  cases h with
  | call c => exact (hs.call c).coherent
  | load h => exact hs.hydrateResources h

/-! ### Moves -/

/-- A move; `foreign` says which changes the store may undergo from outside. -/
inductive Move (options : ProgressionOptions sh)
    (foreign : ResourceState sh.resources → ResourceState sh.resources → Prop) :
    Coordinator sh → Coordinator sh → Prop
  | change {c c' : Coordinator sh} (h : Change options (Coordinator.PurchasedGenerator options)
      c c') : Move options foreign c c'
  | set (c : Coordinator sh) (i : Fin sh.upgrades) (purchases : ℕ) :
      Move options foreign c (c.setUpgradePurchases options i purchases)
  | store (c : Coordinator sh) {s : ResourceState sh.resources} (h : StoreMove c.resources s) :
      Move options foreign c { c with resources := s }
  | foreign (c : Coordinator sh) {s : ResourceState sh.resources} (h : foreign c.resources s) :
      Move options foreign c { c with resources := s }
  | generators (c : Coordinator sh) (generators : Fin sh.generators → GeneratorState sh) :
      Move options foreign c { c with generators }

variable {options : ProgressionOptions sh}
  {foreign : ResourceState sh.resources → ResourceState sh.resources → Prop}

variable {c c' : Coordinator sh}

/-- **Every move keeps a state fresh.** -/
theorem Move.fresh (h : Move options foreign c c') (hc : Fresh options c) : Fresh options c' := by
  cases h with
  | change h => exact h.fresh hc
  | set i purchases => exact hc.writePurchases (capPurchases_idem options i _)
  | store h => exact ⟨hc.capped, hc.cached⟩
  | foreign h => exact ⟨hc.capped, hc.cached⟩
  | generators generators => exact ⟨hc.capped, hc.cached⟩

abbrev Moves (options : ProgressionOptions sh)
    (foreign : ResourceState sh.resources → ResourceState sh.resources → Prop) :
    Coordinator sh → Coordinator sh → Prop :=
  ReflTransGen (Move options foreign)

theorem Moves.fresh (h : Moves options foreign c c') (hc : Fresh options c) : Fresh options c' := by
  induction h with
  | refl => exact hc
  | tail _ hstep ih => exact hstep.fresh ih

/-! ### The store along moves -/

theorem coherent_appliedStore (c : Coordinator sh) (effects : UpgradeEffects sh)
    (hc : Coherent c.resources) : Coherent (c.appliedStore options effects) := by
  have hcapacity : ∀ {s : ResourceState sh.resources} i capacity, Coherent s →
      Coherent (s.setCapacityTo i capacity) := fun {s} i capacity hs =>
    (hs.writes (s.setCapacityTo_writes (A := anyFlags) i capacity)).coherent
  have htolerance : ∀ {s : ResourceState sh.resources} i tolerance, Coherent s →
      Coherent (s.setDirtyTolerance i tolerance).2 := fun {s} i tolerance hs =>
    (hs.writes (s.setDirtyTolerance_writes (A := anyFlags) i tolerance)).coherent
  have hunlocked : Coherent
      (effects.unlockedResources.foldl ResourceState.unlockAndShow c.resources) :=
    (StoreMove.foldl (fun s i => s.unlockAndShow_move i) _ _).coherent hc
  refine List.foldlRecOn (motive := Coherent) _ _ (List.foldlRecOn (motive := Coherent) _ _
    (List.foldlRecOn (motive := Coherent) _ _ (List.foldlRecOn (motive := Coherent) _ _ hunlocked
      ?_) ?_) ?_) ?_
  · intro s hs i _
    split
    · exact hs
    · exact hcapacity i _ hs
  · exact fun s hs entry _ => hcapacity entry.1 _ hs
  · exact fun s hs i _ => htolerance i _ hs
  · exact fun s hs entry _ => htolerance entry.1 _ hs

theorem coherent_getUpgradeEffects (c : Coordinator sh) (step : ℕ) (hc : Coherent c.resources) :
    Coherent (c.getUpgradeEffects options step).2.resources := by
  rw [(c.getUpgradeEffects_applied step).resources]
  exact coherent_appliedStore c _ hc

/-- **Moves keep the store coherent** where the changes from outside do. -/
theorem Moves.coherent (hforeign : ∀ s s', foreign s s' → Coherent s → Coherent s')
    (h : Moves options foreign c c') (hc : Coherent c.resources) :
    Coherent c'.resources := by
  induction h with
  | refl => exact hc
  | @tail t t' _ hstep ih =>
    cases hstep with
    | change h =>
      cases h with
      | effects step => exact coherent_getUpgradeEffects t step ih
      | purchase i => exact coherent_getUpgradeEffects (t.purchased i _) _ ih
      | unlock i _ _ => exact (t.resources.setUnlockedFlag_move i true).coherent ih
      | «show» i => exact (t.resources.setVisibleFlag_move i true).coherent ih
      | grant a _ amount =>
        rw [grantAchievementResource]
        split
        · exact ih
        · exact ((t.resources.unlockAndShow_move _).trans
            (ResourceState.addPositive_move _ _ amount)).coherent ih
      | unlockGenerator i unlock _ => exact ih
      | rest h =>
        rw [h.resources]
        exact ih
    | set i purchases => exact coherent_getUpgradeEffects (t.purchased i _) _ ih
    | store h => exact h.coherent ih
    | foreign h => exact hforeign _ _ h ih
    | generators generators => exact ih

theorem moves_changes (h : Changes options (Coordinator.PurchasedGenerator options) c c') :
    Moves options foreign c c' :=
  ReflTransGen.mono (fun _ _ => .change) _ _ h

/-! ### Prestiges -/

/-- Two computations in a row, the second from a fresh state. -/
theorem moves_bind {β : Type} {m : ProgressionM sh α} {f : α → ProgressionM sh β}
    (hc : Fresh options c) (hm : Moves options foreign c (final (m c)))
    (hf : ∀ a t, m c = .ok a t → Fresh options t → Moves options foreign t (final (f a t))) :
    Moves options foreign c (final ((m >>= f) c)) := by
  refine Performs.bind_from hm fun a t ht => hf a t ht ?_
  rw [ht] at hm
  exact Moves.fresh hm hc

theorem moves_foldl {f : Coordinator sh → α → Coordinator sh}
    (h : ∀ c a, Moves options foreign c (f c a)) (l : List α) (c : Coordinator sh) :
    Moves options foreign c (l.foldl f c) :=
  List.foldlRecOn (motive := Moves options foreign c) l f .refl
    fun t ht a _ => ht.trans (h t a)

theorem moves_applyGeneratorResets (c : Coordinator sh) (i : Fin sh.prestigeLayers) :
    Moves options foreign c (c.applyGeneratorResets options i) := by
  rw [applyGeneratorResets]
  exact moves_foldl (fun c _ => .single (.generators c _)) _ c

theorem moves_applyUpgradeResets (c : Coordinator sh) (i : Fin sh.prestigeLayers) :
    Moves options foreign c (c.applyUpgradeResets options i) :=
  moves_foldl (fun c _ => .single (.set c _ 0)) _ c

theorem moves_incrementPrestigeCount (c : Coordinator sh) (i : Fin sh.prestigeLayers) :
    Moves options foreign c (c.incrementPrestigeCount options i) := by
  rw [incrementPrestigeCount]
  split
  · exact .single (.store c (c.resources.addPositive_move _ 1))
  · exact .refl

theorem moves_updateForStep (hc : Fresh options c) (step : ℕ) :
    Moves options foreign c (final (updateForStep options step c)) :=
  moves_changes (changes_updateForStep options hc step)

theorem moves_finishPrestige (hc : Fresh options c) (i : Fin sh.prestigeLayers)
    (context : PrestigeResetContext sh.resources) :
    Moves options foreign c (final (finishPrestige options i context c)) := by
  refine moves_bind hc (.single (.store c (applyPrestigeReset_move context _)))
    fun _ c _ hc => ?_
  refine moves_bind hc (moves_applyGeneratorResets c i) fun _ c _ hc => ?_
  refine moves_bind hc (moves_applyUpgradeResets c i) fun _ c _ hc => ?_
  refine moves_bind hc (moves_incrementPrestigeCount c i) fun _ c _ hc => ?_
  exact moves_updateForStep hc c.lastUpdatedStep

/-- The coordinator when a prestige has reset everything, before its update. -/
def Coordinator.prestigeReset (options : ProgressionOptions sh) (c : Coordinator sh)
    (i : Fin sh.prestigeLayers) (context : PrestigeResetContext sh.resources) : Coordinator sh :=
  ((({ c with resources := applyPrestigeReset context c.resources }).applyGeneratorResets options i
    ).applyUpgradeResets options i).incrementPrestigeCount options i

/-- A prestige resets, then updates. -/
theorem finishPrestige_eq (i : Fin sh.prestigeLayers)
    (context : PrestigeResetContext sh.resources) (c : Coordinator sh) :
    finishPrestige options i context c =
      updateForStep options (c.prestigeReset options i context).lastUpdatedStep
        (c.prestigeReset options i context) := rfl

/-- A prestige that returns has computed its writes and made them. -/
theorem applyPrestige_ok {layerId : String} {confirmationToken : Option String} {now : ℚ} {u : Unit}
    (h : applyPrestige options layerId confirmationToken now c = .ok u c') :
    ∃ i tokens context,
      indexOfId (fun i => (options.content.prestigeLayers i).id) layerId = some i ∧
        (c.prestigeLayers i).isUnlocked = true ∧ c.plannedPrestige options i = .ok context ∧
        finishPrestige options i context
          { c with usedTokens := tokens, resources := c.resources.createPublishSnapshot } =
            .ok u c' := by
  rw [applyPrestige] at h
  cases hfilter : confirmationToken.filter fun token => token != "" with
  | none =>
    rw [hfilter] at h
    cases h
  | some token =>
    rw [hfilter] at h
    obtain ⟨_, t, hreserve, h⟩ := bind_ok h
    obtain ⟨tokens, htokens⟩ := reserveConfirmationToken_final token now c
    rw [hreserve] at htokens
    obtain rfl : t = { c with usedTokens := tokens } := htokens
    obtain ⟨i, t, hlayer, h⟩ := bind_ok h
    obtain ⟨rfl, hindex, hunlocked⟩ := getUnlockedLayer_ok hlayer
    obtain ⟨_, t, hpublish, h⟩ := bind_ok h
    obtain rfl : { c with usedTokens := tokens, resources := c.resources.createPublishSnapshot } = t
      := by injection hpublish
    obtain ⟨context, t, hread, h⟩ := bind_ok h
    obtain ⟨rfl, hcontext⟩ := readState_ok hread
    exact ⟨i, tokens, context, hindex, hunlocked, hcontext, h⟩

theorem moves_reserveConfirmationToken (token : String) (now : ℚ) (c : Coordinator sh) :
    Moves options foreign c (final (reserveConfirmationToken token now c)) := by
  obtain ⟨tokens, htokens⟩ := reserveConfirmationToken_final token now c
  rw [htokens]
  exact .single (.change (.rest ⟨rfl, rfl, rfl, fun _ => rfl, rfl, rfl, rfl, rfl⟩))

/-- **Prestige.** A prestige is made of moves, whatever it writes. -/
theorem moves_applyPrestige (hc : Fresh options c) (layerId : String)
    (confirmationToken : Option String) (now : ℚ) :
    Moves options foreign c (final (applyPrestige options layerId confirmationToken now c)) := by
  rw [applyPrestige]
  cases confirmationToken.filter fun token => token != "" with
  | none => exact .refl
  | some token =>
    refine moves_bind hc (moves_reserveConfirmationToken token now c) fun _ c _ hc => ?_
    refine moves_bind hc ?_ fun i c _ hc => ?_
    · rw [getUnlockedLayer_final]
    refine moves_bind hc (.single (.store c c.resources.createPublishSnapshot_move))
      fun _ c _ hc => ?_
    refine moves_bind hc ((reads_readState _).performs _) fun context c _ hc => ?_
    exact moves_finishPrestige hc i context

theorem getPrestigeQuote_final (layerId : String) (c : Coordinator sh) :
    final (getPrestigeQuote options layerId c) =
      (indexOfId (fun i => (options.content.prestigeLayers i).id) layerId).elim c
        fun _ => { c with resources := c.resources.createPublishSnapshot } := by
  rw [getPrestigeQuote]
  cases indexOfId (fun i => (options.content.prestigeLayers i).id) layerId with
  | none => rfl
  | some i =>
    change final (EStateM.bind (readState fun c : Coordinator sh =>
      computeRewardPreview (options.content.prestigeLayers i).reward
        (c.prestigeFormulaContext options)) _ _) = _
    rw [EStateM.bind, readState]
    dsimp only
    cases computeRewardPreview (options.content.prestigeLayers i).reward _ with
    | ok rewardAmount => rfl
    | error message => rfl

theorem moves_getPrestigeQuote (layerId : String) (c : Coordinator sh) :
    Moves options foreign c (final (getPrestigeQuote options layerId c)) := by
  rw [getPrestigeQuote_final]
  cases indexOfId (fun i => (options.content.prestigeLayers i).id) layerId with
  | none => exact .refl
  | some i => exact .single (.store c c.resources.createPublishSnapshot_move)

/-! ### Loads -/

theorem moves_hydrateCoordinatorResources (serialized : SerializedResourceState)
    (c : Coordinator sh) :
    Moves options Foreign c (final (hydrateCoordinatorResources options serialized c)) := by
  rw [hydrateCoordinatorResources]
  split
  · next hload => exact .single (.foreign c (.load hload))
  · exact .refl

theorem moves_restoreSection {name : String} {entries : Option (List α)}
    {restore : Coordinator sh → α → Coordinator sh}
    (h : ∀ c a, Moves options foreign c (restore c a)) (c : Coordinator sh) :
    Moves options foreign c (final (restoreSection name entries restore c)) := by
  cases entries with
  | none => exact .refl
  | some entries => exact moves_foldl h entries c

theorem moves_restoreGenerator (c : Coordinator sh) (entry : SerializedGenerator) :
    Moves options foreign c (c.restoreGenerator options entry) := by
  rw [restoreGenerator]
  split
  · split
    · exact .single (.generators c _)
    · exact .refl
  · exact .refl

theorem moves_restoreUpgrade (c : Coordinator sh) (entry : SerializedUpgrade) :
    Moves options foreign c (c.restoreUpgrade options entry) := by
  rw [restoreUpgrade]
  split
  · split
    · exact .single (.set c _ _)
    · exact .refl
  · exact .refl

theorem moves_achievements (c : Coordinator sh)
    (achievements : Fin sh.achievements → AchievementState) :
    Moves options foreign c { c with achievements } :=
  .single (.change (.rest ⟨rfl, rfl, rfl, fun _ => rfl, rfl, rfl, rfl, rfl⟩))

theorem moves_restoreAchievement (c : Coordinator sh) (entry : SerializedAchievement) :
    Moves options foreign c (c.restoreAchievement options entry) := by
  rw [restoreAchievement]
  split
  · split
    · exact moves_achievements c _
    · exact .refl
  · exact .refl

theorem moves_restoreProgressionSections (hc : Fresh options c)
    (serialized : SerializedProgression) :
    Moves options foreign c (final (restoreProgressionSections options serialized true c)) := by
  rw [restoreProgressionSections]
  refine moves_bind hc ((reads_readState _).performs _) fun _ c _ hc => ?_
  refine moves_bind hc (.single (.generators c _)) fun _ c _ hc => ?_
  refine moves_bind hc (moves_restoreSection moves_restoreGenerator c) fun _ c _ hc => ?_
  refine moves_bind hc (moves_foldl (fun c i => .single (.set c i 0)) _ c) fun _ c _ hc => ?_
  refine moves_bind hc (moves_restoreSection moves_restoreUpgrade c) fun _ c _ hc => ?_
  refine moves_bind hc (moves_achievements c _) fun _ c _ hc => ?_
  split
  · exact moves_restoreSection moves_restoreAchievement c
  · exact .refl

/-! ### Actions -/

/-- A move of the coordinator, or a change of the accumulators. -/
def ProgressionMove (options : ProgressionOptions sh)
    (foreign : ResourceState sh.resources → ResourceState sh.resources → Prop)
    (p p' : Progression options) : Prop :=
  Move options foreign p.coordinator p'.coordinator ∨ p'.coordinator = p.coordinator

variable {p : Progression options}

theorem moves_coordinator {p' : Progression options}
    (h : ReflTransGen (ProgressionMove options foreign) p p') :
    Moves options foreign p.coordinator p'.coordinator := by
  induction h with
  | refl => exact .refl
  | tail _ hstep ih =>
    rcases hstep with hmove | hsame
    · exact ih.tail hmove
    · rwa [hsame]

theorem moves_inCoordinator {m : ProgressionM sh α}
    (h : Moves options foreign p.coordinator (final (m p.coordinator))) :
    ReflTransGen (ProgressionMove options foreign) p (final (inCoordinator m p)) :=
  Performs.zoom_at h rfl fun _ _ => .inl

section

variable (hp : Fresh options p.coordinator)
include hp

/-- Two computations of a progression in a row, the second from a fresh state. -/
theorem moves_progression_bind {β : Type} {m : EStateM String (Progression options) α}
    {f : α → EStateM String (Progression options) β}
    (hm : ReflTransGen (ProgressionMove options foreign) p (final (m p)))
    (hf : ∀ a t, Fresh options t.coordinator →
      ReflTransGen (ProgressionMove options foreign) t (final (f a t))) :
    ReflTransGen (ProgressionMove options foreign) p (final ((m >>= f) p)) := by
  refine Performs.bind_from hm fun a t ht => hf a t ?_
  rw [ht] at hm
  exact Moves.fresh (moves_coordinator hm) hp

theorem moves_loadProgression
    (resources : SerializedResourceState) (progression : Option SerializedProgression) :
    ReflTransGen (ProgressionMove options Foreign) p
      (final (loadProgression resources progression p)) := by
  refine moves_progression_bind hp
    (moves_inCoordinator (moves_hydrateCoordinatorResources resources _)) fun _ p hp => ?_
  cases progression with
  | none => exact .refl
  | some serialized =>
    refine moves_progression_bind hp
      (moves_inCoordinator (moves_restoreProgressionSections hp serialized)) fun _ p hp => ?_
    refine moves_progression_bind hp (.single (.inr ?_)) fun _ p hp => ?_
    · cases serialized.productionAccumulators <;> rfl
    · exact moves_inCoordinator (moves_updateForStep hp _)

/-- **Actions.** Whatever an action does is made of moves. -/
theorem Progression.after_moves (action : ProgressionAction options) :
    Moves options Foreign p.coordinator (p.after action).coordinator := by
  refine moves_coordinator ?_
  cases action with
  | call c hc => exact moves_inCoordinator (.single (.foreign _ (.call _ c)))
  | publish =>
    exact moves_inCoordinator
      (.single (.store _ p.coordinator.resources.createPublishSnapshot_move))
  | update step => exact moves_inCoordinator (moves_updateForStep hp step)
  | incrementGenerator i count => exact moves_inCoordinator (.single (.generators _ _))
  | enableGenerator i enabled => exact moves_inCoordinator (.single (.generators _ _))
  | incrementUpgrade i => exact moves_inCoordinator (.single (.change (.purchase _ i)))
  | setUpgrade i purchases => exact moves_inCoordinator (.single (.set _ i purchases))
  | quoteUpgrades => exact moves_inCoordinator (.single (.change (.effects _ _)))
  | quotePrestige layerId =>
    exact moves_inCoordinator (Performs.bind_from (moves_getPrestigeQuote layerId _)
      fun _ _ _ => .refl)
  | prestige layerId confirmationToken now =>
    exact moves_inCoordinator (moves_applyPrestige hp layerId confirmationToken now)
  | accumulate a => exact .single (.inr rfl)
  | load resources progression => exact moves_loadProgression hp resources progression

theorem Progression.run_moves (actions : List (ProgressionAction options)) :
    Moves options Foreign p.coordinator (p.run actions).coordinator := by
  rw [run]
  refine List.foldlRecOn (motive := fun t : Progression options =>
    Moves options Foreign p.coordinator t.coordinator) _ _ .refl fun t ht action _ => ?_
  exact ht.trans (after_moves (Moves.fresh ht hp) action)

end

/-- A new progression is made of moves too, from new managers. -/
theorem createProgression_moves (h : createProgression options = .ok p) :
    ∃ resources generators,
      createResourceState (fun i => (options.content.resources i).definition) options.precision =
        .ok resources ∧
      Fresh options (initial resources generators) ∧
      Moves options Foreign (initial resources generators) p.coordinator := by
  obtain ⟨resources, generators, hresources, hupdated⟩ := createProgression_eq h
  have hfresh : Fresh options (initial resources generators) := by
    refine ⟨fun i => ?_, fun step effects hcache => by cases hcache⟩
    rw [capPurchases]
    split <;> rfl
  rw [hupdated]
  exact ⟨resources, generators, hresources, hfresh, moves_updateForStep hfresh 0⟩

theorem fresh_run (hp : createProgression options = .ok p)
    (actions : List (ProgressionAction options)) : Fresh options (p.run actions).coordinator := by
  obtain ⟨resources, generators, -, hfresh, hcreate⟩ := createProgression_moves hp
  have hrun := Progression.run_moves (Moves.fresh hcreate hfresh) actions
  exact Moves.fresh hrun (Moves.fresh hcreate hfresh)

end IdleEngine
