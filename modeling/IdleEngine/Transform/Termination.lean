import IdleEngine.Transform.StageGraph
import IdleEngine.Transform.Stages

/-!
# The delivery of missions ends

A batch that goes back into the queue stands at the same stage, now with a decision pending, or at a
stage to which the one before leads (`StageMoves`). Where every way on from a stage ends, no batch
can go back forever, and a loop over the queue ends whatever the batches in it (`delivery_ends`).
-/

namespace IdleEngine

open Stateful Worklist Yields Multiset

variable {n : ℕ}

/-! ### Where a batch stands -/

/-- The stage at which a batch stands, and whether a decision is pending there. -/
def TransformBatchQueueEntry.position (entry : TransformBatchQueueEntry) : Option (String × Bool) :=
  match entry.mission with
  | some (.multiStage mission) => some (mission.stageId, mission.pendingDecision.isSome)
  | _ => none

/-- Where a batch may stand after a round of the delivery. -/
inductive StageMoves (transform : TransformDefinition) : String × Bool → String × Bool → Prop
  /-- The decision of the stage is pending now. -/
  | waits (stageId : String) : StageMoves transform (stageId, false) (stageId, true)
  /-- The batch is at a stage to which the one before leads. -/
  | advances {source target : String} (waiting : Bool) (h : transform.Leads source target) :
      StageMoves transform (source, waiting) (target, false)

/-- A batch goes back into the queue as another one. -/
def GoesBack (transform : TransformDefinition) (entry again : TransformBatchQueueEntry) : Prop :=
  ∃ before after, entry.position = some before ∧ again.position = some after ∧
    StageMoves transform before after

variable {options : TransformSystemOptions n} {transform : TransformDefinition} {step : ℕ}
  {entry : TransformBatchQueueEntry} {mission : MultiStageMissionBatchPlan} {stage : MissionStage}

/-- The next round may find the batch at one of these positions. -/
def Again (after : String × Bool → Prop) (again : Option TransformBatchQueueEntry) : Prop :=
  ∀ next ∈ again, ∃ p, next.position = some p ∧ after p

theorem again_none (after : String × Bool → Prop) : Again after none := by
  intro next hnext
  cases hnext

variable {α : Type}

/-- What ends a mission returns no batch. -/
theorem yields_finish (m : StoreM n α) (after : String × Bool → Prop) :
    Yields (Again after) (do let _ ← m; pure none) :=
  of_bind fun _ => Yields.pure (again_none after)

/-! ### What each case returns -/

variable {stageId : String}

/-- A stage that was scheduled is the one that was asked for, and no decision is pending. -/
theorem scheduleMultiStageMissionStage_ok {resources : ResourceState n}
    {scheduled : MultiStageMissionBatchPlan × ℕ}
    (h : scheduleMultiStageMissionStage options transform step resources mission stageId =
      .ok scheduled) :
    scheduled.1.stageId = stageId ∧ scheduled.1.pendingDecision = none := by
  rw [scheduleMultiStageMissionStage] at h
  cases hfind : transform.findStage stageId with
  | none =>
    rw [hfind] at h
    cases h
  | some stage =>
    rw [hfind] at h
    obtain ⟨duration, -, h⟩ := Outcome.bind_ok h
    obtain ⟨rate, -, h⟩ := Outcome.bind_ok h
    obtain ⟨checkpoint, -, h⟩ := Outcome.bind_ok h
    obtain rfl := Except.ok.inj h
    have hid : stage.id = stageId := by simpa using List.find?_some hfind
    exact ⟨hid, rfl⟩

theorem run_attempt_ok {result : Prepared α} {value : Except TransformError α}
    {stores stores' : TransformStores n} (h : StoreM.attempt result stores = .ok value stores') :
    (∃ a, result = .ok a ∧ value = .ok a) ∨ ∃ e, value = .error e := by
  rcases result with (message | error) | a
  · cases h
  · obtain ⟨rfl, -⟩ := EStateM.Result.ok.inj h
    exact .inr ⟨error, rfl⟩
  · obtain ⟨rfl, -⟩ := EStateM.Result.ok.inj h
    exact .inl ⟨a, rfl, rfl⟩

theorem yields_reschedule (nextStageId : String) :
    Yields (Again fun p => p = (nextStageId, false))
      (rescheduleMissionEntry options transform step entry mission nextStageId) := by
  refine Yields.bind (P := fun scheduled => ∀ plan, scheduled = .ok plan →
    plan.1.stageId = nextStageId ∧ plan.1.pendingDecision = none) ?_ fun scheduled hscheduled => ?_
  · intro stores value stores' hrun plan hplan
    rw [StoreM.prepare, run_get_bind] at hrun
    subst hplan
    rcases run_attempt_ok hrun with ⟨scheduled, hok, heq⟩ | ⟨e, heq⟩
    · obtain rfl := Except.ok.inj heq
      exact scheduleMultiStageMissionStage_ok hok
    · cases heq
  · cases scheduled with
    | error e => exact yields_finish _ _
    | ok plan =>
      obtain ⟨hstage, hpending⟩ := hscheduled plan rfl
      refine Yields.pure ?_
      intro next hnext
      obtain rfl := Option.some.inj hnext
      refine ⟨_, rfl, ?_⟩
      rw [hstage, hpending]
      rfl

variable {decision : MissionDecision} {option : MissionDecisionOption}

/-- An option that was followed is one of the ways on. -/
theorem yields_followOption (hfind : transform.findStage mission.stageId = some stage)
    (hdecision : stage.decision = some decision) (hoption : option ∈ decision.options) :
    Yields (Again fun p => p.2 = false ∧ transform.Leads mission.stageId p.1)
      (followOption options transform step entry mission stage option) := by
  refine of_bind fun mission' => of_bind fun _ => ?_
  cases hnext : option.nextStage with
  | none => exact yields_finish _ _
  | some nextStageId =>
    intro stores again stores' hrun next hnext'
    obtain ⟨p, hp, rfl⟩ := yields_reschedule nextStageId stores again stores' hrun next hnext'
    refine ⟨_, hp, rfl, stage, hfind, ?_⟩
    rw [MissionStage.nextStages, hdecision]
    exact List.mem_filterMap.mpr ⟨option, hoption, hnext⟩

theorem mem_of_selectAvailableDecisionOption {optionViews : List MissionDecisionOptionView}
    (h : selectAvailableDecisionOption decision optionViews = some option) :
    option ∈ decision.options := by
  rw [selectAvailableDecisionOption, Option.or_eq_some_iff] at h
  rcases h with h | ⟨-, h⟩
  · exact List.mem_of_find?_eq_some (Option.filter_eq_some_iff.mp h).1
  · exact List.mem_of_find?_eq_some h

theorem yields_handlePendingDecisionBatch
    (hfind : transform.findStage mission.stageId = some stage) :
    Yields (Again fun p => p.2 = false ∧ transform.Leads mission.stageId p.1)
      (handlePendingDecisionBatch options transform step entry mission stage) := by
  rw [handlePendingDecisionBatch]
  cases hdecision : stage.decision with
  | none => exact yields_finish _ _
  | some decision =>
    refine Yields.bind (P := fun chosen => ∀ option, chosen = some option →
      option ∈ decision.options) ?_ fun chosen hchosen => ?_
    · intro stores chosen stores' hrun option hoption
      rw [StoreM.read, run_get_bind] at hrun
      cases hchoose : chooseOption options decision stores.resources with
      | error e =>
        rw [hchoose] at hrun
        cases hrun
      | ok found =>
        rw [hchoose] at hrun
        obtain ⟨rfl, -⟩ := EStateM.Result.ok.inj hrun
        obtain ⟨views, -, hselect⟩ := Outcome.map_ok hchoose
        exact mem_of_selectAvailableDecisionOption (hselect.trans hoption)
    · cases chosen with
      | none => exact yields_finish _ _
      | some option => exact yields_followOption hfind hdecision (hchosen option rfl)

theorem yields_scheduleMissionDecision (decision : MissionDecision) :
    Yields (Again fun p => p = (stage.id, true))
      (scheduleMissionDecision options transform step entry mission stage decision) := by
  refine of_bind fun timeoutMs => of_bind fun optionViews =>
    of_bind fun _ => Yields.pure ?_
  intro next hnext
  obtain rfl := Option.some.inj hnext
  exact ⟨_, rfl, rfl⟩

/-- A stage that is left: its decision is pending, or the batch is at its next stage. -/
theorem yields_leaveStage (hfind : transform.findStage stage.id = some stage) (success : Bool) :
    Yields (Again fun p => p = (stage.id, true) ∨ p.2 = false ∧ transform.Leads stage.id p.1)
      (leaveStage options transform step entry mission stage success) := by
  rw [leaveStage]
  split
  · exact yields_finish _ _
  · cases hdecision : stage.decision with
    | some decision =>
      intro stores again stores' hrun next hnext
      obtain ⟨p, hp, hat⟩ :=
        yields_scheduleMissionDecision decision stores again stores' hrun next hnext
      exact ⟨p, hp, .inl hat⟩
    | none =>
      cases hnextStage : stage.nextStage.join with
      | none => exact yields_finish _ _
      | some nextStageId =>
        intro stores again stores' hrun next hnext
        obtain ⟨p, hp, rfl⟩ := yields_reschedule nextStageId stores again stores' hrun next hnext
        refine ⟨_, hp, .inr ⟨rfl, stage, hfind, ?_⟩⟩
        rw [MissionStage.nextStages, hdecision, hnextStage]
        exact List.mem_singleton_self nextStageId

/-- **What the delivery of a batch puts back into the queue has moved on.** -/
theorem yields_deliverDueBatchEntry (entry : TransformBatchQueueEntry) :
    Yields (fun again => ∀ next ∈ again, GoesBack transform entry next)
      (deliverDueBatchEntry options transform step entry) := by
  intro stores again stores' hrun next hnext
  suffices h : Again (fun after => ∃ before, entry.position = some before ∧
      StageMoves transform before after) again by
    obtain ⟨after, hafter, before, hbefore, hmoves⟩ := h next hnext
    exact ⟨before, after, hbefore, hafter, hmoves⟩
  refine (?_ : Yields _ (deliverDueBatchEntry options transform step entry)) stores again stores'
    hrun
  rw [deliverDueBatchEntry]
  by_cases hmode : transform.mode = .mission
  · rw [if_pos hmode]
    rcases hplan : entry.mission with _ | ⟨plan⟩ | mission
    · exact yields_finish _ _
    · exact yields_finish _ _
    · dsimp only
      split
      · exact yields_finish _ _
      · have hposition : entry.position =
            some (mission.stageId, mission.pendingDecision.isSome) := by
          rw [TransformBatchQueueEntry.position, hplan]
        rw [deliverDueMultiStageMissionBatch]
        cases hfind : transform.findStage mission.stageId with
        | none => exact yields_finish _ _
        | some stage =>
          have hid : stage.id = mission.stageId := by simpa using List.find?_some hfind
          dsimp only
          split
          · next hpending =>
            intro stores again stores' hrun next hnext
            -- the mission waited for a decision, which is made now
            obtain ⟨⟨target, waiting⟩, hp, rfl, hleads⟩ :=
              yields_handlePendingDecisionBatch hfind stores again stores' hrun next hnext
            exact ⟨_, hp, _, hposition, .advances _ hleads⟩
          · next hpending =>
            -- the stage is over: it is left for the next one or for a decision
            refine of_bind fun success => of_bind fun granted =>
              of_bind fun _ => ?_
            intro stores again stores' hrun next hnext
            rw [← hid] at hfind
            obtain ⟨⟨target, waiting⟩, hp, hat⟩ :=
              yields_leaveStage hfind success stores again stores' hrun next hnext
            rw [Bool.not_eq_true] at hpending
            rw [hpending, ← hid] at hposition
            refine ⟨_, hp, _, hposition, ?_⟩
            rcases hat with hat | ⟨rfl, hleads⟩
            · obtain ⟨rfl, rfl⟩ := Prod.mk.inj hat
              exact .waits stage.id
            · exact .advances _ hleads
  · rw [if_neg hmode]
    exact yields_finish _ _

/-! ### Rounds -/

/-- What a round of the delivery does: nothing, or it delivers the first batch, which has left the
queue whether its delivery returns or throws. -/
theorem deliverNext_cases (options : TransformSystemOptions n) (transform : TransformDefinition)
    (step : ℕ) (delivery : Delivery n) :
    deliverNext options transform step delivery = .ok false delivery ∨
      ∃ entry batches, delivery.batches = entry :: batches ∧ entry.completeAtStep ≤ step ∧
        ((∃ again stores,
            deliverDueBatchEntry options transform step entry delivery.stores = .ok again stores ∧
            deliverNext options transform step delivery =
              .ok true ⟨again.elim batches (insertBatch batches), stores⟩) ∨
          ∃ e stores,
            deliverDueBatchEntry options transform step entry delivery.stores = .error e stores ∧
            deliverNext options transform step delivery = .error e ⟨batches, stores⟩) := by
  obtain ⟨batches, stores⟩ := delivery
  cases batches with
  | nil => exact .inl rfl
  | cons entry batches =>
    by_cases hdue : entry.completeAtStep ≤ step
    · refine .inr ⟨entry, batches, rfl, hdue, ?_⟩
      have hround : deliverNext options transform step ⟨entry :: batches, stores⟩ =
          (deliveryStores (deliverDueBatchEntry options transform step entry) >>= fun again => do
            modify fun delivery : Delivery n =>
              { delivery with
                batches := again.elim delivery.batches (insertBatch delivery.batches) }
            pure true) ⟨batches, stores⟩ := by
        rw [deliverNext, run_get_bind]
        dsimp only
        rw [if_pos hdue]
        rfl
      cases hrun : deliverDueBatchEntry options transform step entry stores with
      | ok again stores' =>
        have hdeliver : deliveryStores (deliverDueBatchEntry options transform step entry)
            ⟨batches, stores⟩ = .ok again ⟨batches, stores'⟩ := by
          rw [deliveryStores, zoom, hrun]
        exact .inl ⟨again, stores', rfl, hround.trans (run_bind_ok hdeliver _)⟩
      | error e stores' =>
        have hdeliver : deliveryStores (deliverDueBatchEntry options transform step entry)
            ⟨batches, stores⟩ = .error e ⟨batches, stores'⟩ := by
          rw [deliveryStores, zoom, hrun]
        exact .inr ⟨e, stores', rfl, hround.trans (run_bind_error hdeliver _)⟩
    · refine .inl ?_
      rw [deliverNext, run_get_bind]
      dsimp only
      rw [if_neg hdue]
      rfl

/-- A round of the delivery removes a batch, gives it a pending decision at its stage, or moves it
to a stage to which its stage leads. -/
def DeliversOne (transform : TransformDefinition) (before after : Delivery n) : Prop :=
  ∃ entry batches, before.batches = entry :: batches ∧
    (after.batches = batches ∨
      ∃ next, GoesBack transform entry next ∧ after.batches = insertBatch batches next)

variable {delivery delivery' : Delivery n}

theorem deliverNext_ok (h : deliverNext options transform step delivery = .ok true delivery') :
    DeliversOne transform delivery delivery' := by
  rcases deliverNext_cases options transform step delivery with hidle | ⟨entry, batches, hbatches,
    -, ⟨again, stores, hrun, hround⟩ | ⟨e, stores, -, hround⟩⟩
  · rw [hidle] at h
    cases h
  · rw [hround] at h
    obtain ⟨-, rfl⟩ := EStateM.Result.ok.inj h
    refine ⟨entry, batches, hbatches, ?_⟩
    cases again with
    | none => exact .inl rfl
    | some next =>
      exact .inr ⟨next, yields_deliverDueBatchEntry entry _ _ _ hrun next rfl, rfl⟩
  · rw [hround] at h
    cases h

theorem deliverNext_error {e : String}
    (h : deliverNext options transform step delivery = .error e delivery') :
    DeliversOne transform delivery delivery' := by
  rcases deliverNext_cases options transform step delivery with hidle | ⟨entry, batches, hbatches,
    -, ⟨again, stores, -, hround⟩ | ⟨e', stores, -, hround⟩⟩
  · rw [hidle] at h
    cases h
  · rw [hround] at h
    cases h
  · rw [hround] at h
    obtain ⟨-, rfl⟩ := EStateM.Result.error.inj h
    exact ⟨entry, batches, hbatches, .inl rfl⟩

/-! ### Termination -/

theorem acc_stageMoves (h : transform.WaysEnd stageId) (waiting : Bool) :
    Acc (fun after before => StageMoves transform before after) (stageId, waiting) := by
  induction h generalizing waiting with
  | intro stageId _ ih =>
    have hpending : Acc (fun after before => StageMoves transform before after)
        (stageId, true) := by
      refine Acc.intro _ fun after hmoves => ?_
      cases hmoves with
      | advances _ hleads => exact ih _ hleads false
    cases waiting with
    | true => exact hpending
    | false =>
      refine Acc.intro _ fun after hmoves => ?_
      cases hmoves with
      | waits => exact hpending
      | advances _ hleads => exact ih _ hleads false

/-- Every way on from where a batch stands ends. -/
def TransformBatchQueueEntry.WaysEnd (transform : TransformDefinition)
    (entry : TransformBatchQueueEntry) : Prop :=
  ∀ stageId waiting, entry.position = some (stageId, waiting) → transform.WaysEnd stageId

theorem acc_goesBack (h : entry.WaysEnd transform) :
    Acc (fun next entry => GoesBack transform entry next) entry := by
  cases hposition : entry.position with
  | none =>
    refine Acc.intro entry fun next hnext => ?_
    obtain ⟨before, -, hbefore, -⟩ := hnext
    rw [hposition] at hbefore
    cases hbefore
  | some p =>
    have hacc : Acc (fun after before => StageMoves transform before after) p :=
      acc_stageMoves (h p.1 p.2 hposition) p.2
    clear h
    induction hacc generalizing entry with
    | intro before _ ih =>
      refine Acc.intro entry fun next hnext => ?_
      obtain ⟨before', after, hbefore, hafter, hmoves⟩ := hnext
      obtain rfl := Option.some.inj (hposition.symm.trans hbefore)
      exact ih after hmoves hafter

theorem insertBatch_perm (batches : List TransformBatchQueueEntry)
    (entry : TransformBatchQueueEntry) :
    (insertBatch batches entry).Perm (entry :: batches) := by
  rw [insertBatch]
  refine List.perm_middle.trans (List.Perm.cons entry ?_)
  rw [List.take_append_drop]

/-- **The delivery ends** where every way on from the stages of the batches ends. -/
theorem delivery_ends (delivery : Delivery n)
    (h : ∀ entry ∈ delivery.batches, entry.WaysEnd transform) :
    Ends (deliverNext options transform step) delivery := by
  refine ends_of_replaces (fun delivery => (delivery.batches : Multiset _))
    (r := fun next entry => GoesBack transform entry next) ?_ fun entry hentry =>
    acc_goesBack (h entry (mem_coe.mp hentry))
  intro delivery delivery' hrun
  obtain ⟨entry, batches, hbefore, hafter | ⟨next, hnext, hafter⟩⟩ := deliverNext_ok hrun
  · refine ⟨entry, batches, 0, ?_, ?_, by simp⟩
    · rw [hbefore, cons_coe]
    · rw [hafter, zero_add]
  · refine ⟨entry, batches, {next}, ?_, ?_, ?_⟩
    · rw [hbefore, cons_coe]
    · rw [hafter, singleton_add, cons_coe]
      exact coe_eq_coe.mpr (insertBatch_perm batches next)
    · intro next' hnext'
      obtain rfl := mem_singleton.mp hnext'
      exact hnext

/-- The batch stands at a stage to which the initial stage leads. -/
def TransformBatchQueueEntry.Reached (transform : TransformDefinition)
    (entry : TransformBatchQueueEntry) : Prop :=
  ∀ stageId waiting, entry.position = some (stageId, waiting) →
    ∃ root, transform.rootStage = some root ∧ Relation.ReflTransGen transform.Leads root stageId

/-- Scouts look for loot: the first stage ends with the decision whether to take it, which is made
at once. Neither stage takes any time. -/
def scoutMission : TransformDefinition where
  id := "transform:scout"
  mode := .mission
  inputs := []
  outputs := []
  duration := none
  cooldown := none
  trigger := .manual
  unlockCondition := none
  safety := none
  entityRequirements := [⟨"entity:scout", .constant (.fin 1), [], [], true⟩]
  successRate := none
  outcomes := some ⟨⟨[], none⟩, none, none⟩
  stages := [
    { id := "look"
      duration := .constant (.fin 0)
      checkpoint := some ⟨[⟨"gold", .constant (.fin 5)⟩], none⟩
      decision := some ⟨"Take it?", some (.constant (.fin 0)), "take",
        [⟨"take", "Take", none, some "loot", none⟩, ⟨"leave", "Leave", none, none, none⟩]⟩
      stageSuccessRate := none
      successOutcome := none
      failureOutcome := none
      nextStage := none },
    { id := "loot"
      duration := .constant (.fin 0)
      checkpoint := none
      decision := none
      stageSuccessRate := none
      successOutcome := none
      failureOutcome := none
      nextStage := some none }]
  initialStage := some "look"
  order := none

theorem scoutMission_valid : scoutMission.SchemaValid :=
  ⟨by decide, by decide⟩

/-- A system with one resource and no entities. -/
def scoutOptions : TransformSystemOptions 1 where
  stepDurationMs := 100
  hasResourceIndex := true
  hasSpendAmount := true
  hasAddAmount := true
  conditionContext := none
  entityConfig := ⟨[], List.nodup_nil, .fin 100⟩
  entityConditionContext := none
  experienceFuel := 0
  calculatePRDConstant := id
  fallbackSeed := 1

/-- No gold, and no numbers drawn yet. -/
def scoutStores : TransformStores 1 where
  resources := ResourceState.initial (fun _ => "gold") .default fun _ => blankRow
  entitySystem := none
  prdRegistry := OrderedMap.empty
  rng := Rng.resetRNG
  events := none
  stageRecords := []

/-- A plan at the first stage. -/
def scoutPlan : MultiStageMissionBatchPlan where
  baseRate := 1
  usePRD := false
  criticalChance := none
  success := ⟨[], 0⟩
  failure := ⟨[], 0⟩
  critical := none
  currentStageId := "look"
  currentStageStartStep := 3
  currentStageSuccessRate := 1
  currentStageCheckpoint := some ⟨[⟨"gold", 5⟩], 0⟩
  checkpointRewardsGranted := []
  pendingDecision := none
  accumulatedModifiers := ⟨0, 1, 1⟩
  returnOnCompleteEntityInstanceIds := []

/-- A batch that is due at once. -/
def scoutEntry : TransformBatchQueueEntry where
  completeAtStep := 3
  outputs := []
  batchId := some "0"
  entityInstanceIds := []
  entityExperience := none
  mission := some (.multiStage scoutPlan)
  sequence := 0

theorem scoutEntry_reached : scoutEntry.Reached scoutMission := by
  intro stageId waiting hposition
  obtain ⟨rfl, rfl⟩ := Prod.mk.inj (Option.some.inj hposition)
  exact ⟨"look", rfl, .refl⟩

/-- Four rounds are enough: to the decision, to the second stage, to the end, and the last one finds
nothing to deliver. -/
example : (final (deliverDueBatches scoutOptions scoutMission 3 4
    ⟨[scoutEntry], scoutStores⟩)).batches = [] := by decide +kernel

end IdleEngine
