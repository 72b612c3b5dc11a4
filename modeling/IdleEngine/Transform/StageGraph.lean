import Mathlib.Data.Set.Finite.Basic
import IdleEngine.Content.Validator
import IdleEngine.Lib.DepthFirst
import IdleEngine.Transform.Definitions

/-!
# The stage graph of a mission

The schema of a transform checks the stages of a mission: their ids are distinct, they name stages
that exist, and the search for a cycle that starts at the initial stage finds none. A stage that the
initial stage does not lead to is not searched, so what follows from the check is about the stages
that it leads to (`SchemaValid.ends`).
-/

namespace IdleEngine

open List

/-- The stages that a stage may lead to. -/
def MissionStage.nextStages (stage : MissionStage) : List String :=
  match stage.decision with
  | some decision => decision.options.filterMap MissionDecisionOption.nextStage
  | none => stage.nextStage.join.toList

/-- A stage leads to another one: by an option of its decision, or without a decision. -/
def TransformDefinition.Leads (transform : TransformDefinition) (source target : String) : Prop :=
  ∃ stage, transform.findStage source = some stage ∧ target ∈ stage.nextStages

/-- The stage graph has no cycle. -/
def TransformDefinition.Acyclic (transform : TransformDefinition) : Prop :=
  ∀ stageId, ¬ Relation.TransGen transform.Leads stageId stageId

/-- Every way on from a stage ends. -/
def TransformDefinition.WaysEnd (transform : TransformDefinition) (stageId : String) : Prop :=
  Acc (fun target source => transform.Leads source target) stageId

namespace TransformDefinition

variable (transform : TransformDefinition)

/-! ### The checks of the schema -/

/-- `missionStageIdSchema`: a lower-case letter, then lower-case letters, digits or underscores. -/
def isMissionStageId (id : String) : Bool :=
  match id.toList with
  | [] => false
  | first :: rest => first.isLower && rest.all fun c => c.isLower || c.isDigit || c == '_'

/-- The ids of the stages, the keys of `stageIndexById`. -/
def stageIds : List String := transform.stages.map MissionStage.id

/-- `stageById`; of several stages with one id it holds the last one. -/
def stageById (stageId : String) : Option MissionStage :=
  transform.stages.reverse.find? fun stage => stage.id = stageId

/-- `getOutgoingStageIds`. -/
def getOutgoingStageIds (stageId : String) : List String :=
  match transform.stageById stageId with
  | none => []
  | some stage =>
    match stage.decision with
    | some decision => (decision.options.filterMap MissionDecisionOption.nextStage).eraseDups
    | none => (stage.nextStage.join.filter fun next => next ≠ "").toList

/-- The initial stage of the mission: the first one where none is declared. -/
def rootStage : Option String := transform.initialStage.or transform.stageIds.head?

/-- All stages that the search can come to. -/
def searchedStages (root : String) : List String :=
  root :: transform.stageIds.flatMap transform.getOutgoingStageIds

/-- `detectCycle`, from the initial stage. -/
def detectStageCycle (root : String) : Bool :=
  (DepthFirst.detectCycle transform.getOutgoingStageIds
    ((transform.searchedStages root).length + 1) root OrderedMap.empty).1

/-- `canTerminateFrom`. No path without repetition is longer than the stages and one more. -/
def canTerminateFrom : ℕ → String → List String → Bool
  | 0, _, _ => false
  | fuel + 1, stageId, seen =>
    if seen.contains stageId then false
    else
      match transform.stageById stageId with
      | none => false
      | some stage =>
        let terminates :=
          match stage.decision with
          | some decision => decision.options.any fun option => option.nextStage.isNone
          | none => stage.nextStage == some none
        terminates || (transform.getOutgoingStageIds stageId).any fun next =>
          canTerminateFrom fuel next (stageId :: seen)

/-- An issue of a transform: `reportTransformIssue`. -/
def issue (path : List PathSegment) (message : String) : ZodIssue := ZodIssue.custom path message

/-- The issues of fields that a mission has to declare. -/
def fieldIssues : List ZodIssue :=
  (if transform.stages = [] ∧ transform.duration.isNone then
    [issue [.name "duration"] "Mission transforms must declare a duration."] else []) ++
  (if transform.entityRequirements = [] then
    [issue [.name "entityRequirements"] "Mission transforms must declare entity requirements."]
    else []) ++
  (if transform.outcomes.isNone then
    [issue [.name "outcomes"] "Mission transforms must declare outcomes."] else [])

/-- The issues of stage ids that are declared twice. -/
def duplicateIssues : List ZodIssue :=
  transform.stages.zipIdx.filterMap fun stage =>
    let existing := transform.stageIds.idxOf stage.1.id
    if existing < stage.2 then
      some (issue [.name "stages", .index stage.2, .name "id"]
        ("Duplicate stage id \"" ++ stage.1.id ++ "\" also defined at index " ++
          toString existing ++ "."))
    else none

/-- The issue of an initial stage that does not exist. -/
def initialIssues : List ZodIssue :=
  transform.rootStage.toList.filterMap fun initialStage =>
    if initialStage ≠ "" ∧ initialStage ∉ transform.stageIds then
      some (issue [.name "initialStage"]
        ("Initial stage \"" ++ initialStage ++ "\" must reference a valid stage id."))
    else none

/-- The issue of a stage that is named and does not exist. -/
def referenceIssue (path : List PathSegment) (subject next : String) : Option ZodIssue :=
  if next ∈ transform.stageIds then none
  else some (issue (.name "stages" :: path) (subject ++ " nextStage \"" ++ next ++
    "\" must reference a valid stage id or null."))

/-- The issues of the stages that a stage names. -/
def referenceIssues (stage : MissionStage) (stageIndex : ℕ) : List ZodIssue :=
  match stage.decision with
  | some decision =>
    decision.options.zipIdx.filterMap fun option =>
      option.1.nextStage.bind (transform.referenceIssue
        [.index stageIndex, .name "decision", .name "options", .index option.2, .name "nextStage"]
        "Decision option")
  | none =>
    (stage.nextStage.join.bind
      (transform.referenceIssue [.index stageIndex, .name "nextStage"] "Stage")).toList

/-- The issue of a mission that may run forever, or never end. -/
def cycleIssues : List ZodIssue :=
  transform.rootStage.toList.filterMap fun root =>
    if root = "" then none
    else if transform.detectStageCycle root then
      some (issue [.name "stages"]
        "Multi-stage missions may not contain circular stage references.")
    else if !transform.canTerminateFrom (transform.stages.length + 1) root [] then
      some (issue [.name "stages"] ("Multi-stage missions must include at least one path that " ++
        "terminates (nextStage: null)."))
    else none

/-- `validateMissionTransform`. -/
def validateMissionTransform : List ZodIssue :=
  transform.fieldIssues ++
    if transform.stages = [] then []
    else
      transform.duplicateIssues ++ transform.initialIssues ++
        (transform.stages.zipIdx.flatMap fun stage => transform.referenceIssues stage.1 stage.2) ++
        transform.cycleIssues

/-- The schema accepts the stages of the mission. -/
structure SchemaValid : Prop where
  ids : ∀ stage ∈ transform.stages, isMissionStageId stage.id = true
  issues : transform.validateMissionTransform = []

variable {transform}

/-! ### What the checks say -/

section

variable (h : transform.SchemaValid)
include h

theorem SchemaValid.stageIssues (hstages : transform.stages ≠ []) :
    transform.duplicateIssues = [] ∧ transform.cycleIssues = [] := by
  have hissues := h.issues
  rw [validateMissionTransform, if_neg hstages] at hissues
  simp only [append_eq_nil_iff] at hissues
  exact ⟨hissues.2.1.1.1, hissues.2.2⟩

theorem SchemaValid.nodup : transform.stageIds.Nodup := by
  by_cases hstages : transform.stages = []
  · rw [stageIds, hstages]
    exact nodup_nil
  have hnone := (h.stageIssues hstages).1
  rw [duplicateIssues, filterMap_eq_nil_iff] at hnone
  rw [List.Nodup, pairwise_iff_getElem]
  intro i j hi hj hlt heq
  have hj' : j < transform.stages.length := by simpa [stageIds] using hj
  have hid : transform.stages[j].id = transform.stageIds[j] := by simp [stageIds]
  have hmem : (transform.stages[j], j) ∈ transform.stages.zipIdx := by
    rw [mem_zipIdx_iff_getElem?]
    exact getElem?_eq_getElem hj'
  -- the id was declared before, so that its second declaration is an issue
  have hfirst : transform.stageIds.idxOf transform.stageIds[i] ≤ i := by
    by_contra hnot
    have hother := not_of_lt_findIdx (Nat.lt_of_not_le hnot)
    simp at hother
  have hissue := hnone _ hmem
  rw [hid, ← heq, if_pos (by omega)] at hissue
  cases hissue

theorem SchemaValid.stageById_eq (stageId : String) :
    transform.stageById stageId = transform.findStage stageId := by
  rw [stageById, findStage]
  have hnodup := h.nodup
  rw [stageIds] at hnodup
  generalize transform.stages = stages at hnodup
  cases hfind : stages.find? fun stage => stage.id = stageId with
  | none =>
    rw [find?_eq_none] at hfind ⊢
    exact fun stage hstage => hfind stage (mem_reverse.mp hstage)
  | some stage =>
    cases hlast : stages.reverse.find? fun stage => stage.id = stageId with
    | none =>
      rw [find?_eq_none] at hlast
      exact absurd (find?_some hfind)
        (hlast stage (mem_reverse.mpr (mem_of_find?_eq_some hfind)))
    | some last =>
      have hid : stage.id = last.id := by
        have h₁ := find?_some hfind
        have h₂ := find?_some hlast
        simp only [decide_eq_true_eq] at h₁ h₂
        rw [h₁, h₂]
      have hmem := mem_reverse.mp (mem_of_find?_eq_some hlast)
      rw [inj_on_of_nodup_map hnodup hmem (mem_of_find?_eq_some hfind) hid.symm]

theorem SchemaValid.findStage_empty : transform.findStage "" = none := by
  rw [findStage, find?_eq_none]
  intro stage hstage hid
  have hvalid := h.ids stage hstage
  rw [of_decide_eq_true hid] at hvalid
  cases hvalid

theorem SchemaValid.edge_of_leads {source target : String}
    (hleads : transform.Leads source target) :
    DepthFirst.Edge transform.getOutgoingStageIds source target ∨ target = "" := by
  obtain ⟨stage, hfind, htarget⟩ := hleads
  by_cases hempty : target = ""
  · exact .inr hempty
  refine .inl ?_
  rw [DepthFirst.Edge, getOutgoingStageIds, h.stageById_eq, hfind]
  rw [MissionStage.nextStages] at htarget
  dsimp only
  cases hdecision : stage.decision with
  | some decision =>
    rw [hdecision] at htarget
    simpa using htarget
  | none =>
    rw [hdecision] at htarget
    dsimp only at htarget ⊢
    rw [Option.mem_toList] at htarget ⊢
    rw [htarget, Option.filter_some, if_pos (by simpa using hempty)]

end

theorem searchedStages_closed {root source : String} {target : String}
    (hedge : DepthFirst.Edge transform.getOutgoingStageIds source target) :
    target ∈ transform.searchedStages root := by
  have hsource : source ∈ transform.stageIds := by
    rw [DepthFirst.Edge, getOutgoingStageIds] at hedge
    cases hfind : transform.stageById source with
    | none =>
      rw [hfind] at hedge
      cases hedge
    | some stage =>
      have hid : stage.id = source := by
        have hsome := find?_some hfind
        simpa using hsome
      exact hid ▸ mem_map_of_mem (mem_reverse.mp (mem_of_find?_eq_some hfind))
  exact mem_cons_of_mem _ (mem_flatMap.mpr ⟨source, hsource, hedge⟩)

/-- **Where the schema accepts a mission, every way on from its initial stage ends.** -/
theorem SchemaValid.ends (h : transform.SchemaValid) {root : String}
    (hroot : transform.rootStage = some root) : transform.WaysEnd root := by
  by_cases hstages : transform.stages = []
  · refine Acc.intro root fun target hleads => ?_
    obtain ⟨stage, hfind, -⟩ := hleads
    rw [findStage, hstages] at hfind
    cases hfind
  by_cases hempty : root = ""
  · refine Acc.intro root fun target hleads => ?_
    obtain ⟨stage, hfind, -⟩ := hleads
    rw [hempty, h.findStage_empty] at hfind
    cases hfind
  have hnocycle : transform.detectStageCycle root = false := by
    have hnone := (h.stageIssues hstages).2
    rw [cycleIssues, hroot, filterMap_eq_nil_iff] at hnone
    have hroot := hnone root (by simp)
    rw [if_neg hempty] at hroot
    cases hcycle : transform.detectStageCycle root with
    | false => rfl
    | true =>
      rw [if_pos hcycle] at hroot
      cases hroot
  have hends : DepthFirst.Ends transform.getOutgoingStageIds root := by
    rcases DepthFirst.detectCycle_cases (mem_cons_self (a := root))
      (fun source _ target hedge => transform.searchedStages_closed hedge)
      (Nat.lt_succ_self _) with ⟨hfound, -⟩ | ⟨-, hends⟩
    · exact absurd (hnocycle.symm.trans hfound) Bool.false_ne_true
    · exact hends
  clear hnocycle hempty hroot
  induction hends with
  | intro source _ ih =>
    refine Acc.intro source fun target hleads => ?_
    rcases h.edge_of_leads hleads with hedge | rfl
    · exact ih target hedge
    · refine Acc.intro "" fun target hleads => ?_
      obtain ⟨stage, hfind, -⟩ := hleads
      rw [h.findStage_empty] at hfind
      cases hfind

/-- **In a stage graph without cycles every way on ends.** -/
theorem Acyclic.waysEnd (h : transform.Acyclic) (stageId : String) : transform.WaysEnd stageId := by
  -- only the stages of the mission lead anywhere, and there are finitely many of them
  have hleads : ∀ {source target}, transform.Leads source target → source ∈ transform.stageIds := by
    rintro source target ⟨stage, hfind, -⟩
    have hid : stage.id = source := by simpa using find?_some hfind
    exact hid ▸ mem_map_of_mem (mem_of_find?_eq_some hfind)
  have hmember : ∀ source : transform.stageIds.toFinset, transform.WaysEnd source.1 := by
    have : IsTrans transform.stageIds.toFinset fun target source =>
        Relation.TransGen transform.Leads source.1 target.1 :=
      ⟨fun _ _ _ h₁ h₂ => h₂.trans h₁⟩
    have : Std.Irrefl fun target source : transform.stageIds.toFinset =>
        Relation.TransGen transform.Leads source.1 target.1 :=
      ⟨fun source => h source.1⟩
    intro source
    induction Finite.wellFounded_of_trans_of_irrefl (fun target source =>
      Relation.TransGen transform.Leads source.1 target.1) |>.apply source with
    | intro source _ ih =>
      refine Acc.intro source.1 fun target hedge => ?_
      by_cases htarget : target ∈ transform.stageIds
      · exact ih ⟨target, mem_toFinset.mpr htarget⟩ (.single hedge)
      · exact Acc.intro target fun next hnext => absurd (hleads hnext) htarget
  by_cases hstage : stageId ∈ transform.stageIds
  · exact hmember ⟨stageId, mem_toFinset.mpr hstage⟩
  · exact Acc.intro stageId fun next hnext => absurd (hleads hnext) hstage

theorem WaysEnd.of_leads {source target : String} (h : transform.WaysEnd source)
    (hleads : Relation.ReflTransGen transform.Leads source target) : transform.WaysEnd target := by
  induction hleads with
  | refl => exact h
  | tail _ hlast ih => exact Acc.inv ih hlast

end TransformDefinition

end IdleEngine
