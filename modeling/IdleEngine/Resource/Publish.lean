import IdleEngine.Resource.Mutators

/-!
# Publishing

A publish writes the standby buffer and makes it the active one. The rows the last publish
copied are brought over from the active buffer, then the scratch indices whose live row differs
from the active one are copied from the live rows and listed as dirty. The tick delta is not
brought over; it is zeroed at every index either pass visits, and nowhere else.

`createPublishSnapshot_spec` says in one place what a publish leaves behind.
-/

namespace IdleEngine

open Overwrite ResourceState

variable {n : ℕ}

/-- The position table's entry for an index a publish has visited. -/
def scratchVisited : ℤ := -2

/-- The standby row with its tick delta zeroed. -/
def zeroTickDelta (row : ResourceRow) : ResourceRow := { row with tickDelta := 0 }

/-- The copy of a published row: everything but the tick delta. -/
def copyPublished (source target : ResourceRow) : ResourceRow :=
  { source with tickDelta := target.tickDelta, flags := source.flags.clearDirty }

/-- A row with its dirty bit cleared. -/
def ResourceRow.clearDirty (row : ResourceRow) : ResourceRow :=
  { row with flags := row.flags.clearDirty }

/-- `copyLiveToPublish`. -/
def copyLiveToPublish (live : ResourceRow) : ResourceRow := live.clearDirty

/-- The publish pass over the position table: the indices visited, the table and the rows of the
standby buffer. -/
structure VisitState (n : ℕ) where
  visited : List (Fin n)
  positions : Fin n → ℤ
  rows : Fin n → ResourceRow

/-- `visitIndex`, with the tick delta zeroed on the first visit. -/
def VisitState.visit (v : VisitState n) (index : Fin n) : VisitState n :=
  if v.positions index = scratchVisited then v
  else
    { visited := v.visited ++ [index]
      positions := Function.update v.positions index scratchVisited
      rows := Function.update v.rows index (zeroTickDelta (v.rows index)) }

/-- `processCurrentDirtyIndices`: the rows copied from the live ones, and their indices. -/
def processCurrentDirtyIndices (s : ResourceState n) (source : PublishBuffer n)
    (target : Fin n → ResourceRow) : PublishBuffer n :=
  s.dirtyIndexScratch.dense.foldl
    (fun target index =>
      if s.isIndexDirtyAgainstPublish source index then
        { rows := Function.update target.rows index (copyLiveToPublish (s.live index))
          dirtyIndices := target.dirtyIndices ++ [index] }
      else target) { rows := target, dirtyIndices := [] }

/-- The dirty bits of rows, cleared at the listed indices. -/
def clearDirtyBits (rows : Fin n → ResourceRow) (indices : List (Fin n)) : Fin n → ResourceRow :=
  overwrite (fun _ row => row.clearDirty) indices rows

/-- `createPublishSnapshot`: the store afterwards. The snapshot it returns is a view of the
active buffer it leaves. -/
def ResourceState.createPublishSnapshot (s : ResourceState n) : ResourceState n :=
  let source := s.active
  let start : VisitState n :=
    { visited := [], positions := s.dirtyIndexScratch.position, rows := s.standby.rows }
  let v := (source.dirtyIndices ++ s.dirtyIndexScratch.dense).foldl VisitState.visit start
  let copied := overwrite (fun i row => copyPublished (source.rows i) row)
    source.dirtyIndices v.rows
  let target := processCurrentDirtyIndices s source copied
  { s with
    live := clearDirtyBits s.live v.visited
    publish := Function.update s.publish (!s.activePublishIndex)
      { target with rows := clearDirtyBits target.rows v.visited }
    activePublishIndex := !s.activePublishIndex
    dirtyIndexScratch :=
      { dense := []
        position := overwrite (fun _ _ => SparseSet.unset) v.visited v.positions }
    publishGuardState := .published }

/-! ### What a publish does -/

/-- The visits collect the listed indices and zero their tick deltas. -/
theorem visit_foldl (l : List (Fin n)) (v : VisitState n)
    (hv : ∀ i, v.positions i = scratchVisited ↔ i ∈ v.visited) (i : Fin n) :
    let w := l.foldl VisitState.visit v
    (i ∈ w.visited ↔ i ∈ v.visited ∨ i ∈ l) ∧
      w.positions i = (if i ∈ l then scratchVisited else v.positions i) ∧
      w.rows i = if i ∈ l ∧ i ∉ v.visited then zeroTickDelta (v.rows i) else v.rows i := by
  induction l generalizing v with
  | nil => simp
  | cons j l ih =>
    by_cases hj : v.positions j = scratchVisited
    · -- a repeated visit changes nothing
      have hstep : (j :: l).foldl VisitState.visit v = l.foldl VisitState.visit v := by
        simp [VisitState.visit, hj]
      obtain ⟨hmem, hposition, hrow⟩ := ih v hv
      rw [hstep]
      have hjv := (hv j).mp hj
      by_cases hij : i = j
      · subst hij
        refine ⟨by simp [hmem, hjv], ?_, ?_⟩
        · rw [hposition]
          simp [hj]
        · rw [hrow]
          simp [hjv]
      · exact ⟨by simp [hmem, hij], by simp [hposition, hij], by simp [hrow, hij]⟩
    · have hjv : j ∉ v.visited := fun h => hj ((hv j).mpr h)
      have hvisit : VisitState.visit v j =
          { visited := v.visited ++ [j]
            positions := Function.update v.positions j scratchVisited
            rows := Function.update v.rows j (zeroTickDelta (v.rows j)) } := if_neg hj
      have hv' : ∀ i, (VisitState.visit v j).positions i = scratchVisited ↔
          i ∈ (VisitState.visit v j).visited := by
        intro i
        rw [hvisit]
        by_cases hij : i = j
        · subst hij
          simp
        · simp [hij, hv i]
      obtain ⟨hmem, hposition, hrow⟩ := ih (VisitState.visit v j) hv'
      rw [List.foldl_cons]
      rw [hvisit] at hmem hposition hrow ⊢
      by_cases hij : i = j
      · subst hij
        refine ⟨by simp [hmem], ?_, ?_⟩
        · simp [hposition]
        · simp [hrow, hjv]
      · refine ⟨by simp [hmem, hij], ?_, ?_⟩
        · simp [hposition, hij]
        · simp [hrow, hij]

theorem processCurrentDirtyIndices_spec (s : ResourceState n) (source : PublishBuffer n)
    (target : Fin n → ResourceRow) :
    (processCurrentDirtyIndices s source target).dirtyIndices =
        s.dirtyIndexScratch.dense.filter (s.isIndexDirtyAgainstPublish source) ∧
      ∀ i, (processCurrentDirtyIndices s source target).rows i =
        if i ∈ s.dirtyIndexScratch.dense ∧ s.isIndexDirtyAgainstPublish source i = true then
          copyLiveToPublish (s.live i)
        else target i := by
  have hloop : ∀ (l : List (Fin n)) (b : PublishBuffer n),
      let out := l.foldl (fun target index =>
        if s.isIndexDirtyAgainstPublish source index then
          ({ rows := Function.update target.rows index (copyLiveToPublish (s.live index))
             dirtyIndices := target.dirtyIndices ++ [index] } : PublishBuffer n)
        else target) b
      out.dirtyIndices = b.dirtyIndices ++ l.filter (s.isIndexDirtyAgainstPublish source) ∧
        ∀ i, out.rows i =
          if i ∈ l ∧ s.isIndexDirtyAgainstPublish source i = true then
            copyLiveToPublish (s.live i)
          else b.rows i := by
    intro l
    induction l with
    | nil => simp
    | cons j l ih =>
      intro b
      by_cases hj : s.isIndexDirtyAgainstPublish source j = true
      · obtain ⟨hlist, hrows⟩ := ih
          { rows := Function.update b.rows j (copyLiveToPublish (s.live j))
            dirtyIndices := b.dirtyIndices ++ [j] }
        simp only [List.foldl_cons, hj, if_true]
        refine ⟨by simp [hlist, hj], fun i => ?_⟩
        rw [hrows]
        by_cases hij : i = j
        · subst hij
          simp [hj]
        · simp [hij]
      · obtain ⟨hlist, hrows⟩ := ih b
        simp only [List.foldl_cons, hj, if_false, Bool.false_eq_true]
        refine ⟨by simp [hlist, hj], fun i => ?_⟩
        rw [hrows]
        by_cases hij : i = j
        · subst hij
          simp [hj]
        · simp [hij]
  simpa [processCurrentDirtyIndices] using
    hloop s.dirtyIndexScratch.dense { rows := target, dirtyIndices := [] }

/-- The scratch is well formed and the live dirty bits are its members. -/
structure ResourceState.Scratched (s : ResourceState n) : Prop where
  valid : s.dirtyIndexScratch.Valid
  dirty_iff : ∀ i, (s.live i).flags.dirtyThisTick = true ↔ i ∈ s.dirtyIndexScratch.dense

/-- The indices a publish copies from the live rows. -/
def ResourceState.Copied (s : ResourceState n) (i : Fin n) : Prop :=
  i ∈ s.dirtyIndexScratch.dense ∧ s.isIndexDirtyAgainstPublish s.active i = true

instance (s : ResourceState n) (i : Fin n) : Decidable (s.Copied i) :=
  inferInstanceAs (Decidable (_ ∧ _))

/-- The indices a publish visits: those the last one copied and those in the scratch. -/
def ResourceState.Visited (s : ResourceState n) (i : Fin n) : Prop :=
  i ∈ s.active.dirtyIndices ∨ i ∈ s.dirtyIndexScratch.dense

instance (s : ResourceState n) (i : Fin n) : Decidable (s.Visited i) :=
  inferInstanceAs (Decidable (_ ∨ _))

/-- The row a publish leaves at an index. -/
def ResourceState.publishedRow (s : ResourceState n) (i : Fin n) : ResourceRow :=
  if s.Copied i then copyLiveToPublish (s.live i)
  else if i ∈ s.active.dirtyIndices then
    (zeroTickDelta (s.active.rows i)).clearDirty
  else if i ∈ s.dirtyIndexScratch.dense then (zeroTickDelta (s.standby.rows i)).clearDirty
  else s.standby.rows i

/-- The state a publish leaves. -/
structure Publishes (s s' : ResourceState n) : Prop where
  ids : s'.ids = s.ids
  precision : s'.precision = s.precision
  live : ∀ i, s'.live i = copyLiveToPublish (s.live i)
  active_rows : ∀ i, s'.active.rows i = s.publishedRow i
  active_dirty : s'.active.dirtyIndices =
    s.dirtyIndexScratch.dense.filter (s.isIndexDirtyAgainstPublish s.active)
  standby : s'.standby = s.active
  scratch : s'.dirtyIndexScratch = SparseSet.empty
  guard : s'.publishGuardState = .published

theorem ResourceRow.clearDirty_of_clean {row : ResourceRow}
    (h : row.flags.dirtyThisTick = false) : row.clearDirty = row := by
  obtain ⟨_, _, _, _, _, _, ⟨_, _, _⟩, _⟩ := row
  simp only at h
  subst h
  rfl

/-- The visited indices are those the last publish copied and those in the scratch. -/
private theorem visited_spec {s : ResourceState n} (hs : s.Scratched) (i : Fin n) :
    let v := (s.active.dirtyIndices ++ s.dirtyIndexScratch.dense).foldl VisitState.visit
      { visited := [], positions := s.dirtyIndexScratch.position, rows := s.standby.rows }
    (i ∈ v.visited ↔ i ∈ s.active.dirtyIndices ∨ i ∈ s.dirtyIndexScratch.dense) ∧
      v.positions i = (if i ∈ s.active.dirtyIndices ∨ i ∈ s.dirtyIndexScratch.dense then
        scratchVisited else SparseSet.unset) ∧
      v.rows i = if i ∈ s.active.dirtyIndices ∨ i ∈ s.dirtyIndexScratch.dense then
        zeroTickDelta (s.standby.rows i) else s.standby.rows i := by
  have hstart : ∀ i, s.dirtyIndexScratch.position i = scratchVisited ↔
      i ∈ ([] : List (Fin n)) := by
    intro i
    simp only [List.not_mem_nil, iff_false]
    by_cases hi : i ∈ s.dirtyIndexScratch.dense
    · have := hs.valid.position_nonneg_iff.mpr hi
      simp only [scratchVisited]
      omega
    · rw [hs.valid.unset_of_not_mem i hi]
      decide
  obtain ⟨hmem, hposition, hrow⟩ := visit_foldl
    (s.active.dirtyIndices ++ s.dirtyIndexScratch.dense)
    { visited := [], positions := s.dirtyIndexScratch.position, rows := s.standby.rows } hstart i
  refine ⟨by simpa using hmem, ?_, by simpa using hrow⟩
  rw [hposition]
  by_cases hi : i ∈ s.dirtyIndexScratch.dense
  · simp [hi]
  · simp [hi, hs.valid.unset_of_not_mem i hi]

/-- **Publish.** The whole effect of a publish, row by row. -/
theorem createPublishSnapshot_spec {s : ResourceState n} (hs : s.Scratched) :
    Publishes s s.createPublishSnapshot := by
  have hvisited := visited_spec hs
  simp only at hvisited
  have hclear : ∀ (rows : Fin n → ResourceRow) (l : List (Fin n)) i,
      clearDirtyBits rows l i = if i ∈ l then (rows i).clearDirty else rows i := by
    intro rows l i
    rw [clearDirtyBits]
    exact overwrite_apply (g := fun _ row => row.clearDirty) (fun _ _ => rfl) l rows i
  have hcopied : ∀ (rows : Fin n → ResourceRow) i,
      overwrite (fun i row => copyPublished (s.active.rows i) row) s.active.dirtyIndices rows i =
        if i ∈ s.active.dirtyIndices then copyPublished (s.active.rows i) (rows i) else rows i :=
    fun rows i => overwrite_apply (g := fun i row => copyPublished (s.active.rows i) row)
      (fun _ _ => rfl) _ rows i
  refine ⟨rfl, rfl, fun i => ?_, fun i => ?_, ?_, ?_, ?_, rfl⟩
  · simp only [createPublishSnapshot, hclear, (hvisited i).1, copyLiveToPublish]
    split
    · rfl
    · next hi =>
      have hclean : (s.live i).flags.dirtyThisTick = false := by
        simpa using mt (hs.dirty_iff i).mp fun h => hi (.inr h)
      exact (ResourceRow.clearDirty_of_clean hclean).symm
  · have hactive : s.createPublishSnapshot.active.rows = clearDirtyBits
        (processCurrentDirtyIndices s s.active (overwrite
          (fun i row => copyPublished (s.active.rows i) row) s.active.dirtyIndices
          ((s.active.dirtyIndices ++ s.dirtyIndexScratch.dense).foldl VisitState.visit
            { visited := [], positions := s.dirtyIndexScratch.position,
              rows := s.standby.rows }).rows)).rows
        ((s.active.dirtyIndices ++ s.dirtyIndexScratch.dense).foldl VisitState.visit
          { visited := [], positions := s.dirtyIndexScratch.position,
            rows := s.standby.rows }).visited := by
      simp only [createPublishSnapshot, active, Function.update_self]
    rw [hactive, hclear, (processCurrentDirtyIndices_spec s _ _).2, hcopied, (hvisited i).2.2,
      publishedRow]
    simp only [(hvisited i).1]
    -- whether a row was published, is marked now and has changed decides what is copied
    by_cases hdirty : i ∈ s.active.dirtyIndices <;>
      by_cases hdense : i ∈ s.dirtyIndexScratch.dense <;>
      by_cases hcopy : s.isIndexDirtyAgainstPublish s.active i = true <;>
      simp [ResourceState.Copied, hdirty, hdense, hcopy, copyPublished, copyLiveToPublish,
        zeroTickDelta, ResourceRow.clearDirty, ResourceFlags.clearDirty]
  · simp only [createPublishSnapshot, active, Function.update_self]
    exact (processCurrentDirtyIndices_spec s _ _).1
  · simp [createPublishSnapshot, standby, active]
  · simp only [createPublishSnapshot, SparseSet.empty, SparseSet.mk.injEq, true_and]
    funext i
    rw [overwrite_apply (g := fun _ _ => SparseSet.unset) (fun _ _ => rfl), (hvisited i).2.1]
    simp only [(hvisited i).1]
    split <;> rfl

end IdleEngine
