import IdleEngine.Lib.Outcome
import IdleEngine.Resource.Writes

/-!
# The two publish buffers

`Coherent` relates the buffers: apart from the tick delta, the standby row of an index is the
active row unless the last publish listed the index. That is what lets a publish bring over only
the listed rows, and it survives every operation between publishes because none touches the
buffers.
-/

namespace IdleEngine

open ResourceState

variable {n : ℕ}

/-- The invariant of the publish buffers and the scratch. -/
structure Coherent (s : ResourceState n) : Prop where
  scratched : s.Scratched
  published_clean : ∀ b i, ((s.publish b).rows i).flags.dirtyThisTick = false
  standby_agrees : ∀ i, i ∉ s.active.dirtyIndices →
    zeroTickDelta (s.standby.rows i) = zeroTickDelta (s.active.rows i)
  dirty_nodup : s.active.dirtyIndices.Nodup

variable {s s' : ResourceState n}

theorem Coherent.of_frame (h : Coherent s) (hframe : SameFrame s s') (hscratched : s'.Scratched) :
    Coherent s' where
  scratched := hscratched
  published_clean := by
    rw [hframe.publish]
    exact h.published_clean
  standby_agrees := by
    rw [hframe.active, hframe.standby]
    exact h.standby_agrees
  dirty_nodup := by
    rw [hframe.active]
    exact h.dirty_nodup

theorem Coherent.active_clean (h : Coherent s) (i : Fin n) :
    (s.active.rows i).clearDirty = s.active.rows i :=
  ResourceRow.clearDirty_of_clean (h.published_clean _ i)

theorem Coherent.standby_clean (h : Coherent s) (i : Fin n) :
    (s.standby.rows i).clearDirty = s.standby.rows i :=
  ResourceRow.clearDirty_of_clean (h.published_clean _ i)

theorem Publishes.mem_active_dirty (h : Publishes s s') (i : Fin n) :
    i ∈ s'.active.dirtyIndices ↔ s.Copied i := by
  rw [h.active_dirty, List.mem_filter]
  exact Iff.rfl

/-- Apart from the tick delta a publish leaves the live row where it copied, and the active row
elsewhere. -/
theorem Coherent.publishedRow_untimed (h : Coherent s) (i : Fin n) :
    zeroTickDelta (s.publishedRow i) =
      zeroTickDelta (if s.Copied i then (s.live i).clearDirty else s.active.rows i) := by
  have hzero : ∀ row : ResourceRow,
      zeroTickDelta (zeroTickDelta row).clearDirty = zeroTickDelta row.clearDirty := fun _ => rfl
  by_cases hcopied : s.Copied i
  · simp only [publishedRow, if_pos hcopied, copyLiveToPublish]
  · simp only [publishedRow, if_neg hcopied]
    split
    · rw [hzero, h.active_clean]
    · next hlisted =>
      split
      · rw [hzero, h.standby_clean]
        exact h.standby_agrees i hlisted
      · exact h.standby_agrees i hlisted

theorem Coherent.publishedRow_clean (h : Coherent s) (i : Fin n) :
    (s.publishedRow i).flags.dirtyThisTick = false := by
  unfold publishedRow
  split
  · rfl
  · split
    · rfl
    · split
      · rfl
      · exact h.published_clean _ i

theorem publish_cases {P : PublishBuffer n → Prop} (hactive : P s.active) (hstandby : P s.standby)
    (b : Bool) : P (s.publish b) := by
  by_cases hb : b = s.activePublishIndex
  · subst hb
    exact hactive
  · have hb' : b = !s.activePublishIndex := by
      cases b <;> cases hs : s.activePublishIndex <;> simp_all
    subst hb'
    exact hstandby

theorem scratched_empty (hscratch : s.dirtyIndexScratch = SparseSet.empty)
    (hlive : ∀ i, (s.live i).flags.dirtyThisTick = false) : s.Scratched where
  valid := by
    rw [hscratch]
    exact SparseSet.valid_empty
  dirty_iff := by
    intro i
    simp [hlive i, hscratch, SparseSet.empty]

/-- **Publishing keeps the buffers coherent.** -/
theorem Coherent.publish (h : Coherent s) :
    Coherent s.createPublishSnapshot := by
  have hp := createPublishSnapshot_spec h.scratched
  refine ⟨scratched_empty hp.scratch fun i => ?_, fun b => ?_, fun i hi => ?_, ?_⟩
  · rw [hp.live]
    rfl
  · refine publish_cases (P := fun buffer => ∀ i, (buffer.rows i).flags.dirtyThisTick = false)
      (fun i => ?_) ?_ b
    · rw [hp.active_rows]
      exact h.publishedRow_clean i
    · rw [hp.standby]
      exact h.published_clean _
  · rw [hp.mem_active_dirty] at hi
    rw [hp.standby, hp.active_rows, h.publishedRow_untimed, if_neg hi]
  · rw [hp.active_dirty]
    exact h.scratched.valid.nodup.filter _

/-! ### Operations between publishes -/

/-- What an operation between publishes does: it leaves the buffers alone and keeps them
coherent with the scratch. -/
structure Unpublished (s s' : ResourceState n) : Prop where
  coherent : Coherent s'
  frame : SameFrame s s'

theorem Coherent.unpublished (h : Coherent s) : Unpublished s s :=
  ⟨h, SameFrame.refl s⟩

theorem Unpublished.trans {s₁ s₂ s₃ : ResourceState n} (h₁ : Unpublished s₁ s₂)
    (h₂ : Unpublished s₂ s₃) : Unpublished s₁ s₃ :=
  ⟨h₂.coherent, h₁.frame.trans h₂.frame⟩

theorem Coherent.unpublished_of (h : Coherent s) (hframe : SameFrame s s')
    (hscratched : s'.Scratched) : Unpublished s s' :=
  ⟨h.of_frame hframe hscratched, hframe⟩

/-- Any flag write is allowed. -/
def anyFlags (_ : ResourceState n) (_ : Fin n) (_ : ResourceFlags) : Prop := True

section

variable (h : Coherent s)
include h

theorem Coherent.writes {A : ResourceState n → Fin n → ResourceFlags → Prop} {i : Fin n} (hwrites : WritesAt A i s s') : Unpublished s s' :=
  have hsteps := hwrites.steps h.scratched
  h.unpublished_of hsteps.frame hsteps.scratched

theorem Coherent.finalizeAll (deltaMs : ℚ) : Unpublished s (s.finalizeAll deltaMs) := by
  have hloop : Unpublished s ((List.finRange n).foldl
      (fun s i => s.finalizeIndex (deltaMs / 1000) i) s) :=
    List.foldlRecOn _ _ h.unpublished fun _ ht i _ =>
      ht.trans (ht.coherent.writes (finalizeIndex_writes (A := anyFlags) _ _ i))
  have hscratched := hloop.coherent.scratched
  exact hloop.trans (hloop.coherent.unpublished_of ⟨rfl, rfl, rfl, rfl⟩
    ⟨hscratched.valid, hscratched.dirty_iff⟩)

theorem Coherent.zeroRates : Unpublished s s.zeroRates :=
  h.unpublished_of ⟨rfl, rfl, rfl, rfl⟩ ⟨h.scratched.valid, h.scratched.dirty_iff⟩

theorem Coherent.clearDirtyScratch : Unpublished s s.clearDirtyScratch :=
  h.unpublished_of ⟨rfl, rfl, rfl, rfl⟩ (scratched_empty rfl fun _ => rfl)

theorem Coherent.guard (guard : PublishGuardState) :
    Unpublished s { s with publishGuardState := guard } :=
  h.unpublished_of ⟨rfl, rfl, rfl, rfl⟩ ⟨h.scratched.valid, h.scratched.dirty_iff⟩

/-- **Step lemma.** No operation between publishes touches the buffers, and each keeps them
coherent. -/
theorem Coherent.call (c : ResourceCall n) : Unpublished s (s.call c) := by
  cases c with
  | mutate m => exact h.writes (mutate_writes (A := anyFlags) s m fun _ _ => trivial)
  | finalizeTick deltaMs =>
    simp only [ResourceState.call, ResourceState.finalizeTick]
    split
    · exact h.unpublished
    · split
      · exact h.unpublished
      · exact h.finalizeAll _
  | resetPerTickAccumulators =>
    simp only [ResourceState.call, ResourceState.resetPerTickAccumulators]
    split
    · exact h.zeroRates.trans (h.zeroRates.coherent.guard _)
    · exact h.unpublished
  | clearDirtyScratch => exact h.clearDirtyScratch
  | forceClearDirtyState =>
    have hclear := h.clearDirtyScratch
    have hzero := hclear.trans hclear.coherent.zeroRates
    exact hzero.trans (hzero.coherent.guard _)

/-- **Run lemma.** -/
theorem Coherent.calls (calls : List (ResourceCall n)) :
    Unpublished s (calls.foldl ResourceState.call s) :=
  List.foldlRecOn _ _ h.unpublished fun _ ht c _ => ht.trans (ht.coherent.call c)

end

/-! ### New stores -/

theorem coherent_initial (ids : Fin n → String) (precision : Precision)
    (rows : Fin n → ResourceRow) (hrows : ∀ i, (rows i).flags.dirtyThisTick = false) :
    Coherent (initial ids precision rows) where
  scratched := scratched_empty rfl hrows
  published_clean := fun _ => hrows
  standby_agrees := fun _ _ => rfl
  dirty_nodup := List.nodup_nil

variable {precision : Precision}

theorem sanitizeDefinition_row {definition : ResourceDefinition} {row : ResourceRow}
    (h : sanitizeDefinition precision definition = .ok row) :
    row.flags.dirtyThisTick = false ∧ row.dirtyTolerance ≤ precision.dirtyEpsilonOverrideMax := by
  unfold sanitizeDefinition at h
  split at h
  · cases h
  · split at h
    · cases h
    · obtain rfl := Except.ok.inj h
      exact ⟨rfl, precision.clampDirtyTolerance_le _⟩

/-- What a store that was created starts with. -/
theorem createResourceState_eq {definitions : Fin n → ResourceDefinition}
    (h : createResourceState definitions precision = .ok s) :
    ∃ rows, s = initial (fun i => (definitions i).id) precision rows ∧
      ∀ i, sanitizeDefinition precision (definitions i) = .ok (rows i) := by
  unfold createResourceState at h
  split at h
  · cases h
  · split at h
    · cases h
    · next rows hrows =>
      refine ⟨_, (Except.ok.inj h).symm, fun i => ?_⟩
      have hi : (List.ofFn definitions)[(i : ℕ)]? = some (definitions i) := by
        rw [List.getElem?_ofFn, dif_pos i.isLt]
      obtain ⟨row, hrow, hsanitized⟩ := Outcome.mapM_getElem? hrows hi
      rw [List.getD_eq_getElem?_getD, hrow]
      exact hsanitized

theorem coherent_create {definitions : Fin n → ResourceDefinition}
    (h : createResourceState definitions precision = .ok s) :
    Coherent s := by
  obtain ⟨rows, rfl, hrows⟩ := createResourceState_eq h
  exact coherent_initial _ precision rows fun i => (sanitizeDefinition_row (hrows i)).1

end IdleEngine
