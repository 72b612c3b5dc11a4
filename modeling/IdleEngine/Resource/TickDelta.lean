import IdleEngine.Resource.Tick

/-!
# Published tick deltas

The tick delta is the one column a publish does not bring over from the last snapshot: the buffer
it writes still holds the deltas of the publish before last, and they are zeroed only where the
last publish listed the index or the scratch holds it. An index that is in neither keeps the old
delta, so a resource that moved once and then rests for two ticks is published as moving again.

`tickDeltas_agree_iff` says for which runs the published deltas are the live ones.
-/

namespace IdleEngine

open ResourceState

variable {n : ℕ}

/-- A published tick delta agrees with the live one, and is zero where nothing changed. -/
structure DeltaAgrees (p : Precision) (live published : ResourceRow) : Prop where
  close : RowField.tickDelta.closeIn p live published = true
  unchanged : live.tickDelta = 0 → published.tickDelta = 0

theorem DeltaAgrees.congr {p : Precision} {live published published' : ResourceRow}
    (h : published.tickDelta = published'.tickDelta) :
    DeltaAgrees p live published ↔ DeltaAgrees p live published' := by
  have hclose : RowField.tickDelta.closeIn p live published =
      RowField.tickDelta.closeIn p live published' := by
    simp only [RowField.closeIn, RowField.tickDelta, RowField.number, h]
  constructor
  · rintro ⟨hagrees, hzero⟩
    exact ⟨hclose ▸ hagrees, h ▸ hzero⟩
  · rintro ⟨hagrees, hzero⟩
    exact ⟨hclose ▸ hagrees, h ▸ hzero⟩

/-- The delta an index is left with when its row is not copied: zero where the publish visits it,
else the delta of the publish before last. -/
def uncopiedDelta (s : ResourceState n) (i : Fin n) : ℚ :=
  if s.Visited i then 0 else (s.standby.rows i).tickDelta

/-- The delta left at an index agrees with the live one. -/
def DeltaFresh (s : ResourceState n) (i : Fin n) : Prop :=
  DeltaAgrees s.precision (s.live i) { s.live i with tickDelta := uncopiedDelta s i }

theorem publishedRow_tickDelta {s : ResourceState n} {i : Fin n} (h : ¬ s.Copied i) :
    (s.publishedRow i).tickDelta = uncopiedDelta s i := by
  rw [publishedRow, if_neg h, uncopiedDelta]
  by_cases hlisted : i ∈ s.active.dirtyIndices
  · simp [Visited, hlisted, zeroTickDelta, ResourceRow.clearDirty]
  · by_cases hdense : i ∈ s.dirtyIndexScratch.dense <;>
      simp [Visited, hlisted, hdense, zeroTickDelta, ResourceRow.clearDirty]

/-- **Publish.** The published delta of an index agrees with the live one exactly when the index
is copied or the delta it is left with is fresh. -/
theorem deltaAgrees_publish_iff {s : ResourceState n} (h : Coherent s) (i : Fin n) :
    DeltaAgrees s.precision (s.live i) (s.createPublishSnapshot.active.rows i) ↔
      (¬ s.Copied i → DeltaFresh s i) := by
  rw [(createPublishSnapshot_spec h.scratched).active_rows]
  by_cases hcopied : s.Copied i
  · refine iff_of_true ?_ fun hnot => absurd hcopied hnot
    rw [publishedRow, if_pos hcopied]
    exact ⟨s.precision.epsilonEquals_self .., id⟩
  · have hcongr : DeltaAgrees s.precision (s.live i) (s.publishedRow i) ↔ DeltaFresh s i :=
      DeltaAgrees.congr (publishedRow_tickDelta hcopied)
    exact hcongr.trans ⟨fun hfresh _ => hfresh, fun hfresh => hfresh hcopied⟩

/-- **When the published deltas are right.** In a run of a created store every published delta
agrees with the live one exactly if, before each publish, every index the publish will not copy
is left with a fresh delta. -/
theorem tickDeltas_agree_iff {definitions : Fin n → ResourceDefinition} {precision : Precision}
    {s : ResourceState n} {ticks : List (ResourceTick n)} {states : List (ResourceState n)}
    (hcreate : createResourceState definitions precision = .ok s)
    (hrun : runResourceTicks s ticks = .ok states) :
    (∀ t ∈ states, ∀ i,
        DeltaAgrees t.precision (t.live i) (t.createPublishSnapshot.active.rows i)) ↔
      ∀ t ∈ states, ∀ i, ¬ t.Copied i → DeltaFresh t i :=
  have hcoherent := (coherent_create hcreate).ticks hrun
  forall₂_congr fun t hmem => forall_congr' fun i => deltaAgrees_publish_iff (hcoherent t hmem) i

/-- A resource that moves in the first of three ticks and rests in the other two. -/
def movesOnce : List (ResourceTick 1) :=
  [{ mutations := [.addAmount 0 (.fin 5)], deltaMs := .fin 100 },
    { mutations := [], deltaMs := .fin 100 },
    { mutations := [], deltaMs := .fin 100 }]

theorem tickDeltas_agree_iff_movesOnce :
    ∃ s states, createResourceState (fun _ : Fin 1 => goldDefinition) .default = .ok s ∧
      runResourceTicks s movesOnce = .ok states ∧ states.length = 3 ∧
      ((∀ t ∈ states, ∀ i,
          DeltaAgrees t.precision (t.live i) (t.createPublishSnapshot.active.rows i)) ↔
        ∀ t ∈ states, ∀ i, ¬ t.Copied i → DeltaFresh t i) := by
  obtain ⟨s, states, hcreate, hrun, hlength⟩ := exists_run (fun _ : Fin 1 => goldDefinition)
    .default movesOnce (fun states => decide (states.length = 3)) (by decide +kernel)
  exact ⟨s, states, hcreate, hrun, of_decide_eq_true hlength, tickDeltas_agree_iff hcreate hrun⟩

/-- **A stale delta.** The third publish of `movesOnce` shows the delta of the first. -/
theorem tickDelta_reappears :
    ¬ ∀ (n : ℕ) (definitions : Fin n → ResourceDefinition) (precision : Precision)
        (s : ResourceState n) (ticks : List (ResourceTick n)) (states : List (ResourceState n)),
        createResourceState definitions precision = .ok s →
        runResourceTicks s ticks = .ok states →
        ∀ t ∈ states, ∀ i,
          DeltaAgrees t.precision (t.live i) (t.createPublishSnapshot.active.rows i) := by
  intro h
  obtain ⟨s, states, hcreate, hrun, hstale⟩ := exists_run (fun _ : Fin 1 => goldDefinition)
    .default movesOnce (fun states => states.any fun t => decide ((t.live 0).tickDelta = 0 ∧
      (t.createPublishSnapshot.active.rows 0).tickDelta = 5)) (by decide +kernel)
  obtain ⟨t, hmem, hdelta⟩ := List.any_eq_true.mp hstale
  obtain ⟨hlive, hpublished⟩ := of_decide_eq_true hdelta
  have hzero := (h _ _ _ _ _ _ hcreate hrun t hmem 0).unchanged hlive
  exact absurd (hpublished.symm.trans hzero) (by norm_num)

end IdleEngine
