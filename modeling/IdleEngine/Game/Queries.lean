import Mathlib.Data.List.Induction
import IdleEngine.Game.Bounds
import IdleEngine.Game.Moves
import IdleEngine.Resource.Transport

/-!
# Quotes between two publishes

A quote of a prestige evaluates its formulas over a publish snapshot, and taking one is a publish:
what has changed since the host's publish is moved into the buffers, the guard says `published`,
and the next publish of the host no longer lists it.

`publishing_undisturbed_iff` says for which interleavings of quotes and calls on the store that
does no harm: each quote must find the guard already at `published` and nothing to copy but rows
the host has. The tick delta is left out, as everywhere but in `tickDeltas_agree_iff`: no publish
of the host reports that it zeroes one.
-/

namespace IdleEngine

open Relation Stateful List

variable {n : ℕ} {sh : ContentShape}

/-- What happens between two publishes of the host. -/
inductive IntervalCall (n : ℕ)
  | quote (layerId : String)
  | call (call : ResourceCall n)

namespace Coordinator

/-- A publish of the host. -/
def hostPublish (c : Coordinator sh) : Coordinator sh :=
  { c with resources := c.resources.createPublishSnapshot }

variable (options : ProgressionOptions sh)

/-- The coordinator after a quote or a call on its store. -/
def intervalCall (c : Coordinator sh) : IntervalCall sh.resources → Coordinator sh
  | .quote layerId => final (getPrestigeQuote options layerId c)
  | .call call => { c with resources := c.resources.call call }

/-- The coordinator after an interleaving. -/
def intervalCalls (c : Coordinator sh) (calls : List (IntervalCall sh.resources)) :
    Coordinator sh :=
  calls.foldl (intervalCall options) c

/-- A publish of the host lists every resource whose published fields are not the given ones. -/
def ReportsChanges (rows : Fin sh.resources → ResourceRow) (c : Coordinator sh) : Prop :=
  ∀ i, i ∉ c.hostPublish.resources.active.dirtyIndices →
    (c.hostPublish.resources.active.rows i).Agrees (rows i)

/-- A quote leaves the guard and the live values as they are. -/
structure QuoteKeeps (layerId : String) (c : Coordinator sh) : Prop where
  guard : (c.intervalCall options (.quote layerId)).resources.publishGuardState =
    c.resources.publishGuardState
  live : ∀ i, ((c.intervalCall options (.quote layerId)).resources.live i).clearDirty =
    (c.resources.live i).clearDirty

/-- Along an interleaving that follows a publish of the given rows, the host could publish at any
point without missing a change, and no quote touches the guard or the live values. -/
structure Undisturbed (rows : Fin sh.resources → ResourceRow) (c : Coordinator sh)
    (calls : List (IntervalCall sh.resources)) : Prop where
  reports : ∀ before, List.IsPrefix before calls →
    ReportsChanges rows (c.intervalCalls options before)
  quotes : ∀ before layerId, List.IsPrefix (before ++ [.quote layerId]) calls →
    QuoteKeeps options layerId (c.intervalCalls options before)

/-- A quote that does no harm: of an unknown layer, or with the guard at `published` and no row to
copy but one that agrees with the published one. -/
def QuietQuote (layerId : String) (c : Coordinator sh) : Prop :=
  indexOfId (fun i => (options.content.prestigeLayers i).id) layerId = none ∨
    c.resources.publishGuardState = .published ∧
      ∀ i, c.resources.Copied i → (c.resources.live i).Agrees (c.resources.active.rows i)

/-- All quotes of an interleaving are quiet. -/
def QuietQuotes (c : Coordinator sh) (calls : List (IntervalCall sh.resources)) : Prop :=
  ∀ before layerId, List.IsPrefix (before ++ [.quote layerId]) calls →
    QuietQuote options layerId (c.intervalCalls options before)

variable {options}

/-! ### What the host's next publish compares -/

end Coordinator

theorem ResourceRow.Agrees.symm {row row' : ResourceRow} (h : row.Agrees row') :
    row'.Agrees row :=
  ⟨h.amount.symm, h.capacity.symm, h.incomePerSecond.symm, h.expensePerSecond.symm,
    h.netPerSecond.symm, h.flags.symm, h.dirtyTolerance.symm⟩

theorem ResourceRow.Agrees.trans {row row' row'' : ResourceRow} (h : row.Agrees row')
    (h' : row'.Agrees row'') : row.Agrees row'' :=
  IsTrans.trans _ _ _ h h'

variable {s : ResourceState n}

theorem Coherent.published_agrees (h : Coherent s) {i : Fin n} (hi : ¬ s.Copied i) :
    (s.createPublishSnapshot.active.rows i).Agrees (s.active.rows i) := by
  rw [(createPublishSnapshot_spec h.scratched).active_rows]
  have huntimed := h.publishedRow_untimed i
  rw [if_neg hi] at huntimed
  exact .of_untimed huntimed

theorem Coherent.published_agrees_live (h : Coherent s) {i : Fin n} (hi : s.Copied i) :
    (s.createPublishSnapshot.active.rows i).Agrees (s.live i) := by
  rw [(createPublishSnapshot_spec h.scratched).active_rows, ResourceState.publishedRow, if_pos hi]
  exact ⟨rfl, rfl, rfl, rfl, rfl, rfl, rfl⟩

theorem Coherent.not_copied_publish (h : Coherent s) (i : Fin n) :
    ¬ s.createPublishSnapshot.Copied i := by
  rintro ⟨hdense, -⟩
  rw [(createPublishSnapshot_spec h.scratched).scratch] at hdense
  exact not_mem_nil hdense

namespace Coordinator

variable {rows : Fin sh.resources → ResourceRow} {c : Coordinator sh}

/-- The buffers are coherent and, in what counts, the published rows are those the host has. -/
structure HostSees (rows : Fin sh.resources → ResourceRow) (c : Coordinator sh) : Prop where
  coherent : Coherent c.resources
  agrees : ∀ i, (c.resources.active.rows i).Agrees (rows i)

theorem HostSees.reportsChanges (h : HostSees rows c) : ReportsChanges rows c := by
  intro i hi
  have hcopied : ¬ c.resources.Copied i := fun hcopied =>
    hi (((createPublishSnapshot_spec h.coherent.scratched).mem_active_dirty i).mpr hcopied)
  exact (h.coherent.published_agrees hcopied).trans (h.agrees i)

variable {layerId : String}

theorem intervalCall_quote {i : Fin sh.prestigeLayers}
    (h : indexOfId (fun i => (options.content.prestigeLayers i).id) layerId = some i)
    (c : Coordinator sh) : c.intervalCall options (.quote layerId) = c.hostPublish := by
  rw [intervalCall, getPrestigeQuote_final, h]
  rfl

theorem intervalCall_quote_unknown
    (h : indexOfId (fun i => (options.content.prestigeLayers i).id) layerId = none)
    (c : Coordinator sh) : c.intervalCall options (.quote layerId) = c := by
  rw [intervalCall, getPrestigeQuote_final, h]
  rfl

theorem HostSees.call (h : HostSees rows c) (call : ResourceCall sh.resources) :
    HostSees rows (c.intervalCall options (.call call)) := by
  have hcall := h.coherent.call call
  refine ⟨hcall.coherent, fun i => ?_⟩
  change ((c.resources.call call).active.rows i).Agrees (rows i)
  rw [hcall.frame.active]
  exact h.agrees i

theorem HostSees.quote (h : HostSees rows c) (hquiet : QuietQuote options layerId c) :
    HostSees rows (c.intervalCall options (.quote layerId)) := by
  rcases hquiet with hunknown | ⟨-, hcopied⟩
  · rw [intervalCall_quote_unknown hunknown]
    exact h
  · cases hlayer : indexOfId (fun i => (options.content.prestigeLayers i).id) layerId with
    | none =>
      rw [intervalCall_quote_unknown hlayer]
      exact h
    | some i =>
      rw [intervalCall_quote hlayer]
      refine ⟨h.coherent.publish, fun j => ?_⟩
      by_cases hj : c.resources.Copied j
      · exact ((h.coherent.published_agrees_live hj).trans (hcopied j hj)).trans (h.agrees j)
      · exact (h.coherent.published_agrees hj).trans (h.agrees j)

/-- The live values survive every quote; the guard survives a quiet one. -/
theorem QuietQuote.keeps (hc : Coherent c.resources) (hquiet : QuietQuote options layerId c) :
    QuoteKeeps options layerId c := by
  cases hlayer : indexOfId (fun i => (options.content.prestigeLayers i).id) layerId with
  | none =>
    refine ⟨?_, fun i => ?_⟩
    · rw [intervalCall_quote_unknown hlayer]
    · rw [intervalCall_quote_unknown hlayer]
  | some i =>
    have hguard : c.resources.publishGuardState = .published := by
      rcases hquiet with hunknown | ⟨hguard, -⟩
      · rw [hlayer] at hunknown
        cases hunknown
      · exact hguard
    have hp := createPublishSnapshot_spec hc.scratched
    refine ⟨?_, fun j => ?_⟩
    · rw [intervalCall_quote hlayer, hguard]
      exact hp.guard
    · rw [intervalCall_quote hlayer]
      change (c.resources.createPublishSnapshot.live j).clearDirty = _
      rw [hp.live]
      rfl

/-- **Step lemma.** A quote that keeps the guard, and after which the host would still miss
nothing, was quiet: it left nothing dirty, so a row that it copied would be missed. -/
theorem HostSees.quietQuote (h : HostSees rows c) (hkeeps : QuoteKeeps options layerId c)
    (hreports : ReportsChanges rows (c.intervalCall options (.quote layerId))) :
    QuietQuote options layerId c := by
  cases hlayer : indexOfId (fun i => (options.content.prestigeLayers i).id) layerId with
  | none => exact .inl hlayer
  | some layer =>
    have hguard := hkeeps.guard
    rw [intervalCall_quote hlayer] at hguard hreports
    have hp := createPublishSnapshot_spec h.coherent.scratched
    refine .inr ⟨hguard.symm.trans hp.guard, fun i hi => ?_⟩
    -- the publish after the quote copies nothing, so it does not list the row either
    have hnot := h.coherent.not_copied_publish i
    have hunlisted : i ∉ c.hostPublish.hostPublish.resources.active.dirtyIndices := fun hlisted =>
      hnot (((createPublishSnapshot_spec h.coherent.publish.scratched).mem_active_dirty i).mp
        hlisted)
    have hrow : (c.resources.createPublishSnapshot.active.rows i).Agrees (rows i) :=
      (h.coherent.publish.published_agrees hnot).symm.trans (hreports i hunlisted)
    exact ((h.coherent.published_agrees_live hi).symm.trans hrow).trans (h.agrees i).symm

/-! ### Interleavings -/

theorem intervalCalls_concat (c : Coordinator sh) (calls : List (IntervalCall sh.resources))
    (call : IntervalCall sh.resources) :
    c.intervalCalls options (calls ++ [call]) =
      (c.intervalCalls options calls).intervalCall options call := by
  rw [intervalCalls, foldl_append]
  rfl

/-- **Run lemma.** Along an interleaving whose quotes are quiet the host keeps what it sees. -/
theorem HostSees.calls (h : HostSees rows c) {calls : List (IntervalCall sh.resources)}
    (hquiet : QuietQuotes options c calls) : HostSees rows (c.intervalCalls options calls) := by
  induction calls using reverseRecOn with
  | nil => exact h
  | append_singleton calls call ih =>
    have hbefore : QuietQuotes options c calls := fun before layerId hinitial =>
      hquiet before layerId (hinitial.trans (prefix_append _ _))
    rw [intervalCalls_concat]
    cases call with
    | quote layerId => exact (ih hbefore).quote (hquiet calls layerId prefix_rfl)
    | call call => exact (ih hbefore).call call

/-- **When quotes do not disturb publishing.** After a publish of the host, an interleaving is
undisturbed exactly if all of its quotes are quiet. -/
theorem undisturbed_iff (h : HostSees rows c) (calls : List (IntervalCall sh.resources)) :
    Undisturbed options rows c calls ↔ QuietQuotes options c calls := by
  constructor
  · intro hrun
    -- a quote is quiet because those before it are
    induction calls using reverseRecOn with
    | nil =>
      intro before layerId hinitial
      exact absurd (prefix_nil.mp hinitial) (by simp)
    | append_singleton calls call ih =>
      have hbefore := ih ⟨fun before hinitial =>
        hrun.reports before (hinitial.trans (prefix_append _ _)),
        fun before layerId hinitial =>
          hrun.quotes before layerId (hinitial.trans (prefix_append _ _))⟩
      intro before layerId hinitial
      rcases prefix_concat_iff.mp hinitial with heq | hshorter
      · obtain ⟨rfl, hcall⟩ := append_inj' heq rfl
        obtain rfl : IntervalCall.quote layerId = call := by simpa using hcall
        refine (h.calls hbefore).quietQuote (hrun.quotes before layerId prefix_rfl) ?_
        rw [← intervalCalls_concat]
        exact hrun.reports _ prefix_rfl
      · exact hbefore before layerId hshorter
  · intro hquiet
    have hsees : ∀ before, List.IsPrefix before calls →
        HostSees rows (c.intervalCalls options before) := fun before hinitial =>
      h.calls fun earlier layerId hearlier => hquiet earlier layerId (hearlier.trans hinitial)
    refine ⟨fun before hinitial => (hsees before hinitial).reportsChanges,
      fun before layerId hinitial => ?_⟩
    have hstate := hsees before ((prefix_append _ _).trans hinitial)
    exact (hquiet before layerId hinitial).keeps hstate.coherent

end Coordinator

open Coordinator

variable {options : ProgressionOptions sh}

theorem coherent_run {p : Progression options} (hp : createProgression options = .ok p)
    (actions : List (ProgressionAction options)) :
    Coherent (p.run actions).coordinator.resources := by
  obtain ⟨resources, generators, hresources, hfresh, hcreate⟩ := createProgression_moves hp
  have hmoves := hcreate.trans (Progression.run_moves (Moves.fresh hcreate hfresh) actions)
  exact Moves.coherent (fun _ _ => Foreign.coherent) hmoves (coherent_create hresources)

/-- **Every reachable progression** has a coherent store, purchases that its upgrades allow, and no
cached effects but those of the purchases. -/
theorem run_coherent_fresh {p : Progression options} (hp : createProgression options = .ok p)
    (actions : List (ProgressionAction options)) :
    Coherent (p.run actions).coordinator.resources ∧ Fresh options (p.run actions).coordinator :=
  ⟨coherent_run hp actions, fresh_run hp actions⟩

theorem run_coherent_fresh_ascension :
    ∃ p : Progression (ascensionOptions 50), createProgression (ascensionOptions 50) = .ok p ∧
      Coherent (p.run [ascend 50]).coordinator.resources ∧
      Fresh (ascensionOptions 50) (p.run [ascend 50]).coordinator := by
  obtain ⟨p, hp, -⟩ := Outcome.exists_ok (x := createProgression (ascensionOptions 50))
    (p := fun _ => true) (by decide +kernel)
  exact ⟨p, hp, run_coherent_fresh hp [ascend 50]⟩

/-- **When quotes do not disturb publishing.** In every reachable progression, after a publish of
the host, an interleaving of quotes and calls on the store is undisturbed exactly if each quote in
it is of an unknown layer or finds the guard at `published` and nothing to copy but rows that agree
with the published ones. -/
theorem publishing_undisturbed_iff {p : Progression options}
    (hp : createProgression options = .ok p) (actions : List (ProgressionAction options))
    (calls : List (IntervalCall sh.resources)) :
    let host := (p.run actions).coordinator.hostPublish
    Undisturbed options host.resources.active.rows host calls ↔ QuietQuotes options host calls := by
  intro host
  exact undisturbed_iff ⟨(coherent_run hp actions).publish, fun i => Std.Refl.refl _⟩ calls

/-- The host's next publish after an interleaving that follows a first publish. -/
def hostAfter (p : Progression options) (calls : List (IntervalCall sh.resources)) :
    Coordinator sh :=
  (p.coordinator.hostPublish.intervalCalls options calls).hostPublish

/-- The gold of a new ascension game is mined, and the ascension quoted. -/
def mineAndQuote : List (IntervalCall ascensionShape.resources) :=
  [.call (.mutate (.addAmount goldIndex (.fin 10))), .quote "ascension"]

theorem publishing_undisturbed_mineAndQuote :
    ∃ p : Progression (ascensionOptions 50), createProgression (ascensionOptions 50) = .ok p ∧
      (Undisturbed (ascensionOptions 50) (p.run []).coordinator.hostPublish.resources.active.rows
          (p.run []).coordinator.hostPublish mineAndQuote ↔
        QuietQuotes (ascensionOptions 50) (p.run []).coordinator.hostPublish mineAndQuote) := by
  obtain ⟨p, hp, -⟩ := Outcome.exists_ok (x := createProgression (ascensionOptions 50))
    (p := fun _ => true) (by decide +kernel)
  exact ⟨p, hp, publishing_undisturbed_iff hp [] mineAndQuote⟩

/-- **A swallowed change.** The gold that is mined before the quote is in the host's next publish,
but the publish does not list it. -/
theorem quote_swallows_change :
    ¬ ∀ (sh : ContentShape) (options : ProgressionOptions sh) (p : Progression options),
        createProgression options = .ok p → ∀ (actions : List (ProgressionAction options))
          (calls : List (IntervalCall sh.resources)),
          let host := (p.run actions).coordinator.hostPublish
          Undisturbed options host.resources.active.rows host calls := by
  intro h
  obtain ⟨p, hp, hcheck⟩ := Outcome.exists_ok (x := createProgression (ascensionOptions 50))
    (p := fun p => decide (
      goldIndex ∉ (hostAfter p mineAndQuote).resources.active.dirtyIndices ∧
        ((hostAfter p mineAndQuote).resources.active.rows goldIndex).amount = 10 ∧
        (p.coordinator.hostPublish.resources.active.rows goldIndex).amount = 0)) (by decide +kernel)
  obtain ⟨hunlisted, hnext, hhost⟩ := of_decide_eq_true hcheck
  have hagrees := (h _ _ p hp [] mineAndQuote).reports mineAndQuote List.prefix_rfl goldIndex
    hunlisted
  exact absurd (hnext.symm.trans (hagrees.amount.trans hhost)) (by norm_num)

end IdleEngine
