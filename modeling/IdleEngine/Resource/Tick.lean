import IdleEngine.Resource.Coherence

/-!
# Ticks of the store

A tick is a list of changes, a finalize, a publish, and the reset after it. A run gives the store
as it stands right before each of its publishes; the published rows are those of
`createPublishSnapshot` there. `runResourceTicks_rule` is the induction over a run.
-/

namespace IdleEngine

open ResourceState

variable {n : ℕ}

/-- A tick of the host: changes to resources, then the length of time to finalize. -/
structure ResourceTick (n : ℕ) where
  mutations : List (ResourceMutation n)
  deltaMs : JsNumber

/-- A tick up to its publish. -/
def finalizeResourceTick (s : ResourceState n) (tick : ResourceTick n) :
    Except String (ResourceState n) :=
  (tick.mutations.foldl mutate s).finalizeTick tick.deltaMs

/-- A run of ticks: the store right before each publish. A throw ends the run. -/
def runResourceTicks (s : ResourceState n) :
    List (ResourceTick n) → Except String (List (ResourceState n))
  | [] => .ok []
  | tick :: ticks => do
      let finalized ← finalizeResourceTick s tick
      let reset ← finalized.createPublishSnapshot.resetPerTickAccumulators
      let later ← runResourceTicks reset ticks
      return finalized :: later

/-- The store after the publish and the reset of a tick. -/
def afterPublish (t : ResourceState n) : ResourceState n :=
  { t.createPublishSnapshot.zeroRates with publishGuardState := .idle }

theorem reset_after_publish (t : ResourceState n) :
    t.createPublishSnapshot.resetPerTickAccumulators = .ok (afterPublish t) := rfl

variable {s t : ResourceState n}

theorem finalizeResourceTick_ok {tick : ResourceTick n} (h : finalizeResourceTick s tick = .ok t) :
    ∃ delta, t = (tick.mutations.foldl mutate s).finalizeAll delta := by
  unfold finalizeResourceTick finalizeTick at h
  split at h
  · cases h
  · split at h
    · cases h
    · exact ⟨_, (Except.ok.inj h).symm⟩

/-- **Induction over a run.** `P` holds where a tick starts, given the ticks still to come, and
`Q` right before its publish. -/
theorem runResourceTicks_rule {P : ResourceState n → List (ResourceTick n) → Prop}
    {Q : ResourceState n → Prop}
    (htick : ∀ s tick ticks t, P s (tick :: ticks) → finalizeResourceTick s tick = .ok t →
      Q t ∧ P (afterPublish t) ticks) {ticks : List (ResourceTick n)}
    {states : List (ResourceState n)} (hs : P s ticks)
    (hrun : runResourceTicks s ticks = .ok states) : ∀ t ∈ states, Q t := by
  induction ticks generalizing s states with
  | nil =>
    obtain rfl := Except.ok.inj hrun
    intro t hmem
    cases hmem
  | cons tick ticks ih =>
    obtain ⟨finalized, hfinalize, hrest⟩ := Outcome.bind_ok hrun
    obtain ⟨reset, hreset, hrest⟩ := Outcome.bind_ok hrest
    obtain rfl := Except.ok.inj ((reset_after_publish finalized).symm.trans hreset)
    obtain ⟨later, hlater, hstates⟩ := Outcome.bind_ok hrest
    obtain rfl := Except.ok.inj hstates
    obtain ⟨hQ, hP⟩ := htick s tick ticks finalized hs hfinalize
    intro t hmem
    rcases List.mem_cons.mp hmem with rfl | hmem
    · exact hQ
    · exact ih hP hlater t hmem

/-- A test of the states of a run that holds is a store that is created and a run of it. -/
theorem exists_run (definitions : Fin n → ResourceDefinition) (precision : Precision)
    (ticks : List (ResourceTick n)) (p : List (ResourceState n) → Bool)
    (h : (createResourceState definitions precision >>= fun s =>
      runResourceTicks s ticks).toOption.any p = true) :
    ∃ s states, createResourceState definitions precision = .ok s ∧
      runResourceTicks s ticks = .ok states ∧ p states = true := by
  obtain ⟨states, hrun, hp⟩ := Outcome.exists_ok h
  obtain ⟨s, hcreate, hticks⟩ := Outcome.bind_ok hrun
  exact ⟨s, states, hcreate, hticks, hp⟩

/-! ### Coherence along a run -/

theorem Coherent.mutations (h : Coherent s) (mutations : List (ResourceMutation n)) :
    Unpublished s (mutations.foldl mutate s) :=
  List.foldlRecOn _ _ h.unpublished fun _ ht m _ =>
    ht.trans (ht.coherent.writes (mutate_writes (A := anyFlags) _ m fun _ _ => trivial))

theorem Coherent.finalizeResourceTick {tick : ResourceTick n} (h : Coherent s)
    (ht : finalizeResourceTick s tick = .ok t) : Unpublished s t := by
  obtain ⟨delta, rfl⟩ := finalizeResourceTick_ok ht
  have hmutations := h.mutations tick.mutations
  exact hmutations.trans (hmutations.coherent.finalizeAll delta)

theorem Coherent.afterPublish (h : Coherent t) :
    Coherent (afterPublish t) :=
  (h.publish.zeroRates.coherent.guard .idle).coherent

/-- **Run lemma.** The buffers are coherent before each publish. -/
theorem Coherent.ticks {ticks : List (ResourceTick n)} {states : List (ResourceState n)}
    (h : Coherent s) (hrun : runResourceTicks s ticks = .ok states) : ∀ t ∈ states, Coherent t :=
  runResourceTicks_rule (P := fun s _ => Coherent s) (fun _ _ _ _ hs ht =>
    have hfinalized := (hs.finalizeResourceTick ht).coherent
    ⟨hfinalized, hfinalized.afterPublish⟩) h hrun

end IdleEngine
