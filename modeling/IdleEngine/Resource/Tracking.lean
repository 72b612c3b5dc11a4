import IdleEngine.Resource.Tick

/-!
# Whether publishes show the live rows

Between publishes, an index outside the dirty scratch is meant to hold a live row that is as good
as the published one. `TrackedAt` is that for the amount, the capacity, the tolerance and the
flags; `RatesTrackedAt` is the same for the rates, which a finalized tick restores after a reset
has zeroed them. A publish of a store tracked in both ways agrees with the live rows everywhere.

One write can break the tracking. Flags are compared as numbers under the resource's tolerance,
so under a tolerance of one or more a changed flag counts as the published one, and its index is
not marked. `FlagWriteSeen` excludes exactly that write.
-/

namespace IdleEngine

open Relation ResourceState RowField

variable {n : ℕ}

/-- A live row is close to a published one, rates and tick delta aside. -/
structure CoreClose (p : Precision) (live source : ResourceRow) : Prop where
  amount : RowField.amount.closeIn p live source = true
  capacity : RowField.capacity.closeIn p live source = true
  tolerance : p.epsilonEquals live.dirtyTolerance source.dirtyTolerance p.dirtyEpsilonAbsolute
    false = true
  flags : live.flags.clearDirty = source.flags.clearDirty

/-- A published row agrees with the live one: numbers within tolerance, flags exactly. -/
structure PublishAgrees (p : Precision) (live published : ResourceRow) : Prop where
  amount : RowField.amount.closeIn p live published = true
  capacity : RowField.capacity.closeIn p live published = true
  incomePerSecond : RowField.incomePerSecond.closeIn p live published = true
  expensePerSecond : RowField.expensePerSecond.closeIn p live published = true
  netPerSecond : RowField.netPerSecond.closeIn p live published = true
  flags : live.flags.clearDirty = published.flags.clearDirty

variable {p : Precision} {live source : ResourceRow}

theorem rowClean_iff :
    rowClean p live source = true ↔
      CoreClose p live source ∧ ratesClose p live source = true ∧
        tickDelta.closeIn p live source = true := by
  constructor
  · intro h
    simp only [rowClean, Bool.and_eq_true, decide_eq_true_eq] at h
    obtain ⟨⟨⟨⟨⟨⟨⟨hamount, hcapacity⟩, hincome⟩, hexpense⟩, hnet⟩, hdelta⟩, htolerance⟩, hflags⟩ := h
    refine ⟨⟨hamount, hcapacity, htolerance, hflags⟩, ?_, hdelta⟩
    simp only [ratesClose, hincome, hexpense, hnet, Bool.and_self]
  · rintro ⟨hcore, hrates, hdelta⟩
    simp only [ratesClose, Bool.and_eq_true] at hrates
    simp only [rowClean, Bool.and_eq_true, decide_eq_true_eq]
    exact ⟨⟨⟨⟨⟨⟨⟨hcore.amount, hcore.capacity⟩, hrates.1.1⟩, hrates.1.2⟩, hrates.2⟩, hdelta⟩,
      hcore.tolerance⟩, hcore.flags⟩

theorem CoreClose.dirtyBit (h : CoreClose p live source) (dirty : Bool) :
    CoreClose p { live with flags := { live.flags with dirtyThisTick := dirty } } source :=
  ⟨h.amount, h.capacity, h.tolerance, h.flags⟩

theorem CoreClose.of_untimed (h : CoreClose p live (zeroTickDelta source)) :
    CoreClose p live source :=
  ⟨h.amount, h.capacity, h.tolerance, h.flags⟩

theorem CoreClose.of_same (p : Precision) (live : ResourceRow) : CoreClose p live live.clearDirty where
  amount := p.epsilonEquals_self ..
  capacity := p.epsilonEqualsTop_self ..
  tolerance := p.epsilonEquals_self ..
  flags := rfl

theorem ratesClose_same (p : Precision) (live : ResourceRow) :
    ratesClose p live live.clearDirty = true := by
  simp [ratesClose, closeIn, incomePerSecond, expensePerSecond,
    netPerSecond, number, ResourceRow.clearDirty]

/-! ### Tracking -/

namespace ResourceState

/-- The index is in the scratch, or its live row is close to the published one. -/
def TrackedAt (s : ResourceState n) (i : Fin n) : Prop :=
  i ∈ s.dirtyIndexScratch.dense ∨ CoreClose s.precision (s.live i) (s.active.rows i)

/-- The same for the rates. -/
def RatesTrackedAt (s : ResourceState n) (i : Fin n) : Prop :=
  i ∈ s.dirtyIndexScratch.dense ∨ ratesClose s.precision (s.live i) (s.active.rows i) = true

/-- A write of flags that the dirty tracking sees: the index is in the scratch already, the new
flags are the published ones, or they are farther apart than the tolerance. -/
def FlagWriteSeen (s : ResourceState n) (i : Fin n) (flags : ResourceFlags) : Prop :=
  i ∈ s.dirtyIndexScratch.dense ∨ flags.clearDirty = (s.active.rows i).flags.clearDirty ∨
    RowField.flags.closeIn s.precision { s.live i with flags } (s.active.rows i) = false

instance (s : ResourceState n) (i : Fin n) (flags : ResourceFlags) :
    Decidable (s.FlagWriteSeen i flags) :=
  inferInstanceAs (Decidable (_ ∨ _ ∨ _))

variable {s : ResourceState n} {i : Fin n}

/-- A write to a field keeps an index tracked if a close new value keeps the row close. -/
theorem TrackedAt.writeField {V : Type} [DecidableEq V] (h : s.TrackedAt i) (hs : s.Scratched)
    (field : RowField V) (v : V)
    (hset : i ∉ s.dirtyIndexScratch.dense → CoreClose s.precision (s.live i) (s.active.rows i) →
      field.closeIn s.precision (field.set v (s.live i)) (s.active.rows i) = true →
      CoreClose s.precision (field.set v (s.live i)) (s.active.rows i)) :
    (s.writeField field i v).TrackedAt i := by
  rcases s.writeField_cases field i v with hw | hw | ⟨hclean, hw⟩ | ⟨hclose, hw⟩ <;> rw [hw]
  · exact h
  · exact .inl (hs.valid.mem_insert.mpr (.inr rfl))
  · right
    have hcore := (rowClean_iff.mp hclean).1
    simp only [setDirtyBit, setLive, Function.update_self] at hcore ⊢
    exact hcore.dirtyBit false
  · by_cases hi : i ∈ s.dirtyIndexScratch.dense
    · exact .inl hi
    · right
      simp only [setLive, Function.update_self] at hclose ⊢
      exact hset hi (h.resolve_left hi) hclose

/-- A write concerns no other index. -/
theorem TrackedAt.of_local {s' : ResourceState n} {j : Fin n} (h : s.TrackedAt j)
    (hsteps : Steps i s s') (hj : j ≠ i) : s'.TrackedAt j := by
  rw [TrackedAt, hsteps.other.scratch j hj, hsteps.other.live j hj, hsteps.frame.active,
    hsteps.frame.precision]
  exact h

theorem RatesTrackedAt.of_local {s' : ResourceState n} {j : Fin n} (h : s.RatesTrackedAt j)
    (hsteps : Steps i s s') (hj : j ≠ i) : s'.RatesTrackedAt j := by
  rw [RatesTrackedAt, hsteps.other.scratch j hj, hsteps.other.live j hj, hsteps.frame.active,
    hsteps.frame.precision]
  exact h

end ResourceState

theorem CoreClose.number (h : CoreClose p live source) {field : RowField ℚ}
    (hfield : field ∈ numberFields) (v : ℚ)
    (hclose : field.closeIn p (field.set v live) source = true) :
    CoreClose p (field.set v live) source := by
  simp only [numberFields, List.mem_cons, List.not_mem_nil, or_false] at hfield
  rcases hfield with rfl | rfl | rfl | rfl | rfl
  · exact ⟨hclose, h.capacity, h.tolerance, h.flags⟩
  all_goals exact ⟨h.amount, h.capacity, h.tolerance, h.flags⟩

variable {i : Fin n} {s s' : ResourceState n}

/-- **Step lemma.** A write keeps every index tracked, provided its flags are seen. -/
theorem Write.tracked (h : Write FlagWriteSeen i s s') (hs : s.Scratched) {j : Fin n}
    (hj : s.TrackedAt j) : s'.TrackedAt j := by
  by_cases hij : j = i
  · subst hij
    cases h with
    | number field hfield v =>
      exact hj.writeField hs field v fun _ hcore hclose => hcore.number hfield v hclose
    | capacity v =>
      exact hj.writeField hs RowField.capacity v fun _ hcore hclose =>
        ⟨hcore.amount, hclose, hcore.tolerance, hcore.flags⟩
    | flags flags hdirty hok =>
      refine hj.writeField hs RowField.flags flags fun hout hcore hclose => ?_
      rcases hok with hmem | hsame | hfar
      · exact absurd hmem hout
      · exact ⟨hcore.amount, hcore.capacity, hcore.tolerance, hsame⟩
      · exact absurd hclose (Bool.eq_false_iff.mp hfar)
    | tolerance t ht => exact .inl (hs.valid.mem_insert.mpr (.inr rfl))
    | mark => exact .inl (markDirty_mem hs j)
  · exact hj.of_local (h.steps hs) hij

theorem WritesAt.tracked (h : WritesAt FlagWriteSeen i s s') (hs : s.Scratched) {j : Fin n}
    (hj : s.TrackedAt j) : s'.TrackedAt j := by
  induction h with
  | refl => exact hj
  | tail hwrites hwrite ih => exact hwrite.tracked (WritesAt.steps hwrites hs).scratched ih

theorem finalizeIndex_ratesTracked (s : ResourceState n) (hs : s.Scratched) (deltaSeconds : ℚ)
    (i : Fin n) : (s.finalizeIndex deltaSeconds i).RatesTrackedAt i := by
  have hsettle : WritesAt anyFlags i s (s.settleIndex deltaSeconds i) :=
    settleIndex_writes s deltaSeconds i
  simp only [finalizeIndex]
  split
  · next hrates => exact .inr hrates
  · exact .inl (markDirty_mem (hsettle.steps hs).scratched i)

/-- **Finalize.** After a finalized tick every index is tracked, rates included. -/
theorem finalizeAll_tracked (hs : s.Scratched) (ht : ∀ i, s.TrackedAt i) (deltaMs : ℚ) (i : Fin n) :
    (s.finalizeAll deltaMs).TrackedAt i ∧ (s.finalizeAll deltaMs).RatesTrackedAt i := by
  have hloop : ∀ (l : List (Fin n)) (s : ResourceState n), s.Scratched → (∀ i, s.TrackedAt i) →
      ∀ i, (l.foldl (fun s i => s.finalizeIndex (deltaMs / 1000) i) s).TrackedAt i ∧
        (i ∈ l ∨ s.RatesTrackedAt i →
          (l.foldl (fun s i => s.finalizeIndex (deltaMs / 1000) i) s).RatesTrackedAt i) := by
    intro l
    induction l with
    | nil => exact fun s _ ht i => ⟨ht i, fun h => h.resolve_left List.not_mem_nil⟩
    | cons j l ih =>
      intro s hs ht i
      have hwrites : WritesAt FlagWriteSeen j s (s.finalizeIndex (deltaMs / 1000) j) :=
        finalizeIndex_writes s _ j
      have hsteps := hwrites.steps hs
      obtain ⟨htracked, hrates⟩ := ih _ hsteps.scratched (fun i => hwrites.tracked hs (ht i)) i
      refine ⟨htracked, fun hi => hrates ?_⟩
      by_cases hij : i = j
      · subst hij
        exact .inr (finalizeIndex_ratesTracked s hs _ i)
      · rcases hi with hi | hi
        · exact .inl ((List.mem_cons.mp hi).resolve_left hij)
        · exact .inr (hi.of_local hsteps hij)
  obtain ⟨htracked, hrates⟩ := hloop (List.finRange n) s hs ht i
  exact ⟨htracked, hrates (.inl (List.mem_finRange i))⟩

/-- **Publish.** A publish of a tracked store agrees with the live rows at every index. -/
theorem publish_agrees (h : Coherent s) (ht : s.TrackedAt i) (hr : s.RatesTrackedAt i) :
    CoreClose s.precision (s.live i) (s.createPublishSnapshot.active.rows i) ∧
      ratesClose s.precision (s.live i) (s.createPublishSnapshot.active.rows i) = true := by
  rw [(createPublishSnapshot_spec h.scratched).active_rows]
  by_cases hcopied : s.Copied i
  · simp only [publishedRow, if_pos hcopied, copyLiveToPublish]
    exact ⟨CoreClose.of_same _ _, ratesClose_same _ _⟩
  · have hrow := h.publishedRow_untimed i
    rw [if_neg hcopied] at hrow
    have hclose : CoreClose s.precision (s.live i) (s.active.rows i) ∧
        ratesClose s.precision (s.live i) (s.active.rows i) = true := by
      by_cases hi : i ∈ s.dirtyIndexScratch.dense
      · have hclean : rowClean s.precision (s.live i) (s.active.rows i) = true := by
          simpa [Copied, hi, isIndexDirtyAgainstPublish] using hcopied
        exact ⟨(rowClean_iff.mp hclean).1, (rowClean_iff.mp hclean).2.1⟩
      · exact ⟨ht.resolve_left hi, hr.resolve_left hi⟩
    refine ⟨CoreClose.of_untimed ?_, ?_⟩
    · rw [hrow]
      exact ⟨hclose.1.amount, hclose.1.capacity, hclose.1.tolerance, hclose.1.flags⟩
    · have hrates : ratesClose s.precision (s.live i) (zeroTickDelta (s.publishedRow i)) =
          true := by
        rw [hrow]
        exact hclose.2
      exact hrates

/-! ### Ticks -/

/-- Every flag write among some mutations is seen. -/
def MutationsSeen (s : ResourceState n) : List (ResourceMutation n) → Prop
  | [] => True
  | m :: ms => (∀ flags, m.flags? s = some flags → s.FlagWriteSeen m.index flags) ∧
      MutationsSeen (s.mutate m) ms

/-- Every flag write of a run is seen. -/
def TicksSeen (s : ResourceState n) : List (ResourceTick n) → Prop
  | [] => True
  | tick :: ticks => MutationsSeen s tick.mutations ∧
      ∀ t, finalizeResourceTick s tick = .ok t → TicksSeen (afterPublish t) ticks

section

variable (h : Coherent s) (ht : ∀ i, s.TrackedAt i)
include h ht

theorem mutations_tracked
    {mutations : List (ResourceMutation n)} (hseen : MutationsSeen s mutations) :
    ∀ i, (mutations.foldl mutate s).TrackedAt i := by
  induction mutations generalizing s with
  | nil => exact ht
  | cons m mutations ih =>
    have hwrites := mutate_writes s m hseen.1
    exact ih (h.writes hwrites).coherent (fun i => hwrites.tracked h.scratched (ht i)) hseen.2

/-- **Step lemma.** A tick whose flag writes are seen publishes the live rows, and leaves the
store tracked. -/
theorem tick_tracked {t : ResourceState n} {tick : ResourceTick n} (hseen : MutationsSeen s tick.mutations)
    (hrun : finalizeResourceTick s tick = .ok t) (i : Fin n) :
    PublishAgrees t.precision (t.live i) (t.createPublishSnapshot.active.rows i) ∧
      (afterPublish t).TrackedAt i := by
  have hcoherent := (h.finalizeResourceTick hrun).coherent
  obtain ⟨delta, rfl⟩ := finalizeResourceTick_ok hrun
  have hmutated := h.mutations tick.mutations
  obtain ⟨htracked, hrates⟩ := finalizeAll_tracked hmutated.coherent.scratched
    (mutations_tracked h ht hseen) delta i
  obtain ⟨hcore, hclose⟩ := publish_agrees hcoherent htracked hrates
  simp only [ratesClose, Bool.and_eq_true] at hclose
  have hp := createPublishSnapshot_spec hcoherent.scratched
  refine ⟨⟨hcore.amount, hcore.capacity, hclose.1.1, hclose.1.2, hclose.2, hcore.flags⟩, .inr ?_⟩
  have hlive := hp.live i
  refine ⟨?_, ?_, ?_, ?_⟩
  all_goals
    simp only [afterPublish, zeroRates, hp.precision, hlive]
  · exact hcore.amount
  · exact hcore.capacity
  · exact hcore.tolerance
  · exact hcore.flags

/-- **Run lemma.** -/
theorem ticks_tracked {ticks : List (ResourceTick n)} {states : List (ResourceState n)} (hseen : TicksSeen s ticks)
    (hrun : runResourceTicks s ticks = .ok states) :
    ∀ t ∈ states, ∀ i,
      PublishAgrees t.precision (t.live i) (t.createPublishSnapshot.active.rows i) :=
  runResourceTicks_rule
    (P := fun s ticks => Coherent s ∧ (∀ i, s.TrackedAt i) ∧ TicksSeen s ticks)
    (fun _ _ _ t ⟨hs, htracked, hseen⟩ hfinalize =>
      ⟨fun i => (tick_tracked hs htracked hseen.1 hfinalize i).1,
        (hs.finalizeResourceTick hfinalize).coherent.afterPublish,
        fun i => (tick_tracked hs htracked hseen.1 hfinalize i).2, hseen.2 t hfinalize⟩)
    ⟨h, ht, hseen⟩ hrun

end

/-! ### Tolerances below one -/

/-- Every tolerance is at most the largest override. -/
def ToleranceBounded (s : ResourceState n) : Prop :=
  ∀ i, (s.live i).dirtyTolerance ≤ s.precision.dirtyEpsilonOverrideMax

/-- Different flags are different numbers, at least one apart. -/
theorem ResourceFlags.value_far {f g : ResourceFlags} (h : f.clearDirty ≠ g.clearDirty) :
    1 ≤ |f.value - g.value| := by
  obtain ⟨visible, unlocked, _⟩ := f
  obtain ⟨visible', unlocked', _⟩ := g
  cases visible <;> cases unlocked <;> cases visible' <;> cases unlocked' <;>
    first
    | exact absurd rfl h
    | norm_num [ResourceFlags.value]

theorem ToleranceBounded.flagWriteSeen (h : ToleranceBounded s)
    (hmax : s.precision.dirtyEpsilonOverrideMax < 1) (i : Fin n) (flags : ResourceFlags) :
    s.FlagWriteSeen i flags := by
  by_cases hsame : flags.clearDirty = (s.active.rows i).flags.clearDirty
  · exact .inr (.inl hsame)
  · right; right
    have hfar := ResourceFlags.value_far hsame
    have htolerance := s.precision.tolerance_le (h i) flags.value (s.active.rows i).flags.value
      (hasOverride s.precision (s.live i).dirtyTolerance)
    simp only [RowField.closeIn, RowField.flags, Precision.epsilonEquals, Bool.or_eq_false_iff,
      decide_eq_false_iff_not, not_le]
    refine ⟨fun heq => ?_, by linarith⟩
    rw [heq, sub_self, abs_zero] at hfar
    linarith

theorem writeField_dirtyTolerance {V : Type} [DecidableEq V] (s : ResourceState n)
    (field : RowField V) (i : Fin n) (v : V)
    (hfield : (field.set v (s.live i)).dirtyTolerance = (s.live i).dirtyTolerance) (j : Fin n) :
    ((s.writeField field i v).live j).dirtyTolerance = (s.live j).dirtyTolerance := by
  by_cases hij : j = i
  · subst hij
    rcases s.writeField_cases field j v with hw | hw | ⟨-, hw⟩ | ⟨-, hw⟩ <;> rw [hw] <;>
      simp [markDirty, setDirtyBit, setLive, hfield]
  · rcases s.writeField_cases field i v with hw | hw | ⟨-, hw⟩ | ⟨-, hw⟩ <;> rw [hw] <;>
      simp [markDirty, setDirtyBit, setLive, hij]

theorem Write.bounded {A : ResourceState n → Fin n → ResourceFlags → Prop} (h : Write A i s s')
    (hs : s.Scratched) (hb : ToleranceBounded s) :
    ToleranceBounded s' := by
  intro j
  rw [(h.steps hs).frame.precision]
  cases h with
  | number field hfield v =>
    rw [writeField_dirtyTolerance]
    · exact hb j
    · simp only [numberFields, List.mem_cons, List.not_mem_nil, or_false] at hfield
      rcases hfield with rfl | rfl | rfl | rfl | rfl <;> rfl
  | capacity v =>
    rw [writeField_dirtyTolerance _ _ _ _ rfl]
    exact hb j
  | flags flags hdirty hok =>
    rw [writeField_dirtyTolerance _ _ _ _ rfl]
    exact hb j
  | tolerance t ht =>
    by_cases hij : j = i
    · subst hij
      simpa [markDirty, setDirtyBit, setLive] using ht
    · simpa [markDirty, setDirtyBit, setLive, hij] using hb j
  | mark =>
    by_cases hij : j = i
    · subst hij
      simpa [markDirty, setDirtyBit, setLive] using hb j
    · simpa [markDirty, setDirtyBit, setLive, hij] using hb j

theorem WritesAt.bounded {A : ResourceState n → Fin n → ResourceFlags → Prop}
    (h : WritesAt A i s s') (hs : s.Scratched) (hb : ToleranceBounded s) : ToleranceBounded s' := by
  induction h with
  | refl => exact hb
  | tail hwrites hwrite ih => exact hwrite.bounded (WritesAt.steps hwrites hs).scratched ih

theorem mutationsSeen_of_bounded (h : Coherent s) (hb : ToleranceBounded s)
    (hmax : s.precision.dirtyEpsilonOverrideMax < 1) (mutations : List (ResourceMutation n)) :
    MutationsSeen s mutations ∧ ToleranceBounded (mutations.foldl mutate s) := by
  induction mutations generalizing s with
  | nil => exact ⟨trivial, hb⟩
  | cons m mutations ih =>
    have hwrites := mutate_writes (A := anyFlags) s m fun _ _ => trivial
    have hstep := h.writes hwrites
    obtain ⟨hseen, hlater⟩ := ih hstep.coherent (hwrites.bounded h.scratched hb)
      (by rw [hstep.frame.precision]; exact hmax)
    exact ⟨⟨fun flags _ => hb.flagWriteSeen hmax _ flags, hseen⟩, hlater⟩

theorem finalizeAll_bounded (h : Coherent s) (hb : ToleranceBounded s) (deltaMs : ℚ) :
    ToleranceBounded (s.finalizeAll deltaMs) := by
  have hloop : Coherent ((List.finRange n).foldl
        (fun s i => s.finalizeIndex (deltaMs / 1000) i) s) ∧
      ToleranceBounded ((List.finRange n).foldl
        (fun s i => s.finalizeIndex (deltaMs / 1000) i) s) :=
    List.foldlRecOn (motive := fun t : ResourceState n => Coherent t ∧ ToleranceBounded t) _ _
      ⟨h, hb⟩ fun t ht i _ =>
        have hwrites := finalizeIndex_writes (A := anyFlags) t (deltaMs / 1000) i
        ⟨(ht.1.writes hwrites).coherent, hwrites.bounded ht.1.scratched ht.2⟩
  exact hloop.2

/-- **Every run of an engine whose tolerances stay below one is seen.** -/
theorem ticksSeen_of_bounded (h : Coherent s) (hb : ToleranceBounded s)
    (hmax : s.precision.dirtyEpsilonOverrideMax < 1) (ticks : List (ResourceTick n)) :
    TicksSeen s ticks := by
  induction ticks generalizing s with
  | nil => trivial
  | cons tick ticks ih =>
    obtain ⟨hseen, hmutated⟩ := mutationsSeen_of_bounded h hb hmax tick.mutations
    refine ⟨hseen, fun t ht => ?_⟩
    have hfinalized := h.finalizeResourceTick ht
    obtain ⟨delta, rfl⟩ := finalizeResourceTick_ok ht
    have hp := createPublishSnapshot_spec hfinalized.coherent.scratched
    have hprecision := hp.precision.trans hfinalized.frame.precision
    refine ih hfinalized.coherent.afterPublish (fun i => ?_) ?_
    · have hbound := finalizeAll_bounded (h.mutations tick.mutations).coherent hmutated delta i
      have hlive := congrArg ResourceRow.dirtyTolerance (hp.live i)
      rw [← hp.precision] at hbound
      exact hlive.trans_le hbound
    · exact lt_of_eq_of_lt (congrArg Precision.dirtyEpsilonOverrideMax hprecision) hmax

theorem bounded_create {definitions : Fin n → ResourceDefinition} {precision : Precision}
    (h : createResourceState definitions precision = .ok s) :
    ToleranceBounded s := by
  obtain ⟨rows, rfl, hrows⟩ := createResourceState_eq h
  exact fun i => (sanitizeDefinition_row (hrows i)).2

/-! ### Published snapshots -/

/-- **Publishes show the live store.** In every run of a created store in which the tracking sees
each flag write, every publish agrees with the live rows at every index. -/
theorem snapshots_agree {definitions : Fin n → ResourceDefinition} {precision : Precision}
    {s : ResourceState n} {ticks : List (ResourceTick n)} {states : List (ResourceState n)}
    (hcreate : createResourceState definitions precision = .ok s) (hseen : TicksSeen s ticks)
    (hrun : runResourceTicks s ticks = .ok states) :
    ∀ t ∈ states, ∀ i,
      PublishAgrees t.precision (t.live i) (t.createPublishSnapshot.active.rows i) := by
  refine ticks_tracked (coherent_create hcreate) (fun i => .inr ?_) hseen hrun
  obtain ⟨rows, rfl, -⟩ := createResourceState_eq hcreate
  exact ⟨precision.epsilonEquals_self .., precision.epsilonEqualsTop_self ..,
    precision.epsilonEquals_self .., rfl⟩

/-- A resource that starts hidden. -/
def hiddenDefinition : ResourceDefinition := { goldDefinition with visible := some false }

/-- One resource, changed and made visible in one tick, under the default precision. -/
theorem snapshots_agree_gold :
    ∃ s states, createResourceState (fun _ : Fin 1 => hiddenDefinition) .default =
        .ok s ∧
      runResourceTicks s
        [{ mutations := [.grantVisibility 0, .applyIncome 0 (.fin 3)], deltaMs := .fin 1000 }] =
        .ok states ∧
      states.length = 1 ∧
      ∀ t ∈ states, ∀ i,
        PublishAgrees t.precision (t.live i) (t.createPublishSnapshot.active.rows i) := by
  obtain ⟨s, states, hcreate, hrun, hlength⟩ := exists_run
    (fun _ : Fin 1 => hiddenDefinition) .default
    [{ mutations := [.grantVisibility 0, .applyIncome 0 (.fin 3)], deltaMs := .fin 1000 }]
    (fun states => decide (states.length = 1)) (by decide +kernel)
  have hdefault : Precision.default.dirtyEpsilonOverrideMax < 1 := by decide +kernel
  have hmax : s.precision.dirtyEpsilonOverrideMax < 1 := by
    obtain ⟨rows, hs, -⟩ := createResourceState_eq hcreate
    rw [hs]
    exact hdefault
  have hseen := ticksSeen_of_bounded (coherent_create hcreate) (bounded_create hcreate) hmax
  exact ⟨s, states, hcreate, hrun, of_decide_eq_true hlength,
    snapshots_agree hcreate (hseen _) hrun⟩

/-- **A hidden flag write.** Under a tolerance of two, a resource made visible is published as
hidden. -/
theorem snapshot_hides_visibility :
    ¬ ∀ (n : ℕ) (definitions : Fin n → ResourceDefinition) (precision : Precision)
        (s : ResourceState n) (ticks : List (ResourceTick n)) (states : List (ResourceState n)),
        createResourceState definitions precision = .ok s →
        runResourceTicks s ticks = .ok states →
        ∀ t ∈ states, ∀ i,
        PublishAgrees t.precision (t.live i) (t.createPublishSnapshot.active.rows i) := by
  intro h
  obtain ⟨s, states, hcreate, hrun, hhidden⟩ := exists_run
    (fun _ : Fin 1 => { hiddenDefinition with dirtyTolerance := some (.fin 2) })
    (.resolve none none none (some (.fin 5)))
    [{ mutations := [.grantVisibility 0], deltaMs := .fin 100 }]
    (fun states => states.any fun t =>
      decide ((t.live 0).flags.clearDirty ≠
        (t.createPublishSnapshot.active.rows 0).flags.clearDirty)) (by decide +kernel)
  obtain ⟨t, hmem, hne⟩ := List.any_eq_true.mp hhidden
  exact of_decide_eq_true hne (h _ _ _ _ _ _ hcreate hrun t hmem 0).flags

end IdleEngine
