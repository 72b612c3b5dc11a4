import Mathlib.Algebra.Order.BigOperators.Group.List
import IdleEngine.Events.Delivery

/-!
# A dispatch comes to its end

The outbound buffers keep what a tick accepts, and they are bounded; so a tick accepts boundedly
many events, whatever the handlers publish. Every event has one pass, and a pass makes one move for
each subscription. `DispatchState.measure` counts the moves that are left when no more than a given
number of subscriptions are ever made, and every move of the dispatch loops lowers it
(`measure_advance`). With the invariant of `IdleEngine.Events.Delivery` this is what the bus
promises to its subscribers (`eventBus_delivery`).
-/

namespace IdleEngine

open EarliestHead EventBus List Option Prod

variable {EventPayload : Type}

namespace EventBus

/-! ### Outbound buffers are bounded -/

/-- For every channel its capacity and how many events its outbound buffer holds. -/
def loads (bus : EventBus EventPayload) : List (ℚ × ℕ) :=
  bus.channels.map fun channel => (channel.capacity, channel.outboundBuffer.length)

/-- No outbound buffer holds more than its capacity. -/
def Fits (bus : EventBus EventPayload) : Prop :=
  ∀ load ∈ bus.loads, load.2 ≤ ⌈load.1⌉₊

/-- How many events the outbound buffers hold. -/
def outboundSize (bus : EventBus EventPayload) : ℕ :=
  (bus.loads.map Prod.snd).sum

theorem totalCapacity_eq (bus : EventBus EventPayload) :
    bus.totalCapacity = (bus.loads.map fun load => ⌈load.1⌉₊).sum := by
  rw [totalCapacity, loads, List.map_map]
  rfl

variable {bus : EventBus EventPayload}

theorem Fits.outboundSize_le (h : bus.Fits) :
    bus.outboundSize ≤ bus.totalCapacity := by
  rw [outboundSize, totalCapacity_eq]
  exact sum_le_sum h

variable {bus' : EventBus EventPayload}

theorem totalCapacity_congr (h : bus'.loads.map fst = bus.loads.map fst) :
    bus'.totalCapacity = bus.totalCapacity := by
  have hmap : ∀ loads : List (ℚ × ℕ), (loads.map fun load => ⌈load.1⌉₊) =
      (loads.map fst).map Nat.ceil := by
    intro loads
    rw [List.map_map]
    rfl
  rw [totalCapacity_eq, totalCapacity_eq, hmap, hmap, h]

/-- One more event in one of the buffers. -/
theorem sum_snd_modify : ∀ {loads : List (ℚ × ℕ)} {index : ℕ}, index < loads.length →
    ((loads.modify index fun load => (load.1, load.2 + 1)).map snd).sum =
      (loads.map snd).sum + 1
  | [], index, h => by
    rw [length_nil] at h
    omega
  | load :: loads, 0, _ => by
    simp only [modify_zero_cons, map_cons, sum_cons]
    omega
  | load :: loads, index + 1, h => by
    rw [length_cons] at h
    have hrest := sum_snd_modify (Nat.lt_of_succ_lt_succ h)
    simp only [modify_succ_cons, map_cons, sum_cons, hrest]
    omega

variable {eventType : String} {payload : EventPayload} {issuedAt : Option ℚ}

/-- What an accepted event does to the loads: one channel had room, and now holds one more. -/
theorem publish_loads {result : Unit}
    (h : bus.publish eventType payload issuedAt = (.ok result, bus')) :
    ∃ index load, bus.loads[index]? = some load ∧ (load.2 : ℚ) < load.1 ∧
      bus'.loads = bus.loads.modify index fun load => (load.1, load.2 + 1) := by
  unfold publish at h
  dsimp only at h
  split at h
  · cases (Prod.mk.inj h).1
  next channel hchannel =>
  split at h
  · cases (Prod.mk.inj h).1
  split at h
  · cases (Prod.mk.inj h).1
  next hroom =>
  split at h
  · cases (Prod.mk.inj h).1
  obtain ⟨-, rfl⟩ := Prod.mk.inj h
  refine ⟨bus.channels.findIdx fun channel => channel.type == eventType,
    (channel.capacity, channel.outboundBuffer.length), ?_, ?_, ?_⟩
  · rw [loads, getElem?_map, hchannel]
    rfl
  · have hfull : isAtCapacity channel channel.outboundBuffer = false := by
      by_contra hfull
      rw [Bool.not_eq_false] at hfull
      exact hroom (by rw [hfull, Bool.or_true])
    exact not_le.mp (of_decide_eq_false hfull)
  · refine ext_getElem? fun i => ?_
    simp only [loads, getElem?_map, getElem?_modify]
    rcases bus.channels[i]? with _ | channel
    · rfl
    · split
      · simp only [Option.map_eq_map, Option.map_some, length_append, length_singleton]
      · rfl

theorem publish_error_loads {error : String}
    (h : bus.publish eventType payload issuedAt = (.error error, bus')) :
    bus'.loads = bus.loads := by
  rw [loads, loads, (publish_error h).1]

theorem on_loads (bus : EventBus EventPayload) (eventType : String) (handler : ℕ) :
    (bus.on eventType handler).2.loads = bus.loads := by
  unfold on
  dsimp only
  split
  · rfl
  · refine ext_getElem? fun i => ?_
    simp only [loads, getElem?_map, getElem?_modify]
    rcases bus.channels[i]? with _ | channel
    · rfl
    · split
      · rfl
      · rfl

theorem unsubscribe_loads (bus : EventBus EventPayload) (handler : ℕ) :
    (bus.unsubscribe handler).loads = bus.loads := by
  rw [loads, unsubscribe, List.map_map]
  rfl

theorem clearInternalBuffers_loads (bus : EventBus EventPayload) :
    bus.clearInternalBuffers.loads = bus.loads := by
  rw [loads, clearInternalBuffers, List.map_map]
  rfl

/-- A new tick keeps the outbound buffers, or empties all of them. -/
theorem beginTick_loads (bus : EventBus EventPayload) (tick : ℚ) (resetOutbound : Bool) :
    (bus.beginTick tick resetOutbound).loads =
      bus.loads.map fun load => (load.1, if resetOutbound then 0 else load.2) := by
  rw [loads, loads, beginTick, List.map_map, List.map_map]
  refine map_congr_left ?_
  intro channel _
  rcases resetOutbound with _ | _
  · rfl
  · rfl

/-- A new bus: nothing was published and nobody subscribed. -/
def IsNew (bus : EventBus EventPayload) : Prop :=
  ∀ channel ∈ bus.channels,
    channel.internalBuffer = [] ∧ channel.outboundBuffer = [] ∧ channel.subscribers = []

theorem elim_eq_nil {γ : Type} {carried : EventChannel EventPayload → List γ}
    (hcarried : ∀ channel ∈ bus.channels, carried channel = []) (i : ℕ) :
    (bus.channels[i]?).elim [] carried = [] := by
  rcases hchannel : bus.channels[i]? with _ | channel
  · rfl
  · exact hcarried channel (mem_of_getElem? hchannel)

end EventBus

namespace BusAction

/-- A move of the dispatch loops. -/
def isAdvance : BusAction EventPayload → Bool
  | advance => true
  | _ => false

/-- The call that starts the loops. -/
def isDispatch : BusAction EventPayload → Bool
  | dispatch => true
  | _ => false

end BusAction

namespace DispatchState

/-- The buffers of a run: none is over its capacity, and what the tick accepted is in them. -/
structure Fitting (s : DispatchState EventPayload) : Prop where
  fits : s.bus.Fits
  accepted : s.accepted.length ≤ s.bus.outboundSize

variable {s : DispatchState EventPayload}

theorem Fitting.accepted_le (h : s.Fitting) :
    s.accepted.length ≤ s.bus.totalCapacity :=
  h.accepted.trans h.fits.outboundSize_le

variable {s' : DispatchState EventPayload}

theorem Fitting.congr (h : s.Fitting) (hloads : s'.bus.loads = s.bus.loads)
    (haccepted : s'.accepted = s.accepted) : s'.Fitting := by
  refine ⟨?_, ?_⟩
  · intro load hload
    rw [hloads] at hload
    exact h.fits load hload
  · rw [haccepted, EventBus.outboundSize, hloads]
    exact h.accepted

theorem Fitting.beginTick (h : s.Fitting) (tick : ℚ) (resetOutbound : Bool) :
    (s.beginTick tick resetOutbound).Fitting := by
  refine ⟨?_, Nat.zero_le _⟩
  intro load hload
  change load ∈ (s.bus.beginTick tick resetOutbound).loads at hload
  rw [beginTick_loads] at hload
  obtain ⟨old, hold, rfl⟩ := mem_map.mp hload
  rcases resetOutbound with _ | _
  · exact h.fits old hold
  · exact Nat.zero_le _

theorem Fitting.publish (h : s.Fitting) (eventType : String) (payload : EventPayload)
    (issuedAt : Option ℚ) :
    (s.publish eventType payload issuedAt).Fitting := by
  unfold DispatchState.publish
  split
  · next error bus hpublish => exact h.congr (publish_error_loads hpublish) rfl
  · next result bus hpublish =>
    obtain ⟨index, load, hload, hroom, hloads⟩ := publish_loads hpublish
    obtain ⟨hindex, -⟩ := List.getElem?_eq_some_iff.mp hload
    have hsize : bus.outboundSize = s.bus.outboundSize + 1 := by
      rw [EventBus.outboundSize, hloads]
      exact sum_snd_modify hindex
    refine ⟨?_, ?_⟩
    · intro changed hchanged
      change changed ∈ bus.loads at hchanged
      rw [hloads] at hchanged
      obtain ⟨i, hi⟩ := getElem?_of_mem hchanged
      rw [getElem?_modify] at hi
      obtain ⟨old, hold, rfl⟩ := map_eq_some_iff.mp hi
      split
      · next hsame =>
        -- the channel that had room
        rw [← hsame, hload] at hold
        obtain rfl := some.inj hold
        exact Nat.lt_ceil.mpr hroom
      · exact h.fits old (mem_of_getElem? hold)
    · change (s.accepted ++ [_]).length ≤ bus.outboundSize
      have haccepted := h.accepted
      rw [length_append, length_singleton]
      omega

theorem advance_thrown (h : s.advance = some s') :
    s'.thrown = s.thrown := by
  unfold DispatchState.advance at h
  split at h
  · cases h
  · split at h
    · obtain rfl := some.inj h
      rfl
    · obtain rfl := some.inj h
      rfl
  · split at h
    · obtain rfl := some.inj h
      rfl
    · dsimp only at h
      split at h
      · obtain rfl := some.inj h
        rfl
      · obtain rfl := some.inj h
        rfl
  · cases h

/-- What a move of the loops does to the loads: nothing. -/
theorem advance_loads (h : s.advance = some s') :
    s'.bus.loads = s.bus.loads ∧ s'.accepted = s.accepted ∧
      s'.nextSubscription = s.nextSubscription := by
  unfold DispatchState.advance at h
  split at h
  · cases h
  · split at h
    · obtain rfl := some.inj h
      exact ⟨clearInternalBuffers_loads s.bus, rfl, rfl⟩
    · obtain rfl := some.inj h
      exact ⟨rfl, rfl, rfl⟩
  · split at h
    · obtain rfl := some.inj h
      exact ⟨rfl, rfl, rfl⟩
    · dsimp only at h
      split at h
      · obtain rfl := some.inj h
        exact ⟨rfl, rfl, rfl⟩
      · obtain rfl := some.inj h
        exact ⟨rfl, rfl, rfl⟩
  · cases h

variable {action : BusAction EventPayload}

/-- **One move keeps the buffers within their capacities.** -/
theorem Fitting.step (h : s.Fitting) (hstep : s.step action = some s') :
    s'.Fitting ∧ s'.bus.totalCapacity = s.bus.totalCapacity ∧
      s.nextSubscription ≤ s'.nextSubscription := by
  rcases action with ⟨tick, resetOutbound⟩ | ⟨eventType, payload, issuedAt⟩ | eventType | handler |
    _ | _ | _ | _
  · unfold DispatchState.step at hstep
    dsimp only at hstep
    split at hstep
    · obtain rfl := some.inj hstep
      refine ⟨h.beginTick tick resetOutbound, totalCapacity_congr ?_, le_rfl⟩
      change ((s.bus.beginTick tick resetOutbound).loads.map fst) = _
      rw [beginTick_loads, List.map_map]
      rfl
    · cases hstep
  · obtain ⟨-, rfl⟩ := ite_some_none_eq_some.mp hstep
    refine ⟨h.publish eventType payload issuedAt, totalCapacity_congr ?_, ?_⟩
    · unfold DispatchState.publish
      split
      · next error bus hpublish =>
        exact congrArg (List.map fst) (publish_error_loads hpublish)
      · next result bus hpublish =>
        -- an accepted event loads one buffer and leaves its capacity
        obtain ⟨index, load, -, -, hloads⟩ := publish_loads hpublish
        change bus.loads.map fst = _
        rw [hloads]
        refine ext_getElem? fun i => ?_
        simp only [getElem?_map, getElem?_modify]
        rcases s.bus.loads[i]? with _ | load
        · rfl
        · split
          · rfl
          · rfl
    · unfold DispatchState.publish
      split
      · exact le_rfl
      · exact le_rfl
  · obtain ⟨-, rfl⟩ := ite_some_none_eq_some.mp hstep
    have hloads := on_loads s.bus eventType s.nextSubscription
    exact ⟨h.congr hloads rfl, totalCapacity_congr (congrArg _ hloads), Nat.le_succ _⟩
  · obtain ⟨-, rfl⟩ := ite_some_none_eq_some.mp hstep
    have hloads := unsubscribe_loads s.bus handler
    exact ⟨h.congr hloads rfl, totalCapacity_congr (congrArg _ hloads), le_rfl⟩
  · unfold DispatchState.step at hstep
    dsimp only at hstep
    split at hstep
    · obtain rfl := some.inj hstep
      exact ⟨h.congr rfl rfl, rfl, le_rfl⟩
    · cases hstep
  · obtain ⟨hloads, haccepted, hnext⟩ := advance_loads hstep
    exact ⟨h.congr hloads haccepted, totalCapacity_congr (congrArg _ hloads), hnext.ge⟩
  · unfold DispatchState.step at hstep
    dsimp only at hstep
    split at hstep
    · obtain rfl := some.inj hstep
      exact ⟨h.congr rfl rfl, rfl, le_rfl⟩
    · cases hstep
  · unfold DispatchState.step at hstep
    dsimp only at hstep
    split at hstep
    · obtain rfl := some.inj hstep
      exact ⟨h.congr rfl rfl, rfl, le_rfl⟩
    · cases hstep

/-! ### The moves that are left -/

/-- How many moves the loops have left, when at most `bound` subscriptions are ever made. -/
def measure (bound : ℕ) (s : DispatchState EventPayload) : ℕ :=
  let budget := (s.bus.totalCapacity - s.passes.length) * (bound + 3)
  match s.control with
  | .idle => 0
  | .selecting _ => budget + 1
  | .delivering _ _ _ position => budget - position
  | .handling _ _ _ position => budget - position - 1

/-- A channel has no more subscriptions than were ever made. -/
theorem Numbered.length_le (h : s.Numbered) (i : ℕ) :
    (s.bus.subscribersOf i).length ≤ s.nextSubscription := by
  have hnodup : (s.numbers i).Nodup := (h.increasing i).imp fun hlt => hlt.ne
  have hsubset : s.numbers i ⊆ range s.nextSubscription := by
    intro number hnumber
    exact mem_range.mpr (h.below i number hnumber)
  have hle := (subperm_of_subset hnodup hsubset).length_le
  rwa [numbers, length_map, length_range] at hle

/-- While an event is handed out, the tick has room for one more pass. -/
theorem Fitting.passes_lt (hfits : s.Fitting) {event : ℕ × EventSlot EventPayload}
    (hhead : s.remaining.head? = some event) :
    s.passes.length < s.bus.totalCapacity := by
  have hat : s.accepted[s.passes.length]? = some event := by
    rw [← head?_drop]
    exact hhead
  obtain ⟨hlt, -⟩ := List.getElem?_eq_some_iff.mp hat
  exact hlt.trans_le hfits.accepted_le

variable {bound : ℕ}

/-- **Every move of the loops lowers the measure.** -/
theorem measure_advance (hnumbered : s.Numbered) (htick : s.InTick) (hfits : s.Fitting)
    (hbound : s.nextSubscription ≤ bound) (h : s.advance = some s') :
    s'.measure bound + 1 ≤ s.measure bound := by
  unfold DispatchState.advance at h
  split at h
  · cases h
  · next cursors hcontrol =>
    split at h
    · obtain rfl := some.inj h
      simp only [measure, hcontrol]
      omega
    · obtain rfl := some.inj h
      simp only [measure, hcontrol]
      omega
  · next cursors channelIndex slot position hcontrol =>
    have hcurrent : s.control.current? = some ((channelIndex, slot), position) := by
      rw [hcontrol]
      rfl
    obtain ⟨hhead, hcount, -, -⟩ := htick.underWay _ _ hcurrent
    have hroom := hfits.passes_lt hhead
    have hlength := hnumbered.length_le channelIndex
    have hposition : position ≤ (s.bus.subscribersOf channelIndex).length := by
      rwa [numbers, length_map] at hcount
    -- one pass is paid for by the factor of the measure
    obtain ⟨free, hfree⟩ : ∃ free, s.bus.totalCapacity - s.passes.length = free + 1 :=
      ⟨s.bus.totalCapacity - s.passes.length - 1, by omega⟩
    have hmul : (free + 1) * (bound + 3) = free * (bound + 3) + (bound + 3) := by
      rw [Nat.add_mul, one_mul]
    split at h
    · obtain rfl := some.inj h
      have hless : s.bus.totalCapacity - (s.passes.length + 1) = free := by omega
      simp only [measure, hcontrol, hfree, length_append, length_singleton, hless, hmul]
      omega
    · dsimp only at h
      split at h
      · obtain rfl := some.inj h
        simp only [measure, hcontrol, hfree, hmul]
        omega
      · obtain rfl := some.inj h
        simp only [measure, hcontrol, hfree, hmul]
        omega
  · cases h

/-- After a handler threw, the dispatch is left. -/
def Quiet (s : DispatchState EventPayload) : Prop :=
  s.thrown = true → s.control = .idle

theorem Quiet.thrown_eq (h : s.Quiet) (hbusy : s.control ≠ .idle) :
    s.thrown = false := by
  by_contra hthrown
  rw [Bool.not_eq_false] at hthrown
  exact hbusy (h hthrown)

theorem measure_congr (bound : ℕ) (hcapacity : s'.bus.totalCapacity = s.bus.totalCapacity)
    (hpasses : s'.passes = s.passes) (hcontrol : s'.control = s.control) :
    s'.measure bound = s.measure bound := by
  rw [measure, measure, hcapacity, hpasses, hcontrol]

/-- What runs outside the loops does not give them more to do. -/
theorem measure_step (hsound : s.Sound) (hfits : s.Fitting) (hquiet : s.Quiet)
    (hstep : s.step action = some s') (hbound : s'.nextSubscription ≤ bound)
    (hdispatch : action.isDispatch = false) :
    s'.Quiet ∧ action.isAdvance.toNat + s'.measure bound ≤ s.measure bound := by
  obtain ⟨-, hcapacity, hnext⟩ := hfits.step hstep
  -- what leaves the control, the passes and the flag alone leaves the measure alone
  have hkept : action.isAdvance = false → s'.passes = s.passes → s'.control = s.control →
      s'.thrown = s.thrown →
      s'.Quiet ∧ action.isAdvance.toNat + s'.measure bound ≤ s.measure bound := by
    intro hadvance hpasses hcontrol hthrown
    refine ⟨?_, ?_⟩
    · intro hraised
      rw [hcontrol]
      exact hquiet (hthrown.symm.trans hraised)
    · rw [hadvance, Bool.toNat_false, Nat.zero_add, measure_congr bound hcapacity hpasses hcontrol]
  rcases action with ⟨tick, resetOutbound⟩ | ⟨eventType, payload, issuedAt⟩ | eventType | handler |
    _ | _ | _ | _
  · unfold DispatchState.step at hstep
    dsimp only at hstep
    split at hstep
    · next hidle =>
      obtain rfl := some.inj hstep
      refine ⟨fun hraised => (by cases hraised), ?_⟩
      have hcontrol : (s.beginTick tick resetOutbound).control = .idle := hidle
      simp only [BusAction.isAdvance, Bool.toNat_false, measure, hcontrol]
      omega
    · cases hstep
  · obtain ⟨-, rfl⟩ := ite_some_none_eq_some.mp hstep
    have hsame : ∀ publication : Except String Unit × EventBus EventPayload,
        s.bus.publish eventType payload issuedAt = publication →
        (s.publish eventType payload issuedAt).passes = s.passes ∧
          (s.publish eventType payload issuedAt).control = s.control ∧
          (s.publish eventType payload issuedAt).thrown = s.thrown := by
      rintro ⟨error | result, bus⟩ hpublish
      · simp only [DispatchState.publish, hpublish, and_self]
      · simp only [DispatchState.publish, hpublish, and_self]
    obtain ⟨hpasses, hcontrol, hthrown⟩ := hsame _ rfl
    exact hkept rfl hpasses hcontrol hthrown
  · obtain ⟨-, rfl⟩ := ite_some_none_eq_some.mp hstep
    exact hkept rfl rfl rfl rfl
  · obtain ⟨-, rfl⟩ := ite_some_none_eq_some.mp hstep
    exact hkept rfl rfl rfl rfl
  · cases hdispatch
  · have hbusy : s.control ≠ .idle := by
      intro hidle
      simp only [DispatchState.step, DispatchState.advance, hidle] at hstep
      cases hstep
    have hthrown := hquiet.thrown_eq hbusy
    refine ⟨?_, ?_⟩
    · intro hraised
      have hsame : s'.thrown = s.thrown := advance_thrown hstep
      rw [hsame, hthrown] at hraised
      cases hraised
    · have hless := measure_advance hsound.numbered (hsound.inTick hthrown) hfits
        (hnext.trans hbound) hstep
      rw [BusAction.isAdvance, Bool.toNat_true]
      omega
  · unfold DispatchState.step at hstep
    dsimp only at hstep
    split at hstep
    · next hcontrol =>
      obtain rfl := some.inj hstep
      refine ⟨?_, ?_⟩
      · intro hraised
        have hthrown := hquiet hraised
        rw [hcontrol] at hthrown
        cases hthrown
      · simp only [BusAction.isAdvance, Bool.toNat_false, measure, hcontrol]
        omega
    · cases hstep
  · unfold DispatchState.step at hstep
    dsimp only at hstep
    split at hstep
    · obtain rfl := some.inj hstep
      refine ⟨fun _ => rfl, ?_⟩
      simp only [BusAction.isAdvance, Bool.toNat_false, measure]
      omega
    · cases hstep

variable {actions : List (BusAction EventPayload)}

/-- **The moves of a run are paid for by the measure.** -/
theorem measure_run (hsound : s.Sound) (hfits : s.Fitting) (hquiet : s.Quiet)
    (hrun : run actions s = some s') (hdispatch : ∀ action ∈ actions, action.isDispatch = false) :
    s.nextSubscription ≤ s'.nextSubscription ∧ ∀ bound, s'.nextSubscription ≤ bound →
      actions.countP BusAction.isAdvance + s'.measure bound ≤ s.measure bound := by
  induction actions generalizing s with
  | nil =>
    obtain rfl := some.inj hrun
    exact ⟨le_rfl, fun bound _ => by rw [countP_nil, Nat.zero_add]⟩
  | cons action actions ih =>
    obtain ⟨middle, hstep, hrest⟩ := bind_eq_some_iff.mp hrun
    obtain ⟨hfits', -, hnext⟩ := hfits.step hstep
    have hfirst := hdispatch action (mem_cons_self ..)
    have hquiet' : middle.Quiet :=
      (measure_step hsound hfits hquiet hstep le_rfl hfirst).1
    obtain ⟨hlater, hrun'⟩ := ih (hsound.step hstep) hfits' hquiet' hrest
      fun other hother => hdispatch other (mem_cons_of_mem _ hother)
    refine ⟨hnext.trans hlater, ?_⟩
    intro bound hbound
    have hhead := (measure_step hsound hfits hquiet hstep (hlater.trans hbound) hfirst).2
    have htail := hrun' bound hbound
    rw [countP_cons]
    rcases hadvance : action.isAdvance with _ | _
    · rw [hadvance, Bool.toNat_false] at hhead
      rw [if_neg Bool.false_ne_true]
      omega
    · rw [hadvance, Bool.toNat_true] at hhead
      rw [if_pos rfl]
      omega

/-! ### What the bus promises -/

variable {bus : EventBus EventPayload}

theorem Sound.create (hnew : bus.IsNew) : (create bus).Sound := by
  have hsubscribers : ∀ i, bus.subscribersOf i = [] :=
    elim_eq_nil fun channel hmem => (hnew channel hmem).2.2
  have hinternal : ∀ i, bus.internalOf i = [] :=
    elim_eq_nil fun channel hmem => (hnew channel hmem).1
  have houtbound : ∀ i, bus.outboundOf i = [] :=
    elim_eq_nil fun channel hmem => (hnew channel hmem).2.1
  have hnumbers : ∀ i, (DispatchState.create bus).numbers i = [] := by
    intro i
    rw [numbers]
    exact congrArg _ (hsubscribers i)
  refine ⟨⟨?_, ?_⟩, houtbound, fun _ => ?_⟩
  · intro i
    rw [hnumbers i]
    exact .nil
  · intro i number hnumber
    rw [hnumbers i] at hnumber
    cases hnumber
  · refine ⟨rfl, .nil, ?_, ?_, ?_, ?_, ?_, ?_⟩
    · intro event hevent
      cases hevent
    · intro event hevent
      cases hevent
    · intro cursors hcursors
      cases hcursors
    · intro i
      change 0 ≤ (bus.internalOf i).length ∧ (bus.internalOf i).drop 0 = []
      rw [hinternal i]
      exact ⟨le_rfl, rfl⟩
    · intro event count hcurrent
      cases hcurrent
    · intro pass hpass
      cases hpass

theorem Fitting.create (hnew : bus.IsNew) :
    (create bus).Fitting := by
  refine ⟨?_, Nat.zero_le _⟩
  intro load hload
  obtain ⟨channel, hmem, rfl⟩ := mem_map.mp hload
  dsimp only
  rw [(hnew channel hmem).2.1]
  exact Nat.zero_le _

theorem Fitting.run (h : s.Fitting) (hrun : run actions s = some s') : s'.Fitting := by
  induction actions generalizing s with
  | nil =>
    obtain rfl := some.inj hrun
    exact h
  | cons action actions ih =>
    obtain ⟨middle, hstep, hrest⟩ := bind_eq_some_iff.mp hrun
    exact ih (h.step hstep).1 hrest

/-- What the subscribers of a tick saw. -/
structure Delivered (s : DispatchState EventPayload) : Prop where
  /-- the passes were made in the order of publication, one for each event -/
  order : s.passes.map DispatchPass.event <+: s.accepted
  increasing : s.passes.Pairwise fun a b => a.slot.dispatchOrder < b.slot.dispatchOrder
  /-- a pass came once to every subscription of its channel that was made before its end -/
  once : ∀ pass ∈ s.passes, (pass.visits.map Prod.fst).Pairwise (· < ·) ∧
    pass.visits.map Prod.fst =
      (s.numbers pass.channelIndex).filter fun number => decide (number < pass.closedAt)
  /-- a subscription that is still active was handed the event -/
  active : ∀ pass ∈ s.passes, Flagged (s.bus.subscribersOf pass.channelIndex) pass.visits

theorem Sound.delivered (h : s.Sound) (hthrown : s.thrown = false) :
    s.Delivered := by
  have htick := h.inTick hthrown
  have hextends : s.passes.map DispatchPass.event <+: s.accepted := by
    rw [htick.taken]
    exact take_prefix _ _
  refine ⟨hextends, ?_, ?_, fun pass hpass => (htick.finished pass hpass).2.2⟩
  · have hsorted := htick.increasing.sublist hextends.sublist
    exact (pairwise_map (f := DispatchPass.event)).mp hsorted
  · intro pass hpass
    obtain ⟨-, hvisited, -⟩ := htick.finished pass hpass
    refine ⟨?_, hvisited⟩
    rw [hvisited]
    exact (h.numbered.increasing pass.channelIndex).filter _

theorem Sound.complete (h : s.Sound) (hthrown : s.thrown = false) (hadvance : s.advance = some s')
    (hidle : s'.control = .idle) :
    s'.passes.map DispatchPass.event = s'.accepted := by
  unfold DispatchState.advance at hadvance
  split at hadvance
  · cases hadvance
  · next cursors hcontrol =>
    split at hadvance
    · next hnone =>
      obtain rfl := some.inj hadvance
      have htick := h.inTick hthrown
      have hsplit := htick.split
      rw [htick.idle_of_none hcontrol hnone, append_nil] at hsplit
      exact hsplit.symm
    · obtain rfl := some.inj hadvance
      cases hidle
  · split at hadvance
    · obtain rfl := some.inj hadvance
      cases hidle
    · dsimp only at hadvance
      split at hadvance
      · obtain rfl := some.inj hadvance
        cases hidle
      · obtain rfl := some.inj hadvance
        cases hidle
  · cases hadvance

/-- Between the calls of handlers the loops can always go on. -/
theorem advance_isSome (h : s.callable = false) :
    ∃ s', s.step .advance = some s' := by
  rw [callable] at h
  change ∃ s', s.advance = some s'
  unfold DispatchState.advance
  split at h
  · cases h
  · cases h
  · next hidle hhandling =>
    split
    · next hcontrol => exact absurd hcontrol hidle
    · split
      · exact ⟨_, rfl⟩
      · exact ⟨_, rfl⟩
    · split
      · exact ⟨_, rfl⟩
      · dsimp only
        split
        · exact ⟨_, rfl⟩
        · exact ⟨_, rfl⟩
    · next hcontrol => exact absurd hcontrol (hhandling _ _ _ _)

/-- **Delivery.** In every run on a new bus, whatever is published, subscribed and cancelled and by
whom: the outbound buffers hold what was accepted since they were reset, in publication order; and
in a tick in which no handler threw, the accepted events are handed out in publication order, each
in one pass over the subscriptions of its channel, and a dispatch that returns left none out. The
loops never get stuck, and a dispatch makes boundedly many moves unless handlers subscribe without
end. -/
theorem eventBus_delivery {bus : EventBus EventPayload} (hnew : bus.IsNew)
    {actions : List (BusAction EventPayload)} {s : DispatchState EventPayload}
    (hrun : run actions (create bus) = some s) :
    (∀ i, s.bus.outboundOf i = stream i s.exported) ∧
      (s.thrown = false → s.Delivered ∧ ∀ s', s.step .advance = some s' → s'.control = .idle →
        s'.passes.map DispatchPass.event = s'.accepted) ∧
      (s.callable = false → ∃ s', s.step .advance = some s') ∧
      (s.thrown = false → ∀ started, s.step .dispatch = some started →
        ∀ moves s', run moves started = some s' →
          (∀ move ∈ moves, move.isDispatch = false) →
          moves.countP BusAction.isAdvance ≤
            s.bus.totalCapacity * (s'.nextSubscription + 3) + 1) := by
  have hsound : s.Sound := (Sound.create hnew).run hrun
  have hfits : s.Fitting := (Fitting.create hnew).run hrun
  refine ⟨hsound.exported, ?_, advance_isSome, ?_⟩
  · intro hthrown
    exact ⟨hsound.delivered hthrown, fun s' hadvance hidle =>
      hsound.complete hthrown hadvance hidle⟩
  · intro hthrown started hstarted moves s' hmoves hdispatch
    have hkept : started.thrown = s.thrown := by
      unfold DispatchState.step at hstarted
      dsimp only at hstarted
      split at hstarted
      · obtain rfl := Option.some.inj hstarted
        rfl
      · cases hstarted
    have hquiet : started.Quiet := by
      intro hraised
      rw [hkept, hthrown] at hraised
      cases hraised
    obtain ⟨hfits', hcapacity, -⟩ := hfits.step hstarted
    have hpaid := (measure_run (hsound.step hstarted) hfits' hquiet hmoves hdispatch).2 _ le_rfl
    have hstart : started.measure s'.nextSubscription ≤
        s.bus.totalCapacity * (s'.nextSubscription + 3) + 1 := by
      have hbudget : (started.bus.totalCapacity - started.passes.length) *
          (s'.nextSubscription + 3) ≤ s.bus.totalCapacity * (s'.nextSubscription + 3) := by
        refine Nat.mul_le_mul_right _ ?_
        omega
      rw [measure]
      split
      · omega
      · omega
      · omega
      · omega
    omega

/-- **Overflow.** In every run on a new bus no outbound buffer is over its capacity, and no tick
accepts more than the capacities together, whatever its handlers publish. -/
theorem run_within_capacity {bus : EventBus EventPayload} (hnew : bus.IsNew)
    {actions : List (BusAction EventPayload)} {s : DispatchState EventPayload}
    (hrun : run actions (create bus) = some s) :
    (∀ channel ∈ s.bus.channels, channel.outboundBuffer.length ≤ ⌈channel.capacity⌉₊) ∧
      s.accepted.length ≤ s.bus.totalCapacity := by
  have hfits : s.Fitting := (Fitting.create hnew).run hrun
  exact ⟨fun channel hmem => hfits.fits _ (mem_map_of_mem hmem), hfits.accepted_le⟩

/-- A bus with two channels that hold up to two events each. -/
def sampleBus : EventBus Unit :=
  let channel (type : String) : EventChannel Unit :=
    { type, capacity := 2, capacity_pos := two_pos, validator := fun _ => none,
      internalBuffer := [], outboundBuffer := [], subscribers := [] }
  { channels := [channel "resource", channel "unlock"], currentTick := 0, dispatchCounter := 0,
    tickAborted := false, lastOverflowError := none, now := 0 }

theorem sampleBus_isNew : sampleBus.IsNew := by
  intro channel hmem
  rcases mem_cons.mp hmem with rfl | hmem
  · exact ⟨rfl, rfl, rfl⟩
  · rw [mem_singleton.mp hmem]
    exact ⟨rfl, rfl, rfl⟩

/-- The third event of a channel is refused. -/
theorem run_within_capacity_sample :
    let publish : BusAction Unit := .publish "unlock" () none
    ∃ s, run [.beginTick 0 true, publish, publish, publish] (create sampleBus) = some s ∧
      s.accepted.length = 2 ∧ s.accepted.length ≤ s.bus.totalCapacity := by
  intro publish
  have hrun : run [.beginTick 0 true, publish, publish, publish] (create sampleBus) = some _ := rfl
  exact ⟨_, hrun, rfl, (run_within_capacity sampleBus_isNew hrun).2⟩

/-- The handler of a resource event publishes an unlock event, which nobody subscribed to: both
events have their pass, in this order. -/
theorem eventBus_delivery_sample :
    ∃ s, run [.beginTick 0 true, .on "resource", .publish "resource" () none, .dispatch, .advance,
        .advance, .publish "unlock" () none, .returns, .advance, .advance, .advance]
          (create sampleBus) = some s ∧
      s.thrown = false ∧ s.passes.map (fun pass => (pass.channelIndex, pass.visits)) =
        [(0, [(0, true)]), (1, [])] ∧
      ∃ s', s.step .advance = some s' ∧ s'.passes.map DispatchPass.event = s'.accepted := by
  have hrun : run [.beginTick 0 true, .on "resource", .publish "resource" () none, .dispatch,
      .advance, .advance, .publish "unlock" () none, .returns, .advance, .advance, .advance]
      (create sampleBus) = some _ := rfl
  refine ⟨_, hrun, rfl, rfl, _, rfl, ?_⟩
  exact ((eventBus_delivery sampleBus_isNew hrun).2.1 rfl).2 _ rfl rfl

/-- **A handler that throws.** Two subscribers, the second of which throws: the event keeps its
place in the internal buffer, and the next dispatch hands it to the first one again. -/
theorem eventBus_redelivers_after_throw :
    ∃ s s', run [.beginTick 0 true, .on "resource", .on "resource", .publish "resource" () none,
        .dispatch, .advance, .advance] (create sampleBus) = some s ∧
      s.visits = [(0, true)] ∧ s.control.current?.map (fun current => current.1.1) = some 0 ∧
      run [.returns, .advance, .throws, .dispatch, .advance, .advance] s = some s' ∧
      s'.visits = [(0, true)] ∧ s'.accepted.length = 1 ∧
      s'.control.current?.map (fun current => current.1.2.dispatchOrder) =
        s.control.current?.map fun current => current.1.2.dispatchOrder :=
  ⟨_, _, rfl, rfl, rfl, rfl, rfl, rfl, rfl⟩

end DispatchState

end IdleEngine
