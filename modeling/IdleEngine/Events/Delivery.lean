import IdleEngine.Lib.EarliestHead
import IdleEngine.Events.Dispatch

/-!
# What a dispatch delivers

Between two `beginTick`s the accepted events, in the order in which they were published, are split
in two: those that had their pass over the subscriptions, and those that remain. What remains is
spread over the channels' buffers behind the cursors, and merging the buffers by the smallest
dispatch order gives it back in order (`InTick`). So the passes are made in publication order, and
when a dispatch returns every accepted event has had its pass (`eventBus_delivery`).

All this holds as long as no handler throws. A handler that throws leaves the dispatch with the
buffers as they are, and the next dispatch starts over with them
(`eventBus_redelivers_after_throw`).
-/

namespace IdleEngine

open EarliestHead EventBus List Option Prod

variable {EventPayload : Type}

namespace EventBus

/-! ### What each operation does to the buffers -/

variable {γ β : Type}

theorem elim_map (channels : List γ) (f : γ → γ) (carried : γ → List β) (i : ℕ) :
    ((channels.map f)[i]?).elim [] carried = (channels[i]?).elim [] (carried ∘ f) := by
  rw [getElem?_map]
  rcases channels[i]? with _ | channel
  · rfl
  · rfl

theorem elim_modify (channels : List γ) (index : ℕ) (f : γ → γ) (carried : γ → List β) (i : ℕ) :
    ((channels.modify index f)[i]?).elim [] carried =
      if index = i then (channels[i]?).elim [] (carried ∘ f)
      else (channels[i]?).elim [] carried := by
  by_cases hi : index = i
  · subst hi
    rw [if_pos rfl, getElem?_modify_eq]
    rcases channels[index]? with _ | channel
    · rfl
    · rfl
  · rw [if_neg hi, getElem?_modify_ne _ _ hi]

variable {bus : EventBus EventPayload}

variable {eventType : String} {payload : EventPayload} {issuedAt : Option ℚ}
  {bus' : EventBus EventPayload}

/-- An event that is not accepted leaves buffers and subscriptions alone. -/
theorem publish_error {error : String}
    (h : bus.publish eventType payload issuedAt = (.error error, bus')) :
    bus'.channels = bus.channels ∧ bus.dispatchCounter ≤ bus'.dispatchCounter := by
  unfold publish at h
  dsimp only at h
  split at h
  · obtain ⟨-, rfl⟩ := Prod.mk.inj h
    exact ⟨rfl, le_rfl⟩
  split at h
  · obtain ⟨-, rfl⟩ := Prod.mk.inj h
    exact ⟨rfl, le_rfl⟩
  split at h
  · obtain ⟨-, rfl⟩ := Prod.mk.inj h
    exact ⟨rfl, le_rfl⟩
  split at h
  · obtain ⟨-, rfl⟩ := Prod.mk.inj h
    exact ⟨rfl, Nat.le_succ _⟩
  · cases (Prod.mk.inj h).1

/-- An accepted event stands at the end of both buffers of its channel. -/
theorem publish_ok {result : Unit}
    (h : bus.publish eventType payload issuedAt = (.ok result, bus')) :
    let event := bus.publishedEvent eventType payload issuedAt
    event.1 < bus.channels.length ∧ bus'.channels.length = bus.channels.length ∧
      bus'.dispatchCounter = bus.dispatchCounter + 1 ∧
      (∀ i, bus'.internalOf i = bus.internalOf i ++ stream i [event]) ∧
      (∀ i, bus'.outboundOf i = bus.outboundOf i ++ stream i [event]) ∧
      ∀ i, bus'.subscribersOf i = bus.subscribersOf i := by
  intro event
  unfold publish at h
  dsimp only at h
  split at h
  · cases (Prod.mk.inj h).1
  next channel hchannel =>
  split at h
  · cases (Prod.mk.inj h).1
  split at h
  · cases (Prod.mk.inj h).1
  split at h
  · cases (Prod.mk.inj h).1
  obtain ⟨-, rfl⟩ := Prod.mk.inj h
  have hindex : event.1 < bus.channels.length := (List.getElem?_eq_some_iff.mp hchannel).1
  have hat : bus.channels[event.1]? = some channel := hchannel
  -- one buffer gets the slot, in the channel of the event
  have hpushed : ∀ (buffer : EventChannel EventPayload → List (EventSlot EventPayload))
      (push : EventChannel EventPayload → EventChannel EventPayload),
      (∀ c, buffer (push c) = buffer c ++ [event.2]) → ∀ i,
      ((bus.channels.modify event.1 push)[i]?).elim [] buffer =
        (bus.channels[i]?).elim [] buffer ++ stream i [event] := by
    intro buffer push hpush i
    rw [elim_modify]
    by_cases hi : event.1 = i
    · have hstream : stream i [event] = [event.2] := by
        rw [← hi]
        exact stream_cons_self event.1 event.2 []
      rw [if_pos hi, hstream, ← hi, hat]
      exact hpush channel
    · have hstream : stream i [event] = [] := stream_cons_of_ne hi event.2 []
      rw [if_neg hi, hstream, append_nil]
  refine ⟨hindex, length_modify _ _ _, rfl, ?_, ?_, ?_⟩
  · exact hpushed (·.internalBuffer) _ fun _ => rfl
  · exact hpushed (·.outboundBuffer) _ fun _ => rfl
  · intro i
    change ((bus.channels.modify event.1 _)[i]?).elim [] (·.subscribers) = _
    rw [elim_modify]
    split
    · rfl
    · rfl

/-- A subscription changes the subscriptions of one channel, by one at the end. -/
theorem on_spec (bus : EventBus EventPayload) (eventType : String) (handler : ℕ) :
    (bus.on eventType handler).2.channels.length = bus.channels.length ∧
      (bus.on eventType handler).2.dispatchCounter = bus.dispatchCounter ∧
      (∀ i, (bus.on eventType handler).2.internalOf i = bus.internalOf i) ∧
      (∀ i, (bus.on eventType handler).2.outboundOf i = bus.outboundOf i) ∧
      ∀ i, (bus.on eventType handler).2.subscribersOf i = bus.subscribersOf i ∨
        (bus.on eventType handler).2.subscribersOf i =
          bus.subscribersOf i ++ [{ active := true, handler }] := by
  unfold on
  dsimp only
  split
  · exact ⟨rfl, rfl, fun _ => rfl, fun _ => rfl, fun _ => .inl rfl⟩
  next channel hchannel =>
  refine ⟨length_modify _ _ _, rfl, ?_, ?_, ?_⟩
  · intro i
    rw [internalOf, elim_modify]
    split
    · rfl
    · rfl
  · intro i
    rw [outboundOf, elim_modify]
    split
    · rfl
    · rfl
  · intro i
    simp only [subscribersOf]
    rw [elim_modify]
    split
    · next hi =>
      rw [← hi, hchannel]
      exact .inr rfl
    · exact .inl rfl

/-- Cancelling touches only the flags of subscriptions. -/
theorem unsubscribe_spec (bus : EventBus EventPayload) (handler : ℕ) :
    (bus.unsubscribe handler).channels.length = bus.channels.length ∧
      (∀ i, (bus.unsubscribe handler).internalOf i = bus.internalOf i) ∧
      (∀ i, (bus.unsubscribe handler).outboundOf i = bus.outboundOf i) ∧
      ∀ i, (bus.unsubscribe handler).subscribersOf i =
        (bus.subscribersOf i).map fun subscriber =>
          if subscriber.handler = handler then { subscriber with active := false }
          else subscriber := by
  refine ⟨length_map _, ?_, ?_, ?_⟩
  · exact fun i => elim_map _ _ _ i
  · exact fun i => elim_map _ _ _ i
  · intro i
    simp only [subscribersOf, unsubscribe]
    rw [elim_map]
    rcases bus.channels[i]? with _ | channel
    · rfl
    · rfl

theorem clearInternalBuffers_spec (bus : EventBus EventPayload) :
    bus.clearInternalBuffers.channels.length = bus.channels.length ∧
      (∀ i, bus.clearInternalBuffers.internalOf i = []) ∧
      (∀ i, bus.clearInternalBuffers.outboundOf i = bus.outboundOf i) ∧
      ∀ i, bus.clearInternalBuffers.subscribersOf i = bus.subscribersOf i := by
  refine ⟨length_map _, ?_, ?_, ?_⟩
  · intro i
    simp only [internalOf, clearInternalBuffers]
    rw [elim_map]
    rcases bus.channels[i]? with _ | channel
    · rfl
    · rfl
  · exact fun i => elim_map _ _ _ i
  · exact fun i => elim_map _ _ _ i

/-- A new tick: empty internal buffers, and the subscriptions that are still active. -/
theorem beginTick_spec (bus : EventBus EventPayload) (tick : ℚ) (resetOutbound : Bool) :
    (bus.beginTick tick resetOutbound).channels.length = bus.channels.length ∧
      (∀ i, (bus.beginTick tick resetOutbound).internalOf i = []) ∧
      (∀ i, (bus.beginTick tick resetOutbound).outboundOf i =
        if resetOutbound then [] else bus.outboundOf i) ∧
      ∀ i, (bus.beginTick tick resetOutbound).subscribersOf i =
        (bus.subscribersOf i).filter (·.active) := by
  refine ⟨length_map _, ?_, ?_, ?_⟩
  · intro i
    simp only [internalOf, beginTick]
    rw [elim_map]
    rcases bus.channels[i]? with _ | channel
    · rfl
    · rfl
  · intro i
    simp only [outboundOf, beginTick]
    rw [elim_map]
    rcases bus.channels[i]? with _ | channel
    · cases resetOutbound <;> rfl
    · rfl
  · intro i
    simp only [subscribersOf, beginTick]
    rw [elim_map]
    rcases bus.channels[i]? with _ | channel
    · rfl
    · rfl

/-! ### The choice of the next event -/

/-- **The next event.** When the buffers behind the cursors hold some events in publication order,
the next candidate is the first of them. -/
theorem findNextDispatchCandidate_eq {cursors : List ℕ}
    {remaining : List (ℕ × EventSlot EventPayload)}
    (hsorted : remaining.Pairwise fun a b => a.2.dispatchOrder < b.2.dispatchOrder)
    (hrange : ∀ event ∈ remaining, event.1 < bus.channels.length)
    (hbuffers : ∀ i, (bus.internalOf i).drop (cursors.getD i 0) = stream i remaining) :
    bus.findNextDispatchCandidate cursors = remaining.head? := by
  have hheads : heads (bus.channels.zipIdx.map snd) remaining =
      bus.channels.zipIdx.filterMap fun entry =>
        (entry.1.internalBuffer[cursors.getD entry.2 0]?).map fun slot => (entry.2, slot) := by
    rw [heads, filterMap_map]
    refine filterMap_congr ?_
    rintro ⟨channel, index⟩ hmem
    have hchannel : bus.channels[index]? = some channel := mem_zipIdx_iff_getElem?.mp hmem
    have hbuffer : bus.internalOf index = channel.internalBuffer := by
      rw [internalOf, hchannel]
      rfl
    have hhead : (stream index remaining).head? =
        channel.internalBuffer[cursors.getD index 0]? := by
      rw [← hbuffers index, hbuffer, head?_drop]
    simp only [Function.comp_apply, hhead]
  have hscan : bus.findNextDispatchCandidate cursors =
      (heads (bus.channels.zipIdx.map snd) remaining).foldl
        (EarliestHead.earlier fun item => item.2.dispatchOrder) none := by
    rw [hheads, foldl_filterMap, findNextDispatchCandidate]
    congr 1
    funext held entry
    obtain ⟨channel, index⟩ := entry
    rcases hcandidate : channel.internalBuffer[cursors.getD index 0]? with _ | candidate
    · simp only [hcandidate, map_none]
    · rcases held with _ | ⟨heldIndex, slot⟩
      · simp only [hcandidate, map_some, EventBus.earlier, EarliestHead.earlier]
      · simp only [hcandidate, map_some, EventBus.earlier, EarliestHead.earlier]
        split
        · rfl
        · rfl
  rw [hscan]
  refine earliest_heads hsorted ?_
  intro event hevent
  rw [zipIdx_map_snd]
  exact mem_range'_1.mpr ⟨Nat.zero_le _, by simpa using hrange event hevent⟩

end EventBus

namespace DispatchControl

/-- The cursors of a dispatch under way. -/
def cursors? : DispatchControl EventPayload → Option (List ℕ)
  | idle => none
  | selecting cursors => some cursors
  | delivering cursors _ _ _ => some cursors
  | handling cursors _ _ _ => some cursors

/-- How many events of a channel's internal buffer the dispatch has behind it. -/
def cursorOf (control : DispatchControl EventPayload) (i : ℕ) : ℕ :=
  (control.cursors?.getD []).getD i 0

/-- The event that is handed out, and how many subscriptions were reached. -/
def current? : DispatchControl EventPayload → Option ((ℕ × EventSlot EventPayload) × ℕ)
  | idle => none
  | selecting _ => none
  | delivering _ channelIndex slot position => some ((channelIndex, slot), position)
  | handling _ channelIndex slot position => some ((channelIndex, slot), position + 1)

end DispatchControl

namespace DispatchState

/-! ### The invariants -/

/-- The numbers of a channel's subscriptions, in the order of the array. -/
def numbers (s : DispatchState EventPayload) (i : ℕ) : List ℕ :=
  (s.bus.subscribersOf i).map (·.handler)

/-- Subscriptions are numbered in the order in which they were made. -/
structure Numbered (s : DispatchState EventPayload) : Prop where
  increasing : ∀ i, (s.numbers i).Pairwise (· < ·)
  below : ∀ i, ∀ number ∈ s.numbers i, number < s.nextSubscription

/-- The outbound buffers hold what was accepted since they were reset. -/
def Exported (s : DispatchState EventPayload) : Prop :=
  ∀ i, s.bus.outboundOf i = stream i s.exported

/-- The accepted events that had no pass yet. -/
def remaining (s : DispatchState EventPayload) : List (ℕ × EventSlot EventPayload) :=
  s.accepted.drop s.passes.length

/-- A subscription that is active now was active when it was visited. -/
def Flagged (subscribers : List EventSubscriber) (visits : List (ℕ × Bool)) : Prop :=
  ∀ visit ∈ visits, ∀ subscriber ∈ subscribers, subscriber.handler = visit.1 →
    subscriber.active = true → visit.2 = true

/-- What holds within a tick in which no handler threw. -/
structure InTick (s : DispatchState EventPayload) : Prop where
  taken : s.passes.map DispatchPass.event = s.accepted.take s.passes.length
  increasing : s.accepted.Pairwise fun a b => a.2.dispatchOrder < b.2.dispatchOrder
  below : ∀ event ∈ s.accepted, event.2.dispatchOrder < s.bus.dispatchCounter
  inRange : ∀ event ∈ s.accepted, event.1 < s.bus.channels.length
  cursors : ∀ cursors, s.control.cursors? = some cursors →
    cursors.length = s.bus.channels.length
  /-- behind the cursors stand the events that remain -/
  buffers : ∀ i, s.control.cursorOf i ≤ (s.bus.internalOf i).length ∧
    (s.bus.internalOf i).drop (s.control.cursorOf i) = stream i s.remaining
  /-- the event under way is the first that remains, and it visited the subscriptions so far -/
  underWay : ∀ event count, s.control.current? = some (event, count) →
    s.remaining.head? = some event ∧ count ≤ (s.numbers event.1).length ∧
      s.visits.map Prod.fst = (s.numbers event.1).take count ∧
      Flagged (s.bus.subscribersOf event.1) s.visits
  /-- a finished pass visited every subscription made before its end -/
  finished : ∀ pass ∈ s.passes, pass.closedAt ≤ s.nextSubscription ∧
    pass.visits.map Prod.fst =
      (s.numbers pass.channelIndex).filter (fun number => decide (number < pass.closedAt)) ∧
    Flagged (s.bus.subscribersOf pass.channelIndex) pass.visits

variable {s : DispatchState EventPayload}

theorem InTick.passes_le (h : s.InTick) :
    s.passes.length ≤ s.accepted.length := by
  have hlength := congrArg length h.taken
  rw [length_map, length_take] at hlength
  omega

theorem InTick.split (h : s.InTick) :
    s.accepted = s.passes.map DispatchPass.event ++ s.remaining := by
  rw [h.taken, remaining, take_append_drop]

/-! ### Operations of handlers and callers -/

/-- The subscriptions of a channel change: new ones have new numbers, and none becomes active
again. -/
structure Evolves (next : ℕ) (before after : List EventSubscriber) : Prop where
  numbers : ∃ added : List ℕ, after.map (·.handler) = before.map (·.handler) ++ added ∧
    ∀ number ∈ added, next ≤ number
  active : ∀ subscriber ∈ after, subscriber.active = true →
    next ≤ subscriber.handler ∨ ∃ old ∈ before, old.handler = subscriber.handler ∧
      old.active = true

theorem evolves_refl (next : ℕ) (subscribers : List EventSubscriber) :
    Evolves next subscribers subscribers :=
  ⟨⟨[], by simp, by simp⟩, fun subscriber hmem hactive => .inr ⟨subscriber, hmem, rfl, hactive⟩⟩

theorem Flagged.evolves {next : ℕ} {before after : List EventSubscriber} {visits : List (ℕ × Bool)}
    (h : Flagged before visits) (hevolves : Evolves next before after)
    (hvisits : ∀ visit ∈ visits, visit.1 < next) : Flagged after visits := by
  intro visit hvisit subscriber hsubscriber hnumber hactive
  rcases hevolves.active subscriber hsubscriber hactive with hnew | ⟨old, hold, hsame, hwas⟩
  · have hlt := hvisits visit hvisit
    omega
  · exact h visit hvisit old hold (hsame.trans hnumber) hwas

variable {s' : DispatchState EventPayload}

/-- **What code outside the dispatch loops keeps.** Whatever it publishes goes to the end of the
buffers, and whatever it subscribes to the end of the subscriptions. -/
theorem InTick.evolve (h : s.InTick) (hnumbered : s.Numbered)
    (added : List (ℕ × EventSlot EventPayload)) (hcontrol : s'.control = s.control)
    (hpasses : s'.passes = s.passes) (hvisits : s'.visits = s.visits)
    (hnext : s.nextSubscription ≤ s'.nextSubscription)
    (hlength : s'.bus.channels.length = s.bus.channels.length)
    (haccepted : s'.accepted = s.accepted ++ added)
    (hinternal : ∀ i, s'.bus.internalOf i = s.bus.internalOf i ++ stream i added)
    (hsubscribers : ∀ i,
      Evolves s.nextSubscription (s.bus.subscribersOf i) (s'.bus.subscribersOf i))
    (hcounter : s.bus.dispatchCounter ≤ s'.bus.dispatchCounter)
    (hadded : ∀ event ∈ added, event.1 < s.bus.channels.length ∧
      s.bus.dispatchCounter ≤ event.2.dispatchOrder ∧
      event.2.dispatchOrder < s'.bus.dispatchCounter)
    (hsorted : added.Pairwise fun a b => a.2.dispatchOrder < b.2.dispatchOrder) : s'.InTick := by
  have hle := h.passes_le
  have hremaining : s'.remaining = s.remaining ++ added := by
    rw [remaining, haccepted, hpasses, drop_append_of_le_length hle]
    rfl
  -- the subscriptions that were there keep their numbers and places
  have hnumbers : ∀ i, ∃ more : List ℕ, s'.numbers i = s.numbers i ++ more ∧
      ∀ number ∈ more, s.nextSubscription ≤ number := fun i => (hsubscribers i).numbers
  refine ⟨?_, ?_, ?_, ?_, ?_, ?_, ?_, ?_⟩
  · rw [hpasses, haccepted, take_append_of_le_length hle]
    exact h.taken
  · rw [haccepted]
    refine pairwise_append.mpr ⟨h.increasing, hsorted, ?_⟩
    intro a ha b hb
    exact (h.below a ha).trans_le (hadded b hb).2.1
  · rw [haccepted]
    intro event hevent
    rcases mem_append.mp hevent with hold | hnew
    · exact (h.below event hold).trans_le hcounter
    · exact (hadded event hnew).2.2
  · rw [haccepted, hlength]
    intro event hevent
    rcases mem_append.mp hevent with hold | hnew
    · exact h.inRange event hold
    · exact (hadded event hnew).1
  · rw [hcontrol, hlength]
    exact h.cursors
  · intro i
    obtain ⟨hcursor, hdrop⟩ := h.buffers i
    rw [hcontrol, hinternal, hremaining, stream_append, drop_append_of_le_length hcursor, hdrop]
    refine ⟨?_, rfl⟩
    rw [length_append]
    omega
  · intro event count hcurrent
    rw [hcontrol] at hcurrent
    obtain ⟨hhead, hcount, hvisited, hflags⟩ := h.underWay event count hcurrent
    obtain ⟨more, hmore, -⟩ := hnumbers event.1
    refine ⟨?_, ?_, ?_, ?_⟩
    · rw [hremaining]
      rcases hrest : s.remaining with _ | ⟨first, rest⟩
      · rw [hrest] at hhead
        cases hhead
      · rw [hrest] at hhead
        exact hhead
    · rw [hmore, length_append]
      omega
    · rw [hvisits, hmore, take_append_of_le_length hcount]
      exact hvisited
    · rw [hvisits]
      refine hflags.evolves (hsubscribers event.1) ?_
      intro visit hvisit
      have hmem : visit.1 ∈ s.visits.map fst := mem_map_of_mem hvisit
      rw [hvisited] at hmem
      exact hnumbered.below event.1 visit.1 (mem_of_mem_take hmem)
  · intro pass hpass
    rw [hpasses] at hpass
    obtain ⟨hclosed, hvisited, hflags⟩ := h.finished pass hpass
    obtain ⟨more, hmore, hnew⟩ := hnumbers pass.channelIndex
    refine ⟨hclosed.trans hnext, ?_, ?_⟩
    · have hnone : more.filter (fun number => decide (number < pass.closedAt)) = [] := by
        refine filter_eq_nil_iff.mpr ?_
        intro number hnumber
        have hlate := hnew number hnumber
        simp only [decide_eq_true_eq]
        omega
      rw [hmore, filter_append, hnone, append_nil]
      exact hvisited
    · refine hflags.evolves (hsubscribers pass.channelIndex) ?_
      intro visit hvisit
      have hmem : visit.1 ∈ pass.visits.map fst := mem_map_of_mem hvisit
      rw [hvisited] at hmem
      have hearly : visit.1 < pass.closedAt := of_decide_eq_true (mem_filter.mp hmem).2
      omega

/-- The invariant of every run. -/
structure Sound (s : DispatchState EventPayload) : Prop where
  numbered : s.Numbered
  exported : s.Exported
  inTick : s.thrown = false → s.InTick

theorem Sound.publish (h : s.Sound) (eventType : String) (payload : EventPayload)
    (issuedAt : Option ℚ) :
    (s.publish eventType payload issuedAt).Sound := by
  unfold DispatchState.publish
  split
  · next error bus hpublish =>
    -- a refused event leaves the channels as they were
    obtain ⟨hchannels, hcounter⟩ := publish_error hpublish
    have hsame : ∀ {γ : Type} (carried : EventChannel EventPayload → List γ) (i : ℕ),
        (bus.channels[i]?).elim [] carried = (s.bus.channels[i]?).elim [] carried := by
      intro γ carried i
      rw [hchannels]
    have hsubscribers : ∀ i, bus.subscribersOf i = s.bus.subscribersOf i := hsame _
    refine ⟨⟨?_, ?_⟩, ?_, ?_⟩
    · intro i
      simp only [numbers, hsubscribers]
      exact h.numbered.increasing i
    · intro i
      simp only [numbers, hsubscribers]
      exact h.numbered.below i
    · intro i
      exact (hsame _ i).trans (h.exported i)
    · intro hthrown
      refine (h.inTick hthrown).evolve h.numbered [] rfl rfl rfl le_rfl
        (congrArg length hchannels) (by simp) ?_ ?_ hcounter (by simp) List.Pairwise.nil
      · intro i
        rw [stream_nil, append_nil]
        exact hsame _ i
      · intro i
        change Evolves _ _ (bus.subscribersOf i)
        rw [hsubscribers i]
        exact evolves_refl _ _
  · next result bus hpublish =>
    -- an accepted event is the only one added to the streams
    obtain ⟨hrange, hlength, hcounter, hinternal, houtbound, hsubscribers⟩ :=
      publish_ok hpublish
    refine ⟨⟨?_, ?_⟩, ?_, ?_⟩
    · intro i
      simp only [numbers, hsubscribers]
      exact h.numbered.increasing i
    · intro i
      simp only [numbers, hsubscribers]
      exact h.numbered.below i
    · intro i
      change bus.outboundOf i = stream i (s.exported ++ _)
      rw [houtbound, h.exported, stream_append]
    · intro hthrown
      refine (h.inTick hthrown).evolve h.numbered [_] rfl rfl rfl le_rfl hlength rfl hinternal ?_ ?_ ?_
        (pairwise_singleton _ _)
      · intro i
        change Evolves _ _ (bus.subscribersOf i)
        rw [hsubscribers i]
        exact evolves_refl _ _
      · change s.bus.dispatchCounter ≤ bus.dispatchCounter
        omega
      · intro event hevent
        rw [mem_singleton.mp hevent]
        refine ⟨hrange, le_rfl, ?_⟩
        change s.bus.dispatchCounter < bus.dispatchCounter
        omega

theorem Sound.subscribe (h : s.Sound) (eventType : String) :
    (s.subscribe eventType).Sound := by
  obtain ⟨hlength, hcounter, hinternal, houtbound, hsubscribers⟩ :=
    on_spec s.bus eventType s.nextSubscription
  -- the new number is above every number given before
  have hnumbers : ∀ i, (s.subscribe eventType).numbers i = s.numbers i ∨
      (s.subscribe eventType).numbers i = s.numbers i ++ [s.nextSubscription] := by
    intro i
    rcases hsubscribers i with hsame | hmore
    · exact .inl (congrArg (List.map EventSubscriber.handler) hsame)
    · refine .inr ((congrArg (List.map EventSubscriber.handler) hmore).trans ?_)
      rw [map_append]
      rfl
  refine ⟨⟨?_, ?_⟩, ?_, ?_⟩
  · intro i
    rcases hnumbers i with hsame | hmore
    · rw [hsame]
      exact h.numbered.increasing i
    · rw [hmore]
      refine pairwise_append.mpr
        ⟨h.numbered.increasing i, pairwise_singleton _ _, ?_⟩
      intro old hold new hnew
      rw [mem_singleton.mp hnew]
      exact h.numbered.below i old hold
  · intro i number hnumber
    change number < s.nextSubscription + 1
    rcases hnumbers i with hsame | hmore
    · rw [hsame] at hnumber
      have hold := h.numbered.below i number hnumber
      omega
    · rw [hmore] at hnumber
      rcases mem_append.mp hnumber with hold | hnew
      · have hold := h.numbered.below i number hold
        omega
      · rw [mem_singleton.mp hnew]
        omega
  · intro i
    exact (houtbound i).trans (h.exported i)
  · intro hthrown
    refine (h.inTick hthrown).evolve h.numbered [] rfl rfl rfl (Nat.le_succ _) hlength
      (by simp [DispatchState.subscribe]) ?_ ?_ hcounter.ge (by simp) List.Pairwise.nil
    · intro i
      rw [stream_nil, append_nil]
      exact hinternal i
    · intro i
      change Evolves _ _ ((s.bus.on eventType s.nextSubscription).2.subscribersOf i)
      rcases hsubscribers i with hsame | hmore
      · rw [hsame]
        exact evolves_refl _ _
      · rw [hmore]
        refine ⟨⟨[s.nextSubscription], by simp, by simp⟩, ?_⟩
        intro subscriber hsubscriber hactive
        rcases mem_append.mp hsubscriber with hold | hnew
        · exact .inr ⟨subscriber, hold, rfl, hactive⟩
        · rw [mem_singleton.mp hnew]
          exact .inl le_rfl

theorem Sound.unsubscribe (h : s.Sound) (handler : ℕ) :
    Sound { s with bus := s.bus.unsubscribe handler } := by
  obtain ⟨hlength, hinternal, houtbound, hsubscribers⟩ := unsubscribe_spec s.bus handler
  have hmap : ∀ subscribers : List EventSubscriber,
      (subscribers.map fun subscriber => if subscriber.handler = handler then
        { subscriber with active := false } else subscriber).map (·.handler) =
        subscribers.map (·.handler) := by
    intro subscribers
    rw [List.map_map]
    refine map_congr_left ?_
    intro subscriber _
    rw [Function.comp_apply]
    split
    · rfl
    · rfl
  have hnumbers : ∀ i, ((s.bus.unsubscribe handler).subscribersOf i).map (·.handler) =
      s.numbers i := by
    intro i
    rw [hsubscribers i, hmap]
    rfl
  refine ⟨⟨?_, ?_⟩, ?_, ?_⟩
  · intro i
    simp only [numbers, hnumbers]
    exact h.numbered.increasing i
  · intro i
    simp only [numbers, hnumbers]
    exact h.numbered.below i
  · intro i
    exact (houtbound i).trans (h.exported i)
  · intro hthrown
    refine (h.inTick hthrown).evolve h.numbered [] rfl rfl rfl le_rfl hlength (by simp)
      ?_ ?_ le_rfl (by simp) List.Pairwise.nil
    · intro i
      rw [stream_nil, append_nil]
      exact hinternal i
    · intro i
      change Evolves _ _ ((s.bus.unsubscribe handler).subscribersOf i)
      rw [hsubscribers i]
      refine ⟨⟨[], by rw [hmap, append_nil], by simp⟩, ?_⟩
      intro subscriber hsubscriber hactive
      obtain ⟨old, hold, rfl⟩ := mem_map.mp hsubscriber
      by_cases hcancelled : old.handler = handler
      · rw [if_pos hcancelled] at hactive
        cases hactive
      · rw [if_neg hcancelled] at hactive ⊢
        exact .inr ⟨old, hold, rfl, hactive⟩

/-- A new tick starts with nothing accepted, whatever state the last one left. -/
theorem Sound.beginTick (h : s.Sound) (hidle : s.control = .idle) (tick : ℚ)
    (resetOutbound : Bool) :
    (s.beginTick tick resetOutbound).Sound := by
  obtain ⟨hlength, hinternal, houtbound, hsubscribers⟩ :=
    beginTick_spec s.bus tick resetOutbound
  have hsub : ∀ i,
      List.Sublist ((s.beginTick tick resetOutbound).numbers i) (s.numbers i) := by
    intro i
    change List.Sublist (((s.bus.beginTick tick resetOutbound).subscribersOf i).map _) _
    rw [hsubscribers i]
    exact filter_sublist.map _
  refine ⟨⟨fun i => (h.numbered.increasing i).sublist (hsub i), ?_⟩, ?_, ?_⟩
  · intro i number hnumber
    exact h.numbered.below i number ((hsub i).subset hnumber)
  · intro i
    refine (houtbound i).trans ?_
    change _ = stream i (if resetOutbound then [] else s.exported)
    rcases resetOutbound with _ | _
    · exact h.exported i
    · rfl
  · intro _
    have hcontrol : (s.beginTick tick resetOutbound).control = .idle := hidle
    refine ⟨rfl, List.Pairwise.nil, ?_, ?_, ?_, ?_, ?_, ?_⟩
    · intro event hevent
      cases hevent
    · intro event hevent
      cases hevent
    · intro cursors hcursors
      rw [hcontrol] at hcursors
      cases hcursors
    · intro i
      have hempty : (s.beginTick tick resetOutbound).bus.internalOf i = [] := hinternal i
      rw [hcontrol, hempty]
      exact ⟨le_rfl, rfl⟩
    · intro event count hcurrent
      rw [hcontrol] at hcurrent
      cases hcurrent
    · intro pass hpass
      cases hpass

/-! ### The dispatch loops -/

/-- The loops change only where the dispatch stands and what the pass under way visited. -/
theorem InTick.stand (h : s.InTick) (control : DispatchControl EventPayload)
    (visits : List (ℕ × Bool)) (hcursor : ∀ i, control.cursorOf i = s.control.cursorOf i)
    (hcursors : ∀ cursors, control.cursors? = some cursors →
      cursors.length = s.bus.channels.length)
    (hunderWay : ∀ event count, control.current? = some (event, count) →
      s.remaining.head? = some event ∧ count ≤ (s.numbers event.1).length ∧
        visits.map fst = (s.numbers event.1).take count ∧
        Flagged (s.bus.subscribersOf event.1) visits) :
    InTick { s with control, visits } := by
  refine ⟨h.taken, h.increasing, h.below, h.inRange, hcursors, ?_, hunderWay, h.finished⟩
  intro i
  obtain ⟨hle, hdrop⟩ := h.buffers i
  rw [← hcursor i] at hle hdrop
  exact ⟨hle, hdrop⟩

theorem Sound.stand (h : s.Sound) (control : DispatchControl EventPayload)
    (visits : List (ℕ × Bool)) (hinTick : s.InTick → InTick { s with control, visits }) :
    Sound { s with control, visits } :=
  ⟨⟨h.numbered.increasing, h.numbered.below⟩, h.exported, fun hthrown => hinTick (h.inTick hthrown)⟩

/-- A dispatch starts with all cursors at the front. -/
theorem Sound.dispatch (h : s.Sound) (hidle : s.control = .idle) :
    Sound { s with control := .selecting (replicate s.bus.channels.length 0) } := by
  refine h.stand _ s.visits fun htick => htick.stand _ _ ?_ ?_ ?_
  · intro i
    have hzero : (replicate s.bus.channels.length 0).getD i 0 = 0 := by
      rw [getD_eq_getElem?_getD, getElem?_replicate]
      split
      · rfl
      · rfl
    rw [hidle]
    exact hzero
  · intro cursors hcursors
    obtain rfl := some.inj hcursors
    exact length_replicate
  · intro event count hcurrent
    cases hcurrent

variable {cursors : List ℕ} {channelIndex : ℕ} {slot : EventSlot EventPayload} {position : ℕ}

theorem Sound.returns (h : s.Sound)
    (hcontrol : s.control = .handling cursors channelIndex slot position) :
    Sound { s with control := .delivering cursors channelIndex slot (position + 1) } := by
  refine h.stand _ s.visits fun htick => htick.stand _ _ ?_ ?_ ?_
  · intro i
    rw [hcontrol]
    rfl
  · intro cursors' hcursors
    refine htick.cursors cursors' ?_
    rw [hcontrol]
    exact hcursors
  · intro event count hcurrent
    refine htick.underWay event count ?_
    rw [hcontrol]
    exact hcurrent

theorem Sound.throws (h : s.Sound) :
    Sound { s with control := .idle, thrown := true } :=
  ⟨⟨h.numbered.increasing, h.numbered.below⟩, h.exported, fun hthrown => by cases hthrown⟩

theorem InTick.candidate (h : s.InTick) (hcontrol : s.control = .selecting cursors) :
    s.bus.findNextDispatchCandidate cursors = s.remaining.head? := by
  refine findNextDispatchCandidate_eq ?_ ?_ ?_
  · exact h.increasing.sublist (drop_sublist _ _)
  · intro event hevent
    exact h.inRange event (mem_of_mem_drop hevent)
  · intro i
    have hbuffer := (h.buffers i).2
    rw [hcontrol] at hbuffer
    exact hbuffer

/-- **A dispatch that returns left nothing.** -/
theorem InTick.idle_of_none (h : s.InTick) (hcontrol : s.control = .selecting cursors)
    (hnone : s.bus.findNextDispatchCandidate cursors = none) : s.remaining = [] := by
  rw [h.candidate hcontrol] at hnone
  exact head?_eq_none_iff.mp hnone

theorem Sound.dispatched (h : s.Sound) (hcontrol : s.control = .selecting cursors)
    (hnone : s.bus.findNextDispatchCandidate cursors = none) :
    Sound { s with bus := s.bus.clearInternalBuffers, control := .idle } := by
  obtain ⟨hlength, hinternal, houtbound, hsubscribers⟩ :=
    clearInternalBuffers_spec s.bus
  refine ⟨⟨?_, ?_⟩, ?_, ?_⟩
  · intro i
    simp only [numbers, hsubscribers]
    exact h.numbered.increasing i
  · intro i
    simp only [numbers, hsubscribers]
    exact h.numbered.below i
  · intro i
    exact (houtbound i).trans (h.exported i)
  · intro hthrown
    have htick := h.inTick hthrown
    have hremaining := htick.idle_of_none hcontrol hnone
    refine ⟨htick.taken, htick.increasing, htick.below, ?_, ?_, ?_, ?_, ?_⟩
    · intro event hevent
      rw [hlength]
      exact htick.inRange event hevent
    · intro cursors' hcursors
      cases hcursors
    · intro i
      change 0 ≤ (s.bus.clearInternalBuffers.internalOf i).length ∧
        (s.bus.clearInternalBuffers.internalOf i).drop 0 = stream i s.remaining
      rw [hinternal i, hremaining]
      exact ⟨le_rfl, rfl⟩
    · intro event count hcurrent
      cases hcurrent
    · intro pass hpass
      simp only [numbers, hsubscribers]
      exact htick.finished pass hpass

theorem Sound.chosen (h : s.Sound) (hcontrol : s.control = .selecting cursors)
    (hsome : s.bus.findNextDispatchCandidate cursors = some (channelIndex, slot)) :
    Sound { s with control := .delivering cursors channelIndex slot 0, visits := [] } := by
  refine h.stand _ [] fun htick => htick.stand _ _ ?_ ?_ ?_
  · intro i
    rw [hcontrol]
    rfl
  · intro cursors' hcursors
    refine htick.cursors cursors' ?_
    rw [hcontrol]
    exact hcursors
  · intro event count hcurrent
    obtain ⟨rfl, rfl⟩ := Prod.mk.inj (some.inj hcurrent)
    refine ⟨?_, Nat.zero_le _, rfl, ?_⟩
    · rw [← htick.candidate hcontrol]
      exact hsome
    · intro visit hvisit
      cases hvisit

/-- The loop reaches a subscription. Its number is new to the pass, so the flag that is noted for
it is its own. -/
theorem InTick.reached (h : s.InTick) (hnumbered : s.Numbered)
    (hcontrol : s.control = .delivering cursors channelIndex slot position)
    {subscriber : EventSubscriber}
    (hat : (s.bus.subscribersOf channelIndex)[position]? = some subscriber) :
    let visits := s.visits ++ [(subscriber.handler, subscriber.active)]
    s.remaining.head? = some (channelIndex, slot) ∧
      position + 1 ≤ (s.numbers channelIndex).length ∧
      visits.map fst = (s.numbers channelIndex).take (position + 1) ∧
      Flagged (s.bus.subscribersOf channelIndex) visits := by
  intro visits
  have hcurrent : s.control.current? = some ((channelIndex, slot), position) := by
    rw [hcontrol]
    rfl
  obtain ⟨hhead, -, hvisited, hflags⟩ := h.underWay _ _ hcurrent
  obtain ⟨hposition, -⟩ := List.getElem?_eq_some_iff.mp hat
  have hnumber : (s.numbers channelIndex)[position]? = some subscriber.handler := by
    rw [numbers, getElem?_map, hat]
    rfl
  refine ⟨hhead, ?_, ?_, ?_⟩
  · rw [numbers, length_map]
    exact hposition
  · rw [map_append, hvisited, take_add_one, hnumber]
    rfl
  · intro visit hvisit other hother hsame hactive
    rcases mem_append.mp hvisit with hold | hnew
    · exact hflags visit hold other hother hsame hactive
    · -- two subscriptions with one number are the same
      rw [mem_singleton.mp hnew] at hsame ⊢
      have hinjective : other = subscriber := by
        obtain ⟨index, hindex⟩ := getElem?_of_mem hother
        have hothers : (s.numbers channelIndex)[index]? = some subscriber.handler := by
          rw [numbers, getElem?_map, hindex]
          exact congrArg some hsame
        have hnodup : (s.numbers channelIndex).Nodup :=
          (hnumbered.increasing channelIndex).imp fun hlt => hlt.ne
        obtain ⟨hlt, -⟩ := List.getElem?_eq_some_iff.mp hothers
        have heq : index = position :=
          (getElem?_inj hlt hnodup).mp (hothers.trans hnumber.symm)
        rw [heq, hat] at hindex
        exact (some.inj hindex).symm
      rw [← hinjective]
      exact hactive

theorem Sound.passed (h : s.Sound)
    (hcontrol : s.control = .delivering cursors channelIndex slot position)
    (hend : (s.bus.subscribersOf channelIndex)[position]? = none) :
    Sound { s with
      control := .selecting (cursors.modify channelIndex (· + 1))
      passes := s.passes ++
        [{ channelIndex, slot, visits := s.visits, closedAt := s.nextSubscription }] } := by
  refine ⟨⟨h.numbered.increasing, h.numbered.below⟩, h.exported, ?_⟩
  intro hthrown
  have htick := h.inTick hthrown
  have hcurrent : s.control.current? = some ((channelIndex, slot), position) := by
    rw [hcontrol]
    rfl
  obtain ⟨hhead, hposition, hvisited, hflags⟩ := htick.underWay _ _ hcurrent
  have hcursorsLength : cursors.length = s.bus.channels.length := by
    refine htick.cursors cursors ?_
    rw [hcontrol]
    rfl
  -- the first event that remains now has its pass
  obtain ⟨rest, hrest⟩ : ∃ rest, s.remaining = (channelIndex, slot) :: rest :=
    head?_eq_some_iff.mp hhead
  have hnext : s.accepted[s.passes.length]? = some (channelIndex, slot) := by
    rw [← head?_drop]
    exact hhead
  have hrest' : s.accepted.drop (s.passes.length + 1) = rest := by
    rw [← drop_drop]
    change s.remaining.drop 1 = rest
    rw [hrest]
    rfl
  have hinRange : channelIndex < s.bus.channels.length :=
    htick.inRange (channelIndex, slot) (mem_of_getElem? hnext)
  refine ⟨?_, htick.increasing, htick.below, htick.inRange, ?_, ?_, ?_, ?_⟩
  · rw [map_append, htick.taken, length_append, length_singleton, take_add_one,
      hnext]
    rfl
  · intro cursors' hcursors'
    obtain rfl := some.inj hcursors'
    rw [length_modify, hcursorsLength]
  · intro i
    obtain ⟨hle, hdrop⟩ := htick.buffers i
    have hold : s.control.cursorOf i = cursors.getD i 0 := by
      rw [hcontrol]
      rfl
    have hnew : (cursors.modify channelIndex (· + 1)).getD i 0 =
        if channelIndex = i then cursors.getD i 0 + 1 else cursors.getD i 0 := by
      by_cases hi : channelIndex = i
      · have hlt : i < cursors.length := by omega
        rw [if_pos hi, hi, getD_eq_getElem?_getD, getD_eq_getElem?_getD,
          getElem?_modify_eq, getElem?_eq_getElem hlt]
        rfl
      · rw [if_neg hi, getD_eq_getElem?_getD, getD_eq_getElem?_getD,
          getElem?_modify_ne _ _ hi]
    rw [hold] at hle hdrop
    rw [hrest] at hdrop
    change (cursors.modify channelIndex (· + 1)).getD i 0 ≤ _ ∧
      (s.bus.internalOf i).drop ((cursors.modify channelIndex (· + 1)).getD i 0) =
        stream i (s.accepted.drop (s.passes ++ [_]).length)
    rw [hnew, length_append, length_singleton, hrest']
    by_cases hi : channelIndex = i
    · subst hi
      rw [stream_cons_self] at hdrop
      rw [if_pos rfl, ← drop_drop, hdrop]
      have hcons := congrArg length hdrop
      rw [length_drop, length_cons] at hcons
      refine ⟨?_, rfl⟩
      change cursors.getD channelIndex 0 + 1 ≤ (s.bus.internalOf channelIndex).length
      omega
    · rw [stream_cons_of_ne hi] at hdrop
      rw [if_neg hi]
      exact ⟨hle, hdrop⟩
  · intro event count hcurrent'
    cases hcurrent'
  · intro pass hpass
    rcases mem_append.mp hpass with hold | hnew
    · exact htick.finished pass hold
    · rw [mem_singleton.mp hnew]
      refine ⟨le_rfl, ?_, hflags⟩
      -- behind the last subscription all of them were visited
      have hall : (s.numbers channelIndex).take position = s.numbers channelIndex := by
        refine take_of_length_le ?_
        rw [numbers, length_map]
        exact getElem?_eq_none_iff.mp hend
      have hbelow : (s.numbers channelIndex).filter
          (fun number => decide (number < s.nextSubscription)) = s.numbers channelIndex := by
        refine filter_eq_self.mpr ?_
        intro number hnumber
        exact decide_eq_true (h.numbered.below channelIndex number hnumber)
      exact hvisited.trans (hall.trans hbelow.symm)

/-- **One move of the loops keeps the invariant.** -/
theorem Sound.advance (h : s.Sound) (hadvance : s.advance = some s') : s'.Sound := by
  unfold DispatchState.advance at hadvance
  split at hadvance
  · cases hadvance
  · next cursors hcontrol =>
    split at hadvance
    · next hnone =>
      obtain rfl := some.inj hadvance
      exact h.dispatched hcontrol hnone
    · next channelIndex slot hsome =>
      obtain rfl := some.inj hadvance
      exact h.chosen hcontrol hsome
  · next cursors channelIndex slot position hcontrol =>
    split at hadvance
    · next hend =>
      obtain rfl := some.inj hadvance
      exact h.passed hcontrol hend
    · next subscriber hat =>
      have hcursors : ∀ htick : s.InTick, ∀ cursors', some cursors = some cursors' →
          cursors'.length = s.bus.channels.length := by
        intro htick cursors' hsame
        refine htick.cursors cursors' ?_
        rw [hcontrol]
        exact hsame
      dsimp only at hadvance
      split at hadvance
      · obtain rfl := some.inj hadvance
        refine h.stand _ _ fun htick => htick.stand _ _ ?_ (hcursors htick) ?_
        · intro i
          rw [hcontrol]
          rfl
        · intro event count hcurrent
          obtain ⟨rfl, rfl⟩ := Prod.mk.inj (some.inj hcurrent)
          exact htick.reached h.numbered hcontrol hat
      · obtain rfl := some.inj hadvance
        refine h.stand _ _ fun htick => htick.stand _ _ ?_ (hcursors htick) ?_
        · intro i
          rw [hcontrol]
          rfl
        · intro event count hcurrent
          obtain ⟨rfl, rfl⟩ := Prod.mk.inj (some.inj hcurrent)
          exact htick.reached h.numbered hcontrol hat
  · cases hadvance

/-- **One move keeps the invariant.** -/
theorem Sound.step (h : s.Sound) {action : BusAction EventPayload}
    (hstep : s.step action = some s') : s'.Sound := by
  rcases action with ⟨tick, resetOutbound⟩ | ⟨eventType, payload, issuedAt⟩ | eventType | handler |
    _ | _ | _ | _
  · unfold DispatchState.step at hstep
    dsimp only at hstep
    split at hstep
    · next hidle =>
      obtain rfl := some.inj hstep
      exact h.beginTick hidle tick resetOutbound
    · cases hstep
  · obtain ⟨-, rfl⟩ := ite_some_none_eq_some.mp hstep
    exact h.publish eventType payload issuedAt
  · obtain ⟨-, rfl⟩ := ite_some_none_eq_some.mp hstep
    exact h.subscribe eventType
  · obtain ⟨-, rfl⟩ := ite_some_none_eq_some.mp hstep
    exact h.unsubscribe handler
  · unfold DispatchState.step at hstep
    dsimp only at hstep
    split at hstep
    · next hidle =>
      obtain rfl := some.inj hstep
      exact h.dispatch hidle
    · cases hstep
  · exact h.advance hstep
  · unfold DispatchState.step at hstep
    dsimp only at hstep
    split at hstep
    · next hcontrol =>
      obtain rfl := some.inj hstep
      exact h.returns hcontrol
    · cases hstep
  · unfold DispatchState.step at hstep
    dsimp only at hstep
    split at hstep
    · obtain rfl := some.inj hstep
      exact h.throws
    · cases hstep

/-- **A run keeps the invariant.** -/
theorem Sound.run {actions : List (BusAction EventPayload)} (h : s.Sound)
    (hrun : run actions s = some s') : s'.Sound := by
  induction actions generalizing s with
  | nil =>
    obtain rfl := some.inj hrun
    exact h
  | cons action actions ih =>
    obtain ⟨middle, hstep, hrest⟩ := bind_eq_some_iff.mp hrun
    exact ih (h.step hstep) hrest

end DispatchState

end IdleEngine
