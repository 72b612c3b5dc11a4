import IdleEngine.Events.Completion
import IdleEngine.Events.Deduper

/-!
# Applying a broadcast frame

A client applies a frame to its bus: the events that its deduper does not skip are published, and
when all are, the bus dispatches. An event is remembered before it is published, and all are
dispatched after the last one; so when publishing an event or handing one out throws, the events not
handed out yet are remembered all the same, and applying the frame again skips them.

`FrameApplication.Retryable` is what a caller relies on who applies a frame again: what was taken as
new and is still remembered was delivered, and what was not delivered is delivered by the second
application. It holds of an application that throws if and only if all events of the frame were
delivered by then, the error coming from the handler of an event that another handler published
(`retryable_iff`).
-/

namespace IdleEngine

open EventBus EventBroadcastDeduper List Option

structure EventBroadcastHydrateOptions where
  filter : Option EventFilter
  validateManifest : Option Bool
  validateChecksum : Option Bool
  assumeSorted : Option Bool
  resetOutbound : Option Bool

namespace EventBroadcastHydrateOptions

variable (options : EventBroadcastHydrateOptions)

/-- The checks before anything is published, with the texts of their errors. -/
def validate (numbers : JsonText.NumberText ℚ) (manifestHash : String)
    (frame : EventBroadcastFrame) : Except String Unit :=
  if options.validateManifest.getD true ∧ frame.manifestHash.any (· ≠ manifestHash) then
    .error "Runtime event manifest hash mismatch while applying broadcast frame."
  else if options.validateChecksum.getD true ∧
      frame.checksum.any (· ≠ frame.computeEventBroadcastChecksum numbers) then
    .error "Event broadcast checksum mismatch."
  else .ok ()

/-- The allowed events of a frame, by their dispatch order unless they are taken to be sorted. -/
def orderedEvents (frame : EventBroadcastFrame) : List SerializedRuntimeEvent :=
  let filteredEvents := options.filter.elim frame.events frame.events.filter
  if options.assumeSorted.getD false then filteredEvents
  else filteredEvents.insertionSort fun left right => left.dispatchOrder ≤ right.dispatchOrder

end EventBroadcastHydrateOptions

/-- A frame is being applied: the deduper and the bus, the error of the publication that threw, and
as a history variable the events that were taken as new. -/
structure FrameApplication where
  deduper : Option EventBroadcastDeduper
  state : DispatchState JsValue
  error : Option String
  taken : List SerializedRuntimeEvent

namespace FrameApplication

variable (steps : StepText) (serverStep : ℚ)

/-- `options.deduper?.shouldSkip`. -/
def skips (application : FrameApplication) (event : SerializedRuntimeEvent) : Bool :=
  application.deduper.any fun deduper => (deduper.shouldSkip steps serverStep event).1

/-- The deduper after it was asked for an event. -/
def asked (application : FrameApplication) (event : SerializedRuntimeEvent) :
    Option EventBroadcastDeduper :=
  application.deduper.map fun deduper => (deduper.shouldSkip steps serverStep event).2

/-- An event that is not skipped is published. -/
def take (application : FrameApplication) (event : SerializedRuntimeEvent) : FrameApplication :=
  { deduper := application.asked steps serverStep event
    state := application.state.publish event.type event.payload (some event.issuedAt)
    error := match (application.state.bus.publish event.type event.payload (some event.issuedAt)).1
      with
      | .ok _ => none
      | .error error => some error
    taken := application.taken ++ [event] }

/-- The loop over the events of the frame. -/
def publishEvents : List SerializedRuntimeEvent → FrameApplication → FrameApplication
  | [], application => application
  | event :: events, application =>
      if application.skips steps serverStep event then
        publishEvents events
          { application with deduper := application.asked steps serverStep event }
      else if (application.take steps serverStep event).error.isSome then
        application.take steps serverStep event
      else publishEvents events (application.take steps serverStep event)

end FrameApplication

/-- A frame whose server step is a finite number. -/
structure StampedFrame where
  frame : EventBroadcastFrame
  step : ℚ
  serverStep_eq : frame.serverStep = .fin step

/-- `applyEventBroadcastFrame` up to its dispatch. -/
def applyEventBroadcastFrame (steps : StepText) (numbers : JsonText.NumberText ℚ)
    (manifestHash : String) (options : EventBroadcastHydrateOptions) (frame : StampedFrame)
    (deduper : Option EventBroadcastDeduper) (s : DispatchState JsValue) :
    Except String FrameApplication := do
  options.validate numbers manifestHash frame.frame
  return FrameApplication.publishEvents steps frame.step (options.orderedEvents frame.frame)
    { deduper
      state := s.beginTick frame.step (options.resetOutbound.getD true)
      error := none
      taken := [] }

/-! ### How an application ends -/

/-- A move of the dispatch loops, or of a handler that has not thrown. -/
def BusAction.withinDispatch {EventPayload : Type} : BusAction EventPayload → Bool
  | .beginTick _ _ => false
  | .dispatch => false
  | .throws => false
  | _ => true

namespace DispatchState

variable {EventPayload : Type}

/-- A state that a dispatch reaches, whatever the handlers do. -/
def Reaches (s middle : DispatchState EventPayload) : Prop :=
  ∃ started moves, s.step .dispatch = some started ∧ run moves started = some middle ∧
    ∀ move ∈ moves, move.withinDispatch = true

/-- The event that was accepted at a position had its pass over all subscribers. -/
def DeliveredAt (s : DispatchState EventPayload) (position : ℕ) : Prop :=
  ∃ event, s.accepted[position]? = some event ∧ event ∈ s.passes.map DispatchPass.event

end DispatchState

namespace FrameApplication

/-- The application throws: while it publishes an event of the frame, or in a handler, with the
event that the handler was handed. -/
inductive Throws (application : FrameApplication) :
    Option (ℕ × EventSlot JsValue) → DispatchState JsValue → Prop
  | publishing (h : application.error.isSome) : application.Throws none application.state
  | handling {middle s' : DispatchState JsValue} {event : ℕ × EventSlot JsValue} {visited : ℕ}
      (hpublished : application.error = none) (hreaches : application.state.Reaches middle)
      (hevent : middle.control.current? = some (event, visited))
      (hthrows : middle.step .throws = some s') : application.Throws (some event) s'

/-- The application returns. -/
def Returns (application : FrameApplication) (s' : DispatchState JsValue) : Prop :=
  application.error = none ∧ ∃ middle, application.state.Reaches middle ∧
    middle.step .advance = some s' ∧ s'.control = .idle

variable (steps : StepText) (serverStep : ℚ)

/-- An event with the key of this one was delivered. -/
def Delivers (application : FrameApplication) (s' : DispatchState JsValue)
    (event : SerializedRuntimeEvent) : Prop :=
  ∃ position other, application.taken[position]? = some other ∧
    dedupKey steps serverStep other = dedupKey steps serverStep event ∧ s'.DeliveredAt position

end FrameApplication

/-- **A frame can be applied again** after an application that ended in `s'`: an event that was
taken as new and is still remembered was delivered; and an event that was not remembered before was
delivered, or is when the frame is applied again and the second application returns. -/
structure Retryable (steps : StepText) (numbers : JsonText.NumberText ℚ) (manifestHash : String)
    (options : EventBroadcastHydrateOptions) (frame : StampedFrame)
    (deduper : EventBroadcastDeduper) (application : FrameApplication)
    (s' : DispatchState JsValue) : Prop where
  remembered : ∀ position event, application.taken[position]? = some event →
    (∃ after, application.deduper = some after ∧
      dedupKey steps frame.step event ∈ after.seen) → s'.DeliveredAt position
  retried : ∀ event ∈ options.orderedEvents frame.frame,
    dedupKey steps frame.step event ∉ deduper.seen →
      application.Delivers steps frame.step s' event ∨
        ∀ again s'', applyEventBroadcastFrame steps numbers manifestHash options frame
          application.deduper s' = .ok again → again.Returns s'' →
            again.Delivers steps frame.step s'' event

/-! ### The loop over the events -/

namespace DispatchState

variable {EventPayload : Type}

/-- What a publication does to a run: it is accepted or it throws. -/
theorem publish_cases (s : DispatchState EventPayload) (eventType : String)
    (payload : EventPayload) (issuedAt : Option ℚ) :
    (s.publish eventType payload issuedAt).control = s.control ∧
      (s.publish eventType payload issuedAt).passes = s.passes ∧
      (s.publish eventType payload issuedAt).thrown = s.thrown ∧
      ((∃ error, (s.bus.publish eventType payload issuedAt).1 = .error error ∧
          (s.publish eventType payload issuedAt).accepted = s.accepted) ∨
        ∃ result, (s.bus.publish eventType payload issuedAt).1 = .ok result ∧
          (s.publish eventType payload issuedAt).accepted =
            s.accepted ++ [s.bus.publishedEvent eventType payload issuedAt]) := by
  unfold publish
  rcases s.bus.publish eventType payload issuedAt with ⟨error | result, bus⟩
  · exact ⟨rfl, rfl, rfl, .inl ⟨error, rfl, rfl⟩⟩
  · exact ⟨rfl, rfl, rfl, .inr ⟨result, rfl, rfl⟩⟩

end DispatchState

namespace FrameApplication

variable {steps : StepText} {serverStep : ℚ} {known : List (List Char)}
  {done events : List SerializedRuntimeEvent} {application : FrameApplication}

/-- What the loop has done after some events of the frame; `known` are the keys that were remembered
before. -/
structure Progress (steps : StepText) (serverStep : ℚ) (known : List (List Char))
    (done : List SerializedRuntimeEvent) (application : FrameApplication) : Prop where
  sound : application.state.Sound
  idle : application.state.control = .idle
  calm : application.state.thrown = false
  noPass : application.state.passes = []
  accepted : application.state.accepted.length + application.error.toList.length =
    application.taken.length
  /-- the keys remembered now, the last one taken among them -/
  keys : ∃ deduper keys, application.deduper = some deduper ∧ deduper.Remembers keys ∧
    (∀ key ∈ keys, key ∈ known ∨ ∃ event ∈ application.taken,
      dedupKey steps serverStep event = key) ∧
    ∀ event, application.taken.getLast? = some event → dedupKey steps serverStep event ∈ keys
  /-- every event of the frame so far was known or taken -/
  covered : application.error = none → ∀ event ∈ done,
    dedupKey steps serverStep event ∈ known ∨ ∃ other ∈ application.taken,
      dedupKey steps serverStep other = dedupKey steps serverStep event

variable (h : Progress steps serverStep known done application)
include h

theorem Progress.skip {event : SerializedRuntimeEvent}
    (hskip : application.skips steps serverStep event = true) :
    Progress steps serverStep known (done ++ [event])
      { application with deduper := application.asked steps serverStep event } := by
  obtain ⟨deduper, keys, hdeduper, hkeys, hknown, hlast⟩ := h.keys
  rw [skips, hdeduper, any_some] at hskip
  rcases hkeys.shouldSkip steps serverStep event with ⟨hmem, hsame⟩ | ⟨-, hopen, -⟩
  · have hasked : application.asked steps serverStep event = some deduper := by
      rw [asked, hdeduper, map_some, hsame]
    refine ⟨h.sound, h.idle, h.calm, h.noPass, h.accepted,
      ⟨deduper, keys, hasked, hkeys, hknown, hlast⟩, fun herror other hother => ?_⟩
    rcases mem_append.mp hother with hother | hother
    · exact h.covered herror other hother
    · rw [mem_singleton.mp hother]
      exact hknown _ hmem
  · rw [hopen] at hskip
    cases hskip

theorem Progress.take (herror : application.error = none) {event : SerializedRuntimeEvent}
    (hnew : application.skips steps serverStep event = false) :
    Progress steps serverStep known (done ++ [event])
      (application.take steps serverStep event) := by
  obtain ⟨deduper, keys, hdeduper, hkeys, hknown, hlast⟩ := h.keys
  obtain ⟨hcontrol, hpasses, hthrown, haccepted⟩ := application.state.publish_cases event.type
    event.payload (some event.issuedAt)
  rw [skips, hdeduper, any_some] at hnew
  have hcount := h.accepted
  rw [herror] at hcount
  refine ⟨h.sound.publish _ _ _, hcontrol.trans h.idle, hthrown.trans h.calm,
    hpasses.trans h.noPass, ?_, ?_, fun _ other hother => ?_⟩
  · rw [FrameApplication.take]
    dsimp only
    rcases haccepted with ⟨error, hresult, hsame⟩ | ⟨result, hresult, hmore⟩
    · rw [hresult, hsame, length_append, ← hcount]
      rfl
    · rw [hresult, hmore, length_append, length_append, ← hcount]
      rfl
  · rcases hkeys.shouldSkip steps serverStep event with ⟨-, hskipped⟩ | ⟨-, -, hnext⟩
    · rw [hskipped] at hnew
      cases hnew
    · refine ⟨_, _, congrArg (Option.map _) hdeduper, hnext, fun key hkey => ?_,
        fun last hgot => ?_⟩
      · rcases mem_append.mp (mem_of_mem_drop hkey) with hold | hown
        · refine (hknown key hold).imp_right fun hbefore => ?_
          obtain ⟨other, hother, heq⟩ := hbefore
          exact ⟨other, mem_append_left _ hother, heq⟩
        · exact .inr ⟨event, mem_concat_self, (mem_singleton.mp hown).symm⟩
      · obtain rfl : event = last := some.inj (getLast?_concat.symm.trans hgot)
        obtain ⟨capacity, hcapacity⟩ := Nat.exists_eq_add_of_lt deduper.capacity_pos
        rw [hcapacity, Nat.zero_add, rtake_concat_succ]
        exact mem_concat_self
  · rcases mem_append.mp hother with hother | hother
    · refine (h.covered herror other hother).imp_right fun hbefore => ?_
      obtain ⟨taken, htaken, heq⟩ := hbefore
      exact ⟨taken, mem_append_left _ htaken, heq⟩
    · exact .inr ⟨event, mem_concat_self, by rw [mem_singleton.mp hother]⟩

/-- **The loop over the events of the frame.** -/
theorem Progress.publishEvents (herror : application.error = none)
    (events : List SerializedRuntimeEvent) :
    ∃ done', Progress steps serverStep known done'
        (FrameApplication.publishEvents steps serverStep events application) ∧
      ((FrameApplication.publishEvents steps serverStep events application).error = none →
        done' = done ++ events) := by
  induction events generalizing done application with
  | nil => exact ⟨done, h, fun _ => (append_nil done).symm⟩
  | cons event events ih =>
    rw [FrameApplication.publishEvents]
    cases hskip : application.skips steps serverStep event with
    | true =>
      rw [if_pos rfl]
      obtain ⟨done', hprogress, hdone⟩ := ih (h.skip hskip) herror
      exact ⟨done', hprogress, fun hnone => by rw [hdone hnone, append_assoc]; rfl⟩
    | false =>
      rw [if_neg Bool.false_ne_true]
      have htake := h.take herror hskip
      split
      · next hthrows =>
        refine ⟨_, htake, fun hnone => ?_⟩
        rw [hnone] at hthrows
        cases hthrows
      · next hpublished =>
        rw [Bool.not_eq_true, isSome_eq_false_iff, isNone_iff_eq_none] at hpublished
        obtain ⟨done', hprogress, hdone⟩ := ih htake hpublished
        exact ⟨done', hprogress, fun hnone => by rw [hdone hnone, append_assoc]; rfl⟩

end FrameApplication

/-! ### The dispatch -/

namespace DispatchState

variable {EventPayload : Type} {s s' middle : DispatchState EventPayload}

/-- A move of the dispatch loops accepts nothing. -/
theorem advance_accepted (h : s.advance = some s') : s'.accepted = s.accepted := by
  unfold advance at h
  split at h
  · cases h
  · split at h
    · obtain rfl := some.inj h
      rfl
    · obtain rfl := some.inj h
      rfl
  · split at h
    · obtain rfl := some.inj h
      rfl
    · dsimp only at h
      split at h
      · obtain rfl := some.inj h
        rfl
      · obtain rfl := some.inj h
        rfl
  · cases h

theorem step_withinDispatch {move : BusAction EventPayload} (hwithin : move.withinDispatch = true)
    (h : s.step move = some s') :
    s'.thrown = s.thrown ∧ List.IsPrefix s.accepted s'.accepted := by
  rcases move with ⟨tick, resetOutbound⟩ | ⟨eventType, payload, issuedAt⟩ | eventType | handler |
    _ | _ | _ | _
  · cases hwithin
  · obtain ⟨-, rfl⟩ := ite_some_none_eq_some.mp h
    obtain ⟨-, -, hthrown, haccepted⟩ := s.publish_cases eventType payload issuedAt
    refine ⟨hthrown, ?_⟩
    rcases haccepted with ⟨-, -, hsame⟩ | ⟨-, -, hmore⟩
    · rw [hsame]
    · rw [hmore]
      exact prefix_append _ _
  · obtain ⟨-, rfl⟩ := ite_some_none_eq_some.mp h
    exact ⟨rfl, prefix_rfl⟩
  · obtain ⟨-, rfl⟩ := ite_some_none_eq_some.mp h
    exact ⟨rfl, prefix_rfl⟩
  · cases hwithin
  · exact ⟨advance_thrown h, by rw [advance_accepted h]⟩
  · unfold step at h
    dsimp only at h
    split at h
    · obtain rfl := some.inj h
      exact ⟨rfl, prefix_rfl⟩
    · cases h
  · cases hwithin

theorem run_withinDispatch {moves : List (BusAction EventPayload)}
    (hwithin : ∀ move ∈ moves, move.withinDispatch = true) (h : run moves s = some s') :
    s'.thrown = s.thrown ∧ List.IsPrefix s.accepted s'.accepted := by
  induction moves generalizing s with
  | nil =>
    obtain rfl := some.inj h
    exact ⟨rfl, prefix_rfl⟩
  | cons move moves ih =>
    obtain ⟨next, hstep, hrest⟩ := bind_eq_some_iff.mp h
    obtain ⟨hthrown, hprefix⟩ := step_withinDispatch (hwithin move mem_cons_self) hstep
    obtain ⟨hthrown', hprefix'⟩ :=
      ih (fun other hother => hwithin other (mem_cons_of_mem _ hother)) hrest
    exact ⟨hthrown'.trans hthrown, hprefix.trans hprefix'⟩

/-- **The states of a dispatch** keep the invariant of the tick and what was accepted before. -/
theorem Reaches.inTick (hsound : s.Sound) (hcalm : s.thrown = false) (h : s.Reaches middle) :
    middle.InTick ∧ List.IsPrefix s.accepted middle.accepted := by
  obtain ⟨started, moves, hstart, hrun, hwithin⟩ := h
  obtain ⟨hthrown, hprefix⟩ := run_withinDispatch hwithin hrun
  have hstarted : started.thrown = s.thrown ∧ started.accepted = s.accepted := by
    unfold step at hstart
    dsimp only at hstart
    split at hstart
    · obtain rfl := some.inj hstart
      exact ⟨rfl, rfl⟩
    · cases hstart
  rw [hstarted.1, hcalm] at hthrown
  exact ⟨((hsound.step hstart).run hrun).inTick hthrown, hstarted.2 ▸ hprefix⟩

theorem InTick.nodup (h : s.InTick) : s.accepted.Nodup :=
  h.increasing.imp fun {a b} hlt heq => by
    rw [heq] at hlt
    exact lt_irrefl _ hlt

/-- An event was delivered if its pass is among the first, as many as there were. -/
theorem InTick.deliveredAt_iff (h : s.InTick) (position : ℕ) :
    s.DeliveredAt position ↔ position < s.passes.length := by
  rw [DeliveredAt, h.taken]
  constructor
  · rintro ⟨event, hat, hmem⟩
    obtain ⟨i, hi⟩ := mem_iff_getElem?.mp hmem
    rw [getElem?_take] at hi
    obtain ⟨hlt, hi⟩ := ite_none_right_eq_some.mp hi
    have hbound : i < s.accepted.length := (List.getElem?_eq_some_iff.mp hi).1
    obtain rfl := (getElem?_inj hbound h.nodup).mp (hi.trans hat.symm)
    exact hlt
  · intro hlt
    have hbound : position < s.accepted.length := hlt.trans_le h.passes_le
    refine ⟨_, getElem?_eq_getElem hbound, mem_iff_getElem?.mpr ⟨position, ?_⟩⟩
    rw [getElem?_take_of_lt hlt]
    exact getElem?_eq_getElem hbound

/-- The event that is handed out comes after those that had their pass. -/
theorem InTick.mem_take_iff (h : s.InTick) {event : ℕ × EventSlot EventPayload} {visited : ℕ}
    (hcurrent : s.control.current? = some (event, visited)) (count : ℕ) :
    event ∈ s.accepted.take count ↔ s.passes.length < count := by
  obtain ⟨hhead, -⟩ := h.underWay event visited hcurrent
  rw [remaining, head?_drop] at hhead
  have hbound := (List.getElem?_eq_some_iff.mp hhead).1
  constructor
  · intro hmem
    obtain ⟨i, hi⟩ := mem_iff_getElem?.mp hmem
    rw [getElem?_take] at hi
    obtain ⟨hlt, hi⟩ := ite_none_right_eq_some.mp hi
    obtain rfl := (getElem?_inj hbound h.nodup).mp (hhead.trans hi.symm)
    exact hlt
  · intro hlt
    refine mem_iff_getElem?.mpr ⟨s.passes.length, ?_⟩
    rw [getElem?_take_of_lt hlt]
    exact hhead

end DispatchState

/-! ### When a frame can be applied again -/

open DispatchState

/-- The event taken last is remembered, so it has to be delivered. -/
theorem Retryable.deliveredAt_last {steps : StepText} {numbers : JsonText.NumberText ℚ}
    {manifestHash : String} {options : EventBroadcastHydrateOptions} {frame : StampedFrame}
    {deduper : EventBroadcastDeduper} {application : FrameApplication} {s' : DispatchState JsValue}
    (h : Retryable steps numbers manifestHash options frame deduper application s')
    {known : List (List Char)} {done : List SerializedRuntimeEvent}
    (hprogress : application.Progress steps frame.step known done)
    (hpos : 0 < application.taken.length) : s'.DeliveredAt (application.taken.length - 1) := by
  obtain ⟨after, keys, hafter, hkeys, -, hlast⟩ := hprogress.keys
  have hget : application.taken[application.taken.length - 1]? =
      some (application.taken.get ⟨application.taken.length - 1, by omega⟩) :=
    getElem?_eq_getElem (by omega)
  refine h.remembered _ _ hget ⟨after, hafter, ?_⟩
  rw [hkeys.seen_eq]
  exact hlast _ (getLast?_eq_getElem?.trans hget)

/-- **When a frame can be applied again.** On any bus in use and with any deduper in use, an
application that throws can be repeated if and only if it was a handler that threw, and it was
handed an event that the frame did not bring: one that a handler had published. -/
theorem applyEventBroadcastFrame_retryable_iff (steps : StepText) (numbers : JsonText.NumberText ℚ)
    (manifestHash : String) (options : EventBroadcastHydrateOptions) (frame : StampedFrame)
    {bus : EventBus JsValue} (hnew : bus.IsNew) {history : List (BusAction JsValue)}
    {s : DispatchState JsValue} (hrun : run history (DispatchState.create bus) = some s)
    (hidle : s.control = .idle) {deduper : EventBroadcastDeduper} {keys : List (List Char)}
    (hdeduper : deduper.Remembers keys) {application : FrameApplication}
    (happlied : applyEventBroadcastFrame steps numbers manifestHash options frame (some deduper) s =
      .ok application)
    {handed : Option (ℕ × EventSlot JsValue)} {s' : DispatchState JsValue}
    (hthrows : application.Throws handed s') :
    Retryable steps numbers manifestHash options frame deduper application s' ↔
      ∃ event, handed = some event ∧ event ∉ application.state.accepted := by
  obtain ⟨-, -, happlication⟩ := Outcome.bind_eq_ok.mp happlied
  obtain rfl := Except.ok.inj happlication
  have hstart : FrameApplication.Progress steps frame.step keys [] {
      deduper := some deduper
      state := s.beginTick frame.step (options.resetOutbound.getD true)
      error := none
      taken := [] } :=
    ⟨((Sound.create hnew).run hrun).beginTick hidle _ _, hidle, rfl, rfl, rfl,
      ⟨deduper, keys, rfl, hdeduper, fun _ hkey => .inl hkey, fun _ hlast => (by cases hlast)⟩,
      fun _ _ hnone => absurd hnone List.not_mem_nil⟩
  obtain ⟨done, hprogress, hdone⟩ := hstart.publishEvents rfl (options.orderedEvents frame.frame)
  rw [List.nil_append] at hdone
  generalize FrameApplication.publishEvents steps frame.step (options.orderedEvents frame.frame) _ =
    application at hprogress hdone hthrows ⊢
  cases hthrows with
  | publishing herror =>
    -- the event whose publication threw is remembered and was not accepted
    refine iff_of_false (fun hretry => ?_) fun hlate => ?_
    · have hcount := hprogress.accepted
      obtain ⟨error, herror⟩ := Option.isSome_iff_exists.mp herror
      rw [herror, Option.toList_some, List.length_singleton] at hcount
      obtain ⟨event, hat, -⟩ := hretry.deliveredAt_last hprogress (by omega)
      have hbound := (List.getElem?_eq_some_iff.mp hat).1
      omega
    · obtain ⟨event, hhanded, -⟩ := hlate
      cases hhanded
  | @handling middle _ event visited hpublished hreaches hevent hthrow =>
    obtain ⟨htick, hprefix⟩ := hreaches.inTick hprogress.sound hprogress.calm
    have hs' : s' = { middle with control := .idle, thrown := true } := by
      unfold DispatchState.step at hthrow
      dsimp only at hthrow
      split at hthrow
      · exact (Option.some.inj hthrow).symm
      · cases hthrow
    have hcount := hprogress.accepted
    rw [hpublished, Option.toList_none, List.length_nil, Nat.add_zero] at hcount
    have hdelivered : ∀ position, s'.DeliveredAt position ↔ position < middle.passes.length := by
      intro position
      rw [hs', ← htick.deliveredAt_iff]
      rfl
    have hmem := htick.mem_take_iff hevent application.state.accepted.length
    rw [← List.prefix_iff_eq_take.mp hprefix] at hmem
    constructor
    · intro hretry
      refine ⟨event, rfl, fun hframe => ?_⟩
      have hlt := hmem.mp hframe
      have hlast := (hdelivered _).mp (hretry.deliveredAt_last hprogress (by omega))
      omega
    · rintro ⟨_, hhanded, hlate⟩
      obtain rfl := Option.some.inj hhanded
      have hall : ∀ position other, application.taken[position]? = some other →
          s'.DeliveredAt position := by
        intro position other hother
        have hbound := (List.getElem?_eq_some_iff.mp hother).1
        have hnot := mt hmem.mpr hlate
        exact (hdelivered position).mpr (by omega)
      refine ⟨fun position other hother _ => hall position other hother,
        fun other hother hunknown => .inl ?_⟩
      rw [hdeduper.seen_eq] at hunknown
      rw [← hdone hpublished] at hother
      obtain ⟨taken, htaken, hkey⟩ := (hprogress.covered hpublished other hother).resolve_left
        hunknown
      obtain ⟨position, hposition⟩ := List.mem_iff_getElem?.mp htaken
      exact ⟨position, taken, hposition, hkey, hall position taken hposition⟩

/-! ### Two applications that throw -/

theorem relayCapacity_pos : (0 : ℚ) < 1 := by decide

/-- Two channels that hold one event each. -/
def relayBus : EventBus JsValue :=
  let channel (type : String) : EventChannel JsValue :=
    { type, capacity := 1, capacity_pos := relayCapacity_pos, validator := fun _ => none,
      internalBuffer := [], outboundBuffer := [], subscribers := [] }
  { channels := [channel "resource", channel "unlock"], currentTick := 0, dispatchCounter := 0,
    tickAborted := false, lastOverflowError := none, now := 0 }

theorem relayBus_isNew : relayBus.IsNew := by
  intro channel hmem
  rcases mem_cons.mp hmem with rfl | hmem
  · exact ⟨rfl, rfl, rfl⟩
  · rw [mem_singleton.mp hmem]
    exact ⟨rfl, rfl, rfl⟩

/-- A frame of server step 1 with events of given types. -/
def frameOf (types : List String) : StampedFrame :=
  { frame := ⟨.fin 1, types.zipIdx.map fun entry => ⟨entry.1, 0, 0, entry.2, .null⟩, none, none⟩
    step := 1
    serverStep_eq := rfl }

def plainHydration : EventBroadcastHydrateOptions := ⟨none, none, none, some true, none⟩

/-- The bus with a handler for each channel. -/
def relayState : DispatchState JsValue :=
  ((DispatchState.create relayBus).subscribe "resource").subscribe "unlock"

/-- A new deduper, for four keys. -/
def fourKeys : EventBroadcastDeduper := create 4 (Nat.succ_pos 3)

/-- A frame with one resource event is being applied. -/
def relayApplication : FrameApplication :=
  FrameApplication.publishEvents fractionStepText 1
    (plainHydration.orderedEvents (frameOf ["resource"]).frame)
    { deduper := some fourKeys, state := relayState.beginTick 1 true, error := none, taken := [] }

/-- The handler of a resource event publishes an unlock event, whose handler throws: the event of
the frame was delivered, and the frame can be applied again. -/
theorem applyEventBroadcastFrame_retryable_relay :
    ∃ application handed s', applyEventBroadcastFrame fractionStepText JsonText.fractionText ""
        plainHydration (frameOf ["resource"]) (some fourKeys) relayState = .ok application ∧
      application.Throws handed s' ∧
      Retryable fractionStepText JsonText.fractionText "" plainHydration (frameOf ["resource"])
        fourKeys application s' := by
  have hrun : run [.on "resource", .on "unlock"] (DispatchState.create relayBus) =
      some relayState := rfl
  have happlied : applyEventBroadcastFrame fractionStepText JsonText.fractionText "" plainHydration
      (frameOf ["resource"]) (some fourKeys) relayState = .ok relayApplication := rfl
  have hthrows : relayApplication.Throws _ _ := .handling rfl
    ⟨_, [.advance, .advance, .publish "unlock" .null none, .returns, .advance, .advance, .advance],
      rfl, rfl, by decide⟩ rfl rfl
  refine ⟨_, _, _, happlied, hthrows, (applyEventBroadcastFrame_retryable_iff _ _ _ _ _
    relayBus_isNew hrun rfl (Remembers.create _) happlied hthrows).mpr ⟨_, rfl, ?_⟩⟩
  intro hmem
  have horder := congrArg (fun event : ℕ × EventSlot JsValue => event.2.dispatchOrder)
    (List.mem_singleton.mp hmem)
  exact absurd horder (by decide)

/-- **Events that are lost.** Two events for a channel that holds one: publishing the second throws,
and nothing is handed out. Applied again, the frame has both its events skipped, and the application
returns. -/
theorem overflow_loses_events :
    ∃ application, applyEventBroadcastFrame fractionStepText JsonText.fractionText ""
        plainHydration (frameOf ["resource", "resource"]) (some fourKeys) relayState =
          .ok application ∧
      application.Throws none application.state ∧ application.state.passes.length = 0 ∧
      (∃ again s'', applyEventBroadcastFrame fractionStepText JsonText.fractionText ""
          plainHydration (frameOf ["resource", "resource"]) application.deduper application.state =
            .ok again ∧ again.taken.length = 0 ∧ again.Returns s'' ∧ s''.passes.length = 0) ∧
      ¬Retryable fractionStepText JsonText.fractionText "" plainHydration
        (frameOf ["resource", "resource"]) fourKeys application application.state := by
  have happlied : applyEventBroadcastFrame fractionStepText JsonText.fractionText "" plainHydration
      (frameOf ["resource", "resource"]) (some fourKeys) relayState = .ok _ := rfl
  refine ⟨_, happlied, .publishing rfl, rfl, ⟨_, _, rfl, rfl, ⟨rfl, _, ⟨_, [], rfl, rfl, by decide⟩,
    rfl, rfl⟩, rfl⟩, fun hretry => ?_⟩
  obtain ⟨event, hat, -⟩ := hretry.remembered 1 _ rfl ⟨_, rfl, by decide +kernel⟩
  cases hat

end IdleEngine
