import IdleEngine.Events.Batcher
import IdleEngine.Lib.Grid

/-!
# One event for each key

Coalescing keeps of the events of some frames the first or the last of each key. The loops of the
code visit the places of the frames one after the other and empty the places of the others;
`Visited` says what is left after any number of visits: of the visited places of a key only the one
that the lookup has, which is the first or the last of them.

The law for a batch is `OnePerKey`. A batch of at least two frames meets it
(`onePerKey_coalesceBatchFrames`). A single frame is handed out as it is, by `coalesceBatchFrames`
as well as in a batch of its own after a priority event, and meets it only if its events have
different keys (`onePerKey_singleton_iff`); `batches_onePerKey_iff` puts this together for every
batch of every sequence of calls.
-/

namespace IdleEngine

open EventBroadcastFrame EventBroadcastBatcher EventCoalescingOptions CoalescingMode Grid List

/-! ### The event that stays -/

/-- The element of a list that stays. -/
def CoalescingMode.pick {α : Type*} : CoalescingMode → List α → Option α
  | .first, l => l.head?
  | .last, l => l.getLast?

namespace CoalescingMode

variable {α β : Type*} (mode : CoalescingMode)

variable {l : List α}

@[simp]
theorem pick_eq_none : mode.pick l = none ↔ l = [] := by
  cases mode with
  | first => exact head?_eq_none_iff
  | last => exact getLast?_eq_none_iff

theorem mem_of_pick {a : α} (h : mode.pick l = some a) : a ∈ l := by
  cases mode with
  | first => exact mem_of_head? h
  | last => exact mem_of_getLast? h

theorem pick_singleton (a : α) : mode.pick [a] = some a := by
  cases mode with
  | first => rfl
  | last => rfl

theorem pick_filterMap {f : α → Option β} (h : ∀ a ∈ l, (f a).isSome) :
    mode.pick (l.filterMap f) = (mode.pick l).bind f := by
  cases mode with
  | first =>
    obtain _ | ⟨a, l⟩ := l
    · rfl
    · obtain ⟨b, hb⟩ := Option.isSome_iff_exists.mp (h a mem_cons_self)
      rw [filterMap_cons_some hb]
      exact hb.symm
  | last =>
    obtain rfl | ⟨l, a, rfl⟩ := l.eq_nil_or_concat
    · rfl
    · rw [concat_eq_append] at h ⊢
      obtain ⟨b, hb⟩ := Option.isSome_iff_exists.mp (h a mem_concat_self)
      rw [CoalescingMode.pick, CoalescingMode.pick, filterMap_append,
        filterMap_cons_some hb, getLast?_concat]
      simp [hb]

end CoalescingMode

namespace EventCoalescingOptions

variable (options : EventCoalescingOptions)

/-- The mode; without one the last event of a key stays. -/
def modeOrLast : CoalescingMode := options.mode.getD .last

/-! ### The visits of the loops -/

/-- The key of the event at a place. -/
def keyAt (rows : List (List (Option SerializedRuntimeEvent))) (place : ℕ × ℕ) : Option String :=
  (Grid.value? rows place).map options.key

/-- Those of some places that have a given key. -/
def group (rows : List (List (Option SerializedRuntimeEvent))) (done : List (ℕ × ℕ))
    (key : Option String) : List (ℕ × ℕ) :=
  done.filter fun place => options.keyAt rows place = key

/-- Of the places with the key of this one, this is the one that stays. -/
def Stays (rows : List (List (Option SerializedRuntimeEvent))) (done : List (ℕ × ℕ))
    (place : ℕ × ℕ) : Prop :=
  options.modeOrLast.pick (options.group rows done (options.keyAt rows place)) = some place

instance (rows : List (List (Option SerializedRuntimeEvent))) (done : List (ℕ × ℕ))
    (place : ℕ × ℕ) : Decidable (options.Stays rows done place) :=
  inferInstanceAs (Decidable (_ = _))

/-- What the loops have done after visiting some of the places. -/
structure Visited (rows : List (List (Option SerializedRuntimeEvent))) (done : List (ℕ × ℕ))
    (state : CoalescingLookup × List (List (Option SerializedRuntimeEvent))) : Prop where
  shape : state.2.map List.length = rows.map List.length
  lookup : ∀ key, state.1.lookup key =
    options.modeOrLast.pick (options.group rows done (some key))
  entry : ∀ place, Grid.value? state.2 place =
    if place ∈ done ∧ ¬options.Stays rows done place then none else Grid.value? rows place

variable {options} {rows : List (List (Option SerializedRuntimeEvent))} {done : List (ℕ × ℕ)}
  {state : CoalescingLookup × List (List (Option SerializedRuntimeEvent))}

variable {key : Option String} {place : ℕ × ℕ}

theorem mem_group :
    place ∈ options.group rows done key ↔ place ∈ done ∧ options.keyAt rows place = key := by
  rw [group, mem_filter, decide_eq_true_iff]

theorem group_concat_of_eq (h : options.keyAt rows place = key) :
    options.group rows (done ++ [place]) key = options.group rows done key ++ [place] := by
  rw [group, group, filter_append, filter_cons_of_pos (by simpa using h),
    filter_nil]

theorem group_concat_of_ne (h : options.keyAt rows place ≠ key) :
    options.group rows (done ++ [place]) key = options.group rows done key := by
  rw [group, group, filter_append, filter_cons_of_neg (by simpa using h), filter_nil,
    append_nil]

theorem Visited.start (rows : List (List (Option SerializedRuntimeEvent))) :
    options.Visited rows [] ([], rows) where
  shape := rfl
  lookup key := (options.modeOrLast.pick_eq_none.mpr rfl).symm
  entry place := by
    rw [if_neg fun h => not_mem_nil h.1]

theorem gone_concat_of_ne {other : ℕ × ℕ}
    (h : options.keyAt rows place ≠ options.keyAt rows other) :
    (other ∈ done ++ [place] ∧ ¬options.Stays rows (done ++ [place]) other) ↔
      other ∈ done ∧ ¬options.Stays rows done other := by
  have hne : other ≠ place := by
    rintro rfl
    exact h rfl
  rw [Stays, Stays, group_concat_of_ne h, mem_append, mem_singleton, or_iff_left hne]

/-- A key is found for the first time. -/
theorem Visited.visit_new (h : options.Visited rows done state) (hnew : place ∉ done) {key : String}
    (hkey : options.keyAt rows place = some key) (hlookup : state.1.lookup key = none) :
    options.Visited rows (done ++ [place]) ((key, place) :: state.1, state.2) := by
  have hempty : options.group rows done (some key) = [] := by
    rw [← options.modeOrLast.pick_eq_none, ← h.lookup, hlookup]
  refine ⟨h.shape, fun k => ?_, fun other => ?_⟩
  · by_cases hk : k = key
    · subst hk
      rw [lookup_cons_self, group_concat_of_eq hkey, hempty]
      exact (options.modeOrLast.pick_singleton place).symm
    · have hother : options.keyAt rows place ≠ some k := fun heq =>
        hk (Option.some.inj (heq.symm.trans hkey))
      rw [group_concat_of_ne hother, ← h.lookup, lookup_cons, beq_eq_false_iff_ne.mpr hk]
  · dsimp only
    rw [h.entry]
    by_cases hsame : options.keyAt rows other = some key
    · have hold : other ∉ done := fun hmem => by
        have hgroup := mem_group.mpr ⟨hmem, hsame⟩
        rw [hempty] at hgroup
        exact not_mem_nil hgroup
      have hstays : ¬(other ∈ done ++ [place] ∧ ¬options.Stays rows (done ++ [place]) other) := by
        rintro ⟨hmem, hgone⟩
        obtain rfl := mem_singleton.mp ((mem_append.mp hmem).resolve_left hold)
        rw [Stays, hkey, group_concat_of_eq hkey, hempty] at hgone
        exact hgone (options.modeOrLast.pick_singleton other)
      rw [if_neg fun hgone => hold hgone.1, if_neg hstays]
    · rw [if_congr (gone_concat_of_ne fun heq => hsame (heq.symm.trans hkey)).symm rfl rfl]

/-- The first event of a key stays, and this one goes. -/
theorem Visited.visit_first (h : options.Visited rows done state)
    (hmode : options.modeOrLast = .first) {existing : ℕ × ℕ} (hnew : place ∉ done) {key : String}
    (hkey : options.keyAt rows place = some key) (hlookup : state.1.lookup key = some existing) :
    options.Visited rows (done ++ [place]) (state.1, takeOut state.2 place) := by
  have hfirst : CoalescingMode.first.pick (options.group rows done (some key)) = some existing := by
    rw [← hmode, ← h.lookup, hlookup]
  have hdone : existing ∈ done := (mem_group.mp (mem_of_pick _ hfirst)).1
  have hstill : CoalescingMode.first.pick (options.group rows done (some key) ++ [place]) =
      some existing := by
    rw [CoalescingMode.pick] at hfirst ⊢
    rw [head?_append, hfirst]
    rfl
  refine ⟨(map_length_clear _ _).trans h.shape, fun k => ?_, fun other => ?_⟩
  · rw [h.lookup, hmode]
    by_cases hk : options.keyAt rows place = some k
    · obtain rfl := Option.some.inj (hk.symm.trans hkey)
      rw [group_concat_of_eq hkey, hstill, hfirst]
    · rw [group_concat_of_ne hk]
  · refine (value?_clear _ _ _).trans ?_
    by_cases hsame : options.keyAt rows other = some key
    · by_cases hother : other = place
      · subst hother
        have hgone : ¬options.Stays rows (done ++ [other]) other := by
          rw [Stays, hsame, group_concat_of_eq hkey, hmode, hstill, Option.some.injEq]
          rintro rfl
          exact hnew hdone
        rw [if_pos rfl, if_pos ⟨mem_concat_self, hgone⟩]
      · rw [if_neg hother, h.entry]
        refine if_congr ?_ rfl rfl
        rw [Stays, Stays, hsame, group_concat_of_eq hkey, hmode, hstill, hfirst, mem_append,
          mem_singleton, or_iff_left hother]
    · have hother : other ≠ place := by
        rintro rfl
        exact hsame hkey
      rw [if_neg hother, h.entry,
        if_congr (gone_concat_of_ne fun heq => hsame (heq.symm.trans hkey)).symm rfl rfl]

/-- The last event of a key stays, and the one found before goes. -/
theorem Visited.visit_last (h : options.Visited rows done state)
    (hmode : options.modeOrLast = .last) {existing : ℕ × ℕ} (hnew : place ∉ done) {key : String}
    (hkey : options.keyAt rows place = some key) (hlookup : state.1.lookup key = some existing) :
    options.Visited rows (done ++ [place]) ((key, place) :: state.1, takeOut state.2 existing) := by
  have hlast : CoalescingMode.last.pick (options.group rows done (some key)) = some existing := by
    rw [← hmode, ← h.lookup, hlookup]
  obtain ⟨hdone, hexisting⟩ := mem_group.mp (mem_of_pick _ hlast)
  have hnow : CoalescingMode.last.pick (options.group rows done (some key) ++ [place]) =
      some place := getLast?_concat
  refine ⟨(map_length_clear _ _).trans h.shape, fun k => ?_, fun other => ?_⟩
  · by_cases hk : k = key
    · subst hk
      rw [lookup_cons_self, group_concat_of_eq hkey, hmode, hnow]
    · have hother : options.keyAt rows place ≠ some k := fun heq =>
        hk (Option.some.inj (heq.symm.trans hkey))
      rw [group_concat_of_ne hother, ← h.lookup, lookup_cons, beq_eq_false_iff_ne.mpr hk]
  · refine (value?_clear _ _ _).trans ?_
    rw [h.entry]
    by_cases hsame : options.keyAt rows other = some key
    · have hstays : (other ∈ done ++ [place] ∧ ¬options.Stays rows (done ++ [place]) other) ↔
          (other ∈ done ∨ other = place) ∧ place ≠ other := by
        rw [Stays, hsame, group_concat_of_eq hkey, hmode, hnow, Option.some.injEq, mem_append,
          mem_singleton]
      have hstayed : (other ∈ done ∧ ¬options.Stays rows done other) ↔
          other ∈ done ∧ existing ≠ other := by
        rw [Stays, hsame, hmode, hlast, Option.some.injEq]
      rw [if_congr hstays rfl rfl, if_congr hstayed rfl rfl]
      by_cases hother : other = existing
      · subst hother
        have hne : place ≠ other := by
          rintro rfl
          exact hnew hdone
        rw [if_pos rfl, if_pos ⟨.inl hdone, hne⟩]
      · rw [if_neg hother]
        refine if_congr ?_ rfl rfl
        constructor
        · rintro ⟨hmem, -⟩
          refine ⟨.inl hmem, ?_⟩
          rintro rfl
          exact hnew hmem
        · rintro ⟨hmem, hne⟩
          exact ⟨hmem.resolve_right (Ne.symm hne), Ne.symm hother⟩
    · have hother : other ≠ existing := by
        rintro rfl
        exact hsame hexisting
      rw [if_neg hother, if_congr (gone_concat_of_ne fun heq => hsame (heq.symm.trans hkey)).symm
        rfl rfl]

variable {event : SerializedRuntimeEvent}

/-- **One visit of the loops.** -/
theorem Visited.visit (h : options.Visited rows done state) (hnew : place ∉ done)
    (hevent : Grid.value? rows place = some event) :
    options.Visited rows (done ++ [place]) (options.visit state place) := by
  have hhere : (state.2[place.1]?.bind (·[place.2]?)).join = some event := by
    change Grid.value? state.2 place = some event
    rw [h.entry, if_neg fun hgone => hnew hgone.1, hevent]
  have hkey : options.keyAt rows place = some (options.key event) := by
    rw [keyAt, hevent, Option.map_some]
  unfold EventCoalescingOptions.visit
  rw [hhere]
  dsimp only
  rcases hlookup : state.1.lookup (options.key event) with _ | existing
  · exact h.visit_new hnew hkey hlookup
  · dsimp only
    rcases hmode : options.mode.getD .last with _ | _
    · exact h.visit_first hmode hnew hkey hlookup
    · exact h.visit_last hmode hnew hkey hlookup

/-- **All visits**: of the places of each key the first or the last stays. -/
theorem visited_foldl (options : EventCoalescingOptions)
    {rows : List (List (Option SerializedRuntimeEvent))}
    (hfilled : ∀ place ∈ Grid.places rows, (Grid.value? rows place).isSome) :
    options.Visited rows (Grid.places rows)
      ((Grid.places rows).foldl options.visit ([], rows)) := by
  have hrun : ∀ rest done state, done ++ rest = Grid.places rows →
      options.Visited rows done state →
        options.Visited rows (Grid.places rows) (rest.foldl options.visit state) := by
    intro rest
    induction rest with
    | nil =>
      intro done state heq h
      rw [append_nil] at heq
      exact heq ▸ h
    | cons place rest ih =>
      intro done state heq h
      have hmem : place ∈ Grid.places rows := by
        rw [← heq]
        exact mem_append_right _ mem_cons_self
      have hnodup := nodup_places rows
      rw [← heq] at hnodup
      have hnew : place ∉ done := fun hold =>
        (nodup_append.mp hnodup).2.2 place hold place mem_cons_self rfl
      obtain ⟨event, hevent⟩ := Option.isSome_iff_exists.mp (hfilled place hmem)
      exact ih _ _ (by rw [← heq, append_assoc]; rfl) (h.visit hnew hevent)
  exact hrun _ _ _ (nil_append _) (Visited.start rows)

/-! ### What is left of the frames -/

/-- The events of the frames, row by row. -/
def rowsOf (frames : List EventBroadcastFrame) : List (List (Option SerializedRuntimeEvent)) :=
  frames.map fun frame => frame.events.map some

/-- The events that stay. -/
def stayingEvents (options : EventCoalescingOptions) (frames : List EventBroadcastFrame) :
    List SerializedRuntimeEvent :=
  (Grid.places (rowsOf frames)).filterMap fun place =>
    if options.Stays (rowsOf frames) (Grid.places (rowsOf frames)) place then
      Grid.value? (rowsOf frames) place
    else none

variable {frames : List EventBroadcastFrame} {numbers : JsonText.NumberText ℚ}

theorem places_eq (frames : List EventBroadcastFrame) :
    places frames = Grid.places (rowsOf frames) := by
  rw [places, Grid.places, rowsOf, zipIdx_map, flatMap_map]
  simp

theorem filled_rowsOf (h : place ∈ Grid.places (rowsOf frames)) :
    (Grid.value? (rowsOf frames) place).isSome := by
  obtain ⟨cell, hcell⟩ := Option.isSome_iff_exists.mp (mem_places.mp h)
  obtain ⟨row, hrow, hcolumn⟩ := Option.bind_eq_some_iff.mp hcell
  obtain ⟨frame, -, rfl⟩ := mem_map.mp (mem_of_getElem? hrow)
  obtain ⟨event, -, rfl⟩ := mem_map.mp (mem_of_getElem? hcolumn)
  rw [Grid.value?, hcell]
  rfl

theorem filterMap_rowsOf (frames : List EventBroadcastFrame) :
    (Grid.places (rowsOf frames)).filterMap (Grid.value? (rowsOf frames)) =
      frames.flatMap EventBroadcastFrame.events := by
  rw [filterMap_value?, rowsOf, reduceOption, filterMap_flatten, map_map,
    flatMap]
  congr 1
  refine map_congr_left fun frame _ => ?_
  rw [Function.comp_apply, filterMap_map]
  exact filterMap_some

theorem flatMap_compactCoalescedFrames_eq :
    ∀ {frames : List EventBroadcastFrame} {rows : List (List (Option SerializedRuntimeEvent))},
      frames.length = rows.length →
        (compactCoalescedFrames numbers frames rows).flatMap EventBroadcastFrame.events =
          rows.flatten.reduceOption := by
  intro frames
  induction frames with
  | nil =>
    intro rows h
    obtain rfl := length_eq_zero_iff.mp h.symm
    rfl
  | cons frame frames ih =>
    intro rows h
    obtain _ | ⟨row, rows⟩ := rows
    · cases h
    · rw [flatMap_compactCoalescedFrames, ih (Nat.succ.inj h), flatten_cons,
        reduceOption_append]
      rfl

/-- The frames that are left keep their steps and their order. -/
theorem serverStep_compactCoalescedFrames :
    ∀ (frames : List EventBroadcastFrame) (rows : List (List (Option SerializedRuntimeEvent))),
      List.Sublist
        ((compactCoalescedFrames numbers frames rows).map EventBroadcastFrame.serverStep)
        (frames.map EventBroadcastFrame.serverStep) := by
  intro frames
  induction frames with
  | nil => exact fun _ => List.Sublist.refl _
  | cons frame frames ih =>
    intro rows
    obtain _ | ⟨row, rows⟩ := rows
    · exact nil_sublist _
    · have hrest := ih rows
      rw [compactCoalescedFrames, zip_cons_cons, filterMap_cons]
      dsimp only
      by_cases hempty : row.filterMap id = []
      · rw [if_pos hempty]
        exact hrest.cons _
      · rw [if_neg hempty, map_cons, map_cons, serverStep_refreshChecksum]
        exact hrest.cons_cons _

/-- **What coalescing leaves** of at least two frames. -/
theorem flatMap_coalesceBatchFrames (options : EventCoalescingOptions)
    (numbers : JsonText.NumberText ℚ) (h : 2 ≤ frames.length) :
    (options.coalesceBatchFrames numbers frames).flatMap EventBroadcastFrame.events =
      options.stayingEvents frames := by
  have hvisited : options.Visited (rowsOf frames) (Grid.places (rowsOf frames))
      ((Grid.places (rowsOf frames)).foldl options.visit ([], rowsOf frames)) :=
    visited_foldl options fun _ => filled_rowsOf
  have hlength : frames.length =
      ((places frames).foldl options.visit ([], rowsOf frames)).2.length := by
    have hrows := congrArg length hvisited.shape
    rw [length_map, length_map, rowsOf, length_map] at hrows
    rw [places_eq]
    exact hrows.symm
  rw [coalesceBatchFrames, if_neg (by omega)]
  refine (flatMap_compactCoalescedFrames_eq hlength).trans ?_
  rw [places_eq, ← filterMap_value?, places_congr hvisited.shape, stayingEvents]
  refine filterMap_congr fun place hplace => ?_
  rw [hvisited.entry]
  by_cases hstays : options.Stays (rowsOf frames) (Grid.places (rowsOf frames)) place
  · rw [if_pos hstays, if_neg fun hgone => hgone.2 hstays]
  · rw [if_neg hstays, if_pos ⟨hplace, hstays⟩]

/-! ### One event for each key -/

theorem mem_stayingEvents :
    event ∈ options.stayingEvents frames ↔
      ∃ place ∈ Grid.places (rowsOf frames),
        options.Stays (rowsOf frames) (Grid.places (rowsOf frames)) place ∧
          Grid.value? (rowsOf frames) place = some event := by
  rw [stayingEvents, mem_filterMap]
  refine exists_congr fun place => and_congr_right fun _ => ?_
  rw [Option.ite_none_right_eq_some]

theorem filterMap_group (key : String) :
    (options.group (rowsOf frames) (Grid.places (rowsOf frames)) (some key)).filterMap
        (Grid.value? (rowsOf frames)) =
      (frames.flatMap EventBroadcastFrame.events).filter fun event => options.key event = key := by
  rw [← filterMap_rowsOf, filter_filterMap, group, filterMap_filter]
  refine filterMap_congr fun place _ => ?_
  rw [keyAt]
  cases Grid.value? (rowsOf frames) place with
  | none => rfl
  | some event => simp [Option.filter]

theorem pick_of_mem_stayingEvents (h : event ∈ options.stayingEvents frames) :
    options.modeOrLast.pick ((frames.flatMap EventBroadcastFrame.events).filter fun other =>
      options.key other = options.key event) = some event := by
  obtain ⟨place, hplace, hstays, hevent⟩ := mem_stayingEvents.mp h
  have hkey : options.keyAt (rowsOf frames) place = some (options.key event) := by
    rw [keyAt, hevent, Option.map_some]
  rw [Stays, hkey] at hstays
  rw [← filterMap_group, pick_filterMap _ fun other hother =>
    filled_rowsOf (mem_group.mp hother).1, hstays]
  exact hevent

theorem exists_mem_stayingEvents (options : EventCoalescingOptions)
    (h : event ∈ frames.flatMap EventBroadcastFrame.events) :
    ∃ other ∈ options.stayingEvents frames, options.key other = options.key event := by
  rw [← filterMap_rowsOf, mem_filterMap] at h
  obtain ⟨place, hplace, hevent⟩ := h
  have hkey : options.keyAt (rowsOf frames) place = some (options.key event) := by
    rw [keyAt, hevent, Option.map_some]
  have hgroup : place ∈ options.group (rowsOf frames) (Grid.places (rowsOf frames))
      (some (options.key event)) := mem_group.mpr ⟨hplace, hkey⟩
  obtain ⟨picked, hpicked⟩ : ∃ picked, options.modeOrLast.pick
      (options.group (rowsOf frames) (Grid.places (rowsOf frames)) (some (options.key event))) =
        some picked := by
    refine Option.ne_none_iff_exists'.mp fun hnone => ?_
    rw [pick_eq_none] at hnone
    rw [hnone] at hgroup
    exact not_mem_nil hgroup
  obtain ⟨hplaces, hsame⟩ := mem_group.mp (mem_of_pick _ hpicked)
  obtain ⟨other, hother⟩ := Option.isSome_iff_exists.mp (filled_rowsOf hplaces)
  refine ⟨other, mem_stayingEvents.mpr ⟨picked, hplaces, ?_, hother⟩, ?_⟩
  · rw [Stays, hsame]
    exact hpicked
  · rw [keyAt, hother, Option.map_some] at hsame
    exact Option.some.inj hsame

theorem nodup_stayingEvents (options : EventCoalescingOptions) (frames : List EventBroadcastFrame) :
    ((options.stayingEvents frames).map options.key).Nodup := by
  rw [stayingEvents, map_filterMap]
  refine (nodup_places _).filterMap fun place place' key hkey hkey' => ?_
  have hread : ∀ {place}, key ∈ Option.map options.key
      (if options.Stays (rowsOf frames) (Grid.places (rowsOf frames)) place then
        Grid.value? (rowsOf frames) place else none) →
      options.modeOrLast.pick (options.group (rowsOf frames) (Grid.places (rowsOf frames))
        (some key)) = some place := by
    intro place hkey
    by_cases hstays : options.Stays (rowsOf frames) (Grid.places (rowsOf frames)) place
    · rw [if_pos hstays] at hkey
      rw [Stays] at hstays
      rwa [show options.keyAt (rowsOf frames) place = some key from hkey] at hstays
    · rw [if_neg hstays] at hkey
      cases hkey
  exact Option.some.inj ((hread hkey).symm.trans (hread hkey'))

end EventCoalescingOptions

/-- The events of a batch. -/
def EventBroadcastBatch.events (batch : EventBroadcastBatch) : List SerializedRuntimeEvent :=
  batch.frames.flatMap EventBroadcastFrame.events

namespace EventCoalescingOptions

variable (options : EventCoalescingOptions)

/-- **The law of coalescing** for a batch that covers given frames, in the order in which they came
in: no key twice; of each key the first or the last event; no key lost; the events in their order,
after which the frames are put in the order of their steps, as in any batch. -/
structure OnePerKey (frames : List EventBroadcastFrame) (batch : EventBroadcastBatch) : Prop where
  distinct : (batch.events.map options.key).Nodup
  picked : ∀ event ∈ batch.events,
    options.modeOrLast.pick ((frames.flatMap EventBroadcastFrame.events).filter fun other =>
      options.key other = options.key event) = some event
  complete : ∀ event ∈ frames.flatMap EventBroadcastFrame.events,
    ∃ other ∈ batch.events, options.key other = options.key event
  ordered : ∃ left, buildBatch left = some batch ∧
    List.Sublist (left.flatMap EventBroadcastFrame.events)
      (frames.flatMap EventBroadcastFrame.events)
  inOrder : InOrder frames →
    List.Sublist batch.events (frames.flatMap EventBroadcastFrame.events)

/-- The frames are at least two, or their events have different keys. -/
def Coalescable (frames : List EventBroadcastFrame) : Prop :=
  2 ≤ frames.length ∨ ((frames.flatMap EventBroadcastFrame.events).map options.key).Nodup

variable {options} {frames : List EventBroadcastFrame} {numbers : JsonText.NumberText ℚ}

theorem exists_buildBatch (h : frames ≠ []) :
    ∃ batch, buildBatch frames = some batch ∧
      batch.frames = if frames.length > 1 then frames.insertionSort NotLater else frames := by
  have hne : (if frames.length > 1 then frames.insertionSort NotLater else frames) ≠ [] := by
    split
    · intro hnil
      have hlength := length_insertionSort NotLater frames
      rw [hnil] at hlength
      exact h (length_eq_zero_iff.mp hlength.symm)
    · exact h
  obtain ⟨first, rest, hordered⟩ := exists_cons_of_ne_nil hne
  unfold buildBatch
  rw [hordered]
  exact ⟨_, rfl, rfl⟩

/-- The events of at least two frames are coalesced. -/
theorem onePerKey_coalesceBatchFrames (options : EventCoalescingOptions)
    (numbers : JsonText.NumberText ℚ)
    (hlength : 2 ≤ frames.length) (hevents : ∀ frame ∈ frames, frame.events ≠ []) :
    ∃ batch, buildBatch (options.coalesceBatchFrames numbers frames) = some batch ∧
      options.OnePerKey frames batch := by
  have hleft := flatMap_coalesceBatchFrames options numbers hlength
  obtain ⟨frame, hframe⟩ := exists_mem_of_length_pos (Nat.lt_of_lt_of_le Nat.two_pos hlength)
  obtain ⟨event, hevent⟩ := exists_mem_of_ne_nil _ (hevents frame hframe)
  obtain ⟨kept, hkept, -⟩ := exists_mem_stayingEvents options
    (mem_flatMap.mpr ⟨frame, hframe, hevent⟩)
  have hne : options.coalesceBatchFrames numbers frames ≠ [] := by
    intro hnil
    rw [hnil, flatMap_nil] at hleft
    rw [← hleft] at hkept
    exact not_mem_nil hkept
  obtain ⟨batch, hbatch, hframes⟩ := exists_buildBatch hne
  have hperm : batch.events.Perm (options.stayingEvents frames) := by
    rw [← hleft, EventBroadcastBatch.events, hframes]
    refine .flatMap_right _ ?_
    split
    · exact perm_insertionSort NotLater _
    · exact .refl _
  refine ⟨batch, hbatch, (hperm.map options.key).nodup_iff.mpr (nodup_stayingEvents _ _),
    fun event hmem => pick_of_mem_stayingEvents (hperm.mem_iff.mp hmem), fun event hmem => ?_,
    ⟨_, hbatch, options.coalesce_sublist numbers frames⟩, fun horder => ?_⟩
  · obtain ⟨other, hother, hkey⟩ := exists_mem_stayingEvents options hmem
    exact ⟨other, hperm.mem_iff.mpr hother, hkey⟩
  · have hsteps : InOrder (options.coalesceBatchFrames numbers frames) := by
      have hfrom : (frames.map EventBroadcastFrame.serverStep).Pairwise
          fun a b => a.le b = true := pairwise_map.mpr horder
      rw [coalesceBatchFrames, if_neg (by omega)]
      exact pairwise_map.mp (hfrom.sublist (serverStep_compactCoalescedFrames frames _))
    have hsame : batch.frames = options.coalesceBatchFrames numbers frames := by
      rw [hframes]
      split
      · exact hsteps.insertionSort
      · rfl
    rw [EventBroadcastBatch.events, hsame]
    exact options.coalesce_sublist numbers frames

theorem filter_key_of_nodup {events : List SerializedRuntimeEvent}
    (hnodup : (events.map options.key).Nodup) {event : SerializedRuntimeEvent}
    (h : event ∈ events) :
    events.filter (fun other => options.key other = options.key event) = [event] := by
  induction events with
  | nil => exact absurd h not_mem_nil
  | cons head rest ih =>
    rw [map_cons, nodup_cons] at hnodup
    have hhead : ∀ other ∈ rest, options.key other ≠ options.key head := fun other hother heq =>
      hnodup.1 (mem_map.mpr ⟨other, hother, heq⟩)
    rcases mem_cons.mp h with rfl | h
    · rw [filter_cons_of_pos (by simp)]
      refine congrArg (event :: ·) (filter_eq_nil_iff.mpr fun other hother => ?_)
      simpa using hhead other hother
    · rw [filter_cons_of_neg (by simpa using (hhead event h).symm), ih hnodup.2 h]

/-- **A single frame** is handed out as it is: the law holds if the keys of its events differ. -/
theorem onePerKey_singleton_iff (options : EventCoalescingOptions) (frame : EventBroadcastFrame) :
    ∃ batch, buildBatch [frame] = some batch ∧
      (options.OnePerKey [frame] batch ↔ options.Coalescable [frame]) := by
  obtain ⟨batch, hbatch, hframes⟩ := exists_buildBatch (cons_ne_nil frame [])
  have hevents : batch.events = [frame].flatMap EventBroadcastFrame.events := by
    rw [EventBroadcastBatch.events, hframes]
    rfl
  refine ⟨batch, hbatch, fun h => .inr (hevents ▸ h.distinct), fun h => ?_⟩
  have hnodup := h.resolve_left (by simp)
  refine ⟨hevents ▸ hnodup, fun event hmem => ?_, fun event hmem => ⟨event, hevents ▸ hmem, rfl⟩,
    ⟨[frame], hbatch, List.Sublist.refl _⟩, fun _ => hevents ▸ List.Sublist.refl _⟩
  rw [hevents] at hmem
  rw [filter_key_of_nodup hnodup hmem]
  exact pick_singleton _ event

/-- The batch of a flush of some frames. -/
theorem onePerKey_iff (numbers : JsonText.NumberText ℚ) (hne : frames ≠ [])
    (hevents : ∀ frame ∈ frames, frame.events ≠ []) :
    ∃ batch, buildBatch (options.coalesceBatchFrames numbers frames) = some batch ∧
      (options.OnePerKey frames batch ↔ options.Coalescable frames) := by
  obtain _ | ⟨frame, _ | ⟨frame', rest⟩⟩ := frames
  · exact absurd rfl hne
  · exact onePerKey_singleton_iff options frame
  · have hlength : 2 ≤ (frame :: frame' :: rest).length := Nat.le_add_left 2 rest.length
    obtain ⟨batch, hbatch, hlaw⟩ := onePerKey_coalesceBatchFrames options numbers
      hlength hevents
    exact ⟨batch, hbatch, iff_of_true hlaw (.inl hlength)⟩

end EventCoalescingOptions

/-! ### The batches of a run -/

namespace EventBroadcastBatcher

variable (numbers : JsonText.NumberText ℚ)

/-- The frames that the batch of a flush covers. -/
def flushCovers (batcher : EventBroadcastBatcher) : List (List EventBroadcastFrame) :=
  if batcher.pendingFrames = [] then [] else [batcher.pendingFrames]

/-- The frames that the batches of `takeIn` cover, batch by batch. -/
def takeInCovers (batcher : EventBroadcastBatcher) (frame : EventBroadcastFrame) (now : JsNumber) :
    List (List EventBroadcastFrame) :=
  if batcher.allowedEvents frame = [] then []
  else if batcher.hasPriorityEvent (batcher.allowedEvents frame) then
    batcher.flushCovers ++ [[batcher.adjustedFrame numbers frame]]
  else if
      (batcher.addPendingFrame (batcher.adjustedFrame numbers frame) now).shouldFlushAfterAdd then
    (batcher.addPendingFrame (batcher.adjustedFrame numbers frame) now).flushCovers
  else []

/-- The frames that the batches of a call cover. -/
def callCovers (batcher : EventBroadcastBatcher) : BatcherCall → List (List EventBroadcastFrame)
  | .ingestFrame frame now =>
      (if batcher.delayRunning now then [] else batcher.flushCovers) ++
        (batcher.flushIfDelayElapsed numbers now).2.takeInCovers numbers frame now
  | .flush => batcher.flushCovers

/-- The frames that the batches of a sequence of calls cover. -/
def callsCover : List BatcherCall → EventBroadcastBatcher → List (List EventBroadcastFrame)
  | [], _ => []
  | action :: actions, batcher =>
      batcher.callCovers numbers action ++ callsCover actions (batcher.call numbers action).2

/-- From a state of the batcher some frames are taken in: the batches cover what was pending and the
new frames up to those pending now, and each meets the law of coalescing if and only if it covers
two frames or events with different keys. -/
structure Coalesces (options : EventCoalescingOptions) (batcher : EventBroadcastBatcher)
    (frames : List EventBroadcastFrame) (covers : List (List EventBroadcastFrame))
    (result : List EventBroadcastBatch × EventBroadcastBatcher) : Prop where
  same : SameOptions batcher result.2
  frames : covers.flatten ++ result.2.pendingFrames = batcher.pendingFrames ++ frames
  batches : List.Forall₂ (fun covered batch =>
    options.OnePerKey covered batch ↔ options.Coalescable covered) covers result.1
  pending : ∀ frame ∈ result.2.pendingFrames, frame.events ≠ []

variable {numbers} {options : EventCoalescingOptions}

variable {batcher : EventBroadcastBatcher}

theorem Coalesces.refl (h : ∀ frame ∈ batcher.pendingFrames, frame.events ≠ []) :
    Coalesces options batcher [] [] ([], batcher) :=
  ⟨.refl _, (append_nil _).symm, .nil, h⟩

theorem Coalesces.append {frames frames' : List EventBroadcastFrame}
    {covers covers' : List (List EventBroadcastFrame)}
    {first second : List EventBroadcastBatch × EventBroadcastBatcher}
    (h : Coalesces options batcher frames covers first)
    (h' : Coalesces options first.2 frames' covers' second) :
    Coalesces options batcher (frames ++ frames') (covers ++ covers')
      (first.1 ++ second.1, second.2) := by
  refine ⟨h.same.trans h'.same, ?_, rel_append h.batches h'.batches, h'.pending⟩
  rw [flatten_append, append_assoc, h'.frames, ← append_assoc, h.frames,
    append_assoc]

/-- A flush hands out what is pending. -/
theorem flush_coalesces (numbers : JsonText.NumberText ℚ)
    (hcoalesce : batcher.coalesce = some options)
    (hevents : ∀ frame ∈ batcher.pendingFrames, frame.events ≠ []) :
    Coalesces options batcher [] batcher.flushCovers
      ((batcher.flush numbers).1.toList, (batcher.flush numbers).2) := by
  by_cases h : batcher.pendingFrames = []
  · rw [flush, if_pos h, flushCovers, if_pos h]
    exact .refl hevents
  · have hflush : batcher.flush numbers =
        (buildBatch (options.coalesceBatchFrames numbers batcher.pendingFrames),
          { batcher with pendingFrames := [], pendingEventCount := 0, pendingSince := none }) := by
      rw [flush, if_neg h]
      simp only [hcoalesce]
    obtain ⟨batch, hbatch, hlaw⟩ := EventCoalescingOptions.onePerKey_iff numbers h hevents
    rw [hflush, hbatch, flushCovers, if_neg h]
    refine ⟨⟨rfl, rfl, rfl, rfl⟩, ?_, .cons hlaw .nil, fun _ hframe =>
      absurd hframe not_mem_nil⟩
    rw [flatten_singleton]

theorem flushIfDelayElapsed_coalesces (numbers : JsonText.NumberText ℚ)
    (hcoalesce : batcher.coalesce = some options)
    (hevents : ∀ frame ∈ batcher.pendingFrames, frame.events ≠ []) (now : JsNumber) :
    Coalesces options batcher [] (if batcher.delayRunning now then [] else batcher.flushCovers)
      ((batcher.flushIfDelayElapsed numbers now).1.toList,
        (batcher.flushIfDelayElapsed numbers now).2) := by
  rw [flushIfDelayElapsed]
  split
  · exact .refl hevents
  · exact flush_coalesces numbers hcoalesce hevents

/-- A frame that is taken in. -/
theorem takeIn_coalesces (numbers : JsonText.NumberText ℚ)
    (hcoalesce : batcher.coalesce = some options)
    (hevents : ∀ frame ∈ batcher.pendingFrames, frame.events ≠ []) (frame : EventBroadcastFrame)
    (now : JsNumber) :
    Coalesces options batcher (kept numbers batcher frame) (batcher.takeInCovers numbers frame now)
      (batcher.takeIn numbers frame now) := by
  unfold takeIn takeInCovers
  dsimp only
  by_cases hallowed : batcher.allowedEvents frame = []
  · rw [if_pos hallowed, if_pos hallowed, kept, if_pos hallowed]
    exact .refl hevents
  · have hadjusted : (batcher.adjustedFrame numbers frame).events ≠ [] := by
      rw [adjustedFrame, events_refreshChecksum]
      exact hallowed
    rw [if_neg hallowed, if_neg hallowed, kept, if_neg hallowed]
    split
    · -- a priority event: what is pending goes first, then the frame in a batch of its own
      have hflush := flush_coalesces numbers hcoalesce hevents
      obtain ⟨batch, hbatch, hlaw⟩ := EventCoalescingOptions.onePerKey_singleton_iff options
        (batcher.adjustedFrame numbers frame)
      have hown : Coalesces options (batcher.flush numbers).2 [batcher.adjustedFrame numbers frame]
          [[batcher.adjustedFrame numbers frame]]
          ((buildBatch [batcher.adjustedFrame numbers frame]).toList,
            (batcher.flush numbers).2) := by
        rw [hbatch]
        refine ⟨.refl _, ?_, .cons hlaw .nil, hflush.pending⟩
        rw [flush_pendingFrames]
        rfl
      exact hflush.append hown
    · split
      · -- the frame reaches a limit
        have hcoalesce' : (batcher.addPendingFrame (batcher.adjustedFrame numbers frame)
            now).coalesce = some options := hcoalesce
        have hflush := flush_coalesces numbers hcoalesce' fun other hother =>
          (mem_append.mp hother).elim (hevents other) fun hnew =>
            mem_singleton.mp hnew ▸ hadjusted
        exact ⟨⟨hflush.same.maxSteps, hflush.same.maxEvents, hflush.same.filter,
          hflush.same.coalesce⟩, hflush.frames.trans (append_nil _), hflush.batches,
          hflush.pending⟩
      · exact ⟨⟨rfl, rfl, rfl, rfl⟩, rfl, .nil, fun other hother =>
          (mem_append.mp hother).elim (hevents other) fun hnew =>
            mem_singleton.mp hnew ▸ hadjusted⟩

/-- **One call on the batcher.** -/
theorem call_coalesces (numbers : JsonText.NumberText ℚ)
    (hcoalesce : batcher.coalesce = some options)
    (hevents : ∀ frame ∈ batcher.pendingFrames, frame.events ≠ []) (action : BatcherCall) :
    Coalesces options batcher (action.frame?.toList.flatMap (kept numbers batcher))
      (batcher.callCovers numbers action) (batcher.call numbers action) := by
  rcases action with ⟨frame, now⟩ | _
  · rw [BatcherCall.frame?, Option.toList_some, flatMap_singleton]
    have hdelay := flushIfDelayElapsed_coalesces numbers hcoalesce hevents now
    have hin := takeIn_coalesces numbers (hdelay.same.coalesce.trans hcoalesce) hdelay.pending
      frame now
    rw [hdelay.same.kept_eq] at hin
    exact hdelay.append hin
  · exact flush_coalesces numbers hcoalesce hevents

/-- **A sequence of calls.** -/
theorem calls_coalesces (numbers : JsonText.NumberText ℚ) (actions : List BatcherCall)
    (hcoalesce : batcher.coalesce = some options)
    (hevents : ∀ frame ∈ batcher.pendingFrames, frame.events ≠ []) :
    Coalesces options batcher
      ((actions.filterMap BatcherCall.frame?).flatMap (kept numbers batcher))
      (callsCover numbers actions batcher) (calls numbers actions batcher) := by
  induction actions generalizing batcher with
  | nil => exact .refl hevents
  | cons action actions ih =>
    have hfirst := call_coalesces numbers hcoalesce hevents action
    have hrest := ih (hfirst.same.coalesce.trans hcoalesce) hfirst.pending
    have hsame : ∀ frames : List EventBroadcastFrame,
        frames.flatMap (kept numbers (batcher.call numbers action).2) =
          frames.flatMap (kept numbers batcher) := fun frames =>
      flatMap_congr fun frame _ => hfirst.same.kept_eq frame
    rw [hsame] at hrest
    have hsplit :
        ((action :: actions).filterMap BatcherCall.frame?).flatMap (kept numbers batcher) =
        action.frame?.toList.flatMap (kept numbers batcher) ++
          (actions.filterMap BatcherCall.frame?).flatMap (kept numbers batcher) := by
      rw [← flatMap_append]
      rcases action with ⟨frame, now⟩ | _
      · rfl
      · rfl
    rw [hsplit]
    exact hfirst.append hrest

/-- **When coalescing keeps one event for each key.** A new batcher with coalescing, under any
limits, delay, filter and priority types: the batches of a sequence of calls cover the frames with
allowed events one after the other, up to those still pending, and a batch meets the law of
coalescing if and only if it covers at least two frames, or events with different keys. -/
theorem batches_onePerKey_iff (numbers : JsonText.NumberText ℚ) {text : JsNumber → String}
    {batcherOptions : EventBroadcastBatcherOptions} {options : EventCoalescingOptions}
    (hcoalesce : batcherOptions.coalesce = some options) {batcher : EventBroadcastBatcher}
    (hcreate : create text batcherOptions = .ok batcher) (actions : List BatcherCall) :
    List.Forall₂ (fun covered batch =>
        options.OnePerKey covered batch ↔ options.Coalescable covered)
      (callsCover numbers actions batcher) (calls numbers actions batcher).1 ∧
    (callsCover numbers actions batcher).flatten ++
        (calls numbers actions batcher).2.pendingFrames =
      (actions.filterMap BatcherCall.frame?).flatMap (kept numbers batcher) := by
  obtain ⟨-, hoptions, hpending⟩ := inStep_create hcreate
  have hrun := calls_coalesces numbers actions (hoptions.trans hcoalesce) fun frame hframe => by
    rw [hpending] at hframe
    exact absurd hframe List.not_mem_nil
  refine ⟨hrun.batches, ?_⟩
  rw [hrun.frames, hpending, List.nil_append]

/-- Events coalesced by their types, two frames at a time. -/
def byType : EventBroadcastBatcherOptions :=
  { maxSteps := some (.fin 2), maxEvents := none, maxDelayMs := none, filter := none
    priorityEventTypes := some ["urgent"]
    coalesce := some { key := fun event => event.type, mode := none } }

/-- Of two frames with an event of one type, the batch has the second. -/
theorem batches_onePerKey_iff_two :
    ∃ batcher batch, create (fun _ => "") byType = .ok batcher ∧
      (calls JsonText.fractionText [.ingestFrame ⟨.fin 1, [⟨"a", 0, 0, 0, .null⟩], none, none⟩ .nan,
        .ingestFrame ⟨.fin 2, [⟨"a", 0, 1, 0, .null⟩], none, none⟩ .nan] batcher).1 = [batch] ∧
      batch.events = [⟨"a", 0, 1, 0, .null⟩] ∧
      OnePerKey { key := fun event => event.type, mode := none }
        [⟨.fin 1, [⟨"a", 0, 0, 0, .null⟩], none, none⟩,
          ⟨.fin 2, [⟨"a", 0, 1, 0, .null⟩], none, none⟩] batch := by
  have hcreate : create (fun _ => "") byType = .ok _ := rfl
  obtain ⟨hbatches, -⟩ := batches_onePerKey_iff JsonText.fractionText rfl hcreate
    [.ingestFrame ⟨.fin 1, [⟨"a", 0, 0, 0, .null⟩], none, none⟩ .nan,
      .ingestFrame ⟨.fin 2, [⟨"a", 0, 1, 0, .null⟩], none, none⟩ .nan]
  exact ⟨_, _, hcreate, rfl, rfl, (List.forall₂_cons.mp hbatches).1.mpr (.inl le_rfl)⟩

/-- An urgent frame is handed out at once, with both events of its type. -/
theorem urgent_frame_uncoalesced :
    ∃ batcher batch, create (fun _ => "") byType = .ok batcher ∧
      (batcher.ingestFrame JsonText.fractionText
        ⟨.fin 1, [⟨"urgent", 0, 0, 0, .null⟩, ⟨"urgent", 0, 0, 1, .null⟩], none, none⟩ .nan).1 =
          [batch] ∧
      ¬OnePerKey { key := fun event => event.type, mode := none }
        [⟨.fin 1, [⟨"urgent", 0, 0, 0, .null⟩, ⟨"urgent", 0, 0, 1, .null⟩], none, none⟩] batch := by
  refine ⟨_, _, rfl, rfl, fun h => ?_⟩
  have hdistinct := h.distinct
  revert hdistinct
  decide

end EventBroadcastBatcher

end IdleEngine
