import IdleEngine.Events.Broadcast
import IdleEngine.Lib.Ring

/-!
# What the deduper remembers

The deduper keeps a set of keys and a ring of the same keys. `Remembers` says that both hold given
keys, oldest first; a query keeps this (`Remembers.shouldSkip`): a new key joins, and when the ring
is full the oldest leaves the set as it leaves the ring. Over any sequence of queries the keys are
then the last ones that were answered with `false`, as many as the capacity allows
(`shouldSkip_after_iff`).
-/

namespace IdleEngine

open List

namespace EventBroadcastDeduper

/-- The deduper of a capacity of at least 1, rounded down. -/
def ofCapacity (capacity : ℚ) (h : 1 ≤ capacity) : EventBroadcastDeduper :=
  create ⌊capacity⌋₊ (Nat.floor_pos.mpr h)

/-- `reset`. -/
def reset (deduper : EventBroadcastDeduper) : EventBroadcastDeduper :=
  { deduper with
    seen := [], ring := List.replicate deduper.ring.length none, writeIndex := 0, size := 0 }

/-- The deduper after a sequence of queries. -/
def after (steps : StepText) (deduper : EventBroadcastDeduper)
    (queries : List (ℚ × SerializedRuntimeEvent)) : EventBroadcastDeduper :=
  queries.foldl (fun deduper query => (deduper.shouldSkip steps query.1 query.2).2) deduper

/-- What a query is remembered by. -/
def triple (query : ℚ × SerializedRuntimeEvent) : ℚ × ℕ × String :=
  (query.1, query.2.dispatchOrder, query.2.type)

/-- The set and the ring hold the keys, oldest first, each once. -/
structure Remembers (deduper : EventBroadcastDeduper) (keys : List (List Char)) : Prop where
  holds : Ring.Holds deduper.ring deduper.writeIndex keys
  length_ring : deduper.ring.length = deduper.capacity
  size_eq : deduper.size = keys.length
  seen_eq : deduper.seen = keys
  nodup : keys.Nodup

variable {steps : StepText} {deduper : EventBroadcastDeduper} {keys : List (List Char)}

theorem Remembers.create {capacity : ℕ} (hpos : 0 < capacity) : (create capacity hpos).Remembers []
    where
  holds := Ring.Holds.empty hpos
  length_ring := length_replicate
  size_eq := rfl
  seen_eq := rfl
  nodup := nodup_nil

/-- **Remembering a new key**: the last keys stay, as many as fit. -/
theorem Remembers.record {key : List Char} (h : deduper.Remembers keys) (hnew : key ∉ keys) :
    ({ deduper with seen := deduper.seen ++ [key] }.record key).Remembers
      ((keys ++ [key]).rtake deduper.capacity) := by
  have hnodup : (keys ++ [key]).Nodup :=
    nodup_append.mpr ⟨h.nodup, nodup_singleton key, fun old hold other hother => by
      rintro rfl
      exact hnew (mem_singleton.mp hother ▸ hold)⟩
  have hfits := h.holds.fits
  have hlength := h.length_ring
  have hsize := h.size_eq
  rw [EventBroadcastDeduper.record]
  by_cases hfree : deduper.size < deduper.capacity
  · rw [if_pos hfree, rtake_of_length_le (by rw [length_append, ← hsize]; exact hfree)]
    have hwrite := h.holds.write (by omega) key
    rw [hlength] at hwrite
    refine ⟨hwrite, length_set.trans hlength, ?_, ?_, hnodup⟩
    · rw [length_append, ← hsize]
      rfl
    · exact congrArg (· ++ [key]) h.seen_eq
  · rw [if_neg hfree]
    obtain ⟨oldest, kept, rfl⟩ : ∃ oldest kept, keys = oldest :: kept :=
      exists_cons_of_length_pos (by have := deduper.capacity_pos; omega)
    have hfull : kept.length + 1 = deduper.ring.length := by
      rw [length_cons] at hsize hfits
      omega
    obtain ⟨hslot, hwrite⟩ := h.holds.overwrite hfull key
    rw [hlength] at hwrite hfull
    have hlast : ((oldest :: kept) ++ [key]).rtake deduper.capacity = kept ++ [key] := by
      have hone : ((oldest :: kept) ++ [key]).length - deduper.capacity = 1 := by
        rw [length_append, length_cons, hfull, length_singleton]
        omega
      rw [rtake, hone]
      rfl
    rw [hlast]
    rw [cons_append, nodup_cons] at hnodup
    refine ⟨hwrite, length_set.trans hlength, ?_, ?_, hnodup.2⟩
    · rw [length_append]
      exact hsize
    · -- the slot that is written held the oldest key, and no other key is equal to it
      change filter (fun old => deduper.ring[deduper.writeIndex]? ≠ some (some old))
        (deduper.seen ++ [key]) = kept ++ [key]
      rw [hslot, h.seen_eq, cons_append, filter_cons_of_neg (by simp)]
      refine filter_eq_self.mpr fun old hold => ?_
      have hne : oldest ≠ old := by
        rintro rfl
        exact hnodup.1 hold
      simpa using hne

/-- **One query**: it is skipped if its key is remembered; if not, its key is remembered next. -/
theorem Remembers.shouldSkip (h : deduper.Remembers keys) (steps : StepText) (serverStep : ℚ)
    (event : SerializedRuntimeEvent) :
    (dedupKey steps serverStep event ∈ keys ∧
        deduper.shouldSkip steps serverStep event = (true, deduper)) ∨
      (dedupKey steps serverStep event ∉ keys ∧
        (deduper.shouldSkip steps serverStep event).1 = false ∧
        (deduper.shouldSkip steps serverStep event).2.Remembers
          ((keys ++ [dedupKey steps serverStep event]).rtake deduper.capacity)) := by
  rw [EventBroadcastDeduper.shouldSkip, h.seen_eq]
  by_cases hmem : dedupKey steps serverStep event ∈ keys
  · rw [if_pos hmem]
    exact .inl ⟨hmem, rfl⟩
  · rw [if_neg hmem]
    refine .inr ⟨hmem, rfl, ?_⟩
    have hrecord := h.record hmem
    rw [h.seen_eq] at hrecord
    exact hrecord

theorem capacity_shouldSkip (deduper : EventBroadcastDeduper) (serverStep : ℚ)
    (event : SerializedRuntimeEvent) :
    (deduper.shouldSkip steps serverStep event).2.capacity = deduper.capacity := by
  rw [EventBroadcastDeduper.shouldSkip]
  split
  · rfl
  · rw [EventBroadcastDeduper.record]
    split
    · rfl
    · rfl

theorem delivered_cons (deduper : EventBroadcastDeduper) (query : ℚ × SerializedRuntimeEvent)
    (queries : List (ℚ × SerializedRuntimeEvent)) :
    deduper.delivered steps (query :: queries) =
      if (deduper.shouldSkip steps query.1 query.2).1 then
        (deduper.shouldSkip steps query.1 query.2).2.delivered steps queries
      else query :: (deduper.shouldSkip steps query.1 query.2).2.delivered steps queries :=
  rfl

theorem after_cons (deduper : EventBroadcastDeduper) (query : ℚ × SerializedRuntimeEvent)
    (queries : List (ℚ × SerializedRuntimeEvent)) :
    deduper.after steps (query :: queries) =
      (deduper.shouldSkip steps query.1 query.2).2.after steps queries :=
  rfl

/-- **A run of queries**: the deduper remembers the last keys that were answered with `false`. -/
theorem Remembers.after (h : deduper.Remembers keys) (steps : StepText)
    (queries : List (ℚ × SerializedRuntimeEvent)) :
    (deduper.after steps queries).Remembers
      ((keys ++ (deduper.delivered steps queries).map fun query =>
        dedupKey steps query.1 query.2).rtake deduper.capacity) := by
  induction queries generalizing deduper keys with
  | nil =>
    have hfits : keys.length ≤ deduper.capacity := h.length_ring ▸ h.holds.fits
    rw [delivered, map_nil, append_nil, rtake_of_length_le hfits]
    exact h
  | cons query queries ih =>
    rw [delivered_cons, after_cons]
    rcases h.shouldSkip steps query.1 query.2 with ⟨-, hskip⟩ | ⟨-, hopen, hnext⟩
    · rw [hskip]
      exact ih h
    · have hrest := ih hnext
      rw [capacity_shouldSkip, rtake_append_rtake, append_assoc] at hrest
      rw [hopen]
      exact hrest

/-- A key is among the last answered with `false` if its triple is. -/
theorem mem_recent_iff (steps : StepText) (queries : List (ℚ × SerializedRuntimeEvent)) (n : ℕ)
    (query : ℚ × SerializedRuntimeEvent) :
    dedupKey steps query.1 query.2 ∈
        (queries.map fun query => dedupKey steps query.1 query.2).rtake n ↔
      triple query ∈ (queries.map triple).rtake n := by
  rw [← map_rtake, ← map_rtake, mem_map, mem_map]
  refine exists_congr fun other => and_congr_right fun _ => ?_
  rw [dedupKey_inj, triple, triple, Prod.mk.injEq, Prod.mk.injEq]

/-- **The deduper remembers the most recent distinct events**: after any sequence of queries, an
event is skipped if and only if its step, dispatch order and type are among the last
`⌊capacity⌋` that were answered with `false`; the set and the ring have the same keys, none twice,
and no more than the capacity. -/
theorem shouldSkip_after_iff (steps : StepText) {capacity : ℚ} (h : 1 ≤ capacity)
    (queries : List (ℚ × SerializedRuntimeEvent)) :
    let deduper := (ofCapacity capacity h).after steps queries
    let answered := (ofCapacity capacity h).delivered steps queries
    (∀ query : ℚ × SerializedRuntimeEvent,
        (deduper.shouldSkip steps query.1 query.2).1 = true ↔
          triple query ∈ (answered.map triple).rtake ⌊capacity⌋₊) ∧
      (∀ key, key ∈ deduper.seen ↔ some key ∈ deduper.ring) ∧
      deduper.seen.Nodup ∧ deduper.ring.reduceOption.Nodup ∧
      deduper.seen.length ≤ ⌊capacity⌋₊ := by
  have hstart : (ofCapacity capacity h).Remembers [] := Remembers.create _
  have hrun := hstart.after steps queries
  rw [List.nil_append] at hrun
  dsimp only
  refine ⟨fun query => ?_, fun key => ?_, ?_, ?_, ?_⟩
  · rw [← mem_recent_iff steps]
    rcases hrun.shouldSkip steps query.1 query.2 with ⟨hmem, hskip⟩ | ⟨hnew, hopen, -⟩
    · exact iff_of_true (congrArg Prod.fst hskip) hmem
    · rw [hopen]
      exact iff_of_false Bool.false_ne_true hnew
  · rw [hrun.seen_eq, hrun.holds.mem_iff]
  · rw [hrun.seen_eq]
    exact hrun.nodup
  · exact hrun.holds.perm.nodup_iff.mpr hrun.nodup
  · rw [hrun.seen_eq]
    exact List.length_rtake_le _ _

/-- Room for two keys, and three events. -/
theorem shouldSkip_after_three :
    let event (dispatchOrder : ℕ) : SerializedRuntimeEvent := ⟨"a", 0, 0, dispatchOrder, .null⟩
    let deduper := (ofCapacity (5 / 2) (by norm_num)).after fractionStepText
      [(4, event 0), (4, event 1), (4, event 2)]
    (deduper.shouldSkip fractionStepText 4 (event 0)).1 = false ∧
      (deduper.shouldSkip fractionStepText 4 (event 1)).1 = true := by
  intro event deduper
  obtain ⟨hskip, -⟩ := shouldSkip_after_iff fractionStepText
    (show (1 : ℚ) ≤ 5 / 2 by norm_num) [(4, event 0), (4, event 1), (4, event 2)]
  have hfloor : ⌊(5 / 2 : ℚ)⌋₊ = 2 := (Nat.floor_eq_iff (by norm_num)).mpr (by norm_num)
  have hanswered : (ofCapacity (5 / 2) (by norm_num)).delivered fractionStepText
      [(4, event 0), (4, event 1), (4, event 2)] = [(4, event 0), (4, event 1), (4, event 2)] :=
    delivered_of_nodup _ _ _ (by simp [dedupKey_inj, event]) fun _ _ => List.not_mem_nil
  rw [hanswered, hfloor] at hskip
  refine ⟨Bool.eq_false_iff.mpr fun h => ?_, (hskip (4, event 1)).mpr ?_⟩
  · exact absurd ((hskip (4, event 0)).mp h) (by simp [triple, List.rtake, event])
  · simp [triple, List.rtake, event]

/-! ### Exactly once -/

theorem delivered_append (deduper : EventBroadcastDeduper)
    (queries rest : List (ℚ × SerializedRuntimeEvent)) :
    deduper.delivered steps (queries ++ rest) =
      deduper.delivered steps queries ++ (deduper.after steps queries).delivered steps rest := by
  induction queries generalizing deduper with
  | nil => rfl
  | cons query queries ih =>
    rw [cons_append, delivered_cons, delivered_cons, after_cons, ih]
    split
    · rfl
    · rfl

/-- The first of the queries with each triple. -/
def firstArrivals (queries : List (ℚ × SerializedRuntimeEvent)) :
    List (ℚ × SerializedRuntimeEvent) :=
  (queries.reverse.pwFilter fun query other => triple query ≠ triple other).reverse

theorem nodup_firstArrivals (queries : List (ℚ × SerializedRuntimeEvent)) :
    ((firstArrivals queries).map triple).Nodup := by
  rw [firstArrivals, map_reverse, nodup_reverse]
  exact pairwise_map.mpr (pairwise_pwFilter _)

theorem firstArrivals_subset (queries : List (ℚ × SerializedRuntimeEvent)) :
    firstArrivals queries ⊆ queries := fun _ hmem =>
  mem_reverse.mp (pwFilter_subset _ (mem_reverse.mp hmem))

theorem triple_mem_firstArrivals {queries : List (ℚ × SerializedRuntimeEvent)}
    {query : ℚ × SerializedRuntimeEvent} :
    triple query ∈ (firstArrivals queries).map triple ↔
      ¬ ∀ other ∈ queries.reverse.pwFilter fun query other => triple query ≠ triple other,
        triple query ≠ triple other := by
  simp only [firstArrivals, mem_map, mem_reverse, not_forall, not_not, exists_prop, eq_comm]

theorem firstArrivals_append (queries : List (ℚ × SerializedRuntimeEvent))
    (query : ℚ × SerializedRuntimeEvent) :
    firstArrivals (queries ++ [query]) = firstArrivals queries ++
      if triple query ∈ (firstArrivals queries).map triple then [] else [query] := by
  rw [firstArrivals, reverse_append, reverse_singleton, singleton_append]
  split
  · next hseen =>
    rw [pwFilter_cons_of_neg (triple_mem_firstArrivals.mp hseen), append_nil, firstArrivals]
  · next hnew =>
    rw [pwFilter_cons_of_pos (not_not.mp (mt triple_mem_firstArrivals.mpr hnew)), reverse_cons,
      firstArrivals]

theorem delivered_eq_firstArrivals (steps : StepText) {capacity : ℚ} (h : 1 ≤ capacity)
    (queries : List (ℚ × SerializedRuntimeEvent))
    (hroom : (firstArrivals queries).length ≤ ⌊capacity⌋₊) :
    (ofCapacity capacity h).delivered steps queries = firstArrivals queries := by
  induction queries using reverseRecOn with
  | nil => rfl
  | append_singleton queries query ih =>
    rw [firstArrivals_append, length_append] at hroom
    have hbefore := ih (by omega)
    have hstart : (ofCapacity capacity h).Remembers [] := Remembers.create _
    have hkeys := hstart.after steps queries
    have hfits : ((firstArrivals queries).map fun query =>
        dedupKey steps query.1 query.2).length ≤ (ofCapacity capacity h).capacity :=
      (length_map _).le.trans ((Nat.le_add_right _ _).trans hroom)
    rw [nil_append, hbefore, rtake_of_length_le hfits] at hkeys
    have hmem : dedupKey steps query.1 query.2 ∈ (firstArrivals queries).map (fun query =>
        dedupKey steps query.1 query.2) ↔ triple query ∈ (firstArrivals queries).map triple := by
      have hrecent := mem_recent_iff steps (firstArrivals queries) (firstArrivals queries).length query
      rwa [rtake_of_length_le (length_map _).le, rtake_of_length_le (length_map _).le] at hrecent
    rw [delivered_append, firstArrivals_append, hbefore, delivered_cons]
    rcases hkeys.shouldSkip steps query.1 query.2 with ⟨hseen, hskip⟩ | ⟨hnew, hopen, -⟩
    · rw [hskip, if_pos (hmem.mp hseen)]
      rfl
    · rw [hopen, if_neg (mt hmem.mpr hnew)]
      rfl

/-- **Exactly once**: if the deduper has room for the distinct events that arrive, in whatever order
and however often, then what it lets through is the first arrival of each; so when the arrivals are
those of some distinct events, each of these comes through once. -/
theorem delivered_exactly_once (steps : StepText) {capacity : ℚ} (h : 1 ≤ capacity)
    (queries : List (ℚ × SerializedRuntimeEvent))
    (hroom : (firstArrivals queries).length ≤ ⌊capacity⌋₊) :
    (ofCapacity capacity h).delivered steps queries = firstArrivals queries ∧
      ∀ sent : List (ℚ × SerializedRuntimeEvent), (sent.map triple).Nodup →
        (∀ query, query ∈ queries ↔ query ∈ sent) →
        ((ofCapacity capacity h).delivered steps queries).Perm sent := by
  have hdelivered := delivered_eq_firstArrivals steps h queries hroom
  refine ⟨hdelivered, fun sent hsent hsame => ?_⟩
  rw [hdelivered]
  refine (perm_ext_iff_of_nodup (nodup_firstArrivals queries).of_map hsent.of_map).mpr
    fun query => ⟨fun hmem => (hsame query).mp (firstArrivals_subset queries hmem), fun hmem => ?_⟩
  -- the first arrival of its triple is one of the sent events, and so it is the event itself
  have htriple : triple query ∈ (firstArrivals queries).map triple := by
    rw [triple_mem_firstArrivals, forall_mem_pwFilter fun hne =>
      not_and_or.mp fun hboth => hne (hboth.1.trans hboth.2)]
    exact fun hnone => hnone query (mem_reverse.mpr ((hsame query).mpr hmem)) rfl
  obtain ⟨first, hfirst, heq⟩ := mem_map.mp htriple
  rw [← inj_on_of_nodup_map hsent ((hsame first).mp (firstArrivals_subset queries hfirst)) hmem heq]
  exact hfirst

/-- Two events that arrive swapped, and one of them twice. -/
theorem delivered_exactly_once_swapped :
    let event (dispatchOrder : ℕ) : SerializedRuntimeEvent := ⟨"a", 0, 0, dispatchOrder, .null⟩
    ((ofCapacity 2 (by decide)).delivered fractionStepText
      [(4, event 1), (4, event 0), (4, event 1)]).Perm [(4, event 0), (4, event 1)] := by
  intro event
  refine (delivered_exactly_once fractionStepText (show (1 : ℚ) ≤ 2 by decide)
    [(4, event 1), (4, event 0), (4, event 1)] ?_).2 _ ?_ fun query => ?_
  · rw [show ⌊(2 : ℚ)⌋₊ = 2 from Nat.floor_natCast 2]
    decide
  · decide
  · simp only [mem_cons, not_mem_nil, or_false]
    tauto

end EventBroadcastDeduper

end IdleEngine
