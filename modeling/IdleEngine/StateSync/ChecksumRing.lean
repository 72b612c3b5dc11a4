import IdleEngine.Lib.Ring
import IdleEngine.StateSync.Prediction

/-!
# The ring of checksums

The manager keeps its checksums in an array of a fixed capacity, with the position of the oldest one
and their number. `ChecksumRing` is these three variables, and its operations are those of the
source: a checksum is written behind the newest one or over the oldest one, and stale ones are freed
at the head.

`IdleEngine.PredictionManager` has the list of the entries instead. `ChecksumRing.Holds` relates the
two: `Holds.recordChecksum`, `Holds.clearHistory` and `Holds.findChecksum` show that the ring does
what the list does.
-/

namespace IdleEngine

open List

/-- `history`, `historyHead` and `historySize`. -/
structure ChecksumRing where
  history : List (Option ChecksumEntry)
  historyHead : ℕ
  historySize : ℕ

namespace ChecksumRing

/-- The ring of a new manager. -/
def create (historyCapacity : ℕ) : ChecksumRing :=
  { history := List.replicate historyCapacity none, historyHead := 0, historySize := 0 }

/-- `clearHistory`. -/
def clearHistory (historyCapacity : ℕ) (_ : ChecksumRing) : ChecksumRing :=
  { history := List.replicate historyCapacity none, historyHead := 0, historySize := 0 }

/-- The loop of `pruneHistory`, with the number of entries that are left. -/
def pruneLoop (historyCapacity : ℕ) (minStep : ℚ) :
    ℕ → List (Option ChecksumEntry) → ℕ → ChecksumRing
  | 0, history, historyHead => { history, historyHead, historySize := 0 }
  | historySize + 1, history, historyHead =>
      match history[historyHead]?.join with
      | none => { history, historyHead, historySize := historySize + 1 }
      | some entry =>
          if entry.step < minStep then
            pruneLoop historyCapacity minStep historySize (history.set historyHead none)
              ((historyHead + 1) % historyCapacity)
          else { history, historyHead, historySize := historySize + 1 }

/-- `pruneHistory`. -/
def pruneHistory (maxPredictionSteps : ℕ) (r : ChecksumRing) (latestStep : ℚ) : ChecksumRing :=
  pruneLoop maxPredictionSteps (latestStep - maxPredictionSteps) r.historySize r.history
    r.historyHead

/-- `recordChecksum`. -/
def recordChecksum (historyCapacity : ℕ) (r : ChecksumRing) (step : ℚ) (checksum : String) :
    ChecksumRing :=
  if historyCapacity = 0 then r
  else
    let index := (r.historyHead + r.historySize) % historyCapacity
    let history := r.history.set index (some ⟨step, checksum⟩)
    let r :=
      if r.historySize = historyCapacity then
        { r with history, historyHead := (r.historyHead + 1) % historyCapacity }
      else { r with history, historySize := r.historySize + 1 }
    r.pruneHistory historyCapacity step

/-- `findChecksum`. -/
def findChecksum (historyCapacity : ℕ) (r : ChecksumRing) (step : ℚ) : Option String :=
  (List.range r.historySize).findSome? fun offset =>
    match r.history[(r.historyHead + offset) % historyCapacity]?.join with
    | none => none
    | some entry => if entry.step = step then some entry.checksum else none

/-! ### What the ring holds -/

/-- The ring holds the entries, oldest first. -/
structure Holds (historyCapacity : ℕ) (r : ChecksumRing) (entries : List ChecksumEntry) : Prop where
  capacity : r.history.length = historyCapacity
  size : r.historySize = entries.length
  queued : historyCapacity ≠ 0 → Ring.Queued r.history r.historyHead entries
  none_fits : historyCapacity = 0 → entries = []

variable {historyCapacity : ℕ} {r : ChecksumRing} {entries : List ChecksumEntry}

theorem Holds.create (historyCapacity : ℕ) : Holds historyCapacity (create historyCapacity) [] where
  capacity := length_replicate
  size := rfl
  queued hpos := Ring.Queued.empty (Nat.pos_of_ne_zero hpos)
  none_fits _ := rfl

theorem Holds.clearHistory (r : ChecksumRing) :
    Holds historyCapacity (r.clearHistory historyCapacity) [] :=
  Holds.create historyCapacity

/-- Pruning frees the slots of the stale entries in front. -/
theorem holds_pruneLoop (minStep : ℚ) {history : List (Option ChecksumEntry)} {historyHead : ℕ}
    (hcapacity : history.length = historyCapacity)
    (hqueued : Ring.Queued history historyHead entries) :
    Holds historyCapacity (pruneLoop historyCapacity minStep entries.length history historyHead)
      (entries.dropWhile fun entry => decide (entry.step < minStep)) := by
  have hpos : historyCapacity ≠ 0 := hcapacity ▸ (Nat.zero_lt_of_lt hqueued.lt).ne'
  induction entries generalizing history historyHead with
  | nil => exact ⟨hcapacity, rfl, fun _ => hqueued, fun _ => rfl⟩
  | cons oldest entries ih =>
    have hread : history[historyHead]? = some (some oldest) := by
      have hfirst : history[(historyHead + 0) % history.length]? = some (some oldest) :=
        hqueued.read (Nat.zero_lt_succ _)
      rwa [Nat.add_zero, Nat.mod_eq_of_lt hqueued.lt] at hfirst
    rw [length_cons, pruneLoop, hread]
    change Holds historyCapacity (if oldest.step < minStep then _ else _) _
    by_cases hstale : oldest.step < minStep
    · rw [if_pos hstale, dropWhile_cons_of_pos (by simpa using hstale)]
      have hdropped := hqueued.drop
      rw [hcapacity] at hdropped
      exact ih (length_set.trans hcapacity) hdropped
    · rw [if_neg hstale, dropWhile_cons_of_neg (by simpa using hstale)]
      exact ⟨hcapacity, rfl, fun _ => hqueued, fun hzero => absurd hzero hpos⟩

/-- **Recording a checksum** does in the ring what it does in the list. -/
theorem Holds.recordChecksum {window : PredictionWindow} {m : PredictionManager}
    (h : Holds window.maxPredictionSteps r m.history) (step : ℚ) (checksum : String) :
    Holds window.maxPredictionSteps (r.recordChecksum window.maxPredictionSteps step checksum)
      (m.recordChecksum window step checksum).history := by
  rw [ChecksumRing.recordChecksum, PredictionManager.recordChecksum]
  by_cases hnone : window.maxPredictionSteps = 0
  · rw [if_pos hnone, if_pos hnone]
    exact h
  · rw [if_neg hnone, if_neg hnone]
    have hqueued := h.queued hnone
    dsimp only
    rw [h.size, pruneHistory]
    by_cases hfull : m.history.length = window.maxPredictionSteps
    · rw [if_pos hfull, if_pos hfull]
      obtain ⟨oldest, rest, hentries⟩ : ∃ oldest rest, m.history = oldest :: rest :=
        exists_cons_of_ne_nil fun hnil => hnone (by rw [← hfull, hnil]; rfl)
      rw [hentries] at hqueued hfull
      have hover := hqueued.overwrite (hfull.trans h.capacity.symm) ⟨step, checksum⟩
      rw [h.capacity] at hover
      -- the slot behind the newest entry is that of the oldest
      have hindex : (r.historyHead + m.history.length) % window.maxPredictionSteps =
          r.historyHead := by
        rw [hentries, hfull, Nat.add_mod_right]
        exact Nat.mod_eq_of_lt (hqueued.lt.trans_eq h.capacity)
      have hsize : (rest ++ [(⟨step, checksum⟩ : ChecksumEntry)]).length = m.history.length := by
        rw [hentries, length_append, length_singleton, length_cons]
      rw [hindex, ← hsize, hentries, cons_append, tail_cons]
      exact holds_pruneLoop _ (length_set.trans h.capacity) hover
    · rw [if_neg hfull, if_neg hfull]
      have hroom : m.history.length < r.history.length :=
        lt_of_le_of_ne hqueued.fits (h.capacity.symm ▸ hfull)
      have hpushed := hqueued.push hroom ⟨step, checksum⟩
      rw [h.capacity] at hpushed
      have hsize : (m.history ++ [(⟨step, checksum⟩ : ChecksumEntry)]).length =
          m.history.length + 1 := length_append
      change Holds _ (pruneLoop _ _ (m.history.length + 1) _ _) _
      rw [← hsize]
      exact holds_pruneLoop _ (length_set.trans h.capacity) hpushed

/-- Looking at the positions of a list one after the other is looking at its elements. -/
theorem findSome?_range {α β : Type*} {l : List α} {f : α → Option β} {g : ℕ → Option β}
    (h : ∀ i (hi : i < l.length), g i = f l[i]) :
    (range l.length).findSome? g = l.findSome? f := by
  induction l generalizing g with
  | nil => rfl
  | cons a l ih =>
    rw [length_cons, range_succ_eq_map, findSome?_cons, findSome?_cons,
      findSome?_map, h 0 (Nat.zero_lt_succ _)]
    have hrest := ih (g := g ∘ Nat.succ) fun i hi => h (i + 1) (Nat.succ_lt_succ hi)
    rw [hrest]
    rfl

/-- **A lookup** in the ring finds what a lookup in the list finds. -/
theorem Holds.findChecksum {m : PredictionManager} (h : Holds historyCapacity r m.history)
    (step : ℚ) : r.findChecksum historyCapacity step = m.findChecksum step := by
  have hlist : m.findChecksum step = m.history.findSome? fun entry =>
      if entry.step = step then some entry.checksum else none := by
    rw [PredictionManager.findChecksum]
    induction m.history with
    | nil => rfl
    | cons entry rest ih =>
      rw [find?_cons, findSome?_cons]
      by_cases hfound : entry.step = step
      · simp [hfound]
      · simpa [hfound] using ih
  rw [hlist, ChecksumRing.findChecksum, h.size]
  refine findSome?_range fun offset hoffset => ?_
  have hnone : historyCapacity ≠ 0 := fun hzero => by
    rw [h.none_fits hzero] at hoffset
    exact Nat.not_lt_zero _ hoffset
  have hread := (h.queued hnone).read hoffset
  rw [h.capacity] at hread
  rw [hread]
  rfl

end ChecksumRing

end IdleEngine
