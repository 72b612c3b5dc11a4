import Mathlib.Data.List.Forall2
import Mathlib.Data.List.Nodup

/-!
# First-fit assignment

Jobs come one after the other, each with the least place it may take, and each takes the first free
place that fits it. Where places that fit a common job fit the same jobs (`Exchangeable`), nothing is
lost by taking the first one: whoever would have needed it can take the later place instead. So all
jobs find a place whenever they can be assigned to different places at all (`assign_isSome_iff`).
-/

namespace FirstFit

open List

variable {S J : Type} (fits : S → J → Bool) (slots : List S) (IsJob : J → Prop)

/-- The place is not too early for the job, and fits it. -/
def Suits (job : ℕ × J) (place : ℕ) : Prop :=
  job.1 ≤ place ∧ ∃ slot, slots[place]? = some slot ∧ fits slot job.2 = true

/-- The first place for a job that is not taken. -/
def firstFit (start : ℕ) (job : J) (taken : List ℕ) : Option ℕ :=
  (List.range slots.length).find? fun i =>
    decide (start ≤ i) && !taken.contains i && (slots[i]?).any fun slot => fits slot job

/-- All jobs take their places; nothing if one of them finds none. -/
def assign : List (ℕ × J) → List ℕ → Option (List ℕ)
  | [], taken => some taken
  | job :: jobs, taken =>
      (firstFit fits slots job.1 job.2 taken).bind fun place => assign jobs (taken ++ [place])

/-- Places that fit a common job fit the same jobs. -/
def Exchangeable : Prop :=
  ∀ slot ∈ slots, ∀ slot' ∈ slots, ∀ job job', IsJob job → IsJob job' → fits slot job = true →
    fits slot' job = true → fits slot job' = true → fits slot' job' = true

variable {fits slots IsJob}

variable {start place : ℕ} {job : J} {taken : List ℕ}

theorem fits_iff :
    (decide (start ≤ place) && !taken.contains place &&
        (slots[place]?).any fun slot => fits slot job) = true ↔
      Suits fits slots (start, job) place ∧ place ∉ taken := by
  simp only [Suits, Bool.and_eq_true, decide_eq_true_eq, Bool.not_eq_true', Option.any_eq_true,
    contains_eq_mem, decide_eq_false_iff_not]
  tauto

theorem Suits.lt_length {job : ℕ × J} (h : Suits fits slots job place) :
    place < slots.length := by
  obtain ⟨-, slot, hslot, -⟩ := h
  exact (List.getElem?_eq_some_iff.mp hslot).1

theorem firstFit_suits (h : firstFit fits slots start job taken = some place) :
    Suits fits slots (start, job) place ∧ place ∉ taken := by
  have hfits := find?_some h
  exact fits_iff.mp hfits

/-- Where some place suits, the first one is no later. -/
theorem exists_firstFit (hsuits : Suits fits slots (start, job) place) (hfree : place ∉ taken) :
    ∃ first, firstFit fits slots start job taken = some first ∧ first ≤ place := by
  rcases hfirst : firstFit fits slots start job taken with _ | first
  · have hnone := find?_eq_none.mp hfirst place (mem_range.mpr hsuits.lt_length)
    exact absurd (fits_iff.mpr ⟨hsuits, hfree⟩) hnone
  · refine ⟨first, rfl, ?_⟩
    by_contra hlater
    have hbefore := (find?_range_eq_some.mp hfirst).2.2 place (by omega)
    rw [fits_iff.mpr ⟨hsuits, hfree⟩] at hbefore
    exact absurd hbefore (by decide)

theorem assign_append (jobs jobs' : List (ℕ × J)) (taken : List ℕ) :
    assign fits slots (jobs ++ jobs') taken =
      (assign fits slots jobs taken).bind (assign fits slots jobs') := by
  induction jobs generalizing taken with
  | nil => rfl
  | cons job jobs ih => simp only [cons_append, assign, ih, Option.bind_assoc]

/-- Who needed the first place can take the later one. -/
theorem Suits.exchange (hexchange : Exchangeable fits slots IsJob) {job other : ℕ × J}
    (hjob : IsJob job.2) (hisOther : IsJob other.2) {first : ℕ}
    (hfirst : Suits fits slots job first) (hplace : Suits fits slots job place)
    (hle : first ≤ place) (hother : Suits fits slots other first) :
    Suits fits slots other place := by
  obtain ⟨-, slot, hslot, hfits⟩ := hfirst
  obtain ⟨-, slot', hslot', hfits'⟩ := hplace
  obtain ⟨hstart, slot'', hslot'', hneeds⟩ := hother
  obtain rfl : slot = slot'' := Option.some.inj (hslot.symm.trans hslot'')
  exact ⟨Nat.le_trans hstart hle, slot', hslot', hexchange slot (mem_of_getElem? hslot) slot'
    (mem_of_getElem? hslot') job.2 other.2 hjob hisOther hfits hfits' hneeds⟩

/-- **First fit is optimal**: all jobs find a place exactly when they can be assigned to different
places that are free. -/
theorem assign_isSome_iff (hexchange : Exchangeable fits slots IsJob) {jobs : List (ℕ × J)}
    (hjobs : ∀ job ∈ jobs, IsJob job.2) :
    (assign fits slots jobs taken).isSome ↔
      ∃ places : List ℕ, List.Forall₂ (Suits fits slots) jobs places ∧ places.Nodup ∧
        ∀ place ∈ places, place ∉ taken := by
  constructor
  · intro h
    induction jobs generalizing taken with
    | nil => exact ⟨[], .nil, nodup_nil, by simp⟩
    | cons job jobs ih =>
      rcases hfirst : firstFit fits slots job.1 job.2 taken with _ | first
      · rw [assign, hfirst] at h
        cases h
      · rw [assign, hfirst] at h
        obtain ⟨hsuits, hfree⟩ := firstFit_suits hfirst
        obtain ⟨places, hplaces, hnodup, hrest⟩ := ih (forall_mem_cons.mp hjobs).2 h
        refine ⟨first :: places, .cons hsuits hplaces, nodup_cons.mpr ⟨fun hmem => ?_, hnodup⟩,
          forall_mem_cons.mpr ⟨hfree, fun place hplace => ?_⟩⟩
        · exact hrest first hmem (by simp)
        · exact fun htaken => hrest place hplace (mem_append_left _ htaken)
  · rintro ⟨places, hplaces, hnodup, hfree⟩
    induction jobs generalizing taken places with
    | nil => rfl
    | cons job jobs ih =>
      obtain ⟨place, rest, hsuits, hrest, rfl⟩ := forall₂_cons_left_iff.mp hplaces
      obtain ⟨hnew, hnodup⟩ := nodup_cons.mp hnodup
      obtain ⟨hplaceFree, hfree⟩ := forall_mem_cons.mp hfree
      obtain ⟨first, hfirst, hle⟩ := exists_firstFit hsuits hplaceFree
      obtain ⟨hfirstSuits, hfirstFree⟩ := firstFit_suits hfirst
      rw [assign, hfirst, Option.bind_some]
      -- in the rest of the assignment the place of this job stands in for the one it takes
      obtain ⟨hjob, hjobs⟩ := forall_mem_cons.mp hjobs
      refine ih hjobs (rest.map fun other => if other = first then place else other) ?_ ?_ ?_
      · refine forall₂_map_right_iff.mpr ?_
        refine ((forall₂_and_left _ _).mpr ⟨hjobs, hrest⟩).imp fun other used hused => ?_
        split
        · next hsame =>
          exact hfirstSuits.exchange hexchange hjob hused.1 hsuits hle (hsame ▸ hused.2)
        · exact hused.2
      · refine hnodup.map_on fun a ha b hb hab => ?_
        have hne : ∀ c ∈ rest, c ≠ place := fun c hc heq => hnew (heq ▸ hc)
        have := hne a ha
        have := hne b hb
        split at hab <;> split at hab <;> omega
      · intro used hused
        obtain ⟨other, hother, rfl⟩ := mem_map.mp hused
        rw [mem_append, mem_singleton, not_or]
        split
        · next hsame => exact ⟨hplaceFree, fun heq => hnew (by rwa [heq, ← hsame])⟩
        · next hne => exact ⟨hfree other hother, hne⟩

end FirstFit
