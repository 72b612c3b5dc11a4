import Mathlib.Data.List.Basic
import Mathlib.Order.Defs.PartialOrder

/-!
# Edge triggers that pay and rest

A trigger looks at a comparison from time to time. It fires when the comparison holds, when it
remembers no earlier look at which it held, when it does not rest and when it can pay; then it
remembers that the comparison held, and rests for a while. At every other look it forgets if the
comparison does not hold, whether it rests or not.

Between two firings there is a look at which the comparison did not hold (`exists_not_holds`), no
firing is within the rest after another one (`rested`), and a trigger that could not pay fires at
the first look at which it can and the comparison holds (`fires_of_unpaid`). Two triggers that see
the same fire alike, also when their clocks differ (`Matches`).
-/

namespace EdgeTrigger

variable {T T' : Type}

/-- What a trigger keeps: whether it remembers the comparison as holding, and when it rests. -/
structure State (T : Type) where
  remembered : Bool
  rests : T → Bool

/-- One look: when it is, what is seen, and when the trigger would rest if it fired. -/
structure Look (T : Type) where
  time : T
  holds : Bool
  pays : Bool
  rest : T → Bool

def State.fires (s : State T) (look : Look T) : Bool :=
  !s.rests look.time && look.holds && !s.remembered && look.pays

def State.next (s : State T) (look : Look T) : State T :=
  if s.fires look then { remembered := true, rests := look.rest }
  else { s with remembered := s.remembered && look.holds }

/-- The trigger after some looks. -/
def State.after (s : State T) (looks : List (Look T)) : State T := looks.foldl State.next s

variable {s : State T} {look look' : Look T} {looks : List (Look T)}

theorem fires_iff :
    s.fires look = true ↔ s.rests look.time = false ∧ look.holds = true ∧ s.remembered = false ∧
      look.pays = true := by
  simp only [State.fires, Bool.and_eq_true, Bool.not_eq_true', and_assoc]

theorem next_of_fires (h : s.fires look = true) :
    s.next look = { remembered := true, rests := look.rest } := if_pos h

theorem next_of_not_fires (h : ¬ s.fires look = true) :
    s.next look = { s with remembered := s.remembered && look.holds } := if_neg h

/-! ### One firing after another -/

/-- While the comparison holds, the trigger remembers. -/
theorem remembered_after (hs : s.remembered = true) (hlooks : ∀ look ∈ looks, look.holds = true) :
    (s.after looks).remembered = true := by
  induction looks generalizing s with
  | nil => exact hs
  | cons look looks ih =>
    refine ih ?_ fun look' hlook' => hlooks look' (List.mem_cons_of_mem _ hlook')
    have hquiet : ¬ s.fires look = true := fun h => by
      rw [(fires_iff.mp h).2.2.1] at hs
      cases hs
    rw [next_of_not_fires hquiet]
    dsimp only
    rw [hs, hlooks look List.mem_cons_self]
    rfl

/-- **Between two firings** there is a look at which the comparison did not hold. -/
theorem exists_not_holds (h : s.fires look = true)
    (h' : ((s.next look).after looks).fires look' = true) : ∃ seen ∈ looks, seen.holds = false := by
  by_contra hall
  have hlooks : ∀ seen ∈ looks, seen.holds = true := by
    intro seen hseen
    by_contra hnot
    exact hall ⟨seen, hseen, by simpa using hnot⟩
  have hremembered : (s.next look).remembered = true := by rw [next_of_fires h]
  have hafter := remembered_after hremembered hlooks
  rw [(fires_iff.mp h').2.2.1] at hafter
  cases hafter

/-- Who rests at a time rests at all times before it. -/
def Closed [LE T] (rests : T → Bool) : Prop := ∀ t t', t ≤ t' → rests t' = true → rests t = true

/-- Looks during the rest leave it as it is. -/
theorem rests_after_resting {rest : T → Bool} (hs : s.rests = rest)
    (hlooks : ∀ look ∈ looks, rest look.time = true) : (s.after looks).rests = rest := by
  induction looks generalizing s with
  | nil => exact hs
  | cons look looks ih =>
    refine ih ?_ fun look' hlook' => hlooks look' (List.mem_cons_of_mem _ hlook')
    have hquiet : ¬ s.fires look = true := fun hfires => by
      have hawake := (fires_iff.mp hfires).1
      rw [hs, hlooks look List.mem_cons_self] at hawake
      cases hawake
    rw [next_of_not_fires hquiet]
    exact hs

/-- **Nobody fires while resting** from an earlier firing, whatever was seen in between. -/
theorem rested [LE T] (hclosed : Closed look.rest)
    (htimes : ∀ seen ∈ looks, seen.time ≤ look'.time) (h : s.fires look = true)
    (h' : ((s.next look).after looks).fires look' = true) : look.rest look'.time = false := by
  by_contra hrest
  have hlate : look.rest look'.time = true := by simpa using hrest
  -- the rest that began with the first firing lasts over all looks in between
  have hsame := @rests_after_resting _ (s.next look) _ _ (by rw [next_of_fires h]) fun seen hseen =>
    hclosed _ _ (htimes seen hseen) hlate
  have hawake := (fires_iff.mp h').1
  rw [hsame, hlate] at hawake
  cases hawake

/-- Looks that cannot be paid for leave a trigger that has forgotten as it is. -/
theorem after_of_unpaid (hs : s.remembered = false)
    (hlooks : ∀ look ∈ looks, ¬ (look.holds = true ∧ look.pays = true)) :
    (s.after looks).remembered = false ∧ (s.after looks).rests = s.rests := by
  induction looks generalizing s with
  | nil => exact ⟨hs, rfl⟩
  | cons look looks ih =>
    have hquiet : ¬ s.fires look = true := fun hfires =>
      hlooks look List.mem_cons_self ⟨(fires_iff.mp hfires).2.1, (fires_iff.mp hfires).2.2.2⟩
    have hnext := next_of_not_fires hquiet
    obtain ⟨hremembered, hrests⟩ := @ih (s.next look) (by rw [hnext, hs]; rfl)
      fun look' hlook' => hlooks look' (List.mem_cons_of_mem _ hlook')
    exact ⟨hremembered, hrests.trans (by rw [hnext])⟩

/-- **A trigger that could not pay** fires at the first look at which it can and the comparison
holds. -/
theorem fires_of_unpaid [LE T] (hclosed : Closed s.rests) (hawake : s.rests look.time = false)
    (hforgot : s.remembered = false)
    (hunpaid : ∀ seen ∈ look :: looks, ¬ (seen.holds = true ∧ seen.pays = true))
    (htime : look.time ≤ look'.time) (hholds : look'.holds = true) (hpays : look'.pays = true) :
    ((s.next look).after looks).fires look' = true := by
  obtain ⟨hremembered, hrests⟩ := after_of_unpaid hforgot hunpaid
  refine fires_iff.mpr ⟨?_, hholds, hremembered, hpays⟩
  change (s.after (look :: looks)).rests look'.time = false
  rw [hrests]
  by_contra hrest
  have hearly := hclosed _ _ htime (by simpa using hrest)
  rw [hawake] at hearly
  cases hearly

/-! ### Two clocks -/

/-- Two triggers remember alike, and rest alike at corresponding times. -/
structure Matches (R : T → T' → Prop) (s : State T) (s' : State T') : Prop where
  remembered : s'.remembered = s.remembered
  rests : ∀ t t', R t t' → s'.rests t' = s.rests t

/-- Two looks, at corresponding times, see the same. -/
structure Alike (R : T → T' → Prop) (look : Look T) (look' : Look T') : Prop where
  time : R look.time look'.time
  holds : look'.holds = look.holds
  pays : look'.pays = look.pays
  rest : ∀ t t', R t t' → look'.rest t' = look.rest t

section Clocks

variable {R : T → T' → Prop} {s' : State T'} {seen : Look T'}

/-- Triggers that match at some times match at fewer. -/
theorem Matches.mono {R' : T → T' → Prop} (h : Matches R s s') (hR : ∀ t t', R' t t' → R t t') :
    Matches R' s s' := ⟨h.remembered, fun t t' ht => h.rests t t' (hR t t' ht)⟩

theorem Matches.fires (h : Matches R s s') (hlook : Alike R look seen) :
    s'.fires seen = s.fires look := by
  rw [State.fires, State.fires, h.rests _ _ hlook.time, hlook.holds, h.remembered, hlook.pays]

theorem Matches.next (h : Matches R s s') (hlook : Alike R look seen) :
    Matches R (s.next look) (s'.next seen) := by
  have hfires := h.fires hlook
  by_cases hfire : s.fires look = true
  · rw [next_of_fires hfire, next_of_fires (hfires.trans hfire)]
    exact ⟨rfl, hlook.rest⟩
  · rw [next_of_not_fires hfire, next_of_not_fires (by rwa [hfires])]
    exact ⟨by dsimp only; rw [h.remembered, hlook.holds], h.rests⟩

end Clocks

end EdgeTrigger
